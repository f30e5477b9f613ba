import TemplateCompiler.Problem

/-! A value together with the problems met on the way to it, in order. Work that takes a slice which
is not there has failed; what it goes on to give stands for nothing. -/

namespace TemplateCompiler

structure Reported (α : Type) where
  value : α
  problems : List Problem := []
  fault? : Option Fault := none
deriving Inhabited, Repr

namespace Reported

instance : Monad Reported where
  pure value := { value }
  bind first next :=
    let second := next first.value
    { value := second.value
      problems := first.problems ++ second.problems
      fault? := first.fault?.or second.fault? }

def report (problem : Problem) : Reported Unit :=
  { value := (), problems := [problem] }

def slice (text : List Char) (start stop : Nat) : Reported String :=
  { value := String.ofList ((text.take stop).drop start)
    fault? := if start ≤ stop ∧ stop ≤ text.length then none else some .sliceOutOfRange }

@[simp]
theorem value_pure {α : Type} (value : α) : (pure value : Reported α).value = value := rfl

@[simp]
theorem problems_pure {α : Type} (value : α) : (pure value : Reported α).problems = [] := rfl

@[simp]
theorem value_bind {α β : Type} (first : Reported α) (next : α → Reported β) :
    (first >>= next).value = (next first.value).value := rfl

@[simp]
theorem problems_bind {α β : Type} (first : Reported α) (next : α → Reported β) :
    (first >>= next).problems = first.problems ++ (next first.value).problems := rfl

@[simp]
theorem fault?_pure {α : Type} (value : α) : (pure value : Reported α).fault? = none := rfl

@[simp]
theorem fault?_bind {α β : Type} (first : Reported α) (next : α → Reported β) :
    (first >>= next).fault? = first.fault?.or (next first.value).fault? := rfl

@[simp]
theorem value_slice (text : List Char) (start stop : Nat) :
    (slice text start stop).value = String.ofList ((text.take stop).drop start) := rfl

@[simp]
theorem problems_slice (text : List Char) (start stop : Nat) :
    (slice text start stop).problems = [] := rfl

theorem fault?_slice {text : List Char} {start stop : Nat} (ordered : start ≤ stop)
    (inside : stop ≤ text.length) : (slice text start stop).fault? = none :=
  if_pos ⟨ordered, inside⟩

section Lists

variable {α β : Type}

@[simp]
theorem value_mapM (work : α → Reported β) (list : List α) :
    (list.mapM work).value = list.map fun item => (work item).value := by
  suffices collected : ∀ done : List β, (List.mapM.loop work list done).value =
      done.reverse ++ list.map fun item => (work item).value from collected []
  induction list with
  | nil => simp [List.mapM.loop]
  | cons item rest ih =>
    intro done
    rw [List.mapM.loop, value_bind, ih]
    simp

theorem problems_mapM (work : α → Reported β) (list : List α) :
    (list.mapM work).problems = list.flatMap fun item => (work item).problems := by
  suffices collected : ∀ done : List β, (List.mapM.loop work list done).problems =
      list.flatMap fun item => (work item).problems from collected []
  induction list with
  | nil => exact fun _ => rfl
  | cons item rest ih =>
    intro done
    rw [List.mapM.loop, problems_bind, ih, List.flatMap_cons]

/-- Work on a list fails where it fails first. -/
theorem fault?_mapM (work : α → Reported β) (list : List α) :
    (list.mapM work).fault? = list.findSome? fun item => (work item).fault? := by
  suffices looped : ∀ done : List β, (List.mapM.loop work list done).fault? =
      list.findSome? fun item => (work item).fault? from looped []
  induction list with
  | nil => exact fun _ => rfl
  | cons item rest ih =>
    intro done
    rw [List.mapM.loop, fault?_bind, ih, List.findSome?_cons]
    cases (work item).fault? with
    | none => rfl
    | some => rfl

end Lists

end Reported

/-- An action on a state. It may stop with a fault, and it may never come to an end. -/
abbrev Acting (σ : Type) := StateT σ (ExceptT Fault Option)

def fallible {σ α : Type} : Except Fault α → Acting σ α
  | .ok value => return value
  | .error fault => throw fault

def assert {σ : Type} (holds : Bool) : Acting σ Unit :=
  fallible (if holds then .ok () else .error .assertionFailed)

end TemplateCompiler
