import TemplateCompiler.Lowering.Properties

/-! How the properties of an element come together. What holds of all contributions and is kept by
merging and adding holds of the collected properties, so that a statement about them has to look at
one contribution and one step only. -/

namespace TemplateCompiler

namespace Reported

variable {α β : Type}

@[simp]
theorem value_filterMapM (work : α → Reported (Option β)) (list : List α) :
    (list.filterMapM work).value = list.filterMap fun item => (work item).value := by
  suffices collected : ∀ done : List β, (List.filterMapM.loop work list done).value =
      done.reverse ++ list.filterMap fun item => (work item).value from collected []
  induction list with
  | nil => simp [List.filterMapM.loop]
  | cons item rest ih =>
    intro done
    rw [List.filterMapM.loop, value_bind, List.filterMap_cons]
    cases (work item).value with
    | none => exact ih done
    | some made =>
      refine (ih (made :: done)).trans ?_
      simp

theorem fault?_filterMapM (work : α → Reported (Option β)) (list : List α) :
    (list.filterMapM work).fault? = list.findSome? fun item => (work item).fault? := by
  suffices looped : ∀ done : List β, (List.filterMapM.loop work list done).fault? =
      list.findSome? fun item => (work item).fault? from looped []
  induction list with
  | nil => exact fun _ => rfl
  | cons item rest ih =>
    intro done
    rw [List.filterMapM.loop, fault?_bind, List.findSome?_cons]
    cases (work item).fault? with
    | none =>
      cases (work item).value with
      | none => exact ih done
      | some made => exact ih (made :: done)
    | some => rfl

theorem problems_filterMapM (work : α → Reported (Option β)) (list : List α) :
    (list.filterMapM work).problems = list.flatMap fun item => (work item).problems := by
  suffices collected : ∀ done : List β, (List.filterMapM.loop work list done).problems =
      list.flatMap fun item => (work item).problems from collected []
  induction list with
  | nil => exact fun _ => rfl
  | cons item rest ih =>
    intro done
    rw [List.filterMapM.loop, problems_bind, List.flatMap_cons]
    cases (work item).value with
    | none => exact congrArg _ (ih done)
    | some made => exact congrArg _ (ih (made :: done))

end Reported

/-- Entries keep what two merged entries of one name keep. -/
theorem forall_addEntry {holds : Entry → Prop} {entries : List Entry} {entry : Entry}
    (merged : ∀ old new : Entry, ∀ name, old.1.staticKey? = some name →
      new.1.staticKey? = some name → holds old → holds new →
      holds (old.1, mergeValues old.2 new.2))
    (old : ∀ other ∈ entries, holds other) (new : holds entry) :
    ∀ other ∈ addEntry entries entry, holds other := by
  have appended : ∀ other ∈ entries ++ [entry], holds other := by
    intro other member
    rcases List.mem_append.1 member with early | late
    · exact old other early
    · cases List.mem_singleton.1 late
      exact new
  simp only [addEntry]
  split
  · exact appended
  · next name named =>
    split
    · split
      · intro changed member
        obtain ⟨other, inside, rfl⟩ := List.mem_map.1 member
        split
        · next same => exact merged other entry name (eq_of_beq same) named (old other inside) new
        · exact old other inside
      · exact old
    · exact appended

theorem forall_dedupe {holds : Entry → Prop} {entries : List Entry}
    (merged : ∀ old new : Entry, ∀ name, old.1.staticKey? = some name →
      new.1.staticKey? = some name → holds old → holds new →
      holds (old.1, mergeValues old.2 new.2))
    (given : ∀ entry ∈ entries, holds entry) : ∀ entry ∈ dedupe entries, holds entry := by
  suffices collected : ∀ done : List Entry, (∀ entry ∈ done, holds entry) →
      ∀ entry ∈ entries.foldl addEntry done, holds entry from
    collected [] (List.forall_mem_nil _)
  induction entries with
  | nil => exact fun done old => old
  | cons entry rest ih =>
    obtain ⟨own, others⟩ := List.forall_mem_cons.1 given
    exact fun done old => ih others _ (forall_addEntry merged old own)

section Contributions

variable (around : Surroundings) (element : Element)

/-- What the properties of an element contribute, class by class. -/
def contributions : List Contribution :=
  element.properties.map (fun property => (plainContribution around element property).value) ++
    (directivesNamed element.properties "on").map
      (fun directive => (Contribution.ofListener around directive).value) ++
    (directivesNamed element.properties "model").map
      (fun directive => (Contribution.ofModel around element directive).value)

def collectedProperties : Collection :=
  (contributions around element).foldl (Collection.add (element.kind = .component)) {}

def appliedDirectives : List RuntimeDirective :=
  (element.properties.filterMap Property.directive?).filterMap fun directive =>
    (lowerRuntime around directive).value

theorem value_lowerProperties :
    (lowerProperties around element).value = {
      props := (collectedProperties around element).expr?
      directives := appliedDirectives around element
      patchFlag := (collectedProperties around element).traits.patchFlag
        (element.kind = .component) (!(appliedDirectives around element).isEmpty)
      dynamicProps :=
        (collectedProperties around element).traits.dynamicNames.map Expr.madeLiteral } := by
  simp only [lowerProperties, Reported.value_bind, Reported.value_pure, Reported.value_mapM,
    Reported.value_filterMapM]
  rfl

variable {around element}

theorem collectedProperties_of {holds : Collection → Prop} {fits : Contribution → Prop}
    (empty : holds {})
    (add : ∀ {collection contribution}, holds collection → fits contribution →
      holds (collection.add (element.kind = .component) contribution))
    (plain : ∀ property, fits (plainContribution around element property).value)
    (listeners : ∀ directive, fits (Contribution.ofListener around directive).value)
    (models : ∀ directive, fits (Contribution.ofModel around element directive).value) :
    holds (collectedProperties around element) := by
  have given : ∀ contribution ∈ contributions around element, fits contribution := by
    intro contribution member
    simp only [contributions, List.mem_append, List.mem_map] at member
    rcases member with (⟨property, _, rfl⟩ | ⟨directive, _, rfl⟩) | ⟨directive, _, rfl⟩
    · exact plain property
    · exact listeners directive
    · exact models directive
  unfold collectedProperties
  generalize contributions around element = list at given
  generalize ({} : Collection) = start at empty
  induction list generalizing start with
  | nil => exact empty
  | cons contribution rest ih =>
    obtain ⟨own, others⟩ := List.forall_mem_cons.1 given
    exact ih others _ (add empty own)

end Contributions

end TemplateCompiler
