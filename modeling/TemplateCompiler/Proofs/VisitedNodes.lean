import TemplateCompiler.Proofs.EmittedPlaces
import TemplateCompiler.Proofs.UnfoldedViews

/-! The nodes that are written. The code of a node has the code of other nodes inside, so the nodes
that hoisted constants and the returned code begin with lead to all others. Each is followed by
those inside of it. -/

namespace TemplateCompiler

/-- A node that is written, either in the cell that keeps it or as the item that a loop keeps. -/
structure Visit where
  id : NodeId
  asItem : Bool
deriving DecidableEq, Repr

namespace Visit

def whole (id : NodeId) : Visit :=
  ⟨id, false⟩

end Visit

namespace Plan

variable {plan : Plan} {first second third : List Visit}

def keepsItems (plan : Plan) (id : NodeId) : Bool :=
  match (plan.table.get? id).bind (·.cache) with
  | some { kind := .memoInLoop _ _, .. } => true
  | _ => false

theorem keepsItems_iff {id : NodeId} : plan.keepsItems id = true ↔
    ∃ slot dependencies key,
      (plan.table.get? id).bind (·.cache) =
        some { slot, kind := .memoInLoop dependencies key } := by
  unfold keepsItems
  split
  · next kept => simp [kept]
  · next other =>
    refine iff_of_false (by simp) ?_
    rintro ⟨slot, dependencies, key, kept⟩
    exact other slot dependencies key kept

def inside (plan : Plan) (id : NodeId) : List Visit :=
  match plan.table.get? id with
  | none => []
  | some { body := .loop call, .. } => [⟨call.body, plan.keepsItems call.body⟩]
  | some code => code.references.map .whole

theorem inside_of_loop {id : NodeId} {call : LoopCall} {cache : Option CacheCell}
    (found : plan.table.get? id = some { body := .loop call, cache }) :
    plan.inside id = [⟨call.body, plan.keepsItems call.body⟩] := by
  rw [inside, found]

theorem inside_of_other {id : NodeId} {code : Code} (found : plan.table.get? id = some code)
    (other : ∀ call, code.body ≠ .loop call) : plan.inside id = code.references.map .whole := by
  rw [inside, found]
  split
  · contradiction
  · next same =>
    cases same
    exact absurd rfl (other _)
  · next same =>
    cases same
    rfl

/-- The nodes that are not written inside of others. -/
def starts (plan : Plan) : List Visit :=
  (plan.hoists.flatMap (·.children) ++ plan.root.ids).map .whole

/-- All nodes that are written for these, each in front of those inside of it. -/
inductive Order (plan : Plan) : List Visit → List Visit → Prop
  | nil : Order plan [] []
  | cons {visit : Visit} {rest below later : List Visit}
      (within : Order plan (plan.inside visit.id) below) (after : Order plan rest later) :
      Order plan (visit :: rest) (visit :: (below ++ later))

theorem Order.unique (one : plan.Order first second) (other : plan.Order first third) :
    second = third := by
  induction one generalizing third with
  | nil =>
    cases other
    rfl
  | cons _ _ inner later =>
    cases other with
    | cons within after => rw [inner within, later after]

/-- What is written for several nodes is what is written for each. -/
theorem Order.split (order : plan.Order first second) :
    ∃ orders, second = orders.flatten ∧
      List.Forall₂ (fun visit order => plan.Order [visit] order) first orders := by
  induction order with
  | nil => exact ⟨[], rfl, .nil⟩
  | @cons visit rest below later within _ _ ih =>
    obtain ⟨orders, rfl, each⟩ := ih
    refine ⟨(visit :: below) :: orders, by simp, .cons ?_ each⟩
    have alone := Order.cons within .nil
    rwa [List.append_nil] at alone

theorem Order.of_append (order : plan.Order (first ++ second) third) :
    ∃ front back, third = front ++ back ∧ plan.Order first front ∧ plan.Order second back := by
  induction first generalizing third with
  | nil => exact ⟨[], third, rfl, .nil, order⟩
  | cons visit rest ih =>
    cases order with
    | cons within after =>
      obtain ⟨front, back, rfl, former, latter⟩ := ih after
      exact ⟨visit :: (_ ++ front), back, by simp, .cons within former, latter⟩

theorem Order.singleton {visit : Visit} (order : plan.Order [visit] second) :
    ∃ below, second = visit :: below ∧ plan.Order (plan.inside visit.id) below := by
  cases order with
  | cons within after =>
    cases after
    exact ⟨_, by rw [List.append_nil], within⟩

theorem refers_of_mem_inside {id : NodeId} {visit : Visit} (member : visit ∈ plan.inside id) :
    plan.Refers id visit.id := by
  unfold inside at member
  split at member
  · cases member
  · next call cache found =>
    rw [List.mem_singleton] at member
    subst member
    exact ⟨_, found, List.mem_singleton_self _⟩
  · next code _ found =>
    obtain ⟨inner, listed, rfl⟩ := List.mem_map.1 member
    exact ⟨code, found, listed⟩

theorem Acyclic.exists_order (acyclic : plan.Acyclic) (visits : List Visit) :
    ∃ order, plan.Order visits order := by
  have listed {visits : List Visit}
      (each : ∀ visit ∈ visits, ∃ below, plan.Order (plan.inside visit.id) below) :
      ∃ order, plan.Order visits order := by
    induction visits with
    | nil => exact ⟨[], .nil⟩
    | cons visit rest ih =>
      obtain ⟨⟨below, within⟩, others⟩ := List.forall_mem_cons.1 each
      obtain ⟨later, after⟩ := ih others
      exact ⟨_, .cons within after⟩
  have within (id : NodeId) : ∃ below, plan.Order (plan.inside id) below := by
    induction id using acyclic.induct with
    | step id ih => exact listed fun inner member => ih inner.id (refers_of_mem_inside member)
  exact listed fun visit _ => within visit.id

/-- The part of the template that a node stands for. -/
def place (plan : Plan) (id : NodeId) : Span :=
  ((plan.template.nodes[id]?).map (·.span)).getD {}

def written (plan : Plan) (onContext : String) (id : NodeId) : Written :=
  (plan.view plan.spans id).write onContext

/-- The code of an item leaves out the cell, as the loop looks it up. -/
def pieces (plan : Plan) (onContext : String) (visit : Visit) : Pieces :=
  if visit.asItem then (plan.written onContext visit.id).bare
  else (plan.written onContext visit.id).full

theorem Acyclic.written_eq (acyclic : plan.Acyclic) (onContext : String) (id : NodeId) :
    plan.written onContext id = writeCode onContext (plan.place id)
      ((((plan.table.get? id).map Code.references).getD []).map (plan.written onContext))
      (plan.table.get? id) := by
  rw [written, acyclic.view_eq, View.write, View.writeAll_eq_map, List.map_map]
  congr 1
  simp [place, spans]

theorem span_written (acyclic : plan.Acyclic) (onContext : String) (id : NodeId) :
    (plan.written onContext id).span = plan.place id := by
  rw [acyclic.written_eq]
  cases plan.table.get? id <;> rfl

theorem code_written (acyclic : plan.Acyclic) (onContext : String) (id : NodeId) :
    (plan.written onContext id).code = plan.table.get? id := by
  rw [acyclic.written_eq]
  cases plan.table.get? id <;> rfl

theorem vnodeCode_eq (plan : Plan) (option : EmitOption) (call : VNode) :
    plan.vnodeCode option plan.spans call =
      vnodePieces option.onContext call (call.children.map (plan.written option.onContext)) := by
  rw [vnodeCode, View.writeAll_eq_map, List.map_map]
  rfl

end Plan

end TemplateCompiler
