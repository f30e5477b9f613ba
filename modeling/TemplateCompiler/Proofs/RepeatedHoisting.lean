import TemplateCompiler.Proofs.HoistRelocation

/-! Hoisting a second time. The element that a constant was made of is a reference from then on, and
a reference is not static; so the search goes on below it, where all elements are static still. To
hoist again changes nothing just if no constant has an element among its children. -/

namespace TemplateCompiler

namespace Plan

def isConstant (plan : Plan) (id : NodeId) : Bool :=
  match plan.table.get? id with
  | some { body := .hoisted _, .. } => true
  | _ => false

theorem isConstant_iff {plan : Plan} {id : NodeId} : plan.isConstant id = true ↔
    ∃ index cache, plan.table.get? id = some { body := .hoisted index, cache } := by
  rw [isConstant]
  split
  · next index cache found => exact ⟨fun _ => ⟨index, cache, found⟩, fun _ => rfl⟩
  · next other =>
    constructor
    · intro constant
      cases constant
    · intro found
      obtain ⟨index, cache, found⟩ := found
      exact absurd found (other index cache)

/-- No constant has an element among its children. -/
def Flat (plan : Plan) : Prop :=
  ∀ node ∈ Node.flattenAll plan.template.roots, plan.isConstant node.id = true →
    ∀ child ∈ node.children, child.isElement = false

instance (plan : Plan) : Decidable plan.Flat :=
  inferInstanceAs (Decidable (∀ node ∈ Node.flattenAll plan.template.roots,
    plan.isConstant node.id = true → ∀ child ∈ node.children, child.isElement = false))

variable {plan : Plan}

theorem hoist_eq_self_iff (distinct : ∀ number, Node.tally number plan.template.roots ≤ 1) :
    plan.hoist = plan ↔ plan.movedIds = [] := by
  constructor
  · intro same
    have length := (plan.hoist_moved distinct).length
    rw [same] at length
    exact List.eq_nil_of_length_eq_zero (by rw [movedIds]; omega)
  · intro none
    change plan.movedIds.foldl hoistNode plan = plan
    rw [none, List.foldl_nil]

section

variable (distinct : ∀ number, Node.tally number plan.template.roots ≤ 1)
include distinct

theorem roots_hoist : plan.hoist.template.roots = plan.template.roots :=
  congrArg (·.template.roots) (plan.hoist_moved distinct).rest

theorem movedIds_hoist : plan.hoist.movedIds =
    staticElementsAll plan.hoist.table plan.marks plan.template.roots := by
  have marks : plan.hoist.marks = plan.marks := congrArg (·.marks) (plan.hoist_moved distinct).rest
  rw [movedIds, marks, roots_hoist distinct]

theorem get?_hoist_of_moved {id : NodeId} (moved : id ∈ plan.movedIds) :
    ∃ index, plan.hoist.table.get? id = some { body := .hoisted index } := by
  obtain ⟨index, listed⟩ := List.mem_iff_getElem?.1 moved
  obtain ⟨_, _, reference, _⟩ := (plan.hoist_moved distinct).moved index id listed
  exact ⟨_, reference⟩

theorem static_of_hoist {node : Node} {above : List Node}
    (lineage : Node.Lineage plan.template.roots node above)
    (static : Static plan.hoist.table plan.marks node) : Static plan.table plan.marks node := by
  apply static.congr
  intro number present
  symm
  apply (plan.hoist_moved distinct).kept
  intro moved
  obtain ⟨inner, inside, rfl⟩ := Node.tally_pos_iff.1 present
  obtain ⟨between, within⟩ := Node.mem_flattenAll_iff.1 inside
  obtain ⟨_, elements, _⟩ := static_of_moved distinct (lineage.append within) moved
  obtain ⟨⟨isElement, _⟩, around⟩ := List.forall_mem_cons.1 elements
  have below := static.inside within fun outer listed =>
    (around outer (List.mem_append_left above listed)).1
  obtain ⟨vnode, code, _⟩ := below.vnode isElement
  obtain ⟨index, reference⟩ := get?_hoist_of_moved distinct moved
  cases code.symm.trans reference

/-- Nothing is moved the second time just if what was moved the first time has no element among its
children. -/
theorem movedIds_hoist_eq_nil_iff : plan.hoist.movedIds = [] ↔
    ∀ node ∈ Node.flattenAll plan.template.roots, node.id ∈ plan.movedIds →
      ∀ child ∈ node.children, child.isElement = false := by
  rw [movedIds_hoist distinct]
  constructor
  · intro none node inside moved child member
    by_contra isElement
    rw [Bool.not_eq_false] at isElement
    obtain ⟨above, lineage⟩ := Node.mem_flattenAll_iff.1 inside
    obtain ⟨static, elements, stay⟩ := static_of_moved distinct lineage moved
    have below := static.child (elements node List.mem_cons_self).1 member
    -- The code below what was moved is as it was, so an element there is still static.
    have later : Static plan.hoist.table plan.marks child := by
      apply below.congr
      intro number present
      apply (plan.hoist_moved distinct).kept
      apply stay
      have := Node.tally_le_of_mem number member
      omega
    obtain ⟨outer, _, again⟩ := exists_moved_of_static (.child lineage member)
      (List.forall_mem_cons.2 ⟨⟨isElement, below.unmarked⟩, elements⟩) later
    rw [none] at again
    cases again
  · intro flat
    rw [List.eq_nil_iff_forall_not_mem]
    intro id again
    obtain ⟨node, above, lineage, rfl⟩ := exists_lineage_of_moved again
    obtain ⟨static, elements, _⟩ := static_of_moved distinct lineage again
    obtain ⟨vnode, code, _⟩ := static.vnode (elements node List.mem_cons_self).1
    -- What is static now was so before, so it was moved itself or something around it was.
    obtain ⟨outer, listed, moved⟩ :=
      exists_moved_of_static lineage elements (static_of_hoist distinct lineage static)
    rcases List.mem_cons.1 listed with rfl | around
    · obtain ⟨index, reference⟩ := get?_hoist_of_moved distinct moved
      cases code.symm.trans reference
    · obtain ⟨child, between, member, further, place⟩ := lineage.exists_child around
      have noElement := flat outer (Node.mem_flattenAll_iff.2 ⟨further, place⟩) moved child member
      rw [(elements child between).1] at noElement
      cases noElement

/-- Where there were no constants, there is nothing left to hoist just if the constants are flat. -/
theorem movedIds_hoist_eq_nil_iff_flat
    (noReference : ∀ id index cache, plan.table.get? id ≠ some { body := .hoisted index, cache }) :
    plan.hoist.movedIds = [] ↔ plan.hoist.Flat := by
  have constant (id : NodeId) : plan.hoist.isConstant id = true ↔ id ∈ plan.movedIds := by
    constructor
    · intro found
      obtain ⟨index, cache, reference⟩ := isConstant_iff.1 found
      by_contra stays
      rw [(plan.hoist_moved distinct).kept id stays] at reference
      exact noReference id index cache reference
    · intro moved
      obtain ⟨index, reference⟩ := get?_hoist_of_moved distinct moved
      exact isConstant_iff.2 ⟨index, none, reference⟩
  rw [movedIds_hoist_eq_nil_iff distinct, Flat, roots_hoist distinct]
  simp only [constant]

end

end Plan

def Lowered.hoistedPlan (option : LowerOption) (lowered : Lowered) : Plan :=
  if option.hoistStatic then lowered.plan else lowered.plan.hoist

theorem Lowered.hoistedPlan_eq {template : Template} {option : LowerOption} {lowered off : Lowered}
    (lowers : lower option template = .ok lowered)
    (without : lower { option with hoistStatic := false } template = .ok off)
    (on : lower { option with hoistStatic := true } template =
      .ok { off with plan := off.plan.hoist }) : lowered.hoistedPlan option = off.plan.hoist := by
  obtain ⟨hoistStatic, cacheHandlers, reader⟩ := option
  cases hoistStatic with
  | false =>
    cases lowers.symm.trans without
    rfl
  | true =>
    cases lowers.symm.trans on
    rfl

/-- Whatever was parsed, to hoist a second time, with or without handing out cells in between,
changes nothing just if no constant has an element among its children. -/
theorem hoist_again_eq_iff_flat {parsing : ParseOption} {lowering : LowerOption} {reading : Scan}
    {template : Template} {problems : List Problem} {lowered : Lowered}
    (parsed : parse parsing reading = .ok (template, problems))
    (lowers : lower lowering template = .ok lowered) :
    let done := lowered.hoistedPlan lowering
    (done.hoist = done ↔ done.Flat) ∧ (done.injectCache.hoist = done.injectCache ↔ done.Flat) := by
  intro done
  have numbered := numbered_of_parse parsed
  obtain ⟨off, without, on⟩ := exists_lowered_of_option numbered lowers
  obtain ⟨roots, progress, stages⟩ := lower_stages numbered without
  have distinct (number : NodeId) : Node.tally number off.plan.template.roots ≤ 1 := by
    rw [stages.roots_eq]
    exact stages.walked.distinct number
  have same : done = off.plan.hoist := Lowered.hoistedPlan_eq lowers without on
  have later (number : NodeId) : Node.tally number done.template.roots ≤ 1 := by
    rw [same, Plan.roots_hoist distinct]
    exact distinct number
  have flat : done.movedIds = [] ↔ done.Flat := by
    rw [same]
    apply Plan.movedIds_hoist_eq_nil_iff_flat distinct
    intro id index cache found
    cases stages.mem_hoistedIds found
  constructor
  · rw [Plan.hoist_eq_self_iff later, flat]
  · rw [@Plan.hoist_eq_self_iff done.injectCache later, Plan.movedIds_injectCache, flat]

/-- Static elements that have only texts in them. -/
def flatSource : String :=
  "<div :id=\"a\"><p>b</p><i title=\"c\">d</i></div>"

theorem hoist_again_eq_iff_flat_texts : ∃ template problems lowered,
    parse {} (scan {} flatSource) = .ok (template, problems) ∧ lower {} template = .ok lowered ∧
      lowered.plan.hoists.length = 2 ∧ lowered.plan.hoist = lowered.plan ∧
      lowered.plan.injectCache.hoist = lowered.plan.injectCache := by
  have succeeds : ((parse {} (scan {} flatSource)).bind fun parsed =>
      lower {} parsed.1).toOption.any (fun lowered =>
        decide (lowered.plan.hoists.length = 2 ∧ lowered.plan.Flat)) = true := by
    decide +kernel
  obtain ⟨template, problems, lowered, parsed, lowers, found⟩ := exists_lowered succeeds
  obtain ⟨count, flat⟩ := of_decide_eq_true found
  obtain ⟨again, cached⟩ := hoist_again_eq_iff_flat parsed lowers
  exact ⟨template, problems, lowered, parsed, lowers, count, again.2 flat, cached.2 flat⟩

/-- The element in the constant becomes a constant too, and the first constant comes to refer to
it. -/
theorem hoist_again_ne_of_nested : ∃ template problems lowered,
    parse {} (scan {} "<p><b>x</b></p>") = .ok (template, problems) ∧
      lower {} template = .ok lowered ∧ lowered.plan.hoists.length = 1 ∧
      lowered.plan.hoist.hoists.length = 2 ∧ lowered.plan.hoist ≠ lowered.plan := by
  have succeeds : ((parse {} (scan {} "<p><b>x</b></p>")).bind fun parsed =>
      lower {} parsed.1).toOption.any (fun lowered =>
        decide (lowered.plan.hoists.length = 1 ∧ lowered.plan.hoist.hoists.length = 2)) = true := by
    decide +kernel
  obtain ⟨template, problems, lowered, parsed, lowers, found⟩ := exists_lowered succeeds
  obtain ⟨once, twice⟩ := of_decide_eq_true found
  refine ⟨template, problems, lowered, parsed, lowers, once, twice, ?_⟩
  intro same
  rw [same, once] at twice
  cases twice

end TemplateCompiler
