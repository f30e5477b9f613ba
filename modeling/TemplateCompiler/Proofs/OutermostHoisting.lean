import Mathlib.Data.List.Induction
import TemplateCompiler.Proofs.HoistRelocation
import TemplateCompiler.Proofs.RememberedLevels

/-! What is made once, and in which order. The elements that become references to constants are
the outermost static ones that can be reached through elements without marks, and the constants
have the order in which the references to them are met from the root. -/

namespace TemplateCompiler

namespace Plan

def reference? (plan : Plan) (id : NodeId) : Option Nat :=
  match plan.table.get? id with
  | some { body := .hoisted index, .. } => some index
  | _ => none

theorem reference?_eq_some {plan : Plan} {id : NodeId} {index : Nat} :
    plan.reference? id = some index ↔
      ∃ cache, plan.table.get? id = some { body := .hoisted index, cache } := by
  unfold reference?
  constructor
  · intro found
    split at found
    · next index cache code =>
      cases found
      exact ⟨cache, code⟩
    · cases found
  · intro found
    obtain ⟨cache, code⟩ := found
    rw [code]

/-- The element and all around it are elements without marks, and of these it alone is static. -/
structure Outermost (plan : Plan) (node : Node) (above : List Node) : Prop where
  reachable : ∀ outer ∈ node :: above,
    outer.isElement = true ∧ plan.marks.get? outer.id = none
  static : (levelOf plan.table plan.marks node).isStatic = true
  around : ∀ outer ∈ above, (levelOf plan.table plan.marks outer).isStatic = false

/-- The plan `after` has a constant for each outermost static element of the plan `before`, in the
order of the tree. -/
structure HoistsOutermost (before after : Plan) : Prop where
  referred : ∀ id, (∃ index, after.reference? id = some index) ↔
    ∃ node above, Node.Lineage before.template.roots node above ∧ node.id = id ∧
      before.Outermost node above
  ordered : (Node.flattenAll before.template.roots).filterMap (after.reference? ·.id) =
    List.range after.hoists.length

variable {table : Table} {marks : NodeMap CacheMark} {roots above : List Node} {node : Node}

theorem not_static_of_above {number : NodeId} (lineage : Node.Lineage roots node above)
    (distinct : ∀ number, Node.tally number roots ≤ 1)
    (moved : number ∈ staticElementsAll table marks roots) (inside : 0 < Node.tally number [node]) :
    ∀ outer ∈ above, (levelOf table marks outer).isStatic = false := by
  induction lineage with
  | root => exact fun _ none => nomatch none
  | @child node parent above outer member ih =>
    have tallies := Node.tally_singleton number parent
    have listed := Node.tally_le_of_mem number member
    have once := outer.tally_le number
    have limit := distinct number
    refine List.forall_mem_cons.2 ⟨?_, ih (by omega)⟩
    rw [← Bool.not_eq_true]
    intro static
    obtain ⟨found, _⟩ := staticElements_along distinct outer moved (by omega)
    obtain ⟨isElement, unmarked, _⟩ := staticElements_cases found
    rw [staticElements_of_element isElement unmarked, if_pos static, List.mem_singleton] at found
    rw [← found, List.count_singleton_self] at tallies
    omega

/-- Exactly the outermost static elements that can be reached are moved. -/
theorem mem_staticElementsAll_iff (plan : Plan) {id : NodeId}
    (distinct : ∀ number, Node.tally number plan.template.roots ≤ 1) :
    id ∈ staticElementsAll plan.table plan.marks plan.template.roots ↔
      ∃ node above, Node.Lineage plan.template.roots node above ∧ node.id = id ∧
        plan.Outermost node above := by
  constructor
  · intro moved
    obtain ⟨node, above, lineage, rfl⟩ := exists_lineage_of_moved moved
    obtain ⟨static, reachable, _⟩ := static_of_moved distinct lineage moved
    exact ⟨node, above, lineage, rfl, reachable, static.isStatic_levelOf,
      not_static_of_above lineage distinct moved (Node.tally_self_pos node)⟩
  · intro found
    obtain ⟨node, above, lineage, rfl, reachable, static, around⟩ := found
    obtain ⟨outer, listed, moved⟩ :=
      exists_moved_of_static lineage reachable (static_of_levelOf static)
    rcases List.mem_cons.1 listed with rfl | higher
    · exact moved
    · obtain ⟨_, _, _, further, place⟩ := lineage.exists_child higher
      have again := (static_of_moved distinct place moved).1.isStatic_levelOf
      rw [around outer higher] at again
      cases again

mutual

theorem sublist_staticElements (table : Table) (marks : NodeMap CacheMark) : (node : Node) →
    (staticElements table marks node).Sublist (node.flatten.map (·.id))
  | ⟨id, content, span, children⟩ => by
    rw [Node.flatten_eq, List.map_cons]
    unfold staticElements
    cases content with
    | element element =>
      dsimp only
      split
      · exact List.nil_sublist _
      · split
        · exact (List.nil_sublist _).cons_cons id
        · exact (sublist_staticElementsAll table marks children).cons id
    | _ => exact List.nil_sublist _

theorem sublist_staticElementsAll (table : Table) (marks : NodeMap CacheMark) :
    (nodes : List Node) →
    (staticElementsAll table marks nodes).Sublist ((Node.flattenAll nodes).map (·.id))
  | [] => List.nil_sublist _
  | node :: rest => by
    rw [staticElementsAll, Node.flattenAll, List.map_append]
    exact (sublist_staticElements table marks node).append
      (sublist_staticElementsAll table marks rest)

end

/-- What is found along a list without doubles is found along those of it where there is
something. -/
theorem filterMap_eq_of_sublist {α β : Type} {some all : List α} {find : α → Option β}
    (part : some.Sublist all) (unique : all.Nodup)
    (nothing : ∀ item ∈ all, item ∉ some → find item = none) :
    all.filterMap find = some.filterMap find := by
  induction part with
  | slnil => rfl
  | @cons some all item part ih =>
    obtain ⟨fresh, others⟩ := List.nodup_cons.1 unique
    obtain ⟨own, rest⟩ := List.forall_mem_cons.1 nothing
    rw [List.filterMap_cons_none (own fun member => fresh (part.subset member))]
    exact ih others rest
  | @cons_cons some all item part ih =>
    obtain ⟨fresh, others⟩ := List.nodup_cons.1 unique
    have rest : ∀ other ∈ all, other ∉ some → find other = none := by
      intro other member outside
      refine nothing other (List.mem_cons_of_mem item member) fun again => ?_
      rcases List.mem_cons.1 again with rfl | behind
      · exact fresh member
      · exact outside behind
    rw [List.filterMap_cons, List.filterMap_cons, ih others rest]

theorem filterMap_eq_range {α : Type} {items : List α} {find : α → Option Nat}
    (places : ∀ index item, items[index]? = some item → find item = some index) :
    items.filterMap find = List.range items.length := by
  induction items using List.reverseRecOn with
  | nil => rfl
  | append_singleton items last ih =>
    have earlier : items.filterMap find = List.range items.length := by
      apply ih
      intro index item found
      have inside := (List.getElem?_eq_some_iff.1 found).1
      exact places index item ((List.getElem?_append_left inside).trans found)
    have own := places items.length last List.getElem?_concat_length
    rw [List.filterMap_append, earlier, List.filterMap_cons_some own, List.filterMap_nil,
      List.length_append, List.length_singleton, List.range_succ]

end Plan

/-- The references to constants are met in the order of the constants. -/
theorem Stages.ordered {option : LowerOption} {template : Template} {roots : List Node}
    {progress : Progress} {plan : Plan} (stages : Stages option template roots progress plan) :
    (Node.flattenAll roots).filterMap (plan.reference? ·.id) = List.range plan.hoists.length := by
  have unique : ((Node.flattenAll roots).map (·.id)).Nodup :=
    List.nodup_iff_count_le_one.2 stages.walked.distinct
  have part : (hoistedIds option roots progress).Sublist ((Node.flattenAll roots).map (·.id)) := by
    unfold hoistedIds
    split
    · exact Plan.sublist_staticElementsAll progress.table progress.marks roots
    · exact List.nil_sublist _
  have nothing : ∀ id ∈ (Node.flattenAll roots).map (·.id),
      id ∉ hoistedIds option roots progress → plan.reference? id = none := by
    intro id _ outside
    rw [Option.eq_none_iff_forall_ne_some]
    intro index found
    obtain ⟨cache, code⟩ := Plan.reference?_eq_some.1 found
    exact outside (stages.mem_hoistedIds code)
  have places : ∀ index id, (hoistedIds option roots progress)[index]? = some id →
      plan.reference? id = some index := by
    intro index id listed
    obtain ⟨_, _, code, _⟩ := stages.moved index id listed
    exact Plan.reference?_eq_some.2 ⟨none, code⟩
  rw [stages.length, ← Plan.filterMap_eq_range places,
    ← Plan.filterMap_eq_of_sublist part unique nothing, List.filterMap_map]
  rfl

/-- Whatever was parsed, the constants of a plan are the outermost static elements of the plan that
the walk described, in the order of the tree; and it is as if each level was found out once, on the
way. -/
theorem lower_hoistsOutermost {parsing : ParseOption} {lowering : LowerOption} {reading : Scan}
    {template : Template} {problems : List Problem} {lowered : Lowered}
    (parsed : parse parsing reading = .ok (template, problems))
    (hoists : lowering.hoistStatic = true) (lowers : lower lowering template = .ok lowered) :
    ∃ roots progress, walk defaultPasses template.roots (lowering.start template) =
        .ok (roots, progress) ∧
      (planOf template roots progress).HoistsOutermost lowered.plan ∧
      lowered.plan = (planOf template roots progress).hoistOnTheWay.injectCache := by
  obtain ⟨roots, progress, walks, -, rfl⟩ := walk_of_lowerWith lowers
  have walked := walk_walked (numbered_of_parse parsed) walks
  have stages := stages_of_walked walked
  refine ⟨roots, progress, walks, ⟨fun id => ?_, stages.ordered⟩, ?_⟩
  · rw [← Plan.mem_staticElementsAll_iff _ walked.distinct]
    have same : hoistedIds lowering roots progress =
        Plan.staticElementsAll progress.table progress.marks roots := if_pos hoists
    constructor
    · intro found
      obtain ⟨index, found⟩ := found
      obtain ⟨cache, code⟩ := Plan.reference?_eq_some.1 found
      exact same ▸ stages.mem_hoistedIds code
    · intro moved
      obtain ⟨index, listed⟩ := List.mem_iff_getElem?.1 moved
      obtain ⟨_, _, code, _⟩ := stages.moved index id (same ▸ listed)
      exact ⟨index, Plan.reference?_eq_some.2 ⟨none, code⟩⟩
  · rw [Plan.hoistOnTheWay_eq _ walked.distinct]
    simp only [hoists, if_true]

/-- Static elements at several depths, with one that changes, one that is kept and one that is
only there sometimes between them. -/
def spreadSource : String :=
  "<div :id=\"a\"><p><b>c</b></p><i :title=\"d\"><u>e</u></i><q v-once>f</q>" ++
    "<s v-if=\"g\">h</s><em/></div>"

theorem lower_hoistsOutermost_scattered : ∃ template problems lowered,
    parse {} (scan {} spreadSource) = .ok (template, problems) ∧
      lower {} template = .ok lowered ∧ lowered.plan.hoists.length = 3 ∧
      ∃ roots progress, walk defaultPasses template.roots (LowerOption.start {} template) =
          .ok (roots, progress) ∧
        (planOf template roots progress).HoistsOutermost lowered.plan ∧
        lowered.plan = (planOf template roots progress).hoistOnTheWay.injectCache := by
  have succeeds : ((parse {} (scan {} spreadSource)).bind fun parsed =>
      lower {} parsed.1).toOption.any (fun lowered =>
        decide (lowered.plan.hoists.length = 3)) = true := by
    decide +kernel
  obtain ⟨template, problems, lowered, parsed, lowers, count⟩ := exists_lowered succeeds
  exact ⟨template, problems, lowered, parsed, lowers, of_decide_eq_true count,
    lower_hoistsOutermost parsed rfl lowers⟩

end TemplateCompiler
