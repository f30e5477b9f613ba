import TemplateCompiler.Compiler
import TemplateCompiler.Proofs.MirroredCode

/-! A finished plan is complete. Its nodes form a tree in which each number is used once, each node
has code of its own kind that refers to the children of the node, and so the view that is written
never lacks the code of a node. -/

namespace TemplateCompiler

namespace Template

/-- All references to nodes: those from the root and those from a node to its children. -/
def references (template : Template) : List NodeId :=
  template.roots.map (·.id) ++
    (Node.flattenAll template.roots).flatMap fun node => node.children.map (·.id)

mutual

private theorem count_references_node (number : NodeId) : (node : Node) →
    (node.flatten.flatMap fun node => node.children.map (·.id)).count number =
      Node.tally number node.children
  | ⟨id, content, span, children⟩ => by
    rw [Node.flatten, List.flatMap_cons, List.count_append]
    exact count_references_all number children

private theorem count_references_all (number : NodeId) : (nodes : List Node) →
    (nodes.map (·.id)).count number +
      ((Node.flattenAll nodes).flatMap fun node => node.children.map (·.id)).count number =
      Node.tally number nodes
  | [] => rfl
  | node :: rest => by
    have first := count_references_node number node
    have later := count_references_all number rest
    have own := Node.tally_singleton number node
    rw [Node.tally_cons, Node.flattenAll, List.flatMap_append, List.count_append, List.map_cons,
      List.count_cons]
    rw [List.count_singleton] at own
    omega

end

theorem count_references (template : Template) (number : NodeId) :
    template.references.count number = Node.tally number template.roots := by
  rw [references, List.count_append]
  exact count_references_all number template.roots

end Template

open CodeBody (Mirrors)

/-- The code of a node, taken out of its cell and followed to its constant. -/
def Plan.unfolded? (plan : Plan) (id : NodeId) : Option CodeBody :=
  match plan.table.get? id with
  | none => none
  | some { body := .hoisted index, .. } => (plan.hoists[index]?).map .vnode
  | some { body, .. } => some body

inductive View.Complete : View → Prop
  | node {span : Span} {code : Code} {references : List View}
      (below : ∀ view ∈ references, Complete view) : Complete (.node span (some code) references)

/-- The nodes that the render function returns. -/
def RootCode.ids : RootCode → List NodeId
  | empty => []
  | single id => [id]
  | fragment call => call.children

structure Plan.Consistent (plan : Plan) : Prop where
  inside : ∀ node ∈ Node.flattenAll plan.template.roots,
    plan.template.nodes[node.id]? = some node
  once : ∀ node ∈ Node.flattenAll plan.template.roots, plan.template.references.count node.id = 1
  mirrored : ∀ node ∈ Node.flattenAll plan.template.roots, ∃ body,
    plan.unfolded? node.id = some body ∧ Mirrors (node.children.map (·.id)) node.content body
  root : plan.root = .ofIds (plan.template.roots.map (·.id))
  returned : ∀ id ∈ plan.root.ids, (plan.view plan.spans id).Complete
  constants : ∀ call ∈ plan.hoists, ∀ id ∈ call.children, (plan.view plan.spans id).Complete

namespace Stages

variable {option : LowerOption} {template : Template} {roots : List Node} {progress : Progress}
  {plan : Plan}

/-- No branch of the tree is longer than the table. -/
theorem length_flatten_le (stages : Stages option template roots progress plan) {node : Node}
    {above : List Node} (lineage : Node.Lineage roots node above) :
    node.flatten.length ≤ plan.table.size := by
  have distinct : (node.flatten.map (·.id)).Nodup := by
    refine List.nodup_iff_count_le_one.2 fun number => ?_
    have once := Nat.le_trans (lineage.tally_le number) (stages.walked.distinct number)
    rwa [Node.tally, Node.flattenAll, Node.flattenAll, List.append_nil] at once
  have inside : node.flatten.map (·.id) ⊆ List.range plan.table.size := by
    intro id member
    obtain ⟨inner, below, rfl⟩ := List.mem_map.1 member
    rw [List.mem_range]
    rcases stages.entry (lineage.flatten_subset inner below) with
      ⟨_, _, _, code, _⟩ | ⟨_, code, _⟩ <;> exact Table.lt_size_of_get? code
  have bound := (List.subperm_of_subset distinct inside).length_le
  rwa [List.length_map, List.length_range] at bound

/-- The view of a node is complete if it is unfolded as deep as there are nodes below. -/
theorem complete_viewWithin (stages : Stages option template roots progress plan)
    (spans : Array Span) {depth : Nat} {node : Node} (inside : node ∈ Node.flattenAll roots)
    (deep : node.flatten.length ≤ depth) :
    (Plan.viewWithin plan.table spans depth node.id).Complete := by
  induction depth generalizing node with
  | zero =>
    rw [Node.flatten_eq] at deep
    cases deep
  | succ depth ih =>
    rw [Plan.viewWithin]
    rcases stages.entry inside with ⟨index, _, _, code, _⟩ | ⟨final, code, mirrors⟩
    · rw [code]
      exact .node fun _ member => nomatch member
    · rw [code]
      refine .node fun view member => ?_
      rw [Option.map_some, Option.getD_some, mirrors.references, List.map_map] at member
      obtain ⟨child, listed, rfl⟩ := List.mem_map.1 member
      obtain ⟨above, lineage⟩ := Node.mem_flattenAll_iff.1 inside
      refine ih (Node.mem_flattenAll_iff.2 ⟨_, .child lineage listed⟩) ?_
      have := Node.length_flatten_le_of_mem listed
      rw [Node.flatten_eq, List.length_cons] at deep
      omega

theorem complete_view (stages : Stages option template roots progress plan) {node : Node}
    {above : List Node} (lineage : Node.Lineage roots node above) (spans : Array Span) :
    (plan.view spans node.id).Complete :=
  stages.complete_viewWithin spans (Node.mem_flattenAll_iff.2 ⟨above, lineage⟩)
    (Nat.le_succ_of_le (stages.length_flatten_le lineage))

theorem unfolded?_mirrors (stages : Stages option template roots progress plan) {node : Node}
    (inside : node ∈ Node.flattenAll roots) : ∃ body, plan.unfolded? node.id = some body ∧
      Mirrors (node.children.map (·.id)) node.content body := by
  rcases stages.entry inside with ⟨index, vnode, _, code, constant, isElement, same⟩ |
    ⟨code, found, mirrors⟩
  · refine ⟨.vnode vnode.asConstant, by simp only [Plan.unfolded?, code, constant, Option.map_some], ?_⟩
    obtain ⟨id, content, span, children⟩ := node
    cases content with
    | element => exact .element same
    | _ => cases isElement
  · refine ⟨code.body, ?_, mirrors⟩
    simp only [Plan.unfolded?, found]
    split
    · next missing => cases missing
    · next index cache same =>
      cases same
      generalize node.content = content at mirrors
      cases mirrors
    · next same =>
      cases same
      rfl

end Stages

theorem RootCode.ids_ofIds (ids : List NodeId) : (RootCode.ofIds ids).ids = ids := by
  match ids with
  | [] | [_] | _ :: _ :: _ => rfl

/-- Whatever was parsed, a plan that lowering comes to is consistent. -/
theorem lower_consistent {parsing : ParseOption} {lowering : LowerOption} {reading : Scan}
    {template : Template} {problems : List Problem} {lowered : Lowered}
    (parsed : parse parsing reading = .ok (template, problems))
    (lowers : lower lowering template = .ok lowered) : lowered.plan.Consistent := by
  obtain ⟨roots, progress, stages⟩ := lower_stages (numbered_of_parse parsed) lowers
  have sameRoots := stages.roots_eq
  have root : lowered.plan.root = .ofIds (roots.map (·.id)) := by
    rw [stages.rest]
    exact stages.walked.root
  have counted (number : NodeId) : Node.tally number
      (lowered.plan.template.roots ++ lowered.plan.template.dropped) =
        (List.range lowered.plan.template.size).count number := by
    rw [stages.rest, Node.tally_append]
    exact stages.walked.tally number
  refine ⟨fun node inside => Template.nodes_getElem? counted inside, fun node inside => ?_,
    fun node inside => ?_, ?_, fun id returned => ?_, fun call member id child => ?_⟩
  · rw [Template.count_references]
    have := Node.tally_pos_iff.2 ⟨node, inside, rfl⟩
    have := stages.walked.distinct node.id
    rw [sameRoots] at *
    omega
  · rw [sameRoots] at inside
    exact stages.unfolded?_mirrors inside
  · rw [root, sameRoots]
  · rw [root, RootCode.ids_ofIds] at returned
    obtain ⟨node, member, rfl⟩ := List.mem_map.1 returned
    exact stages.complete_view (.root member) _
  · obtain ⟨index, found⟩ := List.mem_iff_getElem?.1 member
    obtain ⟨node, above, vnode, lineage, hoisted, before, _, rfl⟩ := stages.constant found
    obtain ⟨role, settled⟩ := Settled.along stages.walked.settled lineage
    obtain ⟨body, code, mirrors⟩ := settled.mirrors
    cases code.symm.trans before
    have same : vnode.asConstant.children = node.children.map (·.id) :=
      @Mirrors.references _ _ { body := .vnode vnode } mirrors
    rw [same] at child
    obtain ⟨inner, listed, rfl⟩ := List.mem_map.1 child
    exact stages.complete_view (.child lineage listed) _

/-- Branches of which one holds a loop, cells of both kinds and a constant. -/
def nestedSource : String :=
  "<ul v-if=\"a\"><li v-for=\"(i, k) in l\" v-memo=\"[i]\">b \x7b\x7b i \x7d\x7d</li></ul>" ++
    "<p v-else v-once>c</p><i title=\"d\">e</i>"

theorem lower_consistent_nested : ∃ template problems lowered,
    parse {} (scan {} nestedSource) = .ok (template, problems) ∧
      lower {} template = .ok lowered ∧
      (lowered.plan.cacheSize = 2 ∧ lowered.plan.hoists.length = 1) ∧ lowered.plan.Consistent := by
  have succeeds : ((parse {} (scan {} nestedSource)).bind fun parsed =>
      lower {} parsed.1).toOption.any (fun lowered =>
        decide (lowered.plan.cacheSize = 2 ∧ lowered.plan.hoists.length = 1)) = true := by
    decide +kernel
  obtain ⟨template, problems, lowered, parsed, lowers, counts⟩ := exists_lowered succeeds
  exact ⟨template, problems, lowered, parsed, lowers, of_decide_eq_true counts,
    lower_consistent parsed lowers⟩

end TemplateCompiler
