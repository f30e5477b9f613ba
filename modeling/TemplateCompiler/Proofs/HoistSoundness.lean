import TemplateCompiler.Compiler
import TemplateCompiler.Proofs.MirroredCode
import TemplateCompiler.Proofs.Subexpressions

/-! What is made once is the same for every rendering. All that is below a constant is code of plain
elements, texts and comments, none of which looks at the render context, an alias of a loop, the
cache or another constant. -/

namespace TemplateCompiler

def CodeBody.Constant : CodeBody → Prop
  | .vnode call => call.isComponent = false ∧ call.directives = [] ∧
      ∀ expr ∈ call.tag :: call.props.toList ++ call.dynamicProps,
        expr.Every fun part => part.varies = false
  | .text call => ∀ expr ∈ call.parts, expr.Every fun part => part.varies = false
  | .comment _ => True
  | .conditional _ _ | .loop _ | .hoisted _ => False

inductive Plan.Reaches (plan : Plan) (call : VNode) : NodeId → Prop
  | child {id : NodeId} (member : id ∈ call.children) : Reaches plan call id
  | step {id child : NodeId} {inner : VNode} {cache : Option CacheCell}
      (outer : Reaches plan call id)
      (code : plan.table.get? id = some { body := .vnode inner, cache })
      (member : child ∈ inner.children) : Reaches plan call child

/-- The constants of a plan are constant, and come from places that are rendered exactly once. -/
structure Plan.HoistsSoundly (plan : Plan) : Prop where
  constant : ∀ call ∈ plan.hoists, (CodeBody.vnode call).Constant
  reached : ∀ call ∈ plan.hoists, ∀ id, plan.Reaches call id →
    ∃ body, plan.table.get? id = some { body } ∧ body.Constant
  referred : ∀ index < plan.hoists.length, ∃ node above,
    Node.Lineage plan.template.roots node above ∧
      plan.table.get? node.id = some { body := .hoisted index }
  placed : ∀ node above, Node.Lineage plan.template.roots node above →
    ∀ index cache, plan.table.get? node.id = some { body := .hoisted index, cache } →
      ∀ outer ∈ node :: above, outer.isElement = true ∧ plan.marks.get? outer.id = none

theorem tag_lowerElement {around : Surroundings} {table : Table} {element : Element}
    {children : List NodeId} (plain : element.kind = .plain) :
    (lowerElement around table element children).value.tag = .string element.tag := by
  have form : TagForm.of element = .native := if_pos plain
  rw [lowerElement, if_neg (by rw [plain]; decide), form]
  rfl

theorem dynamicProps_lowerElement {around : Surroundings} {table : Table} {element : Element}
    {children : List NodeId} : ∀ expr ∈ (lowerElement around table element children).value.dynamicProps,
      ∃ name, expr = .madeLiteral name := by
  rw [lowerElement]
  split
  · intro expr member
    cases member
  · intro expr member
    obtain ⟨name, _, rfl⟩ := List.mem_map.1 member
    exact ⟨name, rfl⟩

theorem Role.finish_fields (role : Role) (properties : Properties) (vnode : VNode) :
    (role.finish properties vnode).tag = vnode.tag ∧
      (role.finish properties vnode).dynamicProps = vnode.dynamicProps := by
  cases role <;> exact ⟨rfl, rfl⟩

theorem Settled.code_of_comment {progress : Progress} {around : Surroundings} {role : Role}
    {node : Node} (settled : Settled progress around role node) (isComment : node.isComment = true) :
    ∃ source, progress.table.get? node.id = some { body := .comment source } := by
  cases settled with
  | comment _ code => exact ⟨_, code⟩
  | text isText =>
    obtain ⟨id, content, span, children⟩ := node
    cases content <;> contradiction
  | _ => cases isComment

theorem Plan.Static.constant {progress : Progress} {around : Surroundings} {role : Role} {node : Node}
    (static : Static progress.table progress.marks node)
    (settled : Settled progress around role node) :
    ∃ body, progress.table.get? node.id = some { body } ∧ body.Constant := by
  cases static with
  | @element id element span children vnode _ code plain noComponent _ noDirectives _ props _ =>
    refine ⟨_, code, noComponent, noDirectives, ?_⟩
    cases settled with
    | text isText => cases isText
    | element _ settledCode _ =>
      cases code.symm.trans settledCode
      obtain ⟨tag, dynamicProps⟩ := role.finish_fields element.properties
        (lowerElement (around.inside element) progress.table element (children.map (·.id))).value
      intro expr member
      rw [tag, dynamicProps, tag_lowerElement plain] at member
      rw [List.cons_append, List.mem_cons, List.mem_append] at member
      rcases member with rfl | given | listed
      · exact Expr.every_of_isStatic rfl
      · exact Expr.every_of_isStatic (props expr (Option.mem_toList.1 given))
      · obtain ⟨name, rfl⟩ := dynamicProps_lowerElement expr listed
        exact Expr.every_of_isStatic rfl
  | text isText unmarked code parts =>
    exact ⟨_, code, fun expr member =>
      Expr.every_of_isStatic (Expr.isStatic_levelAll.1 parts expr member)⟩
  | comment isComment unmarked =>
    obtain ⟨source, code⟩ := settled.code_of_comment isComment
    exact ⟨_, code, trivial⟩

theorem Plan.Static.children {progress : Progress} {around : Surroundings} {role : Role} {node : Node}
    {call : VNode} (static : Static progress.table progress.marks node)
    (settled : Settled progress around role node)
    (found : progress.table.get? node.id = some { body := .vnode call }) :
    call.children = node.children.map (·.id) ∧
      ∀ child ∈ node.children, Static progress.table progress.marks child := by
  cases static with
  | element _ code _ _ _ _ same _ below =>
    cases code.symm.trans found
    exact ⟨same, below⟩
  | text _ _ code => cases code.symm.trans found
  | comment isComment =>
    obtain ⟨source, code⟩ := settled.code_of_comment isComment
    cases code.symm.trans found

/-- Handing out cells passes over constant code without a mark. -/
theorem Plan.Recoded.eq_of_constant {marks : NodeMap CacheMark} {dependencies : NodeMap Expr}
    {id : NodeId} {old new : Code} (unmarked : marks.get? id = none) (constant : old.body.Constant)
    (recoded : Recoded marks dependencies id old new) : new = old := by
  induction recoded with
  | refl => rfl
  | wrap _ _ marked =>
    rw [unmarked] at marked
    cases marked
  | @handlers vnode cache props next given _ ih =>
    subst ih
    have listed : props ∈ vnode.tag :: vnode.props.toList ++ vnode.dynamicProps := by simp [given]
    rw [Expr.assignCells_of_fixed next (constant.2.2 props listed), ← given]

namespace Stages

variable {option : LowerOption} {template : Template} {roots : List Node} {progress : Progress}
  {plan : Plan}

theorem static_entry (stages : Stages option template roots progress plan) {node : Node}
    {above : List Node} (lineage : Node.Lineage roots node above)
    (static : Plan.Static progress.table progress.marks node)
    (stays : node.id ∉ hoistedIds option roots progress) :
    ∃ body, progress.table.get? node.id = some { body } ∧
      plan.table.get? node.id = some { body } ∧ body.Constant := by
  obtain ⟨role, settled⟩ := Settled.along stages.walked.settled lineage
  obtain ⟨body, code, constant⟩ := static.constant settled
  obtain ⟨final, found, recoded⟩ := stages.stays code stays
  rw [recoded.eq_of_constant static.unmarked constant] at found
  exact ⟨body, code, found, constant⟩

/-- All that a constant reaches is static and stays where it is. -/
theorem reached {node : Node} {above : List Node} {vnode : VNode} {id : NodeId}
    (stages : Stages option template roots progress plan)
    (lineage : Node.Lineage roots node above)
    (hoisted : node.id ∈ hoistedIds option roots progress)
    (code : progress.table.get? node.id = some { body := .vnode vnode })
    (reaches : plan.Reaches vnode.asConstant id) :
    ∃ inner further, Node.Lineage roots inner further ∧ inner.id = id ∧
      Plan.Static progress.table progress.marks inner ∧
      ∀ number, 0 < Node.tally number [inner] → number ∉ hoistedIds option roots progress := by
  have descend {outer : Node} {further : List Node} {call : VNode} {child : NodeId}
      (place : Node.Lineage roots outer further)
      (static : Plan.Static progress.table progress.marks outer)
      (found : progress.table.get? outer.id = some { body := .vnode call })
      (stay : ∀ number, 0 < Node.tally number outer.children →
        number ∉ hoistedIds option roots progress)
      (member : child ∈ call.children) :
      ∃ inner further, Node.Lineage roots inner further ∧ inner.id = child ∧
        Plan.Static progress.table progress.marks inner ∧
        ∀ number, 0 < Node.tally number [inner] → number ∉ hoistedIds option roots progress := by
    obtain ⟨role, settled⟩ := Settled.along stages.walked.settled place
    obtain ⟨same, below⟩ := static.children settled found
    rw [same] at member
    obtain ⟨inner, listed, rfl⟩ := List.mem_map.1 member
    refine ⟨inner, _, .child place listed, rfl, below inner listed, fun number present => ?_⟩
    have := Node.tally_le_of_mem number listed
    exact stay number (by omega)
  induction reaches with
  | child member =>
    obtain ⟨static, _, stay⟩ := stages.walked.static_of_hoisted lineage hoisted
    exact descend lineage static code stay member
  | step _ found member ih =>
    obtain ⟨inner, further, place, rfl, static, stay⟩ := ih
    obtain ⟨body, before, after, _⟩ :=
      stages.static_entry place static (stay _ (Node.tally_self_pos inner))
    cases after.symm.trans found
    refine descend place static before (fun number present => stay number ?_) member
    have := Node.tally_singleton number inner
    omega

end Stages

/-- Whatever was parsed, the constants of a plan that lowering comes to are sound. -/
theorem lower_hoistsSoundly {parsing : ParseOption} {lowering : LowerOption} {reading : Scan}
    {template : Template} {problems : List Problem} {lowered : Lowered}
    (parsed : parse parsing reading = .ok (template, problems))
    (lowers : lower lowering template = .ok lowered) : lowered.plan.HoistsSoundly := by
  obtain ⟨roots, progress, stages⟩ := lower_stages (numbered_of_parse parsed) lowers
  have sameRoots := stages.roots_eq
  have sameMarks := stages.marks_eq
  refine ⟨fun call member => ?_, fun call member id reaches => ?_, fun index inside => ?_,
    fun node above lineage index cache code => ?_⟩
  · obtain ⟨index, found⟩ := List.mem_iff_getElem?.1 member
    obtain ⟨node, above, vnode, lineage, hoisted, code, _, rfl⟩ := stages.constant found
    obtain ⟨role, settled⟩ := Settled.along stages.walked.settled lineage
    obtain ⟨static, _⟩ := stages.walked.static_of_hoisted lineage hoisted
    obtain ⟨body, same, constant⟩ := static.constant settled
    cases same.symm.trans code
    exact constant
  · obtain ⟨index, found⟩ := List.mem_iff_getElem?.1 member
    obtain ⟨node, above, vnode, lineage, hoisted, code, _, rfl⟩ := stages.constant found
    obtain ⟨inner, further, place, rfl, static, stay⟩ := stages.reached lineage hoisted code reaches
    obtain ⟨body, _, final, constant⟩ :=
      stages.static_entry place static (stay _ (Node.tally_self_pos inner))
    exact ⟨body, final, constant⟩
  · obtain ⟨node, above, _, lineage, _, _, final, _⟩ :=
      stages.constant (List.getElem?_eq_getElem inside)
    rw [sameRoots]
    exact ⟨node, above, lineage, final⟩
  · rw [sameRoots] at lineage
    rw [sameMarks]
    have hoisted := stages.hoisted_of_code (Node.mem_flattenAll_iff.2 ⟨above, lineage⟩) code
    exact (stages.walked.static_of_hoisted lineage hoisted).2.1

/-- Static elements between parts that change, one of them with a static interpolation. -/
def staticSource : String :=
  "<div :id=\"a\"><p title=\"b\"><b>c</b>\x7b\x7b 1 + 2 \x7d\x7d<!--d--></p>" ++
    "<i v-if=\"e\">f</i><q><u/></q></div>"

theorem lower_hoistsSoundly_nested : ∃ template problems lowered,
    parse { preserveComments := true } (scan {} staticSource) = .ok (template, problems) ∧
      lower {} template = .ok lowered ∧ lowered.plan.hoists.length = 2 ∧
      lowered.plan.HoistsSoundly := by
  have succeeds : ((parse { preserveComments := true } (scan {} staticSource)).bind fun parsed =>
      lower {} parsed.1).toOption.any (fun lowered =>
        decide (lowered.plan.hoists.length = 2)) = true := by
    decide +kernel
  obtain ⟨template, problems, lowered, parsed, lowers, count⟩ := exists_lowered succeeds
  exact ⟨template, problems, lowered, parsed, lowers, of_decide_eq_true count,
    lower_hoistsSoundly parsed lowers⟩

end TemplateCompiler
