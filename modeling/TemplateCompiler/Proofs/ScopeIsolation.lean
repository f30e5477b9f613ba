import TemplateCompiler.Compiler
import TemplateCompiler.Proofs.MirroredCode
import TemplateCompiler.Proofs.ResolvedNames

/-! Aliases stay in the loops that bind them. In the final plan a name is an alias just if the node
that it belongs to is in the body of a loop with that alias, and it is looked up on the render
context just if no loop around the node has it. -/

namespace TemplateCompiler

/-- The expressions of a piece of code. The aliases of a loop are patterns and not expressions. -/
def CodeBody.expressions : CodeBody → List Expr
  | .vnode call => call.expressions
  | .text call => call.parts
  | .conditional links _ => links.map (·.test)
  | .loop call => [call.source]
  | .comment _ | .hoisted _ => []

def CacheKind.expressions : CacheKind → List Expr
  | .once => []
  | .memo dependencies => [dependencies]
  | .memoInLoop dependencies key => dependencies :: key.toList

def Code.expressions (code : Code) : List Expr :=
  code.body.expressions ++ code.cache.toList.flatMap (·.kind.expressions)

namespace Plan

def constant? (plan : Plan) (code : Code) : Option VNode :=
  match code.body with
  | .hoisted index => plan.hoists[index]?
  | _ => none

/-- All expressions that are kept for a node: those of its code, those of the constant that stands
for it and what it depends on. -/
def expressions (plan : Plan) (id : NodeId) : List Expr :=
  (plan.table.get? id).toList.flatMap Code.expressions ++
    ((plan.table.get? id).bind plan.constant?).toList.flatMap VNode.expressions ++
    (plan.memoDependencies.get? id).toList

end Plan

def Node.Binds (node : Node) (reader : ScriptReader) (name : String) : Prop :=
  ∃ loop, node.content = .loop loop ∧ name ∈ loop.names reader

def Expr.Isolated (reader : ScriptReader) (above : List Node) : Expr → Prop
  | param name => ∃ outer ∈ above, outer.Binds reader name
  | context name => ∀ outer ∈ above, ¬ outer.Binds reader name
  | _ => True

/-- No alias is used outside of its loop, and no alias is taken for something else inside. -/
structure Plan.Isolates (plan : Plan) (reader : ScriptReader) : Prop where
  names : ∀ node above, Node.Lineage plan.template.roots node above →
    ∀ expr ∈ plan.expressions node.id, expr.Every (Expr.Isolated reader above)
  root : ∀ call, plan.root = .fragment call →
    ∀ expr ∈ call.expressions, expr.Every (Expr.Isolated reader [])
  /-- Every expression belongs to a node of the tree. -/
  owned : ∀ id, plan.expressions id ≠ [] → ∃ node ∈ Node.flattenAll plan.template.roots, node.id = id
  /-- Every constant belongs to a node of the tree. -/
  referred : ∀ index < plan.hoists.length, ∃ node ∈ Node.flattenAll plan.template.roots,
    plan.table.get? node.id = some { body := .hoisted index }
  /-- What a loop repeats is an element, so a test that is written on it is outside of the loop. -/
  repeated : ∀ node above outer, Node.Lineage plan.template.roots node (outer :: above) →
    ∀ loop, outer.content = .loop loop → node.isElement = true

theorem Scope.contains_addAll (scope : Scope) (names : List String) (name : String) :
    (scope.addAll names).contains name = true ↔ name ∈ names ∨ scope.contains name = true := by
  simp only [addAll]
  induction names generalizing scope with
  | nil => simp
  | cons first rest ih =>
    rw [List.foldl_cons, ih, List.mem_cons]
    simp only [add, contains, List.contains_cons, Bool.or_eq_true, beq_iff_eq]
    tauto

theorem Surroundings.reader_along (around : Surroundings) (above : List Node) :
    (around.along above).reader = around.reader := by
  induction above with
  | nil => rfl
  | cons parent above ih =>
    rw [along, ← ih]
    cases parent.content <;> rfl

/-- The scope of a place has just what the loops around it bind. -/
theorem Surroundings.contains_along {around : Surroundings} (outside : around.scope = {})
    (above : List Node) (name : String) :
    (around.along above).scope.contains name = true ↔
      ∃ outer ∈ above, outer.Binds around.reader name := by
  induction above with
  | nil => simp [along, outside, Scope.contains]
  | cons parent above ih =>
    rw [List.exists_mem_cons_iff, ← ih, along, Node.Binds]
    cases parent.content with
    | loop loop =>
      rw [Surroundings.below, within, around.reader_along]
      refine (Scope.contains_addAll _ (loop.names around.reader) name).trans (or_congr_left ?_)
      constructor
      · exact fun bound => ⟨loop, rfl, bound⟩
      · rintro ⟨_, ⟨⟩, bound⟩
        exact bound
    | _ => simp [below, inside]

theorem Expr.Scoped.isolated {around : Surroundings} {above : List Node} {expr : Expr}
    (resolved : expr.Scoped (around.along above).scope) (outside : around.scope = {}) :
    expr.Every (Isolated around.reader above) := by
  refine resolved.imp fun part holds => ?_
  cases part with
  | param name => exact (around.contains_along outside above name).1 holds
  | context name =>
    intro outer member binds
    have bound := (around.contains_along outside above name).2 ⟨outer, member, binds⟩
    rw [show _ = false from holds] at bound
    cases bound
  | _ => trivial

/-- Where the expressions of a node with the given content are resolved: an element that is rendered
once is inside of itself. -/
def Surroundings.own (around : Surroundings) : Content → Surroundings
  | .element element => around.inside element
  | _ => around

@[simp]
theorem Surroundings.scope_own (around : Surroundings) (content : Content) :
    (around.own content).scope = around.scope := by
  cases content <;> rfl

theorem Settled.lowered {progress : Progress} {around : Surroundings} {role : Role} {node : Node}
    (settled : Settled progress around role node) :
    ∃ body, progress.table.get? node.id = some { body } ∧
      ∀ expr ∈ body.expressions, expr.Lowered (around.own node.content) := by
  cases settled with
  | text isText _ _ _ _ code =>
    refine ⟨_, code, fun expr member => ?_⟩
    simp only [CodeBody.expressions, TextRun.call, Reported.value_mapM, List.mem_map] at member
    obtain ⟨part, _, rfl⟩ := member
    obtain ⟨id, content, span, children⟩ := node
    cases content with
    | element => cases isText
    | _ => exact TextRun.lowered_part around part
  | comment _ code => exact ⟨_, code, List.forall_mem_nil _⟩
  | @element _ _ _ element _ children _ code =>
    have resolved := lowered_lowerElement (around.inside element) progress.table element
      (children.map (·.id))
    exact ⟨_, code, role.lowered_finish element.properties resolved⟩
  | @conditional _ _ _ _ pairs _ _ _ code =>
    refine ⟨_, code, fun expr member => ?_⟩
    rw [Conditional.body, CodeBody.expressions] at member
    obtain ⟨link, listed, rfl⟩ := List.mem_map.1 member
    exact Conditional.lowered_links around pairs link listed
  | @loop _ _ _ _ loop _ _ code =>
    refine ⟨_, code, fun expr member => ?_⟩
    simp only [CodeBody.expressions, Loops.call, List.mem_singleton] at member
    rw [member]
    exact around.lowered_resolveValue loop.source

namespace Expr

variable {scope : Scope}

theorem scoped_symbol (helper : Helper) : (symbol helper).Scoped scope :=
  (@lowered_symbol { reader := default, scope } helper).scoped

theorem resolves_assignCells (expr : Expr) (next : Nat) (resolves : expr.Resolves scope) :
    (expr.assignCells next).1.Resolves scope := by
  cases expr with
  | param | context => simpa [assignCells] using resolves
  | handler body traits =>
    rw [assignCells]
    split <;> trivial
  | _ => simp [assignCells, Resolves]

end Expr

theorem Caching.expressions_adjust (mark : CacheMark) (vnode : VNode) :
    (adjust mark vnode).expressions = vnode.expressions := by
  obtain ⟨isBlock, same⟩ := exists_adjust mark vnode
  rw [same]
  rfl

/-- The key of an item is a part of its properties. -/
theorem Caching.every_kindOf {kind : Expr → Prop} {dependencies : Expr} {vnode : Option VNode}
    (mark : CacheMark) (inLoop : Bool) (needed : dependencies.Every kind)
    (every : ∀ call ∈ vnode, ∀ expr ∈ call.expressions, expr.Every kind) :
    ∀ expr ∈ (kindOf mark dependencies inLoop vnode).expressions, expr.Every kind := by
  cases mark with
  | once => exact List.forall_mem_nil _
  | memo =>
    simp only [kindOf]
    split
    · refine List.forall_mem_cons.2 ⟨needed, fun key given => ?_⟩
      obtain ⟨props, found, key⟩ := Option.bind_eq_some_iff.1 (Option.mem_toList.1 given)
      obtain ⟨call, given, found⟩ := Option.bind_eq_some_iff.1 found
      have whole := (VNode.forall_expressions.1 (every call given)).2.1 props found
      exact whole.of_occurs (Expr.occurs_keyValue key)
    · exact List.forall_mem_singleton.2 needed

/-- Wrapping a node adds what it depends on, and perhaps its key, to its expressions. -/
theorem Caching.every_wrapped {kind : Expr → Prop} {dependencies : Expr} {body : CodeBody}
    (mark : CacheMark) (inLoop : Bool) (slot : Nat) (needed : dependencies.Every kind)
    (every : ∀ expr ∈ body.expressions, expr.Every kind) :
    ∀ expr ∈ Code.expressions
        { Code.mapVNode { body } (adjust mark) with
            cache := some
              { slot, kind := kindOf mark dependencies inLoop (Code.vnode? { body }) } },
      expr.Every kind := by
  intro expr member
  simp only [Code.expressions, Option.toList_some, List.flatMap_cons, List.flatMap_nil,
    List.append_nil, List.mem_append] at member
  rcases member with own | kept
  · refine every expr ?_
    cases body with
    | vnode call =>
      rw [CodeBody.expressions, ← Caching.expressions_adjust mark call]
      exact own
    | _ => exact own
  · refine every_kindOf mark inLoop needed ?_ expr kept
    cases body with
    | vnode call =>
      intro call given
      cases given
      exact every
    | _ =>
      intro call none
      cases none

/-- Whatever holds of all expressions of a node without regard to cells is not lost when the node
and its handlers get some. -/
theorem Plan.Recoded.every {kind : Expr → Prop} {marks : NodeMap CacheMark}
    {dependencies : NodeMap Expr} {id : NodeId} {body : CodeBody} {new : Code}
    (recoded : Recoded marks dependencies id { body } new)
    (keeps : ∀ expr next, kind expr → kind (expr.assignCells next).1)
    (needed : ((dependencies.get? id).getD (.source "")).Every kind)
    (every : ∀ expr ∈ body.expressions, expr.Every kind) :
    ∀ expr ∈ new.expressions, expr.Every kind := by
  induction recoded with
  | refl =>
    intro expr member
    rw [Code.expressions, Option.toList_none, List.flatMap_nil, List.append_nil] at member
    exact every expr member
  | @wrap body mark slot inLoop marked _ ih =>
    simp only [Code.expressions, Option.toList_none, List.flatMap_nil, List.append_nil] at ih
    exact Caching.every_wrapped mark inLoop slot needed ih
  | @handlers vnode cache props next given _ ih =>
    intro expr member
    rcases List.mem_append.1 member with own | kept
    · obtain ⟨tag, old, others⟩ := VNode.forall_expressions.1 fun expr inside =>
        ih expr (List.mem_append_left _ inside)
      have numbered : ∀ made ∈ some (props.assignCells next).1, made.Every kind := by
        intro made given
        cases given
        exact Expr.every_assignCells keeps next (old props given)
      exact (@VNode.forall_expressions { vnode with props := some (props.assignCells next).1 } _).2
        ⟨tag, numbered, others⟩ expr own
    · exact ih expr (List.mem_append_right _ kept)

theorem Plan.Recoded.scoped {marks : NodeMap CacheMark} {dependencies : NodeMap Expr} {id : NodeId}
    {scope : Scope} {body : CodeBody} {new : Code}
    (recoded : Recoded marks dependencies id { body } new)
    (needed : ∀ expr, dependencies.get? id = some expr → expr.Scoped scope)
    (resolved : ∀ expr ∈ body.expressions, expr.Scoped scope) :
    ∀ expr ∈ new.expressions, expr.Scoped scope := by
  refine recoded.every Expr.resolves_assignCells ?_ resolved
  cases given : dependencies.get? id with
  | none => exact (@Expr.lowered_source { reader := default, scope } "").scoped
  | some expr => exact needed expr given

theorem RootCode.expressions_ofIds {ids : List NodeId} {call : VNode}
    (fragment : RootCode.ofIds ids = .fragment call) : call.expressions = [.symbol .fragment] := by
  match ids with
  | [] => cases fragment
  | [_] => cases fragment
  | _ :: _ :: _ =>
    cases fragment
    rfl

namespace Stages

variable {option : LowerOption} {template : Template} {roots : List Node} {progress : Progress}
  {plan : Plan}

theorem dependencies_eq (stages : Stages option template roots progress plan) :
    plan.memoDependencies = progress.memoDependencies := by
  rw [stages.rest]
  rfl

theorem scoped_expressions {node : Node} {above : List Node}
    (stages : Stages option template roots progress plan)
    (lineage : Node.Lineage roots node above) :
    ∀ expr ∈ plan.expressions node.id, expr.Scoped
      (Surroundings.along option.surroundings above).scope := by
  obtain ⟨role, settled⟩ := Settled.along stages.walked.settled lineage
  obtain ⟨body, before, lowered⟩ := settled.lowered
  have resolved (expr : Expr) (member : expr ∈ body.expressions) := (lowered expr member).scoped
  rw [Surroundings.scope_own] at resolved
  have needed : ∀ expr, progress.memoDependencies.get? node.id = some expr → expr.Scoped
      (Surroundings.along option.surroundings above).scope := by
    intro expr found
    obtain ⟨value, same⟩ := settled.noted.dependencies expr found
    rw [same]
    exact (Surroundings.lowered_resolveValue _ value).scoped
  intro expr member
  simp only [Plan.expressions, List.mem_append, stages.dependencies_eq] at member
  rcases member with written | found
  · by_cases hoisted : node.id ∈ hoistedIds option roots progress
    · obtain ⟨index, vnode, same, final, constant⟩ := stages.moves before hoisted
      cases same
      simp only [final, Plan.constant?, Option.bind_some, constant] at written
      have same : vnode.asConstant.expressions = vnode.expressions := rfl
      exact resolved expr (by simpa [Code.expressions, CodeBody.expressions, same] using written)
    · obtain ⟨code, final, recoded⟩ := stages.stays before hoisted
      have none : plan.constant? code = none := by
        obtain ⟨body, cache⟩ := code
        cases body with
        | hoisted index =>
          refine absurd (stages.hoisted_of_code ?_ final) hoisted
          exact Node.mem_flattenAll_iff.2 ⟨above, lineage⟩
        | _ => rfl
      simp only [final, Option.bind_some, none] at written
      exact recoded.scoped needed resolved expr (by simpa using written)
  · exact needed expr (Option.mem_toList.1 found)

/-- Only for the nodes of the tree something is kept. -/
theorem exists_of_expressions {id : NodeId} (stages : Stages option template roots progress plan)
    (kept : plan.expressions id ≠ []) : ∃ node ∈ Node.flattenAll roots, node.id = id := by
  refine Node.tally_pos_iff.1 (Nat.pos_of_ne_zero fun absent => kept ?_)
  have silent := stages.walked.silent id absent
  simp [Plan.expressions, stages.get?_of_absent absent, stages.dependencies_eq,
    silent.dependencies]

theorem isElement_of_repeated {node outer : Node} {above : List Node} {loop : Loop}
    (stages : Stages option template roots progress plan)
    (lineage : Node.Lineage roots node (outer :: above)) (isLoop : outer.content = .loop loop) :
    node.isElement = true := by
  cases lineage with
  | child place member =>
    obtain ⟨role, settled⟩ := Settled.along stages.walked.settled place
    cases settled with
    | loop _ _ _ repeated =>
      cases List.mem_singleton.1 member
      exact repeated
    | text _ leaf =>
      rw [leaf] at member
      cases member
    | _ => cases isLoop

end Stages

/-- Whatever was parsed, a plan that lowering comes to keeps aliases in their loops. -/
theorem lower_isolates {parsing : ParseOption} {lowering : LowerOption} {reading : Scan}
    {template : Template} {problems : List Problem} {lowered : Lowered}
    (parsed : parse parsing reading = .ok (template, problems))
    (lowers : lower lowering template = .ok lowered) :
    lowered.plan.Isolates lowering.reader := by
  obtain ⟨roots, progress, stages⟩ := lower_stages (numbered_of_parse parsed) lowers
  obtain rfl := stages.roots_eq
  refine ⟨fun node above lineage expr member => ?_, fun call fragment expr member => ?_,
    fun id kept => stages.exists_of_expressions kept, fun index inside => ?_,
    fun node above outer lineage loop isLoop => stages.isElement_of_repeated lineage isLoop⟩
  · exact (stages.scoped_expressions lineage expr member).isolated rfl
  · have root : lowered.plan.root = progress.root := by
      rw [stages.rest]
      rfl
    rw [root, stages.walked.root] at fragment
    rw [RootCode.expressions_ofIds fragment] at member
    cases List.mem_singleton.1 member
    exact @Expr.Scoped.isolated lowering.surroundings [] _ (Expr.scoped_symbol _) rfl
  · obtain ⟨node, above, _, lineage, _, _, final, _⟩ :=
      stages.constant (List.getElem?_eq_getElem inside)
    exact ⟨node, Node.mem_flattenAll_iff.2 ⟨above, lineage⟩, final⟩

/-- A test on a repeated element that is named as the alias, and a loop over that alias inside. -/
def shadowedSource : String :=
  "<ul><li v-if=\"i\" v-for=\"i in l\" v-memo=\"[i, j]\">\x7b\x7b i \x7d\x7d" ++
    "<b v-for=\"(\x7b j \x7d, k) in i\" :key=\"k\" @click=\"f(j)\"/></li></ul>"

def Expr.alias? : Expr → Option String
  | param name => some name
  | _ => none

theorem lower_isolates_shadowed : ∃ template problems lowered,
    parse {} (scan {} shadowedSource) = .ok (template, problems) ∧
      lower {} template = .ok lowered ∧
      ((lowered.plan.expressions 4).map Expr.alias? = [none] ∧
        (lowered.plan.expressions 6).map Expr.alias? = [some "i"]) ∧
      lowered.plan.Isolates .standard := by
  have succeeds : ((parse {} (scan {} shadowedSource)).bind fun parsed =>
      lower {} parsed.1).toOption.any (fun lowered =>
        decide ((lowered.plan.expressions 4).map Expr.alias? = [none] ∧
          (lowered.plan.expressions 6).map Expr.alias? = [some "i"])) = true := by
    decide +kernel
  obtain ⟨template, problems, lowered, parsed, lowers, names⟩ := exists_lowered succeeds
  exact ⟨template, problems, lowered, parsed, lowers, of_decide_eq_true names,
    lower_isolates parsed lowers⟩

end TemplateCompiler
