import TemplateCompiler.Emit.View
import TemplateCompiler.Proofs.LoweringStages

/-! Code of the right kind. The code of a node says what kind of node it is and refers to the
children of the node; hoisting and handing out cells do not change that. -/

namespace TemplateCompiler

inductive CodeBody.Mirrors (children : List NodeId) : Content → CodeBody → Prop
  | element {element : Element} {call : VNode} (same : call.children = children) :
      Mirrors children (.element element) (.vnode call)
  | text {text : Phrase} {call : TextCall} (leaf : children = []) :
      Mirrors children (.text text) (.text call)
  | interpolation {source : String} {call : TextCall} (leaf : children = []) :
      Mirrors children (.interpolation source) (.text call)
  | comment {source : String} (leaf : children = []) :
      Mirrors children (.comment source) (.comment source)
  /-- One link for each branch with a condition, and the last resort for the one without. -/
  | conditional {branches : List Branch} {links : List Link} {otherwise : Option NodeId}
      (same : links.map (·.consequent) ++ otherwise.toList = children)
      (each : branches.map (·.condition.isSome) =
        links.map (fun _ => true) ++ otherwise.toList.map fun _ => false) :
      Mirrors children (.conditional branches) (.conditional links otherwise)
  | loop {loop : Loop} {call : LoopCall} (same : [call.body] = children) :
      Mirrors children (.loop loop) (.loop call)

open CodeBody (Mirrors)

theorem children_lowerElement (around : Surroundings) (table : Table) (element : Element)
    (children : List NodeId) :
    (lowerElement around table element children).value.children = children := by
  unfold lowerElement
  split <;> rfl

theorem Role.children_finish (role : Role) (properties : Properties) (vnode : VNode) :
    (role.finish properties vnode).children = vnode.children := by
  cases role <;> rfl

theorem CodeBody.Mirrors.references {children : List NodeId} {content : Content} {code : Code}
    (mirrors : Mirrors children content code.body) : code.references = children := by
  rw [Code.references]
  generalize code.body = body at mirrors
  cases mirrors with
  | element same | conditional same | loop same => exact same
  | text leaf | interpolation leaf | comment leaf => exact leaf.symm

/-- A chain has one link for each branch, in order. -/
theorem Conditional.mirrors_body (around : Surroundings) {pairs : List (Branch × Node)}
    (chained : Chained (pairs.map (·.1))) :
    Mirrors (pairs.map (·.2.id)) (.conditional (pairs.map (·.1))) (body around pairs) := by
  suffices linked : (links around pairs).value.1.map (·.consequent) ++
        (links around pairs).value.2.toList = pairs.map (·.2.id) ∧
      (pairs.map (·.1)).map (·.condition.isSome) =
        (links around pairs).value.1.map (fun _ => true) ++
          (links around pairs).value.2.toList.map fun _ => false from
    .conditional linked.1 linked.2
  induction pairs with
  | nil => exact ⟨rfl, rfl⟩
  | cons pair rest ih =>
    obtain ⟨branch, child⟩ := pair
    simp only [links, Reported.value_bind]
    cases condition : branch.condition with
    | none =>
      cases rest with
      | nil => exact ⟨rfl, by simp [condition]⟩
      | cons next others =>
        have : branch.condition.isSome = true := chained.1
        rw [condition] at this
        cases this
    | some value =>
      have later : Chained (rest.map (·.1)) := by
        cases rest with
        | nil => trivial
        | cons next others => exact chained.2
      obtain ⟨consequents, conditions⟩ := ih later
      constructor
      · simpa using consequents
      · simpa [condition] using conditions

theorem Settled.mirrors {progress : Progress} {around : Surroundings} {role : Role} {node : Node}
    (settled : Settled progress around role node) :
    ∃ body, progress.table.get? node.id = some { body } ∧
      Mirrors (node.children.map (·.id)) node.content body := by
  cases settled with
  | text isText leaf _ _ _ code =>
    refine ⟨_, code, ?_⟩
    obtain ⟨id, content, span, children⟩ := node
    cases leaf
    cases content with
    | text => exact .text rfl
    | interpolation => exact .interpolation rfl
    | _ => cases isText
  | comment _ code => exact ⟨_, code, .comment rfl⟩
  | element _ code =>
    exact ⟨_, code, .element ((role.children_finish ..).trans (children_lowerElement ..))⟩
  | conditional _ chained _ code =>
    refine ⟨_, code, ?_⟩
    rw [List.map_map]
    exact Conditional.mirrors_body around chained
  | loop _ code => exact ⟨_, code, .loop rfl⟩

theorem Caching.children_adjust (mark : CacheMark) (vnode : VNode) :
    (adjust mark vnode).children = vnode.children := by
  obtain ⟨isBlock, same⟩ := exists_adjust mark vnode
  rw [same]

theorem Plan.Recoded.mirrors {marks : NodeMap CacheMark} {dependencies : NodeMap Expr} {id : NodeId}
    {old new : Code} {content : Content} {children : List NodeId}
    (recoded : Recoded marks dependencies id old new) (fits : Mirrors children content old.body) :
    Mirrors children content new.body := by
  induction recoded with
  | refl => exact fits
  | wrap _ _ _ _ ih =>
    cases ih with
    | element same => exact .element ((Caching.children_adjust ..).trans same)
    | text leaf => exact .text leaf
    | interpolation leaf => exact .interpolation leaf
    | comment leaf => exact .comment leaf
    | conditional same each => exact .conditional same each
    | loop same => exact .loop same
  | handlers _ _ _ ih =>
    cases ih with
    | element same => exact .element same

namespace Stages

variable {option : LowerOption} {template : Template} {roots : List Node} {progress : Progress}
  {plan : Plan}

/-- The code of a node of the tree: a constant, or what the walk wrote with some cells. -/
theorem entry (stages : Stages option template roots progress plan) {node : Node}
    (inside : node ∈ Node.flattenAll roots) :
    (∃ index vnode, node.id ∈ hoistedIds option roots progress ∧
      plan.table.get? node.id = some { body := .hoisted index } ∧
      plan.hoists[index]? = some (VNode.asConstant vnode) ∧
      node.isElement = true ∧ vnode.children = node.children.map (·.id)) ∨
    ∃ code, plan.table.get? node.id = some code ∧
      Mirrors (node.children.map (·.id)) node.content code.body := by
  obtain ⟨above, lineage⟩ := Node.mem_flattenAll_iff.1 inside
  obtain ⟨role, settled⟩ := Settled.along stages.walked.settled lineage
  obtain ⟨body, code, mirrors⟩ := settled.mirrors
  by_cases hoisted : node.id ∈ hoistedIds option roots progress
  · left
    obtain ⟨index, vnode, same, after, constant⟩ := stages.moves code hoisted
    cases same
    obtain ⟨_, elements, _⟩ := stages.walked.static_of_hoisted lineage hoisted
    exact ⟨index, vnode, hoisted, after, constant, (elements node List.mem_cons_self).1,
      @Mirrors.references _ _ { body := .vnode vnode } mirrors⟩
  · right
    obtain ⟨final, found, recoded⟩ := stages.stays code hoisted
    exact ⟨final, found, recoded.mirrors mirrors⟩

theorem hoisted_of_code (stages : Stages option template roots progress plan) {node : Node}
    {index : Nat} {cache : Option CacheCell} (inside : node ∈ Node.flattenAll roots)
    (code : plan.table.get? node.id = some { body := .hoisted index, cache }) :
    node.id ∈ hoistedIds option roots progress := by
  rcases stages.entry inside with ⟨_, _, hoisted, _⟩ | ⟨final, found, mirrors⟩
  · exact hoisted
  · cases found.symm.trans code
    generalize node.content = content at mirrors
    cases mirrors

end Stages

end TemplateCompiler
