import TemplateCompiler.Proofs.AssetIdentifiers
import TemplateCompiler.Proofs.CompiledPlaces
import TemplateCompiler.Proofs.DynamicProperties
import TemplateCompiler.Proofs.PlanConsistency
import TemplateCompiler.Proofs.WalkInvariants

/-! Whatever code resolves by name is declared. An element refers to its component and directives by
identifiers that the walk lists on leaving the element, once for each name; hoisting and handing out
cells change none of that. Two names have an identifier in common if only dashes tell them apart. -/

namespace TemplateCompiler

/-- An expression of the template in which no name is looked up. -/
def Expr.isSimple : Expr → Bool
  | simple _ _ => true
  | _ => false

/-- The identifiers by which a virtual node refers to its component and its directives. -/
def VNode.references (vnode : VNode) : List Expr :=
  (vnode.tag :: vnode.directives.map (·.name)).filter Expr.isSimple

/-- What an element has to have resolved: its component, then its directives. -/
def Element.assets (element : Element) : List Asset :=
  if element.kind = .fragment then []
  else (componentToResolve? element).toList.map Asset.component ++
    (runtimeDirectives element.properties).map fun directive => .directive directive.name

variable (around : Surroundings)

theorem name_lowerDirective (directive : Directive) :
    (lowerDirective around directive).value.name = (Asset.directive directive.name).reference := by
  simp only [lowerDirective]
  split
  · split
    all_goals split <;> rfl
  · split <;> rfl

theorem names_appliedDirectives (element : Element) :
    (appliedDirectives around element).map (·.name) =
      (runtimeDirectives element.properties).map fun directive =>
        (Asset.directive directive.name).reference := by
  unfold appliedDirectives runtimeDirectives
  induction element.properties.filterMap Property.directive? with
  | nil => rfl
  | cons directive rest ih =>
    rw [List.filterMap_cons, List.filter_cons]
    by_cases builtIn : isBuiltIn directive.name = true
    · have nothing : (lowerRuntime around directive).value = none := by
        simp [lowerRuntime, builtIn]
      simpa [nothing, builtIn] using ih
    · by_cases slot : directive.name = "slot"
      · have nothing : (lowerRuntime around directive).value = none := by
          rw [lowerRuntime, if_neg builtIn, if_pos (beq_iff_eq.2 slot)]
          rfl
        simpa [nothing, slot] using ih
      · have applied : (lowerRuntime around directive).value =
            some (lowerDirective around directive).value := by
          simp [lowerRuntime, builtIn, slot]
        simpa [applied, builtIn, slot, name_lowerDirective] using ih

/-- Only a component that is resolved by its name has an identifier in the place of the tag. -/
theorem filter_lowerTag (element : Element) (notFragment : element.kind ≠ .fragment) :
    [((TagForm.of element).lower around element.tag).value].filter Expr.isSimple =
      ((componentToResolve? element).toList.map Asset.component).map Asset.reference := by
  rw [componentToResolve?, if_neg notFragment]
  cases TagForm.of element <;> rfl

theorem references_lowerElement (table : Table) (element : Element) (children : List NodeId) :
    (lowerElement around table element children).value.references =
      element.assets.map Asset.reference := by
  unfold lowerElement Element.assets
  by_cases fragment : element.kind = .fragment
  · rw [if_pos fragment, if_pos fragment]
    rfl
  · rw [if_neg fragment, if_neg fragment]
    simp only [Reported.value_bind, Reported.value_pure, value_lowerProperties, VNode.references,
      names_appliedDirectives]
    rw [List.map_append, ← filter_lowerTag around element fragment, List.map_map,
      ← List.singleton_append, List.filter_append]
    congr 1
    refine List.filter_eq_self.2 fun reference member => ?_
    obtain ⟨directive, _, rfl⟩ := List.mem_map.1 member
    rfl

theorem nodup_addName {names : List String} (distinct : names.Nodup) (name : String) :
    (addName names name).Nodup := by
  unfold addName
  split
  · exact distinct
  · next absent =>
    refine distinct.append (List.nodup_singleton name) (List.disjoint_singleton.2 fun there => ?_)
    exact absent (List.contains_iff_mem.2 there)

theorem nodup_foldl_addName {names : List String} (distinct : names.Nodup) (added : List String) :
    (added.foldl addName names).Nodup := by
  induction added generalizing names with
  | nil => exact distinct
  | cons name rest ih => exact ih (nodup_addName distinct name)

theorem mem_foldl_addName {names added : List String} {name : String}
    (listed : name ∈ names ∨ name ∈ added) : name ∈ added.foldl addName names := by
  induction added generalizing names with
  | nil => exact listed.resolve_right List.not_mem_nil
  | cons first rest ih =>
    refine ih ?_
    rcases listed with old | new
    · exact .inl (PropertyTraits.subset_addName names first old)
    · rcases List.mem_cons.1 new with rfl | later
      · exact .inl (PropertyTraits.mem_addName names name)
      · exact .inr later

/-- Whether a virtual node is changed or not, it was one before. -/
theorem Code.exists_of_mapVNode {code : Code} {change : VNode → VNode} {vnode : VNode}
    (written : (code.mapVNode change).body = .vnode vnode) :
    ∃ old, code.body = .vnode old ∧ (vnode = old ∨ vnode = change old) := by
  unfold mapVNode at written
  split at written
  · cases written
    exact ⟨_, rfl, .inr rfl⟩
  · exact ⟨vnode, written, .inl rfl⟩

namespace Progress

/-- What is listed to be resolved so far. -/
def assets (progress : Progress) : List Asset :=
  progress.components.map Asset.component ++ progress.directives.map Asset.directive

theorem subset_assets {progress : Progress} {components directives : List String}
    (first : components ⊆ progress.components) (later : directives ⊆ progress.directives) :
    components.map Asset.component ++ directives.map Asset.directive ⊆ progress.assets := by
  refine List.append_subset.2 ⟨?_, ?_⟩
  · exact List.subset_append_of_subset_left _ (List.map_subset _ first)
  · exact List.subset_append_of_subset_right _ (List.map_subset _ later)

/-- All that the code so far refers to is listed, and nothing is listed twice. -/
structure Resolves (progress : Progress) : Prop where
  listed : ∀ {id code vnode}, progress.table.get? id = some code → code.body = .vnode vnode →
    vnode.references ⊆ progress.assets.map Asset.reference
  components : progress.components.Nodup
  directives : progress.directives.Nodup

namespace Resolves

variable {progress after : Progress}

/-- Of all a pass keeps, only the code and the lists count. -/
theorem of_eq (resolves : progress.Resolves) (table : after.table = progress.table)
    (components : after.components = progress.components)
    (directives : after.directives = progress.directives) : after.Resolves := by
  have assets : after.assets = progress.assets := by
    rw [Progress.assets, components, directives, Progress.assets]
  refine ⟨?_, components ▸ resolves.components, directives ▸ resolves.directives⟩
  rw [table, assets]
  exact resolves.listed

theorem setCode (resolves : progress.Resolves) (id : NodeId) {body : CodeBody}
    (listed : ∀ vnode, body = .vnode vnode →
      vnode.references ⊆ progress.assets.map Asset.reference) :
    (progress.setCode id body).Resolves := by
  refine ⟨fun {other code vnode} found written => ?_, resolves.components, resolves.directives⟩
  rw [Progress.setCode, Table.get?_set] at found
  split at found
  · cases found
    exact listed vnode written
  · exact resolves.listed found written

theorem setOther (resolves : progress.Resolves) (id : NodeId) {body : CodeBody}
    (other : ∀ vnode, body ≠ .vnode vnode) : (progress.setCode id body).Resolves :=
  resolves.setCode id fun vnode written => absurd written (other vnode)

theorem modifyVNode (resolves : progress.Resolves) (id : NodeId) {change : VNode → VNode}
    (same : ∀ vnode, (change vnode).references = vnode.references) :
    (progress.modifyVNode id change).Resolves := by
  refine ⟨fun {other code vnode} found written => ?_, resolves.components, resolves.directives⟩
  rw [Progress.modifyVNode, Table.get?_modify] at found
  split at found
  · obtain ⟨old, before, rfl⟩ := Option.map_eq_some_iff.1 found
    obtain ⟨call, first, kept | changed⟩ := Code.exists_of_mapVNode written
    · rw [kept]
      exact resolves.listed before first
    · rw [changed, same]
      exact resolves.listed before first
  · exact resolves.listed found written

theorem addAssets (resolves : progress.Resolves) (element : Element) :
    (Elements.addAssets element progress).Resolves := by
  refine ⟨fun {id code vnode} found written => ?_, nodup_foldl_addName resolves.components _,
    nodup_foldl_addName resolves.directives _⟩
  refine List.Subset.trans (resolves.listed found written) (List.map_subset _ ?_)
  exact subset_assets (fun _ listed => mem_foldl_addName (.inl listed))
    fun _ listed => mem_foldl_addName (.inl listed)

theorem nodup_assets (resolves : progress.Resolves) : progress.assets.Nodup := by
  refine List.Nodup.append (resolves.components.map ?_) (resolves.directives.map ?_) ?_
  · intro first second same
    exact Asset.component.inj same
  · intro first second same
    exact Asset.directive.inj same
  · intro asset component directive
    obtain ⟨_, _, rfl⟩ := List.mem_map.1 component
    obtain ⟨_, _, other⟩ := List.mem_map.1 directive
    cases other

end Resolves

theorem assets_subset_addAssets (element : Element) (progress : Progress) :
    element.assets ⊆ (Elements.addAssets element progress).assets := by
  unfold Element.assets
  split
  · exact List.nil_subset _
  · have names : ((runtimeDirectives element.properties).map fun directive : Directive =>
        Asset.directive directive.name) =
        ((runtimeDirectives element.properties).map (·.name)).map Asset.directive := by
      rw [List.map_map]
      rfl
    rw [names]
    exact Progress.subset_assets (fun _ listed => mem_foldl_addName (.inr listed))
      fun _ listed => mem_foldl_addName (.inr listed)

end Progress

open Progress (Resolves)

variable {progress : Progress}

theorem Once.preserves : Once.pass.Preserves Resolves where
  enter {ordinal node site progress entrance} resolves done := by
    cases done
    simp only [Once.enter]
    split <;> exact resolves.of_eq rfl rfl rfl
  exit _ _ _ _ resolves := resolves.of_eq rfl rfl rfl
  exitRoot _ _ resolves := resolves

theorem Memo.preserves : Memo.pass.Preserves Resolves where
  enter {ordinal node site progress entrance} resolves done := by
    cases done
    simp only [Memo.enter]
    split
    · exact resolves
    · split
      · exact resolves.of_eq rfl rfl rfl
      · exact resolves
      · split <;> exact resolves.of_eq rfl rfl rfl
  exit _ _ _ _ resolves := resolves
  exitRoot _ _ resolves := resolves

namespace Conditional

theorem resolves_keyed (pairs : List (Branch × Node)) (resolves : progress.Resolves) :
    (pairs.foldl (fun progress pair => keyBranch progress pair.1 pair.2) progress).Resolves := by
  induction pairs generalizing progress with
  | nil => exact resolves
  | cons pair rest ih => exact ih (resolves.modifyVNode pair.2.id fun _ => rfl)

theorem preserves : pass.Preserves Resolves where
  enter {ordinal node site progress entrance} resolves done := by
    simp only [pass, enter] at done
    split at done
    · split at done
      · cases done
      · cases done
        exact resolves.of_eq rfl rfl rfl
    · split at done
      · cases done
        exact resolves
      · split at done <;> cases done <;> exact resolves.of_eq rfl rfl rfl
  exit _ node site progress resolves := by
    simp only [pass, exit]
    split
    · next branches _ =>
      have keyed := resolves_keyed (branches.zip node.children) resolves
      split
      · exact keyed.of_eq rfl rfl rfl
      · refine Resolves.setOther ?_ node.id (fun _ => by simp)
        exact keyed.of_eq rfl rfl rfl
    · exact resolves
  exitRoot _ _ resolves := resolves

end Conditional

namespace Loops

theorem preserves : pass.Preserves Resolves where
  enter {ordinal node site progress entrance} resolves done := by
    cases done
    simp only [enter]
    split
    · exact resolves
    · split
      · exact resolves.of_eq rfl rfl rfl
      · exact resolves
      · split <;> exact resolves.of_eq rfl rfl rfl
  exit ordinal node _ progress resolves := by
    simp only [pass, exit]
    split
    · exact resolves
    · next frame _ =>
      have outside := fun scope frames =>
        @Resolves.of_eq progress { progress with scope, frames } resolves rfl rfl rfl
      split
      · next child _ _ _ =>
        refine Resolves.setOther ?_ node.id (fun _ => by simp)
        exact (outside _ _).modifyVNode child.id fun _ => rfl
      · exact outside _ _
  exitRoot _ _ resolves := resolves

end Loops

namespace Elements

/-- On leaving an element, what it refers to is listed before its code is written. -/
theorem preserves : pass.Preserves Resolves where
  enter {ordinal node site progress entrance} resolves done := by
    cases done
    simp only [enter]
    split
    · exact resolves.setOther node.id (fun _ => by simp)
    · exact resolves
    · exact resolves
  exit _ node site progress resolves := by
    simp only [pass, exit]
    split
    · next element _ =>
      refine Resolves.setCode ?_ node.id fun vnode written => ?_
      · exact (resolves.addAssets element).of_eq rfl rfl rfl
      · cases written
        rw [references_lowerElement]
        exact List.map_subset _ (Progress.assets_subset_addAssets element progress)
    · exact resolves
  exitRoot roots progress resolves := by
    simp only [pass, exitRoot]
    split
    · exact resolves.of_eq rfl rfl rfl
    · next only =>
      have block : (progress.modifyVNode only.id fun vnode =>
          { vnode with isBlock := true }).Resolves := resolves.modifyVNode only.id fun _ => rfl
      exact block.of_eq rfl rfl rfl
    · exact resolves.of_eq rfl rfl rfl

end Elements

namespace TextRun

theorem resolves_merge (around : Surroundings) (takesText : Bool) (children : List Node)
    (resolves : progress.Resolves) : (merge around takesText children progress).2.Resolves := by
  have written (fastPath : Bool) (found : List Run) :
      (found.foldl (write around fastPath) progress).Resolves := by
    induction found generalizing progress with
    | nil => exact resolves
    | cons run rest ih =>
      refine ih ?_
      unfold write
      split
      · refine Resolves.setOther ?_ run.first.id nofun
        exact resolves.of_eq rfl rfl rfl
      · exact resolves
  exact (written _ _).of_eq rfl rfl rfl

theorem preserves : pass.Preserves Resolves where
  enter resolves done := by
    cases done
    exact resolves
  exit _ node site progress resolves := by
    simp only [pass, exit]
    split
    · exact resolves_merge _ _ _ resolves
    · exact resolves
  exitRoot roots progress resolves := resolves_merge _ _ roots resolves

end TextRun

theorem walk_resolves {roots : List Node} {progress : Progress} {done : List Node × Progress}
    (resolves : progress.Resolves) (walks : walk defaultPasses roots progress = .ok done) :
    done.2.Resolves := by
  refine walk_preserves (fun _ _ sound => sound.of_eq rfl rfl rfl) (fun pass member => ?_)
    resolves walks
  simp only [defaultPasses, List.mem_cons, List.not_mem_nil, or_false] at member
  rcases member with rfl | rfl | rfl | rfl | rfl | rfl
  · exact Once.preserves
  · exact Conditional.preserves
  · exact Loops.preserves
  · exact Memo.preserves
  · exact Elements.preserves
  · exact TextRun.preserves

theorem Role.references_finish (role : Role) (properties : Properties) (vnode : VNode) :
    (role.finish properties vnode).references = vnode.references := by
  cases role <;> rfl

theorem Caching.references_adjust (mark : CacheMark) (vnode : VNode) :
    (adjust mark vnode).references = vnode.references := by
  obtain ⟨isBlock, same⟩ := exists_adjust mark vnode
  rw [same]
  rfl

/-- Cells do not change what a virtual node refers to. -/
theorem Plan.Recoded.references {marks : NodeMap CacheMark} {dependencies : NodeMap Expr}
    {id : NodeId} {vnode : VNode} {new : Code}
    (recoded : Recoded marks dependencies id { body := .vnode vnode } new) :
    ∃ call, new.body = .vnode call ∧ call.references = vnode.references := by
  induction recoded with
  | refl => exact ⟨vnode, rfl, rfl⟩
  | wrap _ _ _ _ ih =>
    obtain ⟨call, rfl, same⟩ := ih
    exact ⟨_, rfl, (Caching.references_adjust _ call).trans same⟩
  | handlers _ _ _ ih =>
    obtain ⟨call, written, same⟩ := ih
    cases written
    exact ⟨_, rfl, same⟩

/-- An element of the platform is made by its tag, which is written in quotes. -/
theorem tag_lowerElement_of_plain (table : Table) {element : Element}
    (plain : element.kind = .plain) (children : List NodeId) :
    (lowerElement around table element children).value.tag = .string element.tag := by
  simp [lowerElement, TagForm.of, TagForm.lower, plain]

theorem RootCode.references_ofIds {ids : List NodeId} {call : VNode}
    (fragment : RootCode.ofIds ids = .fragment call) : call.references = [] := by
  match ids with
  | [] => cases fragment
  | [_] => cases fragment
  | _ :: _ :: _ =>
    cases fragment
    rfl

theorem Plan.Static.plain {table : Table} {marks : NodeMap CacheMark} {node : Node}
    (static : Static table marks node) (isElement : node.isElement = true) :
    ∃ element vnode, node.content = .element element ∧ element.kind = .plain ∧
      table.get? node.id = some { body := .vnode vnode } ∧ vnode.directives = [] := by
  cases static with
  | element _ code plain _ _ none => exact ⟨_, _, rfl, plain, code, none⟩
  | text isText | comment isComment =>
    obtain ⟨id, content, span, children⟩ := node
    cases content <;> contradiction

/-- Whatever a plan resolves by name is declared, each name once. -/
structure Plan.Resolved (plan : Plan) : Prop where
  /-- The asset block is made of one declaration for each name. -/
  block : plan.assetsPieces =
    if plan.assets.isEmpty then []
    else ((plan.assets.map Asset.declaration).intersperse [Piece.newline]).flatten ++
      [Piece.text "\n", Piece.newline]
  distinct : plan.assets.Nodup
  /-- An element refers to what has its own names, and all of that is declared. -/
  sites : ∀ node ∈ Node.flattenAll plan.template.roots, ∀ element,
    node.content = .element element → ∃ call, plan.unfolded? node.id = some (.vnode call) ∧
      call.references = element.assets.map Asset.reference ∧ element.assets ⊆ plan.assets
  /-- Nothing else refers to anything. -/
  only : ∀ id call, plan.unfolded? id = some (.vnode call) →
    ∃ node ∈ Node.flattenAll plan.template.roots, node.id = id ∧ node.isElement = true
  constants : ∀ call ∈ plan.hoists, call.references = []
  root : ∀ call, plan.root = .fragment call → call.references = []
  /-- An identifier is declared once, unless another name has it too. -/
  once : ∀ asset ∈ plan.assets,
    (plan.assets.map Asset.identifier).count asset.identifier = 1 ↔
      ∀ other ∈ plan.assets, other.identifier = asset.identifier → other = asset
  /-- Names without underscores and special characters have identifiers of their own. -/
  plain : (∀ asset ∈ plan.assets, asset.IsPlain ∧ '_' ∉ asset.name.toList) →
    (plan.assets.map Asset.identifier).Nodup

variable {around}

theorem Settled.references {progress : Progress} {role : Role} {node : Node} {element : Element}
    (settled : Settled progress around role node) (isElement : node.content = .element element) :
    ∃ vnode, progress.table.get? node.id = some { body := .vnode vnode } ∧
      vnode.references = element.assets.map Asset.reference ∧
      (element.kind = .plain → vnode.tag = .string element.tag) := by
  cases settled with
  | @element _ role id given span children noted code below =>
    cases isElement
    refine ⟨_, code, ?_, fun plain => ?_⟩
    · rw [Role.references_finish, references_lowerElement]
    · have same : (role.finish element.properties (lowerElement (around.inside element)
          progress.table element (children.map (·.id))).value).tag =
          (lowerElement (around.inside element) progress.table element
            (children.map (·.id))).value.tag := by
        cases role <;> rfl
      rw [same, tag_lowerElement_of_plain _ _ plain]
  | text isText =>
    rw [Node.isTextLike, isElement] at isText
    cases isText
  | _ => cases isElement

namespace Stages

variable {option : LowerOption} {template : Template} {roots : List Node} {progress : Progress}
  {plan : Plan}

theorem assets_eq (stages : Stages option template roots progress plan) :
    plan.assets = progress.assets := by
  rw [stages.rest]
  rfl

/-- The code of an element in the end, in its cell or moved away, refers to what it did before. -/
theorem references {node : Node} {element : Element}
    (stages : Stages option template roots progress plan)
    (inside : node ∈ Node.flattenAll roots) (isElement : node.content = .element element) :
    ∃ call, plan.unfolded? node.id = some (.vnode call) ∧
      call.references = element.assets.map Asset.reference := by
  obtain ⟨above, lineage⟩ := Node.mem_flattenAll_iff.1 inside
  obtain ⟨role, settled⟩ := Settled.along stages.walked.settled lineage
  obtain ⟨vnode, before, refers, -⟩ := settled.references isElement
  by_cases hoisted : node.id ∈ hoistedIds option roots progress
  · obtain ⟨index, call, same, final, constant⟩ := stages.moves before hoisted
    cases same
    refine ⟨vnode.asConstant, ?_, refers⟩
    simp only [Plan.unfolded?, final, constant, Option.map_some]
  · obtain ⟨code, final, recoded⟩ := stages.stays before hoisted
    obtain ⟨call, written, same⟩ := recoded.references
    refine ⟨call, ?_, same.trans refers⟩
    obtain ⟨body, cache⟩ := code
    cases written
    simp only [Plan.unfolded?, final]

/-- What is moved out of the function is an element of the platform without directives. -/
theorem references_constant {index : Nat} {call : VNode}
    (stages : Stages option template roots progress plan)
    (found : plan.hoists[index]? = some call) : call.references = [] := by
  obtain ⟨node, above, vnode, lineage, hoisted, before, -, rfl⟩ := stages.constant found
  obtain ⟨static, elements, -⟩ := stages.walked.static_of_hoisted lineage hoisted
  obtain ⟨element, call, content, plain, code, none⟩ :=
    static.plain (elements node List.mem_cons_self).1
  cases code.symm.trans before
  obtain ⟨role, settled⟩ := Settled.along stages.walked.settled lineage
  obtain ⟨_, again, -, tagged⟩ := settled.references content
  cases code.symm.trans again
  have same (vnode : VNode) : vnode.asConstant.references = vnode.references := rfl
  rw [same, VNode.references, none, tagged plain]
  rfl

end Stages

/-- Whatever was parsed, a plan that lowering comes to has declarations for all it refers to. -/
theorem lower_resolved {parsing : ParseOption} {lowering : LowerOption} {reading : Scan}
    {template : Template} {problems : List Problem} {lowered : Lowered}
    (parsed : parse parsing reading = .ok (template, problems))
    (lowers : lower lowering template = .ok lowered) : lowered.plan.Resolved := by
  have numbered := numbered_of_parse parsed
  obtain ⟨roots, progress, walks, _, rfl⟩ := walk_of_lowerWith lowers
  have resolves : progress.Resolves := by
    refine @walk_resolves template.roots _ (roots, progress)
      ⟨?_, List.nodup_nil, List.nodup_nil⟩ walks
    intro id code vnode found
    simp [LowerOption.start, Table.get?] at found
  have stages := stages_of_walked (walk_walked numbered walks)
  dsimp only
  generalize (if lowering.hoistStatic = true then (planOf template roots progress).hoist
    else planOf template roots progress).injectCache = plan at stages ⊢
  have sameRoots := stages.roots_eq
  have distinct : plan.assets.Nodup := by
    rw [stages.assets_eq]
    exact resolves.nodup_assets
  refine ⟨plan.assetsPieces_eq, distinct, ?_, ?_, ?_, ?_, ?_, ?_⟩
  · intro node inside element isElement
    rw [sameRoots] at inside
    obtain ⟨call, written, refers⟩ := stages.references inside isElement
    refine ⟨call, written, refers, ?_⟩
    rw [stages.assets_eq]
    obtain ⟨above, lineage⟩ := Node.mem_flattenAll_iff.1 inside
    obtain ⟨role, settled⟩ := Settled.along stages.walked.settled lineage
    obtain ⟨vnode, before, refers, -⟩ := settled.references isElement
    have listed := resolves.listed before rfl
    rw [refers] at listed
    intro asset own
    obtain ⟨other, member, same⟩ := List.mem_map.1 (listed (List.mem_map_of_mem own))
    exact Asset.reference_injective same ▸ member
  · intro id call written
    have coded : plan.table.get? id ≠ none := by
      intro missing
      rw [Plan.unfolded?, missing] at written
      cases written
    obtain ⟨code, found⟩ := Option.ne_none_iff_exists'.1 coded
    obtain ⟨node, inside, rfl⟩ := stages.exists_of_code found
    obtain ⟨body, same, mirrors⟩ := stages.unfolded?_mirrors inside
    cases same.symm.trans written
    refine ⟨node, by rwa [sameRoots], rfl, ?_⟩
    rw [Node.isElement, Node.element?]
    generalize node.content = content at mirrors
    cases mirrors
    rfl
  · intro call member
    obtain ⟨index, found⟩ := List.mem_iff_getElem?.1 member
    exact stages.references_constant found
  · intro call fragment
    have root : plan.root = progress.root := by
      rw [stages.rest]
      rfl
    rw [root, stages.walked.root] at fragment
    exact RootCode.references_ofIds fragment
  · intro asset listed
    exact Asset.count_identifier distinct listed
  · intro plain
    refine List.Nodup.map_on ?_ distinct
    intro first one second other same
    exact Asset.eq_of_identifier_eq (plain first one).1 (plain second other).1 (plain first one).2
      (plain second other).2 same

/-- Whatever is compiled, the code is that of a plan which declares all it refers to. -/
theorem compile_resolves {option : CompileOption} {source : String} {compilation : Compilation}
    (compiles : compile option source = .ok compilation) :
    ∃ template problems lowered,
      parse option.parsing (option.scan source) = .ok (template, problems) ∧
      lower option.lowering template = .ok lowered ∧
      compilation.code = (option.generatePlan lowered.plan).code ∧ lowered.plan.Resolved := by
  obtain ⟨template, problems, lowered, parsed, lowers, same⟩ := exists_stages_of_compile compiles
  refine ⟨template, problems, lowered, parsed, lowers, ?_, lower_resolved parsed lowers⟩
  rw [same]

/-- A component inside of another one, and one directive that is used twice. -/
def dashedSource : String :=
  "<foo-bar v-tip><foo-baz v-tip/></foo-bar>"

theorem compile_resolves_dashed : ∃ compilation template problems lowered,
    compile {} dashedSource = .ok compilation ∧
      parse {} (scan {} dashedSource) = .ok (template, problems) ∧
      lower {} template = .ok lowered ∧
      lowered.plan.assets = [.component "foo-baz", .component "foo-bar", .directive "tip"] ∧
      compilation.code = (generate {} lowered.plan).code ∧ lowered.plan.Resolved := by
  obtain ⟨template, problems, lowered, parsed, lowers, listed⟩ := @exists_lowered {} {}
    (scan {} dashedSource) (fun lowered => lowered.plan.assets =
      [.component "foo-baz", .component "foo-bar", .directive "tip"]) (by decide +kernel)
  obtain ⟨compilation, compiles, -⟩ :=
    @exists_compilation dashedSource {} (fun _ => true) (by decide +kernel)
  obtain ⟨_, _, again, first, second, code, resolved⟩ := compile_resolves compiles
  cases first.symm.trans parsed
  cases second.symm.trans lowers
  exact ⟨compilation, template, problems, lowered, compiles, parsed, lowers,
    of_decide_eq_true listed, code, resolved⟩

/-- The code of two components that differ in nothing but a dash. -/
def clashingCode : String :=
  "import \x7b Fragment as _Fragment, openBlock as _openBlock, " ++
    "createElementBlock as _createElementBlock, createVNode as _createVNode, " ++
    "resolveComponent as _resolveComponent \x7d from \"vue\"\n\n" ++
    "export function render(_ctx, _cache) \x7b\n" ++
    "  const _component_foo_bar = _resolveComponent(\"foo-bar\")\n" ++
    "  const _component_foo_bar = _resolveComponent(\"foo_bar\")\n\n" ++
    "  return (_openBlock(), _createElementBlock(_Fragment, null, [\n" ++
    "    _createVNode(_component_foo_bar),\n" ++
    "    _createVNode(_component_foo_bar)\n" ++
    "  ], 64 /* STABLE_FRAGMENT */))\n\x7d\n"

/-- Both components are declared by one identifier, and a script may not declare a constant
twice. -/
theorem one_identifier_declared_twice : ∃ compilation,
    compile {} "<foo-bar/><foo_bar/>" = .ok compilation ∧ compilation.code = clashingCode := by
  obtain ⟨compilation, compiles, same⟩ := @exists_compilation "<foo-bar/><foo_bar/>" {}
    (fun compilation => compilation.code = clashingCode) (by decide +kernel)
  exact ⟨compilation, compiles, of_decide_eq_true same⟩

end TemplateCompiler
