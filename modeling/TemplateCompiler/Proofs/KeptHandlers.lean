import TemplateCompiler.Proofs.HandlerPlaces
import TemplateCompiler.Proofs.HoistSoundness
import TemplateCompiler.Proofs.PatchFlags
import TemplateCompiler.Proofs.SharedCells

/-! Handlers that are kept in the render cache. In the end a handler has a cell just if it can be
kept, and one that can be kept does not depend on the item of a loop. What has no cell is made anew
in every rendering, so the hint of the node names the property that it is in. -/

namespace TemplateCompiler

namespace Expr

/-- The expression by itself, if it is a handler, has a cell just if it can be kept. -/
def Accounted : Expr → Prop
  | handler _ traits => traits.slot.isSome = traits.cacheable
  | _ => True

theorem HandlerFree.accounted {expr : Expr} (free : expr.HandlerFree) : expr.Every Accounted := by
  refine free.imp fun part own => ?_
  cases part with
  | handler => cases own
  | _ => trivial

mutual

/-- No handler is passed over when cells are handed out. -/
theorem accounted_assignCells (next : Nat) : {expr : Expr} → expr.Orderly → expr.Uncached →
    (expr.assignCells next).1.Every Accounted
  | handler body traits, orderly, uncached => by
    have bare : traits.slot = none := uncached _ .self
    have free := ((orderly_handler body traits).1 orderly).accounted
    have account : ((handler body traits).assignCells next).1.Accounted := by
      rw [assignCells, bare]
      cases keeps : traits.cacheable with
      | true => rfl
      | false => simp [Accounted, bare, keeps]
    rw [assignCells] at account ⊢
    split at account
    · next given =>
      rw [if_pos given]
      exact every_iff.2 ⟨account, List.forall_mem_singleton.2 free⟩
    · next refused =>
      rw [if_neg refused]
      exact every_iff.2 ⟨account, List.forall_mem_singleton.2 free⟩
  | compound parts, orderly, uncached => by
    rw [assignCells]
    exact every_iff.2 ⟨trivial, accounted_assignCellsAll next (every_iff.1 orderly).2
      (every_iff.1 uncached).2⟩
  | array items, orderly, uncached => by
    rw [assignCells]
    exact every_iff.2 ⟨trivial, accounted_assignCellsAll next (every_iff.1 orderly).2
      (every_iff.1 uncached).2⟩
  | call helper args, orderly, uncached => by
    rw [assignCells]
    exact every_iff.2 ⟨trivial, accounted_assignCellsAll next (every_iff.1 orderly).2
      (every_iff.1 uncached).2⟩
  | props entries, orderly, uncached => by
    rw [assignCells]
    refine every_iff.2 ⟨trivial, (forall_inner_props _).2 ?_⟩
    exact accounted_assignCellsEntries next ((orderly_props entries).1 orderly)
      fun entry member => (every_iff.1 uncached).2 _ (mem_inner_props member).2
  | source _, _, _ | number _, _, _ | literal _, _, _ | madeLiteral _, _, _ | simple _ _, _, _
  | param _, _, _ | context _, _, _ | symbol _, _, _ => by
    rw [assignCells] <;> simp [HandlerFree.accounted]

theorem accounted_assignCellsAll (next : Nat) : {exprs : List Expr} →
    (∀ expr ∈ exprs, expr.Orderly) → (∀ expr ∈ exprs, expr.Uncached) →
    ∀ expr ∈ (assignCellsAll next exprs).1, expr.Every Accounted
  | [], _, _ => List.forall_mem_nil _
  | expr :: rest, orderly, uncached => by
    obtain ⟨own, others⟩ := List.forall_mem_cons.1 orderly
    obtain ⟨bare, later⟩ := List.forall_mem_cons.1 uncached
    exact List.forall_mem_cons.2
      ⟨accounted_assignCells next own bare, accounted_assignCellsAll _ others later⟩

theorem accounted_assignCellsEntries (next : Nat) : {entries : List Entry} →
    (∀ entry ∈ entries, Entry.Orderly entry) → (∀ entry ∈ entries, entry.2.Uncached) →
    ∀ entry ∈ (assignCellsEntries next entries).1,
      entry.1.Every Accounted ∧ entry.2.Every Accounted
  | [], _, _ => List.forall_mem_nil _
  | (key, value) :: rest, orderly, uncached => by
    obtain ⟨own, others⟩ := List.forall_mem_cons.1 orderly
    obtain ⟨bare, later⟩ := List.forall_mem_cons.1 uncached
    exact List.forall_mem_cons.2 ⟨⟨own.key.accounted, accounted_assignCells next own.value bare⟩,
      accounted_assignCellsEntries _ others later⟩

end

theorem refersToScopeAny_eq_false {exprs : List Expr} :
    refersToScopeAny exprs = false ↔ ∀ expr ∈ exprs, expr.refersToScope = false := by
  induction exprs with
  | nil => simp [refersToScopeAny]
  | cons expr rest ih => simp [refersToScopeAny, ih]

theorem refersToScopeEntries_eq_false {entries : List Entry} :
    refersToScopeEntries entries = false ↔
      ∀ entry ∈ entries, entry.1.refersToScope = false ∧ entry.2.refersToScope = false := by
  induction entries with
  | nil => simp [refersToScopeEntries]
  | cons entry rest ih => simp [refersToScopeEntries, ih, and_assoc]

/-- The test for aliases looks into every part of an expression, handlers apart. -/
theorem not_occurs_param {expr : Expr} (free : expr.HandlerFree)
    (independent : expr.refersToScope = false) (name : String) : ¬ Occurs (param name) expr := by
  have every : expr.Every fun part => part.HandlerFree ∧ part.refersToScope = false := by
    refine every_of_inherited ⟨free, independent⟩ ?_
    rintro outer ⟨outerFree, none⟩ nested member
    refine ⟨(every_iff.1 outerFree).2 nested member, ?_⟩
    cases outer with
    | compound parts => exact refersToScopeAny_eq_false.1 none nested member
    | array items => exact refersToScopeAny_eq_false.1 none nested member
    | call helper args => exact refersToScopeAny_eq_false.1 none nested member
    | props entries =>
      have entry := refersToScopeEntries_eq_false.1 none
      exact (@forall_inner_props (·.refersToScope = false) entries).2 entry nested member
    | handler => cases outerFree _ .self
    | _ => cases member
  intro occurs
  cases (every _ occurs).2

/-- The expression by itself, if it is a handler that can be kept, is one that may be. -/
def MayKeep (cacheHandlers : Bool) : Expr → Prop
  | handler body traits => traits.cacheable = true →
      cacheHandlers = true ∧ body.refersToScope = false
  | _ => True

theorem mayKeep_assignCells (cacheHandlers : Bool) (expr : Expr) (next : Nat)
    (own : expr.MayKeep cacheHandlers) : (expr.assignCells next).1.MayKeep cacheHandlers := by
  cases expr with
  | handler body traits =>
    rw [assignCells]
    split <;> exact own
  | _ => simp [assignCells, MayKeep]

theorem Lowered.mayKeep {around : Surroundings} {expr : Expr} (lowered : expr.Lowered around) :
    expr.Every (MayKeep around.cacheHandlers) := by
  refine lowered.imp fun part fits => ?_
  cases part with
  | handler body traits =>
    intro keeps
    rw [fits.2, Bool.and_eq_true, Bool.and_eq_true, Bool.not_eq_true'] at keeps
    exact keeps.1
  | _ => trivial

theorem isDynamicAny_of_mem {items : List Expr} {item : Expr} (member : item ∈ items)
    (dynamic : item.isDynamic = true) : isDynamicAny items = true := by
  induction items with
  | nil => cases member
  | cons first rest ih =>
    rw [isDynamicAny, Bool.or_eq_true]
    rcases List.mem_cons.1 member with rfl | later
    · exact .inl dynamic
    · exact .inr (ih later)

/-- A value with a handler in it that cannot be kept may differ from one rendering to the next. -/
theorem isDynamic_of_occurs {expr body : Expr} {traits : HandlerTraits} (orderly : expr.Orderly)
    (occurs : Occurs (handler body traits) expr) (loose : traits.cacheable = false) :
    expr.isDynamic = true := by
  induction occurs with
  | self => rw [isDynamic, loose]; rfl
  | @inside outer nested member deeper ih =>
    have varies : outer.level.isStatic = false := by
      by_contra static
      cases every_of_isStatic (eq_true_of_ne_false static) _ (.inside member deeper)
    cases outer with
    | array items =>
      rw [orderly_array] at orderly
      exact isDynamicAny_of_mem member (ih (orderly nested member))
    | handler inner own =>
      rw [orderly_handler] at orderly
      cases List.mem_singleton.1 member
      cases orderly _ deeper
    | _ => simpa [isDynamic] using varies

end Expr

namespace Caching

variable {marks : NodeMap CacheMark} {dependencies : NodeMap Expr} {inLoop : Bool}
  {caching : Caching} {id : NodeId}

theorem props_adjust (mark : CacheMark) (vnode : VNode) : (adjust mark vnode).props = vnode.props := by
  obtain ⟨isBlock, same⟩ := exists_adjust mark vnode
  rw [same]

/-- A mark leaves the properties of a virtual node alone. -/
theorem vnode_wrapMarked {call : VNode}
    (found : caching.table.get? id = some { body := .vnode call }) :
    ∃ marked cache, (caching.wrapMarked marks dependencies inLoop id).table.get? id =
      some { body := .vnode marked, cache } ∧ marked.props = call.props := by
  unfold wrapMarked
  split
  · next mark _ =>
    simp only [wrap, found, Table.get?_set, if_true]
    exact ⟨_, _, rfl, props_adjust mark call⟩
  · exact ⟨call, none, found, rfl⟩

/-- When the walk comes to a virtual node, all of its handlers are offered cells. -/
theorem props_enter {call vnode : VNode} {cache : Option CacheCell}
    (found : caching.table.get? id = some { body := .vnode call })
    (final : (caching.enter marks dependencies inLoop id).table.get? id =
      some { body := .vnode vnode, cache }) :
    ∃ next, vnode.props = call.props.map fun props => (props.assignCells next).1 := by
  obtain ⟨marked, kept, wrapped, same⟩ :=
    @vnode_wrapMarked marks dependencies inLoop caching id call found
  rw [enter, cacheHandlers, wrapped] at final
  simp only at final
  cases given : marked.props with
  | none =>
    rw [given, wrapped] at final
    cases final
    exact ⟨0, by rw [← same, given]; rfl⟩
  | some props =>
    rw [given, Table.get?_set, if_pos rfl] at final
    cases final
    exact ⟨_, by rw [← same, given]; rfl⟩

end Caching

/-- Handing out cells makes no virtual node. -/
theorem Plan.Recoded.vnode {marks : NodeMap CacheMark} {dependencies : NodeMap Expr} {id : NodeId}
    {body : CodeBody} {new : Code} {vnode : VNode} (recoded : Recoded marks dependencies id { body } new)
    (made : new.body = .vnode vnode) : ∃ call, body = .vnode call := by
  induction recoded generalizing vnode with
  | refl => exact ⟨vnode, made⟩
  | @wrap middle _ _ _ _ _ ih =>
    cases middle with
    | vnode call => exact ih rfl
    | _ => cases made
  | handlers _ _ _ ih => exact ih rfl

theorem Surroundings.cacheHandlers_along (around : Surroundings) (above : List Node) :
    (around.along above).cacheHandlers = around.cacheHandlers := by
  induction above with
  | nil => rfl
  | cons parent above ih =>
    rw [along, ← ih]
    cases parent.content <;> rfl

theorem Surroundings.cacheHandlers_own (around : Surroundings) (content : Content) :
    (around.own content).cacheHandlers = around.cacheHandlers := by
  cases content <;> rfl

theorem Settled.orderly {progress : Progress} {around : Surroundings} {role : Role} {node : Node}
    {call : VNode} (settled : Settled progress around role node)
    (code : progress.table.get? node.id = some { body := .vnode call }) :
    ∀ props ∈ call.props, props.Orderly := by
  cases settled with
  | element _ own =>
    cases own.symm.trans code
    exact Role.orderly_finish role _ (orderly_lowerElement _ _ _ _)
  | text _ _ _ _ _ own | comment _ own | conditional _ _ _ own | loop _ own =>
    cases own.symm.trans code

/-- The properties of a virtual node are those that lowering an element gave, with cells. -/
theorem lower_assignsCells {option : LowerOption} {template : Template} {lowered : Lowered}
    {node : Node} {above : List Node} {vnode : VNode} {cache : Option CacheCell}
    (numbered : template.Numbered) (lowers : lower option template = .ok lowered)
    (lineage : Node.Lineage lowered.plan.template.roots node above)
    (final : lowered.plan.table.get? node.id = some { body := .vnode vnode, cache }) :
    ∃ around : Surroundings, around.cacheHandlers = option.cacheHandlers ∧
      ∃ (made : Option Expr) (next : Nat),
        vnode.props = made.map (fun props => (props.assignCells next).1) ∧
        ∀ props ∈ made, props.Orderly ∧ props.Lowered around := by
  obtain ⟨roots, progress, walked, same⟩ := lower_walked numbered lowers
  have stages := stages_of_walked walked
  have moved := walked.hoist_moved
  rw [← same] at stages
  generalize (if option.hoistStatic then (planOf template roots progress).hoist
    else planOf template roots progress) = before at same moved
  have sameRoots : before.template.roots = roots := congrArg (·.template.roots) moved.rest
  rw [stages.roots_eq] at lineage
  obtain ⟨role, settled⟩ := Settled.along walked.settled lineage
  obtain ⟨body, code, written⟩ := settled.lowered
  obtain ⟨call, rfl⟩ := (stages.recoded_of_code code final nofun).vnode rfl
  have stays : node.id ∉ hoistedIds option roots progress := by
    intro hoisted
    obtain ⟨_, _, _, constant, _⟩ := stages.moves code hoisted
    cases constant.symm.trans final
  rw [← sameRoots] at lineage
  obtain ⟨middle, early, late⟩ := Plan.injectCache_entered (by rw [sameRoots]; exact walked.distinct)
    lineage
  have found : middle.table.get? node.id = some { body := .vnode call } :=
    early.trans ((moved.kept node.id stays).trans code)
  rw [same, late] at final
  obtain ⟨next, props⟩ := Caching.props_enter found final
  refine ⟨option.surroundings.along above |>.own node.content,
    ?_, call.props, next, props, fun given member => ⟨settled.orderly code given member, ?_⟩⟩
  · rw [Surroundings.cacheHandlers_own, Surroundings.cacheHandlers_along, LowerOption.surroundings]
  · exact (VNode.forall_expressions.1 written).2.1 given member

/-- What is known in the end of the handlers in the properties of a virtual node. -/
structure Expr.KeepsHandlers (cacheHandlers : Bool) (props : Expr) : Prop where
  orderly : props.Orderly
  accounted : props.Every Accounted
  mayKeep : props.Every (MayKeep cacheHandlers)

theorem Expr.handlerFree_of_fixed {expr : Expr} (fixed : expr.Every fun part => part.varies = false) :
    expr.HandlerFree := by
  refine fixed.imp fun part own => ?_
  cases part with
  | handler => cases own
  | _ => rfl

theorem Expr.HandlerFree.keepsHandlers {props : Expr} (free : props.HandlerFree)
    (cacheHandlers : Bool) : props.KeepsHandlers cacheHandlers := by
  refine ⟨free.orderly, free.accounted, free.imp fun part own => ?_⟩
  cases part with
  | handler => cases own
  | _ => trivial

theorem lower_keepsHandlersOf {option : LowerOption} {template : Template} {lowered : Lowered}
    {node : Node} {above : List Node} {vnode : VNode} {cache : Option CacheCell}
    (numbered : template.Numbered) (lowers : lower option template = .ok lowered)
    (lineage : Node.Lineage lowered.plan.template.roots node above)
    (final : lowered.plan.table.get? node.id = some { body := .vnode vnode, cache }) :
    ∀ props ∈ vnode.props, props.KeepsHandlers option.cacheHandlers := by
  obtain ⟨around, same, made, next, given, known⟩ :=
    lower_assignsCells numbered lowers lineage final
  intro props member
  rw [given] at member
  obtain ⟨before, listed, rfl⟩ := Option.map_eq_some_iff.1 member
  obtain ⟨orderly, resolved⟩ := known before listed
  have mayKeep := resolved.mayKeep
  rw [same] at mayKeep
  exact ⟨orderly.assignCells next, Expr.accounted_assignCells next orderly resolved.uncached,
    Expr.every_assignCells (Expr.mayKeep_assignCells option.cacheHandlers) next mayKeep⟩

inductive Plan.Makes (plan : Plan) (vnode : VNode) : Prop
  | node {id : NodeId} {cache : Option CacheCell}
      (found : plan.table.get? id = some { body := .vnode vnode, cache })
  | constant (member : vnode ∈ plan.hoists)
  | fragment (root : plan.root = .fragment vnode)

/-- The handlers of a plan, however deep they are in the properties of its virtual nodes. -/
structure Plan.KeepsHandlers (cacheHandlers : Bool) (plan : Plan) : Prop where
  /-- A handler has a cell just if it can be kept. -/
  cells : ∀ vnode, plan.Makes vnode → ∀ props ∈ vnode.props, ∀ body traits,
    Expr.Occurs (.handler body traits) props → traits.slot.isSome = traits.cacheable
  /-- No alias of a loop occurs in a handler that can be kept. -/
  independent : ∀ vnode, plan.Makes vnode → ∀ props ∈ vnode.props, ∀ body traits,
    Expr.Occurs (.handler body traits) props → traits.cacheable = true →
    cacheHandlers = true ∧ ∀ name, ¬ Expr.Occurs (.param name) body
  off : cacheHandlers = false → ∀ vnode, plan.Makes vnode → ∀ props ∈ vnode.props, ∀ body traits,
    Expr.Occurs (.handler body traits) props → traits.slot = none
  constants : ∀ vnode ∈ plan.hoists, ∀ props ∈ vnode.props, ∀ body traits,
    ¬ Expr.Occurs (.handler body traits) props
  /-- Unless all properties of an element are compared, a handler without a cell is under a name
  that comes with the flag. -/
  hinted : ∀ node ∈ Node.flattenAll plan.template.roots, ∀ element,
    node.content = .element element → element.kind ≠ .fragment → ∀ vnode cache,
    plan.table.get? node.id = some { body := .vnode vnode, cache } →
    vnode.patchFlag.contains .fullProps = false → ∀ props ∈ vnode.props,
    ∃ entries, props = .props entries ∧ ∀ entry ∈ entries, ∀ body traits,
      Expr.Occurs (.handler body traits) entry.2 → ∃ name, entry.1.staticKey? = some name ∧
        ((∃ listed ∈ vnode.dynamicProps, listed.staticKey? = some name) ∨ traits.slot.isSome = true)

/-- Nodes that are made once, outside of the render function, have no handlers. -/
theorem handlerFree_of_constant {option : LowerOption} {template : Template} {lowered : Lowered}
    {vnode : VNode} (numbered : template.Numbered) (lowers : lower option template = .ok lowered)
    (member : vnode ∈ lowered.plan.hoists) : ∀ props ∈ vnode.props, props.HandlerFree := by
  obtain ⟨roots, progress, stages⟩ := lower_stages numbered lowers
  obtain ⟨index, found⟩ := List.mem_iff_getElem?.1 member
  obtain ⟨node, above, call, lineage, hoisted, code, _, rfl⟩ := stages.constant found
  obtain ⟨role, settled⟩ := Settled.along stages.walked.settled lineage
  obtain ⟨static, _⟩ := stages.walked.static_of_hoisted lineage hoisted
  obtain ⟨body, same, constant⟩ := static.constant settled
  cases same.symm.trans code
  intro props given
  have listed : props ∈ call.props := given
  exact Expr.handlerFree_of_fixed (constant.2.2 props (by simp [Option.mem_def.1 listed]))

theorem keepsHandlers_of_makes {option : LowerOption} {template : Template} {lowered : Lowered}
    {vnode : VNode} (numbered : template.Numbered) (lowers : lower option template = .ok lowered)
    (makes : lowered.plan.Makes vnode) :
    ∀ props ∈ vnode.props, props.KeepsHandlers option.cacheHandlers := by
  obtain ⟨roots, progress, stages⟩ := lower_stages numbered lowers
  cases makes with
  | node found =>
    obtain ⟨node, member, rfl⟩ := stages.exists_of_code found
    rw [← stages.roots_eq] at member
    obtain ⟨above, lineage⟩ := Node.mem_flattenAll_iff.1 member
    exact lower_keepsHandlersOf numbered lowers lineage found
  | constant member =>
    exact fun props given =>
      (handlerFree_of_constant numbered lowers member props given).keepsHandlers _
  | fragment root =>
    intro props given
    rw [stages.rest] at root
    have single := RootCode.expressions_ofIds (stages.walked.root.symm.trans root)
    have listed : props ∈ vnode.expressions := by
      simp [VNode.expressions, Option.mem_def.1 given]
    rw [single, List.mem_singleton] at listed
    rw [listed]
    exact (Expr.handlerFree_symbol _).keepsHandlers _

/-- The hint of an element names the property of each handler that is made anew. -/
theorem VNode.Hinted.names_handlers {kind : ElementKind} {vnode : VNode} {cacheHandlers : Bool}
    (hinted : vnode.Hinted kind) (named : vnode.patchFlag.contains .fullProps = false)
    {props : Expr} (given : props ∈ vnode.props) (keeps : props.KeepsHandlers cacheHandlers) :
    ∃ entries, props = .props entries ∧ ∀ entry ∈ entries, ∀ body traits,
      Expr.Occurs (.handler body traits) entry.2 → ∃ name, entry.1.staticKey? = some name ∧
        ((∃ listed ∈ vnode.dynamicProps, listed.staticKey? = some name) ∨
          traits.slot.isSome = true) := by
  rcases hinted.props named with none | ⟨entries, same, covered⟩
  · cases none.symm.trans given
  · obtain rfl : props = .props entries := Option.some.inj (given.symm.trans same)
    refine ⟨entries, rfl, fun entry member body traits occurs => ?_⟩
    obtain ⟨name, known, watched⟩ := covered entry member
    refine ⟨name, known, ?_⟩
    have placed := (Expr.orderly_props entries).1 keeps.orderly entry member
    have account : traits.slot.isSome = traits.cacheable :=
      keeps.accounted _ (.inside (Expr.mem_inner_props member).2 occurs)
    cases keepable : traits.cacheable with
    | true => exact .inr (account.trans keepable)
    | false =>
      have event : "on".toList <+: name.toList := by
        rcases placed.named with free | event
        · cases free _ occurs
        · exact event name known
      cases watched (Expr.isDynamic_of_occurs placed.value occurs keepable) with
      | listed among same _ => exact .inl ⟨_, among, same⟩
      | key | ref | classes | styles => exact absurd event (by decide)

/-- Whatever was parsed, a plan that lowering comes to keeps just the handlers that can be kept, and
none that depends on the item of a loop. -/
theorem lower_keepsHandlers {parsing : ParseOption} {lowering : LowerOption} {reading : Scan}
    {template : Template} {problems : List Problem} {lowered : Lowered}
    (parsed : parse parsing reading = .ok (template, problems))
    (lowers : lower lowering template = .ok lowered) :
    lowered.plan.KeepsHandlers lowering.cacheHandlers := by
  have numbered := numbered_of_parse parsed
  have kept (vnode : VNode) (makes : lowered.plan.Makes vnode) :=
    keepsHandlers_of_makes numbered lowers makes
  refine ⟨?_, ?_, ?_, ?_, ?_⟩
  · intro vnode makes props given body traits occurs
    exact (kept vnode makes props given).accounted _ occurs
  · intro vnode makes props given body traits occurs keepable
    have keeps := kept vnode makes props given
    obtain ⟨on, independent⟩ := keeps.mayKeep _ occurs keepable
    have free : body.HandlerFree :=
      (Expr.orderly_handler body traits).1 (keeps.orderly.of_occurs occurs)
    exact ⟨on, Expr.not_occurs_param free independent⟩
  · intro off vnode makes props given body traits occurs
    have keeps := kept vnode makes props given
    have account : traits.slot.isSome = traits.cacheable := keeps.accounted _ occurs
    by_contra some
    have keepable := account.symm.trans (Option.isSome_iff_ne_none.2 some)
    rw [(keeps.mayKeep _ occurs keepable).1] at off
    cases off
  · intro vnode member props given body traits occurs
    cases handlerFree_of_constant numbered lowers member props given _ occurs
  · intro node member element content present vnode cache final named props given
    obtain ⟨roots, progress, stages⟩ := lower_stages numbered lowers
    rw [stages.roots_eq] at member
    obtain ⟨above, lineage⟩ := Node.mem_flattenAll_iff.1 member
    exact (stages.hints lineage content present final).names_handlers named given
      (kept vnode (.node final) props given)

/-- A model and a listener of one event; a listener with an alias beside one without; listeners
beside an object that is merged in. -/
def listeningSource : String :=
  "<input v-model=\"a\" @input=\"b\"><p v-for=\"c in d\" @click=\"e(c)\" @keyup=\"f\"/>" ++
    "<q v-bind=\"g\" @click=\"h\" v-on:click=\"k++\"/>"

theorem lower_keepsHandlers_merged : ∃ template problems lowered,
    parse {} (scan {} listeningSource) = .ok (template, problems) ∧
      lower { cacheHandlers := true } template = .ok lowered ∧
      lowered.plan.slots.map (·.kind) = List.replicate 5 .handler ∧
      lowered.plan.KeepsHandlers true := by
  have succeeds : ((parse {} (scan {} listeningSource)).bind fun parsed =>
      lower { cacheHandlers := true } parsed.1).toOption.any (fun lowered =>
        decide (lowered.plan.slots.map (·.kind) = List.replicate 5 .handler)) = true := by
    decide +kernel
  obtain ⟨template, problems, lowered, parsed, lowers, kinds⟩ := exists_lowered succeeds
  exact ⟨template, problems, lowered, parsed, lowers, of_decide_eq_true kinds,
    lower_keepsHandlers parsed lowers⟩

end TemplateCompiler
