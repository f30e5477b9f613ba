import TemplateCompiler.Proofs.HoistSoundness

/-! Hoisting only moves code. It does not meet the handing out of cells: what is moved has no cell
and gets none, and a cell does not make anything more or less static. So a plan with constants is
the plan without them, apart from the elements that became references to constants. -/

namespace TemplateCompiler

namespace Expr

mutual

theorem level_assignCells (next : Nat) : (expr : Expr) →
    (expr.assignCells next).1.level = expr.level
  | handler body traits => by
    rw [assignCells]
    split <;> rfl
  | props entries => by
    simp only [assignCells, level]
    exact levelEntries_assignCells next entries
  | call helper args => by
    simp only [assignCells, level]
    exact levelAll_assignCells next args
  | array items => by
    simp only [assignCells, level]
    exact levelAll_assignCells next items
  | compound parts => by
    simp only [assignCells, level]
    exact levelAll_assignCells next parts
  | source _ | number _ | literal _ | madeLiteral _ | simple _ _ | param _ | context _
  | symbol _ => by simp [assignCells]

theorem levelAll_assignCells (next : Nat) : (exprs : List Expr) →
    levelAll (assignCellsAll next exprs).1 = levelAll exprs
  | [] => rfl
  | expr :: rest => by
    simp only [assignCellsAll, levelAll]
    rw [level_assignCells next expr, levelAll_assignCells _ rest]

theorem levelEntries_assignCells (next : Nat) : (entries : List (Expr × Expr)) →
    levelEntries (assignCellsEntries next entries).1 = levelEntries entries
  | [] => rfl
  | (key, value) :: rest => by
    simp only [assignCellsEntries, levelEntries]
    rw [level_assignCells next value, levelEntries_assignCells _ rest]

end

end Expr

namespace Plan

variable {marks : NodeMap CacheMark} {dependencies : NodeMap Expr} {before after : Table}

/-- A node without a mark keeps its code, apart from the cells of its handlers. -/
theorem Recoded.eq_or_props {id : NodeId} {old new : Code} (unmarked : marks.get? id = none)
    (recoded : Recoded marks dependencies id old new) :
    new = old ∨ ∃ vnode cache props made, old = { body := .vnode vnode, cache } ∧
      vnode.props = some props ∧ Expr.level made = props.level ∧
      new = { body := .vnode { vnode with props := some made }, cache } := by
  induction recoded with
  | refl => exact .inl rfl
  | wrap _ _ marked =>
    rw [unmarked] at marked
    cases marked
  | @handlers vnode cache props next given earlier ih =>
    right
    rcases ih with rfl | ⟨first, _, old, made, rfl, had, level, same⟩
    · exact ⟨vnode, cache, props, _, rfl, given, Expr.level_assignCells next props, rfl⟩
    · cases same
      cases given
      exact ⟨first, cache, old, _, rfl, had, (Expr.level_assignCells next props).trans level, rfl⟩

mutual

theorem levelOf_recodes (recodes : Recodes marks dependencies before after) : (node : Node) →
    levelOf after marks node = levelOf before marks node
  | ⟨id, content, span, children⟩ => by
    have below := levelOfAll_recodes recodes children
    have entry := recodes id
    unfold levelOf
    split
    · rfl
    · next unmarked =>
      rw [NodeMap.contains, Option.isSome_iff_ne_none, not_not] at unmarked
      generalize before.get? id = old at entry ⊢
      generalize after.get? id = new at entry ⊢
      rw [below]
      cases entry with
      | none => rfl
      | some recoded =>
        rcases recoded.eq_or_props unmarked with rfl |
          ⟨vnode, cache, props, made, rfl, given, level, rfl⟩
        · rfl
        · cases content with
          | element element =>
            cases cache with
            | none =>
              dsimp only
              rw [given, Option.map_some, Option.map_some, level]
            | some => rfl
          | _ => rfl

theorem levelOfAll_recodes (recodes : Recodes marks dependencies before after) :
    (nodes : List Node) → levelOfAll after marks nodes = levelOfAll before marks nodes
  | [] => rfl
  | node :: rest => by
    rw [levelOfAll, levelOfAll, levelOf_recodes recodes node, levelOfAll_recodes recodes rest]

end

mutual

theorem staticElements_recodes (recodes : Recodes marks dependencies before after) :
    (node : Node) → staticElements after marks node = staticElements before marks node
  | ⟨id, content, span, children⟩ => by
    unfold staticElements
    rw [levelOf_recodes recodes, staticElementsAll_recodes recodes children]

/-- What is static stays so when cells are handed out. -/
theorem staticElementsAll_recodes (recodes : Recodes marks dependencies before after) :
    (nodes : List Node) → staticElementsAll after marks nodes = staticElementsAll before marks nodes
  | [] => rfl
  | node :: rest => by
    rw [staticElementsAll, staticElementsAll, staticElements_recodes recodes node,
      staticElementsAll_recodes recodes rest]

end

end Plan

namespace Caching

variable {marks : NodeMap CacheMark} {dependencies : NodeMap Expr} {inLoop : Bool}
  {caching : Caching} {id : NodeId} {index : Nat} {vnode : VNode}

/-- Put a reference to a constant in the place of the code of a node. -/
def refer (caching : Caching) (id : NodeId) (index : Nat) : Caching :=
  { caching with table := caching.table.set id { body := .hoisted index } }

theorem get?_refer_self :
    (caching.refer id index).table.get? id = some { body := .hoisted index } :=
  (Table.get?_set ..).trans (if_pos rfl)

theorem get?_refer_of_ne {other : NodeId} (different : other ≠ id) :
    (caching.refer id index).table.get? other = caching.table.get? other :=
  (Table.get?_set ..).trans (if_neg different)

theorem wrapMarked_of_unmarked (unmarked : marks.get? id = none) :
    caching.wrapMarked marks dependencies inLoop id = caching := by
  rw [wrapMarked, unmarked]

/-- Nothing is done for a reference. -/
theorem enter_refer_self (unmarked : marks.get? id = none) :
    (caching.refer id index).enter marks dependencies inLoop id = caching.refer id index := by
  rw [enter, wrapMarked_of_unmarked unmarked, cacheHandlers, get?_refer_self]

/-- Nothing is done for a virtual node that is fixed. -/
theorem enter_of_fixed (unmarked : marks.get? id = none)
    (found : caching.table.get? id = some { body := .vnode vnode })
    (fixed : ∀ props, vnode.props = some props → props.level.isStatic = true) :
    caching.enter marks dependencies inLoop id = caching := by
  rw [enter, wrapMarked_of_unmarked unmarked]
  cases given : vnode.props with
  | none => simp only [cacheHandlers, found, given]
  | some props =>
    have same := Expr.assignCells_of_fixed caching.slots.length
      (Expr.every_of_isStatic (fixed props given))
    have unchanged := Table.set_get? found
    simp only [cacheHandlers, found, given, same, Nat.sub_self, List.replicate_zero,
      List.append_nil]
    rw [← given, unchanged]

theorem wrapMarked_refer {other : NodeId} (different : other ≠ id) :
    (caching.refer id index).wrapMarked marks dependencies inLoop other =
      (caching.wrapMarked marks dependencies inLoop other).refer id index := by
  simp only [wrapMarked, wrap, get?_refer_of_ne different]
  split
  · split
    · simp only [refer, Table.set_comm _ different.symm]
    · rfl
  · rfl

theorem cacheHandlers_refer {other : NodeId} (different : other ≠ id) :
    (caching.refer id index).cacheHandlers other =
      (caching.cacheHandlers other).refer id index := by
  simp only [cacheHandlers, get?_refer_of_ne different]
  split
  · split
    · rfl
    · simp only [refer, Table.set_comm _ different.symm]
  · rfl

theorem enter_refer {other : NodeId} (different : other ≠ id) :
    (caching.refer id index).enter marks dependencies inLoop other =
      (caching.enter marks dependencies inLoop other).refer id index := by
  rw [enter, enter, wrapMarked_refer different, cacheHandlers_refer different]

end Caching

namespace Plan

variable {marks : NodeMap CacheMark} {dependencies : NodeMap Expr} {id : NodeId} {vnode : VNode}

mutual

/-- Handing out cells leaves a fixed virtual node alone, and does the same for all else if there is
a reference in its place. -/
theorem cacheNode_refer (unmarked : marks.get? id = none)
    (fixed : ∀ props, vnode.props = some props → props.level.isStatic = true) (index : Nat)
    (inLoop : Bool) (caching : Caching)
    (found : caching.table.get? id = some { body := .vnode vnode }) : (node : Node) →
    (cacheNode marks dependencies inLoop caching node).table.get? id =
        some { body := .vnode vnode } ∧
      cacheNode marks dependencies inLoop (caching.refer id index) node =
        (cacheNode marks dependencies inLoop caching node).refer id index
  | ⟨number, content, span, children⟩ => by
    simp only [cacheNode_eq]
    -- At the node itself nothing is done on either side; elsewhere its entry is not looked at.
    by_cases same : number = id
    · rw [same, Caching.enter_refer_self unmarked, Caching.enter_of_fixed unmarked found fixed]
      exact cacheAll_refer unmarked fixed index _ caching found children
    · rw [Caching.enter_refer same]
      apply cacheAll_refer unmarked fixed index _ _ ?_ children
      rw [Caching.get?_enter_of_ne _ _ _ _ fun again => same again.symm]
      exact found

theorem cacheAll_refer (unmarked : marks.get? id = none)
    (fixed : ∀ props, vnode.props = some props → props.level.isStatic = true) (index : Nat)
    (inLoop : Bool) (caching : Caching)
    (found : caching.table.get? id = some { body := .vnode vnode }) : (nodes : List Node) →
    (cacheAll marks dependencies inLoop caching nodes).table.get? id =
        some { body := .vnode vnode } ∧
      cacheAll marks dependencies inLoop (caching.refer id index) nodes =
        (cacheAll marks dependencies inLoop caching nodes).refer id index
  | [] => by
    rw [cacheAll, cacheAll]
    exact ⟨found, rfl⟩
  | node :: rest => by
    obtain ⟨kept, first⟩ := cacheNode_refer unmarked fixed index inLoop caching found node
    simp only [cacheAll, first]
    exact cacheAll_refer unmarked fixed index inLoop _ kept rest

end

/-- The code of a node can be moved without a trace in the cells. -/
structure Movable (plan : Plan) (id : NodeId) (vnode : VNode) : Prop where
  unmarked : plan.marks.get? id = none
  code : plan.table.get? id = some { body := .vnode vnode }
  fixed : ∀ props, vnode.props = some props → props.level.isStatic = true

variable {plan : Plan}

theorem Movable.hoistNode_eq (movable : plan.Movable id vnode) : plan.hoistNode id =
    { plan with
        hoists := plan.hoists ++ [vnode.asConstant]
        table := plan.table.set id { body := .hoisted plan.hoists.length } } := by
  simp only [hoistNode, movable.code]
  rfl

theorem Movable.hoistNode {other : NodeId} {call : VNode} (movable : plan.Movable id vnode)
    (rest : plan.Movable other call) (different : other ≠ id) :
    (plan.hoistNode id).Movable other call := by
  rw [movable.hoistNode_eq]
  refine ⟨rest.unmarked, ?_, rest.fixed⟩
  exact (Table.get?_set ..).trans ((if_neg different).trans rest.code)

/-- It is the same to move an element before or after cells are handed out. -/
theorem Movable.injectCache_hoistNode (movable : plan.Movable id vnode) :
    (plan.hoistNode id).injectCache = plan.injectCache.hoistNode id := by
  obtain ⟨kept, commutes⟩ := @cacheAll_refer plan.marks plan.memoDependencies id vnode
    movable.unmarked movable.fixed plan.hoists.length false
    { table := plan.table, slots := plan.slots } movable.code plan.template.roots
  have later : plan.injectCache.Movable id vnode := ⟨movable.unmarked, kept, movable.fixed⟩
  rw [later.hoistNode_eq, movable.hoistNode_eq]
  simp only [injectCache]
  exact congrArg (fun caching : Caching => { plan with
    hoists := plan.hoists ++ [vnode.asConstant]
    table := caching.table
    slots := caching.slots }) commutes

theorem injectCache_foldl_hoistNode {ids : List NodeId} (distinct : ids.Nodup)
    (movable : ∀ id ∈ ids, ∃ vnode, plan.Movable id vnode) :
    (ids.foldl hoistNode plan).injectCache = ids.foldl hoistNode plan.injectCache := by
  induction ids generalizing plan with
  | nil => rfl
  | cons id rest ih =>
    obtain ⟨fresh, others⟩ := List.nodup_cons.1 distinct
    obtain ⟨vnode, first⟩ := movable id List.mem_cons_self
    rw [List.foldl_cons, List.foldl_cons, ← first.injectCache_hoistNode]
    apply ih others
    intro other member
    obtain ⟨call, later⟩ := movable other (List.mem_cons_of_mem id member)
    exact ⟨call, first.hoistNode later (ne_of_mem_of_not_mem member fresh)⟩

/-- The elements that hoisting is going to move. -/
def movedIds (plan : Plan) : List NodeId :=
  staticElementsAll plan.table plan.marks plan.template.roots

theorem movedIds_injectCache (plan : Plan) : plan.injectCache.movedIds = plan.movedIds :=
  staticElementsAll_recodes plan.injectCache_recodes plan.template.roots

/-- It is the same to hoist before or after cells are handed out. -/
theorem injectCache_hoist (plan : Plan)
    (distinct : ∀ number, Node.tally number plan.template.roots ≤ 1) :
    plan.hoist.injectCache = plan.injectCache.hoist := by
  change _ = plan.injectCache.movedIds.foldl hoistNode plan.injectCache
  rw [movedIds_injectCache]
  apply injectCache_foldl_hoistNode (nodup_staticElementsAll distinct)
  intro id member
  obtain ⟨unmarked, vnode, code, _, fixed⟩ := vnode_of_moved distinct member
  exact ⟨vnode, unmarked, code, fixed⟩

/-- The plan `on` is the plan `off` with some of its elements made constants. -/
structure Relocates (off on : Plan) : Prop where
  rest : on = { off with table := on.table, hoists := on.hoists }
  without : off.hoists = []
  kept : ∀ id, (∀ index cache, on.table.get? id ≠ some { body := .hoisted index, cache }) →
    on.table.get? id = off.table.get? id
  moved : ∀ id index cache, on.table.get? id = some { body := .hoisted index, cache } →
    cache = none ∧ ∃ vnode, off.table.get? id = some { body := .vnode vnode } ∧
      vnode.patchFlag = .empty ∧
      on.hoists[index]? = some { vnode with patchFlag := .hoisted, isBlock := false }
  /-- Each constant is used at one place. -/
  referred : ∀ index < on.hoists.length,
    ∃! id, on.table.get? id = some { body := .hoisted index }

/-- Where there are no constants yet, hoisting is a relocation. -/
theorem relocates_hoist (plan : Plan)
    (distinct : ∀ number, Node.tally number plan.template.roots ≤ 1)
    (without : plan.hoists = [])
    (noReference : ∀ id index cache, plan.table.get? id ≠ some { body := .hoisted index, cache }) :
    plan.Relocates plan.hoist := by
  have moved := plan.hoist_moved distinct
  have unique := @nodup_staticElementsAll plan.table plan.marks _ distinct
  have plain {id : NodeId}
      (member : id ∈ staticElementsAll plan.table plan.marks plan.template.roots) :=
    (vnode_of_moved distinct member).2
  generalize staticElementsAll plan.table plan.marks plan.template.roots = ids at moved unique plain
  have length := moved.length
  rw [without, List.length_nil, Nat.zero_add] at length
  -- What is moved to which place, and that nothing else refers to a constant.
  have place {index : Nat} {id : NodeId} (listed : ids[index]? = some id) := by
    have entry := moved.moved index id listed
    rw [without, List.length_nil, Nat.zero_add] at entry
    exact entry
  have listed {id : NodeId} {index : Nat} {cache : Option CacheCell}
      (found : plan.hoist.table.get? id = some { body := .hoisted index, cache }) :
      cache = none ∧ ids[index]? = some id := by
    by_cases member : id ∈ ids
    · obtain ⟨number, same⟩ := List.mem_iff_getElem?.1 member
      obtain ⟨_, _, reference, _⟩ := place same
      cases found.symm.trans reference
      exact ⟨rfl, same⟩
    · rw [moved.kept id member] at found
      exact absurd found (noReference id index cache)
  refine ⟨moved.rest, without, fun id other => ?_, fun id index cache found => ?_,
    fun index inside => ?_⟩
  · apply moved.kept
    intro member
    obtain ⟨index, same⟩ := List.mem_iff_getElem?.1 member
    obtain ⟨_, _, reference, _⟩ := place same
    exact other index none reference
  · obtain ⟨noCell, same⟩ := listed found
    obtain ⟨vnode, code, _, constant⟩ := place same
    obtain ⟨call, again, noFlag, _⟩ := plain (List.mem_of_getElem? same)
    cases code.symm.trans again
    exact ⟨noCell, vnode, code, noFlag, constant⟩
  · rw [length] at inside
    have same := List.getElem?_eq_getElem inside
    obtain ⟨_, _, reference, _⟩ := place same
    refine ⟨_, reference, fun other found => ?_⟩
    exact Option.some.inj ((listed found).2.symm.trans same)

end Plan

/-- Only what was moved refers to a constant. -/
theorem Stages.mem_hoistedIds {option : LowerOption} {template : Template} {roots : List Node}
    {progress : Progress} {plan : Plan} {id : NodeId} {index : Nat} {cache : Option CacheCell}
    (stages : Stages option template roots progress plan)
    (code : plan.table.get? id = some { body := .hoisted index, cache }) :
    id ∈ hoistedIds option roots progress := by
  obtain ⟨node, inside, rfl⟩ := stages.exists_of_code code
  exact stages.hoisted_of_code inside code

/-- Whether to hoist makes no other difference than hoisting in the end. -/
theorem lower_hoistStatic {template : Template} (numbered : template.Numbered)
    (option : LowerOption) :
    lower { option with hoistStatic := true } template =
      (lower { option with hoistStatic := false } template).map fun lowered =>
        { lowered with plan := lowered.plan.hoist } := by
  have same (hoists : Bool) :
      { option with hoistStatic := hoists }.start template = option.start template := rfl
  simp only [lower, lowerWith, same]
  cases walked : walk defaultPasses template.roots (option.start template) with
  | error fault => rfl
  | ok done =>
    have distinct := (walk_walked numbered walked).distinct
    have commutes := (planOf template done.1 done.2).injectCache_hoist distinct
    cases sound : done.2.fault? with
    | some fault => simp [Except.bind, Except.map, sound]
    | none => simp [Except.bind, Except.map, sound, commutes]

theorem exists_lowered_of_option {template : Template} {option : LowerOption} {lowered : Lowered}
    (numbered : template.Numbered) (lowers : lower option template = .ok lowered) :
    ∃ off, lower { option with hoistStatic := false } template = .ok off ∧
      lower { option with hoistStatic := true } template =
        .ok { off with plan := off.plan.hoist } := by
  have both := lower_hoistStatic numbered option
  suffices succeeds : ∃ off, lower { option with hoistStatic := false } template = .ok off by
    obtain ⟨off, found⟩ := succeeds
    refine ⟨off, found, ?_⟩
    rw [both, found]
    rfl
  obtain ⟨hoistStatic, cacheHandlers, reader⟩ := option
  cases hoistStatic with
  | false => exact ⟨lowered, lowers⟩
  | true =>
    obtain ⟨off, found, _⟩ := ok_of_map_eq_ok (both.symm.trans lowers)
    exact ⟨off, found⟩

/-- Whatever was parsed, to lower it with constants is to lower it without them and to move some
elements of that plan. -/
theorem lower_relocates {parsing : ParseOption} {lowering : LowerOption} {reading : Scan}
    {template : Template} {problems : List Problem} {lowered : Lowered}
    (parsed : parse parsing reading = .ok (template, problems))
    (lowers : lower lowering template = .ok lowered) :
    ∃ off on, lower { lowering with hoistStatic := false } template = .ok off ∧
      lower { lowering with hoistStatic := true } template = .ok on ∧
      off.plan.Relocates on.plan := by
  have numbered := numbered_of_parse parsed
  obtain ⟨off, without, on⟩ := exists_lowered_of_option numbered lowers
  refine ⟨off, _, without, on, ?_⟩
  obtain ⟨roots, progress, stages⟩ := lower_stages numbered without
  apply off.plan.relocates_hoist
  · rw [stages.roots_eq]
    exact stages.walked.distinct
  · exact List.eq_nil_of_length_eq_zero stages.length
  · intro id index cache found
    cases stages.mem_hoistedIds found

theorem lower_relocates_nested : ∃ template problems off on,
    parse { preserveComments := true } (scan {} staticSource) = .ok (template, problems) ∧
      lower { hoistStatic := false } template = .ok off ∧
      lower { hoistStatic := true } template = .ok on ∧
      on.plan.hoists.length = 2 ∧ off.plan.Relocates on.plan := by
  have succeeds : ((parse { preserveComments := true } (scan {} staticSource)).bind fun parsed =>
      lower {} parsed.1).toOption.any (fun lowered =>
        decide (lowered.plan.hoists.length = 2)) = true := by
    decide +kernel
  obtain ⟨template, problems, lowered, parsed, lowers, count⟩ := exists_lowered succeeds
  obtain ⟨off, on, without, with', relocates⟩ := lower_relocates parsed lowers
  cases lowers.symm.trans with'
  exact ⟨template, problems, off, lowered, parsed, without, lowers, of_decide_eq_true count,
    relocates⟩

end TemplateCompiler
