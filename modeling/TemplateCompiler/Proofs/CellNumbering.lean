import TemplateCompiler.Proofs.ScopeIsolation

/-! The numbers of the cells. Whoever uses a cell of the render cache is a site: a node that is
kept, or a handler in the code of a node. Going through the nodes of a plan, each before its
children, the sites use the cells from zero on, each cell once, and the plan has recorded what each
cell is for. -/

namespace TemplateCompiler

namespace Expr

mutual

def cells : Expr → List Nat
  | handler body traits => traits.slot.toList ++ body.cells
  | props entries => cellsEntries entries
  | call _ args => cellsAll args
  | array items => cellsAll items
  | compound parts => cellsAll parts
  | _ => []

def cellsAll : List Expr → List Nat
  | [] => []
  | expr :: rest => expr.cells ++ cellsAll rest

def cellsEntries : List (Expr × Expr) → List Nat
  | [] => []
  | (key, value) :: rest => key.cells ++ value.cells ++ cellsEntries rest

end

def cell? : Expr → Option Nat
  | handler _ traits => traits.slot
  | _ => none

/-- No handler in the expression has a cell. -/
def Uncached (expr : Expr) : Prop :=
  expr.Every fun part => part.cell? = none

theorem Lowered.uncached {around : Surroundings} {expr : Expr} (lowered : expr.Lowered around) :
    expr.Uncached := by
  refine lowered.imp fun part fits => ?_
  cases part with
  | handler => exact fits.1
  | _ => rfl

mutual

theorem Uncached.cells_eq : {expr : Expr} → expr.Uncached → expr.cells = []
  | handler body traits, uncached => by
    have slot : traits.slot = none := uncached _ .self
    rw [cells, slot, Uncached.cells_eq ((every_iff.1 uncached).2 body (List.mem_singleton_self _))]
    rfl
  | props entries, uncached => by
    rw [cells]
    refine cellsEntries_eq fun entry member => ?_
    exact ⟨(every_iff.1 uncached).2 _ (mem_inner_props member).1,
      (every_iff.1 uncached).2 _ (mem_inner_props member).2⟩
  | call _ args, uncached => by
    rw [cells]
    exact @cellsAll_eq args (every_iff.1 uncached).2
  | array items, uncached => by
    rw [cells]
    exact @cellsAll_eq items (every_iff.1 uncached).2
  | compound parts, uncached => by
    rw [cells]
    exact @cellsAll_eq parts (every_iff.1 uncached).2
  | source _, _ | number _, _ | literal _, _ | madeLiteral _, _ | simple _ _, _ | param _, _
  | context _, _ | symbol _, _ => by simp [cells]

theorem cellsAll_eq : {exprs : List Expr} → (∀ expr ∈ exprs, expr.Uncached) → cellsAll exprs = []
  | [], _ => rfl
  | expr :: rest, uncached => by
    obtain ⟨own, others⟩ := List.forall_mem_cons.1 uncached
    rw [cellsAll, own.cells_eq, cellsAll_eq others]
    rfl

theorem cellsEntries_eq : {entries : List (Expr × Expr)} →
    (∀ entry ∈ entries, entry.1.Uncached ∧ entry.2.Uncached) → cellsEntries entries = []
  | [], _ => rfl
  | (key, value) :: rest, uncached => by
    obtain ⟨⟨name, own⟩, others⟩ := List.forall_mem_cons.1 uncached
    rw [cellsEntries, name.cells_eq, own.cells_eq, cellsEntries_eq others]
    rfl

end

mutual

/-- In an expression without cells the handlers that get one get the next cells in order. -/
theorem cells_assignCells (next : Nat) : {expr : Expr} → expr.cells = [] → ∃ count,
    (expr.assignCells next).2 = next + count ∧
      (expr.assignCells next).1.cells = List.range' next count
  | handler body traits, bare => by
    rw [cells, List.append_eq_nil_iff] at bare
    rw [assignCells]
    split
    · refine ⟨1, rfl, ?_⟩
      rw [cells, bare.2]
      rfl
    · refine ⟨0, rfl, ?_⟩
      rw [cells, bare.1, bare.2]
      rfl
  | props entries, bare => by
    rw [cells] at bare
    rw [assignCells, cells]
    exact cells_assignCellsEntries next bare
  | call helper args, bare => by
    rw [cells] at bare
    rw [assignCells, cells]
    exact cells_assignCellsAll next bare
  | array items, bare => by
    rw [cells] at bare
    rw [assignCells, cells]
    exact cells_assignCellsAll next bare
  | compound parts, bare => by
    rw [cells] at bare
    rw [assignCells, cells]
    exact cells_assignCellsAll next bare
  | source _, _ | number _, _ | literal _, _ | madeLiteral _, _ | simple _ _, _ | param _, _
  | context _, _ | symbol _, _ => ⟨0, by simp [assignCells], by simp [assignCells, cells]⟩

theorem cells_assignCellsAll (next : Nat) : {exprs : List Expr} → cellsAll exprs = [] → ∃ count,
    (assignCellsAll next exprs).2 = next + count ∧
      cellsAll (assignCellsAll next exprs).1 = List.range' next count
  | [], _ => ⟨0, rfl, rfl⟩
  | expr :: rest, bare => by
    rw [cellsAll, List.append_eq_nil_iff] at bare
    obtain ⟨first, reached, own⟩ := cells_assignCells next bare.1
    obtain ⟨later, final, others⟩ := cells_assignCellsAll (expr.assignCells next).2 bare.2
    refine ⟨first + later, ?_, ?_⟩
    · rw [assignCellsAll, final, reached, Nat.add_assoc]
    · rw [assignCellsAll, cellsAll, own, others, reached, List.range'_append_1]

theorem cells_assignCellsEntries (next : Nat) : {entries : List (Expr × Expr)} →
    cellsEntries entries = [] → ∃ count, (assignCellsEntries next entries).2 = next + count ∧
      cellsEntries (assignCellsEntries next entries).1 = List.range' next count
  | [], _ => ⟨0, rfl, rfl⟩
  | (key, value) :: rest, bare => by
    rw [cellsEntries, List.append_eq_nil_iff, List.append_eq_nil_iff] at bare
    obtain ⟨first, reached, own⟩ := cells_assignCells next bare.1.2
    obtain ⟨later, final, others⟩ := cells_assignCellsEntries (value.assignCells next).2 bare.2
    refine ⟨first + later, ?_, ?_⟩
    · rw [assignCellsEntries, final, reached, Nat.add_assoc]
    · rw [assignCellsEntries, cellsEntries, bare.1.1, own, others, reached, List.nil_append,
        List.range'_append_1]

end

end Expr

def CacheKind.slotKind : CacheKind → SlotKind
  | .once => .once
  | .memo _ | .memoInLoop _ _ => .memo

/-- A user of a cell: what the cell is for, and its number. -/
abbrev CacheSite := CacheSlot × Nat

namespace Code

def handlerCells (code : Code) : List Nat :=
  code.expressions.flatMap Expr.cells

def sites (id : NodeId) (code : Code) : List CacheSite :=
  (code.cache.toList.map fun cell => (⟨cell.kind.slotKind, id⟩, cell.slot)) ++
    code.handlerCells.map fun cell => (⟨.handler, id⟩, cell)

end Code

namespace Table

def sitesAt (table : Table) (id : NodeId) : List CacheSite :=
  (table.get? id).toList.flatMap (Code.sites id)

/-- The sites of the nodes and of all below them, each node before its children. -/
def sitesAll (table : Table) (nodes : List Node) : List CacheSite :=
  (Node.flattenAll nodes).flatMap fun node => table.sitesAt node.id

end Table

def Plan.sites (plan : Plan) : List CacheSite :=
  plan.table.sitesAll plan.template.roots

theorem Table.sitesAt_congr {table other : Table} {id : NodeId}
    (same : other.get? id = table.get? id) : other.sitesAt id = table.sitesAt id := by
  rw [sitesAt, sitesAt, same]

theorem Table.sitesAll_congr {table other : Table} {nodes : List Node}
    (same : ∀ number, 0 < Node.tally number nodes → other.get? number = table.get? number) :
    other.sitesAll nodes = table.sitesAll nodes := by
  refine List.flatMap_congr fun node member => sitesAt_congr (same node.id ?_)
  exact Node.tally_pos_iff.2 ⟨node, member, rfl⟩

theorem Table.sitesAll_singleton (table : Table) (node : Node) :
    table.sitesAll [node] = table.sitesAt node.id ++ table.sitesAll node.children := by
  simp [sitesAll, Node.flattenAll, Node.flatten_eq]

theorem Table.sitesAll_cons (table : Table) (node : Node) (rest : List Node) :
    table.sitesAll (node :: rest) = table.sitesAll [node] ++ table.sitesAll rest := by
  simp [sitesAll, Node.flattenAll]

namespace Caching

variable {marks : NodeMap CacheMark} {dependencies : NodeMap Expr} {inLoop : Bool}
  {caching : Caching} {id : NodeId}

/-- The sites use just the cells that `after` has and `before` lacks, in order. -/
def Hands (before after : Caching) (sites : List CacheSite) : Prop :=
  ∃ added, after.slots = before.slots ++ added ∧ sites = added.zipIdx before.slots.length

theorem Hands.refl (caching : Caching) : Hands caching caching [] :=
  ⟨[], (List.append_nil _).symm, rfl⟩

theorem Hands.trans {before middle after : Caching} {first later : List CacheSite}
    (early : Hands before middle first) (late : Hands middle after later) :
    Hands before after (first ++ later) := by
  obtain ⟨added, grown, rfl⟩ := early
  obtain ⟨more, final, rfl⟩ := late
  refine ⟨added ++ more, ?_, ?_⟩
  · rw [final, grown, List.append_assoc]
  · rw [List.zipIdx_append, grown, List.length_append]

/-- Nothing that belongs to the node has a cell yet. -/
structure Bare (dependencies : NodeMap Expr) (table : Table) (id : NodeId) : Prop where
  code : ∀ code, table.get? id = some code →
    code.cache = none ∧ ∀ expr ∈ code.body.expressions, expr.Uncached
  needed : ∀ expr, dependencies.get? id = some expr → expr.Uncached

theorem Bare.congr {table other : Table} (bare : Bare dependencies table id)
    (same : other.get? id = table.get? id) : Bare dependencies other id := by
  constructor
  · rw [same]
    exact bare.code
  · exact bare.needed

theorem handlerCells_of_uncached {code : Code}
    (uncached : ∀ expr ∈ code.expressions, expr.Uncached) : code.handlerCells = [] :=
  List.flatMap_eq_nil_iff.2 fun expr member => (uncached expr member).cells_eq

theorem hands_wrap {body : CodeBody} {needed : Expr} (mark : CacheMark) (inLoop : Bool)
    (found : caching.table.get? id = some { body }) (bare : needed.Uncached)
    (uncached : ∀ expr ∈ body.expressions, expr.Uncached) :
    ∃ code, (caching.wrap id mark needed inLoop).table.get? id = some code ∧
      code.handlerCells = [] ∧
      Hands caching (caching.wrap id mark needed inLoop) (code.sites id) := by
  have silent := handlerCells_of_uncached
    (every_wrapped mark inLoop caching.slots.length bare uncached)
  have recorded : (kindOf mark needed inLoop (Code.vnode? { body })).slotKind = slotKind mark := by
    cases mark with
    | once => rfl
    | memo =>
      simp only [kindOf]
      split <;> rfl
  simp only [wrap, found]
  refine ⟨_, (Table.get?_set ..).trans (if_pos rfl), silent, _, rfl, ?_⟩
  rw [Code.sites, silent, Option.toList_some, List.map_singleton, recorded]
  rfl

theorem hands_wrapMarked {code : Code} (found : caching.table.get? id = some code)
    (bare : Bare dependencies caching.table id) :
    ∃ kept, (caching.wrapMarked marks dependencies inLoop id).table.get? id = some kept ∧
      kept.handlerCells = [] ∧
      Hands caching (caching.wrapMarked marks dependencies inLoop id) (kept.sites id) := by
  obtain ⟨body, cache⟩ := code
  obtain ⟨rfl, uncached⟩ := bare.code _ found
  rw [wrapMarked]
  cases marks.get? id with
  | none =>
    have silent : Code.handlerCells { body } = [] := by
      apply handlerCells_of_uncached
      simpa [Code.expressions] using uncached
    refine ⟨_, found, silent, ?_⟩
    rw [Code.sites, silent]
    exact Hands.refl caching
  | some mark =>
    apply hands_wrap mark inLoop found ?_ uncached
    cases given : dependencies.get? id with
    | none => exact (@Expr.lowered_source default "").uncached
    | some expr => exact bare.needed expr given

theorem zipIdx_replicate {α : Type} (value : α) (count start : Nat) :
    (List.replicate count value).zipIdx start =
      (List.range' start count).map fun index => (value, index) := by
  induction count generalizing start with
  | zero => rfl
  | succ count ih =>
    rw [List.replicate_succ, List.zipIdx_cons, ih, List.range'_succ, List.map_cons]

theorem handlerCells_vnode (call : VNode) (cache : Option CacheCell) :
    Code.handlerCells { body := .vnode call, cache } =
      call.tag.cells ++ (call.props.toList.flatMap Expr.cells ++
        (call.dynamicProps ++ call.directives.flatMap RuntimeDirective.expressions ++
          cache.toList.flatMap (·.kind.expressions)).flatMap Expr.cells) := by
  simp [Code.handlerCells, Code.expressions, CodeBody.expressions, VNode.expressions]

/-- The handlers of a node get the next cells, behind the cell of the node itself. -/
theorem hands_cacheHandlers {code : Code} (found : caching.table.get? id = some code)
    (silent : code.handlerCells = []) :
    ∃ added, Hands caching (caching.cacheHandlers id) added ∧
      (caching.cacheHandlers id).table.sitesAt id = code.sites id ++ added := by
  have unchanged (same : caching.cacheHandlers id = caching) :
      ∃ added, Hands caching (caching.cacheHandlers id) added ∧
        (caching.cacheHandlers id).table.sitesAt id = code.sites id ++ added := by
    rw [same]
    exact ⟨[], .refl caching, by simp [Table.sitesAt, found]⟩
  obtain ⟨body, cache⟩ := code
  cases body with
  | vnode call =>
    cases given : call.props with
    | none => exact unchanged (by simp [cacheHandlers, found, given])
    | some props =>
      obtain ⟨tag, own, others⟩ : call.tag.cells = [] ∧ props.cells = [] ∧ _ := by
        simpa only [handlerCells_vnode, given, Option.toList_some, List.flatMap_singleton,
          List.append_eq_nil_iff] using silent
      obtain ⟨count, reached, cells⟩ := Expr.cells_assignCells caching.slots.length own
      simp only [cacheHandlers, found, given, reached, Nat.add_sub_cancel_left]
      refine ⟨_, ⟨_, rfl, rfl⟩, ?_⟩
      rw [Table.sitesAt, Table.get?_set, if_pos rfl, zipIdx_replicate, ← cells]
      have after (made : Expr) :
          Code.handlerCells { body := .vnode { call with props := some made }, cache } =
            made.cells := by
        simp only [handlerCells_vnode, tag, others, Option.toList_some, List.flatMap_singleton,
          List.nil_append, List.append_nil]
      simp [Code.sites, silent, after]
  | _ => exact unchanged (by simp [cacheHandlers, found])

/-- What is done for a node uses up the next cells for the sites of the node. -/
theorem hands_enter (bare : Bare dependencies caching.table id) :
    Hands caching (caching.enter marks dependencies inLoop id)
      ((caching.enter marks dependencies inLoop id).table.sitesAt id) := by
  cases found : caching.table.get? id with
  | none =>
    have same : caching.enter marks dependencies inLoop id = caching := by
      have unmarked : caching.wrapMarked marks dependencies inLoop id = caching := by
        simp only [wrapMarked, wrap, found]
        split <;> rfl
      simp only [enter, unmarked, cacheHandlers, found]
    rw [same, Table.sitesAt, found]
    exact Hands.refl caching
  | some code =>
    obtain ⟨kept, after, silent, own⟩ := hands_wrapMarked found bare
    obtain ⟨added, handlers, sites⟩ := hands_cacheHandlers after silent
    rw [enter, sites]
    exact own.trans handlers

end Caching

namespace Plan

open Caching (Hands Bare)

variable {marks : NodeMap CacheMark} {dependencies : NodeMap Expr}

mutual

/-- The walk over a node uses up the next cells for the sites on it and below it. -/
theorem hands_cacheNode (inLoop : Bool) (caching : Caching) : (node : Node) →
    (∀ number, Node.tally number [node] ≤ 1) →
    (∀ number, 0 < Node.tally number [node] → Bare dependencies caching.table number) →
    Hands caching (cacheNode marks dependencies inLoop caching node)
      ((cacheNode marks dependencies inLoop caching node).table.sitesAll [node])
  | ⟨id, content, span, children⟩, distinct, bare => by
    have tallies (number : NodeId) := Node.tally_singleton number ⟨id, content, span, children⟩
    dsimp only at tallies
    have absent : Node.tally id children = 0 :=
      Node.tally_children_eq_zero distinct (List.mem_singleton_self _) (List.mem_singleton_self _)
    rw [cacheNode_eq, Table.sitesAll_singleton]
    dsimp only
    have own : Hands caching (caching.enter marks dependencies inLoop id) _ :=
      Caching.hands_enter (bare id (Node.tally_self_pos ⟨id, content, span, children⟩))
    have elsewhere (number : NodeId) (present : 0 < Node.tally number children) :
        (caching.enter marks dependencies inLoop id).table.get? number =
          caching.table.get? number := by
      apply Caching.get?_enter_of_ne
      rintro rfl
      omega
    generalize caching.enter marks dependencies inLoop id = entered at own elsewhere
    generalize Node.isLoop ⟨id, content, span, children⟩ = inside
    have below := hands_cacheAll inside entered children
      (fun number => by
        have := tallies number
        have := distinct number
        omega)
      fun number present => by
        have := tallies number
        exact (bare number (by omega)).congr (elsewhere number present)
    have kept := get?_cacheAll_elsewhere marks dependencies inside entered children absent
    rw [Table.sitesAt_congr kept]
    exact own.trans below

theorem hands_cacheAll (inLoop : Bool) (caching : Caching) : (nodes : List Node) →
    (∀ number, Node.tally number nodes ≤ 1) →
    (∀ number, 0 < Node.tally number nodes → Bare dependencies caching.table number) →
    Hands caching (cacheAll marks dependencies inLoop caching nodes)
      ((cacheAll marks dependencies inLoop caching nodes).table.sitesAll nodes)
  | [], _, _ => by
    rw [cacheAll]
    exact Hands.refl caching
  | node :: rest, distinct, bare => by
    have tallies (number : NodeId) := Node.tally_cons number node rest
    have first := hands_cacheNode inLoop caching node
      (fun number => by
        have := tallies number
        have := distinct number
        omega)
      fun number present => bare number (by
        have := tallies number
        omega)
    have elsewhere (number : NodeId) (absent : Node.tally number [node] = 0) :=
      get?_cacheNode_elsewhere marks dependencies inLoop caching node absent
    rw [cacheAll]
    generalize cacheNode marks dependencies inLoop caching node = middle at first elsewhere
    have later := hands_cacheAll inLoop middle rest
      (fun number => by
        have := tallies number
        have := distinct number
        omega)
      fun number present => by
        have := tallies number
        have := distinct number
        exact (bare number (by omega)).congr (elsewhere number (by omega))
    have kept : (cacheAll marks dependencies inLoop middle rest).table.sitesAll [node] =
        middle.table.sitesAll [node] := by
      apply Table.sitesAll_congr
      intro number present
      apply get?_cacheAll_elsewhere
      have := tallies number
      have := distinct number
      omega
    rw [Table.sitesAll_cons, kept]
    exact first.trans later

end

end Plan

def Code.cells (code : Code) : List Nat :=
  code.cache.toList.map (·.slot) ++ code.handlerCells

theorem Code.map_sites (id : NodeId) (code : Code) : (code.sites id).map (·.2) = code.cells := by
  simp [sites, cells, Function.comp_def]

namespace View

mutual

def cells : View → List Nat
  | .node _ code references => code.toList.flatMap Code.cells ++ cellsAll references

def cellsAll : List View → List Nat
  | [] => []
  | view :: rest => view.cells ++ cellsAll rest

end

theorem mem_cellsAll {cell : Nat} {views : List View} :
    cell ∈ cellsAll views ↔ ∃ view ∈ views, cell ∈ view.cells := by
  induction views with
  | nil => simp [cellsAll]
  | cons view rest ih => simp [cellsAll, ih]

end View

theorem Plan.cells_viewWithin {table : Table} {spans : Array Span} {size : Nat}
    (bounded : ∀ id code, table.get? id = some code → ∀ cell ∈ code.cells, cell < size)
    (depth : Nat) (id : NodeId) :
    ∀ cell ∈ (viewWithin table spans depth id).cells, cell < size := by
  induction depth generalizing id with
  | zero =>
    intro cell member
    cases member
  | succ depth ih =>
    intro cell member
    rw [viewWithin, View.cells] at member
    rcases List.mem_append.1 member with own | below
    · obtain ⟨code, found, inside⟩ := List.mem_flatMap.1 own
      exact bounded id code (Option.mem_toList.1 found) cell inside
    · obtain ⟨view, listed, inside⟩ := View.mem_cellsAll.1 below
      obtain ⟨child, _, rfl⟩ := List.mem_map.1 listed
      exact ih child cell inside

/-- The cells of a plan are used without gaps, clashes or loss. -/
structure Plan.NumbersCells (plan : Plan) : Prop where
  /-- In the order of the nodes the sites use the cells from zero on, each of them once. -/
  ordered : plan.sites.map (·.2) = List.range plan.cacheSize
  recorded : ∀ site ∈ plan.sites, plan.slots[site.2]? = some site.1
  /-- There is no code, and so no site, apart from the nodes of the tree. -/
  owned : ∀ id code, plan.table.get? id = some code →
    ∃ node ∈ Node.flattenAll plan.template.roots, node.id = id
  /-- What is made outside of the render function uses no cell. -/
  constants : ∀ call ∈ plan.hoists, ∀ expr ∈ call.expressions, expr.cells = []
  fragment : ∀ call, plan.root = .fragment call → ∀ expr ∈ call.expressions, expr.cells = []
  /-- Whatever the render function writes, the cells in it are there. -/
  written : ∀ id, ∀ cell ∈ (plan.view plan.spans id).cells, cell < plan.cacheSize

namespace Walked

variable {option : LowerOption} {template : Template} {roots : List Node} {progress : Progress}

/-- A walk hands out no cells. -/
theorem bare (walked : Walked option template roots progress) {number : NodeId}
    (present : 0 < Node.tally number roots) :
    Caching.Bare progress.memoDependencies progress.table number := by
  obtain ⟨node, inside, rfl⟩ := Node.tally_pos_iff.1 present
  obtain ⟨above, lineage⟩ := Node.mem_flattenAll_iff.1 inside
  obtain ⟨role, settled⟩ := Settled.along walked.settled lineage
  obtain ⟨body, found, lowered⟩ := settled.lowered
  constructor
  · intro code same
    cases found.symm.trans same
    exact ⟨rfl, fun expr member => (lowered expr member).uncached⟩
  · intro expr needed
    obtain ⟨value, rfl⟩ := settled.noted.dependencies expr needed
    exact (Surroundings.lowered_resolveValue _ value).uncached

end Walked

/-- A reference to a constant has no cell. -/
theorem Plan.Moved.bare {before after : Plan} {ids : List NodeId} {number : NodeId}
    (moved : Moved before ids after)
    (bare : Caching.Bare before.memoDependencies before.table number) :
    Caching.Bare before.memoDependencies after.table number := by
  by_cases hoisted : number ∈ ids
  · obtain ⟨index, listed⟩ := List.mem_iff_getElem?.1 hoisted
    obtain ⟨_, _, reference, _⟩ := moved.moved index number listed
    refine ⟨fun code same => ?_, bare.needed⟩
    cases reference.symm.trans same
    exact ⟨rfl, List.forall_mem_nil _⟩
  · exact bare.congr (moved.kept number hoisted)

/-- Handing out cells is the last step of lowering, and before it there are none. -/
theorem lower_injectsCache {option : LowerOption} {template : Template} {lowered : Lowered}
    (numbered : template.Numbered) (lowers : lower option template = .ok lowered) :
    ∃ before : Plan, lowered.plan = before.injectCache ∧ before.slots = [] ∧
      (∀ number, Node.tally number before.template.roots ≤ 1) ∧
      ∀ number, 0 < Node.tally number before.template.roots →
        Caching.Bare before.memoDependencies before.table number := by
  obtain ⟨roots, progress, walked, final⟩ := lower_walked numbered lowers
  have moved := walked.hoist_moved
  generalize (if option.hoistStatic then (planOf template roots progress).hoist
    else planOf template roots progress) = before at final moved
  have sameRoots : before.template.roots = roots := congrArg (·.template.roots) moved.rest
  have dependencies : before.memoDependencies = progress.memoDependencies :=
    congrArg Plan.memoDependencies moved.rest
  refine ⟨before, final, congrArg Plan.slots moved.rest, ?_, fun number present => ?_⟩
  · rw [sameRoots]
    exact walked.distinct
  · rw [sameRoots] at present
    rw [dependencies]
    exact moved.bare (walked.bare present)

/-- The sites of a plan that lowering comes to are those that were recorded, in order. -/
theorem sites_eq_zipIdx {option : LowerOption} {template : Template} {lowered : Lowered}
    (numbered : template.Numbered) (lowers : lower option template = .ok lowered) :
    lowered.plan.sites = lowered.plan.slots.zipIdx := by
  obtain ⟨before, final, noSlots, distinct, bare⟩ := lower_injectsCache numbered lowers
  obtain ⟨added, grown, sites⟩ := @Plan.hands_cacheAll before.marks before.memoDependencies false
    { table := before.table, slots := before.slots } before.template.roots distinct bare
  rw [final, Plan.sites, Plan.injectCache]
  refine sites.trans ?_
  dsimp only at grown ⊢
  rw [grown, noSlots]
  rfl

/-- Whatever was parsed, a plan that lowering comes to numbers its cells well. -/
theorem lower_numbersCells {parsing : ParseOption} {lowering : LowerOption} {reading : Scan}
    {template : Template} {problems : List Problem} {lowered : Lowered}
    (parsed : parse parsing reading = .ok (template, problems))
    (lowers : lower lowering template = .ok lowered) : lowered.plan.NumbersCells := by
  have numbered := numbered_of_parse parsed
  obtain ⟨roots, progress, stages⟩ := lower_stages numbered lowers
  have sameRoots := stages.roots_eq
  have sites := sites_eq_zipIdx numbered lowers
  have ordered : lowered.plan.sites.map (·.2) = List.range lowered.plan.cacheSize := by
    rw [sites, List.zipIdx_map_snd, List.range_eq_range']
    rfl
  have owned (id : NodeId) (code : Code) (found : lowered.plan.table.get? id = some code) :
      ∃ node ∈ Node.flattenAll lowered.plan.template.roots, node.id = id := by
    rw [sameRoots]
    exact stages.exists_of_code found
  refine ⟨ordered, fun site member => ?_, owned, fun call member expr inside => ?_,
    fun call fragment expr inside => ?_,
    fun id => Plan.cells_viewWithin (fun id code found cell inside => ?_) _ id⟩
  · rw [sites] at member
    exact List.mk_mem_zipIdx_iff_getElem?.1 member
  · obtain ⟨index, found⟩ := List.mem_iff_getElem?.1 member
    obtain ⟨node, above, vnode, lineage, _, code, _, rfl⟩ := stages.constant found
    obtain ⟨role, settled⟩ := Settled.along stages.walked.settled lineage
    obtain ⟨body, same, uncached⟩ := settled.lowered
    cases same.symm.trans code
    exact (uncached expr inside).uncached.cells_eq
  · rw [stages.rest] at fragment
    rw [RootCode.expressions_ofIds (stages.walked.root.symm.trans fragment)] at inside
    cases List.mem_singleton.1 inside
    rfl
  · obtain ⟨node, listed, rfl⟩ := owned id code found
    rw [← List.mem_range, ← ordered]
    rw [← code.map_sites node.id] at inside
    obtain ⟨site, member, rfl⟩ := List.mem_map.1 inside
    refine List.mem_map_of_mem (List.mem_flatMap.2 ⟨node, listed, ?_⟩)
    rw [Table.sitesAt, found]
    simpa using member

/-- A node that is kept, an item of a loop that is kept by its dependencies, and handlers. -/
def cachedSource : String :=
  "<div @click=\"a\"><p v-once @click=\"b\">\x7b\x7b c \x7d\x7d</p>" ++
    "<i v-for=\"d in e\" v-memo=\"[d]\" @click=\"f\"></i></div>"

theorem lower_numbersCells_mixed : ∃ template problems lowered,
    parse {} (scan {} cachedSource) = .ok (template, problems) ∧
      lower { cacheHandlers := true } template = .ok lowered ∧
      lowered.plan.slots.map (·.kind) = [.handler, .once, .memo, .handler] ∧
      lowered.plan.NumbersCells := by
  have succeeds : ((parse {} (scan {} cachedSource)).bind fun parsed =>
      lower { cacheHandlers := true } parsed.1).toOption.any (fun lowered =>
        decide (lowered.plan.slots.map (·.kind) = [.handler, .once, .memo, .handler])) = true := by
    decide +kernel
  obtain ⟨template, problems, lowered, parsed, lowers, kinds⟩ := exists_lowered succeeds
  exact ⟨template, problems, lowered, parsed, lowers, of_decide_eq_true kinds,
    lower_numbersCells parsed lowers⟩

end TemplateCompiler
