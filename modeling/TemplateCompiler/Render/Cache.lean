import TemplateCompiler.Render.Plan

/-! Cells of the render cache. They are numbered in one walk: the mark of a node first, then its
handlers, then its children. What has a cell already keeps it. -/

namespace TemplateCompiler

namespace Expr

mutual

/-- Give a cell to each handler that can be kept and has none, from the cell `next` on. -/
def assignCells (next : Nat) : Expr → Expr × Nat
  | handler body traits =>
    if traits.cacheable && traits.slot.isNone then
      (handler body { traits with slot := some next }, next + 1)
    else (handler body traits, next)
  | props entries =>
    let done := assignCellsEntries next entries
    (props done.1, done.2)
  | call helper args =>
    let done := assignCellsAll next args
    (call helper done.1, done.2)
  | array items =>
    let done := assignCellsAll next items
    (array done.1, done.2)
  | compound parts =>
    let done := assignCellsAll next parts
    (compound done.1, done.2)
  | other => (other, next)

def assignCellsAll (next : Nat) : List Expr → List Expr × Nat
  | [] => ([], next)
  | expr :: rest =>
    let first := assignCells next expr
    let others := assignCellsAll first.2 rest
    (first.1 :: others.1, others.2)

/-- Keys hold no handlers. -/
def assignCellsEntries (next : Nat) : List (Expr × Expr) → List (Expr × Expr) × Nat
  | [] => ([], next)
  | (key, value) :: rest =>
    let first := assignCells next value
    let others := assignCellsEntries first.2 rest
    ((key, first.1) :: others.1, others.2)

end

mutual

/-- The value of the `key` entry of a properties object, also of one that is merged in. -/
def keyValue? : Expr → Option Expr
  | props entries => keyEntry? entries
  | call .mergeProps args => keyValueAny? args
  | _ => none

def keyValueAny? : List Expr → Option Expr
  | [] => none
  | expr :: rest =>
    match expr.keyValue? with
    | some value => some value
    | none => keyValueAny? rest

def keyEntry? : List (Expr × Expr) → Option Expr
  | [] => none
  | (key, value) :: rest =>
    if key.staticKey? == some "key" then some value else keyEntry? rest

end

end Expr

structure Caching where
  table : Table
  slots : List CacheSlot

namespace Caching

/-- The kind of cell that a mark asks for, and the code as it is kept. -/
def kindOf (mark : CacheMark) (dependencies : Expr) (inLoop : Bool) (vnode : Option VNode) :
    CacheKind :=
  match mark with
  | .once => .once
  | .memo =>
    if inLoop then .memoInLoop dependencies ((vnode.bind (·.props)).bind Expr.keyValue?)
    else .memo dependencies

/-- What is kept once is no block; what is kept by its dependencies is one. -/
def adjust (mark : CacheMark) (vnode : VNode) : VNode :=
  match mark with
  | .once => { vnode with isBlock := false }
  | .memo => if vnode.isComponent then vnode else { vnode with isBlock := true }

def slotKind : CacheMark → SlotKind
  | .once => .once
  | .memo => .memo

/-- Give a cell to a marked node, unless it has one or there is no code to keep. -/
def wrap (caching : Caching) (id : NodeId) (mark : CacheMark) (dependencies : Expr)
    (inLoop : Bool) : Caching :=
  match caching.table.get? id with
  | some { body, cache := none } =>
    let code : Code := { body }
    let kind := kindOf mark dependencies inLoop code.vnode?
    { table := caching.table.set id
        { code.mapVNode (adjust mark) with cache := some { slot := caching.slots.length, kind } }
      slots := caching.slots ++ [{ kind := slotKind mark, node := id }] }
  | _ => caching

def cacheHandlers (caching : Caching) (id : NodeId) : Caching :=
  match caching.table.get? id with
  | some { body := .vnode vnode, cache } =>
    match vnode.props with
    | none => caching
    | some props =>
      let done := props.assignCells caching.slots.length
      let fresh := done.2 - caching.slots.length
      { table := caching.table.set id { body := .vnode { vnode with props := some done.1 }, cache }
        slots := caching.slots ++ List.replicate fresh { kind := .handler, node := id } }
  | _ => caching

end Caching

namespace Plan

mutual

def cacheNode (marks : NodeMap CacheMark) (dependencies : NodeMap Expr) (inLoop : Bool)
    (caching : Caching) : Node → Caching
  | ⟨id, content, _, children⟩ =>
    let wrapped :=
      match marks.get? id with
      | some mark =>
        caching.wrap id mark ((dependencies.get? id).getD (.source "")) inLoop
      | none => caching
    cacheAll marks dependencies (content matches .loop _) (wrapped.cacheHandlers id) children

def cacheAll (marks : NodeMap CacheMark) (dependencies : NodeMap Expr) (inLoop : Bool)
    (caching : Caching) : List Node → Caching
  | [] => caching
  | node :: rest =>
    cacheAll marks dependencies inLoop (cacheNode marks dependencies inLoop caching node) rest

end

def injectCache (plan : Plan) : Plan :=
  let done := cacheAll plan.marks plan.memoDependencies false
    { table := plan.table, slots := plan.slots } plan.template.roots
  { plan with table := done.table, slots := done.slots }

end Plan

end TemplateCompiler
