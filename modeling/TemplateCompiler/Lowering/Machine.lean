import TemplateCompiler.Lowering.Progress
import TemplateCompiler.Problem.Reported

/-! The walk on stored nodes. All nodes of a template stand in one array, where they refer to each
other by their numbers. There is one slot, which moves on from node to node; the walk over the
children of a node moves the same slot. Where an index is out of range, the walk stops with a
fault. -/

namespace TemplateCompiler

/-- A node as it is stored: its children are given by their numbers. -/
structure Cell where
  content : Content
  span : Span
  children : List NodeId := []
deriving Inhabited

namespace Node

def cell (node : Node) : Cell :=
  ⟨node.content, node.span, node.children.map (·.id)⟩

/-- What can be told of a node without those below it. -/
def bare (node : Node) : Node :=
  { node with children := [] }

end Node

namespace Cell

def node (cell : Cell) (id : NodeId) : Node :=
  { id, content := cell.content, span := cell.span }

def isElement (cell : Cell) : Bool :=
  match cell.content with
  | .element _ => true
  | _ => false

end Cell

/-- A place in the list of children of a node, or in the list of the roots. -/
structure Slot where
  parent : Option NodeId := none
  index : Nat := 0
  /-- The node was removed, and the one behind it has moved up. -/
  removed : Bool := false
deriving Inhabited

/-- What a visitor can ask for where it is called. -/
structure Whereabouts where
  current : Option NodeId
  parent : Option NodeId
  index : Nat
  /-- The outermost first. -/
  ancestors : List NodeId
deriving DecidableEq, Repr

inductive Call where
  | enter (ordinal : Nat) (id : NodeId) (place : Whereabouts) (exits : Bool)
  | exit (ordinal : Nat) (id : NodeId) (place : Whereabouts)
  | exitRoot (ordinal : Nat)
deriving DecidableEq, Repr

structure Context where
  cells : Array Cell
  roots : List NodeId
  /-- The outermost first. -/
  ancestors : List NodeId := []
  slot : Slot := {}
  /-- What the visitors have done. How many numbers were given, and which nodes left the tree, can be
  told from the cells. -/
  progress : Progress
  /-- The calls of visitors up to now. -/
  calls : List Call := []
deriving Inhabited

abbrev Walking := Acting Context

namespace Walking

def stored (id : NodeId) : Walking Cell := do
  match (← get).cells[id]? with
  | some cell => return cell
  | none => throw .sliceOutOfRange

def look (id : NodeId) : Walking Node :=
  return (← stored id).node id

def store (id : NodeId) (cell : Cell) : Walking Unit :=
  modify fun context => { context with cells := context.cells.setIfInBounds id cell }

def setContent (id : NodeId) (content : Content) : Walking Unit := do
  let cell ← stored id
  store id { cell with content }

/-- Store a new node. -/
def alloc (cell : Cell) : Walking NodeId := do
  let context ← get
  set { context with cells := context.cells.push cell }
  return context.cells.size

def childrenOf : Option NodeId → Walking (List NodeId)
  | none => return (← get).roots
  | some parent => return (← stored parent).children

def setChildren (children : List NodeId) : Option NodeId → Walking Unit
  | none => modify fun context => { context with roots := children }
  | some parent => do
    let cell ← stored parent
    store parent { cell with children }

def slotAt (parent : Option NodeId) (index : Nat) : Walking (Option NodeId) :=
  return (← childrenOf parent)[index]?

def place : Walking Slot :=
  return (← get).slot

def moveTo (slot : Slot) : Walking Unit :=
  modify fun context => { context with slot }

def current : Walking (Option NodeId) := do
  let slot ← place
  if slot.removed then return none else slotAt slot.parent slot.index

/-- The roots and the children of an element are siblings. -/
def siblings? : Walking (Option (List NodeId)) := do
  match (← place).parent with
  | none => return some (← get).roots
  | some parent =>
    let cell ← stored parent
    return if cell.isElement then some cell.children else none

def siblings : Walking (List NodeId) :=
  return (← siblings?).getD []

def replaceNode (id : NodeId) : Walking Unit := do
  let slot ← place
  setChildren ((← childrenOf slot.parent).set slot.index id) slot.parent

def removeNode : Walking Unit := do
  let slot ← place
  match ← siblings? with
  | none => return ()
  | some siblings =>
    if slot.index < siblings.length then
      setChildren (siblings.eraseIdx slot.index) slot.parent
      moveTo { slot with removed := true }
    else return ()

/-- Remove the sibling so many places on. -/
def removeNext (offset : Nat) : Walking Unit := do
  let slot ← place
  match ← siblings? with
  | none => return ()
  | some siblings => setChildren (siblings.eraseIdx (slot.index + offset)) slot.parent

def note (change : Progress → Progress) : Walking Unit :=
  modify fun context => { context with progress := change context.progress }

/-- Note the problems that were met on the way to a value. -/
def take {α : Type} (reported : Reported α) : Walking α := do
  note (·.report reported.problems)
  match reported.fault? with
  | some fault => throw fault
  | none => return reported.value

/-- Whether the node in the slot, or one around it, is rendered once. -/
def inOnce : Walking Bool := do
  let context ← get
  return ((← current).toList ++ context.ancestors).any context.progress.onceNodes.contains

def surroundings : Walking Surroundings := do
  let progress := (← get).progress
  return {
    reader := progress.reader
    scope := progress.scope
    cacheHandlers := progress.cacheHandlers
    inOnce := ← inOnce }

def whereabouts : Walking Whereabouts := do
  let slot ← place
  return {
    current := ← current
    parent := slot.parent
    index := slot.index
    ancestors := (← get).ancestors }

def record (call : Call) : Walking Unit :=
  modify fun context => { context with calls := context.calls ++ [call] }

def push (id : NodeId) : Walking Unit :=
  modify fun context => { context with ancestors := context.ancestors ++ [id] }

def pop : Walking Unit :=
  modify fun context => { context with ancestors := context.ancestors.dropLast }

end Walking

/-- A pass over stored nodes. It gets its place in the order of passes, and the number of the
node. -/
structure Visitor where
  /-- The answer is whether the visitor wants to leave the node later. -/
  enter : Nat → NodeId → Walking Bool := fun _ _ => return false
  exit : Nat → NodeId → Walking Unit := fun _ _ => return ()
  exitRoot : Walking Unit := return ()

open Walking

/-- Let the visitors from the place `ordinal` on enter the node in the slot, which each of them
enters once. The answer is which of them want to leave it; there is none if the node is gone. -/
def enterVisitors (ordinal : Nat) : List Visitor → Walking (Option (List Nat))
  | [] => return some []
  | visitor :: rest => do
    match ← current with
    | none => return none
    | some id =>
      if (← get).progress.hasEntered ordinal id then enterVisitors (ordinal + 1) rest
      else
        note (·.markEntered ordinal id)
        let place ← whereabouts
        let exits ← visitor.enter ordinal id
        record (.enter ordinal id place exits)
        let others ← enterVisitors (ordinal + 1) rest
        return others.map fun later => if exits then ordinal :: later else later

def exitVisitors (visitors : List Visitor) (id : NodeId) : List Nat → Walking Unit
  | [] => return ()
  | ordinal :: rest => do
    match visitors[ordinal]? with
    | none => throw .sliceOutOfRange
    | some visitor =>
      let place ← whereabouts
      record (.exit ordinal id place)
      visitor.exit ordinal id
      exitVisitors visitors id rest

abbrev Visitors := List Visitor

namespace Visitors

mutual

/-- Visit the children of a node, or the roots, from a place on. What is in the slot is read
anew each time, since visiting a node can change the list. -/
def visitChildren (visitors : Visitors) (parent : Option NodeId) (index : Nat) : Walking Unit := do
  match ← slotAt parent index with
  | none => return ()
  | some _ =>
    moveTo { parent, index }
    visitors |>.visitSlot
    let slot ← place
    visitors |>.visitChildren parent (if slot.removed then slot.index else slot.index + 1)
partial_fixpoint

/-- Visit the node in the slot and those below it. The slot is put back before it is left. -/
def visitSlot (visitors : Visitors) : Walking Unit := do
  match ← enterVisitors 0 visitors with
  | none => return ()
  | some exits =>
    match ← current with
    | none => return ()
    | some id =>
      let slot ← place
      push id
      visitors |>.visitChildren (some id) 0
      pop
      moveTo slot
      match ← current with
      | none => return ()
      | some id => exitVisitors visitors id exits.reverse
partial_fixpoint

end

end Visitors

def exitRoots (ordinal : Nat) : List Visitor → Walking Unit
  | [] => return ()
  | visitor :: rest => do
    exitRoots (ordinal + 1) rest
    record (.exitRoot ordinal)
    visitor.exitRoot

def walkStored (visitors : Visitors) : Walking Unit := do
  visitors.visitChildren none 0
  exitRoots 0 visitors

end TemplateCompiler
