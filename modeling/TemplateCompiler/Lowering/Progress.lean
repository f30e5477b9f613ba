import TemplateCompiler.Lowering.Scope
import TemplateCompiler.Lowering.Site
import TemplateCompiler.Problem.Reported
import TemplateCompiler.Render.Plan

/-! What the passes over a template have done so far. -/

namespace TemplateCompiler

structure LoopFrame where
  /-- The place of the pass in the order of passes. -/
  pass : Nat
  loop : NodeId
  source : Expr
  aliases : List String
deriving Inhabited, Repr

structure Sighting where
  id : NodeId
  node : String
  current : Option NodeId
  parent : Option NodeId
  /-- The outermost first. -/
  ancestors : List NodeId
  index : Nat
  siblings : List NodeId
  inOnce : Bool
  hasAliases : Bool
  /-- Those of the watched names that are aliases here. -/
  aliases : List String
deriving DecidableEq, Inhabited, Repr

inductive Event where
  | entered (pass : String) (sighting : Sighting)
  | left (pass : String) (sighting : Sighting)
  | removedNext (pass : String) (id : Option NodeId)
  | leftRoot (pass : String) (children : Nat)
deriving DecidableEq, Inhabited, Repr

structure Progress where
  reader : ScriptReader
  /-- Handlers are kept in the render cache. -/
  cacheHandlers : Bool := false
  /-- The number of the next node. -/
  next : NodeId := 0
  /-- The nodes that left the tree. -/
  dropped : List Node := []
  problems : List Problem := []
  scope : Scope := {}
  /-- The nodes that are rendered once. -/
  onceNodes : List NodeId := []
  /-- Which pass has entered which node. -/
  entered : List (Nat × NodeId) := []
  frames : List LoopFrame := []
  table : Table := {}
  root : RootCode := .empty
  components : List String := []
  directives : List String := []
  marks : NodeMap CacheMark := []
  memoDependencies : NodeMap Expr := []
  journal : List Event := []
  /-- A slice on the way was out of range. -/
  fault? : Option Fault := none
deriving Inhabited

namespace Progress

def report (progress : Progress) (problems : List Problem) : Progress :=
  { progress with problems := progress.problems ++ problems }

/-- Note what was met on the way to a value. -/
def absorb {α : Type} (progress : Progress) (reported : Reported α) : Progress :=
  { progress.report reported.problems with fault? := progress.fault?.or reported.fault? }

def drop (progress : Progress) (nodes : List Node) : Progress :=
  { progress with dropped := progress.dropped ++ nodes }

def hasEntered (progress : Progress) (pass : Nat) (id : NodeId) : Bool :=
  progress.entered.contains (pass, id)

def markEntered (progress : Progress) (pass : Nat) (id : NodeId) : Progress :=
  { progress with entered := (pass, id) :: progress.entered }

/-- Whether the node in focus, or one around it, is rendered once. -/
def inOnce (progress : Progress) (site : Site) : Bool :=
  ((site.focus.map (·.id)).toList ++ site.ancestors).any progress.onceNodes.contains

def surroundings (progress : Progress) (site : Site) : Surroundings :=
  { reader := progress.reader
    scope := progress.scope
    cacheHandlers := progress.cacheHandlers
    inOnce := progress.inOnce site }

def allocate (progress : Progress) : NodeId × Progress :=
  (progress.next, { progress with next := progress.next + 1 })

def setCode (progress : Progress) (id : NodeId) (body : CodeBody) : Progress :=
  { progress with table := progress.table.set id { body } }

def modifyVNode (progress : Progress) (id : NodeId) (change : VNode → VNode) : Progress :=
  { progress with table := progress.table.modify id (·.mapVNode change) }

end Progress

end TemplateCompiler
