import TemplateCompiler.Render.Code

/-! The plan of a render function: the template it renders, the code of its nodes, and what stands
around that code. -/

namespace TemplateCompiler

inductive RootCode where
  | empty
  | single (id : NodeId)
  | fragment (call : VNode)
deriving Inhabited, Repr

/-- How a node asks to be kept in the render cache. -/
inductive CacheMark where
  | once
  | memo
deriving DecidableEq, Inhabited, Repr

inductive SlotKind where
  | once
  | memo
  | handler
deriving DecidableEq, Inhabited, Repr

/-- A cell of the render cache, and the node that owns it. -/
structure CacheSlot where
  kind : SlotKind
  node : NodeId
deriving DecidableEq, Inhabited, Repr

/-- Values for some of the nodes; each node has at most one. -/
abbrev NodeMap (α : Type) := List (NodeId × α)

namespace NodeMap

variable {α : Type}

def get? (map : NodeMap α) (id : NodeId) : Option α :=
  List.lookup id map

def contains (map : NodeMap α) (id : NodeId) : Bool :=
  (map.get? id).isSome

def insert (map : NodeMap α) (id : NodeId) (value : α) : NodeMap α :=
  (id, value) :: map.filter (·.1 ≠ id)

def insertNew (map : NodeMap α) (id : NodeId) (value : α) : NodeMap α :=
  if map.contains id then map else map.insert id value

def sorted (map : NodeMap α) : List (NodeId × α) :=
  map.mergeSort fun first second => first.1 ≤ second.1

end NodeMap

structure Plan where
  template : Template
  table : Table := {}
  root : RootCode := .empty
  /-- The components to resolve, in the order of first use. -/
  components : List String := []
  /-- The directives to resolve, in the order of first use. -/
  directives : List String := []
  /-- Nodes that are made once, outside of the render function. -/
  hoists : List VNode := []
  slots : List CacheSlot := []
  marks : NodeMap CacheMark := []
  memoDependencies : NodeMap Expr := []
deriving Inhabited, Repr

def addName (names : List String) (name : String) : List String :=
  if names.contains name then names else names ++ [name]

namespace Plan

def addComponent (plan : Plan) (name : String) : Plan :=
  { plan with components := addName plan.components name }

def addDirective (plan : Plan) (name : String) : Plan :=
  { plan with directives := addName plan.directives name }

def cacheSize (plan : Plan) : Nat :=
  plan.slots.length

end Plan

end TemplateCompiler
