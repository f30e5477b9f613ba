import TemplateCompiler.Template.Property

/-! The tree of a template. Every node has a number, given in the order in which nodes come into
being; nodes that left the tree are kept aside, so that the numbers of a template stay without
gaps. -/

namespace TemplateCompiler

abbrev NodeId := Nat

inductive ElementKind where
  | plain
  | component
  /-- A `template` tag with a structural directive: its children stand for themselves. -/
  | fragment
deriving DecidableEq, Inhabited, Repr

structure Element where
  tag : String
  kind : ElementKind
  properties : Properties
deriving DecidableEq, Inhabited, Repr

structure Branch where
  /-- Missing in the last branch if that is taken unconditionally. -/
  condition : Option Value
  /-- The key that tells the branches of one parent apart. -/
  key : Nat
  span : Span
deriving DecidableEq, Inhabited, Repr

structure Loop where
  source : Value
  value : Option String
  key : Option String
  index : Option String
deriving DecidableEq, Inhabited, Repr

namespace Loop

/-- The alias patterns that are there: value, key and index in order. -/
def aliases (loop : Loop) : List String :=
  loop.value.toList ++ loop.key.toList ++ loop.index.toList

end Loop

/-- What a node is, apart from its place and its children. -/
inductive Content where
  | element (element : Element)
  | text (text : Phrase)
  | interpolation (source : String)
  | comment (source : String)
  /-- One child for each branch. -/
  | conditional (branches : List Branch)
  /-- One child, rendered for each item. -/
  | loop (loop : Loop)
deriving DecidableEq, Inhabited, Repr

structure Node where
  id : NodeId
  content : Content
  span : Span
  children : List Node := []
deriving Inhabited, Repr

namespace Node

def element? (node : Node) : Option Element :=
  match node.content with
  | .element e => some e
  | _ => none

def isElement (node : Node) : Bool :=
  node.element?.isSome

def isComment (node : Node) : Bool :=
  match node.content with
  | .comment _ => true
  | _ => false

def isConditional (node : Node) : Bool :=
  match node.content with
  | .conditional _ => true
  | _ => false

def isLoop (node : Node) : Bool :=
  match node.content with
  | .loop _ => true
  | _ => false

def isTextLike (node : Node) : Bool :=
  match node.content with
  | .text _ | .interpolation _ => true
  | _ => false

def isBlankText (node : Node) : Bool :=
  match node.content with
  | .text t => t.isBlank
  | _ => false

/-- The properties of an element; other nodes have none. -/
def properties (node : Node) : Properties :=
  (node.element?.map (·.properties)).getD []

/-- An element with other properties; any other node stays as it is. -/
def withProperties (node : Node) (properties : Properties) : Node :=
  match node.content with
  | .element e => { node with content := .element { e with properties } }
  | _ => node

def branchCount (node : Node) : Nat :=
  match node.content with
  | .conditional branches => branches.length
  | _ => 0

mutual

/-- A measure of what is left to do on a node: one for itself, two for each property. Wrapping a
node at the cost of a directive makes it smaller. -/
def weight : Node → Nat
  | ⟨_, content, _, children⟩ =>
    1 + (match content with
      | .element e => 2 * e.properties.length
      | _ => 0) + weightAll children

def weightAll : List Node → Nat
  | [] => 0
  | node :: rest => node.weight + weightAll rest

end

mutual

/-- The node and everything below it, each node before its children. -/
def flatten : Node → List Node
  | ⟨id, content, span, children⟩ => ⟨id, content, span, children⟩ :: flattenAll children

def flattenAll : List Node → List Node
  | [] => []
  | node :: rest => node.flatten ++ flattenAll rest

end

theorem weight_pos (node : Node) : 0 < node.weight := by
  cases node
  simp only [weight]
  omega

theorem weight_eq (node : Node) :
    node.weight = 1 + 2 * node.properties.length + weightAll node.children := by
  rcases node with ⟨id, content, span, children⟩
  cases content <;> simp [weight, properties, element?]

theorem weight_withProperties_le {node : Node} {properties : Properties}
    (fewer : properties.length ≤ node.properties.length) :
    (node.withProperties properties).weight ≤ node.weight := by
  rcases node with ⟨id, content, span, children⟩
  cases content with
  | element e =>
    simp only [Node.properties, element?, Option.map_some, Option.getD_some] at fewer
    simp only [withProperties, weight]
    omega
  | _ => exact Nat.le_refl _

theorem weight_withProperties_lt {node : Node} {properties : Properties}
    (fewer : properties.length < node.properties.length) :
    (node.withProperties properties).weight < node.weight := by
  rcases node with ⟨id, content, span, children⟩
  cases content with
  | element e =>
    simp only [Node.properties, element?, Option.map_some, Option.getD_some] at fewer
    simp only [withProperties, weight]
    omega
  | _ => exact absurd fewer (Nat.not_lt_zero _)

@[simp]
theorem weightAll_append (first second : List Node) :
    weightAll (first ++ second) = weightAll first + weightAll second := by
  induction first with
  | nil => simp [weightAll]
  | cons node rest ih => simp [weightAll, ih]; omega

end Node

/-- A template: its tree, the nodes that left the tree, and how many numbers were given. -/
structure Template where
  roots : List Node := []
  dropped : List Node := []
  size : Nat := 0
  span : Span := {}
deriving Inhabited, Repr

namespace Template

def nodes (template : Template) : List Node :=
  (Node.flattenAll (template.roots ++ template.dropped)).mergeSort fun a b => a.id ≤ b.id

def isEmpty (template : Template) : Bool :=
  template.roots.isEmpty

end Template

end TemplateCompiler
