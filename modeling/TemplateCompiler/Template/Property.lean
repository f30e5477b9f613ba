import TemplateCompiler.Problem
import TemplateCompiler.Text.Phrase

/-! The properties of an element: attributes, and directives with their argument, modifiers and
expression. -/

namespace TemplateCompiler

/-- The value of an attribute, the expression of a directive or the condition of a branch. -/
structure Value where
  content : Phrase
  span : Span
deriving DecidableEq, Inhabited, Repr

structure Attribute where
  name : String
  value : Option Value
  nameSpan : Span
  span : Span
deriving DecidableEq, Inhabited, Repr

/-- The argument of a directive: a name, or an expression in brackets. -/
inductive Argument where
  | static (name : String)
  | dynamic (expression : String)
deriving DecidableEq, Inhabited, Repr

structure Directive where
  name : String
  argument : Option Argument
  modifiers : List String
  /-- The expression as it is written: it is script, so no references are decoded in it. -/
  expression : Option Value
  headSpan : Span
  span : Span
deriving DecidableEq, Inhabited, Repr

namespace Directive

def isEmpty (directive : Directive) : Bool :=
  directive.expression.all (·.content.isVoid)

/-- The problem of the given kind if the expression is missing, at the expression if there is at
least a blank one. -/
def emptyProblem? (directive : Directive) (kind : ProblemKind) : Option Problem :=
  if directive.isEmpty then
    some { kind, span := (directive.expression.map (·.span)).getD directive.headSpan }
  else none

def hasModifier (directive : Directive) (name : String) : Bool :=
  directive.modifiers.contains name

end Directive

namespace Argument

def staticName? : Argument → Option String
  | static name => some name
  | dynamic _ => none

def isNamed (argument : Option Argument) (name : String) : Bool :=
  argument.bind staticName? == some name

end Argument

inductive Property where
  | attr (given : Attribute)
  | dir (given : Directive)
deriving DecidableEq, Inhabited, Repr

namespace Property

def span : Property → Span
  | attr a => a.span
  | dir d => d.span

def directive? : Property → Option Directive
  | attr _ => none
  | dir d => some d

/-- An attribute with a matching name, or a `bind` directive with an expression whose static
argument matches. -/
def sets (names : String → Bool) : Property → Bool
  | attr a => names a.name
  | dir d =>
    d.name == "bind" && (d.argument.bind Argument.staticName?).any names && !d.isEmpty

def directs (names : String → Bool) : Property → Bool
  | attr _ => false
  | dir d => names d.name

end Property

/-- The properties of one element in source order. -/
abbrev Properties := List Property

namespace Properties

def findSetter? (properties : Properties) (names : String → Bool) : Option Property :=
  properties.find? (·.sets names)

def setter? (properties : Properties) (name : String) : Option Property :=
  properties.findSetter? (· == name)

def findDirective? (properties : Properties) (names : String → Bool) : Option Directive :=
  (properties.find? (·.directs names)).bind Property.directive?

def hasDirective (properties : Properties) (name : String) : Bool :=
  (properties.findDirective? (· == name)).isSome

/-- The first directive with a matching name, and the properties without it. -/
def takeDirective (properties : Properties) (names : String → Bool) :
    Option Directive × Properties :=
  (properties.findDirective? names, properties.eraseP (·.directs names))

theorem length_takeDirective_le (properties : Properties) (names : String → Bool) :
    (properties.takeDirective names).2.length ≤ properties.length :=
  List.length_eraseP_le

theorem length_takeDirective_lt {properties : Properties} {name : String}
    (present : properties.hasDirective name = true) :
    (properties.takeDirective (· == name)).2.length < properties.length := by
  simp only [hasDirective, findDirective?, Option.isSome_iff_exists] at present
  obtain ⟨directive, found⟩ := present
  obtain ⟨property, first, _⟩ := Option.bind_eq_some_iff.1 found
  have member := List.mem_of_find?_eq_some first
  have := List.length_eraseP_of_mem member (List.find?_some first)
  have := List.length_pos_of_mem member
  simp only [takeDirective]
  omega

end Properties

end TemplateCompiler
