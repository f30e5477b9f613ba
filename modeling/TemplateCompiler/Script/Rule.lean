import TemplateCompiler.Script.Reader

/-! The rules of the grammar of scripts. A rule is read in a setting, which says what the
surroundings permit, and leaves a shape, which says what later rules want to know. -/

namespace TemplateCompiler.Script

/-- What the surroundings of an expression permit. -/
structure Setting where
  awaits : Bool := false
  yields : Bool := false
  /-- `in` is no operator here, as in the head of a loop. -/
  withoutIn : Bool := false
  /-- The expression began with a name or a parenthesis, so that arrows may stand in it. -/
  arrows : Bool := false
  /-- The middle of a conditional, where a colon ends the expression. -/
  inBranch : Bool := false
  /-- The value of a case, which a colon ends too. -/
  inCase : Bool := false
  breaks : Bool := false
  continues : Bool := false
deriving Inhabited

namespace Setting

def withIn (setting : Setting) : Setting :=
  { setting with withoutIn := false }

/-- The setting inside a function that is asynchronous or a generator itself, or inherits the
former. -/
def within (setting : Setting) (isAsync isGenerator : Bool) : Setting :=
  { setting.withIn with awaits := isAsync || setting.awaits, yields := isGenerator }

end Setting

inductive Form where
  | name
  | member
  | function
  /-- A function with an arrow. -/
  | arrow
  | other
deriving DecidableEq, Inhabited, Repr

/-- What later rules want to know of an expression. -/
structure Shape where
  form : Form := .other
  /-- It can be assigned to. -/
  target : Bool := false
deriving DecidableEq, Inhabited, Repr

inductive PatternUse where
  | declared
  | parameter
  | assigned
deriving DecidableEq, Inhabited, Repr

/-- The rules that nested parts go back to. -/
inductive Rule where
  | expression
  | assignment
  | unary
  /-- An operand with its selections and calls. -/
  | operand
  /-- The callee behind `new`, which takes no call of its own. -/
  | callee
  /-- An array or object pattern. -/
  | pattern (use : PatternUse)
  | statement
deriving DecidableEq, Inhabited, Repr

abbrev Grammar := Setting → Rule → Reader Shape

end TemplateCompiler.Script
