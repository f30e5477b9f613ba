import TemplateCompiler.Render.Helper
import TemplateCompiler.Render.Level
import TemplateCompiler.Text.Phrase

/-! The script expressions that generated code is made of. They are as coarse as the generator
needs: a name that is looked up on the render context and an alias of a loop are told apart, all
other script is kept as it was written. -/

namespace TemplateCompiler

inductive HandlerKind where
  /-- A statement: `count++`. -/
  | inlineStatement
  /-- The place of a function: `form.submit`. -/
  | member
  | function
deriving DecidableEq, Inhabited, Repr

structure HandlerTraits where
  kind : HandlerKind
  /-- It may be kept from one rendering to the next. -/
  cacheable : Bool := false
  /-- The cell of the render cache that keeps it. -/
  slot : Option Nat := none
  /-- It refers to an alias of a loop. -/
  refersToScope : Bool := false
  /-- Guards that every event has to pass. -/
  modifiers : List String := []
  /-- Keys, one of which the event has to be for. -/
  keyModifiers : List String := []
deriving DecidableEq, Inhabited, Repr

inductive Expr where
  /-- Script that is written as it is. -/
  | source (text : String)
  | number (value : Nat)
  /-- A string of the template, written in quotes. -/
  | literal (text : Phrase)
  /-- A string made while compiling, written in quotes. -/
  | madeLiteral (text : String)
  /-- An expression of the template in which no name is looked up. -/
  | simple (text : Phrase) (level : Level)
  /-- An alias of a loop, or a parameter. -/
  | param (name : String)
  /-- A name that is looked up on the render context. -/
  | context (name : String)
  /-- Parts that are written one after another. -/
  | compound (parts : List Expr)
  /-- An object with its keys and values. -/
  | props (entries : List (Expr × Expr))
  | call (helper : Helper) (args : List Expr)
  | symbol (helper : Helper)
  | array (items : List Expr)
  | handler (body : Expr) (traits : HandlerTraits)
deriving Inhabited, Repr

namespace Expr

/-- A string that is written in quotes as it stands. -/
def string (text : String) : Expr :=
  literal { raw := text }

def isEmptySource : Expr → Bool
  | source text => text.isEmpty
  | _ => false

mutual

/-- How far the expression is fixed: as far as the least fixed of its parts. -/
def level : Expr → Level
  | number _ | literal _ | madeLiteral _ | source _ => .canStringify
  | simple _ level => level
  | symbol _ => .canHoist
  | param _ | context _ | handler _ _ => .notStatic
  | compound parts => levelAll parts
  | array items => levelAll items
  | call _ args => levelAll args
  | props entries => levelEntries entries

def levelAll : List Expr → Level
  | [] => .canStringify
  | expr :: rest => expr.level.meet (levelAll rest)

def levelEntries : List (Expr × Expr) → Level
  | [] => .canStringify
  | (key, value) :: rest => (key.level.meet value.level).meet (levelEntries rest)

end

/-- The name of a key that is known while compiling. -/
def staticKey? : Expr → Option String
  | literal text => some text.text
  | madeLiteral text => some text
  | _ => none

mutual

/-- Whether an alias of a loop occurs. -/
def refersToScope : Expr → Bool
  | param _ => true
  | compound parts => refersToScopeAny parts
  | array items => refersToScopeAny items
  | call _ args => refersToScopeAny args
  | props entries => refersToScopeEntries entries
  | handler _ traits => traits.refersToScope
  | _ => false

def refersToScopeAny : List Expr → Bool
  | [] => false
  | expr :: rest => expr.refersToScope || refersToScopeAny rest

def refersToScopeEntries : List (Expr × Expr) → Bool
  | [] => false
  | (key, value) :: rest =>
    key.refersToScope || value.refersToScope || refersToScopeEntries rest

end

end Expr

end TemplateCompiler
