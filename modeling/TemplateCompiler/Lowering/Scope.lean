import TemplateCompiler.Render.Level
import TemplateCompiler.Script.Expression

/-! The aliases of the loops around a place. An alias is there as often as loops around the place
bind it, so that leaving an inner loop does not hide the alias of an outer one. -/

namespace TemplateCompiler

structure Scope where
  aliases : List String := []
deriving DecidableEq, Inhabited, Repr

namespace Scope

def add (scope : Scope) (name : String) : Scope :=
  ⟨name :: scope.aliases⟩

def remove (scope : Scope) (name : String) : Scope :=
  ⟨scope.aliases.erase name⟩

def contains (scope : Scope) (name : String) : Bool :=
  scope.aliases.contains name

def isEmpty (scope : Scope) : Bool :=
  scope.aliases.isEmpty

def addAll (scope : Scope) (names : List String) : Scope :=
  names.foldl add scope

def removeAll (scope : Scope) (names : List String) : Scope :=
  names.foldl remove scope

end Scope

/-- What the meaning of an expression depends on. -/
structure Surroundings where
  reader : ScriptReader
  scope : Scope := {}
  /-- Handlers are kept in the render cache. -/
  cacheHandlers : Bool := false
  /-- The place is rendered once, so nothing in it needs a cell of its own. -/
  inOnce : Bool := false
deriving Inhabited

end TemplateCompiler
