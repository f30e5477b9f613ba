import TemplateCompiler.Source.Position

/-! A reading head over a template: what is left to read and the place where it stands. Reading
only moves forward, by a number of characters. -/

namespace TemplateCompiler

structure Cursor where
  rest : List Char
  position : Position := {}

namespace Cursor

def ofString (source : String) : Cursor :=
  ⟨source.toList, {}⟩

def advance (cursor : Cursor) (count : Nat) : Cursor :=
  ⟨cursor.rest.drop count, cursor.position.advance (cursor.rest.take count)⟩

def peek (cursor : Cursor) (count : Nat) : String :=
  String.ofList (cursor.rest.take count)

def skipWhile (cursor : Cursor) (p : Char → Bool) : Cursor :=
  cursor.advance (cursor.rest.takeWhile p).length

def atEnd (cursor : Cursor) : Bool :=
  cursor.rest.isEmpty

def spanFrom (cursor : Cursor) (start : Position) : Span :=
  ⟨start, cursor.position⟩

@[simp]
theorem length_advance (cursor : Cursor) (count : Nat) :
    (cursor.advance count).rest.length = cursor.rest.length - count := by
  simp [advance]

theorem length_skipWhile_le (cursor : Cursor) (p : Char → Bool) :
    (cursor.skipWhile p).rest.length ≤ cursor.rest.length := by
  simp [skipWhile]

end Cursor

end TemplateCompiler
