/-! Places in a template. An offset counts UTF-8 bytes from zero; lines and columns count from
one, columns in characters, and only a line feed ends a line. -/

namespace TemplateCompiler

structure Position where
  offset : Nat := 0
  line : Nat := 1
  column : Nat := 1
deriving DecidableEq, Inhabited, Repr

namespace Position

def step (position : Position) (c : Char) : Position :=
  if c = '\n' then
    ⟨position.offset + c.utf8Size, position.line + 1, 1⟩
  else
    ⟨position.offset + c.utf8Size, position.line, position.column + 1⟩

def advance (position : Position) (text : List Char) : Position :=
  text.foldl step position

/-- The place right after the prefix `text` of a template. -/
def after (text : List Char) : Position :=
  advance {} text

@[simp]
theorem advance_nil (position : Position) : position.advance [] = position := rfl

@[simp]
theorem advance_cons (position : Position) (c : Char) (rest : List Char) :
    position.advance (c :: rest) = (position.step c).advance rest := rfl

theorem advance_append (position : Position) (first second : List Char) :
    position.advance (first ++ second) = (position.advance first).advance second := by
  simp [advance]

end Position

/-- A stretch of the template, from `start` up to and without `stop`. -/
structure Span where
  start : Position := {}
  stop : Position := {}
deriving DecidableEq, Inhabited, Repr

namespace Span

def join (first last : Span) : Span :=
  ⟨first.start, last.stop⟩

end Span

end TemplateCompiler
