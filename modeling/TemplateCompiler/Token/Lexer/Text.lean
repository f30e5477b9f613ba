import TemplateCompiler.Token.Lexer.Piece

/-! Text and interpolations. -/

namespace TemplateCompiler.Lexer

open Text

/-- The next `length` characters as text; `decode` says whether references are read in it. -/
def textPiece (decode : Bool) (length : Nat) (cursor : Cursor) : Piece :=
  let start := cursor.position
  let raw := cursor.peek length
  let after := cursor.advance length
  let problems :=
    if raw.toList.contains '\x00' then [problem .unexpectedNullCharacter start after] else []
  let phrase : Phrase := { raw }
  .single ⟨.text (if decode then phrase.decoded false else phrase), after.spanFrom start⟩
    problems after

/-- A `<`, or `</` at the very end, that begins no tag and is kept as text. -/
def strayText (kind : ProblemKind) (length : Nat) (problemLength : Nat) (cursor : Cursor) : Piece :=
  let start := cursor.position
  let after := cursor.advance length
  .single ⟨.text { raw := cursor.peek length }, after.spanFrom start⟩
    [problem kind start (cursor.advance problemLength)] after

def interpolation (delimiters : Delimiters) (cursor : Cursor) : Piece :=
  let start := cursor.position
  let inside := cursor.advance delimiters.opening.toList.length
  let closing := delimiters.closing.toList
  match find? closing inside.rest with
  | some length =>
    let after := inside.advance (length + closing.length)
    .single ⟨.interpolation (inside.peek length), after.spanFrom start⟩ [] after
  | none =>
    let after := inside.advance inside.rest.length
    .single ⟨.interpolation (String.ofList inside.rest), after.spanFrom start⟩
      [problem .missingInterpolationEnd start after] after

theorem length_textPiece_lt (decode : Bool) (length : Nat) (cursor : Cursor)
    (some : length ≠ 0) (more : cursor.rest ≠ []) :
    (textPiece decode length cursor).cursor.rest.length < cursor.rest.length := by
  have positive := List.length_pos_iff.2 more
  simp only [textPiece, Piece.single, Cursor.length_advance]
  omega

theorem length_interpolation_lt (delimiters : Delimiters) (cursor : Cursor)
    (more : cursor.rest ≠ []) :
    (interpolation delimiters cursor).cursor.rest.length < cursor.rest.length := by
  have positive := List.length_pos_iff.2 more
  have opening : 0 < delimiters.opening.toList.length := by
    refine List.length_pos_iff.2 ?_
    intro empty
    exact delimiters.opening_ne (String.toList_eq_nil_iff.1 empty)
  simp only [interpolation, Piece.single]
  split <;> simp only [Cursor.length_advance] <;> omega

end TemplateCompiler.Lexer
