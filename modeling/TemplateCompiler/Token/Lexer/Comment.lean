import TemplateCompiler.Token.Lexer.Piece

/-! Comments, and other constructs that are read as comments. -/

namespace TemplateCompiler.Lexer

open Text

def pastAngle (cursor : Cursor) : Cursor :=
  match find? ['>'] cursor.rest with
  | some index => cursor.advance (index + 1)
  | none => cursor.advance cursor.rest.length

/-- A construct that is read as a comment up to the next `>`; its text begins `skip` characters
behind the start. -/
def bogusComment (skip : Nat) (problems : List Problem) (cursor : Cursor) : Piece :=
  let text := (cursor.rest.takeWhile (· != '>')).drop skip
  let after := pastAngle cursor
  .single ⟨.comment (String.ofList text), after.spanFrom cursor.position⟩ problems after

/-- Report each further `<!--` among the next `length` characters, and move over them. -/
def nestedComments (length : Nat) (cursor : Cursor) : List Problem × Cursor :=
  match _found : find? "<!--".toList (cursor.rest.take length) with
  | none => ([], cursor.advance length)
  | some index =>
    let after := cursor.advance (index + 4)
    let found := if after.atEnd then [] else [problem .nestedComment cursor.position after]
    let rest := nestedComments (length - (index + 4)) after
    (found ++ rest.1, rest.2)
termination_by length
decreasing_by
  have inside := find?_length_le _found
  have four : "<!--".toList.length = 4 := by decide
  rw [List.length_take] at inside
  omega

structure CommentText where
  text : String
  problems : List Problem := []
  cursor : Cursor

/-- The text of a comment at `<!--`. It ends at the first `--!>` if the rest of the template has
one, and else at the first `-->`. -/
def commentText (cursor : Cursor) : CommentText :=
  let inside := cursor.advance 4
  match (find? "--!>".toList cursor.rest).or (find? "-->".toList cursor.rest) with
  | some stop =>
    if stop ≤ 3 then
      { text := ""
        problems := [problem .abruptClosingOfEmptyComment cursor.position cursor]
        cursor := cursor.advance 2 }
    else
      let nested := nestedComments (stop - 4) inside
      { text := inside.peek (stop - 4), problems := nested.1, cursor := nested.2 }
  | none =>
    let nested := nestedComments inside.rest.length inside
    { text := String.ofList inside.rest, problems := nested.1, cursor := nested.2 }

def closeComment (start : Position) (cursor : Cursor) : List Problem × Cursor :=
  if cursor.atEnd then ([problem .eofInComment start cursor], cursor)
  else if startsWith "--!>" cursor then
    ([problem .incorrectlyClosedComment start cursor], cursor.advance 4)
  else if startsWith "-->" cursor then ([], cursor.advance 3)
  else ([], pastAngle cursor)

def comment (cursor : Cursor) : Piece :=
  let read := commentText cursor
  let closed := closeComment cursor.position read.cursor
  .single ⟨.comment read.text, closed.2.spanFrom cursor.position⟩ (read.problems ++ closed.1)
    closed.2

def declaration (cursor : Cursor) : Piece :=
  let start := cursor.position
  if startsWith "<!--" cursor then comment cursor
  else if startsWith "<!DOCTYPE" cursor || startsWith "<!doctype" cursor then
    bogusComment 2 [] cursor
  else if startsWith "<![CDATA[" cursor then
    bogusComment 2 [problem .cdataInHtmlContent start cursor] cursor
  else bogusComment 2 [problem .incorrectlyOpenedComment start cursor] cursor

theorem length_pastAngle_le (cursor : Cursor) :
    (pastAngle cursor).rest.length ≤ cursor.rest.length - 1 := by
  unfold pastAngle
  split <;> simp only [Cursor.length_advance] <;> omega

theorem length_bogusComment_lt (skip : Nat) (problems : List Problem) (cursor : Cursor)
    (more : cursor.rest ≠ []) :
    (bogusComment skip problems cursor).cursor.rest.length < cursor.rest.length := by
  have positive := List.length_pos_iff.2 more
  simp only [bogusComment, Piece.single]
  exact Nat.lt_of_le_of_lt (length_pastAngle_le cursor) (by omega)

theorem length_nestedComments_le (length : Nat) (cursor : Cursor) :
    (nestedComments length cursor).2.rest.length ≤ cursor.rest.length := by
  fun_induction nestedComments length cursor with
  | case1 => simp
  | case2 length cursor index found after problems rest ih =>
    refine Nat.le_trans ih ?_
    simp [after]

theorem length_commentText_lt (cursor : Cursor) (more : cursor.rest ≠ []) :
    (commentText cursor).cursor.rest.length < cursor.rest.length := by
  have positive := List.length_pos_iff.2 more
  have nested := fun length => length_nestedComments_le length (cursor.advance 4)
  simp only [Cursor.length_advance] at nested
  simp only [commentText]
  split
  · split
    · simp only [Cursor.length_advance]; omega
    · exact Nat.lt_of_le_of_lt (nested _) (by omega)
  · exact Nat.lt_of_le_of_lt (nested _) (by omega)

theorem length_closeComment_le (start : Position) (cursor : Cursor) :
    (closeComment start cursor).2.rest.length ≤ cursor.rest.length := by
  unfold closeComment
  split
  · simp
  · split
    · simp
    · split
      · simp
      · exact Nat.le_trans (length_pastAngle_le cursor) (by omega)

theorem length_comment_lt (cursor : Cursor) (more : cursor.rest ≠ []) :
    (comment cursor).cursor.rest.length < cursor.rest.length := by
  simp only [comment, Piece.single]
  exact Nat.lt_of_le_of_lt (length_closeComment_le _ _) (length_commentText_lt cursor more)

theorem length_declaration_lt (cursor : Cursor) (more : cursor.rest ≠ []) :
    (declaration cursor).cursor.rest.length < cursor.rest.length := by
  unfold declaration
  simp only
  split
  · exact length_comment_lt cursor more
  · split
    · exact length_bogusComment_lt _ _ _ more
    · split <;> exact length_bogusComment_lt _ _ _ more

end TemplateCompiler.Lexer
