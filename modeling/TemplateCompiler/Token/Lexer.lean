import TemplateCompiler.Token.Lexer.Comment
import TemplateCompiler.Token.Lexer.RawText
import TemplateCompiler.Token.Lexer.Tag
import TemplateCompiler.Token.Lexer.Text

/-! Reading a template into tokens. Each piece of markup moves the cursor forward, so reading ends;
`scan` is the whole of it. The markup is read leniently, by the states of HTML tokenization, and
every deviation is reported where it is met. -/

namespace TemplateCompiler.Lexer

open Text

/-- What begins with `<` where elements are read. -/
def markup (cursor : Cursor) : Piece :=
  let start := cursor.position
  match cursor.rest with
  | ['<', '/'] => strayText .eofBeforeTagName 2 0 cursor
  | '<' :: '/' :: '>' :: _ =>
    { problems := [problem .missingEndTagName start cursor], cursor := cursor.advance 3 }
  | '<' :: '/' :: c :: _ =>
    if c.isAlpha then endTag cursor
    else bogusComment 2 [problem .invalidFirstCharacterOfTagName start cursor] cursor
  | '<' :: '!' :: _ => declaration cursor
  | '<' :: '?' :: _ =>
    bogusComment 1 [problem .unexpectedQuestionMarkInsteadOfTagName start cursor] cursor
  | '<' :: c :: _ =>
    if c.isAlpha then startTag cursor else strayText .invalidFirstCharacterOfTagName 1 1 cursor
  | _ => strayText .eofBeforeTagName 1 1 cursor

/-- The number of characters before the next `<` or opening delimiter. -/
def plainLength (delimiters : Delimiters) (rest : List Char) : Nat :=
  match find? ['<'] rest, find? delimiters.opening.toList rest with
  | some tag, some mark => min tag mark
  | some tag, none => tag
  | none, some mark => mark
  | none, none => rest.length

/-- A piece of content where elements are read. -/
def dataPiece (delimiters : Delimiters) (cursor : Cursor) : Piece :=
  if plainLength delimiters cursor.rest ≠ 0 then
    textPiece true (plainLength delimiters cursor.rest) cursor
  else if startsWith delimiters.opening cursor then interpolation delimiters cursor
  else markup cursor

theorem length_markup_lt (cursor : Cursor) (more : cursor.rest ≠ []) :
    (markup cursor).cursor.rest.length < cursor.rest.length := by
  have positive := List.length_pos_iff.2 more
  unfold markup
  simp only
  split
  · simp only [strayText, Piece.single, Cursor.length_advance]; omega
  · simp only [Cursor.length_advance]; omega
  · split
    · exact length_endTag_lt cursor more
    · exact length_bogusComment_lt _ _ _ more
  · exact length_declaration_lt cursor more
  · exact length_bogusComment_lt _ _ _ more
  · split
    · exact length_startTag_lt cursor more
    · simp only [strayText, Piece.single, Cursor.length_advance]; omega
  · simp only [strayText, Piece.single, Cursor.length_advance]; omega

theorem length_dataPiece_lt (delimiters : Delimiters) (cursor : Cursor) (more : cursor.rest ≠ []) :
    (dataPiece delimiters cursor).cursor.rest.length < cursor.rest.length := by
  unfold dataPiece
  split
  · next some => exact length_textPiece_lt _ _ _ some more
  · split
    · exact length_interpolation_lt _ _ more
    · exact length_markup_lt _ more

/-- Where the cursor stands: among elements, or in the text of one element. -/
inductive Mode where
  | data
  | rcData (tag : String)
  | rawText (tag : String)
deriving DecidableEq, Inhabited

def Mode.inside (textMode : String → Tag.TextMode) (tag : String) : Mode :=
  match textMode tag with
  | .data => .data
  | .rcData => .rcData tag
  | .rawText => .rawText tag

/-- One step: a piece and the mode behind it. In the text of an element an empty piece goes back to
the elements. -/
def step (option : ScanOption) (cursor : Cursor) : Mode → Except Fault (Piece × Mode)
  | .data =>
    let piece := dataPiece option.delimiters cursor
    let mode :=
      match piece.inside with
      | some tag => Mode.inside option.textMode tag
      | none => .data
    .ok (piece, mode)
  | .rawText tag => do
    let length ← appropriateEnd tag cursor.rest
    if length = 0 then return ({ cursor }, .data)
    return (textPiece false length cursor, .data)
  | .rcData tag => do
    let opening := option.delimiters.opening.toList
    if opening.isPrefixOf cursor.rest then
      return (interpolation option.delimiters cursor, .rcData tag)
    let length ← appropriateEnd tag cursor.rest
    match find? opening cursor.rest with
    | some index =>
      if index < length then return (textPiece true index cursor, .rcData tag)
      if length = 0 then return ({ cursor }, .data)
      return (textPiece true length cursor, .data)
    | none =>
      if length = 0 then return ({ cursor }, .data)
      return (textPiece true length cursor, .data)

/-- A step reads something, or leaves the text of an element. -/
theorem step_progress {option : ScanOption} {cursor : Cursor} {mode next : Mode} {piece : Piece}
    (more : cursor.rest ≠ []) (stepped : step option cursor mode = .ok (piece, next)) :
    piece.cursor.rest.length < cursor.rest.length ∨
      piece.cursor = cursor ∧ mode ≠ .data ∧ next = .data := by
  cases mode with
  | data =>
    simp only [step, Except.ok.injEq, Prod.mk.injEq] at stepped
    exact .inl (stepped.1 ▸ length_dataPiece_lt _ _ more)
  | rawText tag =>
    simp only [step, bind, Except.bind, pure, Except.pure] at stepped
    split at stepped
    · simp at stepped
    · split at stepped
      · simp only [Except.ok.injEq, Prod.mk.injEq] at stepped
        exact .inr ⟨by rw [← stepped.1], by simp, stepped.2.symm⟩
      · next some =>
        simp only [Except.ok.injEq, Prod.mk.injEq] at stepped
        exact .inl (stepped.1 ▸ length_textPiece_lt _ _ _ some more)
  | rcData tag =>
    simp only [step, bind, Except.bind, pure, Except.pure] at stepped
    split at stepped
    · simp only [Except.ok.injEq, Prod.mk.injEq] at stepped
      exact .inl (stepped.1 ▸ length_interpolation_lt _ _ more)
    · next unopened =>
      split at stepped
      · simp at stepped
      · split at stepped
        · next index found =>
          split at stepped
          · simp only [Except.ok.injEq, Prod.mk.injEq] at stepped
            refine .inl (stepped.1 ▸ length_textPiece_lt _ _ _ ?_ more)
            intro zero
            exact unopened (isPrefixOf_of_find?_zero (zero ▸ found))
          · split at stepped
            · simp only [Except.ok.injEq, Prod.mk.injEq] at stepped
              exact .inr ⟨by rw [← stepped.1], by simp, stepped.2.symm⟩
            · next some =>
              simp only [Except.ok.injEq, Prod.mk.injEq] at stepped
              exact .inl (stepped.1 ▸ length_textPiece_lt _ _ _ some more)
        · split at stepped
          · simp only [Except.ok.injEq, Prod.mk.injEq] at stepped
            exact .inr ⟨by rw [← stepped.1], by simp, stepped.2.symm⟩
          · next some =>
            simp only [Except.ok.injEq, Prod.mk.injEq] at stepped
            exact .inl (stepped.1 ▸ length_textPiece_lt _ _ _ some more)

/-- The rest of a template from `cursor` on; `pending` was reported since the last token. -/
def scanFrom (option : ScanOption) (pending : List Problem) (cursor : Cursor) (mode : Mode) :
    Scan :=
  if _ended : cursor.rest = [] then { ending := .ok pending }
  else
    match _stepped : step option cursor mode with
    | .error fault => { ending := .error fault }
    | .ok (piece, next) =>
      match piece.pulls with
      | [] => scanFrom option (pending ++ piece.problems) piece.cursor next
      | first :: others =>
        let rest := scanFrom option piece.problems piece.cursor next
        ⟨{ first with problems := pending ++ first.problems } :: others ++ rest.pulls, rest.ending⟩
termination_by 2 * cursor.rest.length + if mode = .data then 0 else 1
decreasing_by
  all_goals
    rcases step_progress _ended _stepped with shorter | ⟨same, left, back⟩
    · have : (if next = .data then 0 else 1) ≤ 1 := by split <;> decide
      omega
    · rw [same, back, if_pos rfl, if_neg left]
      omega

end TemplateCompiler.Lexer

namespace TemplateCompiler

def scan (option : ScanOption) (source : String) : Scan :=
  Lexer.scanFrom option [] (.ofString source) .data

end TemplateCompiler
