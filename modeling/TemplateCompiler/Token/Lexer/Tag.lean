import TemplateCompiler.Token.Lexer.Attribute

/-! Start tags and end tags. -/

namespace TemplateCompiler.Lexer

open Text

theorem rest_ne_nil_of_not_atTagEnd {cursor : Cursor} (going : ¬atTagEnd cursor = true) :
    cursor.rest ≠ [] := by
  intro empty
  simp [atTagEnd, Cursor.atEnd, empty] at going

/-- The rest of a start tag: one pull for each attribute name, value and the end, whether the tag
ended in `>`, and the cursor behind it. -/
structure StartTagRest where
  pulls : List Pull
  opened : Bool := false
  cursor : Cursor

def startTagRest (pending : List Problem) (cursor : Cursor) : StartTagRest :=
  let start := cursor.position
  if _ended : cursor.rest = [] then
    let token : Token := ⟨.tagEnd false, cursor.spanFrom start⟩
    { pulls := [⟨pending ++ [problem .eofInTag start cursor], token⟩], cursor }
  else if startsWith "/>" cursor then
    { pulls := [⟨pending, ⟨.tagEnd true, (cursor.advance 2).spanFrom start⟩⟩]
      cursor := cursor.advance 2 }
  else if startsWith ">" cursor then
    { pulls := [⟨pending, ⟨.tagEnd false, (cursor.advance 1).spanFrom start⟩⟩]
      opened := true
      cursor := cursor.advance 1 }
  else if startsWith "/" cursor then
    startTagRest (pending ++ [problem .unexpectedSolidusInTag start (cursor.advance 1)])
      (skipBlanks (cursor.advance 1))
  else
    let rest := startTagRest [] (skipBlanks (readAttribute cursor).cursor)
    let read := readAttribute cursor
    let value := read.value.toList.map fun token => { token : Pull }
    { rest with pulls := ⟨pending ++ read.problems, read.name⟩ :: value ++ rest.pulls }
termination_by cursor.rest.length
decreasing_by
  · have := length_skipBlanks_le (cursor.advance 1)
    have := List.length_pos_iff.2 _ended
    simp only [Cursor.length_advance] at *
    omega
  · exact Nat.lt_of_le_of_lt (length_skipBlanks_le _) (length_readAttribute_lt _ _ended)

structure EndTagRest where
  problems : List Problem := []
  attributes : Bool := false
  cursor : Cursor

def endTagRest (cursor : Cursor) : EndTagRest :=
  if _ended : atTagEnd cursor then { cursor }
  else if startsWith "/" cursor then
    let rest := endTagRest (skipBlanks (cursor.advance 1))
    let found := problem .unexpectedSolidusInTag cursor.position (cursor.advance 1)
    { rest with problems := found :: rest.problems }
  else
    let rest := endTagRest (skipBlanks (readAttribute cursor).cursor)
    { rest with problems := (readAttribute cursor).problems ++ rest.problems, attributes := true }
termination_by cursor.rest.length
decreasing_by
  · have := length_skipBlanks_le (cursor.advance 1)
    have := List.length_pos_iff.2 (rest_ne_nil_of_not_atTagEnd _ended)
    simp only [Cursor.length_advance] at *
    omega
  · exact Nat.lt_of_le_of_lt (length_skipBlanks_le _)
      (length_readAttribute_lt _ (rest_ne_nil_of_not_atTagEnd _ended))

def tagNameLength (rest : List Char) : Nat :=
  (rest.takeWhile isNameChar).length

def startTag (cursor : Cursor) : Piece :=
  let named := cursor.advance 1
  let length := tagNameLength named.rest
  let behind := named.advance length
  let rest := startTagRest [] (skipBlanks behind)
  let token : Token := ⟨.tagOpen (named.peek length), behind.spanFrom cursor.position⟩
  { pulls := ⟨[], token⟩ :: rest.pulls
    cursor := rest.cursor
    inside := if rest.opened then some (named.peek length) else none }

def closeEndTag (start : Position) (cursor : Cursor) : List Problem × Cursor :=
  if cursor.atEnd then ([problem .eofInTag start cursor], cursor)
  else if startsWith "/>" cursor then
    ([problem .endTagWithTrailingSolidus start cursor], cursor.advance 2)
  else ([], cursor.advance 1)

def endTag (cursor : Cursor) : Piece :=
  let start := cursor.position
  let named := cursor.advance 2
  let length := tagNameLength named.rest
  let rest := endTagRest (skipBlanks (named.advance length))
  let dropped := if rest.attributes then [problem .endTagWithAttributes start rest.cursor] else []
  let closed := closeEndTag start rest.cursor
  .single ⟨.tagClose (named.peek length), closed.2.spanFrom start⟩
    (rest.problems ++ dropped ++ closed.1) closed.2

theorem length_startTagRest_le (pending : List Problem) (cursor : Cursor) :
    (startTagRest pending cursor).cursor.rest.length ≤ cursor.rest.length := by
  fun_induction startTagRest pending cursor with
  | case1 => simp
  | case2 => simp
  | case3 => simp
  | case4 pending cursor start more _ _ _ ih =>
    refine Nat.le_trans ih (Nat.le_trans (length_skipBlanks_le _) ?_)
    simp
  | case5 pending cursor more _ _ _ rest read value ih =>
    have := length_readAttribute_lt _ more
    have := length_skipBlanks_le (readAttribute cursor).cursor
    simp only [rest]
    omega

theorem length_endTagRest_le (cursor : Cursor) :
    (endTagRest cursor).cursor.rest.length ≤ cursor.rest.length := by
  fun_induction endTagRest cursor with
  | case1 => simp
  | case2 cursor going _ rest found ih =>
    refine Nat.le_trans ih (Nat.le_trans (length_skipBlanks_le _) ?_)
    simp
  | case3 cursor going _ rest ih =>
    have := length_readAttribute_lt _ (rest_ne_nil_of_not_atTagEnd going)
    have := length_skipBlanks_le (readAttribute cursor).cursor
    simp only [rest]
    omega

theorem length_startTag_lt (cursor : Cursor) (more : cursor.rest ≠ []) :
    (startTag cursor).cursor.rest.length < cursor.rest.length := by
  have positive := List.length_pos_iff.2 more
  simp only [startTag]
  refine Nat.lt_of_le_of_lt (length_startTagRest_le _ _) ?_
  refine Nat.lt_of_le_of_lt (length_skipBlanks_le _) ?_
  simp only [Cursor.length_advance]
  omega

theorem length_closeEndTag_le (start : Position) (cursor : Cursor) :
    (closeEndTag start cursor).2.rest.length ≤ cursor.rest.length := by
  unfold closeEndTag
  split
  · simp
  · split <;> simp

theorem length_endTag_lt (cursor : Cursor) (more : cursor.rest ≠ []) :
    (endTag cursor).cursor.rest.length < cursor.rest.length := by
  have positive := List.length_pos_iff.2 more
  simp only [endTag, Piece.single]
  refine Nat.lt_of_le_of_lt (length_closeEndTag_le _ _) ?_
  refine Nat.lt_of_le_of_lt (length_endTagRest_le _) ?_
  refine Nat.lt_of_le_of_lt (length_skipBlanks_le _) ?_
  simp only [Cursor.length_advance]
  omega

end TemplateCompiler.Lexer
