import TemplateCompiler.Token.Lexer.Piece

/-! Attributes: a name, and a value with quotes or without. -/

namespace TemplateCompiler.Lexer

open Text

/-- An attribute: its name, its value if it has one, what was wrong with them, and the cursor
behind them. -/
structure ReadAttribute where
  name : Token
  value : Option Token := none
  problems : List Problem := []
  cursor : Cursor

/-- The value of an attribute, what was wrong with it, and the cursor behind it. -/
structure ReadValue where
  token : Option Token := none
  problems : List Problem := []
  cursor : Cursor

def valueToken (cursor : Cursor) (length : Nat) : Token :=
  ⟨.attrValue ((Phrase.mk (cursor.peek length) {}).decoded true),
    (cursor.advance length).spanFrom cursor.position⟩

/-- The cursor behind a quoted value. Unless the tag ends there, blanks are expected. -/
def afterQuotedValue (token : Token) (cursor : Cursor) : ReadValue :=
  if atTagEnd cursor || startsWith "/" cursor then { token, cursor }
  else if (skipBlanks cursor).rest.length = cursor.rest.length then
    { token, cursor,
      problems := [problem .missingWhitespaceBetweenAttributes cursor.position cursor] }
  else { token, cursor := skipBlanks cursor }

/-- A value in quotes. Its token has the span of the value without the quotes; a missing closing
quote takes the rest of the template. -/
def quotedValue (quote : Char) (cursor : Cursor) : ReadValue :=
  let inside := cursor.advance 1
  match find? [quote] inside.rest with
  | some length => afterQuotedValue (valueToken inside length) (inside.advance (length + 1))
  | none =>
    afterQuotedValue (valueToken inside inside.rest.length) (inside.advance inside.rest.length)

def unquotedValue (cursor : Cursor) : ReadValue :=
  let length := (cursor.rest.takeWhile fun c => !isBlank c && c != '>').length
  let bad := (cursor.rest.take length).any fun c =>
    c = '"' || c = '\'' || c = '<' || c = '=' || c = '\x60'
  let after := cursor.advance length
  { token := valueToken cursor length
    problems :=
      if bad then [problem .unexpectedCharacterInUnquotedAttributeValue cursor.position after]
      else []
    cursor := after }

/-- What follows the equals sign of an attribute, from where no blanks are in front. -/
def attributeValue (cursor : Cursor) : ReadValue :=
  match cursor.rest with
  | [] => { problems := [problem .missingAttributeValue cursor.position cursor], cursor }
  | c :: _ =>
    if c = '>' then { problems := [problem .missingAttributeValue cursor.position cursor], cursor }
    else if c = '"' || c = '\'' then quotedValue c cursor
    else unquotedValue cursor

def attributeNameLength (rest : List Char) : Nat :=
  match rest with
  | '=' :: _ => 1
  | rest => 1 + (rest.tail.takeWhile fun c => isNameChar c && c != '=').length

def attributeNameProblems (name : String) (start : Position) (behind : Cursor) : List Problem :=
  if name == "=" then [problem .unexpectedEqualsSignBeforeAttributeName start behind]
  else if name.toList.any fun c => c = '<' || c = '"' || c = '\'' then
    [problem .unexpectedCharacterInAttributeName start behind]
  else []

def readAttribute (cursor : Cursor) : ReadAttribute :=
  let length := attributeNameLength cursor.rest
  let name := cursor.peek length
  let behind := cursor.advance length
  let token : Token := ⟨.attrName name, behind.spanFrom cursor.position⟩
  let problems := attributeNameProblems name cursor.position behind
  let next := skipBlanks behind
  match next.rest with
  | '=' :: _ =>
    let value := attributeValue (skipBlanks (next.advance 1))
    ⟨token, value.token, problems ++ value.problems, value.cursor⟩
  | _ => ⟨token, none, problems, next⟩

theorem length_afterQuotedValue_le (token : Token) (cursor : Cursor) :
    (afterQuotedValue token cursor).cursor.rest.length ≤ cursor.rest.length := by
  unfold afterQuotedValue
  split
  · simp
  · split
    · simp
    · exact length_skipBlanks_le cursor

theorem length_quotedValue_le (quote : Char) (cursor : Cursor) :
    (quotedValue quote cursor).cursor.rest.length ≤ cursor.rest.length := by
  simp only [quotedValue]
  split
  · refine Nat.le_trans (length_afterQuotedValue_le _ _) ?_
    simp only [Cursor.length_advance]
    omega
  · refine Nat.le_trans (length_afterQuotedValue_le _ _) ?_
    simp only [Cursor.length_advance]
    omega

theorem length_attributeValue_le (cursor : Cursor) :
    (attributeValue cursor).cursor.rest.length ≤ cursor.rest.length := by
  unfold attributeValue
  split
  · simp
  · split
    · simp
    · split
      · exact length_quotedValue_le _ _
      · simp [unquotedValue]

theorem one_le_attributeNameLength (rest : List Char) : 1 ≤ attributeNameLength rest := by
  unfold attributeNameLength
  split
  · omega
  · omega

theorem length_readAttribute_lt (cursor : Cursor) (more : cursor.rest ≠ []) :
    (readAttribute cursor).cursor.rest.length < cursor.rest.length := by
  have positive := List.length_pos_iff.2 more
  have name := one_le_attributeNameLength cursor.rest
  have next := length_skipBlanks_le (cursor.advance (attributeNameLength cursor.rest))
  simp only [Cursor.length_advance] at next
  simp only [readAttribute]
  split
  · refine Nat.lt_of_le_of_lt (length_attributeValue_le _) ?_
    refine Nat.lt_of_le_of_lt (length_skipBlanks_le _) ?_
    simp only [Cursor.length_advance]
    omega
  · simp only
    omega

end TemplateCompiler.Lexer
