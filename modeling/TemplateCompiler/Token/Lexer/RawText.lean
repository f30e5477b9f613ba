import TemplateCompiler.Token.Lexer.Piece

/-! Text in which no elements are read: it goes on up to the end tag of its element. -/

namespace TemplateCompiler.Lexer

open Text

/-- How a number of bytes in front of a text fits its characters. -/
inductive ByteSplit where
  | tooShort
  | insideCharacter
  | split (front back : List Char)

def splitBytes : Nat → List Char → ByteSplit
  | 0, text => .split [] text
  | _ + 1, [] => .tooShort
  | bytes + 1, c :: rest =>
    if c.utf8Size ≤ bytes + 1 then
      match splitBytes (bytes + 1 - c.utf8Size) rest with
      | .split front back => .split (c :: front) back
      | other => other
    else if bytes + 1 ≤ byteLength (c :: rest) then .insideCharacter
    else .tooShort
termination_by _ text => text

/-- The index of the first end tag of `tag` in `text`: a `</` and the name, up to case, that no
further name character follows. The length of the text if there is none. -/
def appropriateEnd (tag : String) : List Char → Except Fault Nat
  | [] => .ok 0
  | c :: rest =>
    match c, rest with
    | '<', '/' :: after =>
      match splitBytes (byteLength tag.toList) after with
      | .tooShort => .ok (rest.length + 1)
      | .insideCharacter => .error .splitCharacter
      | .split front back =>
        let terminated :=
          match back with
          | [] => true
          | next :: _ => !isNameChar next
        if sameIgnoringCase (String.ofList front) tag && terminated then .ok 0
        else (appropriateEnd tag rest).map (· + 1)
    | _, _ => (appropriateEnd tag rest).map (· + 1)

end TemplateCompiler.Lexer
