import TemplateCompiler.Script.Enclosure
import TemplateCompiler.Script.Identifier
import TemplateCompiler.Text.Reference

/-! Reading a script expression into lexemes. White space and comments are dropped; anything that is
no lexeme makes the whole text invalid. -/

namespace TemplateCompiler.Script

def isLineBreak (c : Char) : Bool :=
  c = '\n' || c = '\r' || c = '\u2028' || c = '\u2029'

def isWhite (c : Char) : Bool :=
  let code := c.toNat
  isLineBreak c || (9 ≤ code && code ≤ 12) || code = 0x20 || code = 0xa0 || code = 0x1680 ||
    (0x2000 ≤ code && code ≤ 0x200b) || code = 0x202f || code = 0x205f || code = 0x3000 ||
    code = 0xfeff

def spanLength (p : Char → Bool) (text : List Char) : Nat :=
  (text.takeWhile p).length

/-- Whether each underscore stands between two other characters. -/
def isSeparated : List Char → Bool
  | [] => true
  | '_' :: _ => false
  | _ :: '_' :: rest => !rest.isEmpty && isSeparated rest
  | _ :: rest => isSeparated rest

def digitsLength? (base : Nat) (text : List Char) : Option Nat :=
  let run := text.takeWhile fun c => Text.isDigitOf base c || c = '_'
  if isSeparated run then some run.length else none

def exponentLength? (text : List Char) : Option Nat :=
  match text with
  | e :: rest =>
    if e = 'e' || e = 'E' then
      let sign := match rest with
        | c :: _ => if c = '+' || c = '-' then 1 else 0
        | [] => 0
      if (rest.drop sign).head?.any Char.isDigit then
        (digitsLength? 10 (rest.drop sign)).map (1 + sign + ·)
      else some 0
    else some 0
  | [] => some 0

/-- The length of a decimal number. More digits behind a zero permit neither a suffix nor a
fraction. -/
def decimalLength? (text : List Char) : Option Nat := do
  let whole ← digitsLength? 10 text
  let rest := text.drop whole
  guard !(text.head? = some '0' && 1 < whole && rest.head?.any fun c => c = 'n' || c = '.')
  if rest.head? = some 'n' then return whole + 1
  let fraction ←
    if rest.head? = some '.' then (digitsLength? 10 rest.tail).map (1 + ·) else some 0
  return whole + fraction + (← exponentLength? (rest.drop fraction))

/-- The length of the digits of a number in another base and of its suffix. -/
def basedLength? (base : Nat) (text : List Char) : Option Nat := do
  let digits ← digitsLength? base text
  guard (digits ≠ 0)
  return digits + (if (text.drop digits).head? = some 'n' then 1 else 0)

/-- The length of the number in front, which begins with a digit or with a dot and a digit. -/
def numberLength? (text : List Char) : Option Nat :=
  match text with
  | '0' :: x :: rest =>
    if x = 'x' || x = 'X' then (basedLength? 16 rest).map (2 + ·)
    else if x = 'o' || x = 'O' then (basedLength? 8 rest).map (2 + ·)
    else if x = 'b' || x = 'B' then (basedLength? 2 rest).map (2 + ·)
    else decimalLength? text
  | _ => decimalLength? text

structure Escape where
  /-- How many characters it takes; a malformed one takes the character that spoils it. -/
  length : Nat
  valid : Bool
  /-- The code point of an escape by number. -/
  code : Nat := 0

def digitsEscape (count : Nat) (text : List Char) : Escape :=
  let digits := (text.take count).takeWhile (Text.isDigitOf 16)
  if digits.length = count then
    { length := 1 + count, valid := true, code := Text.numberOf 16 digits }
  else { length := 2 + digits.length, valid := false }

/-- An escape by digits in braces, behind its opening brace. It stands for a Unicode character. -/
def bracedEscape (text : List Char) : Escape :=
  let run := text.takeWhile fun c => Text.isDigitOf 16 c || c = '_'
  let code := Text.numberOf 16 run
  if (text.drop run.length).head? = some '}' then
    { length := 3 + run.length
      valid := !run.isEmpty && run.all (Text.isDigitOf 16) && code.isValidChar
      code }
  else { length := 2 + run.length, valid := false }

def escapeOf (text : List Char) : Escape :=
  match text with
  | [] => { length := 0, valid := false }
  | 'x' :: rest => digitsEscape 2 rest
  | 'u' :: '{' :: rest => bracedEscape rest
  | 'u' :: rest => digitsEscape 4 rest
  | _ :: _ => { length := 1, valid := true }

/-- The length of a string up to and with its closing quote. Line breaks may stand in it. The last
escape decides whether it is well formed. -/
def stringLength? (quote : Char) (valid : Bool) (text : List Char) : Option Nat :=
  match text with
  | [] => none
  | c :: rest =>
    if c = quote then if valid then some 1 else none
    else if c = '\\' then
      let escape := escapeOf rest
      (stringLength? quote escape.valid (rest.drop escape.length)).map (1 + escape.length + ·)
    else (stringLength? quote valid rest).map (1 + ·)
termination_by text.length
decreasing_by
  · simp only [List.length_drop, List.length_cons]; omega
  · simp

/-- The length of the text of a template literal, up to a back quote or a substitution. -/
def chunkLength? (text : List Char) : Option Nat :=
  match text with
  | [] => none
  | '\x60' :: _ => some 0
  | '$' :: '{' :: _ => some 0
  | c :: rest =>
    if c = '\\' then
      let escape := escapeOf rest
      if escape.valid then
        (chunkLength? (rest.drop escape.length)).map (1 + escape.length + ·)
      else none
    else (chunkLength? rest).map (1 + ·)
termination_by text.length
decreasing_by
  · simp only [List.length_drop, List.length_cons]; omega
  · simp

/-- The length of the character in front, or of the escape that stands for one, if the character
satisfies `p`. -/
def unitLength? (p : Char → Bool) (text : List Char) : Option Nat :=
  match text with
  | [] => none
  | '\\' :: 'u' :: rest =>
    let escape := escapeOf ('u' :: rest)
    if escape.valid && p (Char.ofNat escape.code) then some (1 + escape.length) else none
  | c :: _ => if p c then some 1 else none

def wordRestLength (text : List Char) : Nat :=
  match unitLength? isIdentifierPart text with
  | none => 0
  | some length =>
    if _moves : 0 < length ∧ length ≤ text.length then
      length + wordRestLength (text.drop length)
    else 0
termination_by text.length
decreasing_by
  simp only [List.length_drop]
  omega

def wordLength? (text : List Char) : Option Nat :=
  (unitLength? isIdentifierStart text).map fun length =>
    length + wordRestLength (text.drop length)

/-- The length of the body of a regular expression behind its first slash, the closing one
included. -/
def regexBodyLength? (inClass : Bool) : List Char → Option Nat
  | [] => none
  | '\\' :: _ :: rest => (regexBodyLength? inClass rest).map (2 + ·)
  | c :: rest =>
    if isLineBreak c then none
    else if c = '/' && !inClass then some 1
    else if c = '[' then (regexBodyLength? true rest).map (1 + ·)
    else if c = ']' then (regexBodyLength? false rest).map (1 + ·)
    else (regexBodyLength? inClass rest).map (1 + ·)

/-- Each flag may be given once. -/
def areFlags (flags : List Char) : Bool :=
  flags.all (['g', 'i', 'm', 's', 'u', 'y'].contains ·) && flags.eraseDups.length = flags.length

def regexLength? (text : List Char) : Option Nat := do
  let body ← regexBodyLength? false text
  let flags := (text.drop body).takeWhile isIdentifierPart
  guard (areFlags flags)
  return body + flags.length

/-- The marks of the language, the longer ones first. Right shifts are read as marks of their own,
one for each angle. -/
def marks : List String :=
  [">>>=", "...", "===", "!==", "**=", "<<=", ">>=", "&&=", "||=", "??=", "=>", "==", "!=", "<=",
   ">=", "&&", "||", "??", "?.", "++", "--", "+=", "-=", "*=", "/=", "%=", "&=", "|=", "^=", "<<",
   "**", "\x7b", "\x7d", "(", ")", "[", "]", ";", ",", "<", ">", "+", "-", "*", "/", "%", "&", "|",
   "^", "!", "~", "?", ":", "=", ".", "#", "@", "\x60"]

/-- The longest mark in front. The dot of `?.` belongs to a number if a digit follows. -/
def markOf? (text : List Char) : Option String :=
  marks.find? fun mark =>
    mark.toList.isPrefixOf text &&
      !(mark == "?." && (text.drop 2).head?.any Char.isDigit)

/-- The end of a block comment: the length up to and with its closing, and whether it has a line
break. -/
def blockCommentLength? (broken : Bool) : List Char → Option (Nat × Bool)
  | [] => none
  | '*' :: '/' :: _ => some (2, broken)
  | c :: rest =>
    (blockCommentLength? (broken || isLineBreak c) rest).map fun found => (found.1 + 1, found.2)

/-- A step of reading: what is passed over, or a lexeme. The length is at least one. -/
inductive LexStep where
  | skip (length : Nat) (broken : Bool)
  | lexeme (kind : LexemeKind) (length : Nat)

def LexStep.length : LexStep → Nat
  | skip length _ => length
  | lexeme _ length => length

def templateStep? (text : List Char) : Option LexStep :=
  match text with
  | '\x60' :: _ => some (.lexeme .mark 1)
  | '$' :: '{' :: _ => some (.lexeme .mark 2)
  | _ => (chunkLength? text).map (.lexeme .chunk)

def codeStep? (expectsOperand : Bool) (text : List Char) : Option LexStep :=
  match text with
  | [] => none
  | '/' :: '/' :: rest => some (.skip (2 + spanLength (!isLineBreak ·) rest) false)
  | '/' :: '*' :: rest =>
    (blockCommentLength? false rest).map fun found => .skip (2 + found.1) found.2
  | c :: rest =>
    if isWhite c then some (.skip 1 (isLineBreak c))
    else if c.isDigit || c = '.' && rest.head?.any Char.isDigit then do
      let length ← numberLength? text
      guard !((text.drop length).head?.any isIdentifierPart)
      return .lexeme .number length
    else if c = '"' || c = '\'' then
      (stringLength? c true rest).map fun length => .lexeme .string (1 + length)
    else if c = '/' && expectsOperand then
      (regexLength? rest).map fun length => .lexeme .regex (1 + length)
    else
      match wordLength? text with
      | some length => some (.lexeme .word length)
      | none => (markOf? text).map fun mark => .lexeme .mark mark.toList.length

def lexStep? (state : LexState) (text : List Char) : Option LexStep :=
  if state.innermost? = some .template then templateStep? text
  else codeStep? state.expectsOperand text

def lexFrom (state : LexState) (broken : Bool) (start : Nat) (text : List Char) :
    Option (List Lexeme) :=
  if text.isEmpty then some []
  else
    match lexStep? state text with
    | none => none
    | some step =>
      if _moves : 0 < step.length ∧ step.length ≤ text.length then
        let rest := text.drop step.length
        match step with
        | .skip length newBreak => lexFrom state (broken || newBreak) (start + length) rest
        | .lexeme kind length =>
          let lexeme : Lexeme :=
            { kind, text := String.ofList (text.take length), start, stop := start + length,
              afterBreak := broken }
          (lexFrom (state.after lexeme) false (start + length) rest).map (lexeme :: ·)
      else none
termination_by text.length
decreasing_by
  all_goals
    simp only [List.length_drop, LexStep.length] at *
    omega

def lex? (text : String) : Option (List Lexeme) :=
  lexFrom {} false 0 text.toList

end TemplateCompiler.Script
