import TemplateCompiler.Text.Reference

/-! How a string is written in YAML: plain if it cannot be taken for anything else, in single quotes
if it could, as a block if it has several lines, and in double quotes if it has characters that need
an escape. -/

namespace TemplateCompiler.Yaml

def isDecimal (text : List Char) : Bool :=
  !text.isEmpty && text.all Char.isDigit

def unsigned : List Char → List Char
  | '+' :: rest => rest
  | '-' :: rest => rest
  | text => text

/-- Digits of another base behind their mark. -/
def isBased : List Char → Bool
  | '0' :: 'x' :: rest => !rest.isEmpty && rest.all (Text.isDigitOf 16)
  | '0' :: 'o' :: rest => !rest.isEmpty && rest.all (Text.isDigitOf 8)
  | '0' :: 'b' :: rest => !rest.isEmpty && rest.all (Text.isDigitOf 2)
  | _ => false

def isExponent (text : List Char) : Bool :=
  isDecimal (unsigned text)

def isFloat (text : List Char) : Bool :=
  let whole := text.takeWhile Char.isDigit
  let rest := text.dropWhile Char.isDigit
  let (fraction, rest) := match rest with
    | '.' :: more => (more.takeWhile Char.isDigit, more.dropWhile Char.isDigit)
    | _ => ([], rest)
  !(whole.isEmpty && fraction.isEmpty) &&
    match rest with
    | [] => true
    | e :: more => (e = 'e' || e = 'E') && isExponent more

def isSpecialFloat (text : String) : Bool :=
  [".inf", ".Inf", ".INF", "+.inf", "+.Inf", "+.INF", "-.inf", "-.Inf", "-.INF", ".nan", ".NaN",
   ".NAN"].contains text

def isNumber (text : String) : Bool :=
  let digits := unsigned text.toList
  isBased digits || isFloat digits || isSpecialFloat text

def isWord (text : String) : Bool :=
  ["null", "Null", "NULL", "~", "true", "True", "TRUE", "false", "False", "FALSE"].contains text

/-- A string that would be read back as something else. -/
def isAmbiguous (text : String) : Bool :=
  text.isEmpty || isWord text || isNumber text

def isBlankOrBreak (c : Char) : Bool :=
  c = ' ' || c = '\t' || c = '\n' || c = '\r' || c = '\u0085' || c = '\u2028' || c = '\u2029'

/-- A character that can be written as it is. -/
def isPrintable (c : Char) : Bool :=
  let code := c.toNat
  code = 0x0a || (0x20 ≤ code && code ≤ 0x7e) || (0xa0 ≤ code && code ≤ 0xd7ff) ||
    (0xe000 ≤ code && code ≤ 0xfffd && code ≠ 0xfeff)

def isIndicator (c : Char) : Bool :=
  "#,[]\x7b\x7d&*!|>'\"%@\x60".toList.contains c

def hasInnerIndicator (previous : Char) : List Char → Bool
  | [] => false
  | c :: rest =>
    c = ':' && rest.head?.all isBlankOrBreak || c = '#' && isBlankOrBreak previous ||
      hasInnerIndicator c rest

/-- Whether a string means something in a block when it is written plain. -/
def hasIndicator (text : List Char) : Bool :=
  match text with
  | [] => false
  | '-' :: '-' :: '-' :: _ => true
  | '.' :: '.' :: '.' :: _ => true
  | c :: rest =>
    isIndicator c || (c = '?' || c = ':' || c = '-') && rest.head?.all isBlankOrBreak ||
      hasInnerIndicator c rest

def hasSpaceBeforeBreak : List Char → Bool
  | ' ' :: '\n' :: _ => true
  | _ :: rest => hasSpaceBeforeBreak rest
  | [] => false

inductive ScalarStyle where
  | plain
  | single
  | double
  | literal
deriving DecidableEq, Inhabited, Repr

def styleOf (text : String) : ScalarStyle :=
  let chars := text.toList
  let needsEscape := chars.any fun c => !isPrintable c || c = '\u2028' || c = '\u2029'
  if chars.contains '\n' then
    if needsEscape || chars.getLast? = some ' ' || hasSpaceBeforeBreak chars then .double
    else .literal
  else if needsEscape then .double
  else if isAmbiguous text || hasIndicator chars || chars.head? = some ' ' ||
      chars.getLast? = some ' ' then .single
  else .plain

def hexUpper (width value : Nat) : String :=
  let digits := (Nat.toDigits 16 value).map Char.toUpper
  String.ofList (List.replicate (width - digits.length) '0' ++ digits)

def escape (c : Char) : String :=
  let code := c.toNat
  if c = '"' then "\\\""
  else if c = '\\' then "\\\\"
  else if code = 0 then "\\0"
  else if code = 7 then "\\a"
  else if code = 8 then "\\b"
  else if code = 9 then "\\t"
  else if code = 10 then "\\n"
  else if code = 11 then "\\v"
  else if code = 12 then "\\f"
  else if code = 13 then "\\r"
  else if code = 27 then "\\e"
  else if code = 0x85 then "\\N"
  else if code = 0x2028 then "\\L"
  else if code = 0x2029 then "\\P"
  else if isPrintable c then c.toString
  else if code ≤ 0xff then "\\x" ++ hexUpper 2 code
  else if code ≤ 0xffff then "\\u" ++ hexUpper 4 code
  else "\\U" ++ hexUpper 8 code

def indentation (width : Nat) : String :=
  String.ofList (List.replicate width ' ')

/-- The sign behind a block that tells what becomes of its last line breaks. -/
def chomping (chars : List Char) : String :=
  match chars.reverse with
  | '\n' :: [] => "+"
  | '\n' :: '\n' :: _ => "+"
  | '\n' :: _ => ""
  | _ => "-"

/-- The lines of a block, each on a line of its own; empty ones have no indentation. -/
def literalLines (width : Nat) (chars : List Char) : String :=
  let lines := (String.ofList chars).splitOn "\n"
  let kept := if chars.getLast? = some '\n' then lines.dropLast else lines
  String.join (kept.map fun line =>
    if line.isEmpty then "\n" else indentation width ++ line ++ "\n")

/-- A string with the line break behind it. Further lines are indented by `width`. -/
def scalar (width : Nat) (text : String) : String :=
  let chars := text.toList
  match styleOf text with
  | .plain => text ++ "\n"
  | .single =>
    "'" ++ String.ofList (chars.flatMap fun c => if c = '\'' then [c, c] else [c]) ++ "'\n"
  | .double => "\"" ++ String.join (chars.map escape) ++ "\"\n"
  | .literal =>
    let hint := if chars.head? = some ' ' || chars.head? = some '\n' then "2" else ""
    "|" ++ hint ++ chomping chars ++ "\n" ++ literalLines width chars

end TemplateCompiler.Yaml
