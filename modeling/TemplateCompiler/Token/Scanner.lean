import TemplateCompiler.Problem.Reported
import TemplateCompiler.Token.Basic
import TemplateCompiler.Token.Lexer.RawText

/-! A scanner hands out the tokens of a template one at a time. It moves forward by bytes, and what
it takes for granted is asserted: where a slice does not fit the text or an assertion fails, it stops
with a fault. Between two tokens it may stand inside of a start tag. -/

namespace TemplateCompiler

namespace Text

open Lexer

def splitAt (text : List Char) (bytes : Nat) : Except Fault (List Char × List Char) :=
  match splitBytes bytes text with
  | .split front back => .ok (front, back)
  | .insideCharacter => .error .splitCharacter
  | .tooShort => .error .sliceOutOfRange

def sliceTo (text : List Char) (stop : Nat) : Except Fault (List Char) :=
  (splitAt text stop).map (·.1)

def sliceFrom (text : List Char) (start : Nat) : Except Fault (List Char) :=
  (splitAt text start).map (·.2)

def slice (text : List Char) (start stop : Nat) : Except Fault (List Char) :=
  if stop < start then .error .sliceOutOfRange
  else (sliceTo text stop).bind (sliceFrom · start)

/-- Where the pattern begins, in bytes. -/
def findByte? (pattern text : List Char) : Option Nat :=
  (find? pattern text).map fun index => byteLength (text.take index)

def lastFeed? (text : List Char) : Option Nat :=
  (cutLast? '\n' text).map fun (before, _) => byteLength before

/-- All places where the pattern begins, in bytes; the text stands behind the first `front` ones. -/
def occurrences (pattern : List Char) (front : Nat) : List Char → List Nat
  | [] => []
  | c :: rest =>
    if pattern.isPrefixOf (c :: rest) then front :: occurrences pattern (front + c.utf8Size) rest
    else occurrences pattern (front + c.utf8Size) rest

end Text

open Text
open Lexer (isNameChar)

def Position.moveBy (position : Position) (size : Nat) (consumed : List Char) :
    Except Fault Position :=
  match lastFeed? consumed with
  | some feed =>
    (sliceFrom consumed (feed + 1)).map fun line =>
      ⟨position.offset + size, position.line + consumed.count '\n', line.length + 1⟩
  | none => .ok ⟨position.offset + size, position.line, position.column + consumed.length⟩

structure Scanner where
  source : List Char
  position : Position := {}
  mode : Tag.TextMode := .data
  /-- The last element whose text is read in a mode of its own. -/
  lastStartTag? : Option String := none
  /-- Inside of a start tag, how the text behind it is read. -/
  inside? : Option Tag.TextMode := none
  /-- An attribute value that was read together with its name. -/
  pending? : Option Token := none
  /-- What was reported since the last token. -/
  problems : List Problem := []
deriving Inhabited

abbrev Scanning := Acting Scanner

namespace Scanner

def ofString (source : String) : Scanner :=
  { source := source.toList }

def startsWith (text : String) : Scanning Bool :=
  return text.toList.isPrefixOf (← get).source

def atEnd : Scanning Bool :=
  return (← get).source.isEmpty

def place : Scanning Position :=
  return (← get).position

def moveBy (size : Nat) : Scanning (List Char) := do
  let scanner ← get
  let (consumed, rest) ← fallible (splitAt scanner.source size)
  let position ← fallible (scanner.position.moveBy size consumed)
  set { scanner with source := rest, position }
  return consumed

/-- Moves over the characters in front that satisfy `p`. -/
def moveWhile (p : Char → Bool) : Scanning (List Char) := do
  moveBy (byteLength ((← get).source.takeWhile p))

def moveToEnd : Scanning (List Char) := do
  moveBy (byteLength (← get).source)

/-- Whether there were blanks. -/
def skipBlanks : Scanning Bool := do
  let length := byteLength ((← get).source.takeWhile isBlank)
  if length = 0 then return false
  else
    let _ ← moveBy length
    return true

/-- Reports what was found between `start` and here. -/
def emit (kind : ProblemKind) (start : Position) : Scanning Unit :=
  modify fun scanner =>
    { scanner with
      problems := scanner.problems ++ [{ kind, span := ⟨start, scanner.position⟩ }] }

def emitIf (found : Bool) (kind : ProblemKind) (start : Position) : Scanning Unit :=
  if found then emit kind start else return ()

def token (kind : TokenKind) (start : Position) : Scanning Token :=
  return ⟨kind, ⟨start, (← get).position⟩⟩

def scanText (size : Nat) (start : Position) : Scanning Token := do
  let raw ← moveBy size
  emitIf (raw.contains '\x00') .unexpectedNullCharacter start
  let phrase : Phrase := { raw := String.ofList raw }
  token (.text (if (← get).mode = .rawText then phrase else phrase.decoded false)) start

def scanInterpolation (delimiters : Delimiters) : Scanning Token := do
  let start ← place
  assert (← startsWith delimiters.opening)
  let _ ← moveBy (byteLength delimiters.opening.toList)
  match findByte? delimiters.closing.toList (← get).source with
  | some length =>
    let content ← moveBy length
    let _ ← moveBy (byteLength delimiters.closing.toList)
    token (.interpolation (String.ofList content)) start
  | none =>
    let content ← moveToEnd
    emit .missingInterpolationEnd start
    token (.interpolation (String.ofList content)) start

def scanAttributeName : Scanning String := do
  let start ← place
  if ← startsWith "=" then
    let name ← moveBy 1
    emit .unexpectedEqualsSignBeforeAttributeName start
    return String.ofList name
  else
    let name ← moveWhile fun c => isNameChar c && c != '='
    emitIf (name.any fun c => c = '<' || c = '"' || c = '\'') .unexpectedCharacterInAttributeName
      start
    return String.ofList name

def atTagEnd : Scanning Bool :=
  return (← atEnd) || (← startsWith "/>") || (← startsWith ">")

def attributeValue (raw : List Char) : TokenKind :=
  .attrValue ((Phrase.mk (String.ofList raw) {}).decoded true)

def afterQuotedValue (raw : List Char) (span : Span) : Scanning Token := do
  let start ← place
  if (← atTagEnd) || (← startsWith "/") then return ⟨attributeValue raw, span⟩
  else
    let blank ← skipBlanks
    emitIf (!blank) .missingWhitespaceBetweenAttributes start
    return ⟨attributeValue raw, span⟩

def scanQuotedValue (quote : Char) : Scanning Token := do
  assert ((← get).source.head? = some quote)
  let _ ← moveBy 1
  let start ← place
  match findByte? [quote] (← get).source with
  | some length =>
    let raw ← moveBy length
    let stop ← place
    let _ ← moveBy 1
    afterQuotedValue raw ⟨start, stop⟩
  | none =>
    let raw ← moveToEnd
    afterQuotedValue raw ⟨start, ← place⟩

def scanUnquotedValue : Scanning Token := do
  let start ← place
  let raw ← moveWhile fun c => !isBlank c && c != '>'
  emitIf (raw.any fun c => c = '"' || c = '\'' || c = '<' || c = '=' || c = '\x60')
    .unexpectedCharacterInUnquotedAttributeValue start
  token (attributeValue raw) start

def scanValue : Scanning (Option Token) := do
  let _ ← skipBlanks
  let start ← place
  if (← startsWith ">") || (← atEnd) then
    emit .missingAttributeValue start
    return none
  else if ← startsWith "\"" then return some (← scanQuotedValue '"')
  else if ← startsWith "'" then return some (← scanQuotedValue '\'')
  else return some (← scanUnquotedValue)

/-- The name of an attribute. Its value, if there is one, is read as well, and handed out next. -/
def scanAttribute : Scanning Token := do
  assert (!(← atEnd))
  let start ← place
  let name ← scanAttributeName
  let named ← token (.attrName name) start
  let _ ← skipBlanks
  if ← startsWith "=" then
    let _ ← moveBy 1
    let value ← scanValue
    modify fun scanner => { scanner with pending? := value }
    return named
  else return named

def tagNameBytes : List Char → Nat
  | [] => 0
  | c :: rest => if c.isAlpha then byteLength (rest.takeWhile isNameChar) + 1 else 0

def atLetter (text : List Char) : Bool :=
  text.head?.any Char.isAlpha

def scanTagName : Scanning String := do
  let source := (← get).source
  assert (atLetter source)
  assert (0 < tagNameBytes source)
  return String.ofList (← moveBy (tagNameBytes source))

def scanStartTag (textMode : String → Tag.TextMode) : Scanning Token := do
  assert (← startsWith "<")
  let start ← place
  let _ ← moveBy 1
  let name ← scanTagName
  let mode := textMode name
  modify fun scanner =>
    { scanner with
      lastStartTag? := if mode = .data then scanner.lastStartTag? else some name
      inside? := some mode }
  token (.tagOpen name) start

/-- Whether there was a solidus. -/
def skipSolidus : Scanning Bool := do
  assert (!(← atEnd))
  if ← startsWith "/" then
    let start ← place
    let _ ← moveBy 1
    emit .unexpectedSolidusInTag start
    return true
  else return false

def leaveTag (selfClosing : Bool) (start : Position) : Scanning Token := do
  modify fun scanner => { scanner with inside? := none }
  token (.tagEnd selfClosing) start

def scanTagEnd? (mode : Tag.TextMode) : Scanning (Option Token) := do
  let start ← place
  if ← atEnd then
    emit .eofInTag start
    return some (← leaveTag false start)
  else if ← startsWith "/>" then
    let _ ← moveBy 2
    return some (← leaveTag true start)
  else if ← startsWith ">" then
    let _ ← moveBy 1
    modify fun scanner => { scanner with mode }
    return some (← leaveTag false start)
  else return none

def inTagStep (mode : Tag.TextMode) : Scanning (Unit ⊕ Token) := do
  let _ ← skipBlanks
  match ← scanTagEnd? mode with
  | some token => return .inr token
  | none => if ← skipSolidus then return .inl () else return .inr (← scanAttribute)

def scanInTag (mode : Tag.TextMode) : Scanning Token :=
  repeatM (fun _ => inTagStep mode) ()

def dropStep (dropped : Bool) : Scanning (Bool ⊕ Bool) := do
  let _ ← skipBlanks
  if ← atTagEnd then return .inr dropped
  else if ← skipSolidus then return .inl dropped
  else
    let _ ← scanAttribute
    modify fun scanner => { scanner with pending? := none }
    return .inl true

/-- Attributes of an end tag are read and dropped; whether there are any. -/
def dropAttributes (dropped : Bool) : Scanning Bool :=
  repeatM dropStep dropped

def closeEndTag (start : Position) : Scanning Unit := do
  if ← atEnd then emit .eofInTag start
  else if ← startsWith "/>" then
    emit .endTagWithTrailingSolidus start
    discard (moveBy 2)
  else discard (moveBy 1)

def scanEndTag : Scanning Token := do
  assert (← startsWith "</")
  let start ← place
  let _ ← moveBy 2
  let name ← scanTagName
  emitIf (← dropAttributes false) .endTagWithAttributes start
  closeEndTag start
  modify fun scanner => { scanner with mode := .data }
  token (.tagClose name) start

def nestedStep (text : List Char) : Scanning (List Char ⊕ List Char) := do
  match findByte? "<!--".toList text with
  | some index =>
    let start ← place
    let _ ← moveBy (index + 4)
    emitIf (!(← atEnd)) .nestedComment start
    return .inl (← fallible (sliceFrom text (index + 4)))
  | none => return .inr text

/-- Reports the further `<!--` in the text of a comment, and moves over the text. -/
def scanNested (text : List Char) : Scanning Unit := do
  let last ← repeatM nestedStep text
  if last.isEmpty then return () else discard (moveBy (byteLength last))

/-- The difference of two numbers of bytes, which may not be negative. -/
def less (first second : Nat) : Except Fault Nat :=
  if second ≤ first then .ok (first - second) else .error .sliceOutOfRange

def scanCommentText : Scanning (List Char) := do
  assert (← startsWith "<!--")
  let start ← place
  let source := (← get).source
  match (findByte? "--!>".toList source).or (findByte? "-->".toList source) with
  | some stop =>
    assert (2 ≤ stop)
    if stop ≤ 3 then
      emit .abruptClosingOfEmptyComment start
      let _ ← moveBy 2
      return []
    else
      let _ ← moveBy 4
      let text ← fallible ((less stop 4).bind (sliceTo (← get).source))
      scanNested text
      return text
  | none =>
    let _ ← moveBy 4
    let text := (← get).source
    scanNested text
    return text

def closeComment (start : Position) : Scanning Unit := do
  if ← atEnd then emit .eofInComment start
  else if ← startsWith "--!>" then
    emit .incorrectlyClosedComment start
    discard (moveBy 4)
  else if ← startsWith "-->" then discard (moveBy 3)
  else
    let source := (← get).source
    discard (moveBy (((findByte? ['>'] source).map (· + 1)).getD (byteLength source)))

def scanComment : Scanning Token := do
  assert (← startsWith "<!--")
  let start ← place
  let text ← scanCommentText
  closeComment start
  token (.comment (String.ofList text)) start

def scanBogusComment : Scanning Token := do
  let start ← place
  let source := (← get).source
  let offset := if "<?".toList.isPrefixOf source then 1 else 2
  match findByte? ['>'] source with
  | some stop =>
    let text ← fallible (slice source offset stop)
    let _ ← moveBy (stop + 1)
    token (.comment (String.ofList text)) start
  | none =>
    let text ← fallible (sliceFrom (← moveToEnd) offset)
    token (.comment (String.ofList text)) start

def scanDeclaration : Scanning Token := do
  let start ← place
  if ← startsWith "<!--" then scanComment
  else if (← startsWith "<!DOCTYPE") || (← startsWith "<!doctype") then scanBogusComment
  else if ← startsWith "<![CDATA[" then
    emit .cdataInHtmlContent start
    scanBogusComment
  else
    emit .incorrectlyOpenedComment start
    scanBogusComment

def scanEndTagOpen : Scanning (Option Token) := do
  assert (← startsWith "</")
  let start ← place
  let source := (← get).source
  if byteLength source = 2 then
    emit .eofBeforeTagName start
    let raw ← moveBy 2
    return some (← token (.text { raw := String.ofList raw }) start)
  else if ← startsWith "</>" then
    emit .missingEndTagName start
    let _ ← moveBy 3
    return none
  else if atLetter (← fallible (sliceFrom source 2)) then return some (← scanEndTag)
  else
    emit .invalidFirstCharacterOfTagName start
    return some (← scanBogusComment)

def scanStrayAngle (kind : ProblemKind) : Scanning Token := do
  let start ← place
  let _ ← moveBy 1
  emit kind start
  token (.text { raw := "<" }) start

def scanTagOpen (textMode : String → Tag.TextMode) : Scanning (Option Token) := do
  let start ← place
  let source := (← get).source
  if ← startsWith "</" then scanEndTagOpen
  else if ← startsWith "<!" then return some (← scanDeclaration)
  else if ← startsWith "<?" then
    emit .unexpectedQuestionMarkInsteadOfTagName start
    return some (← scanBogusComment)
  else if byteLength source = 1 then return some (← scanStrayAngle .eofBeforeTagName)
  else if atLetter (← fallible (sliceFrom source 1)) then return some (← scanStartTag textMode)
  else return some (← scanStrayAngle .invalidFirstCharacterOfTagName)

def earlier : Option Nat → Option Nat → Option Nat
  | some first, some second => some (min first second)
  | first, second => first.or second

variable (option : ScanOption)

def scanData : Scanning (Option Token) := do
  assert ((← get).mode = .data)
  let start ← place
  let source := (← get).source
  let mark := findByte? option.delimiters.opening.toList source
  let index := (earlier (findByte? ['<'] source) mark).getD (byteLength source)
  if index ≠ 0 then return some (← scanText index start)
  else if mark = some 0 then return some (← scanInterpolation option.delimiters)
  else scanTagOpen option.textMode

def endAmong (tag : String) (source : List Char) : List Nat → Except Fault Nat
  | [] => .ok (byteLength source)
  | index :: later =>
    let stop := index + 2 + byteLength tag.toList
    if byteLength source < stop then .ok (byteLength source)
    else
      let isName := match slice source (index + 2) stop with
        | .ok name => sameIgnoringCase (String.ofList name) tag
        | .error _ => false
      (sliceFrom source stop).bind fun behind =>
        if isName && !behind.head?.any isNameChar then .ok index else endAmong tag source later

def findEnd : Scanning Nat := do
  let { source, lastStartTag?, .. } ← get
  match lastStartTag? with
  | some tag => fallible (endAmong tag source (occurrences ['<', '/'] 0 source))
  | none => return byteLength source

def leaveText : Scanning Unit :=
  modify fun scanner => { scanner with mode := .data }

def scanLastText (stop : Nat) (start : Position) : Scanning (Option Token) := do
  if stop = 0 then
    leaveText
    return none
  else
    let text ← scanText stop start
    leaveText
    return some text

def scanRawText : Scanning (Option Token) := do
  assert ((← get).mode = .rawText)
  let start ← place
  scanLastText (← findEnd) start

def scanRcText (start : Position) : Scanning (Option Token) := do
  let stop ← findEnd
  let mark := (findByte? option.delimiters.opening.toList (← get).source).getD stop
  if mark < stop then return some (← scanText mark start)
  else scanLastText stop start

def scanRcData : Scanning (Option Token) := do
  assert ((← get).mode = .rcData)
  let start ← place
  if ← startsWith option.delimiters.opening then
    return some (← scanInterpolation option.delimiters)
  else scanRcText option start

def scanByMode : Scanning (Option Token) := do
  match (← get).mode with
  | .data => scanData option
  | .rcData => scanRcData option
  | .rawText => scanRawText

def contentStep : Scanning (Unit ⊕ Option Token) := do
  if ← atEnd then return .inr none
  else
    match ← scanByMode option with
    | some token => return .inr (some token)
    | none => return .inl ()

def scanContent : Scanning (Option Token) :=
  repeatM (fun _ => contentStep option) ()

def next : Scanning (Option Token) := do
  let scanner ← get
  match scanner.pending?, scanner.inside? with
  | some token, _ =>
    set { scanner with pending? := none }
    return some token
  | none, some mode => return some (← scanInTag mode)
  | none, none => scanContent option

/-- The next token, with what was reported on the way to it. -/
def pull : Scanning (Option Pull) := do
  match ← next option with
  | some token =>
    let problems := (← get).problems
    modify fun scanner => { scanner with problems := [] }
    return some ⟨problems, token⟩
  | none => return none

def call : Nat → Scanning (Option Pull)
  | 0 => pull option
  | count + 1 => do
    let _ ← pull option
    call count

/-- What the call of this number gives on a template, counted from zero. A scanner that went on
forever would give nothing at all. -/
def answer (source : String) (count : Nat) : Option (Except Fault (Option Pull)) :=
  ((call option count).run' (.ofString source)).run

/-- All that is handed out, and how the end was reached. -/
def drain (scanner : Scanner) : Option Scan := do
  match ← ((pull option).run scanner).run with
  | .error fault => return { ending := .error fault }
  | .ok (none, after) => return { ending := .ok after.problems }
  | .ok (some pull, after) =>
    let later ← after |>.drain
    return ⟨pull :: later.pulls, later.ending⟩
partial_fixpoint

end Scanner

end TemplateCompiler
