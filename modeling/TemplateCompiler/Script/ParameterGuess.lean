import TemplateCompiler.Script.Pattern
import TemplateCompiler.Script.TypeExpression

/-! Guessing parameters. A colon behind a group in the middle of a conditional could also give the
result type of a function with the group as its parameters. The guess is generous: what cannot be a
parameter is passed over, and the first closing parenthesis outside of patterns, types and default
values ends the parameters, be it the one of the group or not. An arrow behind them, or behind a
result type, makes the guess true. So `(() => a)` is guessed to be a function with the parameters
`(()`, while `(a => b)` is not guessed to be one. -/

namespace TemplateCompiler.Script

open Reader

/-- Passes over the lexeme in front unless it satisfies `stays`. -/
def passUnless (stays : Lexeme → Bool) : Reader Unit := do
  let _ ← takeIf (!stays ·)

def guessEnds (closing : String) : Reader Bool := do
  return (← ahead).isEmpty || (← seesMark closing)

def guessedElement (grammar : Grammar) (setting : Setting) (pattern : Reader Bool) :
    Reader Bool := do
  let isPattern ← pattern
  let hasDefault ← initializer grammar setting.withIn
  return isPattern || hasDefault

def guessedArray (grammar : Grammar) (setting : Setting) (pattern : Reader Bool) :
    Reader Unit := do
  needMark "["
  repeatWhile do
    if ← guessEnds "]" then return false
    if ← takeMark "," then return true
    if ← takeMark "..." then
      let _ ← pattern
      return false
    if !(← guessedElement grammar setting pattern) then
      passUnless fun lexeme => lexeme.isName || [":", "=", "]"].any lexeme.isMark
    if !(← seesMark "]") then
      let _ ← takeMark ","
    return true
  let _ ← takeMark "]"

/-- A key, or the lexeme in front if no key can be read. -/
def guessedKey (grammar : Grammar) (setting : Setting) : Reader Unit := do
  match ← trial (key grammar setting) with
  | some reading =>
    let _ ← resume reading
  | none =>
    let _ ← next

def guessedProperty (grammar : Grammar) (setting : Setting) (pattern : Reader Bool) :
    Reader Bool := do
  if ← takeMark "..." then
    let _ ← pattern
    return true
  else if (← seesBoth (·.kind == .word) (·.isMark ":")) || (← sees fun lexeme =>
      lexeme.kind == .string || lexeme.kind == .number || lexeme.isMark "[") then
    guessedKey grammar setting
    let isKey ← takeMark ":"
    if isKey then
      let _ ← guessedElement grammar setting pattern
    return isKey
  else if ← takeIf (·.isName) then
    let _ ← initializer grammar setting.withIn
    return true
  else
    passUnless fun lexeme => lexeme.opensGroup || lexeme.closesGroup || lexeme.isWord "var"
    return false

def guessedObject (grammar : Grammar) (setting : Setting) (pattern : Reader Bool) :
    Reader Unit := do
  needMark "\x7b"
  let _ ← iterate (fun isFirst => do
    if ← guessEnds "\x7d" then return none
    if !isFirst then
      let _ ← takeMark ","
      if ← seesMark "\x7d" then return none
    if !(← guessedProperty grammar setting pattern) then
      passUnless fun lexeme => lexeme.isName || lexeme.isMark ":" || lexeme.isMark "\x7d"
    return some false) true
  let _ ← takeMark "\x7d"

/-- Whether a pattern is in front, with patterns nested at most so deep. What is none is passed
over. -/
def guessedPattern (grammar : Grammar) (setting : Setting) : Nat → Reader Bool
  | 0 => fail
  | depth + 1 => do
    let nested := guessedPattern grammar setting depth
    if ← seesMark "[" then
      guessedArray grammar setting nested
      return true
    else if ← seesMark "\x7b" then
      guessedObject grammar setting nested
      return true
    else if ← takeIf fun lexeme => lexeme.isName || lexeme.isWord "this" then return true
    else
      passUnless fun lexeme => [":", "=", ")"].any lexeme.isMark
      return false

def guessedType : Reader Unit := do
  match ← trial typeExpression with
  | some reading => resume reading
  | none => return

/-- A parameter other than the rest, with its type and its default value. -/
def guessedParameter (grammar : Grammar) (setting : Setting) (pattern : Reader Bool) :
    Reader Unit := do
  if ← pattern then
    let _ ← takeMark "?"
    if ← takeMark ":" then guessedType
    let _ ← initializer grammar setting.withIn
  else
    passUnless fun lexeme => lexeme.isName ||
      [",", "[", "...", ")", "\x7b", "\x7d"].any lexeme.isMark

/-- Parameters, up to the first closing parenthesis. -/
def guessedParameters (grammar : Grammar) (setting : Setting) : Reader Unit := do
  let pattern := guessedPattern grammar setting ((← ahead).length + 1)
  needMark "("
  let _ ← iterate (fun isFirst => do
    if ← guessEnds ")" then return none
    if !isFirst then
      let _ ← takeMark ","
      if ← seesMark ")" then return none
    if ← takeMark "..." then
      let _ ← pattern
      return none
    guessedParameter grammar setting pattern
    return some false) true
  let _ ← takeMark ")"

/-- Whether the group in front is guessed to be the parameters of a function. -/
def seesGuessedFunction (grammar : Grammar) (setting : Setting) : Reader Bool := do
  let head : Reader Unit := do
    guessedParameters grammar setting
    if ← takeMark ":" then typeExpression
    needMark "=>"
  return (← trial head).isSome

end TemplateCompiler.Script
