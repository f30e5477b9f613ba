import TemplateCompiler.Script.Grammar

/-! Statements in the bodies of functions. A semicolon may be left out in front of a closing brace
and behind a line break. -/

namespace TemplateCompiler.Script

open Reader

def statementEnd : Reader Unit := do
  let closed ← takeMark ";"
  require (closed || (← sees (·.endsStatement)))

def declarationAhead : List Lexeme → Bool
  | lexeme :: following :: _ =>
    lexeme.isWord "var" || lexeme.isWord "const" ||
      lexeme.isWord "let" &&
        (following.isName || following.isMark "[" || following.isMark "\x7b")
  | _ => false

/-- A declared variable or pattern: the names it declares, and whether it has a value. -/
structure Declarator where
  names : List String
  isPattern : Bool
  isInitialized : Bool

def declarator (grammar : Grammar) (setting : Setting) : Reader Declarator := do
  let isPattern ← sees fun lexeme => lexeme.isMark "[" || lexeme.isMark "\x7b"
  let (_, namings) ← listen (patternElement grammar setting .declared)
  let isInitialized ← initializer grammar setting
  let names := namings.filterMap fun naming =>
    if naming.role = .binding then some naming.name else none
  return { names, isPattern, isInitialized }

/-- A declaration of variables. No name is declared twice by one `let` or `const`, and none of them
is `let`. -/
def declarators (grammar : Grammar) (setting : Setting) : Reader (Bool × List Declarator) := do
  let word ← next
  let first ← declarator grammar setting
  let declared ← iterate (fun declared => do
    if ← takeMark "," then return some (declared ++ [← declarator grammar setting])
    else return none) [first]
  let names := declared.flatMap (·.names)
  require (word.isWord "var" || names.eraseDups.length = names.length && !names.contains "let")
  return (word.isWord "const", declared)

/-- Patterns and constants need a value. -/
def declaration (grammar : Grammar) (setting : Setting) : Reader Unit := do
  let (isConstant, declared) ← declarators grammar setting
  require (declared.all fun one => one.isInitialized || !one.isPattern && !isConstant)

def bracketed (grammar : Grammar) (setting : Setting) : Reader Unit := do
  needMark "("
  let _ ← grammar setting .expression
  needMark ")"

def loopSource (grammar : Grammar) (setting : Setting) : Reader Bool := do
  if ← takeWord "of" then
    let _ ← grammar setting .assignment
    return true
  else if ← takeWord "in" then
    let _ ← grammar setting .expression
    return true
  else return false

def countingRest (grammar : Grammar) (setting : Setting) : Reader Unit := do
  needMark ";"
  if !(← seesMark ";") then
    let _ ← grammar setting .expression
  needMark ";"
  if !(← seesMark ")") then
    let _ ← grammar setting .expression

/-- The head of a loop behind its opening bracket. A loop that runs through something declares one
variable or pattern without a value, or assigns to a target or an array or object. -/
def loopHead (grammar : Grammar) (setting : Setting) : Reader Unit := do
  let inner := { setting with withoutIn := true }
  let lexemes ← ahead
  if declarationAhead lexemes then
    let (_, declared) ← declarators grammar inner
    if ← loopSource grammar setting then
      require (declared.length = 1 && declared.all (!·.isInitialized))
    else countingRest grammar setting
  else if ← seesMark ";" then countingRest grammar setting
  else
    let left ← grammar inner .expression
    let isLiteral := lexemes.head?.any fun mark => mark.isMark "[" || mark.isMark "\x7b"
    if ← loopSource grammar setting then require (left.target || isLiteral)
    else countingRest grammar setting

def loopBody (grammar : Grammar) (setting : Setting) : Reader Unit := do
  let inner := { setting with breaks := true, continues := true }
  let _ ← forgetLabels (grammar inner .statement)

def caseBody (grammar : Grammar) (setting : Setting) : Reader Unit :=
  repeatWhile do
    if ← sees fun lexeme =>
        lexeme.isWord "case" || lexeme.isWord "default" || lexeme.isMark "\x7d" then
      return false
    let _ ← grammar setting .statement
    return true

def switchBody (grammar : Grammar) (setting : Setting) : Reader Unit := do
  let inner := { setting with breaks := true }
  needMark "\x7b"
  let _ ← iterate (fun hasDefault => do
    if ← takeWord "case" then
      let _ ← grammar { inner with inCase := true } .expression
      needMark ":"
      caseBody grammar inner
      return some hasDefault
    else if ← takeWord "default" then
      require !hasDefault
      needMark ":"
      caseBody grammar inner
      return some true
    else return none) false
  needMark "\x7d"

def tryRest (grammar : Grammar) (setting : Setting) : Reader Unit := do
  block grammar setting
  let caught ← takeWord "catch"
  if caught then
    if ← takeMark "(" then
      patternElement grammar setting .declared
      needMark ")"
    block grammar setting
  let finished ← takeWord "finally"
  if finished then block grammar setting
  require (caught || finished)

/-- The label behind `break` or `continue`, which is a reference to a statement. -/
def jumpLabel : Reader Unit := do
  if ← sees fun lexeme => lexeme.isIdentifier && !lexeme.afterBreak then
    let lexeme ← next
    require ((← labels).contains lexeme.text)
    note .reference lexeme

def keywordStatement (grammar : Grammar) (setting : Setting) (word : String) : Reader Unit := do
  let nested : Reader Unit := do
    let _ ← grammar setting .statement
  if word == "if" then
    bracketed grammar setting
    nested
    if ← takeWord "else" then nested
  else if word == "for" then
    let _ ← takeWord "await"
    needMark "("
    loopHead grammar setting
    needMark ")"
    loopBody grammar setting
  else if word == "while" then
    bracketed grammar setting
    loopBody grammar setting
  else if word == "with" then
    bracketed grammar setting
    nested
  else if word == "do" then
    loopBody grammar setting
    needWord "while"
    bracketed grammar setting
    let _ ← takeMark ";"
  else if word == "switch" then
    bracketed grammar setting
    forgetLabels (switchBody grammar setting)
  else if word == "try" then tryRest grammar setting
  else if word == "return" then
    if ← sees fun lexeme => !lexeme.endsStatement && lexeme.startsExpression then
      let _ ← grammar setting .expression
    statementEnd
  else if word == "throw" then
    require !(← sees (·.endsStatement))
    let _ ← grammar setting .expression
    statementEnd
  else if word == "break" then
    jumpLabel
    statementEnd
    require (setting.breaks || !(← labels).isEmpty)
  else if word == "continue" then
    jumpLabel
    statementEnd
    require setting.continues
  else
    require (word == "debugger")
    statementEnd

def statementWords : List String :=
  ["if", "for", "while", "with", "do", "switch", "try", "return", "throw", "break", "continue",
   "debugger"]

def functionDeclaration (grammar : Grammar) (setting : Setting) (isAsync : Bool) :
    Reader Unit := do
  needWord "function"
  require !((← seesMark "(") || (← seesBoth (·.isMark "*") (·.isMark "(")))
  let _ ← functionTail grammar setting isAsync

/-- A statement with a label of its own. The label stays known to what follows. -/
def labelled (grammar : Grammar) (setting : Setting) : Reader Unit := do
  let label ← next
  needMark ":"
  require !((← labels).contains label.text)
  addLabel label.text
  let _ ← grammar setting .statement

def statement (grammar : Grammar) (setting : Setting) : Reader Unit := do
  let lexemes ← ahead
  match lexemes with
  | [] => fail
  | lexeme :: _ =>
    if lexeme.isMark "\x7b" then block grammar setting
    else if lexeme.isMark ";" then needMark ";"
    else if declarationAhead lexemes then
      declaration grammar setting
      statementEnd
    else if lexeme.kind == .word && statementWords.contains lexeme.text then
      let _ ← next
      keywordStatement grammar setting lexeme.text
    else if lexeme.isWord "function" then functionDeclaration grammar setting false
    else if ← seesBoth (·.isWord "async") (fun word => word.isWord "function" && !word.afterBreak)
    then
      needWord "async"
      functionDeclaration grammar setting true
    else if lexeme.isWord "class" then
      let _ ← next
      let _ ← boundName setting
      let _ ← classTail grammar setting
    else if ← seesBoth (·.isName) (·.isMark ":") then labelled grammar setting
    else
      let _ ← grammar setting .expression
      statementEnd

/-- The grammar with parts nested at most so deep. -/
def grammarWithin : Nat → Grammar
  | 0 => fun _ _ => fail
  | depth + 1 => fun setting rule =>
    let inner := grammarWithin depth
    match rule with
    | .expression => expression inner setting
    | .assignment => assignment inner setting
    | .unary => unary inner setting
    | .operand => operand inner setting
    | .callee => callee inner setting
    | .pattern use => pattern inner setting use
    | .statement => do
      statement inner setting
      return {}

end TemplateCompiler.Script
