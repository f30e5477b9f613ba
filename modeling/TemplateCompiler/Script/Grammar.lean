import TemplateCompiler.Script.ParameterGuess

/-! The grammar of script expressions. Each rule is a plain reader that receives the grammar itself
for the parts nested in it; it goes back to the grammar at most twice for each lexeme it takes, so
the number of lexemes bounds the nesting.

A function with an arrow is an operand like any other: `() => a + b` is one function, but
`() => { a } + b` is a sum and `() => { a }.b` a selection. -/

namespace TemplateCompiler.Script

open Reader

def block (grammar : Grammar) (setting : Setting) : Reader Unit := do
  needMark "\x7b"
  repeatWhile do
    if ← seesMark "\x7d" then return false
    let _ ← grammar setting .statement
    return true
  needMark "\x7d"

def functionRest (grammar : Grammar) (setting : Setting) (isAsync isGenerator : Bool) :
    Reader Shape := do
  let inner := setting.within isAsync isGenerator
  parameters grammar inner
  withLabels [] (block grammar inner)
  return { form := .function }

/-- A function behind the word that begins it. Its own name plays no part. -/
def functionTail (grammar : Grammar) (setting : Setting) (isAsync : Bool) : Reader Shape := do
  let isGenerator ← takeMark "*"
  if !(← seesMark "(") then
    let _ ← boundName (setting.within isAsync isGenerator)
  functionRest grammar setting isAsync isGenerator

def arrowBody (grammar : Grammar) (setting : Setting) (isAsync : Bool) : Reader Shape := do
  let inner := { setting with awaits := isAsync || setting.awaits }
  if ← seesMark "\x7b" then forgetLabels (block grammar inner.withIn)
  else
    let _ ← grammar inner .assignment
  return { form := .arrow }

/-- A getter has no parameter and a setter has one. -/
def accessorRest (grammar : Grammar) (setting : Setting) (isSetter : Bool) : Reader Unit := do
  let inner := setting.within false false
  needMark "("
  if isSetter then parameter grammar inner
  needMark ")"
  withLabels [] (block grammar inner)

/-- What ends the key of a class member, so that a word in front of it is the key itself. -/
def endsKey (lexeme : Lexeme) : Bool :=
  [",", "\x7d", ":", "(", "=", ";"].any lexeme.isMark

/-- Takes a word that changes the meaning of the class member behind it. -/
def takeModifier (word : String) : Reader Bool := do
  if ← seesBoth (·.isWord word) (!endsKey ·) then takeWord word else return false

def memberKey (grammar : Grammar) (setting : Setting) : Reader Unit := do
  if ← takeMark "#" then require ((← next).kind == .word)
  else
    let _ ← key grammar setting

def classMember (grammar : Grammar) (setting : Setting) : Reader Unit := do
  let _ ← takeModifier "static"
  let isAsync ← takeModifier "async"
  let isGenerator ← takeMark "*"
  let isPlain := !isAsync && !isGenerator
  let isGetter ← if isPlain then takeModifier "get" else pure false
  let isSetter ← if isPlain && !isGetter then takeModifier "set" else pure false
  memberKey grammar setting
  if isGetter || isSetter then accessorRest grammar setting isSetter
  else
    let _ ← functionRest grammar setting isAsync isGenerator

def classTail (grammar : Grammar) (setting : Setting) : Reader Shape := do
  if ← takeWord "extends" then
    let _ ← grammar setting .operand
  needMark "\x7b"
  repeatWhile do
    if ← seesMark "\x7d" then return false
    if !(← takeMark ";") then classMember grammar setting
    return true
  needMark "\x7d"
  return {}

/-- An item that may be spread: an element of an array or an argument. -/
def spreadable (grammar : Grammar) (setting : Setting) : Reader Bool := do
  let _ ← takeMark "..."
  let _ ← grammar setting.withIn .assignment
  return true

def arguments (grammar : Grammar) (setting : Setting) : Reader Unit := do
  needMark "("
  listed ")" false (spreadable grammar setting)

def template (grammar : Grammar) (setting : Setting) : Reader Shape := do
  needMark "\x60"
  repeatWhile do
    if ← takeIf (·.kind == .chunk) then return true
    else if ← takeMark "$\x7b" then
      let _ ← grammar setting.withIn .expression
      needMark "\x7d"
      return true
    else return false
  needMark "\x60"
  return {}

/-- What may stand behind `get` and `set` for an accessor of an object. -/
def startsAccessor (lexeme : Lexeme) : Bool :=
  lexeme.isName || lexeme.isMark "["

/-- What may stand behind `async` for a method of an object. -/
def startsAsync (lexeme : Lexeme) : Bool :=
  !lexeme.afterBreak && (startsAccessor lexeme || lexeme.isMark "*" || lexeme.kind == .string ||
    lexeme.kind == .number)

/-- A property that has a key in front: a method, a value, a name alone, or a name with the value
that it has by default where the object is a pattern. -/
def keyedProperty (grammar : Grammar) (setting : Setting) : Reader Unit := do
  let name ← key grammar setting
  if ← seesMark "(" then
    let _ ← functionRest grammar setting false false
  else
    match name with
    | .word lexeme =>
      if ← sees fun mark => mark.isMark "," || mark.isMark "\x7d" then note .shorthand lexeme
      else
        require ((← takeMark "=") || (← takeMark ":"))
        let _ ← grammar setting.withIn .assignment
    | _ =>
      needMark ":"
      let _ ← grammar setting.withIn .assignment

def objectProperty (grammar : Grammar) (setting : Setting) : Reader Bool := do
  if ← takeMark "..." then
    let _ ← grammar setting.withIn .assignment
  else if ← seesBoth (fun word => word.isWord "get" || word.isWord "set") startsAccessor then
    let word ← next
    let _ ← key grammar setting
    accessorRest grammar setting (word.isWord "set")
  else if ← seesBoth (·.isWord "async") startsAsync then
    let _ ← next
    let isGenerator ← takeMark "*"
    let _ ← key grammar setting
    let _ ← functionRest grammar setting true isGenerator
  else if ← takeMark "*" then
    let _ ← key grammar setting
    let _ ← functionRest grammar setting false true
  else keyedProperty grammar setting
  return true

/-- What begins with a parenthesis: a function with an arrow, or an expression. In front of a brace
it is neither. Functions with a result type are no part of expressions, so where one is guessed the
whole text is invalid. -/
def grouped (grammar : Grammar) (setting : Setting) : Reader Shape := do
  let behind := (pastGroup (← ahead)).head?
  if behind.any fun mark => mark.isMark "=>" && !mark.afterBreak then
    require setting.arrows
    parameters grammar setting.withIn
    needMark "=>"
    arrowBody grammar setting false
  else
    require !(behind.any (·.isMark "\x7b"))
    if behind.any (·.isMark ":") then
      require (setting.inBranch || setting.inCase)
      if setting.inBranch then require !(← seesGuessedFunction grammar setting.withIn)
    needMark "("
    let inner ← grammar setting.withIn .expression
    needMark ")"
    return { target := inner.target }

def named (grammar : Grammar) (setting : Setting) : Reader Shape := do
  let lexeme ← next
  require lexeme.isName
  if setting.arrows && (← sees fun mark => mark.isMark "=>" && !mark.afterBreak) then
    note .binding lexeme
    needMark "=>"
    arrowBody grammar setting false
  else
    note .reference lexeme
    return { form := .name, target := true }

/-- What begins with `async`: a function, or a name. Where arrows may stand, a name or a parenthesis
behind it begins the parameters of a function. -/
def asyncOperand (grammar : Grammar) (setting : Setting) : Reader Shape := do
  let lexeme ← next
  if ← takeWord "function" then functionTail grammar setting true
  else if setting.arrows && (← sees fun first =>
      first.isIdentifier || first.isWord "yield" || first.isMark "(") then
    if ← seesMark "(" then parameters grammar setting.withIn
    else note .binding (← next)
    needMark "=>"
    arrowBody grammar setting true
  else
    note .reference lexeme
    return { form := .name, target := true }

def imported (grammar : Grammar) (setting : Setting) : Reader Shape := do
  needWord "import"
  if ← takeMark "." then needWord "meta"
  else
    needMark "("
    let _ ← grammar setting.withIn .assignment
    needMark ")"
  return {}

def primary (grammar : Grammar) (setting : Setting) : Reader Shape := do
  if ← takeIf fun lexeme =>
      [LexemeKind.number, .string, .regex].contains lexeme.kind ||
        ["this", "null", "true", "false"].any lexeme.isWord then return {}
  else if ← seesMark "\x60" then template grammar setting
  else if ← seesMark "(" then grouped grammar setting
  else if ← takeMark "[" then
    listed "]" true (spreadable grammar setting)
    return {}
  else if ← takeMark "\x7b" then
    listed "\x7d" false (objectProperty grammar setting)
    return {}
  else if ← takeWord "function" then functionTail grammar setting false
  else if ← takeWord "class" then
    if !(← seesWord "extends") && !(← seesMark "\x7b") then
      let _ ← boundName setting
    classTail grammar setting
  else if ← seesWord "import" then imported grammar setting
  else if ← seesWord "async" then asyncOperand grammar setting
  else named grammar setting

def memberName : Reader Shape := do
  if ← takeMark "#" then
    require ((← next).kind == .word)
    return { target := true }
  else
    require ((← next).kind == .word)
    return { form := .member, target := true }

def index (grammar : Grammar) (setting : Setting) : Reader Shape := do
  needMark "["
  let _ ← grammar setting.withIn .expression
  needMark "]"
  return { form := .member, target := true }

/-- One more selection or tagged template on an expression, or a call if `calls` holds. -/
def selection (grammar : Grammar) (setting : Setting) (calls : Bool) (_ : Shape) :
    Reader (Option Shape) := do
  if ← takeMark "?." then
    if ← seesMark "(" then
      arguments grammar setting
      return some {}
    else if ← seesMark "[" then return some (← index grammar setting)
    else return some (← memberName)
  else if ← takeMark "." then return some (← memberName)
  else if ← seesMark "[" then return some (← index grammar setting)
  else if ← seesMark "\x60" then return some (← template grammar setting)
  else if calls && (← seesMark "(") then
    arguments grammar setting
    return some {}
  else
    require !(← seesTypeArguments fun mark => mark.isMark "\x60" || calls && mark.isMark "(")
    return none

def selections (grammar : Grammar) (setting : Setting) (calls : Bool) (start : Shape) :
    Reader Shape :=
  iterate (selection grammar setting calls) start

def callee (grammar : Grammar) (setting : Setting) : Reader Shape := do
  if ← seesBoth (·.isWord "new") (·.isMark ".") then
    needWord "new"
    needMark "."
    needWord "target"
    selections grammar setting false {}
  else if ← takeWord "new" then
    let _ ← grammar setting .callee
    require !(← seesTypeArguments fun _ => true)
    if ← seesMark "(" then
      arguments grammar setting
      selections grammar setting false {}
    else return {}
  else if ← seesBoth (·.isWord "super") (fun mark => mark.isMark "." || mark.isMark "[") then
    needWord "super"
    selections grammar setting false {}
  else selections grammar setting false (← primary grammar setting)

/-- An operand with its selections and calls. A function with an arrow cannot be called. -/
def operand (grammar : Grammar) (setting : Setting) : Reader Shape := do
  if ← seesBoth (·.isWord "super") (·.isMark "(") then
    needWord "super"
    arguments grammar setting
    selections grammar setting true {}
  else
    let start ← callee grammar setting
    if start.form = .arrow then return start
    require !(← seesTypeArguments (·.isMark "("))
    if ← seesMark "(" then
      arguments grammar setting
      selections grammar setting true {}
    else return start

def unary (grammar : Grammar) (setting : Setting) : Reader Shape := do
  let isOperator (lexeme : Lexeme) : Bool :=
    ["delete", "void", "typeof"].any lexeme.isWord || ["+", "-", "~", "!"].any lexeme.isMark ||
      setting.awaits && lexeme.isWord "await"
  let isStep (lexeme : Lexeme) : Bool := lexeme.isMark "++" || lexeme.isMark "--"
  if ← takeIf isOperator then
    let _ ← grammar setting .unary
    return {}
  else if ← takeIf isStep then
    require (← grammar setting .unary).target
    return {}
  else
    let start ← operand grammar setting
    if ← takeIf fun lexeme => isStep lexeme && !lexeme.afterBreak then
      require start.target
      return {}
    else return start

/-- The operators with two sides. Their ranks do not matter for what is valid. -/
def isBinaryOperator (setting : Setting) (lexeme : Lexeme) : Bool :=
  ["||", "??", "&&", "|", "^", "&", "==", "!=", "===", "!==", "<", ">", "<=", ">=", "<<", "+", "-",
   "*", "/", "%", "**"].any lexeme.isMark ||
    lexeme.isWord "instanceof" || !setting.withoutIn && lexeme.isWord "in"

/-- Takes an operator with two sides. A right shift has two or three angles. -/
def takeBinaryOperator (setting : Setting) : Reader Bool := do
  if ← takeMark ">" then
    if ← takeMark ">" then
      let _ ← takeMark ">"
    return true
  else takeIf (isBinaryOperator setting)

def binary (grammar : Grammar) (setting : Setting) : Reader Shape := do
  iterate (fun _ => do
    if ← takeBinaryOperator setting then
      let _ ← grammar setting .unary
      return some ({} : Shape)
    else return none) (← unary grammar setting)

def conditional (grammar : Grammar) (setting : Setting) : Reader Shape := do
  let test ← binary grammar setting
  if ← takeMark "?" then
    let _ ← grammar { setting.withIn with inBranch := true } .assignment
    needMark ":"
    let _ ← grammar setting .assignment
    return {}
  else return test

def assignmentMarks : List String :=
  ["=", "+=", "-=", "*=", "/=", "%=", "<<=", ">>=", ">>>=", "&=", "|=", "^=", "&&=", "||=", "??="]

def yielded (grammar : Grammar) (setting : Setting) : Reader Shape := do
  needWord "yield"
  if ← sees fun lexeme =>
      !lexeme.endsStatement && (lexeme.isMark "*" || lexeme.startsExpression) then
    let _ ← takeMark "*"
    let _ ← grammar setting .assignment
  return {}

/-- An expression without commas. What stands in front of `=` and cannot be assigned to is read once
more, as a pattern; the lexeme behind the pattern is then taken for the operator, whatever it is. -/
def assignment (grammar : Grammar) (setting : Setting) : Reader Shape := do
  if setting.yields && (← seesWord "yield") then yielded grammar setting
  else
    let arrows ← sees fun lexeme => lexeme.isName || lexeme.isMark "("
    let inner := { setting with arrows }
    match ← trial (conditional grammar inner) with
    | none => fail
    | some reading =>
      let left := reading.value
      let follows (p : Lexeme → Bool) : Bool := reading.rest.lexemes.head?.any p
      if !follows fun mark => assignmentMarks.any mark.isMark then resume reading
      else
        if follows (·.isMark "=") && !left.target then patternElement grammar inner .assigned
        else
          require left.target
          let _ ← resume reading
        let _ ← next
        let _ ← grammar inner .assignment
        return {}

def expression (grammar : Grammar) (setting : Setting) : Reader Shape := do
  let first ← assignment grammar setting
  iterate (fun _ => do
    if ← takeMark "," then
      let _ ← grammar setting .assignment
      return some ({} : Shape)
    else return none) first

end TemplateCompiler.Script
