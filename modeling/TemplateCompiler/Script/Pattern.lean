import TemplateCompiler.Script.Rule

/-! Names, keys and patterns: what declarations, parameters and assignments take values apart to. -/

namespace TemplateCompiler.Script

open Reader

/-- A name that is bound. Where `await` and `yield` are operators they cannot be. -/
def boundName (setting : Setting) : Reader Lexeme := do
  let lexeme ← next
  require (lexeme.isName && !(setting.awaits && lexeme.isWord "await") &&
    !(setting.yields && lexeme.isWord "yield"))
  return lexeme

/-- A key of an object, of a pattern or of a class. -/
inductive Key where
  | word (lexeme : Lexeme)
  | literal
  | computed

def key (grammar : Grammar) (setting : Setting) : Reader Key := do
  let lexeme ← next
  match lexeme.kind with
  | .word => return .word lexeme
  | .string | .number => return .literal
  | _ =>
    require (lexeme.isMark "[")
    let _ ← grammar setting.withIn .assignment
    needMark "]"
    return .computed

def initializer (grammar : Grammar) (setting : Setting) : Reader Bool := do
  if ← takeMark "=" then
    let _ ← grammar setting .assignment
    return true
  else return false

/-- The target of an assignment. A name alone is bound; any other operand stays what it is. -/
def assignedOperand (grammar : Grammar) (setting : Setting) : Reader Unit := do
  match ← trial (grammar setting .operand) with
  | none => fail
  | some reading =>
    let rebind (naming : Naming) : Naming := { naming with role := .binding }
    let isName := reading.value.form == .name
    let _ ← resume
      { reading with namings := if isName then reading.namings.map rebind else reading.namings }

/-- An element of a pattern: a nested pattern, a name, or an operand that is assigned to. Parameters
may be called `this`. -/
def patternElement (grammar : Grammar) (setting : Setting) (use : PatternUse) : Reader Unit := do
  if ← sees fun lexeme => lexeme.isMark "[" || lexeme.isMark "\x7b" then
    let _ ← grammar setting (.pattern use)
  else if use = .assigned then assignedOperand grammar setting
  else if use = .parameter && (← seesWord "this") then note .binding (← next)
  else note .binding (← boundName setting)

/-- An element with its default value. Nothing may follow a rest element. -/
def arrayElement (grammar : Grammar) (setting : Setting) (use : PatternUse) : Reader Bool := do
  if ← takeMark "..." then
    patternElement grammar setting use
    return false
  else
    patternElement grammar setting use
    let _ ← initializer grammar setting.withIn
    return true

/-- A property of a pattern: a name, or a key with the element it is taken apart to. Properties may
follow the rest of an object. -/
def patternProperty (grammar : Grammar) (setting : Setting) (use : PatternUse) : Reader Bool := do
  if ← takeMark "..." then patternElement grammar setting use
  else
    if (← sees (·.kind == .word)) && !(← seesBoth (fun _ => true) (·.isMark ":")) then
      note .binding (← boundName setting)
    else
      let _ ← key grammar setting
      needMark ":"
      patternElement grammar setting use
    let _ ← initializer grammar setting.withIn
  return true

/-- An array or object pattern. Inside an object pattern only names and patterns are assigned to. -/
def pattern (grammar : Grammar) (setting : Setting) (use : PatternUse) : Reader Shape := do
  if ← takeMark "[" then listed "]" true (arrayElement grammar setting use)
  else
    needMark "\x7b"
    let inner := if use = .assigned then .declared else use
    listed "\x7d" false (patternProperty grammar setting inner)
  return {}

/-- A parameter other than the rest. A plain name with a default value is not bound. -/
def parameter (grammar : Grammar) (setting : Setting) : Reader Unit := do
  if ← sees (·.kind == .word) then
    let lexeme ← if ← seesWord "this" then next else boundName setting
    if !(← initializer grammar setting.withIn) then note .binding lexeme
  else
    patternElement grammar setting .parameter
    let _ ← initializer grammar setting.withIn

def parameters (grammar : Grammar) (setting : Setting) : Reader Unit := do
  needMark "("
  listed ")" false do
    if ← takeMark "..." then
      patternElement grammar setting .parameter
      return false
    else
      parameter grammar setting
      return true

end TemplateCompiler.Script
