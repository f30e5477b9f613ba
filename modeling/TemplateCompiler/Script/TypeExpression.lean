import TemplateCompiler.Script.Reader

/-! Types, as dialects with type annotations write them. An expression has none, but where angle
brackets could hold the type arguments of a call, or a colon could give the result type of a
function, they are taken for just that. So `a < b > (c)` is a call with type arguments, not two
comparisons. -/

namespace TemplateCompiler.Script

open Reader

def typeList (type : Reader Unit) (closing : String) : Reader Unit :=
  listed closing false do
    type
    return true

def typeName (type : Reader Unit) : Reader Unit := do
  require (← next).isName
  repeatWhile do
    if ← takeMark "." then
      require ((← next).kind == .word)
      return true
    else return false
  if ← takeMark "<" then typeList type ">"

def typeOperand (type : Reader Unit) : Reader Unit := do
  if ← takeIf fun lexeme => lexeme.kind == .number || lexeme.kind == .string then return
  else if ← takeIf fun lexeme =>
    ["true", "false", "null", "this", "void"].any lexeme.isWord then return
  else if ← takeMark "-" then require ((← next).kind == .number)
  else if ← takeWord "typeof" then typeName type
  else if ← takeMark "[" then typeList type "]"
  else if ← takeMark "(" then
    type
    needMark ")"
  else if ← seesMark "\x7b" then skipTo (pastGroup (← ahead))
  else typeName type

/-- An operand with the brackets of array and member types behind it. -/
def typeSelection (type : Reader Unit) : Reader Unit := do
  typeOperand type
  repeatWhile do
    if ← takeMark "[" then
      if !(← takeMark "]") then
        type
        needMark "]"
      return true
    else return false

def isTypeOperator (lexeme : Lexeme) : Bool :=
  lexeme.isMark "|" || lexeme.isMark "&"

/-- A type with types nested at most so deep: a function type, or types joined by operators. -/
def typeWithin : Nat → Reader Unit
  | 0 => fail
  | depth + 1 => do
    let lexemes ← ahead
    if lexemes.head?.any (·.isMark "(") && (pastGroup lexemes).head?.any (·.isMark "=>") then
      skipTo (pastGroup lexemes)
      needMark "=>"
      typeWithin depth
    else
      let _ ← takeIf isTypeOperator
      typeSelection (typeWithin depth)
      repeatWhile do
        if ← takeIf isTypeOperator then
          typeSelection (typeWithin depth)
          return true
        else return false

def typeExpression : Reader Unit :=
  fun stream => typeWithin (stream.lexemes.length + 1) stream

def typeArguments : Reader Unit := do
  needMark "<"
  typeList typeExpression ">"

def seesTypeArguments (p : Lexeme → Bool) : Reader Bool := do
  match ← trial typeArguments with
  | some reading => return reading.rest.lexemes.head?.any p
  | none => return false

end TemplateCompiler.Script
