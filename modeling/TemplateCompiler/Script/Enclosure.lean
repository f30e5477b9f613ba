import TemplateCompiler.Script.Lexeme

/-! What a slash means. It divides behind an operand and begins a regular expression where an
operand is expected, which hangs on the lexeme before it and, behind a closing bracket, on what that
bracket closes. Behind a comparison, an arithmetic operator other than plus and minus, or `??` no
regular expression can begin. -/

namespace TemplateCompiler.Script

/-- What brackets and words have opened. -/
inductive Enclosure where
  /-- The braces of a body or of a block. -/
  | block
  /-- The braces of an object. -/
  | object
  /-- The parentheses behind `if`, `for`, `while` or `with`. -/
  | condition
  /-- Other parentheses. -/
  | group
  /-- A function that is an operand, up to the end of its body. -/
  | function
  | template
  /-- The braces of a substitution in a template literal. -/
  | substitution
deriving DecidableEq, Inhabited, Repr

namespace Enclosure

def isOperand : Enclosure → Bool
  | block | condition => false
  | object | group | function | template | substitution => true

end Enclosure

/-- Where the reader of a text stands. -/
structure LexState where
  expectsOperand : Bool := true
  previous : Option Lexeme := none
  /-- The innermost one first. The text as a whole is like a block. -/
  enclosures : List Enclosure := [.block]
deriving Inhabited

namespace LexState

def innermost? (state : LexState) : Option Enclosure :=
  state.enclosures.head?

/-- Whether a brace, or the word `function`, begins a statement here. -/
def beginsStatement (state : LexState) (afterBreak : Bool) : Bool :=
  match state.previous with
  | none => true
  | some previous =>
    if previous.isMark ":" && state.innermost? = some .block then true
    else if previous.isMark ":" && state.innermost? = some .object then false
    else if previous.isWord "return" || previous.isWord "yield" then afterBreak
    else if previous.isWord "else" || [";", ")", "<", ">", "=>"].any previous.isMark then true
    else if previous.isMark "\x7b" then state.innermost? = some .block
    else !state.expectsOperand

/-- Keywords behind which an operand is expected. -/
def operandWords : List String :=
  ["case", "default", "delete", "do", "else", "extends", "in", "new", "return", "throw", "typeof",
   "void", "yield"]

def operandMarks : List String :=
  ["!", "[", ";", ",", ":", "?", "~", "+", "-", "&&", "||", "=>", "=", "+=", "-=", "*=", "/=", "%=",
   "|=", "&=", "^=", "<<=", ">>=", ">>>="]

def opened (state : LexState) (enclosure : Enclosure) : LexState :=
  { state with enclosures := enclosure :: state.enclosures, expectsOperand := true }

/-- The state behind a closing parenthesis or brace. The body of a function closes the function. -/
def closed (state : LexState) : LexState :=
  match state.enclosures with
  | [] | [_] => { state with expectsOperand := true }
  | .block :: .function :: outer => { state with enclosures := outer, expectsOperand := false }
  | .substitution :: outer =>
    { state with enclosures := outer, expectsOperand := outer.head? != some .template }
  | inner :: outer => { state with enclosures := outer, expectsOperand := !inner.isOperand }

/-- A back quote ends the template literal it stands in, and else begins one. -/
def quoted (state : LexState) : LexState :=
  let enclosures :=
    match state.enclosures with
    | .template :: outer => outer
    | others => .template :: others
  { state with enclosures, expectsOperand := false }

def afterMark (state : LexState) (lexeme : Lexeme) : LexState :=
  if lexeme.isMark ")" || lexeme.isMark "\x7d" then state.closed
  else if lexeme.isMark "\x7b" then
    state.opened (if state.beginsStatement lexeme.afterBreak then .block else .object)
  else if lexeme.isMark "(" then
    let isCondition := state.previous.any fun word => ["if", "for", "while", "with"].any word.isWord
    state.opened (if isCondition then .condition else .group)
  else if lexeme.isMark "$\x7b" then state.opened .substitution
  else if lexeme.isMark "\x60" then state.quoted
  else if lexeme.isMark "++" || lexeme.isMark "--" then state
  else { state with expectsOperand := operandMarks.contains lexeme.text }

/-- A keyword that names a member has no meaning of its own. -/
def afterWord (state : LexState) (lexeme : Lexeme) : LexState :=
  if isReservedWord lexeme.text && state.previous.any (·.isMark ".") then
    { state with expectsOperand := false }
  else if lexeme.isWord "function" then
    let isOperand := state.expectsOperand && !state.beginsStatement lexeme.afterBreak
    { state with
      enclosures := if isOperand then .function :: state.enclosures else state.enclosures
      expectsOperand := false }
  else { state with expectsOperand := operandWords.contains lexeme.text }

def after (state : LexState) (lexeme : Lexeme) : LexState :=
  let moved :=
    match lexeme.kind with
    | .mark => state.afterMark lexeme
    | .word => state.afterWord lexeme
    | _ => { state with expectsOperand := false }
  { moved with previous := some lexeme }

end LexState

end TemplateCompiler.Script
