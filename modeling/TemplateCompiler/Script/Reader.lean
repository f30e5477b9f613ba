import TemplateCompiler.Script.Lexeme

/-! Readers take lexemes from the front of a list, may give up, and remember which part the names
they meet play. Only the place of a name is remembered, so the order in which a reader meets names
does not matter. -/

namespace TemplateCompiler.Script

/-- The part a name plays in an expression. -/
inductive Role where
  | reference
  /-- A property written as its name alone, `{ a }`. -/
  | shorthand
  | binding
deriving DecidableEq, Inhabited, Repr

/-- The name that begins at the character `place` plays the part `role`. -/
structure Naming where
  place : Nat
  name : String
  role : Role
deriving DecidableEq, Inhabited, Repr

/-- What is left to read, and the labels that statements before it have. -/
structure Stream where
  lexemes : List Lexeme
  labels : List String := []
deriving Inhabited

structure Reading (α : Type) where
  value : α
  namings : List Naming
  rest : Stream

def Reader (α : Type) : Type :=
  Stream → Option (Reading α)

namespace Reader

variable {α β σ : Type}

instance : Monad Reader where
  pure value := fun stream => some { value, namings := [], rest := stream }
  bind reader next := fun stream => do
    let first ← reader stream
    let second ← next first.value first.rest
    return { second with namings := first.namings ++ second.namings }

def fail : Reader α :=
  fun _ => none

def require (condition : Bool) : Reader Unit :=
  if condition then pure () else fail

/-- The lexemes that are left, none of them taken. -/
def ahead : Reader (List Lexeme) :=
  fun stream => some { value := stream.lexemes, namings := [], rest := stream }

def next : Reader Lexeme :=
  fun stream =>
    match stream.lexemes with
    | [] => none
    | lexeme :: lexemes =>
      some { value := lexeme, namings := [], rest := { stream with lexemes } }

/-- Passes over everything in front of `lexemes`. -/
def skipTo (lexemes : List Lexeme) : Reader Unit :=
  fun stream => some { value := (), namings := [], rest := { stream with lexemes } }

def note (role : Role) (lexeme : Lexeme) : Reader Unit :=
  fun stream =>
    some { value := (), namings := [⟨lexeme.start, lexeme.text, role⟩], rest := stream }

/-- What a reader would leave behind; nothing is taken. -/
def trial (reader : Reader α) : Reader (Option (Reading α)) :=
  fun stream => some { value := reader stream, namings := [], rest := stream }

/-- Goes on from what a trial has left behind. -/
def resume (reading : Reading α) : Reader α :=
  fun _ => some reading

def listen (reader : Reader α) : Reader (α × List Naming) :=
  fun stream => (reader stream).map fun reading =>
    { reading with value := (reading.value, reading.namings) }

def labels : Reader (List String) :=
  fun stream => some { value := stream.labels, namings := [], rest := stream }

def addLabel (label : String) : Reader Unit :=
  fun stream =>
    some { value := (), namings := [], rest := { stream with labels := label :: stream.labels } }

/-- Reads with other labels, which are forgotten afterwards. -/
def withLabels (labels : List String) (reader : Reader α) : Reader α :=
  fun stream => (reader { stream with labels }).map fun reading =>
    { reading with rest.labels := stream.labels }

def forgetLabels (reader : Reader α) : Reader α := do
  withLabels (← labels) reader

def sees (p : Lexeme → Bool) : Reader Bool := do
  return (← ahead).head?.any p

/-- Whether the two lexemes in front satisfy `p` and `q`; they stay. -/
def seesBoth (p q : Lexeme → Bool) : Reader Bool := do
  match ← ahead with
  | first :: second :: _ => return p first && q second
  | _ => return false

def seesMark (text : String) : Reader Bool :=
  sees (·.isMark text)

def seesWord (text : String) : Reader Bool :=
  sees (·.isWord text)

def takeIf (p : Lexeme → Bool) : Reader Bool := do
  if ← sees p then
    let _ ← next
    return true
  else return false

def takeMark (text : String) : Reader Bool :=
  takeIf (·.isMark text)

def takeWord (text : String) : Reader Bool :=
  takeIf (·.isWord text)

def needMark (text : String) : Reader Unit := do
  require (← takeMark text)

def needWord (text : String) : Reader Unit := do
  require (← takeWord text)

def iterateAtMost (step : σ → Reader (Option σ)) : Nat → σ → Reader σ
  | 0, _ => fail
  | bound + 1, state => do
    match ← step state with
    | some changed => iterateAtMost step bound changed
    | none => return state

/-- Repeats a step that takes a lexeme each time it goes on. -/
def iterate (step : σ → Reader (Option σ)) (state : σ) : Reader σ :=
  fun stream => iterateAtMost step (stream.lexemes.length + 1) state stream

/-- Repeats a reader that takes a lexeme each time and tells whether to go on. -/
def repeatWhile (step : Reader Bool) : Reader Unit :=
  iterate (fun _ => do return if ← step then some () else none) ()

/-- Items up to the closing mark, with commas between them. A comma may stand in front of the
closing mark, and items may be left out if `gaps` holds. An item tells whether anything may follow
it. -/
def listed (closing : String) (gaps : Bool) (item : Reader Bool) : Reader Unit := do
  repeatWhile do
    if ← seesMark closing then return false
    if ← seesMark "," then
      require gaps
      needMark ","
      return true
    let more ← item
    if !more || (← seesMark closing) then return false
    needMark ","
    return true
  needMark closing

end Reader

def Lexeme.opensGroup (lexeme : Lexeme) : Bool :=
  ["(", "[", "\x7b", "$\x7b"].any lexeme.isMark

def Lexeme.closesGroup (lexeme : Lexeme) : Bool :=
  [")", "]", "\x7d"].any lexeme.isMark

def pastGroups : Nat → List Lexeme → List Lexeme
  | _, [] => []
  | depth, lexeme :: rest =>
    if lexeme.opensGroup then pastGroups (depth + 1) rest
    else if lexeme.closesGroup then
      if depth ≤ 1 then rest else pastGroups (depth - 1) rest
    else pastGroups depth rest

def pastGroup (lexemes : List Lexeme) : List Lexeme :=
  pastGroups 0 lexemes

end TemplateCompiler.Script
