import TemplateCompiler.Script.Bracket
import TemplateCompiler.Script.Lexer
import TemplateCompiler.Script.Statement
import TemplateCompiler.Text.Search

/-! Script expressions as far as a template needs them: whether a text is one expression, of which
form it is, and where its names stand. -/

namespace TemplateCompiler.Script

/-- A stretch of the text that is a name, and the part the name plays. -/
structure Occurrence where
  start : Nat
  stop : Nat
  role : Role
deriving DecidableEq, Inhabited, Repr

namespace Occurrence

def isShorthand (occurrence : Occurrence) : Bool :=
  occurrence.role == .shorthand

def byteRange (occurrence : Occurrence) (text : String) : Nat × Nat :=
  (Text.byteLength (text.toList.take occurrence.start),
    Text.byteLength (text.toList.take occurrence.stop))

end Occurrence

structure Expression where
  form : Form
  /-- Its names in the order of the text. -/
  occurrences : List Occurrence
deriving DecidableEq, Inhabited, Repr

def occurrencesOf (lexemes : List Lexeme) (namings : List Naming) : List Occurrence :=
  lexemes.filterMap fun lexeme =>
    (namings.find? (·.place = lexeme.start)).map fun naming =>
      { start := lexeme.start, stop := lexeme.stop, role := naming.role }

/-- Whether the lexemes reach from the first to the last character that is not blank, so that no
comment stands outside them. -/
def fills (lexemes : List Lexeme) (text : String) : Bool :=
  match lexemes.head?, lexemes.getLast? with
  | some first, some last => last.stop - first.start = (Text.trim text).length
  | _, _ => false

def parse? (text : String) : Option Expression := do
  guard (bracketsBalanced text)
  let lexemes ← lex? text
  guard (fills lexemes text)
  let reading ← expression (grammarWithin (2 * lexemes.length + 2)) {} { lexemes }
  guard reading.rest.lexemes.isEmpty
  return { form := reading.value.form, occurrences := occurrencesOf lexemes reading.namings }

namespace Expression

def isMember (expression : Expression) : Bool :=
  expression.form = .name || expression.form = .member

def isFunction (expression : Expression) : Bool :=
  expression.form = .function || expression.form = .arrow

/-- The references inside the expression. A name that is the whole expression is none of them. -/
def references (expression : Expression) : List Occurrence :=
  if expression.form = .name then []
  else expression.occurrences.filter (·.role ≠ .binding)

def bindings (expression : Expression) : List Occurrence :=
  expression.occurrences.filter (·.role = .binding)

end Expression

end TemplateCompiler.Script

namespace TemplateCompiler

/-- What reads the scripts in a template. -/
structure ScriptReader where
  parse? : String → Option Script.Expression

namespace ScriptReader

def standard : ScriptReader where
  parse? := Script.parse?

instance : Inhabited ScriptReader := ⟨standard⟩

variable (reader : ScriptReader)

def isValid (text : String) : Bool :=
  (reader.parse? text).isSome

def isMember (text : String) : Bool :=
  (reader.parse? text).any (·.isMember)

def isFunction (text : String) : Bool :=
  (reader.parse? text).any (·.isFunction)

end ScriptReader

end TemplateCompiler
