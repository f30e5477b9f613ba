/-! The lexemes of script expressions. Places count characters from the start of the text. -/

namespace TemplateCompiler.Script

inductive LexemeKind where
  /-- An identifier or a keyword. -/
  | word
  | number
  | string
  | regex
  /-- The text of a template literal between its quotes and substitutions. -/
  | chunk
  /-- An operator, a bracket, a back quote or the opening of a substitution. -/
  | mark
deriving DecidableEq, Inhabited, Repr

structure Lexeme where
  kind : LexemeKind
  text : String
  start : Nat
  stop : Nat
  /-- A line break comes before it. -/
  afterBreak : Bool := false
deriving DecidableEq, Inhabited, Repr

namespace Lexeme

def isMark (lexeme : Lexeme) (text : String) : Bool :=
  lexeme.kind == .mark && lexeme.text == text

def isWord (lexeme : Lexeme) (text : String) : Bool :=
  lexeme.kind == .word && lexeme.text == text

end Lexeme

def reservedWords : List String :=
  ["await", "break", "case", "catch", "class", "const", "continue", "debugger", "default", "delete",
   "do", "else", "enum", "export", "extends", "false", "finally", "for", "function", "if", "import",
   "in", "instanceof", "new", "null", "return", "super", "switch", "this", "throw", "true", "try",
   "typeof", "var", "void", "while", "with", "yield"]

def isReservedWord (word : String) : Bool :=
  reservedWords.contains word

namespace Lexeme

def isIdentifier (lexeme : Lexeme) : Bool :=
  lexeme.kind == .word && !isReservedWord lexeme.text

/-- A word that may name a variable: `await` and `yield` may, where they are no operators. -/
def isName (lexeme : Lexeme) : Bool :=
  lexeme.isIdentifier || lexeme.isWord "await" || lexeme.isWord "yield"

def startsExpression (lexeme : Lexeme) : Bool :=
  match lexeme.kind with
  | .word =>
    lexeme.isName ||
      ["class", "delete", "false", "function", "import", "new", "null", "super", "this", "throw",
       "true", "typeof", "void"].contains lexeme.text
  | .number | .string | .regex => true
  | .chunk => false
  | .mark =>
    ["!", "(", "[", "\x7b", "++", "--", "~", "+", "-", "...", "\x60"].contains lexeme.text

/-- A line break, a semicolon or a closing brace: a statement may end in front of it. -/
def endsStatement (lexeme : Lexeme) : Bool :=
  lexeme.afterBreak || lexeme.isMark ";" || lexeme.isMark "\x7d"

end Lexeme

end TemplateCompiler.Script
