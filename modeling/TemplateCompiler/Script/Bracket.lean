/-! Whether the brackets of an expression pair up. Strings and comments do not count, and a template
literal is passed over as a whole, up to its next back quote. -/

namespace TemplateCompiler.Script

/-- What the reader is inside of. -/
inductive BracketMode where
  | code
  | string (quote : Char)
  | escaped (quote : Char)
  | lineComment
  | blockComment (afterStar : Bool)

def openingOf? (c : Char) : Option Char :=
  if c = ')' then some '(' else if c = ']' then some '[' else if c = '}' then some '{' else none

def isOpening (c : Char) : Bool :=
  c = '(' || c = '[' || c = '{'

def isQuote (c : Char) : Bool :=
  c = '"' || c = '\'' || c = '\x60'

def balancedFrom : BracketMode → List Char → List Char → Bool
  | _, stack, [] => stack.isEmpty
  | .code, stack, '/' :: '/' :: rest => balancedFrom .lineComment stack rest
  | .code, stack, '/' :: '*' :: rest => balancedFrom (.blockComment false) stack rest
  | .code, stack, c :: rest =>
    if isOpening c then balancedFrom .code (c :: stack) rest
    else if isQuote c then balancedFrom (.string c) stack rest
    else
      match openingOf? c with
      | some opening => stack.head? == some opening && balancedFrom .code stack.tail rest
      | none => balancedFrom .code stack rest
  | .string quote, stack, c :: rest =>
    if c = '\\' then balancedFrom (.escaped quote) stack rest
    else if c = quote then balancedFrom .code stack rest
    else balancedFrom (.string quote) stack rest
  | .escaped quote, stack, _ :: rest => balancedFrom (.string quote) stack rest
  | .lineComment, stack, c :: rest =>
    if c = '\n' then balancedFrom .code stack rest else balancedFrom .lineComment stack rest
  | .blockComment afterStar, stack, c :: rest =>
    if afterStar && c = '/' then balancedFrom .code stack rest
    else balancedFrom (.blockComment (c = '*')) stack rest

def bracketsBalanced (text : String) : Bool :=
  balancedFrom .code [] text.toList

end TemplateCompiler.Script
