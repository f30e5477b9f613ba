import TemplateCompiler.Markup.Tag
import TemplateCompiler.Problem
import TemplateCompiler.Text.Phrase

/-! The tokens of a template. A start tag is a `tagOpen`, then attribute names each with its value
if there is one, then a `tagEnd`; an end tag is one token. -/

namespace TemplateCompiler

inductive TokenKind where
  | tagOpen (name : String)
  | attrName (name : String)
  /-- A value without its quotes. -/
  | attrValue (value : Phrase)
  /-- The `>` or `/>` of a start tag. -/
  | tagEnd (selfClosing : Bool)
  | tagClose (name : String)
  | text (text : Phrase)
  /-- What stands between the delimiters. -/
  | interpolation (source : String)
  | comment (source : String)
deriving DecidableEq, Inhabited, Repr

structure Token where
  kind : TokenKind
  span : Span
deriving DecidableEq, Inhabited, Repr

/-- One token, with the problems found on the way to it. -/
structure Pull where
  problems : List Problem := []
  token : Token
deriving DecidableEq, Inhabited, Repr

/-- All that reading a template gives: the tokens, and how the end was reached. The problems of
`ending` lie behind the last token. -/
structure Scan where
  pulls : List Pull := []
  ending : Except Fault (List Problem) := .ok []

namespace Scan

def tokens (scan : Scan) : List Token :=
  scan.pulls.map (·.token)

def problems (scan : Scan) : List Problem :=
  scan.pulls.flatMap (·.problems) ++
    match scan.ending with
    | .ok found => found
    | .error _ => []

/-- The scan of which only the first `count` tokens are asked for: what lies behind is not met. -/
def take (scan : Scan) (count : Nat) : Scan :=
  if count ≤ scan.pulls.length then ⟨scan.pulls.take count, .ok []⟩ else scan

/-- The scan without its first `count` tokens; their problems come with what follows. -/
def drop (scan : Scan) (count : Nat) : Scan :=
  let skipped := (scan.pulls.take count).flatMap (·.problems)
  match scan.pulls.drop count with
  | [] => ⟨[], scan.ending.map (skipped ++ ·)⟩
  | first :: rest => ⟨{ first with problems := skipped ++ first.problems } :: rest, scan.ending⟩

end Scan

/-- The marks around an interpolation; neither may be empty, or it would match everywhere. -/
structure Delimiters where
  opening : String
  closing : String
  opening_ne : opening ≠ ""
  closing_ne : closing ≠ ""

namespace Delimiters

def standard : Delimiters :=
  ⟨"\x7b\x7b", "\x7d\x7d", by decide, by decide⟩

instance : Inhabited Delimiters := ⟨standard⟩

/-- The given pair, or double braces if one of the two is empty. -/
def ofPair (opening closing : String) : Delimiters :=
  if h : opening ≠ "" ∧ closing ≠ "" then ⟨opening, closing, h.1, h.2⟩ else standard

end Delimiters

structure ScanOption where
  delimiters : Delimiters := .standard
  textMode : String → Tag.TextMode := Tag.textMode

end TemplateCompiler
