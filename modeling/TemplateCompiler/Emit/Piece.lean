import TemplateCompiler.Render.Helper
import TemplateCompiler.Source.Position

/-! Generated code as a list of pieces. Line breaks and indentation are pieces of their own, so that
what is written does not depend on where it is written. -/

namespace TemplateCompiler

inductive Piece where
  | text (text : String)
  /-- The name of a helper; it has to be imported. -/
  | helper (helper : Helper)
  | newline
  /-- A new line, one level deeper. -/
  | indent
  /-- A new line, one level less deep. -/
  | dedent
  /-- One level less deep from the next line on. -/
  | outdent
  /-- What follows renders this part of the template. -/
  | mark (span : Span)
deriving DecidableEq, Inhabited, Repr

abbrev Pieces := List Piece

namespace Pieces

/-- The helpers that the code uses. -/
def helpers (pieces : Pieces) : HelperSet :=
  .ofList (pieces.filterMap fun
    | .helper helper => some helper
    | _ => none)

def join (separator : String) (parts : List Pieces) : Pieces :=
  (parts.intersperse [.text separator]).flatten

def arguments (filler : String) (parts : List (Option Pieces)) : Pieces :=
  let present := (parts.reverse.dropWhile Option.isNone).reverse
  join ", " (present.map fun part => part.getD [.text filler])

end Pieces

end TemplateCompiler
