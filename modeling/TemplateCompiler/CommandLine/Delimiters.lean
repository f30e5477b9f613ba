import TemplateCompiler.Text.Search

/-! The command line gives both delimiters in one argument, with a space between them. -/

namespace TemplateCompiler.CommandLine

/-- Cut at the first space; both sides must have something. -/
def delimiterPair? (argument : String) : Option (String × String) :=
  match Text.cut? [' '] argument.toList with
  | some (opening, closing) =>
    if opening.isEmpty || closing.isEmpty then none
    else some (String.ofList opening, String.ofList closing)
  | none => none

def delimiterMessage : String :=
  "The delimiter argument should be split by one whitespace"

end TemplateCompiler.CommandLine
