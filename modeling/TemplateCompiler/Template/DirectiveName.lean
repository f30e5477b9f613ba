import TemplateCompiler.Template.Property
import TemplateCompiler.Text.Search

/-! The attribute names that are directives: `v-name:argument.modifier`, and the short forms with a
colon, dot, at sign or number sign in front. -/

namespace TemplateCompiler

/-- A directive's name, argument and modifiers, as an attribute name spells them. -/
structure DirectiveName where
  name : String
  argument : Option Argument := none
  modifiers : List String := []
deriving DecidableEq, Inhabited, Repr

namespace DirectiveName

def isDirective (name : String) : Bool :=
  match name.toList with
  | 'v' :: '-' :: rest =>
    match rest with
    | [] => false
    | c :: _ => c.isAlphanum || c = '-' || c = ':'
  | c :: _ => c = ':' || c = '.' || c = '@' || c = '#'
  | [] => false

/-- An argument, the text of the modifiers behind it, and what was wrong. -/
structure ReadArgument where
  argument : Option Argument := none
  modifiers : Option (List Char) := none
  problems : List ProblemKind := []

/-- What follows a dynamic argument behind its closing bracket. -/
def afterBracket (argument : Argument) (rest : List Char) : ReadArgument :=
  match rest with
  | [] => { argument }
  | '.' :: modifiers => { argument, modifiers }
  | rest =>
    { argument
      modifiers := (Text.cut? ['.'] rest).map (·.2)
      problems := [.unexpectedContentAfterDynamicDirective] }

/-- The argument at the start of `text`, which follows the colon. -/
def readArgument (text : List Char) : ReadArgument :=
  match text with
  | '[' :: inside =>
    match Text.cut? [']'] inside with
    | some (name, rest) => afterBracket (.dynamic (String.ofList name)) rest
    | none =>
      { argument := some (.dynamic (String.ofList inside))
        problems := [.missingDynamicDirectiveArgumentEnd] }
  | text =>
    let name := text.takeWhile (· != '.')
    let modifiers := (Text.cut? ['.'] text).map (·.2)
    if name.isEmpty then { modifiers, problems := [.missingDirectiveArg] }
    else { argument := some (.static (String.ofList name)), modifiers }

/-- The modifiers between dots; an empty one is reported and dropped. -/
def readModifiers (text : List Char) : List String × List ProblemKind :=
  let parts := Text.pieces '.' text
  ((parts.filter (!·.isEmpty)).map String.ofList,
    (parts.filter (·.isEmpty)).map fun _ => .missingDirectiveMod)

def assemble (name : String) (leading : List String) (read : ReadArgument) :
    DirectiveName × List ProblemKind :=
  match read.modifiers with
  | none => ({ name, argument := read.argument, modifiers := leading }, read.problems)
  | some text =>
    let (modifiers, problems) := readModifiers text
    ({ name, argument := read.argument, modifiers := leading ++ modifiers },
      read.problems ++ problems)

/-- The argument of a short form; a second colon is passed over. -/
def readShortArgument (text : List Char) : ReadArgument :=
  match text with
  | ':' :: rest => readArgument rest
  | rest => readArgument rest

/-- What follows the name in the long form. -/
def readLongArgument (text : List Char) : ReadArgument :=
  match text with
  | ':' :: rest => readArgument rest
  | '.' :: rest => { modifiers := some rest }
  | _ => {}

/-- Read an attribute name that `isDirective` accepts. Without a result it is a plain attribute. -/
def parse (name : String) : Option DirectiveName × List ProblemKind :=
  match name.toList with
  | 'v' :: '-' :: rest =>
    let own := rest.takeWhile fun c => c != ':' && c != '.'
    if own.isEmpty then (none, [.missingDirectiveName])
    else
      let (read, problems) :=
        assemble (String.ofList own) [] (readLongArgument (rest.drop own.length))
      (some read, problems)
  | c :: rest =>
    let own := if c = ':' || c = '.' then "bind" else if c = '@' then "on" else "slot"
    let leading := if c = '.' then ["prop"] else []
    let (read, problems) := assemble own leading (readShortArgument rest)
    (some read, problems)
  | [] => (none, [])

end DirectiveName

end TemplateCompiler
