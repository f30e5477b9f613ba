import TemplateCompiler.Report.Document
import TemplateCompiler.Report.Scalar

/-! Documents as YAML in block style, indented by two. Lists are not indented under their key, and a
variant is a tag in front of its value. A variant right inside of another one cannot be written, for
there is but one tag. -/

namespace TemplateCompiler.Yaml

/-- What a value is written behind. -/
inductive Place where
  | root
  /-- The key of a record. -/
  | key
  /-- The dash of a list item. -/
  | dash
deriving DecidableEq, Inhabited, Repr

namespace Place

def listIndent (place : Place) (indent : Nat) : Nat :=
  match place with
  | root | key => indent
  | dash => indent + 2

def recordIndent (place : Place) (indent : Nat) : Nat :=
  match place with
  | root => indent
  | key | dash => indent + 2

end Place

/-- What stands in front of a value on the same line. -/
def lead (place : Place) (tag : Option String) : String :=
  let name := (tag.map fun name => "!" ++ name).toList
  match place with
  | .root => " ".intercalate name ++ (if tag.isSome then " " else "")
  | _ => " " ++ String.join (name.map (· ++ " "))

/-- The lines of a list or record. The first one goes on the line of a dash, unless a tag is in the
way. -/
def block (place : Place) (tag : Option String) (indent : Nat) (lines : List String) : String :=
  let indented := lines.map fun line => indentation indent ++ line
  match place, tag with
  | .root, none => String.join indented
  | .root, some name => "!" ++ name ++ "\n" ++ String.join indented
  | .key, none => "\n" ++ String.join indented
  | .dash, none => " " ++ lines.headD "" ++ String.join indented.tail
  | _, some name => " !" ++ name ++ "\n" ++ String.join indented

mutual

def write (indent : Nat) (place : Place) (tag : Option String) : Document → Option String
  | .null => some (lead place tag ++ "null\n")
  | .bool value => some (lead place tag ++ (if value then "true\n" else "false\n"))
  | .number value => some (lead place tag ++ toString value ++ "\n")
  | .text value => some (lead place tag ++ scalar (indent + 2) value)
  | .list [] => some (lead place tag ++ "[]\n")
  | .list items => do
    let inner := place.listIndent indent
    return block place tag inner (← writeItems inner items)
  | .record fields => do
    let inner := place.recordIndent indent
    return block place tag inner (← writeFields inner fields)
  | .variant name value =>
    match tag with
    | none => write indent place (some name) value
    | some _ => none

def writeItems (indent : Nat) : List Document → Option (List String)
  | [] => some []
  | item :: rest => do
    let first ← write indent .dash none item
    return ("-" ++ first) :: (← writeItems indent rest)

def writeFields (indent : Nat) : List (String × Document) → Option (List String)
  | [] => some []
  | (name, value) :: rest => do
    let first ← write indent .key none value
    return (name ++ ":" ++ first) :: (← writeFields indent rest)

end

def render (document : Document) : Option String :=
  write 0 .root none document

end TemplateCompiler.Yaml
