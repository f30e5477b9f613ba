import TemplateCompiler.Emit.Piece

/-! Sections of generated code. A section counts its places from its own beginning, and they are moved
when it is put behind another one. So what is written first may come later in the code. -/

namespace TemplateCompiler

/-- A place in generated code, and the part of the template it renders. Lines and columns are
counted from one. -/
structure Mapping where
  line : Nat
  column : Nat
  source : Span
deriving DecidableEq, Inhabited, Repr

/-- The same place when what it belongs to begins at another line and column, these counted from
zero. Columns change in the first line only. -/
def Mapping.moved (line column : Nat) (mapping : Mapping) : Mapping :=
  { mapping with
    line := mapping.line + line
    column := if mapping.line = 1 then mapping.column + column else mapping.column }

structure Section where
  code : String := ""
  /-- Where the next character goes, from zero. -/
  line : Nat := 0
  column : Nat := 0
  helpers : HelperSet := .empty
  mappings : List Mapping := []
deriving Inhabited, Repr

namespace Section

def write (part : Section) (text : String) : Section :=
  let place := text.toList.foldl
    (fun (place : Nat × Nat) c => if c = '\n' then (place.1 + 1, 0) else (place.1, place.2 + 1))
    (part.line, part.column)
  { part with code := part.code ++ text, line := place.1, column := place.2 }

def append (former latter : Section) : Section :=
  { former with
    mappings := former.mappings ++ latter.mappings.map (Mapping.moved former.line former.column)
    helpers := former.helpers.union latter.helpers }.write latter.code

/-- What is written next renders a part of the template. -/
def mark (part : Section) (source : Span) : Section :=
  { part with
    mappings :=
      part.mappings ++ [{ line := part.line + 1, column := part.column + 1, source }] }

end Section

structure Writer where
  out : Section := {}
  level : Nat := 0
  /-- How many brackets are to be closed in the end. -/
  brackets : Nat := 0
  /-- Whether places are recorded. -/
  sourceMap : Bool := false
deriving Inhabited, Repr

namespace Writer

def write (writer : Writer) (text : String) : Writer :=
  { writer with out := writer.out.write text }

def append (writer : Writer) (part : Section) : Writer :=
  { writer with out := writer.out.append part }

def breakLine (writer : Writer) : Writer :=
  writer.write ("\n" ++ String.ofList (List.replicate (2 * writer.level) ' '))

def collect (writer : Writer) (helper : Helper) : Writer :=
  { writer with out := { writer.out with helpers := writer.out.helpers.insert helper } }

def add (writer : Writer) : Piece → Writer
  | .text text => writer.write text
  | .helper helper => (writer.collect helper).write ("_" ++ helper.runtimeName)
  | .newline => writer.breakLine
  | .indent => { writer with level := writer.level + 1 }.breakLine
  | .dedent => { writer with level := writer.level - 1 }.breakLine
  | .outdent => { writer with level := writer.level - 1 }
  | .mark source =>
    if writer.sourceMap then { writer with out := writer.out.mark source } else writer

def addAll (writer : Writer) (pieces : Pieces) : Writer :=
  pieces.foldl add writer

/-- Writes into a section of its own, which is handed out. -/
def aside (writer : Writer) (pieces : Pieces) : Section × Writer :=
  let written := { writer with out := {} }.addAll pieces
  (written.out, { written with out := writer.out })

/-- Writes the head of a bracket, which leads one level deeper. -/
def openBracket (writer : Writer) (head : Pieces) : Writer :=
  { writer with brackets := writer.brackets + 1 }.addAll head

/-- Closes all brackets. -/
def close (writer : Writer) : Writer :=
  (writer.addAll (List.replicate writer.brackets [.dedent, .text "\x7d"]).flatten).add (.text "\n")

def ofPieces (pieces : Pieces) : Writer :=
  ({} : Writer).addAll pieces

end Writer

end TemplateCompiler
