import TemplateCompiler.Emit.Piece
import TemplateCompiler.Render.Expr

/-! Writing script expressions. -/

namespace TemplateCompiler

def quotedList (items : List String) : String :=
  "[" ++ ", ".intercalate (items.map Text.quoted) ++ "]"

def guarded (helper : Helper) (guards : List String) (inner : Pieces) : Pieces :=
  if guards.isEmpty then inner
  else .helper helper :: .text "(" :: inner ++ [.text (", " ++ quotedList guards ++ ")")]

/-- The function that a handler calls. A cached one looks its member up on every call. -/
def handlerFunction (traits : HandlerTraits) (body : Pieces) : Pieces :=
  match traits.kind with
  | .function => body
  | .member =>
    if traits.slot.isSome then .text "(...args) => " :: body ++ [.text "?.(...args)"] else body
  | .inlineStatement => .text "$event => (" :: body ++ [.text ")"]

def handlerPieces (traits : HandlerTraits) (body : Pieces) : Pieces :=
  let inner := guarded .withKeys traits.keyModifiers
    (guarded .withModifiers traits.modifiers (handlerFunction traits body))
  match traits.slot with
  | none => inner
  | some slot =>
    let cell := "_cache[" ++ toString slot ++ "]"
    .text (cell ++ " || (" ++ cell ++ " = ") :: inner ++ [.text ")"]

def objectPieces (entries : List Pieces) : Pieces :=
  if entries.isEmpty then [.text "\x7b\x7d"]
  else .text "\x7b " :: Pieces.join ", " entries ++ [.text " \x7d"]

namespace Expr

/-- A key that needs no quotes. -/
def bareKey? : Expr → Option String
  | literal phrase => if Name.isSimpleIdentifier phrase.raw then some phrase.text else none
  | madeLiteral text => if Name.isSimpleIdentifier text then some text else none
  | _ => none

mutual

/-- The expression as it is written. `onContext` is written in front of every name that is looked
up on the render context. -/
def pieces (onContext : String) : Expr → Pieces
  | source text => [.text text]
  | param name => [.text name]
  | number value => [.text (toString value)]
  | literal phrase => [.text phrase.asLiteral.text]
  | madeLiteral text => [.text (Text.quoted text)]
  | simple phrase _ => [.text phrase.text]
  | context name => [.text (onContext ++ name)]
  | symbol helper => [.helper helper]
  | props entries => objectPieces (piecesEntries onContext entries)
  | compound parts => (piecesAll onContext parts).flatten
  | array items => .text "[" :: Pieces.join ", " (piecesAll onContext items) ++ [.text "]"]
  | call helper args =>
    .helper helper :: .text "(" :: Pieces.join ", " (piecesAll onContext args) ++ [.text ")"]
  | handler body traits => handlerPieces traits (pieces onContext body)

def piecesAll (onContext : String) : List Expr → List Pieces
  | [] => []
  | expr :: rest => pieces onContext expr :: piecesAll onContext rest

def piecesEntries (onContext : String) : List (Expr × Expr) → List Pieces
  | [] => []
  | (key, value) :: rest =>
    let written := match key.bareKey? with
      | some name => [.text name]
      | none => pieces onContext key
    (written ++ .text ": " :: pieces onContext value) :: piecesEntries onContext rest

end

end Expr

end TemplateCompiler
