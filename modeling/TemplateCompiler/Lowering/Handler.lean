import TemplateCompiler.Lowering.Expression

/-! Event handlers: how the value of a listener is written, and which of its modifiers are options
of the listener, guards or keys. -/

namespace TemplateCompiler

namespace Handler

/-- Whether a handler is the place of a function, a function, or a statement. -/
def kindOf (reader : ScriptReader) (text : String) : HandlerKind :=
  if Name.isSimpleIdentifier text || reader.isMember text then .member
  else if reader.isFunction text then .function
  else .inlineStatement

/-- A handler with the given body. It can be cached unless it refers to an alias of a loop or is
rendered only once anyway. -/
def make (surroundings : Surroundings) (body : Expr) (kind : HandlerKind) : Expr :=
  let refersToScope := body.refersToScope
  .handler body
    { kind
      cacheable := surroundings.cacheHandlers && !refersToScope && !surroundings.inOnce
      refersToScope }

def statements (text : String) : List String :=
  ((Text.pieces ';' text.toList).map fun piece => Text.trim (String.ofList piece)).filter
    fun statement => !statement.isEmpty

/-- The local that a statement finds its event in. -/
def eventLocals : List String := ["$event"]

/-- Statements become one expression, with commas between them. -/
def joinStatements (surroundings : Surroundings) (span : Span) :
    List String → Reported (List Expr)
  | [] => pure []
  | [last] => do
    return [← resolve surroundings.scope eventLocals last span surroundings.reader]
  | first :: rest => do
    let resolved ← resolve surroundings.scope eventLocals first span surroundings.reader
    return resolved :: .source ", " :: (← joinStatements surroundings span rest)

def ofValue (surroundings : Surroundings) (value : Value) : Reported Expr := do
  let text := Text.trim value.content.raw
  let kind := kindOf surroundings.reader text
  let body ←
    match kind with
    | .member | .function => surroundings.resolve text value.span
    | .inlineStatement =>
      if text.toList.contains ';' && !surroundings.reader.isValid text then do
        pure (.compound (← joinStatements surroundings value.span (statements text)))
      else resolve surroundings.scope eventLocals text value.span surroundings.reader
  return make surroundings body kind

end Handler

structure ListenerModifiers where
  /-- Part of the key: `onClickOnce`. -/
  options : List String := []
  /-- Guards that are checked for every event. -/
  guards : List String := []
  /-- Keys, checked for events of the keyboard. -/
  keys : List String := []
deriving DecidableEq, Inhabited, Repr

namespace ListenerModifiers

def isOption (modifier : String) : Bool :=
  ["once", "capture", "passive"].contains modifier

def isGuard (modifier : String) : Bool :=
  ["stop", "prevent", "self", "ctrl", "shift", "alt", "meta", "exact", "middle"].contains modifier

def isKeyboardEvent (event : String) : Bool :=
  ["keyup", "keydown", "keypress"].contains event

/-- A side is a button of the mouse or a key, by the event; it is both if that is not known. -/
def isSide (modifier : String) : Bool :=
  modifier == "left" || modifier == "right"

/-- Sort one modifier. The event is missing if its name is an expression. -/
def add (event : Option String) (modifiers : ListenerModifiers) (modifier : String) :
    ListenerModifiers :=
  let asGuard :=
    if isSide modifier then !event.any isKeyboardEvent else isGuard modifier
  let asKey :=
    if isSide modifier then event.all isKeyboardEvent else !isGuard modifier
  if isOption modifier then { modifiers with options := modifiers.options ++ [modifier] }
  else
    { modifiers with
        guards := if asGuard then modifiers.guards ++ [modifier] else modifiers.guards
        keys := if asKey then modifiers.keys ++ [modifier] else modifiers.keys }

def ofList (event : Option String) (modifiers : List String) : ListenerModifiers :=
  modifiers.foldl (add event) {}

/-- The guards and keys become part of the handler. -/
def guard (modifiers : ListenerModifiers) (event : Option String) : Expr → Expr
  | .handler body traits =>
    .handler body
      { traits with
          modifiers := modifiers.guards
          keyModifiers :=
            if event.all isKeyboardEvent then modifiers.keys else traits.keyModifiers }
  | other => other

/-- The event to listen for: a click of another button is an event of its own. -/
def eventName (modifiers : ListenerModifiers) (name : String) : String :=
  if !Text.sameIgnoringCase name "click" then name
  else if modifiers.guards.contains "right" then "contextmenu"
  else if modifiers.guards.contains "middle" then "mouseup"
  else name

/-- What the options add to the key of the listener. -/
def suffix (modifiers : ListenerModifiers) : String :=
  String.join (modifiers.options.map fun option => ({ raw := option } : Phrase).capitalized.text)

end ListenerModifiers

end TemplateCompiler
