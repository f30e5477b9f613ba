import TemplateCompiler.Lowering.Handler
import TemplateCompiler.Markup.Tag
import TemplateCompiler.Template.Node

/-! What each property of an element adds to the properties object of its virtual node. -/

namespace TemplateCompiler

abbrev Entry := Expr × Expr

inductive Contribution where
  /-- An attribute, which is the same in every rendering. -/
  | fixed (name : String) (value : Expr)
  /-- Entries of the object. -/
  | entries (entries : List Entry)
  /-- A whole object that is merged in. -/
  | spread (value : Expr)
  | nothing
deriving Inhabited, Repr

namespace Contribution

def ofAttribute (tag : String) (given : Attribute) : Contribution :=
  let value : Phrase := (given.value.map (·.content)).getD { raw := "" }
  let isAsset := Tag.isDynamicComponent tag || "vue:".toList.isPrefixOf value.raw.toList
  if given.name == "is" && isAsset then .nothing
  else .fixed given.name (.literal value)

/-- The mark in front of a key that is to be set as a property or as an attribute. -/
def keyMark? (directive : Directive) : Option String :=
  if directive.hasModifier "prop" then some "."
  else if directive.hasModifier "attr" then some "^"
  else none

def boundKey (surroundings : Surroundings) (directive : Directive) (argument : Argument) :
    Reported Expr := do
  let isCamel := directive.hasModifier "camel"
  match argument with
  | .static name =>
    let plain : Phrase := { raw := name }
    let phrase := if isCamel then plain.camelCased else plain
    match keyMark? directive with
    | some mark => return .madeLiteral (mark ++ phrase.text)
    | none => return .literal phrase
  | .dynamic expression =>
    let name ← surroundings.resolve expression directive.headSpan
    let orEmpty : Expr := .compound [name, .source " || \"\""]
    let cased : Expr := if isCamel then .call .camelize [orEmpty] else orEmpty
    let mark := (keyMark? directive).map fun mark => .source ("\"" ++ mark ++ "\" + ")
    return .compound (.source "[" :: mark.toList ++ [cased, .source "]"])

def ofBind (surroundings : Surroundings) (directive : Directive) : Reported Contribution := do
  match directive.emptyProblem? .bindWithoutExpression, directive.expression with
  | some problem, _ =>
    Reported.report problem
    match directive.argument with
    | none => return .nothing
    | some argument =>
      return .entries [(← boundKey surroundings directive argument, .string "")]
  | none, some value =>
    let resolved ← surroundings.resolveValue value
    match directive.argument with
    | none => return .spread resolved
    | some argument => return .entries [(← boundKey surroundings directive argument, resolved)]
  | none, none => return .nothing

def listenerKey (surroundings : Surroundings) (directive : Directive)
    (modifiers : ListenerModifiers) : Argument → Reported Expr
  | .static name =>
    let phrase : Phrase := { raw := modifiers.eventName name }
    let key := phrase.asHandlerKey.camelCased
    pure (if modifiers.suffix.isEmpty then .literal key
      else .madeLiteral (key.text ++ modifiers.suffix))
  | .dynamic expression => do
    let name ← surroundings.resolve expression directive.headSpan
    let suffix :=
      if modifiers.suffix.isEmpty then []
      else [.source " + ", .madeLiteral modifiers.suffix]
    return .compound (.source "[" :: .call .toHandlerKey [name] :: suffix ++ [.source "]"])

/-- A listener for one event. Without an expression it still guards the event. -/
def listener (surroundings : Surroundings) (directive : Directive) (argument : Argument) :
    Reported Contribution := do
  let event := argument.staticName?
  let modifiers := ListenerModifiers.ofList event directive.modifiers
  let key ← listenerKey surroundings directive modifiers argument
  let handler ←
    match directive.expression with
    | some value =>
      if value.content.isVoid then pure (idle surroundings)
      else Handler.ofValue surroundings value
    | none => pure (idle surroundings)
  return .entries [(key, modifiers.guard event handler)]
where
  idle (surroundings : Surroundings) : Expr :=
    Handler.make surroundings (.source "() => \x7b\x7d") .function

/-- An `on` directive: one listener, or an object of them if there is no argument. -/
def ofListener (surroundings : Surroundings) (directive : Directive) : Reported Contribution := do
  match directive.argument with
  | none =>
    match directive.emptyProblem? .onWithoutExpression, directive.expression with
    | some problem, _ =>
      Reported.report problem
      return .nothing
    | none, some value =>
      return .spread (.call .toHandlers [← surroundings.resolveValue value])
    | none, none => return .nothing
  | some argument =>
    match directive.emptyProblem? .onWithoutExpression with
    | some problem => if directive.modifiers.isEmpty then Reported.report problem
    | none => pure ()
    listener surroundings directive argument

def assign (surroundings : Surroundings) (model value : Expr) : Expr :=
  Handler.make surroundings (.compound [.source "(", model, .source ") = ", value])
    .inlineStatement

def modifiersObject (modifiers : List String) : Expr :=
  .props (modifiers.map fun modifier => (.string modifier, .source "true"))

/-- The keys of a model of a component: its value, its event and its modifiers. -/
structure ModelKeys where
  value : Expr
  event : Expr
  modifiers : Expr

def modelKeys (surroundings : Surroundings) (directive : Directive) : Reported ModelKeys := do
  match directive.argument with
  | none =>
    return ⟨.string "modelValue", .string "onUpdate:modelValue", .string "modelModifiers"⟩
  | some (.static name) =>
    return ⟨.string name, .madeLiteral ("onUpdate:" ++ name), .madeLiteral (name ++ "Modifiers")⟩
  | some (.dynamic expression) =>
    let name ← surroundings.resolve expression directive.headSpan
    return {
      value := .compound [.source "[", name, .source "]"]
      event := .compound [.source "[\"onUpdate:\" + ", name, .source "]"]
      modifiers := .compound [.source "[", name, .source " + \"Modifiers\"]"] }

def componentModel (surroundings : Surroundings) (directive : Directive) (model : Expr) :
    Reported (List Entry) := do
  let keys ← modelKeys surroundings directive
  let modifiers :=
    if directive.modifiers.isEmpty then []
    else [(keys.modifiers, modifiersObject directive.modifiers)]
  return (keys.value, model) :: (keys.event, assign surroundings model (.source "$event")) ::
    modifiers

def numbered (directive : Directive) (value : Expr) : Expr :=
  if directive.hasModifier "number" then .call .looseToNumber [value] else value

def textModel (surroundings : Surroundings) (directive : Directive) (model : Expr) :
    List Entry :=
  let event := if directive.hasModifier "lazy" then "onChange" else "onInput"
  let value :=
    if directive.hasModifier "trim" then "$event.target.value.trim()" else "$event.target.value"
  [(.string "value", model),
   (.string event, assign surroundings model (numbered directive (.source value)))]

def setValue? (surroundings : Surroundings) (properties : Properties) (name : String) :
    Reported (Option Expr) := do
  match properties.setter? name with
  | none => return none
  | some (.attr given) =>
    return some ((given.value.map fun value => .literal value.content).getD (.string ""))
  | some (.dir directive) =>
    match directive.expression with
    | none => return none
    | some value => return some (← surroundings.resolveValue value)

def inputType? (properties : Properties) : Option String :=
  match properties.setter? "type" with
  | some (.attr given) => given.value.map (·.content.raw)
  | _ => none

def inputModel (surroundings : Surroundings) (properties : Properties) (directive : Directive)
    (model : Expr) : Reported (Option (List Entry)) := do
  let kind := (inputType? properties).getD ""
  if kind == "file" then
    Reported.report { kind := .modelOnFileInput, span := directive.span }
    return none
  else if kind == "checkbox" then
    let handler := assign surroundings model (.source "$event.target.checked")
    return some [(.string "checked", model), (.string "onChange", handler)]
  else if kind == "radio" then
    let value := (← setValue? surroundings properties "value").getD (.source "undefined")
    let handler := assign surroundings model (numbered directive value)
    return some
      [(.string "checked", .call .looseEqual [model, value]), (.string "onChange", handler)]
  else return some (textModel surroundings directive model)

def selectedValues (directive : Directive) : Expr :=
  .compound
    [.source "Array.prototype.filter.call($event.target.options, o => o.selected).map(o => ",
     numbered directive (.source "o.value"), .source ")"]

def selectModel (surroundings : Surroundings) (properties : Properties) (directive : Directive)
    (model : Expr) : List Entry :=
  let value :=
    if (properties.setter? "multiple").isSome then selectedValues directive
    else numbered directive (.source "$event.target.value")
  [(.string "value", model), (.string "onChange", assign surroundings model value)]

def elementModel (surroundings : Surroundings) (element : Element) (directive : Directive)
    (model : Expr) : Reported (Option (List Entry)) := do
  if element.tag == "input" then
    inputModel surroundings element.properties directive model
  else if element.tag == "textarea" then return some (textModel surroundings directive model)
  else if element.tag == "select" then
    return some (selectModel surroundings element.properties directive model)
  else
    Reported.report { kind := .modelOnInvalidElement, span := directive.span }
    return none

def modelProblem? (surroundings : Surroundings) (text : String) : Option ProblemKind :=
  if surroundings.scope.contains text then some .modelOnAlias
  else if !Name.isSimpleIdentifier text && !surroundings.reader.isMember text then
    some .modelMalformed
  else none

def ofModel (surroundings : Surroundings) (element : Element) (directive : Directive) :
    Reported Contribution := do
  match directive.emptyProblem? .modelWithoutExpression, directive.expression with
  | some problem, _ =>
    Reported.report problem
    return .nothing
  | none, none => return .nothing
  | none, some value =>
    let text := Text.trim value.content.raw
    match modelProblem? surroundings text with
    | some kind =>
      Reported.report { kind, span := value.span }
      return .nothing
    | none =>
      let model ← surroundings.resolve text value.span
      if element.kind = .component then
        return .entries (← componentModel surroundings directive model)
      else if directive.argument.isSome then
        Reported.report { kind := .modelArgumentOnElement, span := directive.headSpan }
        return .nothing
      else
        match ← elementModel surroundings element directive model with
        | some found => return .entries found
        | none => return .nothing

end Contribution

end TemplateCompiler
