import TemplateCompiler.Lowering.Contribution
import TemplateCompiler.Render.Plan

/-! The properties object of a virtual node and what can change in it. Properties are collected
class by class: attributes and bound properties in source order, then listeners, then models;
directives that the runtime applies come last. -/

namespace TemplateCompiler

/-- Add a value to one that is there already: both become items of a list. -/
def mergeValues (existing incoming : Expr) : Expr :=
  match existing with
  | .array items => .array (items ++ [incoming])
  | other => .array [other, incoming]

/-- Add an entry. Classes, styles and listeners of one name are merged; of other entries with one
name the first one stays. -/
def addEntry (entries : List Entry) (entry : Entry) : List Entry :=
  match entry.1.staticKey? with
  | none => entries ++ [entry]
  | some name =>
    if entries.any fun other => other.1.staticKey? == some name then
      if Name.isMergeable name then
        entries.map fun other =>
          if other.1.staticKey? == some name then (other.1, mergeValues other.2 entry.2) else other
      else entries
    else entries ++ [entry]

def dedupe (entries : List Entry) : List Entry :=
  entries.foldl addEntry []

structure PropertyTraits where
  hasRef : Bool := false
  hasClass : Bool := false
  hasStyle : Bool := false
  /-- A listener that has to be attached when a page is brought to life. -/
  hasHydrationListener : Bool := false
  hasDynamicKeys : Bool := false
  hasHook : Bool := false
  /-- The names of the properties that can change, in the order in which they were first seen. -/
  dynamicNames : List String := []
deriving DecidableEq, Inhabited, Repr

namespace PropertyTraits

def noteDynamic (traits : PropertyTraits) (isComponent : Bool) (name : String) :
    PropertyTraits :=
  let listed := { traits with dynamicNames := addName traits.dynamicNames name }
  if name == "ref" then { traits with hasRef := true }
  else if name == "class" then
    { if isComponent then listed else traits with hasClass := true }
  else if name == "style" then
    { if isComponent then listed else traits with hasStyle := true }
  else if name == "key" then traits
  else listed

/-- Whether an entry stays the same from one rendering to the next. -/
def isConstant : Expr → Bool
  | .handler _ traits => traits.cacheable
  | value => value.level.isStatic

def noteEntry (isComponent : Bool) (traits : PropertyTraits) (entry : Entry) : PropertyTraits :=
  match entry.1.staticKey? with
  | none => { traits with hasDynamicKeys := true }
  | some name =>
    let isListener := Name.isEventKey name
    let hydrates := !isComponent && isListener && !Text.sameIgnoringCase name "onclick" &&
      name != "onUpdate:modelValue" && !Name.isReserved name
    let noted :=
      { traits with
          hasHydrationListener := traits.hasHydrationListener || hydrates
          hasHook := traits.hasHook || isListener && Name.isReserved name }
    if isConstant entry.2 then noted else noted.noteDynamic isComponent name

def patchFlag (traits : PropertyTraits) (isComponent hasDirectives : Bool) : PatchFlag :=
  if traits.hasDynamicKeys then .fullProps
  else
    let flagIf (condition : Bool) (flag : PatchFlag) : PatchFlag :=
      if condition then flag else .empty
    let changes :=
      flagIf (traits.hasClass && !isComponent) .classBinding |||
        flagIf (traits.hasStyle && !isComponent) .styleBinding |||
        flagIf (!traits.dynamicNames.isEmpty) .props
    let flag := changes ||| flagIf traits.hasHydrationListener .hydrateEvents
    flag ||| flagIf (changes.isEmpty && (traits.hasRef || traits.hasHook || hasDirectives))
      .needPatch

end PropertyTraits

structure Collection where
  /-- Entries of the object that is being collected. -/
  pending : List Entry := []
  /-- Objects that are merged in front of it. -/
  merged : List Expr := []
  traits : PropertyTraits := {}

namespace Collection

def flush (collection : Collection) : Collection :=
  if collection.pending.isEmpty then collection
  else
    { collection with
        pending := []
        merged := collection.merged ++ [.props (dedupe collection.pending)] }

def add (isComponent : Bool) (collection : Collection) : Contribution → Collection
  | .nothing => collection
  | .fixed name value =>
    { collection with
        pending := collection.pending ++ [(.string name, value)]
        traits.hasRef := collection.traits.hasRef || name == "ref" }
  | .entries entries =>
    { collection with
        pending := collection.pending ++ entries
        traits := entries.foldl (PropertyTraits.noteEntry isComponent) collection.traits }
  | .spread value =>
    let flushed := collection.flush
    { flushed with
        merged := flushed.merged ++ [value]
        traits.hasDynamicKeys := true }

def expr? (collection : Collection) : Option Expr :=
  match collection.flush.merged with
  | [] => none
  | [only] => some only
  | several => some (.call .mergeProps several)

end Collection

/-- Directives that are part of the compilation, so that nothing is left of them at run time. -/
def isBuiltIn (name : String) : Bool :=
  ["once", "memo", "if", "else", "else-if", "for", "is", "bind", "on", "model"].contains name

def runtimeDirectives (properties : Properties) : List Directive :=
  (properties.filterMap Property.directive?).filter fun directive =>
    !isBuiltIn directive.name && directive.name != "slot"

def directivesNamed (properties : Properties) (name : String) : List Directive :=
  (properties.filterMap Property.directive?).filter (·.name == name)

def lowerDirective (surroundings : Surroundings) (directive : Directive) :
    Reported RuntimeDirective := do
  let value ←
    match directive.expression with
    | some value =>
      if value.content.isVoid then pure none
      else do
        pure (some (← surroundings.resolveValue value))
    | none => pure none
  let argument ←
    match directive.argument with
    | none => pure none
    | some (.static name) => pure (some (.string name))
    | some (.dynamic expression) => do
      pure (some (← surroundings.resolve expression directive.headSpan))
  let name : Phrase := { raw := directive.name }
  let modifiers :=
    if directive.modifiers.isEmpty then none
    else some (Contribution.modifiersObject directive.modifiers)
  return { name := .simple name.asDirective .notStatic, value, argument, modifiers }

def plainContribution (surroundings : Surroundings) (element : Element) :
    Property → Reported Contribution
  | .attr given => pure (Contribution.ofAttribute element.tag given)
  | .dir directive =>
    if directive.name != "bind" then pure .nothing
    else if Argument.isNamed directive.argument "is" && Tag.isDynamicComponent element.tag then
      pure .nothing
    else Contribution.ofBind surroundings directive

def lowerRuntime (surroundings : Surroundings) (directive : Directive) :
    Reported (Option RuntimeDirective) := do
  if isBuiltIn directive.name then return none
  else if directive.name == "slot" then
    Reported.report { kind := .slotUnsupported, span := directive.span }
    return none
  else return some (← lowerDirective surroundings directive)

structure LoweredProperties where
  props : Option Expr
  directives : List RuntimeDirective
  patchFlag : PatchFlag
  dynamicProps : List Expr

def lowerProperties (surroundings : Surroundings) (element : Element) :
    Reported LoweredProperties := do
  let properties := element.properties
  let plain ← properties.mapM (plainContribution surroundings element)
  let listeners ←
    (directivesNamed properties "on").mapM (Contribution.ofListener surroundings)
  let models ←
    (directivesNamed properties "model").mapM (Contribution.ofModel surroundings element)
  let directives ←
    (properties.filterMap Property.directive?).filterMapM (lowerRuntime surroundings)
  let isComponent := element.kind = .component
  let collected := (plain ++ listeners ++ models).foldl (Collection.add isComponent) {}
  return {
    props := collected.expr?
    directives
    patchFlag := collected.traits.patchFlag isComponent (!directives.isEmpty)
    dynamicProps := collected.traits.dynamicNames.map Expr.madeLiteral }

end TemplateCompiler
