import TemplateCompiler.Lowering.Properties

/-! The virtual node of an element. -/

namespace TemplateCompiler

/-- What the tag of an element stands for. -/
inductive TagForm where
  /-- An element of the platform. -/
  | native
  /-- A component that is named by a string. -/
  | named (name : Phrase)
  /-- A component that is the value of an expression. -/
  | computed (value : Value)
  | core (helper : Helper)
  /-- A component that is resolved by its name. -/
  | user
deriving Inhabited, Repr

namespace TagForm

/-- What the `is` property of a dynamic component says. -/
def dynamic? (element : Element) : Option TagForm :=
  if !Tag.isDynamicComponent element.tag then none
  else
    match element.properties.setter? "is" with
    | some (.attr given) => given.value.map fun value => .named value.content
    | some (.dir directive) => directive.expression.map .computed
    | none => none

def of (element : Element) : TagForm :=
  if element.kind = .plain then .native
  else
    match dynamic? element, Tag.core? element.tag with
    | some form, _ => form
    | none, some component => .core (Helper.ofCore component)
    | none, none => .user

/-- The first argument of the call that makes the node. -/
def lower (surroundings : Surroundings) (tag : String) : TagForm → Reported Expr
  | native => pure (.string tag)
  | named name => pure (.call .resolveDynamicComponent [.literal name])
  | computed value => do
    return .call .resolveDynamicComponent [← surroundings.resolveValue value]
  | core helper => pure (.symbol helper)
  | user =>
    let name : Phrase := { raw := tag }
    pure (.simple name.asComponent .notStatic)

/-- The children of these are passed as a plain list. -/
def hasRawChildren : TagForm → Bool
  | core .keepAlive | core .teleport => true
  | _ => false

def isBlock (element : Element) (hasChildren : Bool) : TagForm → Bool
  | named _ | computed _ | core .teleport | core .suspense => true
  | core .keepAlive => hasChildren
  | core _ | user => false
  | native =>
    element.tag == "svg" || element.tag == "foreignObject" ||
      match element.properties.setter? "key" with
      | some (.dir _) => true
      | _ => false

end TagForm

def componentToResolve? (element : Element) : Option String :=
  if element.kind = .fragment then none
  else
    match TagForm.of element with
    | .user => some element.tag
    | _ => none

/-- What the children add to the hint. A component whose children are slots has to look at them
again if they may use aliases; a plain element may have a changing text. -/
def childrenFlag (surroundings : Surroundings) (table : Table) (isComponent rawChildren : Bool)
    (children : List NodeId) : PatchFlag :=
  if isComponent then
    if !rawChildren && !children.isEmpty && !surroundings.scope.isEmpty then .dynamicSlots
    else .empty
  else
    match children with
    | [only] =>
      match table.get? only with
      | some { body := .text call, cache := none } =>
        if call.fastPath && call.needPatch then .text else .empty
      | _ => .empty
    | _ => .empty

/-- A `template` tag stands for its children. -/
def lowerFragment (surroundings : Surroundings) (element : Element) (children : List NodeId) :
    Reported VNode := do
  let lowered ← lowerProperties surroundings element
  return {
    tag := .symbol .fragment
    props := lowered.props
    children
    patchFlag := .stableFragment }

def lowerElement (surroundings : Surroundings) (table : Table) (element : Element)
    (children : List NodeId) : Reported VNode := do
  if element.kind = .fragment then lowerFragment surroundings element children
  else
    let form := TagForm.of element
    let tag ← form.lower surroundings element.tag
    let lowered ← lowerProperties surroundings element
    let isComponent := element.kind = .component
    let rawChildren := form.hasRawChildren
    return {
      tag
      props := lowered.props
      children
      patchFlag := lowered.patchFlag |||
        childrenFlag surroundings table isComponent rawChildren children
      dynamicProps := lowered.dynamicProps
      directives := lowered.directives
      isBlock := form.isBlock element (!children.isEmpty)
      isComponent
      rawChildren }

end TemplateCompiler
