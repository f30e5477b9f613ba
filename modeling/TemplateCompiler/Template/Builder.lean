import TemplateCompiler.Markup.Tag
import TemplateCompiler.Template.DirectiveName
import TemplateCompiler.Template.Node
import TemplateCompiler.Token.Basic

/-! Building the tree of a template from tokens. The open elements form a stack, innermost first.
Any sequence of tokens gives a tree: end tags without an element are reported and passed over, and
elements without an end tag end where their parent does. -/

namespace TemplateCompiler

inductive Whitespace where
  | condense
  | preserve
deriving DecidableEq, Inhabited, Repr

structure ParseOption where
  whitespace : Whitespace := .condense
  preserveComments : Bool := false
  isPreformatted : String → Bool := Tag.isPreformatted
  isVoid : String → Bool := Tag.isVoid
  isNative : String → Bool := Tag.isNative
  /-- Tags that are left to the platform, though they look like components. -/
  isCustomElement : String → Bool := fun _ => false

namespace Template

/-- Whether a blank text goes away between its neighbours. At either end of the list it does, also
next to a comment that has an element or a comment on the other side, and between two elements if
it has a line break. -/
def isRemovable (previous next : Option Node) (blank : Phrase) : Bool :=
  match previous, next with
  | some p, some n =>
    if p.isComment then n.isComment || n.isElement
    else if p.isElement then
      n.isComment || n.isElement && blank.raw.toList.any fun c => c = '\r' || c = '\n'
    else false
  | _, _ => true

/-- Condense the white space of a children list: the nodes that stay and those that go. -/
def condense (previous : Option Node) : List Node → List Node × List Node
  | [] => ([], [])
  | node :: rest =>
    let (kept, gone) := condense (some node) rest
    match node.content with
    | .text t =>
      if !t.isBlank then ({ node with content := .text t.squeezed } :: kept, gone)
      else if isRemovable previous rest.head? t then (kept, node :: gone)
      else ({ node with content := .text { raw := " " } } :: kept, gone)
    | _ => (node :: kept, gone)

/-- The line break right behind a start tag of preformatted text is no part of the text. -/
def trimFirstBreak : List Node → List Node
  | [] => []
  | node :: rest =>
    match node.content with
    | .text t =>
      let raw := match t.raw.toList with
        | '\n' :: more => String.ofList more
        | '\r' :: '\n' :: more => String.ofList more
        | _ => t.raw
      { node with content := .text { t with raw } } :: rest
    | _ => node :: rest

end Template

/-- An element whose end was not reached yet; its children are in reverse order. -/
structure OpenElement where
  id : NodeId
  element : Element
  /-- The span of the start tag. -/
  span : Span
  children : List Node := []

/-- A start tag whose end was not reached yet; its attributes are in reverse order. -/
structure PendingTag where
  name : String
  start : Position
  attributes : List Attribute := []

structure Builder where
  /-- The children of the root so far, in reverse order. -/
  roots : List Node := []
  stack : List OpenElement := []
  pending : Option PendingTag := none
  /-- How many open elements hold preformatted text. -/
  preDepth : Nat := 0
  /-- The number of the next node. -/
  next : NodeId := 0
  dropped : List Node := []
  /-- The end of the last token. -/
  stop : Position := {}
  problems : List Problem := []

namespace Builder

variable (option : ParseOption)

def report (builder : Builder) (problems : List Problem) : Builder :=
  { builder with problems := builder.problems ++ problems }

/-- Append a finished node to the innermost open element, or to the root. -/
def append (builder : Builder) (node : Node) : Builder :=
  match builder.stack with
  | [] => { builder with roots := node :: builder.roots }
  | top :: rest =>
    { builder with stack := { top with children := node :: top.children } :: rest }

def leaf (builder : Builder) (content : Content) (span : Span) : Builder :=
  { builder with next := builder.next + 1 }.append { id := builder.next, content, span }

def settle (children : List Node) : List Node × List Node :=
  match option.whitespace with
  | .preserve => (children, [])
  | .condense => Template.condense none children

def close (builder : Builder) (stop : Position) : Builder :=
  match builder.stack with
  | [] => builder
  | top :: rest =>
    let isPre := option.isPreformatted top.element.tag
    let children := top.children.reverse
    let (kept, gone) :=
      if isPre then (Template.trimFirstBreak children, [])
      else if builder.preDepth = 0 then settle option children
      else (children, [])
    { builder with
        stack := rest
        dropped := builder.dropped ++ gone
        preDepth := if isPre then builder.preDepth - 1 else builder.preDepth }.append
      { id := top.id
        content := .element top.element
        span := ⟨top.span.start, stop⟩
        children := kept }

/-- Report that the innermost open element has no end tag, unless that may be left out. -/
def reportUnclosed (builder : Builder) : Builder :=
  match builder.stack with
  | [] => builder
  | top :: _ =>
    if Tag.hasOptionalEnd top.element.tag then builder
    else builder.report [{ kind := .missingEndTag, span := top.span }]

def closeUnclosed (builder : Builder) (stop : Position) : Nat → Builder
  | 0 => builder
  | count + 1 => closeUnclosed (builder.reportUnclosed.close option stop) stop count

/-- Close the elements that the start tag `name` implies the end of; there are at most `count`. -/
def closeImplied (builder : Builder) (name : String) (stop : Position) : Nat → Builder
  | 0 => builder
  | count + 1 =>
    match builder.stack with
    | [] => builder
    | top :: _ =>
      if Tag.closesImplicitly top.element.tag name then
        closeImplied (builder.close option stop) name stop count
      else builder

def readProperties (seen : List String) : List Attribute → Properties × List Problem
  | [] => ([], [])
  | given :: rest =>
    if seen.contains given.name then
      let (properties, problems) := readProperties seen rest
      (properties, { kind := .duplicateAttribute, span := given.span } :: problems)
    else
      let (properties, problems) := readProperties (given.name :: seen) rest
      if DirectiveName.isDirective given.name then
        let (name, kinds) := DirectiveName.parse given.name
        let found := kinds.map fun kind => { kind, span := given.nameSpan : Problem }
        match name with
        | some read =>
          let directive : Directive :=
            { name := read.name
              argument := read.argument
              modifiers := read.modifiers
              expression := given.value.map fun value =>
                { value with content := { raw := value.content.raw } }
              headSpan := given.nameSpan
              span := given.span }
          (.dir directive :: properties, found ++ problems)
        | none => (.attr given :: properties, found ++ problems)
      else (.attr given :: properties, problems)

/-- The directives that make a `template` tag stand for its children. -/
def isStructural (name : String) : Bool :=
  ["if", "else-if", "else", "for", "slot"].contains name

def elementKind (tag : String) (properties : Properties) : ElementKind :=
  if tag == "template" && (properties.findDirective? isStructural).isSome then .fragment
  else if option.isCustomElement tag then .plain
  else if Tag.isDynamicComponent tag || (Tag.core? tag).isSome ||
      tag.toList.head?.any Char.isUpper || !option.isNative tag then .component
  else .plain

/-- The end of a start tag: the element comes into being, and is open unless it has no content. -/
def finishStartTag (builder : Builder) (selfClosing : Bool) (span : Span) : Builder :=
  match builder.pending with
  | none => builder
  | some tag =>
    let (properties, problems) := readProperties [] tag.attributes.reverse
    let builder := { builder with pending := none }.report problems
    let element : Element := ⟨tag.name, elementKind option tag.name properties, properties⟩
    let whole : Span := ⟨tag.start, span.stop⟩
    if selfClosing || option.isVoid tag.name then builder.leaf (.element element) whole
    else
      let isPre := option.isPreformatted tag.name
      { builder with
          next := builder.next + 1
          preDepth := if isPre then builder.preDepth + 1 else builder.preDepth
          stack := { id := builder.next, element, span := whole } :: builder.stack }

/-- An end tag closes the innermost open element of its name, and all that are open in it. -/
def closeTag (builder : Builder) (name : String) (span : Span) : Builder :=
  match builder.stack.findIdx? fun top => Text.sameIgnoringCase top.element.tag name with
  | none => builder.report [{ kind := .invalidEndTag, span }]
  | some depth => (builder.closeUnclosed option span.start depth).close option span.stop

def updateAttribute (builder : Builder) (change : Attribute → Attribute) : Builder :=
  match builder.pending with
  | some { name, start, attributes := last :: others } =>
    { builder with pending := some { name, start, attributes := change last :: others } }
  | _ => builder

def handle (builder : Builder) (token : Token) : Builder :=
  let builder := { builder with stop := token.span.stop }
  let span := token.span
  match token.kind with
  | .tagOpen name =>
    { builder.closeImplied option name span.start builder.stack.length with
        pending := some { name, start := span.start } }
  | .attrName name =>
    match builder.pending with
    | none => builder
    | some tag =>
      let fresh : Attribute := { name, value := none, nameSpan := span, span }
      { builder with pending := some { tag with attributes := fresh :: tag.attributes } }
  | .attrValue content =>
    builder.updateAttribute fun last =>
      { last with value := some ⟨content, span⟩, span := ⟨last.span.start, span.stop⟩ }
  | .tagEnd selfClosing => builder.finishStartTag option selfClosing span
  | .tagClose name => builder.closeTag option name span
  | .text text => builder.leaf (.text text) span
  | .interpolation source => builder.leaf (.interpolation source) span
  | .comment source =>
    if option.preserveComments then builder.leaf (.comment source) span else builder

/-- Handle a token after reporting the problems on the way to it. -/
def handlePull (builder : Builder) (pull : Pull) : Builder :=
  (builder.report pull.problems).handle option pull.token

/-- The end of the template closes all that is open. -/
def finish (builder : Builder) : Template × List Problem :=
  let closed := builder.closeUnclosed option builder.stop builder.stack.length
  let (kept, gone) := settle option closed.roots.reverse
  ({ roots := kept
     dropped := closed.dropped ++ gone
     size := closed.next
     span := ⟨{}, builder.stop⟩ },
    closed.problems)

end Builder

def buildTemplate (option : ParseOption) (tokens : List Token) : Template × List Problem :=
  (tokens.foldl (Builder.handle option) {}).finish option

/-- The template that a scan describes. The problems of reading and of structure come in the order
in which they are met. -/
def parse (option : ParseOption) (scan : Scan) : Except Fault (Template × List Problem) :=
  scan.ending.map fun problems =>
    ((scan.pulls.foldl (Builder.handlePull option) {}).report problems).finish option

end TemplateCompiler
