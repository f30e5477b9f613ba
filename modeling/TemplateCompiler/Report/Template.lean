import TemplateCompiler.Report.Document
import TemplateCompiler.Template.Node
import TemplateCompiler.Token.Basic

/-! Tokens, problems and template trees as documents. -/

namespace TemplateCompiler

open Document

def Position.document (position : Position) : Document :=
  record [("offset", number position.offset), ("line", number position.line),
    ("column", number position.column)]

def Span.document (span : Span) : Document :=
  record [("start", span.start.document), ("end", span.stop.document)]

def Phrase.document (phrase : Phrase) : Document :=
  .text phrase.text

def TokenKind.document : TokenKind → Document
  | tagOpen name => variant "TagOpen" (.text name)
  | attrName name => variant "AttrName" (.text name)
  | attrValue value => variant "AttrValue" value.document
  | tagEnd selfClosing => variant "TagEnd" (record [("self_closing", bool selfClosing)])
  | tagClose name => variant "TagClose" (.text name)
  | .text value => variant "Text" value.document
  | interpolation source => variant "Interpolation" (.text source)
  | comment source => variant "Comment" (.text source)

def Token.document (token : Token) : Document :=
  record [("kind", token.kind.document), ("location", token.span.document)]

def Problem.document (problem : Problem) : Document :=
  record [("kind", .text problem.kind.name), ("additional_message", option .text problem.detail),
    ("location", problem.span.document)]

/-- A problem as it is reported to the user of a compilation. -/
def Problem.diagnostic (problem : Problem) : Document :=
  record [("severity", .text problem.severity.name), ("message", .text problem.message),
    ("range", record [("start", number problem.span.start.offset),
      ("end", number problem.span.stop.offset)]),
    ("location", problem.span.document)]

def Value.document (value : Value) : Document :=
  record [("content", value.content.document), ("location", value.span.document)]

def Argument.document : Argument → Document
  | static name => variant "Static" (.text name)
  | dynamic expression => variant "Dynamic" (.text expression)

def Attribute.document (given : Attribute) : Document :=
  record [("name", .text given.name), ("value", option Value.document given.value),
    ("name_loc", given.nameSpan.document), ("location", given.span.document)]

def Directive.document (directive : Directive) : Document :=
  record [("name", .text directive.name), ("argument", option Argument.document directive.argument),
    ("modifiers", texts directive.modifiers),
    ("expression", option Value.document directive.expression),
    ("head_loc", directive.headSpan.document), ("location", directive.span.document)]

def Property.document : Property → Document
  | attr given => variant "Attr" given.document
  | dir given => variant "Dir" given.document

def ElementKind.name : ElementKind → String
  | plain => "Plain"
  | component => "Component"
  | fragment => "Template"

def Branch.document (branch : Branch) (child : NodeId) : Document :=
  record [("condition", option Value.document branch.condition), ("child", number child),
    ("key", number branch.key), ("location", branch.span.document)]

/-- A node with the numbers of its children in place of the children. -/
def Node.document (node : Node) : Document :=
  let location := ("location", node.span.document)
  let ids := node.children.map (·.id)
  match node.content with
  | .element e =>
    variant "Element" (record [("tag_name", .text e.tag), ("tag_type", .text e.kind.name),
      ("properties", listOf Property.document e.properties), ("children", listOf number ids),
      location])
  | .text t => variant "Text" (record [("text", t.document), location])
  | .interpolation source => variant "Interpolation" (record [("source", .text source), location])
  | .comment source => variant "Comment" (record [("source", .text source), location])
  | .conditional branches =>
    variant "If" (record [("branches", list (List.zipWith Branch.document branches ids)), location])
  | .loop l =>
    variant "For" (record [("source", l.source.document), ("value", option .text l.value),
      ("key", option .text l.key), ("index", option .text l.index),
      ("child", option number ids.head?), location])

def Template.document (template : Template) : Document :=
  record [("nodes", listOf Node.document template.nodes),
    ("children", listOf (fun node => number node.id) template.roots),
    ("location", template.span.document)]

end TemplateCompiler
