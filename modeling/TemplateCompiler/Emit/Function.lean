import TemplateCompiler.Emit.Node
import TemplateCompiler.Emit.Section

/-! Writing the whole render function: the helpers it needs, what was moved out of it, the
components and directives it resolves, and what it returns. -/

namespace TemplateCompiler

/-- Where the helpers of the runtime come from. -/
inductive ScriptMode where
  /-- They are imported from a module, and the function is exported. -/
  | module (name : String)
  /-- They are properties of a global object, and the function is returned. -/
  | function (name : String)
deriving DecidableEq, Inhabited, Repr

structure EmitOption where
  mode : ScriptMode := .module "vue"
  /-- What is written in front of names that are looked up on the render context. -/
  onContext : String := "_ctx."
  sourceMap : Bool := false
deriving DecidableEq, Inhabited, Repr

namespace EmitOption

/-- Names without anything in front need a scope to be looked up in. -/
def usesScope (option : EmitOption) : Bool :=
  match option.mode with
  | .function _ => option.onContext.isEmpty
  | .module _ => false

end EmitOption

def importPieces (mode : ScriptMode) (helpers : HelperSet) : Pieces :=
  let names (between : String) : String :=
    ", ".intercalate (helpers.toList.map fun helper =>
      helper.runtimeName ++ between ++ "_" ++ helper.runtimeName)
  if helpers.isEmpty then []
  else
    match mode with
    | .module name =>
      [.text ("import \x7b " ++ names " as " ++ " \x7d from " ++ Text.quoted name ++ "\n\n")]
    | .function name => [.text ("const \x7b " ++ names ": " ++ " \x7d = " ++ name ++ "\n\n")]

namespace Plan

variable (plan : Plan) (option : EmitOption) (spans : Array Span)

def vnodeCode (call : VNode) : Pieces :=
  vnodePieces option.onContext call
    (View.writeAll option.onContext (call.children.map (plan.view spans)))

def hoistPieces : Pieces :=
  if plan.hoists.isEmpty then []
  else
    (plan.hoists.zipIdx.flatMap fun (call, index) =>
      .text ("const _hoisted_" ++ toString index ++ " = /*#__PURE__*/") ::
        plan.vnodeCode option spans call ++ [.text "\n"]) ++ [.text "\n"]

def assetPieces (variable' : Phrase) (resolver : Helper) : Pieces :=
  [.text ("const " ++ variable'.text ++ " = "), .helper resolver,
   .text ("(" ++ Text.quoted variable'.raw ++ ")")]

/-- The resolutions, one on a line, and an empty line behind them. -/
def assetsPieces : Pieces :=
  let components := plan.components.map fun name =>
    assetPieces ({ raw := name } : Phrase).asComponent .resolveComponent
  let directives := plan.directives.map fun name =>
    assetPieces ({ raw := name } : Phrase).asDirective .resolveDirective
  let all := components ++ directives
  if all.isEmpty then []
  else (all.intersperse [.newline]).flatten ++ [.text "\n", .newline]

def returnedPieces : Pieces :=
  match plan.root with
  | .empty => [.text "null"]
  | .single id => ((plan.view spans id).write option.onContext).pieces
  | .fragment call => plan.vnodeCode option spans call

/-- The head of the render function, with the size of its cache. -/
def signaturePieces : Pieces :=
  let keyword := match option.mode with
    | .module _ => "export"
    | .function _ => "return"
  let cache :=
    if plan.cacheSize = 0 then "" else " = Array(" ++ toString plan.cacheSize ++ ")"
  [.text (keyword ++ " function render(_ctx, _cache" ++ cache ++ ") \x7b"), .indent]

def scopePieces : Pieces :=
  if option.usesScope then [.text "with (_ctx) \x7b", .indent] else []

def openFunction (writer : Writer) : Writer :=
  let writer := writer.openBracket (plan.signaturePieces option)
  if option.usesScope then writer.openBracket (scopePieces option) else writer

/-- The whole code; what is imported in front is what the sections use. -/
def joinSections (writer : Writer) (hoists assets returned : Section) : Writer :=
  let helpers := (hoists.helpers.union assets.helpers).union returned.helpers
  let writer := (writer.addAll (importPieces option.mode helpers)).append hoists
  let writer := ((plan.openFunction option writer).append assets).add (.text "return ")
  (writer.append returned).close

/-- Sections are written before what comes in front of them, as deep as they will stand. -/
def assemble : Writer :=
  let (hoists, writer) := Writer.aside { sourceMap := option.sourceMap }
    (plan.hoistPieces option plan.spans)
  let writer := { writer with level := if option.usesScope then 2 else 1 }
  let (assets, writer) := writer.aside plan.assetsPieces
  let (returned, writer) := writer.aside (plan.returnedPieces option plan.spans)
  plan.joinSections option { writer with level := 0 } hoists assets returned

end Plan

/-- Generated code, and the parts of the template that its places render, if that was asked for. -/
structure Generated where
  code : String
  mappings : Option (List Mapping)
deriving Inhabited, Repr

def generate (option : EmitOption) (plan : Plan) : Generated :=
  let whole := (plan.assemble option).out
  { code := whole.code, mappings := if option.sourceMap then some whole.mappings else none }

end TemplateCompiler
