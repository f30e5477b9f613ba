import TemplateCompiler.Emit.Section
import TemplateCompiler.Render.Plan
import TemplateCompiler.Report.Template

/-! Render plans as documents. -/

namespace TemplateCompiler

open Document

def HandlerKind.name : HandlerKind → String
  | inlineStatement => "InlineStmt"
  | member => "MemberExpr"
  | function => "FuncExpr"

mutual

def Expr.document : Expr → Document
  | .source script => variant "Src" (.text script)
  | .number value => variant "Num" (.number value)
  | .literal phrase => variant "StrLit" phrase.document
  | .madeLiteral made => variant "OwnedLit" (.text made)
  | .simple phrase level => variant "Simple" (list [phrase.document, .text level.name])
  | .param name => variant "Param" (.text name)
  | .context name => variant "Ctx" (.text name)
  | .compound parts => variant "Compound" (list (documentAll parts))
  | .props entries => variant "Props" (list (documentEntries entries))
  | .call helper args => variant "Call" (list [.text helper.name, list (documentAll args)])
  | .symbol helper => variant "Symbol" (.text helper.name)
  | .array items => variant "Array" (list (documentAll items))
  | .handler body traits =>
    variant "Handler" (record [("body", body.document), ("ty", .text traits.kind.name),
      ("cacheable", bool traits.cacheable), ("cache_slot", option .number traits.slot),
      ("scope_ref", bool traits.refersToScope), ("modifiers", texts traits.modifiers),
      ("key_modifiers", texts traits.keyModifiers)])

def Expr.documentAll : List Expr → List Document
  | [] => []
  | expr :: rest => expr.document :: documentAll rest

def Expr.documentEntries : List (Expr × Expr) → List Document
  | [] => []
  | (key, value) :: rest => list [key.document, value.document] :: documentEntries rest

end

def PatchFlag.document (flag : PatchFlag) : Document :=
  .text flag.describe

def RuntimeDirective.document (directive : RuntimeDirective) : Document :=
  record [("name", directive.name.document), ("expr", option Expr.document directive.value),
    ("arg", option Expr.document directive.argument),
    ("mods", option Expr.document directive.modifiers)]

def VNode.document (vnode : VNode) : Document :=
  record [("tag", vnode.tag.document), ("props", option Expr.document vnode.props),
    ("children", listOf number vnode.children), ("patch_flag", vnode.patchFlag.document),
    ("dynamic_props", listOf Expr.document vnode.dynamicProps),
    ("directives", listOf RuntimeDirective.document vnode.directives),
    ("is_block", bool vnode.isBlock), ("is_component", bool vnode.isComponent),
    ("raw_children", bool vnode.rawChildren)]

def VNode.callDocument (vnode : VNode) : Document :=
  variant "VNodeCall" vnode.document

def TextCall.document (call : TextCall) : Document :=
  record [("fast_path", bool call.fastPath), ("need_patch", bool call.needPatch),
    ("texts", listOf Expr.document call.parts)]

/-- A chain of branches, each the alternate of the one in front of it. -/
def conditionalDocument (otherwise : Option NodeId) : List Link → Document
  | [] =>
    match otherwise with
    | some id => variant "Node" (number id)
    | none => .text "Comment"
  | link :: rest =>
    let alternate := conditionalDocument otherwise rest
    variant "ConditionalExpr" (record [("test", link.test.document),
      ("consequent", number link.consequent),
      ("alternate", if rest.isEmpty then alternate else variant "Conditional" alternate)])

def LoopCall.document (call : LoopCall) : Document :=
  record [("source", call.source.document),
    ("params", record [("value", option Expr.document call.value),
      ("key", option Expr.document call.key), ("index", option Expr.document call.index)]),
    ("body", number call.body), ("is_stable", bool call.isStable),
    ("fragment_flag", call.flag.document)]

def CodeBody.document : CodeBody → Document
  | vnode call => call.callDocument
  | .text call => variant "TextCall" call.document
  | comment source => variant "CommentCall" (.text source)
  | conditional links otherwise => conditionalDocument otherwise links
  | loop call => variant "ForExpr" call.document
  | hoisted index => variant "HoistRef" (number index)

def CacheKind.document : CacheKind → Document
  | once => .text "Once"
  | memo dependencies => variant "Memo" dependencies.document
  | memoInLoop dependencies key =>
    variant "MemoInVFor" (record [("expr", dependencies.document),
      ("key", option Expr.document key)])

def Code.document (code : Code) : Document :=
  match code.cache with
  | none => code.body.document
  | some cell =>
    variant "CacheExpr" (record [("slot", number cell.slot), ("kind", cell.kind.document),
      ("inner", code.body.document)])

def RootCode.document : RootCode → Document
  | empty => .text "Empty"
  | single id => variant "Single" (number id)
  | fragment call => variant "Fragment" call.document

def CacheMark.name : CacheMark → String
  | once => "Once"
  | memo => "Memo"

def SlotKind.name : SlotKind → String
  | once => "Once"
  | memo => "Memo"
  | handler => "Handler"

def CacheSlot.document (slot : CacheSlot) : Document :=
  record [("kind", .text slot.kind.name), ("node", number slot.node)]

namespace Plan

def marksDocument (plan : Plan) : Document :=
  listOf (fun entry => list [number entry.1, .text entry.2.name]) plan.marks.sorted

def dependenciesDocument (plan : Plan) : Document :=
  listOf (fun entry => list [number entry.1, entry.2.document]) plan.memoDependencies.sorted

def document (plan : Plan) : Document :=
  record [("ast", plan.template.document),
    ("codegen", listOf (option Code.document) plan.table.entries.toList),
    ("root", plan.root.document), ("helpers", number 0), ("components", texts plan.components),
    ("directives", texts plan.directives), ("hoists", listOf VNode.callDocument plan.hoists),
    ("cache_slots", listOf CacheSlot.document plan.slots)]

end Plan

def Mapping.document (mapping : Mapping) : Document :=
  record [("generated_line", number mapping.line), ("generated_column", number mapping.column),
    ("source", mapping.source.document)]

end TemplateCompiler
