import TemplateCompiler.Emit.Expression
import TemplateCompiler.Emit.View

/-! Writing the code of nodes. -/

namespace TemplateCompiler

structure Written where
  span : Span
  code : Option Code
  /-- Its code without the cell that keeps it. -/
  bare : Pieces
  /-- Its code as a whole. -/
  full : Pieces

namespace Written

/-- The code of a node where it is rendered. -/
def pieces (written : Written) : Pieces :=
  .mark written.span :: written.full

def isPlainText (written : Written) : Bool :=
  match written.code with
  | some { body := .text call, cache := none } => call.fastPath
  | _ => false

end Written

variable (onContext : String)

def textPieces (call : TextCall) : Pieces :=
  let joined := Pieces.join " + " (Expr.piecesAll onContext call.parts)
  if call.fastPath then joined
  else
    let flag := if call.needPatch then [.text (", " ++ PatchFlag.text.render)] else []
    .helper .createText :: .text "(" :: joined ++ flag ++ [.text ")"]

def childList (children : List Written) : Pieces :=
  .text "[" :: .indent ::
    ((children.map Written.pieces).intersperse [.text ",", .newline]).flatten ++
      [.dedent, .text "]"]

def defaultSlot (flag : PatchFlag) (children : List Written) : Pieces :=
  let stability :=
    if flag.contains .dynamicSlots then "_: 2 /* DYNAMIC */" else "_: 1 /* STABLE */"
  [.text "\x7b", .indent, .text "default: ", .helper .withCtx, .text "(() => "] ++
    childList children ++
      [.text "),", .newline, .text stability, .dedent, .text "\x7d"]

def childrenPieces (call : VNode) (children : List Written) : Pieces :=
  if call.isComponent && !call.rawChildren then defaultSlot call.patchFlag children
  else
    match children with
    | [only] => if only.isPlainText then only.pieces else childList children
    | _ => childList children

def openBlock (untracked : Bool) (inner : Pieces) : Pieces :=
  .text "(" :: .helper .openBlock :: .text (if untracked then "(true), " else "(), ") :: inner ++
    [.text ")"]

def creationPieces (call : VNode) (children : List Written) : Pieces :=
  let when (present : Bool) (pieces : Pieces) : Option Pieces :=
    if present then some pieces else none
  let args := Pieces.arguments "null"
    [some (call.tag.pieces onContext),
     call.props.map (Expr.pieces onContext),
     when (!call.children.isEmpty) (childrenPieces call children),
     when (!call.patchFlag.isEmpty) [.text call.patchFlag.render],
     when (!call.dynamicProps.isEmpty)
       (.text "[" :: Pieces.join ", " (Expr.piecesAll onContext call.dynamicProps) ++ [.text "]"])]
  .helper call.creator :: .text "(" :: args ++ [.text ")"]

def directivePieces (directive : RuntimeDirective) : Pieces :=
  .text "[" :: Pieces.arguments "void 0"
    ([some directive.name, directive.value, directive.argument, directive.modifiers].map fun part =>
      part.map (Expr.pieces onContext)) ++ [.text "]"]

def vnodePieces (call : VNode) (children : List Written) : Pieces :=
  let creation := creationPieces onContext call children
  let block := if call.isBlock then openBlock false creation else creation
  if call.directives.isEmpty then block
  else
    .helper .withDirectives :: .text "(" :: block ++ .text ", [" ::
      Pieces.join ", " (call.directives.map (directivePieces onContext)) ++ [.text "])"]

/-- A chain of branches. The written nodes are those of the branches in order, then the one of the
last resort. -/
def conditionalPieces : List Link → List Written → Pieces
  | [], [] => [.helper .createComment, .text "(\"v-if\", true)"]
  | [], last :: _ => last.pieces
  | link :: links, written =>
    .text "(" :: link.test.pieces onContext ++ [.text ")", .indent, .text "? "] ++
      (written.take 1).flatMap Written.pieces ++ [.newline, .text ": "] ++
        conditionalPieces links (written.drop 1) ++ [.outdent]

/-- Parameters up to the last one that is there; those missing before it are `_`, `__` and so on. -/
def parameterPieces (skipped : Nat) : List (Option Pieces) → List Pieces
  | [] => []
  | some given :: rest => given :: parameterPieces skipped rest
  | none :: rest =>
    if rest.any Option.isSome then
      [.text (String.ofList (List.replicate (skipped + 1) '_'))] ::
        parameterPieces (skipped + 1) rest
    else []

def parameterList (params : List (Option Pieces)) : Pieces :=
  .text "(" :: Pieces.join ", " (parameterPieces 0 params) ++ [.text ")"]

def itemFunction (params : List (Option Pieces)) (body : Written) : Pieces :=
  parameterList params ++ [.text " => \x7b", .indent, .text "return "] ++ body.pieces ++
    [.dedent, .text "\x7d)"]

/-- The function that renders an item, or takes the one that was kept. -/
def memoFunction (params : List (Option Pieces)) (dependencies : Expr) (key : Option Expr)
    (slot : Nat) (body : Written) : Pieces :=
  let sameKey := match key with
    | some key => .text " && _cached.key === " :: key.pieces onContext
    | none => []
  parameterList (params ++ [some [.text "_cached"]]) ++
    [.text " => \x7b", .indent, .text "const _memo = ("] ++ dependencies.pieces onContext ++
    [.text ")", .newline, .text "if (_cached"] ++ sameKey ++
    [.text " && ", .helper .isMemoSame, .text "(_cached, _memo)) return _cached", .newline,
     .text "const _item = ", .mark body.span] ++ body.bare ++
    [.newline, .text "_item.memo = _memo", .newline, .text "return _item", .dedent,
     .text ("\x7d, _cache, " ++ toString slot ++ ")")]

def renderListPieces (call : LoopCall) (body : Written) : Pieces :=
  let params := [call.value, call.key, call.index].map fun param =>
    param.map (Expr.pieces onContext)
  .helper .renderList :: .text "(" :: call.source.pieces onContext ++ .text ", " ::
    match body.code.bind (·.cache) with
    | some { slot, kind := .memoInLoop dependencies key } =>
      memoFunction onContext params dependencies key slot body
    | _ => itemFunction params body

def loopPieces (call : LoopCall) (body : List Written) : Pieces :=
  openBlock (!call.isStable)
    (.helper .createElementBlock :: .text "(" :: .helper .fragment :: .text ", null, " ::
      body.flatMap (renderListPieces onContext call) ++
        [.text (", " ++ call.flag.render ++ ")")])

def cachePieces (cell : CacheCell) (inner : Pieces) : Pieces :=
  let place := "_cache[" ++ toString cell.slot ++ "]"
  let memo (dependencies : Expr) : Pieces :=
    .helper .withMemo :: .text "(" :: dependencies.pieces onContext ++ .text ", () => " :: inner ++
      [.text (", _cache, " ++ toString cell.slot ++ ")")]
  match cell.kind with
  | .once =>
    [.text (place ++ " || ("), .indent, .helper .setBlockTracking, .text "(-1),", .newline,
     .text (place ++ " = ")] ++ inner ++
      [.text ",", .newline, .helper .setBlockTracking, .text "(1),", .newline, .text place, .dedent,
       .text ")"]
  | .memo dependencies => memo dependencies
  | .memoInLoop dependencies _ => memo dependencies

def bodyPieces (references : List Written) : CodeBody → Pieces
  | .vnode call => vnodePieces onContext call references
  | .text call => textPieces onContext call
  | .comment text => [.helper .createComment, .text ("(" ++ Text.quoted text ++ ")")]
  | .conditional links _ => conditionalPieces onContext links references
  | .loop call => loopPieces onContext call references
  | .hoisted index => [.text ("_hoisted_" ++ toString index)]

def writeCode (span : Span) (references : List Written) : Option Code → Written
  | none => { span, code := none, bare := [.text "null"], full := [.text "null"] }
  | some code =>
    let bare := bodyPieces onContext references code.body
    let full := match code.cache with
      | none => bare
      | some cell => cachePieces onContext cell bare
    { span, code := some code, bare, full }

mutual

def View.write : View → Written
  | .node span code references => writeCode onContext span (writeAll references) code

def View.writeAll : List View → List Written
  | [] => []
  | view :: rest => view.write :: writeAll rest

end

end TemplateCompiler
