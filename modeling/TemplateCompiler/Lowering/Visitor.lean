import TemplateCompiler.Lowering.Machine
import TemplateCompiler.Lowering.Template

/-! The passes of lowering on stored nodes. What a pass reads of a node, it looks up by the number of
the node; what it decides is decided as in the walk over a tree. -/

namespace TemplateCompiler

open Walking

namespace Once

def visitor : Visitor where
  enter _ id := do
    let node ← look id
    if node.properties.hasDirective "once" && !(← inOnce) then
      note fun progress => { progress with onceNodes := id :: progress.onceNodes }
      return true
    else return false
  exit _ id := note fun progress => { progress with marks := progress.marks.insert id .once }

end Once

namespace Conditional

/-- The key of the first branch. The siblings in front are counted, so there have to be as many as
the index says. -/
def countBranches : Walking Nat := do
  let siblings ← siblings
  let slot ← place
  if siblings.length < slot.index then throw .branchWithoutSiblings
  else
    let before ← (siblings.take slot.index).mapM look
    return before.foldl (fun count node => count + node.branchCount) 0

def takeStored (id : NodeId) (name : String) : Walking (Option Value) := do
  let conditioned := takeCondition (← look id) name
  setContent id conditioned.node.content
  note (·.report conditioned.problems)
  return conditioned.condition

def removeNexts : Nat → Walking Unit
  | 0 => return ()
  | count + 1 => do
    removeNext 1
    removeNexts count

def alternativeStep : List (Branch × NodeId) × Nat × Nat →
    Walking ((List (Branch × NodeId) × Nat × Nat) ⊕ List (Branch × NodeId))
  | (taken, key, skipped) => do
    match (← siblings)[(← place).index + 1 + skipped]? with
    | none => return .inr taken
    | some next =>
      let node ← look next
      if node.isBlankText || node.isComment then return .inl (taken, key, skipped + 1)
      else if node.properties.hasDirective "else-if" then
        removeNexts (skipped + 1)
        let condition ← takeStored next "else-if"
        return .inl (taken ++ [({ condition, key, span := node.span }, next)], key + 1, 0)
      else if node.properties.hasDirective "else" then
        removeNexts (skipped + 1)
        setContent next (takeCondition node "else").node.content
        return .inr (taken ++ [({ condition := none, key, span := node.span }, next)])
      else return .inr taken

/-- Take the alternatives from among the siblings behind the slot. The next `skipped` siblings are
blank text and comments, which go away if an alternative follows. -/
def takeAlternatives (taken : List (Branch × NodeId)) (key skipped : Nat) :
    Walking (List (Branch × NodeId)) :=
  repeatM alternativeStep (taken, key, skipped)

def storeConditional (span : Span) (branches : List (Branch × NodeId)) : Walking Unit := do
  let nodes ← (branches.map (·.2)).mapM look
  note (·.report (repeatedKeys {} nodes))
  let conditional ← alloc
    { content := .conditional (branches.map (·.1)), span, children := branches.map (·.2) }
  replaceNode conditional

def groupStored (id : NodeId) : Walking Unit := do
  let key ← countBranches
  let node ← look id
  let condition ← takeStored id "if"
  let branches ← takeAlternatives [({ condition, key, span := node.span }, id)] (key + 1) 0
  storeConditional (node.span.join ((branches.getLast?.map (·.1.span)).getD node.span)) branches

def visitor : Visitor where
  enter _ id := do
    let node ← look id
    if node.properties.hasDirective "if" then
      groupStored id
      return true
    else
      match node.properties.findDirective? (["else-if", "else"].contains ·) with
      | none => return false
      | some directive =>
        note (·.report [{ kind := .elseWithoutIf, span := directive.span }])
        removeNode
        return false
  exit _ id := do
    let cell ← stored id
    match cell.content with
    | .conditional branches =>
      let nodes ← cell.children.mapM look
      let pairs := branches.zip nodes
      note fun progress =>
        pairs.foldl (fun progress pair => keyBranch progress pair.1 pair.2) progress
      let written ← take (links (← surroundings) pairs)
      if written.1.isEmpty then return ()
      else note (·.setCode id (.conditional written.1 written.2))
    | _ => return ()

end Conditional

namespace Loops

/-- Put a placeholder in place of the node in the slot. -/
def degradeStored (span : Span) : Walking Bool := do
  let placeholder ← alloc { content := .comment "v-for", span }
  replaceNode placeholder
  return false

/-- Report the first key that is set on a child, where the repeated `template` tag should have it. -/
def checkKeys (node : Node) (children : List NodeId) : Walking Unit := do
  match node.element? with
  | some { kind := .fragment, .. } =>
    let nodes ← children.mapM look
    note (·.report ((misplacedKey? { node with children := nodes }).toList.map fun place =>
      { kind := .forTemplateKey, span := place }))
  | _ => return ()

def wrapStored (ordinal : Nat) (id : NodeId) (node : Node) (expression : LoopExpression)
    (span : Span) : Walking Bool := do
  checkKeys node (← stored id).children
  let source ← take ((← surroundings).resolve expression.source span)
  let loop : Loop :=
    { source := { content := { raw := expression.source }, span }
      value := expression.value
      key := expression.key
      index := expression.index }
  let wrapped ← alloc { content := .loop loop, span := node.span, children := [id] }
  replaceNode wrapped
  let bound ← take (boundNames (← get).progress.reader loop)
  note fun progress =>
    { progress with
      scope := progress.scope.addAll bound
      frames := { pass := ordinal, loop := wrapped, source, aliases := bound } :: progress.frames }
  return true

/-- Leave the scope of a loop, whose frame has to be that of the node. -/
def closeFrame (ordinal : Nat) (id : NodeId) : Walking (Option LoopFrame) := do
  let popped := popFrame ordinal (← get).progress.frames
  match popped.1 with
  | none => return none
  | some frame =>
    assert (frame.loop == id)
    note fun progress =>
      { progress with frames := popped.2, scope := progress.scope.removeAll frame.aliases }
    return some frame

def visitor : Visitor where
  enter ordinal id := do
    let node ← look id
    let taken := node.properties.takeDirective (· == "for")
    match taken.1 with
    | none => return false
    | some directive =>
      let rest := node.withProperties taken.2
      setContent id rest.content
      match directive.emptyProblem? .forWithoutExpression, directive.expression with
      | some problem, _ =>
        note (·.report [problem])
        degradeStored node.span
      | none, none => degradeStored node.span
      | none, some value =>
        match LoopExpression.parse? value.content.raw with
        | some expression => wrapStored ordinal id rest expression value.span
        | none =>
          note (·.report [{ kind := .forMalformed, span := value.span }])
          degradeStored node.span
  exit ordinal id := do
    match ← closeFrame ordinal id with
    | none => return ()
    | some frame =>
      let cell ← stored id
      match cell.content, cell.children with
      | .loop loop, body :: _ =>
        let child ← look body
        note (write frame (cell.node id) child loop)
      | _, _ => return ()

end Loops

namespace Memo

def keepStored (id : NodeId) (value : Value) : Walking Unit := do
  let dependencies ← take ((← surroundings).resolveValue value)
  note fun progress =>
    { progress with
      memoDependencies := progress.memoDependencies.insert id dependencies
      marks := progress.marks.insertNew id .memo }

def readMemo (id : NodeId) (directive : Directive) : Walking Unit := do
  match directive.emptyProblem? .memoWithoutExpression, directive.expression with
  | some problem, _ => note (·.report [problem])
  | none, none => return ()
  | none, some value => if ← inOnce then return () else keepStored id value

def visitor : Visitor where
  enter _ id := do
    let node ← look id
    let taken := node.properties.takeDirective (· == "memo")
    match taken.1 with
    | none => return false
    | some directive =>
      setContent id (node.withProperties taken.2).content
      readMemo id directive
      return false

end Memo

namespace Elements

def visitor : Visitor where
  enter _ id := do
    match (← stored id).content with
    | .comment source =>
      note (·.setCode id (.comment source))
      return false
    | .element _ => return true
    | _ => return false
  exit _ id := do
    let cell ← stored id
    match cell.content with
    | .element element =>
      let table := (← get).progress.table
      let around ← surroundings
      note (addAssets element)
      let vnode ← take (lowerElement around table element cell.children)
      note (·.setCode id (.vnode vnode))
    | _ => return ()
  exitRoot := do
    let roots := (← get).roots
    note (exitRoot (← roots.mapM look))

end Elements

namespace TextRun

def head (run : List Node) : Except Fault Node :=
  match run[0]? with
  | some node => .ok node
  | none => .error .sliceOutOfRange

/-- The nodes that stay, and the runs of texts among the nodes; a run was begun. -/
def gather (run : List Node) : List Node → Except Fault (List NodeId × List (List Node))
  | [] =>
    if run.isEmpty then .ok ([], [])
    else do
      let first ← head run
      return ([first.id], [run])
  | node :: nodes =>
    if node.isTextLike then gather (run ++ [node]) nodes
    else do
      let (kept, runs) ← gather [] nodes
      if run.isEmpty then return (node.id :: kept, runs)
      else
        let first ← head run
        return (first.id :: node.id :: kept, run :: runs)

def writeRun (around : Surroundings) (fastPath : Bool) (run : List Node) : Walking Unit := do
  let parts ← take (run.mapM (part around))
  let needPatch := parts.any fun expr => !expr.level.isStatic
  let first ← fallible (head run)
  note (·.setCode first.id (.text { fastPath, needPatch, parts }))

def mergeStored (parent : Option NodeId) (takesText : Bool) : Walking Unit := do
  let nodes ← (← childrenOf parent).mapM look
  if nodes.any Node.isTextLike then
    let (kept, runs) ← fallible (gather [] nodes)
    let fastPath := takesText && kept.length = 1
    let around := (← get).progress.surroundings {}
    runs.forM (writeRun around fastPath)
    setChildren kept parent
  else return ()

def visitor : Visitor where
  enter _ id := return (← stored id).isElement
  exit _ id := do
    match (← stored id).content with
    | .element element => mergeStored (some id) (element.kind = .plain)
    | _ => return ()
  exitRoot := mergeStored none true

end TextRun

def defaultVisitors : List Visitor :=
  [Once.visitor, Conditional.visitor, Loops.visitor, Memo.visitor, Elements.visitor,
    TextRun.visitor]

def LowerOption.stored (option : LowerOption) (template : Template) : Context where
  cells := (template.nodes.map Node.cell).toArray
  roots := template.roots.map (·.id)
  progress := { reader := option.reader, cacheHandlers := option.cacheHandlers }

end TemplateCompiler
