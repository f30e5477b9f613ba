import TemplateCompiler.Lowering.Template
import TemplateCompiler.Proofs.NodeNumbering

/-! What a finished node looks like. A node is settled if its code says what its content, its
surroundings and its place ask for, and the nodes below it are settled in turn. Being settled is a
matter of the numbers on the node and below it, so a change elsewhere does not disturb it. -/

namespace TemplateCompiler

namespace NodeMap

variable {α : Type}

theorem get?_insert (map : NodeMap α) (id other : NodeId) (value : α) :
    (map.insert id value).get? other = if other = id then some value else map.get? other := by
  simp only [get?, insert, List.lookup_cons]
  by_cases same : other = id
  · simp [same]
  · have different : (other == id) = false := beq_eq_false_iff_ne.2 same
    simp only [different, if_neg same]
    induction map with
    | nil => rfl
    | cons entry rest ih =>
      by_cases gone : entry.1 = id
      · have skipped : (other == entry.1) = false := by rw [gone]; exact different
        rw [List.filter_cons_of_neg (by simp [gone]), ih, List.lookup_cons, skipped]
      · rw [List.filter_cons_of_pos (by simp [gone]), List.lookup_cons, List.lookup_cons, ih]

theorem get?_insertNew (map : NodeMap α) (id other : NodeId) (value : α) (unset : map.get? id = none) :
    (map.insertNew id value).get? other = if other = id then some value else map.get? other := by
  rw [insertNew, contains, unset]
  exact get?_insert map id other value

end NodeMap

theorem Code.mapVNode_id (code : Code) : code.mapVNode id = code := by
  simp only [mapVNode]
  split <;> rfl

theorem Table.get?_modify (table : Table) (id other : NodeId) (change : Code → Code) :
    (table.modify id change).get? other =
      if other = id then (table.get? other).map change else table.get? other := by
  simp only [modify]
  split
  · next code found =>
    rw [get?_set]
    split
    · next same => rw [same, found, Option.map_some]
    · rfl
  · next missing =>
    split
    · next same => rw [same, missing, Option.map_none]
    · rfl

theorem Table.lt_size_of_get? {table : Table} {id : NodeId} {code : Code}
    (found : table.get? id = some code) : id < table.size := by
  by_contra outside
  rw [get?, Array.getElem?_eq_none (Nat.le_of_not_lt outside)] at found
  cases found

namespace Progress

/-- Two states know the same of a number. -/
structure Agrees (number : NodeId) (before after : Progress) : Prop where
  table : after.table.get? number = before.table.get? number
  dependencies : after.memoDependencies.get? number = before.memoDependencies.get? number
  mark : after.marks.get? number = before.marks.get? number
  once : after.onceNodes.contains number = before.onceNodes.contains number
  entered : ∀ pass, after.hasEntered pass number = before.hasEntered pass number

theorem Agrees.refl (number : NodeId) (progress : Progress) : Agrees number progress progress :=
  ⟨rfl, rfl, rfl, rfl, fun _ => rfl⟩

theorem Agrees.trans {number : NodeId} {before middle after : Progress}
    (first : Agrees number before middle) (last : Agrees number middle after) :
    Agrees number before after :=
  ⟨last.table.trans first.table, last.dependencies.trans first.dependencies,
    last.mark.trans first.mark, last.once.trans first.once,
    fun pass => (last.entered pass).trans (first.entered pass)⟩

/-- What is remembered of a number besides its code: dependencies were resolved where the node is,
and in a subtree that is rendered once nothing is kept apart. -/
structure Noted (progress : Progress) (around : Surroundings) (number : NodeId) : Prop where
  dependencies : ∀ expr, progress.memoDependencies.get? number = some expr →
    ∃ value, expr = (around.resolveValue value).value
  mark : around.inOnce = true → progress.marks.get? number = none

theorem Noted.agrees {before after : Progress} {around : Surroundings} {number : NodeId}
    (noted : before.Noted around number) (same : Agrees number before after) :
    after.Noted around number := by
  constructor
  · rw [same.dependencies]
    exact noted.dependencies
  · rw [same.mark]
    exact noted.mark

end Progress

namespace Surroundings

def inside (around : Surroundings) (element : Element) : Surroundings :=
  { around with inOnce := around.inOnce || element.properties.hasDirective "once" }

end Surroundings

def Loop.names (loop : Loop) (reader : ScriptReader) : List String :=
  (Loops.boundNames reader loop).value

def Surroundings.within (around : Surroundings) (loop : Loop) : Surroundings :=
  { around with scope := around.scope.addAll (loop.names around.reader) }

/-- What the place of a node asks of its code. -/
inductive Role where
  /-- One of the children of an element or of a root with several of them. -/
  | child (alone : Bool)
  | branch (key : Nat)
  /-- The body of a loop. -/
  | item (isStable : Bool)
  /-- The only node of a template. -/
  | root

namespace Role

/-- Whether a text may go without a node of its own. -/
def alone : Role → Bool
  | child alone => alone
  | root => true
  | branch _ | item _ => false

/-- The virtual node of an element in its place. -/
def finish (properties : Properties) (vnode : VNode) : Role → VNode
  | child _ => vnode
  | branch key =>
    { vnode with
        isBlock := true
        props :=
          if (properties.setter? "key").isSome then vnode.props
          else some (Conditional.addKey key vnode.props) }
  | item isStable => { vnode with isBlock := !isStable }
  | root => { vnode with isBlock := true }

end Role

def TextRun.call (around : Surroundings) (fastPath : Bool) (members : List Node) : TextCall :=
  let parts := (members.mapM (part around)).value
  { fastPath, needPatch := parts.any fun expr => !expr.level.isStatic, parts }

def Loops.call (around : Surroundings) (loop : Loop) (child : Node) : LoopCall :=
  let source := (around.resolveValue loop.source).value
  { source
    value := loop.value.map Expr.param
    key := loop.key.map Expr.param
    index := loop.index.map Expr.param
    body := child.id
    isStable := source.level.isStatic
    flag := fragmentFlag source.level.isStatic (child.properties.setter? "key").isSome }

def Conditional.Chained : List Branch → Prop
  | [] | [_] => True
  | branch :: rest => branch.condition.isSome = true ∧ Chained rest

def Conditional.body (around : Surroundings) (pairs : List (Branch × Node)) : CodeBody :=
  .conditional (links around pairs).value.1 (links around pairs).value.2

inductive Settled (progress : Progress) : Surroundings → Role → Node → Prop
  | text {around : Surroundings} {role : Role} {node : Node} {members : List Node}
      (isText : node.isTextLike = true) (leaf : node.children = [])
      (first : members.head? = some node)
      (texts : ∀ member ∈ members, member.isTextLike = true)
      (noted : progress.Noted around node.id)
      (code : progress.table.get? node.id =
        some { body := .text (TextRun.call around role.alone members) }) :
      Settled progress around role node
  | comment {around : Surroundings} {role : Role} {id : NodeId} {source : String} {span : Span}
      (noted : progress.Noted around id)
      (code : progress.table.get? id = some { body := .comment source }) :
      Settled progress around role ⟨id, .comment source, span, []⟩
  | element {around : Surroundings} {role : Role} {id : NodeId} {element : Element} {span : Span}
      {children : List Node}
      (noted : progress.Noted around id)
      (code : progress.table.get? id = some { body := .vnode (role.finish element.properties
          (lowerElement (around.inside element) progress.table element
            (children.map (·.id))).value) })
      (below : ∀ child ∈ children, Settled progress (around.inside element)
        (.child (element.kind = .plain && children.length = 1)) child) :
      Settled progress around role ⟨id, .element element, span, children⟩
  | conditional {around : Surroundings} {role : Role} {id : NodeId} {span : Span}
      {pairs : List (Branch × Node)}
      (noted : progress.Noted around id)
      (chained : Conditional.Chained (pairs.map (·.1)))
      (tested : (pairs.head?.bind (·.1.condition)).isSome = true)
      (code : progress.table.get? id = some { body := Conditional.body around pairs })
      (below : ∀ pair ∈ pairs, Settled progress around (.branch pair.1.key) pair.2) :
      Settled progress around role ⟨id, .conditional (pairs.map (·.1)), span, pairs.map (·.2)⟩
  | loop {around : Surroundings} {role : Role} {id : NodeId} {span : Span} {loop : Loop}
      {child : Node}
      (noted : progress.Noted around id)
      (code : progress.table.get? id = some { body := .loop (Loops.call around loop child) })
      (below : Settled progress (around.within loop)
        (.item (around.resolveValue loop.source).value.level.isStatic) child)
      (repeated : child.isElement = true)
      (apart : progress.marks.get? child.id ≠ some .once) :
      Settled progress around role ⟨id, .loop loop, span, [child]⟩

namespace Settled

variable {before after : Progress} {around : Surroundings} {role : Role} {node : Node}

theorem lowerElement_congr {table other : Table} {element : Element} {children : List Node}
    (same : ∀ child ∈ children, other.get? child.id = table.get? child.id) :
    lowerElement around other element (children.map (·.id)) =
      lowerElement around table element (children.map (·.id)) := by
  have flags (isComponent rawChildren : Bool) :
      childrenFlag around other isComponent rawChildren (children.map (·.id)) =
        childrenFlag around table isComponent rawChildren (children.map (·.id)) := by
    simp only [childrenFlag]
    split
    · rfl
    · split
      · next only listed =>
        obtain ⟨child, alone, rfl⟩ := List.map_eq_singleton_iff.1 listed
        rw [same child (by simp [alone])]
      · rfl
  simp only [lowerElement, flags]

/-- A settled node stays so as long as nothing changes on it and below it. -/
theorem agrees (settled : Settled before around role node)
    (same : ∀ number, 0 < Node.tally number [node] → before.Agrees number after) :
    Settled after around role node := by
  induction settled with
  | text isText leaf first texts noted code =>
    have own := same _ (Node.tally_self_pos _)
    exact .text isText leaf first texts (noted.agrees own) (own.table.trans code)
  | comment noted code =>
    have own := same _ (Node.tally_self_pos ⟨_, _, _, _⟩)
    exact .comment (noted.agrees own) (own.table.trans code)
  | @element around role id element span children noted code below ih =>
    have own := same _ (Node.tally_self_pos ⟨_, _, _, _⟩)
    have deeper (child : Node) (member : child ∈ children) (number : NodeId)
        (present : 0 < Node.tally number [child]) : before.Agrees number after :=
      same number (Node.tally_pos_of_child ⟨_, _, _, _⟩ member present)
    refine .element (noted.agrees own) ?_ fun child member => ih child member (deeper child member)
    rw [lowerElement_congr fun child member =>
      (deeper child member _ (Node.tally_self_pos child)).table]
    exact own.table.trans code
  | @conditional around role id span pairs noted chained tested code below ih =>
    have own := same _ (Node.tally_self_pos ⟨_, _, _, _⟩)
    refine .conditional (noted.agrees own) chained tested (own.table.trans code) fun pair member => ?_
    exact ih pair member fun number present =>
      same number (Node.tally_pos_of_child ⟨_, _, _, _⟩
        (List.mem_map_of_mem member) present)
  | @loop around role id span loop child noted code below repeated apart ih =>
    have own := same _ (Node.tally_self_pos ⟨_, _, _, _⟩)
    have deeper (number : NodeId) (present : 0 < Node.tally number [child]) :
        before.Agrees number after :=
      same number (Node.tally_pos_of_child ⟨_, _, _, _⟩ (List.mem_singleton_self child) present)
    refine .loop (noted.agrees own) (own.table.trans code) (ih deeper) repeated ?_
    rw [(deeper child.id (Node.tally_self_pos child)).mark]
    exact apart

theorem noted (settled : Settled before around role node) : before.Noted around node.id := by
  cases settled <;> assumption

theorem recast {alone : Bool} (settled : Settled before around (.child alone) node)
    (noText : node.isTextLike = false) (other : Bool) :
    Settled before around (.child other) node := by
  cases settled with
  | text isText => rw [isText] at noText; cases noText
  | comment noted code => exact .comment noted code
  | element noted code below => exact .element noted code below
  | conditional noted chained tested code below =>
    exact .conditional noted chained tested code below
  | loop noted code below repeated apart => exact .loop noted code below repeated apart

/-- The parent of a node may change its virtual node to fit it into its place. -/
theorem adopt {other : Role} (settled : Settled before around role node) (change : VNode → VNode)
    (below : ∀ number, 0 < Node.tally number node.children → before.Agrees number after)
    (noted : after.Noted around node.id)
    (code : after.table.get? node.id = (before.table.get? node.id).map (·.mapVNode change))
    (fits : ∀ vnode, change (role.finish node.properties vnode) = other.finish node.properties vnode)
    (alone : node.isTextLike = true → other.alone = role.alone) :
    Settled after around other node := by
  have deeper (child : Node) (member : child ∈ node.children) (number : NodeId)
      (present : 0 < Node.tally number [child]) : before.Agrees number after := by
    have := Node.tally_le_of_mem number member
    exact below number (by omega)
  cases settled with
  | text isText leaf first texts _ old =>
    refine .text isText leaf first texts noted ?_
    rw [code, old, alone isText]
    rfl
  | comment _ old =>
    refine .comment noted ?_
    dsimp only at code
    rw [code, old]
    rfl
  | @element _ _ id element span children _ old settled =>
    refine .element noted ?_ fun child member => (settled child member).agrees (deeper child member)
    dsimp only at code
    rw [code, old, lowerElement_congr fun child member =>
      (deeper child member _ (Node.tally_self_pos child)).table]
    exact congrArg (fun vnode => some ({ body := .vnode vnode } : Code)) (fits _)
  | conditional _ chained tested old settled =>
    refine .conditional noted chained tested ?_ fun pair member =>
      (settled pair member).agrees (deeper pair.2 (List.mem_map_of_mem member))
    dsimp only at code
    rw [code, old]
    rfl
  | @loop _ _ id span loop child _ old settled repeated apart =>
    have kept := deeper child (List.mem_singleton_self child)
    refine .loop noted ?_ (settled.agrees kept) repeated ?_
    · dsimp only at code
      rw [code, old]
      rfl
    · rw [(kept child.id (Node.tally_self_pos child)).mark]
      exact apart

end Settled

end TemplateCompiler
