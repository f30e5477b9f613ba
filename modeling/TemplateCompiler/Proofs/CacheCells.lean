import TemplateCompiler.Proofs.NodeNumbering
import TemplateCompiler.Render.Cache

/-! What handing out cells does to the code of one node. A marked node may be wrapped and the
handlers of a virtual node may get numbers, in any order and any number of times; nothing else ever
happens, and no node gains or loses its code. A node gets its cells when the walk comes to it, and
its code is left alone before and after. -/

namespace TemplateCompiler

namespace Caching

/-- A mark changes nothing of a virtual node but whether it is a block. -/
theorem exists_adjust (mark : CacheMark) (vnode : VNode) :
    ∃ isBlock, adjust mark vnode = { vnode with isBlock } := by
  cases mark with
  | once => exact ⟨false, rfl⟩
  | memo =>
    simp only [adjust]
    split
    · exact ⟨vnode.isBlock, rfl⟩
    · exact ⟨true, rfl⟩

variable (marks : NodeMap CacheMark) (dependencies : NodeMap Expr) (inLoop : Bool)
  (caching : Caching) (id : NodeId)

/-- Give a cell to the node itself, if it has a mark. -/
def wrapMarked : Caching :=
  match marks.get? id with
  | some mark => caching.wrap id mark ((dependencies.get? id).getD (.source "")) inLoop
  | none => caching

/-- All that is done for a node apart from its children: its mark first, then its handlers. -/
def enter : Caching :=
  (caching.wrapMarked marks dependencies inLoop id).cacheHandlers id

variable {id}

theorem get?_wrapMarked_of_ne {other : NodeId} (different : other ≠ id) :
    (caching.wrapMarked marks dependencies inLoop id).table.get? other =
      caching.table.get? other := by
  simp only [wrapMarked, wrap]
  split
  · split
    · exact (Table.get?_set ..).trans (if_neg different)
    · rfl
  · rfl

theorem get?_cacheHandlers_of_ne {other : NodeId} (different : other ≠ id) :
    (caching.cacheHandlers id).table.get? other = caching.table.get? other := by
  simp only [cacheHandlers]
  split
  · split
    · rfl
    · exact (Table.get?_set ..).trans (if_neg different)
  · rfl

theorem get?_enter_of_ne {other : NodeId} (different : other ≠ id) :
    (caching.enter marks dependencies inLoop id).table.get? other = caching.table.get? other := by
  rw [enter, get?_cacheHandlers_of_ne _ different]
  exact get?_wrapMarked_of_ne marks dependencies inLoop caching different

end Caching

namespace Plan

theorem cacheNode_eq (marks : NodeMap CacheMark) (dependencies : NodeMap Expr) (inLoop : Bool)
    (caching : Caching) (node : Node) :
    cacheNode marks dependencies inLoop caching node =
      cacheAll marks dependencies node.isLoop (caching.enter marks dependencies inLoop node.id)
        node.children := by
  obtain ⟨id, content, span, children⟩ := node
  unfold cacheNode
  cases content <;> rfl

mutual

/-- The walk over a node leaves alone the code of what is not below. -/
theorem get?_cacheNode_elsewhere (marks : NodeMap CacheMark) (dependencies : NodeMap Expr)
    (inLoop : Bool) (caching : Caching) {other : NodeId} : (node : Node) →
    Node.tally other [node] = 0 →
    (cacheNode marks dependencies inLoop caching node).table.get? other = caching.table.get? other
  | ⟨id, content, span, children⟩, absent => by
    rw [Node.tally_singleton] at absent
    have different : other ≠ id := by
      rintro rfl
      rw [List.count_singleton_self] at absent
      omega
    have below : Node.tally other children = 0 := by
      dsimp only at absent
      omega
    rw [cacheNode_eq, get?_cacheAll_elsewhere marks dependencies _ _ children below]
    exact Caching.get?_enter_of_ne marks dependencies inLoop caching different

theorem get?_cacheAll_elsewhere (marks : NodeMap CacheMark) (dependencies : NodeMap Expr)
    (inLoop : Bool) (caching : Caching) {other : NodeId} : (nodes : List Node) →
    Node.tally other nodes = 0 →
    (cacheAll marks dependencies inLoop caching nodes).table.get? other = caching.table.get? other
  | [], _ => by rw [cacheAll]
  | node :: rest, absent => by
    rw [Node.tally_cons] at absent
    rw [cacheAll, get?_cacheAll_elsewhere marks dependencies inLoop _ rest (by omega)]
    exact get?_cacheNode_elsewhere marks dependencies inLoop caching node (by omega)

end

inductive Recoded (marks : NodeMap CacheMark) (dependencies : NodeMap Expr) (id : NodeId)
    (old : Code) : Code → Prop
  | refl : Recoded marks dependencies id old old
  | wrap {body : CodeBody} {mark : CacheMark} (slot : Nat) (inLoop : Bool)
      (marked : marks.get? id = some mark) (earlier : Recoded marks dependencies id old { body }) :
      Recoded marks dependencies id old
        { Code.mapVNode { body } (Caching.adjust mark) with
            cache := some
              { slot
                kind := Caching.kindOf mark ((dependencies.get? id).getD (.source "")) inLoop
                  (Code.vnode? { body }) } }
  | handlers {vnode : VNode} {cache : Option CacheCell} {props : Expr} (next : Nat)
      (given : vnode.props = some props)
      (earlier : Recoded marks dependencies id old { body := .vnode vnode, cache }) :
      Recoded marks dependencies id old
        { body := .vnode { vnode with props := some (props.assignCells next).1 }, cache }

/-- Two tables of which the second one has cells that the first one lacks. -/
def Recodes (marks : NodeMap CacheMark) (dependencies : NodeMap Expr) (before after : Table) :
    Prop :=
  ∀ id, Option.Rel (Recoded marks dependencies id) (before.get? id) (after.get? id)

variable {marks : NodeMap CacheMark} {dependencies : NodeMap Expr} {table : Table}
  {caching : Caching}

theorem Recodes.refl (table : Table) : Recodes marks dependencies table table := by
  intro id
  cases table.get? id with
  | none => exact .none
  | some code => exact .some .refl

theorem Recodes.set {id : NodeId} {old new : Code}
    (recodes : Recodes marks dependencies table caching.table)
    (found : caching.table.get? id = some old)
    (step : ∀ first, Recoded marks dependencies id first old →
      Recoded marks dependencies id first new) :
    Recodes marks dependencies table (caching.table.set id new) := by
  intro other
  rw [Table.get?_set]
  split
  · next same =>
    subst same
    have earlier := recodes other
    rw [found] at earlier
    generalize table.get? other = first at earlier
    cases earlier with
    | some earlier => exact .some (step _ earlier)
  · exact recodes other

theorem Recodes.wrap {id : NodeId} {mark : CacheMark} (inLoop : Bool)
    (recodes : Recodes marks dependencies table caching.table)
    (marked : marks.get? id = some mark) :
    Recodes marks dependencies table
      (caching.wrap id mark ((dependencies.get? id).getD (.source "")) inLoop).table := by
  simp only [Caching.wrap]
  split
  · next found => exact recodes.set found fun _ earlier => .wrap _ inLoop marked earlier
  · exact recodes

theorem Recodes.cacheHandlers (id : NodeId)
    (recodes : Recodes marks dependencies table caching.table) :
    Recodes marks dependencies table (caching.cacheHandlers id).table := by
  simp only [Caching.cacheHandlers]
  split
  · next found =>
    split
    · exact recodes
    · next given => exact recodes.set found fun _ earlier => .handlers _ given earlier
  · exact recodes

mutual

theorem Recodes.cacheNode {caching : Caching} (inLoop : Bool)
    (recodes : Recodes marks dependencies table caching.table) : (node : Node) →
    Recodes marks dependencies table (cacheNode marks dependencies inLoop caching node).table
  | ⟨id, content, _, children⟩ => by
    unfold Plan.cacheNode
    refine Recodes.cacheAll _ (Recodes.cacheHandlers id ?_) children
    split
    · next marked => exact recodes.wrap inLoop marked
    · exact recodes

theorem Recodes.cacheAll {caching : Caching} (inLoop : Bool)
    (recodes : Recodes marks dependencies table caching.table) : (nodes : List Node) →
    Recodes marks dependencies table (cacheAll marks dependencies inLoop caching nodes).table
  | [] => by
    rw [Plan.cacheAll]
    exact recodes
  | node :: rest => by
    rw [Plan.cacheAll]
    exact Recodes.cacheAll inLoop (Recodes.cacheNode inLoop recodes node) rest

end

theorem injectCache_recodes (plan : Plan) :
    Recodes plan.marks plan.memoDependencies plan.table plan.injectCache.table :=
  Recodes.cacheAll false (Recodes.refl plan.table) plan.template.roots

end Plan

end TemplateCompiler
