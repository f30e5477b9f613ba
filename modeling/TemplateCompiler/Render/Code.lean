import TemplateCompiler.Render.Expr
import TemplateCompiler.Render.PatchFlag
import TemplateCompiler.Template.Node

/-! What is generated for each node of a template. Children are referred to by their numbers; a
table gives the code of each number. -/

namespace TemplateCompiler

structure RuntimeDirective where
  name : Expr
  value : Option Expr
  argument : Option Expr
  modifiers : Option Expr
deriving Inhabited, Repr

/-- A call that makes a virtual node. -/
structure VNode where
  tag : Expr := .source ""
  props : Option Expr := none
  children : List NodeId := []
  patchFlag : PatchFlag := .empty
  /-- The names of the properties that can change. -/
  dynamicProps : List Expr := []
  directives : List RuntimeDirective := []
  isBlock : Bool := false
  isComponent : Bool := false
  /-- The children are passed as a plain list though the node is a component. -/
  rawChildren : Bool := false
deriving Inhabited, Repr

namespace VNode

def creator (vnode : VNode) : Helper :=
  match vnode.isBlock, vnode.isComponent with
  | true, true => .createBlock
  | true, false => .createElementBlock
  | false, true => .createVNode
  | false, false => .createElementVNode

end VNode

structure TextCall where
  /-- It is the only child, so the bare text is enough. -/
  fastPath : Bool
  needPatch : Bool
  parts : List Expr
deriving Inhabited, Repr

structure Link where
  test : Expr
  consequent : NodeId
deriving Inhabited, Repr

structure LoopCall where
  source : Expr
  value : Option Expr
  key : Option Expr
  index : Option Expr
  body : NodeId
  isStable : Bool
  flag : PatchFlag
deriving Inhabited, Repr

inductive CodeBody where
  | vnode (call : VNode)
  | text (call : TextCall)
  | comment (text : String)
  /-- The branches in order; a placeholder stands in if there is no last resort. -/
  | conditional (links : List Link) (otherwise : Option NodeId)
  | loop (call : LoopCall)
  /-- A reference to a constant outside of the render function. -/
  | hoisted (index : Nat)
deriving Inhabited, Repr

inductive CacheKind where
  | once
  /-- Kept as long as the dependencies are the same. -/
  | memo (dependencies : Expr)
  /-- The same for an item of a loop, found again by its key. -/
  | memoInLoop (dependencies : Expr) (key : Option Expr)
deriving Inhabited, Repr

structure CacheCell where
  slot : Nat
  kind : CacheKind
deriving Inhabited, Repr

structure Code where
  body : CodeBody
  cache : Option CacheCell := none
deriving Inhabited, Repr

namespace Code

def vnode? (code : Code) : Option VNode :=
  match code.body with
  | .vnode call => some call
  | _ => none

/-- A virtual node that is not cached is changed; other code stays. -/
def mapVNode (code : Code) (change : VNode → VNode) : Code :=
  match code with
  | { body := .vnode call, cache := none } => { body := .vnode (change call) }
  | _ => code

end Code

structure Table where
  entries : Array (Option Code) := #[]
deriving Inhabited, Repr

namespace Table

def get? (table : Table) (id : NodeId) : Option Code :=
  (table.entries[id]?).join

/-- Give a node its code; the table grows as far as needed. -/
def set (table : Table) (id : NodeId) (code : Code) : Table :=
  let room := id + 1 - table.entries.size
  ⟨(table.entries ++ Array.replicate room none).setIfInBounds id (some code)⟩

def modify (table : Table) (id : NodeId) (change : Code → Code) : Table :=
  match table.get? id with
  | some code => table.set id (change code)
  | none => table

def size (table : Table) : Nat :=
  table.entries.size

theorem get?_set (table : Table) (id other : Nat) (code : Code) :
    (table.set id code).get? other = if other = id then some code else table.get? other := by
  simp only [get?, set, Array.getElem?_setIfInBounds, Array.size_append, Array.size_replicate]
  by_cases same : other = id
  · subst same
    have inside : other < table.entries.size + (other + 1 - table.entries.size) := by omega
    simp [inside]
  · have different : id ≠ other := fun eq => same eq.symm
    simp only [different, same, if_false]
    by_cases inside : other < table.entries.size
    · rw [Array.getElem?_append_left inside]
    · have outside : table.entries.size ≤ other := by omega
      rw [Array.getElem?_append_right outside, Array.getElem?_eq_none outside,
        Array.getElem?_replicate]
      split <;> rfl

theorem size_set (table : Table) (id : NodeId) (code : Code) :
    (table.set id code).size = max table.size (id + 1) := by
  simp only [size, set, Array.size_setIfInBounds, Array.size_append, Array.size_replicate]
  omega

theorem ext_get? {first second : Table} (size : first.size = second.size)
    (same : ∀ id, first.get? id = second.get? id) : first = second := by
  obtain ⟨first⟩ := first
  obtain ⟨second⟩ := second
  congr
  refine Array.ext size fun id inside within => ?_
  have entry := same id
  simpa only [get?, Array.getElem?_eq_getElem inside, Array.getElem?_eq_getElem within,
    Option.join_some] using entry

/-- To give a node the code that it has changes nothing. -/
theorem set_get? {table : Table} {id : NodeId} {code : Code} (found : table.get? id = some code) :
    table.set id code = table := by
  apply ext_get?
  · have inside : id < table.size := by
      refine Nat.lt_of_not_le fun outside => ?_
      rw [get?, Array.getElem?_eq_none outside] at found
      cases found
    rw [size_set]
    exact Nat.max_eq_left inside
  · intro other
    rw [get?_set]
    split
    · next same => rw [same, found]
    · rfl

theorem set_comm (table : Table) {first second : NodeId} (different : first ≠ second)
    (one other : Code) :
    (table.set first one).set second other = (table.set second other).set first one := by
  apply ext_get?
  · simp only [size_set]
    omega
  · intro id
    simp only [get?_set]
    split
    · next same => rw [if_neg fun again => different (again.symm.trans same)]
    · rfl

end Table

end TemplateCompiler
