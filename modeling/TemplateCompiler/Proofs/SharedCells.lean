import TemplateCompiler.Proofs.CellNumbering

/-! Cells inside of loops. A cell that keeps a node is one for all items of the loops around it,
unless the node is itself the item that a loop repeats. So what is kept is right where no loop is
around it; further inside of a loop it may be that of another item. -/

namespace TemplateCompiler

/-- The code of the node and of all below it is the same in both tables. -/
def Table.Agrees (node : Node) (first second : Table) : Prop :=
  ∀ number, 0 < Node.tally number [node] → second.get? number = first.get? number

/-- The innermost of the nodes around is a loop. -/
def Node.isItem (above : List Node) : Bool :=
  above.head?.any isLoop

namespace Plan

variable {marks : NodeMap CacheMark} {dependencies : NodeMap Expr}

theorem cacheAll_comes {nodes : List Node} {node : Node}
    (distinct : ∀ number, Node.tally number nodes ≤ 1) (member : node ∈ nodes) (inLoop : Bool)
    (caching : Caching) :
    ∃ middle : Caching, Table.Agrees node caching.table middle.table ∧
      Table.Agrees node (cacheNode marks dependencies inLoop middle node).table
        (cacheAll marks dependencies inLoop caching nodes).table := by
  induction nodes generalizing caching with
  | nil => cases member
  | cons first rest ih =>
    have tallies (number : NodeId) := Node.tally_cons number first rest
    rw [cacheAll]
    rcases List.mem_cons.1 member with rfl | behind
    · refine ⟨caching, fun _ _ => rfl, fun number present => ?_⟩
      apply get?_cacheAll_elsewhere
      have := tallies number
      have := distinct number
      omega
    · obtain ⟨middle, before, after⟩ := ih (fun number => by
        have := tallies number
        have := distinct number
        omega) behind (cacheNode marks dependencies inLoop caching first)
      refine ⟨middle, fun number present => (before number present).trans ?_, after⟩
      apply get?_cacheNode_elsewhere
      have := tallies number
      have := distinct number
      have := Node.tally_le_of_mem number behind
      omega

/-- The walk comes to a node with its code as it was, and leaves it as it is from then on. -/
theorem cacheAll_comes_along {roots : List Node} {node : Node} {above : List Node}
    (distinct : ∀ number, Node.tally number roots ≤ 1) (lineage : Node.Lineage roots node above)
    (caching : Caching) :
    ∃ middle : Caching, Table.Agrees node caching.table middle.table ∧
      Table.Agrees node
        (cacheNode marks dependencies (Node.isItem above) middle node).table
        (cacheAll marks dependencies false caching roots).table := by
  induction lineage with
  | root member => exact cacheAll_comes distinct member false caching
  | @child node parent above outer member ih =>
    obtain ⟨middle, before, after⟩ := ih
    have tallies (number : NodeId) := Node.tally_singleton number parent
    have once (number : NodeId) := Nat.le_trans (outer.tally_le number) (distinct number)
    obtain ⟨inner, early, late⟩ := @cacheAll_comes marks dependencies parent.children node
      (fun number => by
        have := tallies number
        have := once number
        omega) member parent.isLoop
      (middle.enter marks dependencies (Node.isItem above) parent.id)
    refine ⟨inner, fun number present => ?_, fun number present => ?_⟩
    · have different : number ≠ parent.id := by
        rintro rfl
        have absent := Node.tally_children_eq_zero once (List.mem_singleton_self parent)
          (List.mem_singleton_self parent)
        have := Node.tally_le_of_mem parent.id member
        omega
      rw [early number present, Caching.get?_enter_of_ne _ _ _ _ different]
      exact before number (Node.tally_pos_of_child parent member present)
    · rw [after number (Node.tally_pos_of_child parent member present), cacheNode_eq]
      exact late number present

/-- In the end the code of a node is what was made of it when the walk came there. -/
theorem injectCache_entered {plan : Plan} {node : Node} {above : List Node}
    (distinct : ∀ number, Node.tally number plan.template.roots ≤ 1)
    (lineage : Node.Lineage plan.template.roots node above) :
    ∃ middle : Caching, middle.table.get? node.id = plan.table.get? node.id ∧
      plan.injectCache.table.get? node.id =
        (middle.enter plan.marks plan.memoDependencies (Node.isItem above) node.id).table.get?
          node.id := by
  obtain ⟨middle, before, after⟩ := @cacheAll_comes_along plan.marks plan.memoDependencies _ _ _
    distinct lineage { table := plan.table, slots := plan.slots }
  have present := Node.tally_self_pos node
  refine ⟨middle, before node.id present, (after node.id present).trans ?_⟩
  rw [cacheNode_eq]
  apply get?_cacheAll_elsewhere
  exact Node.tally_children_eq_zero
    (fun number => Nat.le_trans (lineage.tally_le number) (distinct number))
    (List.mem_singleton_self node) (List.mem_singleton_self node)

end Plan

def Table.cell? (table : Table) (id : NodeId) : Option CacheCell :=
  (table.get? id).bind (·.cache)

/-- All items of the loops around the node use the same cell. -/
def CacheKind.isShared : CacheKind → Bool
  | .once | .memo _ => true
  | .memoInLoop _ _ => false

def Plan.isShared (plan : Plan) (id : NodeId) : Bool :=
  (plan.table.cell? id).any (·.kind.isShared)

namespace Caching

variable {marks : NodeMap CacheMark} {dependencies : NodeMap Expr} {inLoop : Bool}
  {caching : Caching} {id : NodeId}

theorem cell?_cacheHandlers :
    (caching.cacheHandlers id).table.cell? id = caching.table.cell? id := by
  simp only [cacheHandlers]
  split
  · next vnode cache found =>
    split
    · rfl
    · rw [Table.cell?, Table.get?_set, if_pos rfl, Table.cell?, found]
      rfl
  · rfl

theorem kind_of_enter {cell : CacheCell} (bare : caching.table.cell? id = none)
    (found : (caching.enter marks dependencies inLoop id).table.cell? id = some cell) :
    ∃ mark needed vnode, marks.get? id = some mark ∧
      cell.kind = kindOf mark needed inLoop vnode := by
  rw [enter, cell?_cacheHandlers, wrapMarked] at found
  cases marked : marks.get? id with
  | none =>
    rw [marked] at found
    cases bare.symm.trans found
  | some mark =>
    simp only [marked, wrap] at found
    split at found
    · rw [Table.cell?, Table.get?_set, if_pos rfl] at found
      cases found
      exact ⟨mark, _, _, rfl, rfl⟩
    · cases bare.symm.trans found

end Caching

theorem kind_of_cell {option : LowerOption} {template : Template} {lowered : Lowered} {node : Node}
    {above : List Node} {cell : CacheCell} (numbered : template.Numbered)
    (lowers : lower option template = .ok lowered)
    (lineage : Node.Lineage lowered.plan.template.roots node above)
    (found : lowered.plan.table.cell? node.id = some cell) :
    ∃ mark needed vnode, lowered.plan.marks.get? node.id = some mark ∧
      cell.kind = Caching.kindOf mark needed (Node.isItem above) vnode := by
  obtain ⟨before, final, _, distinct, bare⟩ := lower_injectsCache numbered lowers
  rw [final] at lineage found ⊢
  obtain ⟨middle, early, late⟩ := Plan.injectCache_entered distinct lineage
  have noCell : middle.table.cell? node.id = none := by
    have present := Nat.lt_of_lt_of_le (Node.tally_self_pos node) (lineage.tally_le node.id)
    rw [Table.cell?, early]
    cases code : before.table.get? node.id with
    | none => rfl
    | some entry => exact ((bare node.id present).code entry code).1
  rw [Table.cell?, late, ← Table.cell?] at found
  exact Caching.kind_of_enter noCell found

/-- The expression by itself is no alias, or one of a loop among the nodes `between`. -/
def Expr.BoundAmong (reader : ScriptReader) (between : List Node) : Expr → Prop
  | param name => ∃ outer ∈ between, outer.Binds reader name
  | _ => True

theorem Node.Binds.isLoop {node : Node} {reader : ScriptReader} {name : String}
    (binds : node.Binds reader name) : node.isLoop = true := by
  obtain ⟨loop, content, _⟩ := binds
  rw [Node.isLoop, content]

namespace Plan

/-- Nothing on the node or below it, nor what it depends on, refers to an alias of a loop around
the node. -/
def Independent (plan : Plan) (reader : ScriptReader) (node : Node) : Prop :=
  ∀ inner between, Node.Lineage [node] inner between →
    ∀ expr ∈ plan.expressions inner.id, expr.Every (Expr.BoundAmong reader between)

/-- On the node or below it the name is used as an alias where no loop on the way binds it. -/
def Borrows (plan : Plan) (reader : ScriptReader) (node : Node) (name : String) : Prop :=
  ∃ inner between, Node.Lineage [node] inner between ∧
    (∃ expr ∈ plan.expressions inner.id, Expr.Occurs (.param name) expr) ∧
    ∀ outer ∈ between, ¬ outer.Binds reader name

/-- The items that a loop repeats share no cell. What is outside of all loops is not that of an item,
and what is inside of some is not either just when it makes no use of what these loops bind. -/
structure SharesCells (plan : Plan) (reader : ScriptReader) : Prop where
  items : ∀ node above, Node.Lineage plan.template.roots node above → Node.isItem above = true →
    plan.isShared node.id = false
  outside : ∀ node above, Node.Lineage plan.template.roots node above →
    (∀ outer ∈ above, outer.isLoop = false) → plan.Independent reader node
  inside : ∀ node above, Node.Lineage plan.template.roots node above →
    (plan.Independent reader node ↔ ∀ outer ∈ above, ∀ name, outer.Binds reader name →
      ¬ plan.Borrows reader node name)

end Plan

namespace Stages

variable {option : LowerOption} {template : Template} {roots : List Node} {progress : Progress}
  {plan : Plan} {node : Node} {above : List Node}

theorem mark_of_item (stages : Stages option template roots progress plan)
    (lineage : Node.Lineage roots node above) (item : Node.isItem above = true) :
    plan.marks.get? node.id ≠ some .once := by
  have marks := stages.marks_eq
  cases lineage with
  | root => cases item
  | child place member =>
    obtain ⟨role, settled⟩ := Settled.along stages.walked.settled place
    cases settled with
    | loop _ _ _ _ apart =>
      cases List.mem_singleton.1 member
      rw [marks]
      exact apart
    | text _ leaf =>
      rw [leaf] at member
      cases member
    | _ => cases item

/-- An alias that is used below a node is of a loop below it, or else of one around it. -/
theorem independent_iff (stages : Stages option template roots progress plan)
    (lineage : Node.Lineage roots node above) :
    plan.Independent option.reader node ↔ ∀ outer ∈ above, ∀ name, outer.Binds option.reader name →
      ¬ plan.Borrows option.reader node name := by
  constructor
  · rintro independent _ _ name _ ⟨inner, between, within, ⟨expr, member, used⟩, free⟩
    obtain ⟨outer, listed, binds⟩ := independent inner between within expr member _ used
    exact free outer listed binds
  · intro unused inner between within expr member
    have isolated := (stages.scoped_expressions (lineage.append within) expr member).isolated rfl
    intro part occurs
    cases part with
    | param name =>
      by_contra free
      obtain ⟨outer, listed, binds⟩ := isolated _ occurs
      rcases List.mem_append.1 listed with below | around
      · exact free ⟨outer, below, binds⟩
      · refine unused outer around name binds ⟨inner, between, within, ⟨expr, member, occurs⟩, ?_⟩
        exact fun other amid holds => free ⟨other, amid, holds⟩
    | _ => trivial

end Stages

/-- Whatever was parsed, in a plan that lowering comes to the items of a loop share no cell, and
what is kept outside of all loops is not that of an item. -/
theorem lower_sharesCells {parsing : ParseOption} {lowering : LowerOption} {reading : Scan}
    {template : Template} {problems : List Problem} {lowered : Lowered}
    (parsed : parse parsing reading = .ok (template, problems))
    (lowers : lower lowering template = .ok lowered) :
    lowered.plan.SharesCells lowering.reader := by
  have numbered := numbered_of_parse parsed
  obtain ⟨roots, progress, stages⟩ := lower_stages numbered lowers
  have sameRoots := stages.roots_eq
  constructor
  · intro node above lineage item
    rw [Plan.isShared]
    cases found : lowered.plan.table.cell? node.id with
    | none => rfl
    | some cell =>
      obtain ⟨mark, needed, vnode, asked, kind⟩ := kind_of_cell numbered lowers lineage found
      cases mark with
      | once =>
        rw [sameRoots] at lineage
        exact absurd asked (stages.mark_of_item lineage item)
      | memo =>
        rw [Option.any_some, kind, Caching.kindOf, if_pos item]
        rfl
  · intro node above lineage outside
    rw [sameRoots] at lineage
    refine (stages.independent_iff lineage).2 fun outer member name binds => ?_
    have noLoop := outside outer member
    rw [binds.isLoop] at noLoop
    cases noLoop
  · intro node above lineage
    rw [sameRoots] at lineage
    exact stages.independent_iff lineage

/-- A loop in what is kept, and an item that is kept by its dependencies. -/
def keptSource : String :=
  "<p v-once><i v-for=\"a in b\">\x7b\x7b a \x7d\x7d</i></p>" ++
    "<q v-for=\"c in d\" v-memo=\"[c]\">\x7b\x7b c \x7d\x7d</q>"

theorem lower_sharesCells_kept : ∃ template problems lowered,
    parse {} (scan {} keptSource) = .ok (template, problems) ∧ lower {} template = .ok lowered ∧
      lowered.plan.slots.map (fun slot => (slot.kind, lowered.plan.isShared slot.node)) =
        [(.once, true), (.memo, false)] ∧ lowered.plan.SharesCells .standard := by
  have succeeds : ((parse {} (scan {} keptSource)).bind fun parsed =>
      lower {} parsed.1).toOption.any (fun lowered =>
        decide (lowered.plan.slots.map (fun slot => (slot.kind, lowered.plan.isShared slot.node)) =
          [(.once, true), (.memo, false)])) = true := by
    decide +kernel
  obtain ⟨template, problems, lowered, parsed, lowers, kinds⟩ := exists_lowered succeeds
  exact ⟨template, problems, lowered, parsed, lowers, of_decide_eq_true kinds,
    lower_sharesCells parsed lowers⟩

/-- There is no loop on the node or below it, and yet an expression there has an alias in it. -/
def Plan.hasOuterAlias (plan : Plan) (node : Node) : Bool :=
  (Node.flattenAll [node]).all (!·.isLoop) && (Node.flattenAll [node]).any fun inner =>
    (plan.expressions inner.id).any fun expr => expr.inner.any (·.alias?.isSome)

theorem Plan.not_independent_of_hasOuterAlias {plan : Plan} {node : Node} {reader : ScriptReader}
    (found : plan.hasOuterAlias node = true) : ¬ plan.Independent reader node := by
  intro independent
  simp only [hasOuterAlias, Bool.and_eq_true, List.all_eq_true, List.any_eq_true] at found
  obtain ⟨noLoop, inner, below, expr, listed, part, inside, isAlias⟩ := found
  obtain ⟨between, within⟩ := Node.mem_flattenAll_iff.1 below
  have bound := (Expr.every_iff.1 (independent inner between within expr listed)).2 part inside
  cases part with
  | param name =>
    obtain ⟨outer, among, binds⟩ := bound _ .self
    obtain ⟨_, _, _, further, place⟩ := within.exists_child among
    have plain := noLoop outer (Node.mem_flattenAll_iff.2 ⟨further, place⟩)
    rw [binds.isLoop] at plain
    cases plain
  | _ => cases isAlias

/-- An element that is rendered once in the body of a loop is kept with the text of one item. -/
theorem not_independent_in_loop : ∃ template problems lowered, ∃ node : Node,
    parse {} (scan {} "<div v-for=\"i in l\"><p v-once>\x7b\x7b i \x7d\x7d</p></div>") =
        .ok (template, problems) ∧
      lower {} template = .ok lowered ∧
      node ∈ Node.flattenAll lowered.plan.template.roots ∧
      lowered.plan.isShared node.id = true ∧ ¬ lowered.plan.Independent .standard node := by
  have succeeds : ((parse {} (scan {}
      "<div v-for=\"i in l\"><p v-once>\x7b\x7b i \x7d\x7d</p></div>")).bind fun parsed =>
      lower {} parsed.1).toOption.any (fun lowered =>
        (Node.flattenAll lowered.plan.template.roots).any fun node =>
          lowered.plan.isShared node.id && lowered.plan.hasOuterAlias node) = true := by
    decide +kernel
  obtain ⟨template, problems, lowered, parsed, lowers, found⟩ := exists_lowered succeeds
  obtain ⟨node, inside, both⟩ := List.any_eq_true.1 found
  obtain ⟨shared, outer⟩ := Bool.and_eq_true_iff.1 both
  exact ⟨template, problems, lowered, node, parsed, lowers, inside, shared,
    Plan.not_independent_of_hasOuterAlias outer⟩

end TemplateCompiler
