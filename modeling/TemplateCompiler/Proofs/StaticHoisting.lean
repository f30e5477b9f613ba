import Mathlib.Data.List.Nodup
import TemplateCompiler.Proofs.Lineage
import TemplateCompiler.Render.Hoist

/-! What moving static elements out of the render function does. The elements that are moved are
outermost static ones, so that none of them is below another, and each of them leaves a reference to
its own constant behind. -/

namespace TemplateCompiler

/-- A virtual node as it is made outside of the render function. -/
def VNode.asConstant (vnode : VNode) : VNode :=
  { vnode with patchFlag := .hoisted, isBlock := false }

namespace Plan

/-- The code of the node and of all below it never changes. -/
inductive Static (table : Table) (marks : NodeMap CacheMark) : Node → Prop
  | element {id : NodeId} {element : Element} {span : Span} {children : List Node} {vnode : VNode}
      (unmarked : marks.get? id = none)
      (code : table.get? id = some { body := .vnode vnode })
      (plain : element.kind = .plain) (noComponent : vnode.isComponent = false)
      (noFlag : vnode.patchFlag = .empty) (noDirectives : vnode.directives = [])
      (same : vnode.children = children.map (·.id))
      (props : ∀ props, vnode.props = some props → props.level.isStatic = true)
      (below : ∀ child ∈ children, Static table marks child) :
      Static table marks ⟨id, .element element, span, children⟩
  | text {node : Node} {call : TextCall} (isText : node.isTextLike = true)
      (unmarked : marks.get? node.id = none)
      (code : table.get? node.id = some { body := .text call })
      (parts : (Expr.levelAll call.parts).isStatic = true) : Static table marks node
  | comment {node : Node} (isComment : node.isComment = true)
      (unmarked : marks.get? node.id = none) : Static table marks node

variable {table : Table} {marks : NodeMap CacheMark} {node : Node} {roots above : List Node}

theorem isStatic_levelOfAll {nodes : List Node} :
    (levelOfAll table marks nodes).isStatic = true ↔
      ∀ node ∈ nodes, (levelOf table marks node).isStatic = true := by
  induction nodes with
  | nil => simp [levelOfAll, Level.isStatic]
  | cons node rest ih => rw [levelOfAll, Level.isStatic_meet, Bool.and_eq_true, ih,
      List.forall_mem_cons]

theorem static_of_levelOf (static : (levelOf table marks node).isStatic = true) :
    Static table marks node := by
  induction node using Node.inductChildren with
  | step node ih =>
    obtain ⟨id, content, span, children⟩ := node
    unfold levelOf at static
    split at static
    · cases static
    · next unmarked =>
      rw [NodeMap.contains, Option.isSome_iff_ne_none, not_not] at unmarked
      split at static
      · next element vnode code =>
        dsimp only at static
        split at static
        · next fixed =>
          simp only [Bool.and_eq_true, decide_eq_true_eq, Bool.not_eq_true'] at fixed
          obtain ⟨⟨⟨plain, noComponent⟩, noFlag, noDirectives⟩, same⟩ := fixed
          rw [Level.isStatic_meet, Bool.and_eq_true, isStatic_levelOfAll] at static
          refine .element unmarked code plain noComponent (PatchFlag.isEmpty_iff.1 noFlag)
            (List.isEmpty_iff.1 noDirectives) same (fun props given => ?_)
            fun child member => ih child member (static.2 child member)
          simpa [given] using static.1
        · cases static
      · next code => exact .text rfl unmarked code static
      · next code => exact .text rfl unmarked code static
      · exact .comment rfl unmarked
      · cases static

theorem Static.isStatic_levelOf (static : Static table marks node) :
    (levelOf table marks node).isStatic = true := by
  induction static with
  | @element id element span children vnode unmarked code plain noComponent noFlag noDirectives
      same props below ih =>
    unfold levelOf
    have all := isStatic_levelOfAll.2 ih
    simp only [NodeMap.contains, unmarked, code, plain, noComponent, PatchFlag.isEmpty_iff.2 noFlag,
      noDirectives, same]
    cases given : vnode.props with
    | none => simpa using all
    | some value => simp [Level.isStatic_meet, all, props value given]
  | @text node call isText unmarked code parts =>
    obtain ⟨id, content, span, children⟩ := node
    unfold levelOf
    cases content with
    | text | interpolation => simpa [NodeMap.contains, unmarked, code] using parts
    | _ => cases isText
  | @comment node isComment unmarked =>
    obtain ⟨id, content, span, children⟩ := node
    unfold levelOf
    cases content with
    | comment => simp [NodeMap.contains, unmarked, Level.isStatic]
    | _ => cases isComment

theorem Static.unmarked (static : Static table marks node) : marks.get? node.id = none := by
  cases static <;> assumption

theorem Static.child {child : Node} (static : Static table marks node)
    (isElement : node.isElement = true) (member : child ∈ node.children) :
    Static table marks child := by
  cases static with
  | element _ _ _ _ _ _ _ _ below => exact below child member
  | text isText | comment isComment =>
    obtain ⟨id, content, span, children⟩ := node
    cases content <;> contradiction

theorem Static.inside {inner : Node} {between : List Node} (static : Static table marks node)
    (lineage : Node.Lineage [node] inner between)
    (elements : ∀ outer ∈ between, outer.isElement = true) : Static table marks inner := by
  induction lineage with
  | root member =>
    cases List.mem_singleton.1 member
    exact static
  | child _ member ih =>
    obtain ⟨isElement, others⟩ := List.forall_mem_cons.1 elements
    exact (ih others).child isElement member

/-- Whether a node is static depends only on the code of the node and of what is below it. -/
theorem Static.congr {other : Table} (static : Static table marks node)
    (same : ∀ number, 0 < Node.tally number [node] → other.get? number = table.get? number) :
    Static other marks node := by
  induction static with
  | element unmarked code plain noComponent noFlag noDirectives children props _ ih =>
    have kept := same _ (Node.tally_self_pos _)
    refine .element unmarked (kept.trans code) plain noComponent noFlag noDirectives children props
      fun child member => ih child member fun number present => ?_
    exact same number (Node.tally_pos_of_child _ member present)
  | text isText unmarked code parts =>
    have kept := same _ (Node.tally_self_pos _)
    exact .text isText unmarked (kept.trans code) parts
  | comment isComment unmarked => exact .comment isComment unmarked

theorem Static.vnode (static : Static table marks node) (isElement : node.isElement = true) :
    ∃ vnode, table.get? node.id = some { body := .vnode vnode } ∧ vnode.patchFlag = .empty ∧
      ∀ props, vnode.props = some props → props.level.isStatic = true := by
  cases static with
  | element _ code _ _ noFlag _ _ props => exact ⟨_, code, noFlag, props⟩
  | text isText | comment isComment =>
    obtain ⟨id, content, span, children⟩ := node
    cases content <;> contradiction

theorem mem_staticElementsAll {nodes : List Node} {id : NodeId} :
    id ∈ staticElementsAll table marks nodes ↔
      ∃ node ∈ nodes, id ∈ staticElements table marks node := by
  induction nodes with
  | nil => simp [staticElementsAll]
  | cons node rest ih => simp [staticElementsAll, ih]

theorem staticElements_of_element (isElement : node.isElement = true)
    (unmarked : marks.get? node.id = none) :
    staticElements table marks node =
      if (levelOf table marks node).isStatic then [node.id]
      else staticElementsAll table marks node.children := by
  obtain ⟨id, content, span, children⟩ := node
  unfold staticElements
  cases content with
  | element element => simp [NodeMap.contains, unmarked]
  | _ => cases isElement

/-- Only an element without a mark is moved or searched. -/
theorem staticElements_cases {id : NodeId} (member : id ∈ staticElements table marks node) :
    node.isElement = true ∧ marks.get? node.id = none ∧
      (staticElements table marks node = [node.id] ∧ Static table marks node ∨
        staticElements table marks node = staticElementsAll table marks node.children) := by
  obtain ⟨number, content, span, children⟩ := node
  unfold staticElements at member ⊢
  cases content with
  | element element =>
    dsimp only at member ⊢
    split at member
    · cases member
    · next unmarked =>
      rw [if_neg unmarked]
      rw [NodeMap.contains, Option.isSome_iff_ne_none, not_not] at unmarked
      refine ⟨rfl, unmarked, ?_⟩
      split
      · next static => exact .inl ⟨rfl, static_of_levelOf static⟩
      · exact .inr rfl
  | _ => cases member

mutual

theorem count_staticElements_le (table : Table) (marks : NodeMap CacheMark) (number : NodeId) :
    (node : Node) → (staticElements table marks node).count number ≤ Node.tally number [node]
  | ⟨id, content, span, children⟩ => by
    have own := Node.tally_singleton number ⟨id, content, span, children⟩
    unfold staticElements
    split
    · split
      · exact Nat.zero_le _
      · split
        · dsimp only at own
          omega
        · have := count_staticElementsAll_le table marks number children
          dsimp only at own
          omega
    · exact Nat.zero_le _

theorem count_staticElementsAll_le (table : Table) (marks : NodeMap CacheMark) (number : NodeId) :
    (nodes : List Node) → (staticElementsAll table marks nodes).count number ≤
      Node.tally number nodes
  | [] => Nat.le_refl _
  | node :: rest => by
    have := count_staticElements_le table marks number node
    have := count_staticElementsAll_le table marks number rest
    rw [staticElementsAll, List.count_append, Node.tally_cons]
    omega

end

theorem nodup_staticElementsAll (distinct : ∀ number, Node.tally number roots ≤ 1) :
    (staticElementsAll table marks roots).Nodup := by
  rw [List.nodup_iff_count_le_one]
  intro number
  exact Nat.le_trans (count_staticElementsAll_le ..) (distinct number)

theorem staticElements_along {number : NodeId}
    (distinct : ∀ number, Node.tally number roots ≤ 1) (lineage : Node.Lineage roots node above)
    (moved : number ∈ staticElementsAll table marks roots) (inside : 0 < Node.tally number [node]) :
    number ∈ staticElements table marks node ∧
      ∀ outer ∈ above, outer.isElement = true ∧ marks.get? outer.id = none := by
  have among {nodes : List Node} {node : Node} (listed : node ∈ nodes)
      (once : Node.tally number nodes ≤ 1) (moved : number ∈ staticElementsAll table marks nodes)
      (inside : 0 < Node.tally number [node]) : number ∈ staticElements table marks node := by
    obtain ⟨other, member, found⟩ := mem_staticElementsAll.1 moved
    have least := count_staticElements_le table marks number other
    have positive := List.count_pos_iff.2 found
    rw [Node.eq_of_tally_pos once listed member inside (by omega)]
    exact found
  induction lineage with
  | root member => exact ⟨among member (distinct number) moved inside, fun _ none => nomatch none⟩
  | @child node parent above outer member ih =>
    have tallies := Node.tally_singleton number parent
    have listed := Node.tally_le_of_mem number member
    have once := outer.tally_le number
    have limit := distinct number
    obtain ⟨found, others⟩ := ih (by omega)
    obtain ⟨isElement, unmarked, ⟨same, _⟩ | deeper⟩ := staticElements_cases found
    · rw [same, List.mem_singleton] at found
      rw [← found, List.count_singleton_self] at tallies
      omega
    · rw [deeper] at found
      exact ⟨among member (by omega) found inside,
        List.forall_mem_cons.2 ⟨⟨isElement, unmarked⟩, others⟩⟩

theorem static_of_moved (distinct : ∀ number, Node.tally number roots ≤ 1)
    (lineage : Node.Lineage roots node above)
    (moved : node.id ∈ staticElementsAll table marks roots) :
    Static table marks node ∧
      (∀ outer ∈ node :: above, outer.isElement = true ∧ marks.get? outer.id = none) ∧
      ∀ number, 0 < Node.tally number node.children →
        number ∉ staticElementsAll table marks roots := by
  have once (number : NodeId) := Nat.le_trans (lineage.tally_le number) (distinct number)
  have tallies (number : NodeId) := Node.tally_singleton number node
  obtain ⟨found, others⟩ := staticElements_along distinct lineage moved (Node.tally_self_pos node)
  obtain ⟨isElement, unmarked, ⟨same, static⟩ | deeper⟩ := staticElements_cases found
  · refine ⟨static, List.forall_mem_cons.2 ⟨⟨isElement, unmarked⟩, others⟩,
      fun number below again => ?_⟩
    have := tallies number
    have := once number
    have inner := (staticElements_along distinct lineage again (by omega)).1
    rw [same, List.mem_singleton] at inner
    subst inner
    rw [List.count_singleton_self] at *
    omega
  · have least := count_staticElementsAll_le table marks node.id node.children
    rw [deeper] at found
    have := List.count_pos_iff.2 found
    have := tallies node.id
    have := once node.id
    rw [List.count_singleton_self] at *
    omega

/-- Where only elements without marks are around a node, what is static of it is moved, unless
something around it is. -/
theorem staticElements_moved (lineage : Node.Lineage roots node above)
    (elements : ∀ outer ∈ above, outer.isElement = true ∧ marks.get? outer.id = none) :
    (∃ outer ∈ above, outer.id ∈ staticElementsAll table marks roots) ∨
      ∀ id ∈ staticElements table marks node, id ∈ staticElementsAll table marks roots := by
  induction lineage with
  | root member =>
    right
    intro id found
    exact mem_staticElementsAll.2 ⟨_, member, found⟩
  | @child node parent above outer member ih =>
    obtain ⟨⟨isElement, unmarked⟩, others⟩ := List.forall_mem_cons.1 elements
    have own := @staticElements_of_element table marks parent isElement unmarked
    rcases ih others with ⟨further, listed, moved⟩ | all
    · exact .inl ⟨further, List.mem_cons_of_mem parent listed, moved⟩
    · by_cases static : (levelOf table marks parent).isStatic = true
      · rw [own, if_pos static] at all
        exact .inl ⟨parent, List.mem_cons_self, all parent.id List.mem_cons_self⟩
      · rw [own, if_neg static] at all
        right
        intro id found
        exact all id (mem_staticElementsAll.2 ⟨node, member, found⟩)

theorem exists_moved_of_static (lineage : Node.Lineage roots node above)
    (elements : ∀ outer ∈ node :: above, outer.isElement = true ∧ marks.get? outer.id = none)
    (static : Static table marks node) :
    ∃ outer ∈ node :: above, outer.id ∈ staticElementsAll table marks roots := by
  obtain ⟨⟨isElement, unmarked⟩, others⟩ := List.forall_mem_cons.1 elements
  rcases @staticElements_moved table _ _ _ _ lineage others with ⟨outer, listed, moved⟩ | all
  · exact ⟨outer, List.mem_cons_of_mem node listed, moved⟩
  · rw [staticElements_of_element isElement unmarked, if_pos static.isStatic_levelOf] at all
    exact ⟨node, List.mem_cons_self, all node.id List.mem_cons_self⟩

theorem exists_lineage_of_moved {id : NodeId} (moved : id ∈ staticElementsAll table marks roots) :
    ∃ node above, Node.Lineage roots node above ∧ node.id = id := by
  have positive := List.count_pos_iff.2 moved
  have least := count_staticElementsAll_le table marks id roots
  obtain ⟨node, inside, same⟩ := Node.tally_pos_iff.1 (Nat.lt_of_lt_of_le positive least)
  obtain ⟨above, lineage⟩ := Node.mem_flattenAll_iff.1 inside
  exact ⟨node, above, lineage, same⟩

/-- The code of each of the elements `ids` became a constant. -/
structure Moved (before : Plan) (ids : List NodeId) (after : Plan) : Prop where
  rest : after = { before with table := after.table, hoists := after.hoists }
  length : after.hoists.length = before.hoists.length + ids.length
  kept : ∀ id, id ∉ ids → after.table.get? id = before.table.get? id
  earlier : ∀ index < before.hoists.length, after.hoists[index]? = before.hoists[index]?
  moved : ∀ index id, ids[index]? = some id → ∃ vnode,
    before.table.get? id = some { body := .vnode vnode } ∧
      after.table.get? id = some { body := .hoisted (before.hoists.length + index) } ∧
      after.hoists[before.hoists.length + index]? = some vnode.asConstant

theorem foldl_hoistNode_moved {plan : Plan} {ids : List NodeId} (distinct : ids.Nodup)
    (code : ∀ id ∈ ids, ∃ vnode, plan.table.get? id = some { body := .vnode vnode }) :
    Moved plan ids (ids.foldl hoistNode plan) := by
  induction ids generalizing plan with
  | nil =>
    exact ⟨rfl, rfl, fun _ _ => rfl, fun _ _ => rfl, fun _ _ found => nomatch found⟩
  | cons id rest ih =>
    obtain ⟨fresh, others⟩ := List.nodup_cons.1 distinct
    obtain ⟨vnode, found⟩ := code id List.mem_cons_self
    let middle : Plan :=
      { plan with
          hoists := plan.hoists ++ [vnode.asConstant]
          table := plan.table.set id { body := .hoisted plan.hoists.length } }
    have step : plan.hoistNode id = middle := by
      simp only [hoistNode, found]
      rfl
    have untouched (other : NodeId) (different : other ≠ id) :
        middle.table.get? other = plan.table.get? other :=
      (Table.get?_set ..).trans (if_neg different)
    have length : middle.hoists.length = plan.hoists.length + 1 := List.length_append
    rw [List.foldl_cons, step]
    have later := ih others fun other member => by
      rw [untouched other (ne_of_mem_of_not_mem member fresh)]
      exact code other (List.mem_cons_of_mem id member)
    refine ⟨?_, ?_, fun other outside => ?_, fun index inside => ?_, fun index other listed => ?_⟩
    · exact later.rest
    · rw [later.length, length, List.length_cons]
      omega
    · rw [List.mem_cons, not_or] at outside
      rw [later.kept other outside.2, untouched other outside.1]
    · rw [later.earlier index (by omega)]
      exact List.getElem?_append_left inside
    · cases index with
      | zero =>
        cases listed
        refine ⟨vnode, found, ?_, ?_⟩
        · rw [later.kept id fresh]
          exact (Table.get?_set ..).trans (if_pos rfl)
        · rw [later.earlier _ (by omega)]
          exact List.getElem?_concat_length
      | succ index =>
        have member : other ∈ rest := List.mem_of_getElem? listed
        obtain ⟨vnode, before, after, constant⟩ := later.moved index other listed
        rw [length] at after constant
        rw [untouched other (ne_of_mem_of_not_mem member fresh)] at before
        refine ⟨vnode, before, ?_, ?_⟩
        · rw [after]
          congr 3
          omega
        · rw [← constant]
          congr 1
          omega

/-- An element that is moved is a virtual node that nothing else has a hand in. -/
theorem vnode_of_moved {id : NodeId} (distinct : ∀ number, Node.tally number roots ≤ 1)
    (moved : id ∈ staticElementsAll table marks roots) : marks.get? id = none ∧
      ∃ vnode, table.get? id = some { body := .vnode vnode } ∧ vnode.patchFlag = .empty ∧
        ∀ props, vnode.props = some props → props.level.isStatic = true := by
  obtain ⟨node, above, lineage, rfl⟩ := exists_lineage_of_moved moved
  obtain ⟨static, elements, _⟩ := static_of_moved distinct lineage moved
  obtain ⟨isElement, unmarked⟩ := elements node List.mem_cons_self
  exact ⟨unmarked, static.vnode isElement⟩

theorem hoist_moved (plan : Plan)
    (distinct : ∀ number, Node.tally number plan.template.roots ≤ 1) :
    Moved plan (staticElementsAll plan.table plan.marks plan.template.roots) plan.hoist := by
  apply foldl_hoistNode_moved (nodup_staticElementsAll distinct)
  intro id member
  obtain ⟨_, vnode, code, _⟩ := vnode_of_moved distinct member
  exact ⟨vnode, code⟩

end Plan

end TemplateCompiler
