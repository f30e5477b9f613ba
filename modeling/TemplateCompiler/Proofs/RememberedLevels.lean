import TemplateCompiler.Proofs.StaticHoisting

/-! Finding out each level only once. A walk that moves static elements as it meets them may keep
the levels it has found, and stop at the first child that is not static. It comes to the same plan:
no level is asked for below an element that was moved, so that each level that is kept is the one
of the code before anything was moved. -/

namespace TemplateCompiler

namespace Plan

mutual

def recallLevel (table : Table) (marks : NodeMap CacheMark) (known : NodeMap Level) :
    Node → Level × NodeMap Level
  | ⟨id, content, _, children⟩ =>
    match known.get? id with
    | some level => (level, known)
    | none =>
      let found :=
        if marks.contains id then (.notStatic, known)
        else
          match content, table.get? id with
          | .element element, some { body := .vnode vnode, cache := none } =>
            let isPlain := element.kind = .plain && !vnode.isComponent
            let isFixed := vnode.patchFlag.isEmpty && vnode.directives.isEmpty
            if isPlain && isFixed && vnode.children = children.map (·.id) then
              recallLevels table marks known
                ((vnode.props.map Expr.level).getD .canStringify) children
            else (.notStatic, known)
          | .text _, some { body := .text call, cache := none } =>
            (Expr.levelAll call.parts, known)
          | .interpolation _, some { body := .text call, cache := none } =>
            (Expr.levelAll call.parts, known)
          | .comment _, _ => (.canStringify, known)
          | _, _ => (.notStatic, known)
      (found.1, found.2.insert id found.1)

/-- The lowest of a level and those of the nodes. Nothing is lower than not being static, so that
the nodes behind are not asked then. -/
def recallLevels (table : Table) (marks : NodeMap CacheMark) (known : NodeMap Level)
    (level : Level) : List Node → Level × NodeMap Level
  | [] => (level, known)
  | node :: rest =>
    if level = .notStatic then (level, known)
    else
      let first := recallLevel table marks known node
      recallLevels table marks first.2 (level.meet first.1) rest

end

/-- A plan whose elements are being moved, with the levels found so far. -/
structure Hoister where
  plan : Plan
  known : NodeMap Level := []

mutual

def Hoister.visit (hoister : Hoister) : Node → Hoister
  | ⟨id, content, span, children⟩ =>
    match content with
    | .element _ =>
      if hoister.plan.marks.contains id then hoister
      else
        let found := recallLevel hoister.plan.table hoister.plan.marks hoister.known
          ⟨id, content, span, children⟩
        if found.1.isStatic then { plan := hoister.plan.hoistNode id, known := found.2 }
        else Hoister.visitAll { hoister with known := found.2 } children
    | _ => hoister

def Hoister.visitAll (hoister : Hoister) : List Node → Hoister
  | [] => hoister
  | node :: rest => Hoister.visitAll (hoister.visit node) rest

end

/-- Move every static subtree, one after the other, each when it is met. -/
def hoistOnTheWay (plan : Plan) : Plan :=
  (Hoister.visitAll { plan } plan.template.roots).plan

/-- The levels are the ones that the nodes have by their own code. -/
def Known (table : Table) (marks : NodeMap CacheMark) (roots : List Node)
    (known : NodeMap Level) : Prop :=
  ∀ node ∈ Node.flattenAll roots, ∀ level, known.get? node.id = some level →
    level = levelOf table marks node

variable {table current : Table} {marks : NodeMap CacheMark} {roots : List Node}
  {known : NodeMap Level}

theorem Known.insert {node : Node} (distinct : ∀ number, Node.tally number roots ≤ 1)
    (valid : Known table marks roots known) (member : node ∈ Node.flattenAll roots) :
    Known table marks roots (known.insert node.id (levelOf table marks node)) := by
  intro other listed level found
  rw [NodeMap.get?_insert] at found
  split at found
  · next same =>
    cases found
    have unique : ((Node.flattenAll roots).map (·.id)).Nodup :=
      List.nodup_iff_count_le_one.2 distinct
    rw [List.inj_on_of_nodup_map unique listed member same]
  · exact valid other listed level found

theorem notStatic_meet (level : Level) : Level.notStatic.meet level = .notStatic := by
  cases level <;> rfl

theorem meet_assoc (first second third : Level) :
    (first.meet second).meet third = first.meet (second.meet third) := by
  cases first <;> cases second <;> cases third <;> rfl

mutual

/-- Where nothing was moved on or below a node, its level is found, and those kept stay right. -/
theorem recallLevel_eq (distinct : ∀ number, Node.tally number roots ≤ 1) {known : NodeMap Level}
    (valid : Known table marks roots known) : (node : Node) →
    (∀ inner ∈ node.flatten, inner ∈ Node.flattenAll roots) →
    (∀ number, 0 < Node.tally number [node] → current.get? number = table.get? number) →
    (recallLevel current marks known node).1 = levelOf table marks node ∧
      Known table marks roots (recallLevel current marks known node).2
  | ⟨id, content, span, children⟩, within, same => by
    rw [Node.flatten_eq, List.forall_mem_cons] at within
    have below (number : NodeId) (present : 0 < Node.tally number children) :
        current.get? number = table.get? number := by
      have := Node.tally_singleton number ⟨id, content, span, children⟩
      exact same number (by dsimp only at this; omega)
    unfold recallLevel
    split
    · next level remembered => exact ⟨valid _ within.1 level remembered, valid⟩
    · extract_lets found
      have right : found.1 = levelOf table marks ⟨id, content, span, children⟩ ∧
          Known table marks roots found.2 := by
        subst found
        unfold levelOf
        rw [same id (Node.tally_self_pos ⟨id, content, span, children⟩)]
        generalize table.get? id = code
        by_cases marked : marks.contains id = true
        · rw [if_pos marked, if_pos marked]
          exact ⟨rfl, valid⟩
        · rw [if_neg marked, if_neg marked]
          split
          · dsimp only
            split
            · exact recallLevels_eq distinct valid _ children within.2 below
            · exact ⟨rfl, valid⟩
          · exact ⟨rfl, valid⟩
          · exact ⟨rfl, valid⟩
          · exact ⟨rfl, valid⟩
          · next noVNode noText noInterpolation noComment =>
            refine ⟨?_, valid⟩
            grind
      exact ⟨right.1, right.1 ▸ right.2.insert distinct within.1⟩

theorem recallLevels_eq (distinct : ∀ number, Node.tally number roots ≤ 1) {known : NodeMap Level}
    (valid : Known table marks roots known) (level : Level) : (nodes : List Node) →
    (∀ inner ∈ Node.flattenAll nodes, inner ∈ Node.flattenAll roots) →
    (∀ number, 0 < Node.tally number nodes → current.get? number = table.get? number) →
    (recallLevels current marks known level nodes).1 =
        level.meet (levelOfAll table marks nodes) ∧
      Known table marks roots (recallLevels current marks known level nodes).2
  | [], _, _ => by
    simp only [recallLevels, levelOfAll, Level.meet_canStringify]
    exact ⟨trivial, valid⟩
  | node :: rest, within, same => by
    simp only [recallLevels, levelOfAll]
    split
    · next lowest =>
      rw [lowest, notStatic_meet]
      exact ⟨rfl, valid⟩
    · obtain ⟨found, kept⟩ := recallLevel_eq distinct valid node
        (fun inner member => within inner (List.mem_append_left _ member))
        (fun number present => same number (by rw [Node.tally_cons]; omega))
      rw [found, ← meet_assoc]
      exact recallLevels_eq distinct kept _ rest
        (fun inner member => within inner (List.mem_append_right _ member))
        (fun number present => same number (by rw [Node.tally_cons]; omega))

end

theorem get?_foldl_hoistNode_of_not_mem {plan : Plan} {ids : List NodeId} {id : NodeId}
    (outside : id ∉ ids) : (ids.foldl hoistNode plan).table.get? id = plan.table.get? id := by
  induction ids generalizing plan with
  | nil => rfl
  | cons first rest ih =>
    rw [List.mem_cons, not_or] at outside
    rw [List.foldl_cons, ih outside.2, hoistNode]
    split
    · exact (Table.get?_set ..).trans (if_neg outside.1)
    · rfl

theorem marks_foldl_hoistNode (plan : Plan) (ids : List NodeId) :
    (ids.foldl hoistNode plan).marks = plan.marks := by
  induction ids generalizing plan with
  | nil => rfl
  | cons first rest ih =>
    rw [List.foldl_cons, ih, hoistNode]
    split <;> rfl

namespace Hoister

/-- Nothing was moved yet on the nodes and below them, and the levels that are kept are right. -/
structure Ready (table : Table) (marks : NodeMap CacheMark) (roots nodes : List Node)
    (hoister : Hoister) : Prop where
  sameMarks : hoister.plan.marks = marks
  unmoved : ∀ number, 0 < Node.tally number nodes →
    hoister.plan.table.get? number = table.get? number
  known : Known table marks roots hoister.known

mutual

theorem visit_eq (distinct : ∀ number, Node.tally number roots ≤ 1) {hoister : Hoister} :
    (node : Node) → (∀ inner ∈ node.flatten, inner ∈ Node.flattenAll roots) →
    (∀ number, Node.tally number [node] ≤ 1) → hoister.Ready table marks roots [node] →
    (hoister.visit node).plan = (staticElements table marks node).foldl hoistNode hoister.plan ∧
      Known table marks roots (hoister.visit node).known
  | ⟨id, content, span, children⟩, within, once, ready => by
    obtain ⟨found, kept⟩ := recallLevel_eq distinct ready.known _ within ready.unmoved
    unfold visit staticElements
    rw [ready.sameMarks]
    cases content with
    | element element =>
      dsimp only
      split
      · exact ⟨rfl, ready.known⟩
      · rw [found]
        split
        · exact ⟨rfl, kept⟩
        · rw [Node.flatten_eq, List.forall_mem_cons] at within
          have below (number : NodeId) :=
            Node.tally_singleton number ⟨id, .element element, span, children⟩
          refine visitAll_eq distinct children within.2 (fun number => ?_)
            ⟨ready.sameMarks, fun number present => ready.unmoved number ?_, kept⟩
          · have := below number
            have := once number
            dsimp only at *
            omega
          · have := below number
            dsimp only at *
            omega
    | _ => exact ⟨rfl, ready.known⟩

theorem visitAll_eq (distinct : ∀ number, Node.tally number roots ≤ 1) {hoister : Hoister} :
    (nodes : List Node) → (∀ inner ∈ Node.flattenAll nodes, inner ∈ Node.flattenAll roots) →
    (∀ number, Node.tally number nodes ≤ 1) → hoister.Ready table marks roots nodes →
    (hoister.visitAll nodes).plan =
        (staticElementsAll table marks nodes).foldl hoistNode hoister.plan ∧
      Known table marks roots (hoister.visitAll nodes).known
  | [], _, _, ready => ⟨rfl, ready.known⟩
  | node :: rest, within, once, ready => by
    obtain ⟨moved, kept⟩ := visit_eq distinct node
      (fun inner member => within inner (List.mem_append_left _ member))
      (fun number => by have := once number; rw [Node.tally_cons] at this; omega)
      ⟨ready.sameMarks, fun number present => ready.unmoved number (by rw [Node.tally_cons]; omega),
        ready.known⟩
    rw [visitAll, staticElementsAll, List.foldl_append, ← moved]
    refine visitAll_eq distinct rest
      (fun inner member => within inner (List.mem_append_right _ member))
      (fun number => by have := once number; rw [Node.tally_cons] at this; omega)
      ⟨?_, fun number present => ?_, kept⟩
    · rw [moved, marks_foldl_hoistNode]
      exact ready.sameMarks
    -- What was moved is on the first node or below it, and no number is there and behind.
    · have outside : number ∉ staticElements table marks node := by
        intro member
        have := List.count_pos_iff.2 member
        have := count_staticElements_le table marks number node
        have := once number
        rw [Node.tally_cons] at this
        omega
      rw [moved, get?_foldl_hoistNode_of_not_mem outside]
      exact ready.unmoved number (by rw [Node.tally_cons]; omega)

end

end Hoister

/-- It makes no difference whether levels are kept, or that elements are moved on the way. -/
theorem hoistOnTheWay_eq (plan : Plan)
    (distinct : ∀ number, Node.tally number plan.template.roots ≤ 1) :
    plan.hoistOnTheWay = plan.hoist := by
  have nothing : Known plan.table plan.marks plan.template.roots [] := by
    intro node member level found
    cases found
  exact (Hoister.visitAll_eq distinct plan.template.roots (fun _ member => member) distinct
    ⟨rfl, fun _ _ => rfl, nothing⟩).1

end Plan

end TemplateCompiler
