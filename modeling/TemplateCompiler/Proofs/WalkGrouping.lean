import TemplateCompiler.Proofs.WalkEntering

/-! Entering a node with a condition. The alternatives that follow it come with it, what stood
between them leaves the tree, and the rest of the siblings stays as it is. -/

namespace TemplateCompiler

namespace Conditional

/-- A directive that is there gives a condition, though it may be one that always holds. -/
theorem condition_takeCondition {node : Node} {name : String}
    (present : node.properties.hasDirective name = true) :
    (takeCondition node name).condition.isSome = true := by
  simp only [takeCondition]
  cases found : (node.properties.takeDirective (· == name)).1 with
  | none =>
    simp only [Properties.takeDirective] at found
    simp [Properties.hasDirective, found] at present
  | some directive =>
    simp only
    cases empty : directive.emptyProblem? .ifWithoutExpression with
    | some problem => rfl
    | none =>
      simp only [Directive.emptyProblem?, Directive.isEmpty] at empty
      cases given : directive.expression with
      | none => simp [given] at empty
      | some value => rfl

theorem tally_collect (number : NodeId) (key : Nat) (skipped nodes : List Node) :
    Node.tally number ((collect key skipped nodes).found.map (·.node)) +
      Node.tally number (collect key skipped nodes).rest +
      Node.tally number (collect key skipped nodes).dropped =
      Node.tally number skipped + Node.tally number nodes := by
  induction nodes generalizing key skipped with
  | nil => simp [collect]
  | cons node nodes ih =>
    rw [Node.tally_cons number node nodes]
    simp only [collect]
    split
    · have := ih key (skipped ++ [node])
      rw [Node.tally_append] at this
      omega
    · split
      · have := ih (key + 1) []
        simp only [List.map_cons, alternativeOf, node_takeCondition, Node.tally_append]
        rw [Node.tally_cons, Node.tally_withProperties]
        rw [Node.tally_nil] at this
        omega
      · split
        · simp only [List.map_cons, List.map_nil, alternativeOf, node_takeCondition]
          rw [Node.tally_withProperties]
          omega
        · simp only [List.map_nil, Node.tally_nil, Node.tally_append]
          rw [Node.tally_cons number node nodes]
          omega

theorem rest_collect_subset (key : Nat) (skipped nodes : List Node) :
    ∀ node ∈ (collect key skipped nodes).rest, node ∈ skipped ++ nodes := by
  induction nodes generalizing key skipped with
  | nil =>
    intro node member
    simpa [collect] using member
  | cons first nodes ih =>
    simp only [collect]
    split
    · intro node member
      have := ih key (skipped ++ [first]) node member
      simpa using this
    · split
      · intro node member
        have := ih (key + 1) [] node member
        simp at this ⊢
        exact .inr (.inr this)
      · split
        · intro node member
          simp [member]
        · exact fun node member => member

theorem Chained.cons {branch : Branch} {branches : List Branch}
    (tested : branch.condition.isSome = true) (chained : Chained branches) :
    Chained (branch :: branches) := by
  cases branches with
  | nil => trivial
  | cons next rest => exact ⟨tested, chained⟩

theorem found_collect (key : Nat) (skipped : List Node) {nodes : List Node}
    (parsed : ∀ node ∈ nodes, node.Parsed) :
    (∀ node ∈ (collect key skipped nodes).found.map (·.node),
      node.Parsed ∧ node.isElement = true) ∧
    Chained ((collect key skipped nodes).found.map (·.branch)) := by
  induction nodes generalizing key skipped with
  | nil => exact ⟨List.forall_mem_nil _, trivial⟩
  | cons first nodes ih =>
    obtain ⟨own, others⟩ := List.forall_mem_cons.1 parsed
    have taken {name : String} (present : first.properties.hasDirective name = true) :
        (takeCondition first name).node.Parsed ∧ (takeCondition first name).node.isElement = true := by
      rw [node_takeCondition, Node.isElement_withProperties]
      exact ⟨own.withProperties _, Node.isElement_of_hasDirective present⟩
    simp only [collect]
    split
    · exact ih key (skipped ++ [first]) others
    · split
      · next present =>
        obtain ⟨found, chained⟩ := ih (key + 1) [] others
        exact ⟨List.forall_mem_cons.2 ⟨taken present, found⟩,
          .cons (condition_takeCondition present) chained⟩
      · split
        · next present =>
          exact ⟨List.forall_mem_cons.2 ⟨taken present, List.forall_mem_nil _⟩, trivial⟩
        · exact ⟨List.forall_mem_nil _, trivial⟩

/-- What follows an element with a condition, if it is one of several siblings. -/
def others (site : Site) : Alternatives :=
  if site.hasSiblings then collect (firstKey site + 1) [] site.after else { rest := site.after }

theorem tally_others (number : NodeId) (site : Site) :
    Node.tally number ((others site).found.map (·.node)) + Node.tally number (others site).rest +
      Node.tally number (others site).dropped = Node.tally number site.after := by
  simp only [others]
  split
  · rw [tally_collect, Node.tally_nil]
    omega
  · simp

theorem rest_others_subset {site : Site} :
    ∀ node ∈ (others site).rest, node ∈ site.after := by
  simp only [others]
  split
  · exact fun node member => by simpa using rest_collect_subset _ _ _ node member
  · exact fun node member => member

theorem found_others {site : Site} (parsed : ∀ node ∈ site.after, node.Parsed) :
    (∀ node ∈ (others site).found.map (·.node), node.Parsed ∧ node.isElement = true) ∧
      Chained ((others site).found.map (·.branch)) := by
  simp only [others]
  split
  · exact found_collect _ _ parsed
  · exact ⟨fun _ member => (nomatch member), trivial⟩

/-- The node that comes in place of an element with a condition. -/
def grouped (node : Node) (site : Site) (number : NodeId) : Node :=
  let alternatives := alternativeOf (takeCondition node "if") (firstKey site) :: (others site).found
  { id := number
    content := .conditional (alternatives.map (·.branch))
    span := node.span.join (((others site).found.getLast?.map (·.branch.span)).getD node.span)
    children := alternatives.map (·.node) }

theorem tally_grouped (node : Node) (site : Site) (next number : NodeId) :
    Node.tally number (grouped node site next).children =
      Node.tally number [node] + Node.tally number ((others site).found.map (·.node)) := by
  simp only [grouped, List.map_cons, alternativeOf]
  rw [Node.tally_cons, node_takeCondition, Node.tally_withProperties]

theorem parsed_grouped {node : Node} {site : Site} (next : NodeId) (own : node.Parsed)
    (element : node.isElement = true) (parsed : ∀ other ∈ site.after, other.Parsed) :
    ∀ child ∈ (grouped node site next).children, child.Parsed ∧ child.isElement = true := by
  refine List.forall_mem_cons.2 ⟨?_, (found_others parsed).1⟩
  simp only [alternativeOf, node_takeCondition, Node.isElement_withProperties]
  exact ⟨own.withProperties _, element⟩

end Conditional

variable {around : Surroundings} {ancestors : List NodeId} {hasSiblings : Bool} {stage : Nat}
  {node : Node} {before : Progress} {rest : List Node}

/-- The conditional comes in place of its first alternative, and the others are taken from the
siblings behind that. -/
theorem Moves.group {done : List Node} {middle after : Progress}
    (ready : before.Ready around ancestors stage (node :: rest))
    (allocates : Progress.Allocates
      (Conditional.others ⟨ancestors, hasSiblings, done, some node, rest⟩).dropped before middle)
    (quiet : Progress.Quiet before.next middle after) :
    Moves hasSiblings (node :: rest) before
      [Conditional.grouped node ⟨ancestors, hasSiblings, done, some node, rest⟩ before.next]
      (Conditional.others ⟨ancestors, hasSiblings, done, some node, rest⟩).rest after := by
  have balance (number : NodeId) :=
    Conditional.tally_others number ⟨ancestors, hasSiblings, done, some node, rest⟩
  refine .allocate ready allocates quiet rfl ?_ ?_ ?_ ?_
  · intro number
    have := balance number
    rw [Conditional.tally_grouped, Node.tally_cons number node rest]
    dsimp only at this
    omega
  · exact fun other member => List.mem_cons_of_mem _ (Conditional.rest_others_subset other member)
  · intro number
    have := balance number
    dsimp only [List.tail_cons] at this ⊢
    omega
  · intro single
    simp [Conditional.others, single]

theorem Outcome.group {done : List Node} {entered : Entered}
    (ready : before.Ready around ancestors 2 (node :: rest))
    (present : node.properties.hasDirective "if" = true)
    (enters : enterAll 2
      (Conditional.group node ⟨ancestors, hasSiblings, done, some node, rest⟩ before).site
      (Conditional.group node ⟨ancestors, hasSiblings, done, some node, rest⟩ before).progress
      [Loops.pass, Memo.pass, Elements.pass, TextRun.pass] = .ok entered) :
    Outcome around ancestors hasSiblings (node :: rest) before []
      { entered with exits := entered.exits ++ [(1, Conditional.pass)] } := by
  have blank := ready.fresh before.next (Nat.le_refl _)
  have element := Node.isElement_of_hasDirective present
  have once := node.properties.hasDirective_takeDirective (show "once" ≠ "if" by decide)
  obtain ⟨own, parsed⟩ := List.forall_mem_cons.1 ready.parsed
  have alternatives := @Conditional.parsed_grouped node
    ⟨ancestors, hasSiblings, done, some node, rest⟩ before.next own element parsed
  have chained :=
    (@Conditional.found_others ⟨ancestors, hasSiblings, done, some node, rest⟩ parsed).2
  have allocates : Progress.Allocates
      (Conditional.others ⟨ancestors, hasSiblings, done, some node, rest⟩).dropped before
      (Conditional.group node ⟨ancestors, hasSiblings, done, some node, rest⟩ before).progress :=
    ⟨rfl, rfl, rfl, fun _ => ⟨rfl, rfl, rfl, rfl, fun _ => rfl⟩⟩
  -- A conditional has no directives, so the pass for loops has nothing to do.
  rw [@enterAll_cons _ _ _ _ _ _ ⟨_, _, false⟩ rfl (blank.entered 2) rfl] at enters
  obtain ⟨later, third, rfl⟩ := ok_of_map_eq_ok enters
  obtain ⟨after, rfl, passes, noted⟩ := @enterAll_new around _ _ _ _ rfl rfl blank.dependencies
    blank.mark (fun pass late => by
      rw [Progress.hasEntered_markEntered, beq_eq_false_iff_ne.2 (by omega)]
      exact blank.entered pass) third
  have quiet : Progress.Quiet before.next
      (Conditional.group node ⟨ancestors, hasSiblings, done, some node, rest⟩ before).progress after :=
    (Progress.quiet_markEntered _ 2 _).trans passes.quiet
  have moves := Moves.group ready allocates quiet
  have kept (number : NodeId) (inside : 0 < Node.tally number (node :: rest)) :
      before.Agrees number after :=
    allocates.keeps quiet ready inside
  have first : 0 < Node.tally node.id (node :: rest) := Node.tally_pos_of_mem List.mem_cons_self
  have head : (Conditional.takeCondition node "if").node.id = node.id := by
    rw [Conditional.node_takeCondition, Node.withProperties_id]
  refine .conditional rfl rfl moves ?_ noted (ready.descend _ moves ?_ ?_ ?_ ?_ ?_ ?_) ?_ ?_ ?_ ?_
  · exact quiet.frames
  · exact fun child member => (alternatives child member).1
  · intro number inside different
    have different : number ≠ node.id := by
      intro same
      subst same
      exact different (congrArg some head)
    have inside : 0 < Node.tally number (node :: rest) := by
      have := Conditional.tally_others number ⟨ancestors, hasSiblings, done, some node, rest⟩
      rw [Conditional.tally_grouped] at inside
      rw [Node.tally_cons]
      dsimp only at this
      omega
    exact (ready.blank_rest inside different).agrees (kept number inside)
  · intro child given
    cases given
    refine (ready.begun node rfl).agrees (kept node.id first) head ?_ rfl
    simp only [Conditional.alternativeOf, Conditional.node_takeCondition]
    rw [Node.properties_withProperties element, once]
  · exact quiet.scope.trans ready.scope
  · rfl
  · have new : after.onceNodes.contains before.next = false := by
      rw [passes.onceNodes]
      exact blank.once
    exact (congrArg (· || around.inOnce) new).trans (Bool.false_or _)
  · exact fun child member => Node.isTextLike_of_isElement (alternatives child member).2
  · simp only [List.length_map]
  · exact .cons (Conditional.condition_takeCondition present) chained
  · exact Conditional.condition_takeCondition present

/-- An alternative without a condition in front of it is removed from among its siblings. -/
theorem Visits.drop {progress : Progress}
    (next : progress.next = before.next) (dropped : progress.dropped = before.dropped ++ [node])
    (scope : progress.scope = before.scope) (frames : progress.frames = before.frames)
    (setting : progress.setting = before.setting)
    (agrees : ∀ number, before.Agrees number progress) :
    Visits around true (node :: rest) before [] rest progress := by
  refine ⟨⟨?_, ?_, ?_, setting, fun number _ => agrees number,
    fun number _ silent => silent.agrees (agrees number), ?_, ?_, ?_⟩, scope, frames,
    fun _ member => (nomatch member), fun _ member => (nomatch member)⟩
  · intro number
    rw [next, dropped, Node.tally_append, Node.tally_nil, Node.tally_cons number node rest]
    omega
  · rw [next]
    exact fun _ old => old
  · intro number
    rw [dropped, Node.tally_append]
    omega
  · exact fun _ member => List.mem_cons_of_mem _ member
  · exact fun _ => Nat.le_refl _
  · exact fun several => nomatch several

/-- The pass for conditions comes second, and the passes behind it enter what it made of the
node. -/
theorem enterAll_first_ok {done : List Node} {entered : Entered}
    (ready : before.Ready around ancestors 1 (node :: rest))
    (enters : enterAll 1 ⟨ancestors, hasSiblings, done, some node, rest⟩ before
      [Conditional.pass, Loops.pass, Memo.pass, Elements.pass, TextRun.pass] = .ok entered) :
    ∃ entrance later,
      Conditional.enter node ⟨ancestors, hasSiblings, done, some node, rest⟩
        (before.markEntered 1 node.id) = .ok entrance ∧
      enterAll 2 entrance.site entrance.progress
        [Loops.pass, Memo.pass, Elements.pass, TextRun.pass] = .ok later ∧
      (if entrance.exits then { later with exits := later.exits ++ [(1, Conditional.pass)] }
        else later) = entered := by
  have new : before.hasEntered 1 node.id = false := by
    rw [(ready.begun node rfl).entered]
    rfl
  cases entering : Conditional.enter node ⟨ancestors, hasSiblings, done, some node, rest⟩
      (before.markEntered 1 node.id) with
  | error fault => simp [enterAll, new, Conditional.pass, entering] at enters
  | ok entrance =>
    rw [enterAll_cons rfl new entering] at enters
    obtain ⟨later, others, same⟩ := ok_of_map_eq_ok enters
    exact ⟨entrance, later, rfl, others, same⟩

theorem enterAll_first {done : List Node} {entered : Entered}
    (ready : before.Ready around ancestors 1 (node :: rest))
    (enters : enterAll 1 ⟨ancestors, hasSiblings, done, some node, rest⟩ before
      [Conditional.pass, Loops.pass, Memo.pass, Elements.pass, TextRun.pass] = .ok entered) :
    Outcome around ancestors hasSiblings (node :: rest) before [] entered := by
  have begun := ready.begun node rfl
  have quiet := before.quiet_markEntered 1 node.id
  have next := ready.step quiet (begun.mark_entered (by decide))
  have silent := (next.begun node rfl).silent
  obtain ⟨entrance, later, entering, others, rfl⟩ := enterAll_first_ok ready enters
  simp only [Conditional.enter] at entering
  split at entering
  · next present =>
    split at entering
    · cases entering
    · cases entering
      exact (Outcome.group next present others).after_quiet quiet silent ready
  · split at entering
    · cases entering
      exact (enterAll_second next others).after_quiet quiet silent ready
    · next directive found =>
      split at entering
      · next several =>
        cases entering
        subst several
        cases others
        have visits : Visits around true (node :: rest) (before.markEntered 1 node.id) [] rest
            (((before.markEntered 1 node.id).report
              [{ kind := .elseWithoutIf, span := directive.span }]).drop [node]) :=
          .drop rfl rfl rfl rfl rfl fun _ => ⟨rfl, rfl, rfl, rfl, fun _ => rfl⟩
        exact .gone rfl (visits.after_quiet quiet silent ready)
      · cases entering
        have marked := begun.mark_entered (by decide)
        have reported : Progress.Quiet node.id before ((before.markEntered 1 node.id).report
            [{ kind := .elseWithoutIf, span := directive.span }]) :=
          quiet.trans ⟨rfl, rfl, rfl, rfl, rfl, fun _ _ => ⟨rfl, rfl, rfl, rfl, fun _ => rfl⟩⟩
        have next := ready.step reported
          ⟨marked.table, marked.dependencies, marked.mark, marked.entered, marked.once⟩
        exact (enterAll_second next others).after_quiet reported (next.begun node rfl).silent ready

/-- The node that an element rendered once ends up as is kept, unless something around it is. -/
def OnceExits (around : Surroundings) (once : List (Nat × Pass)) : Prop :=
  once = [] ∨ once = [(0, Once.pass)] ∧ around.inOnce = false

namespace Once

theorem site_enter (node : Node) (site : Site) (progress : Progress) :
    (enter node site progress).site = site := by
  simp only [enter]
  split <;> rfl

/-- Nothing is noted but that the node is rendered once. -/
theorem quiet_enter (node : Node) (site : Site) (before : Progress) :
    Progress.Quiet node.id before (enter node site (before.markEntered 0 node.id)).progress := by
  have quiet := before.quiet_markEntered 0 node.id
  simp only [enter]
  split
  · refine quiet.trans ⟨rfl, rfl, rfl, rfl, rfl, fun other different => ?_⟩
    refine ⟨rfl, rfl, rfl, ?_, fun _ => rfl⟩
    rw [List.contains_cons, beq_eq_false_iff_ne.2 different, Bool.false_or]
  · exact quiet

section First

variable (done : List Node) (hasSiblings : Bool)
  (ready : before.Ready around ancestors 0 (node :: rest))

include ready

theorem inOnce_entered : (before.markEntered 0 node.id).inOnce
    ⟨ancestors, hasSiblings, done, some node, rest⟩ = around.inOnce := by
  rw [Progress.inOnce_eq _ rfl]
  exact (congrArg _ ready.inOnce).trans (ready.begun node rfl).once

theorem exits_enter : (enter node ⟨ancestors, hasSiblings, done, some node, rest⟩
    (before.markEntered 0 node.id)).exits =
      (node.properties.hasDirective "once" && !around.inOnce) := by
  simp only [enter, inOnce_entered done hasSiblings ready]
  split
  · next marks => exact marks.symm
  · next unmarked => exact (Bool.not_eq_true _ ▸ unmarked).symm

/-- Noting that a node is rendered once leaves it ready for the other passes. -/
theorem ready_enter : (enter node ⟨ancestors, hasSiblings, done, some node, rest⟩
    (before.markEntered 0 node.id)).progress.Ready around ancestors 1 (node :: rest) := by
  have begun := ready.begun node rfl
  have quiet := quiet_enter node ⟨ancestors, hasSiblings, done, some node, rest⟩ before
  have stages (pass : Nat) :
      (before.markEntered 0 node.id).hasEntered pass node.id = decide (pass < 1) := by
    rw [Progress.hasEntered_markEntered, begun.entered, beq_self_eq_true, Bool.and_true,
      Bool.eq_iff_iff]
    simp
  simp only [enter, inOnce_entered done hasSiblings ready] at quiet ⊢
  split at quiet
  · next marks =>
    obtain ⟨directed, -⟩ := Bool.and_eq_true_iff.1 marks
    rw [if_pos marks]
    refine ready.step quiet ⟨begun.table, begun.dependencies, begun.mark, stages, ?_⟩
    simp only [List.contains_cons, beq_self_eq_true, Bool.true_or, directed]
    rfl
  · next unmarked =>
    rw [if_neg unmarked]
    refine ready.step quiet ⟨begun.table, begun.dependencies, begun.mark, stages,
      begun.once.trans ?_⟩
    revert unmarked
    cases node.properties.hasDirective "once" <;> cases around.inOnce <;> decide

end First

end Once

theorem enterAll_zeroth {done : List Node} {entered : Entered}
    (ready : before.Ready around ancestors 0 (node :: rest))
    (enters : enterAll 0 ⟨ancestors, hasSiblings, done, some node, rest⟩ before defaultPasses =
      .ok entered) :
    ∃ once, OnceExits around once ∧
      Outcome around ancestors hasSiblings (node :: rest) before once entered := by
  have quiet := Once.quiet_enter node ⟨ancestors, hasSiblings, done, some node, rest⟩ before
  have next := Once.ready_enter done hasSiblings ready
  have exits := Once.exits_enter done hasSiblings ready
  rw [defaultPasses, enterAll_cons rfl (by rw [(ready.begun node rfl).entered]; rfl) rfl] at enters
  obtain ⟨later, others, rfl⟩ := ok_of_map_eq_ok enters
  rw [Once.site_enter] at others
  generalize Once.enter node ⟨ancestors, hasSiblings, done, some node, rest⟩
    (before.markEntered 0 node.id) = entrance at *
  have outcome := (enterAll_first next others).after_quiet quiet (next.begun node rfl).silent ready
  split
  · next marks =>
    rw [exits] at marks
    have outer : around.inOnce = false := by simpa using (Bool.and_eq_true_iff.1 marks).2
    exact ⟨[(0, Once.pass)], .inr ⟨rfl, outer⟩, outcome.withOnce _⟩
  · exact ⟨[], .inl rfl, outcome⟩

theorem enterAll_outcome {done : List Node} {entered : Entered}
    (ready : before.Ready around ancestors stage (node :: rest))
    (staged : stage = 0 ∨ stage = 2 ∨ stage = 3)
    (enters : enterAll 0 ⟨ancestors, hasSiblings, done, some node, rest⟩ before defaultPasses =
      .ok entered) :
    ∃ once, OnceExits around once ∧
      Outcome around ancestors hasSiblings (node :: rest) before once entered := by
  have begun := ready.begun node rfl
  rcases staged with rfl | rfl | rfl
  · exact enterAll_zeroth ready enters
  · rw [defaultPasses, enterAll_skip rfl (by rw [begun.entered]; rfl),
      enterAll_skip rfl (by rw [begun.entered]; rfl)] at enters
    exact ⟨[], .inl rfl, enterAll_second ready enters⟩
  · rw [defaultPasses, enterAll_skip rfl (by rw [begun.entered]; rfl),
      enterAll_skip rfl (by rw [begun.entered]; rfl),
      enterAll_skip rfl (by rw [begun.entered]; rfl)] at enters
    exact ⟨[], .inl rfl, enterAll_third ready enters⟩

/-- What a loop repeats is still an element when it has been entered, and is not to be rendered
once by itself. -/
theorem enterAll_repeated {done : List Node} {entered : Entered}
    (ready : before.Ready around ancestors 3 (node :: rest)) (element : node.isElement = true)
    (enters : enterAll 0 ⟨ancestors, hasSiblings, done, some node, rest⟩ before defaultPasses =
      .ok entered) :
    ∃ current, entered.site.focus = some current ∧ current.isElement = true ∧
      entered.progress.marks.get? current.id ≠ some .once ∧ entered.exits = elementExits := by
  have begun := ready.begun node rfl
  obtain ⟨properties, after, same, keeps⟩ := enterAll_kept done ready element
  rw [defaultPasses, enterAll_skip rfl (by rw [begun.entered]; rfl),
    enterAll_skip rfl (by rw [begun.entered]; rfl),
    enterAll_skip rfl (by rw [begun.entered]; rfl), same] at enters
  cases enters
  refine ⟨_, rfl, (node.isElement_withProperties properties).trans element, ?_, rfl⟩
  rw [Node.withProperties_id]
  exact keeps.apart

end TemplateCompiler
