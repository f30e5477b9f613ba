import TemplateCompiler.Proofs.Lineage
import TemplateCompiler.Proofs.WalkState

/-! What entering a node leads to. The passes enter one after another; a node is removed, becomes a
conditional or a loop with its first child already entered by the passes so far, or stays what it
is. Every pass only notes something of the node in focus, so what is behind it is not disturbed. -/

namespace TemplateCompiler

theorem Properties.hasDirective_eq_any (properties : Properties) (name : String) :
    properties.hasDirective name = properties.any (·.directs (· == name)) := by
  rw [Bool.eq_iff_iff, List.any_eq_true, hasDirective, findDirective?, Option.isSome_bind]
  simp only [Option.any_eq_true]
  constructor
  · intro found
    obtain ⟨property, found, _⟩ := found
    exact ⟨property, List.mem_of_find?_eq_some found, List.find?_some found⟩
  · intro found
    obtain ⟨property, member, directs⟩ := found
    cases found : properties.find? (·.directs (· == name)) with
    | none => exact absurd directs (List.find?_eq_none.1 found property member)
    | some first =>
      refine ⟨first, rfl, ?_⟩
      have := List.find?_some found
      cases first with
      | attr given => cases this
      | dir given => rfl

/-- Taking one directive leaves those of other names. -/
theorem Properties.hasDirective_takeDirective (properties : Properties) {name other : String}
    (different : other ≠ name) :
    (properties.takeDirective (· == name)).2.hasDirective other = properties.hasDirective other := by
  simp only [hasDirective_eq_any, takeDirective]
  induction properties with
  | nil => rfl
  | cons property rest ih =>
    by_cases taken : property.directs (· == name) = true
    · rw [List.eraseP_cons_of_pos taken, List.any_cons]
      cases property with
      | attr given => cases taken
      | dir given =>
        have same : given.name = name := by simpa [Property.directs] using taken
        have no : (given.name == other) = false :=
          beq_eq_false_iff_ne.2 fun equal => different (equal.symm.trans same)
        simp [Property.directs, no]
    · rw [List.eraseP_cons_of_neg taken, List.any_cons, List.any_cons, ih]

namespace Node

theorem isElement_of_hasDirective {node : Node} {name : String}
    (present : node.properties.hasDirective name = true) : node.isElement = true := by
  obtain ⟨id, content, span, children⟩ := node
  cases content with
  | element element => rfl
  | _ => cases present

theorem isTextLike_of_isElement {node : Node} (element : node.isElement = true) :
    node.isTextLike = false := by
  obtain ⟨id, content, span, children⟩ := node
  cases content with
  | element given => rfl
  | _ => cases element

@[simp]
theorem withProperties_id (node : Node) (properties : Properties) :
    (node.withProperties properties).id = node.id := by
  simp only [withProperties]
  split <;> rfl

@[simp]
theorem withProperties_span (node : Node) (properties : Properties) :
    (node.withProperties properties).span = node.span := by
  simp only [withProperties]
  split <;> rfl

@[simp]
theorem withProperties_children (node : Node) (properties : Properties) :
    (node.withProperties properties).children = node.children := by
  simp only [withProperties]
  split <;> rfl

@[simp]
theorem tally_withProperties (number : NodeId) (node : Node) (properties : Properties) :
    tally number [node.withProperties properties] = tally number [node] := by
  rw [tally_singleton, tally_singleton, withProperties_id, withProperties_children]

theorem properties_withProperties {node : Node} (element : node.isElement = true)
    (properties : Properties) : (node.withProperties properties).properties = properties := by
  obtain ⟨id, content, span, children⟩ := node
  cases content with
  | element given => rfl
  | _ => cases element

theorem Parsed.withProperties {node : Node} (parsed : node.Parsed) (properties : Properties) :
    (node.withProperties properties).Parsed := by
  cases parsed with
  | element below => exact .element below
  | text => exact .text
  | interpolation => exact .interpolation
  | comment => exact .comment

end Node

theorem Node.withProperties_self (node : Node) : node.withProperties node.properties = node := by
  obtain ⟨id, content, span, children⟩ := node
  cases content <;> rfl

def Site.nodes (site : Site) : List Node :=
  site.before.reverse ++ (site.focus.toList ++ site.after)

theorem Site.nodes_of_focus {site : Site} {node : Node} (focused : site.focus = some node) :
    site.nodes = site.before.reverse ++ node :: site.after := by
  rw [nodes, focused]
  rfl

theorem Site.replace_self {site : Site} {node : Node} (focused : site.focus = some node) :
    site.replace node = site := by
  cases site
  simp only at focused
  simp [Site.replace, focused]

theorem Surroundings.resolveValue_congr {first second : Surroundings}
    (reader : first.reader = second.reader) (scope : first.scope = second.scope) (value : Value) :
    first.resolveValue value = second.resolveValue value := by
  simp only [resolveValue, resolve, reader, scope]

variable {around : Surroundings} {ancestors : List NodeId} {hasSiblings : Bool} {stage : Nat}
  {node : Node} {site : Site} {before : Progress}

/-- Entering keeps the node, apart from its properties, and leaves it noted. -/
structure Keeps (around : Surroundings) (node : Node) (before : Progress) (properties : Properties)
    (after : Progress) : Prop where
  quiet : Progress.Quiet node.id before after
  onceNodes : after.onceNodes = before.onceNodes
  noted : after.Noted around node.id
  once : properties.hasDirective "once" = node.properties.hasDirective "once"
  apart : after.marks.get? node.id ≠ some .once

theorem Memo.enter_keeps (focused : site.focus = some node) (scope : before.scope = around.scope)
    (setting : before.setting = around.setting)
    (outer : around.inOnce = true → before.inOnce site = true)
    (dependencies : before.memoDependencies.get? node.id = none)
    (mark : before.marks.get? node.id = none) :
    ∃ properties after, Memo.enter node site before =
        { site := site.replace (node.withProperties properties), progress := after } ∧
      Keeps around node before properties after ∧
      after.table = before.table ∧ after.entered = before.entered := by
  have unnoted (after : Progress) (same : after.memoDependencies = before.memoDependencies)
      (marks : after.marks = before.marks) : after.Noted around node.id := by
    constructor
    · intro expr found
      rw [same, dependencies] at found
      cases found
    · rw [marks]
      exact fun _ => mark
  have apart (after : Progress) (same : after.marks = before.marks) :
      after.marks.get? node.id ≠ some .once := by
    rw [same, mark]
    intro marked
    cases marked
  have once := node.properties.hasDirective_takeDirective (show "once" ≠ "memo" by decide)
  simp only [Memo.enter]
  split
  · refine ⟨node.properties, before, ?_, ⟨.refl _ _, rfl, unnoted _ rfl rfl, rfl, apart _ rfl⟩,
      rfl, rfl⟩
    rw [Node.withProperties_self, Site.replace_self focused]
  · next directive found =>
    cases directive.emptyProblem? .memoWithoutExpression with
    | some problem =>
      refine ⟨_, _, rfl, ⟨⟨rfl, rfl, rfl, rfl, rfl, fun other _ => ?_⟩, rfl, unnoted _ rfl rfl, once,
        apart _ rfl⟩, rfl, rfl⟩
      exact ⟨rfl, rfl, rfl, rfl, fun _ => rfl⟩
    | none =>
      cases directive.expression with
      | none =>
        exact ⟨_, _, rfl, ⟨.refl _ _, rfl, unnoted _ rfl rfl, once, apart _ rfl⟩, rfl, rfl⟩
      | some value =>
        dsimp only
        split
        · exact ⟨_, _, rfl, ⟨.refl _ _, rfl, unnoted _ rfl rfl, once, apart _ rfl⟩, rfl, rfl⟩
        · next outside =>
          refine ⟨_, _, rfl, ⟨⟨rfl, rfl, rfl, rfl, rfl, fun other different =>
            ⟨rfl, ?_, ?_, rfl, fun _ => rfl⟩⟩, rfl, ⟨?_, ?_⟩, once, ?_⟩, rfl, rfl⟩
          · simp [Memo.keep, NodeMap.get?_insert, different]
          · simp only [Memo.keep, Node.withProperties_id]
            rw [NodeMap.get?_insertNew _ _ _ _ mark, if_neg different]
          · intro expr found
            simp only [Memo.keep, Node.withProperties_id, NodeMap.get?_insert, if_true,
              Option.some.injEq] at found
            exact ⟨value, found.symm.trans
              (congrArg Reported.value
                (Surroundings.resolveValue_congr (Prod.mk.inj setting).1 scope value))⟩
          · exact fun inOnce => absurd (outer inOnce) outside
          · simp only [Memo.keep, Node.withProperties_id]
            rw [NodeMap.get?_insertNew _ _ _ _ mark, if_pos rfl]
            intro marked
            cases marked

theorem enterAll_cons {passes : List Pass} {pass : Pass} {ordinal : Nat} {entrance : Entrance}
    (focused : site.focus = some node) (new : before.hasEntered ordinal node.id = false)
    (enters : pass.enter ordinal node site (before.markEntered ordinal node.id) = .ok entrance) :
    enterAll ordinal site before (pass :: passes) =
      (enterAll (ordinal + 1) entrance.site entrance.progress passes).map fun entered =>
        if entrance.exits then { entered with exits := entered.exits ++ [(ordinal, pass)] }
        else entered := by
  simp only [enterAll, focused, new, enters]
  rfl

theorem enterAll_skip {passes : List Pass} {pass : Pass} {ordinal : Nat}
    (focused : site.focus = some node) (done : before.hasEntered ordinal node.id = true) :
    enterAll ordinal site before (pass :: passes) = enterAll (ordinal + 1) site before passes := by
  simp only [enterAll, focused, done, if_true]

theorem Node.isElement_withProperties (node : Node) (properties : Properties) :
    (node.withProperties properties).isElement = node.isElement := by
  obtain ⟨id, content, span, children⟩ := node
  cases content <;> rfl

/-- Nothing was noted of a node but that it was entered, and its code if it is a comment. -/
structure Passes (node : Node) (before after : Progress) : Prop where
  quiet : Progress.Quiet node.id before after
  onceNodes : after.onceNodes = before.onceNodes
  marks : after.marks = before.marks
  dependencies : after.memoDependencies = before.memoDependencies
  comment : ∀ source, node.content = .comment source →
    after.table.get? node.id = some { body := .comment source }
  table : node.isComment = false → after.table = before.table

theorem Elements.enter_passes (node : Node) (site : Site) (progress : Progress) :
    ∃ after, Elements.enter node site progress =
        { site, progress := after, exits := node.isElement } ∧
      Passes node progress after ∧ after.entered = progress.entered := by
  obtain ⟨id, content, span, children⟩ := node
  cases content with
  | comment source =>
    refine ⟨_, rfl, ⟨progress.quiet_setCode id _, rfl, rfl, rfl, fun other same => ?_, fun none => ?_⟩,
      rfl⟩
    · cases same
      simp [Progress.setCode, Table.get?_set]
    · cases none
  | _ =>
    refine ⟨progress, rfl, ⟨.refl _ _, rfl, rfl, rfl, fun source same => ?_, fun _ => rfl⟩, rfl⟩
    cases same

/-- The passes that enter an element to leave it later. -/
def elementExits : List (Nat × Pass) := [(5, TextRun.pass), (4, Elements.pass)]

theorem enterAll_last (focused : site.focus = some node)
    (fourth : before.hasEntered 4 node.id = false) (fifth : before.hasEntered 5 node.id = false) :
    ∃ after, enterAll 4 site before [Elements.pass, TextRun.pass] =
        .ok { site, progress := after, exits := if node.isElement then elementExits else [] } ∧
      Passes node before after := by
  obtain ⟨coded, code, passes, entered⟩ :=
    Elements.enter_passes node site (before.markEntered 4 node.id)
  have last : coded.hasEntered 5 node.id = false := by
    rw [Progress.hasEntered_congr entered, Progress.hasEntered_markEntered, fifth]
    rfl
  refine ⟨coded.markEntered 5 node.id, ?_, ?_⟩
  · rw [enterAll_cons focused fourth (congrArg Except.ok code), enterAll_cons focused last rfl]
    simp only [enterAll, Except.map]
    cases node.isElement <;> rfl
  · exact ⟨((before.quiet_markEntered 4 _).trans passes.quiet).trans (coded.quiet_markEntered 5 _),
      passes.onceNodes, passes.marks, passes.dependencies, passes.comment, passes.table⟩

theorem enterAll_other (focused : site.focus = some node) (other : node.isElement = false)
    (new : ∀ pass, 3 ≤ pass → before.hasEntered pass node.id = false) :
    ∃ after, enterAll 3 site before [Memo.pass, Elements.pass, TextRun.pass] =
        .ok { site, progress := after } ∧
      Passes node before after := by
  have plain : Memo.enter node site (before.markEntered 3 node.id) =
      { site, progress := before.markEntered 3 node.id } := by
    obtain ⟨id, content, span, children⟩ := node
    cases content with
    | element element => cases other
    | _ => rfl
  have entered (pass : Nat) (late : 3 < pass) :
      (before.markEntered 3 node.id).hasEntered pass node.id = false := by
    rw [Progress.hasEntered_markEntered, new pass (Nat.le_of_lt late), beq_eq_false_iff_ne.2]
    · rfl
    · omega
  obtain ⟨after, last, passes⟩ :=
    enterAll_last focused (entered 4 (by decide)) (entered 5 (by decide))
  refine ⟨after, ?_, ?_⟩
  · rw [enterAll_cons focused (new 3 (Nat.le_refl 3)) (congrArg Except.ok plain)]
    simp only [last, other, Except.map]
    rfl
  · exact ⟨(before.quiet_markEntered 3 _).trans passes.quiet, passes.onceNodes, passes.marks,
      passes.dependencies, passes.comment, passes.table⟩

/-- From the fourth pass on an element stays in its place, at most without one directive. -/
theorem enterAll_element (focused : site.focus = some node) (element : node.isElement = true)
    (scope : before.scope = around.scope) (setting : before.setting = around.setting)
    (outer : around.inOnce = true → before.inOnce site = true)
    (dependencies : before.memoDependencies.get? node.id = none)
    (mark : before.marks.get? node.id = none)
    (new : ∀ pass, 3 ≤ pass → before.hasEntered pass node.id = false) :
    ∃ properties after, enterAll 3 site before [Memo.pass, Elements.pass, TextRun.pass] =
        .ok { site := site.replace (node.withProperties properties)
              progress := after
              exits := elementExits } ∧
      Keeps around node before properties after := by
  obtain ⟨properties, kept, memo, keeps, -, entered⟩ :=
    @Memo.enter_keeps around node site (before.markEntered 3 node.id) focused scope setting
      outer dependencies mark
  have later (pass : Nat) (late : 3 < pass) :
      kept.hasEntered pass (node.withProperties properties).id = false := by
    rw [Progress.hasEntered_congr entered, Node.withProperties_id, Progress.hasEntered_markEntered,
      new pass (Nat.le_of_lt late), beq_eq_false_iff_ne.2]
    · rfl
    · omega
  obtain ⟨after, last, passes⟩ := @enterAll_last (node.withProperties properties)
    (site.replace (node.withProperties properties)) kept rfl (later 4 (by decide))
    (later 5 (by decide))
  have quiet := passes.quiet
  rw [Node.withProperties_id] at quiet
  refine ⟨properties, after, ?_, ⟨?_, ?_, ⟨?_, ?_⟩, keeps.once, ?_⟩⟩
  · rw [enterAll_cons focused (new 3 (Nat.le_refl 3)) (congrArg Except.ok memo)]
    simp only [last, Node.isElement_withProperties, element, Except.map]
    rfl
  · exact ((before.quiet_markEntered 3 _).trans keeps.quiet).trans quiet
  · exact passes.onceNodes.trans keeps.onceNodes
  · rw [passes.dependencies]
    exact keeps.noted.dependencies
  · rw [passes.marks]
    exact keeps.noted.mark
  · rw [passes.marks]
    exact keeps.apart

/-- What entering the node in front of `todo` has led to. The passes in `once` are left last. -/
inductive Outcome (around : Surroundings) (ancestors : List NodeId) (hasSiblings : Bool)
    (todo : List Node) (before : Progress) (once : List (Nat × Pass)) : Entered → Prop
  | gone {site : Site} {progress : Progress} {exits : List (Nat × Pass)}
      (unfocused : site.focus = none)
      (visits : Visits around hasSiblings todo before [] site.after progress) :
      Outcome around ancestors hasSiblings todo before once { site, progress, exits }
  | leaf {site : Site} {progress : Progress} {current : Node}
      (focused : site.focus = some current) (bare : current.children = [])
      (visits : Visits around hasSiblings todo before [current] site.after progress) :
      Outcome around ancestors hasSiblings todo before once { site, progress, exits := once }
  | element {site : Site} {progress : Progress} {id : NodeId} {element : Element} {span : Span}
      {children : List Node}
      (focused : site.focus = some ⟨id, .element element, span, children⟩)
      (place : site.ancestors = ancestors)
      (moves : Moves hasSiblings todo before [⟨id, .element element, span, children⟩] site.after
        progress)
      (frames : progress.frames = before.frames)
      (noted : progress.Noted around id)
      (below : progress.Ready (around.inside element) (id :: ancestors) 0 children) :
      Outcome around ancestors hasSiblings todo before once
        { site, progress, exits := elementExits ++ once }
  | conditional {site : Site} {progress : Progress} {id : NodeId} {branches : List Branch}
      {span : Span} {children : List Node}
      (focused : site.focus = some ⟨id, .conditional branches, span, children⟩)
      (place : site.ancestors = ancestors)
      (moves : Moves hasSiblings todo before [⟨id, .conditional branches, span, children⟩]
        site.after progress)
      (frames : progress.frames = before.frames)
      (noted : progress.Noted around id)
      (below : progress.Ready around (id :: ancestors) 2 children)
      (elements : ∀ child ∈ children, child.isTextLike = false)
      (length : branches.length = children.length)
      (chained : Conditional.Chained branches)
      (tested : (branches.head?.bind (·.condition)).isSome = true) :
      Outcome around ancestors hasSiblings todo before once
        { site, progress, exits := (1, Conditional.pass) :: once }
  | loop {site : Site} {progress : Progress} {id : NodeId} {loop : Loop} {span : Span}
      {child : Node}
      (focused : site.focus = some ⟨id, .loop loop, span, [child]⟩)
      (place : site.ancestors = ancestors)
      (moves : Moves hasSiblings todo before [⟨id, .loop loop, span, [child]⟩] site.after progress)
      (frames : progress.frames =
        ⟨2, id, (around.resolveValue loop.source).value, loop.names around.reader⟩ :: before.frames)
      (noted : progress.Noted around id)
      (below : progress.Ready (around.within loop) (id :: ancestors) 3 [child])
      (element : child.isElement = true) :
      Outcome around ancestors hasSiblings todo before once
        { site, progress, exits := (2, Loops.pass) :: once }

theorem Outcome.inner {todo : List Node} {once : List (Nat × Pass)} {entered : Entered}
    {current : Node} (outcome : Outcome around ancestors hasSiblings todo before once entered)
    (focused : entered.site.focus = some current) (inside : current.children ≠ []) :
    ∃ depth, (depth = 0 ∨ depth = 2 ∨ depth = 3) ∧
      entered.progress.Ready (around.below current.content) (current.id :: ancestors) depth
        current.children := by
  cases outcome with
  | gone unfocused => cases unfocused.symm.trans focused
  | leaf same bare =>
    cases same.symm.trans focused
    exact absurd bare inside
  | element same _ _ _ _ below =>
    cases same.symm.trans focused
    exact ⟨0, .inl rfl, below⟩
  | conditional same _ _ _ _ below =>
    cases same.symm.trans focused
    exact ⟨2, .inr (.inl rfl), below⟩
  | loop same _ _ _ _ below =>
    cases same.symm.trans focused
    exact ⟨3, .inr (.inr rfl), below⟩

variable {rest : List Node} {after middle : Progress}

theorem Outcome.withOnce {todo : List Node} {entered : Entered} (once : List (Nat × Pass))
    (outcome : Outcome around ancestors hasSiblings todo before [] entered) :
    Outcome around ancestors hasSiblings todo before once
      { entered with exits := entered.exits ++ once } := by
  cases outcome with
  | gone unfocused visits => exact .gone unfocused visits
  | leaf focused bare visits => exact .leaf focused bare visits
  | element focused place moves frames noted below =>
    rw [List.append_nil]
    exact .element focused place moves frames noted below
  | conditional focused place moves frames noted below elements length chained tested =>
    exact .conditional focused place moves frames noted below elements length chained tested
  | loop focused place moves frames noted below element =>
    exact .loop focused place moves frames noted below element

theorem Outcome.after_quiet {entered : Entered} {once : List (Nat × Pass)}
    (outcome : Outcome around ancestors hasSiblings (node :: rest) middle once entered)
    (quiet : Progress.Quiet node.id before middle) (silent : middle.Silent node.id)
    (ready : before.Ready around ancestors stage (node :: rest)) :
    Outcome around ancestors hasSiblings (node :: rest) before once entered := by
  cases outcome with
  | gone unfocused visits => exact .gone unfocused (visits.after_quiet quiet silent ready)
  | leaf focused bare visits => exact .leaf focused bare (visits.after_quiet quiet silent ready)
  | element focused place moves frames noted below =>
    exact .element focused place (moves.after_quiet quiet silent ready) (frames.trans quiet.frames) noted
      below
  | conditional focused place moves frames noted below elements length chained tested =>
    exact .conditional focused place (moves.after_quiet quiet silent ready) (frames.trans quiet.frames)
      noted below elements length chained tested
  | loop focused place moves frames noted below element =>
    exact .loop focused place (moves.after_quiet quiet silent ready) (quiet.frames ▸ frames) noted below
      element

theorem Progress.inOnce_eq (progress : Progress) {site : Site} (focused : site.focus = some node) :
    progress.inOnce site =
      (progress.onceNodes.contains node.id || site.ancestors.any progress.onceNodes.contains) := by
  simp [inOnce, focused]

theorem Visits.single {todo left : List Node} {current : Node}
    (moves : Moves hasSiblings todo before [current] left after)
    (scope : after.scope = before.scope) (frames : after.frames = before.frames)
    (finished : Finished after around current)
    (texts : current.isTextLike = true → current ∈ todo) :
    Visits around hasSiblings todo before [current] left after := by
  refine ⟨moves, scope, frames, fun made member => ?_, fun made member => ?_⟩
  · cases List.mem_singleton.1 member
    exact finished
  · cases List.mem_singleton.1 member
    exact texts

theorem Progress.Ready.new (ready : before.Ready around ancestors 3 (node :: rest)) (pass : Nat)
    (late : 3 ≤ pass) : before.hasEntered pass node.id = false := by
  rw [(ready.begun node rfl).entered pass]
  exact decide_eq_false (by omega)

theorem enterAll_kept (done : List Node) (ready : before.Ready around ancestors 3 (node :: rest))
    (element : node.isElement = true) :
    ∃ properties after, enterAll 3 ⟨ancestors, hasSiblings, done, some node, rest⟩ before
        [Memo.pass, Elements.pass, TextRun.pass] =
        .ok { site := ⟨ancestors, hasSiblings, done, some (node.withProperties properties), rest⟩
              progress := after
              exits := elementExits } ∧
      Keeps around node before properties after := by
  have begun := ready.begun node rfl
  exact enterAll_element rfl element ready.scope ready.setting
    (fun inside => by rw [before.inOnce_eq rfl, ready.inOnce, inside, Bool.or_true])
    begun.dependencies begun.mark ready.new

theorem enterAll_third {done : List Node} {entered : Entered}
    (ready : before.Ready around ancestors 3 (node :: rest))
    (enters : enterAll 3 ⟨ancestors, hasSiblings, done, some node, rest⟩ before
      [Memo.pass, Elements.pass, TextRun.pass] = .ok entered) :
    Outcome around ancestors hasSiblings (node :: rest) before [] entered := by
  have begun := ready.begun node rfl
  have other (different : node.isElement = false) (bare : node.children = [])
      (finished : ∀ after, Passes node before after →
        (node.isComment = false → after.Silent node.id) → after.Noted around node.id →
        Finished after around node) :
      Outcome around ancestors hasSiblings (node :: rest) before [] entered := by
    obtain ⟨after, same, passes⟩ := @enterAll_other node
      ⟨ancestors, hasSiblings, done, some node, rest⟩ before rfl different ready.new
    rw [same] at enters
    cases enters
    have noted : after.Noted around node.id := by
      constructor
      · intro expr found
        rw [passes.dependencies, begun.dependencies] at found
        cases found
      · exact fun _ => (congrArg (·.get? node.id) passes.marks).trans begun.mark
    have silent (noComment : node.isComment = false) : after.Silent node.id := by
      constructor
      · rw [passes.table noComment, begun.table]
      · rw [passes.dependencies, begun.dependencies]
    exact .leaf rfl bare (.single (.keep passes.quiet ready fun _ => rfl) passes.quiet.scope
      passes.quiet.frames (finished after passes silent noted) fun _ => List.mem_cons_self)
  have parsed := ready.parsed node List.mem_cons_self
  cases parsed with
  | text => exact other rfl rfl fun _ _ silent noted => .inl ⟨rfl, rfl, silent rfl, noted⟩
  | interpolation => exact other rfl rfl fun _ _ silent noted => .inl ⟨rfl, rfl, silent rfl, noted⟩
  | comment =>
    exact other rfl rfl fun _ passes _ noted => .inr ⟨rfl, .comment noted (passes.comment _ rfl)⟩
  | @element id element span children below =>
    obtain ⟨properties, after, same, keeps⟩ := enterAll_kept done ready rfl
    rw [same] at enters
    cases enters
    have moves : Moves hasSiblings (⟨id, .element element, span, children⟩ :: rest) before
        [Node.withProperties ⟨id, .element element, span, children⟩ properties] rest after :=
      .keep keeps.quiet ready fun number => Node.tally_withProperties number _ properties
    refine .element rfl rfl moves keeps.quiet.frames keeps.noted ?_
    refine ready.descend (Node.withProperties _ properties) moves below ?_ ?_ ?_ ?_ ?_
    · exact fun number present _ => ready.blank_children keeps.quiet present
    · intro child first
      have member := List.mem_of_mem_head? first
      exact (ready.blank_children keeps.quiet (Node.tally_pos_of_mem member)).begun _
    · rw [keeps.quiet.scope, ready.scope]
      rfl
    · rfl
    · rw [keeps.onceNodes]
      refine begun.once.trans ?_
      simp only [Surroundings.inside, keeps.once]
      exact Bool.or_comm _ _

theorem Progress.Begun.mark_entered (begun : before.Begun around node stage) (positive : 0 < stage) :
    (before.markEntered stage node.id).Begun around node (stage + 1) := by
  refine ⟨begun.table, begun.dependencies, begun.mark, fun pass => ?_, ?_⟩
  · rw [hasEntered_markEntered, begun.entered pass, beq_self_eq_true, Bool.and_true, Bool.eq_iff_iff]
    simp
    omega
  · have := begun.once
    simp only [positive, decide_true] at this
    simpa [markEntered] using this

/-- A number was given, and the nodes `gone` left the tree. -/
structure Progress.Allocates (gone : List Node) (before after : Progress) : Prop where
  next : after.next = before.next + 1
  dropped : after.dropped = before.dropped ++ gone
  setting : after.setting = before.setting
  agrees : ∀ number, before.Agrees number after

/-- A node with a new number comes in place of some of the nodes, which it has as its children or
which leave the tree. -/
theorem Moves.allocate {todo left gone : List Node} {current : Node}
    (ready : before.Ready around ancestors stage todo)
    (allocates : Progress.Allocates gone before middle)
    (quiet : Progress.Quiet before.next middle after) (id : current.id = before.next)
    (balance : ∀ number, Node.tally number current.children + Node.tally number left +
      Node.tally number gone = Node.tally number todo)
    (subset : ∀ other ∈ left, other ∈ todo)
    (past : ∀ number, Node.tally number left ≤ Node.tally number todo.tail)
    (length : hasSiblings = false → left.length + 1 = todo.length) :
    Moves hasSiblings todo before [current] left after := by
  have next : after.next = before.next + 1 := quiet.next.trans allocates.next
  constructor
  · intro number
    have := balance number
    rw [quiet.dropped, allocates.dropped, next, Node.tally_append, Node.tally_singleton, id,
      Node.count_range_succ]
    omega
  · intro number old
    rw [next]
    exact Nat.lt_succ_of_lt old
  · intro number
    rw [quiet.dropped, allocates.dropped, Node.tally_append]
    omega
  · exact quiet.setting.trans allocates.setting
  · intro number outside
    have := balance number
    have given := ready.given number
    refine (allocates.agrees number).trans (quiet.others number ?_)
    intro same
    subst same
    rw [next] at outside
    have := Nat.lt_irrefl before.next
    omega
  · intro number absent silent
    refine silent.agrees ((allocates.agrees number).trans (quiet.others number ?_))
    intro same
    subst same
    rw [← id] at absent
    have := Node.tally_self_pos current
    omega
  · exact subset
  · exact past
  · intro single
    have := length single
    rw [List.length_singleton]
    omega

theorem Progress.Begun.agrees {within : Surroundings} {child : Node}
    (begun : before.Begun around node stage) (same : before.Agrees node.id after)
    (id : child.id = node.id)
    (once : child.properties.hasDirective "once" = node.properties.hasDirective "once")
    (inOnce : within.inOnce = around.inOnce) : after.Begun within child stage := by
  constructor
  · rw [id, same.table, begun.table]
  · rw [id, same.dependencies, begun.dependencies]
  · rw [id, same.mark, begun.mark]
  · intro pass
    rw [id, same.entered pass, begun.entered pass]
  · rw [id, same.once, once, inOnce, begun.once]

/-- A new node that is no element passes through, and is not kept in the render cache. -/
theorem enterAll_new {current : Node} {entered : Entered} (focused : site.focus = some current)
    (other : current.isElement = false)
    (dependencies : middle.memoDependencies.get? current.id = none)
    (mark : middle.marks.get? current.id = none)
    (new : ∀ pass, 3 ≤ pass → middle.hasEntered pass current.id = false)
    (enters : enterAll 3 site middle [Memo.pass, Elements.pass, TextRun.pass] = .ok entered) :
    ∃ after, entered = { site, progress := after } ∧ Passes current middle after ∧
      after.Noted around current.id := by
  obtain ⟨after, same, passes⟩ := enterAll_other focused other new
  rw [same] at enters
  cases enters
  refine ⟨after, rfl, passes, ⟨fun expr found => ?_, fun _ => ?_⟩⟩
  · rw [passes.dependencies, dependencies] at found
    cases found
  · rw [passes.marks, mark]

theorem Progress.Allocates.keeps {todo gone : List Node} {number : NodeId}
    (allocates : Progress.Allocates gone before middle)
    (quiet : Progress.Quiet before.next middle after)
    (ready : before.Ready around ancestors stage todo) (present : 0 < Node.tally number todo) :
    before.Agrees number after := by
  refine (allocates.agrees number).trans (quiet.others number ?_)
  exact Nat.ne_of_lt (ready.given number present)

theorem Loops.enter_cases (ordinal : Nat) (node : Node) (site : Site) (progress : Progress) :
    Loops.enter ordinal node site progress = { site, progress } ∨
    (∃ properties problem, Loops.enter ordinal node site progress =
      Loops.degrade (node.withProperties properties) site progress problem) ∨
    (∃ properties expression span, Loops.enter ordinal node site progress =
        Loops.wrap ordinal (node.withProperties properties) site progress expression span ∧
      properties.hasDirective "once" = node.properties.hasDirective "once" ∧
      node.isElement = true) := by
  have once := node.properties.hasDirective_takeDirective (show "once" ≠ "for" by decide)
  simp only [Loops.enter]
  cases found : (node.properties.takeDirective (· == "for")).1 with
  | none => exact .inl rfl
  | some directive =>
    have element : node.isElement = true := by
      refine @Node.isElement_of_hasDirective node "for" ?_
      simp only [Properties.takeDirective] at found
      simp [Properties.hasDirective, found]
    dsimp only
    cases directive.emptyProblem? .forWithoutExpression with
    | some problem => exact .inr (.inl ⟨_, problem, rfl⟩)
    | none =>
      cases directive.expression with
      | none => exact .inl rfl
      | some value =>
        dsimp only
        cases LoopExpression.parse? value.content.raw with
        | none => exact .inr (.inl ⟨_, _, rfl⟩)
        | some expression => exact .inr (.inr ⟨_, expression, value.span, rfl, once, element⟩)

theorem Outcome.degrade {done : List Node} {entered : Entered} {problem : Problem}
    {properties : Properties} (ready : before.Ready around ancestors 3 (node :: rest))
    (enters : enterAll 3
      (Loops.degrade (node.withProperties properties)
        ⟨ancestors, hasSiblings, done, some node, rest⟩ before problem).site
      (Loops.degrade (node.withProperties properties)
        ⟨ancestors, hasSiblings, done, some node, rest⟩ before problem).progress
      [Memo.pass, Elements.pass, TextRun.pass] = .ok entered) :
    Outcome around ancestors hasSiblings (node :: rest) before [] entered := by
  have blank := ready.fresh before.next (Nat.le_refl _)
  have allocates : Progress.Allocates [node.withProperties properties] before
      (Loops.degrade (node.withProperties properties)
        ⟨ancestors, hasSiblings, done, some node, rest⟩ before problem).progress :=
    ⟨rfl, rfl, rfl, fun _ => ⟨rfl, rfl, rfl, rfl, fun _ => rfl⟩⟩
  obtain ⟨after, rfl, passes, noted⟩ := @enterAll_new around _ _ _ _ rfl rfl blank.dependencies
    blank.mark (fun pass _ => blank.entered pass) enters
  refine .leaf rfl rfl (.single (.allocate ready allocates passes.quiet rfl ?_ ?_ ?_ ?_)
    passes.quiet.scope passes.quiet.frames (.inr ⟨rfl, .comment noted (passes.comment _ rfl)⟩)
    fun isText => nomatch isText)
  · intro number
    change 0 + Node.tally number rest + _ = _
    rw [Node.tally_withProperties, Node.tally_cons number node rest]
    omega
  · exact fun _ member => List.mem_cons_of_mem _ member
  · exact fun _ => Nat.le_refl _
  · exact fun _ => rfl

theorem Outcome.wrap {done : List Node} {entered : Entered} {expression : LoopExpression}
    {span : Span} {properties : Properties} (ready : before.Ready around ancestors 3 (node :: rest))
    (once : properties.hasDirective "once" = node.properties.hasDirective "once")
    (element : node.isElement = true)
    (enters : enterAll 3
      (Loops.wrap 2 (node.withProperties properties)
        ⟨ancestors, hasSiblings, done, some node, rest⟩ before expression span).site
      (Loops.wrap 2 (node.withProperties properties)
        ⟨ancestors, hasSiblings, done, some node, rest⟩ before expression span).progress
      [Memo.pass, Elements.pass, TextRun.pass] = .ok entered) :
    Outcome around ancestors hasSiblings (node :: rest) before []
      { entered with exits := entered.exits ++ [(2, Loops.pass)] } := by
  have blank := ready.fresh before.next (Nat.le_refl _)
  have allocates : Progress.Allocates [] before
      (Loops.wrap 2 (node.withProperties properties)
        ⟨ancestors, hasSiblings, done, some node, rest⟩ before expression span).progress :=
    ⟨rfl, (List.append_nil _).symm, rfl, fun _ => ⟨rfl, rfl, rfl, rfl, fun _ => rfl⟩⟩
  obtain ⟨after, rfl, passes, noted⟩ := @enterAll_new around _ _ _ _ rfl rfl blank.dependencies
    blank.mark (fun pass _ => blank.entered pass) enters
  have kept (number : NodeId) (present : 0 < Node.tally number (node :: rest)) :
      before.Agrees number after :=
    allocates.keeps passes.quiet ready present
  have first : 0 < Node.tally node.id (node :: rest) := Node.tally_pos_of_mem List.mem_cons_self
  have moves : Moves hasSiblings (node :: rest) before
      [{ id := before.next
         content := .loop ⟨⟨{ raw := expression.source }, span⟩, expression.value, expression.key,
           expression.index⟩
         span := (node.withProperties properties).span
         children := [node.withProperties properties] }] rest after := by
    refine .allocate ready allocates passes.quiet rfl ?_ ?_ ?_ ?_
    · intro number
      rw [Node.tally_withProperties, Node.tally_cons number node rest, Node.tally_nil]
      rfl
    · exact fun _ member => List.mem_cons_of_mem _ member
    · exact fun _ => Nat.le_refl _
    · exact fun _ => rfl
  refine .loop rfl rfl moves ?_ noted (ready.descend _ moves ?_ ?_ ?_ ?_ ?_ ?_) ?_
  · refine passes.quiet.frames.trans ?_
    have reader := (Prod.mk.inj ready.setting).1
    have source := @Surroundings.resolveValue_congr
      (before.surroundings ⟨ancestors, hasSiblings, done, some node, rest⟩) around reader ready.scope
    simp only [Loops.wrap, ← source, ← reader]
    rfl
  · intro child member
    cases List.mem_singleton.1 member
    exact (ready.parsed node List.mem_cons_self).withProperties properties
  · intro number present different
    have different : number ≠ node.id := by
      intro same
      subst same
      exact different (congrArg some (Node.withProperties_id node properties))
    rw [Node.tally_withProperties] at present
    have present : 0 < Node.tally number (node :: rest) := by
      rw [Node.tally_cons]
      omega
    exact (ready.blank_rest present different).agrees (kept number present)
  · intro child given
    cases given
    refine (ready.begun node rfl).agrees (kept node.id first) (Node.withProperties_id _ _) ?_ rfl
    rw [Node.properties_withProperties element, once]
  · rw [passes.quiet.scope, Surroundings.within, ← ready.scope, ← (Prod.mk.inj ready.setting).1]
    rfl
  · rfl
  · have new : after.onceNodes.contains before.next = false := by
      rw [passes.onceNodes]
      exact blank.once
    exact (congrArg (· || around.inOnce) new).trans (Bool.false_or _)
  · rw [Node.isElement_withProperties, element]

theorem ok_of_map_eq_ok {ε α β : Type} {result : Except ε α} {change : α → β} {value : β}
    (done : result.map change = .ok value) : ∃ first, result = .ok first ∧ change first = value := by
  cases result with
  | error fault => cases done
  | ok first => exact ⟨first, rfl, Except.ok.inj done⟩

theorem enterAll_second {done : List Node} {entered : Entered}
    (ready : before.Ready around ancestors 2 (node :: rest))
    (enters : enterAll 2 ⟨ancestors, hasSiblings, done, some node, rest⟩ before
      [Loops.pass, Memo.pass, Elements.pass, TextRun.pass] = .ok entered) :
    Outcome around ancestors hasSiblings (node :: rest) before [] entered := by
  have begun := ready.begun node rfl
  have quiet := before.quiet_markEntered 2 node.id
  have next := ready.step quiet (begun.mark_entered (by decide))
  have silent := (next.begun node rfl).silent
  rw [enterAll_cons rfl (by rw [begun.entered]; rfl) rfl] at enters
  obtain ⟨later, others, rfl⟩ := ok_of_map_eq_ok enters
  rcases Loops.enter_cases 2 node ⟨ancestors, hasSiblings, done, some node, rest⟩
    (before.markEntered 2 node.id) with same | ⟨properties, problem, same⟩ |
    ⟨properties, expression, span, same, once, element⟩
  · rw [same] at others ⊢
    exact (enterAll_third next others).after_quiet quiet silent ready
  · rw [same] at others ⊢
    exact (Outcome.degrade next others).after_quiet quiet silent ready
  · rw [same] at others ⊢
    exact (Outcome.wrap next once element others).after_quiet quiet silent ready

/-- What lowering gives is made of a walk on which no slice was out of range. -/
theorem walk_of_lowerWith {passes : List Pass} {option : LowerOption} {template : Template}
    {lowered : Lowered} (lowers : lowerWith passes option template = .ok lowered) :
    ∃ roots progress, walk passes template.roots (option.start template) = .ok (roots, progress) ∧
      progress.fault? = none ∧
      { plan := (if option.hoistStatic then (planOf template roots progress).hoist
          else planOf template roots progress).injectCache
        problems := progress.problems
        journal := progress.journal } = lowered := by
  unfold lowerWith at lowers
  cases walked : walk passes template.roots (option.start template) with
  | error fault =>
    rw [walked] at lowers
    cases lowers
  | ok done =>
    rw [walked] at lowers
    simp only [Except.bind] at lowers
    split at lowers
    · cases lowers
    · next sound => exact ⟨done.1, done.2, rfl, sound, Except.ok.inj lowers⟩

end TemplateCompiler
