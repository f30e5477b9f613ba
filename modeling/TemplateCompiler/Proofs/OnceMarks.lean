import TemplateCompiler.Proofs.GroupedSiblings

/-! Which nodes are marked as rendered once. The mark goes to an element with the directive, or to
the conditional or the loop that it ends up in; and no element with the directive is kept by its
dependencies. -/

namespace TemplateCompiler

/-- What holds of a place and of the state keeps to hold if each pass keeps it. -/
theorem enterAll_holds {holds : Site → Progress → Prop}
    (marks : ∀ {site progress} (pass : Nat) (id : NodeId), holds site progress →
      holds site (progress.markEntered pass id)) {passes : List Pass}
    (each : ∀ pass ∈ passes, ∀ {ordinal node site progress entrance}, site.focus = some node →
      holds site progress → pass.enter ordinal node site progress = .ok entrance →
      holds entrance.site entrance.progress)
    {ordinal : Nat} {site : Site} {progress : Progress} {entered : Entered}
    (start : holds site progress) (enters : enterAll ordinal site progress passes = .ok entered) :
    holds entered.site entered.progress := by
  induction passes generalizing ordinal site progress entered with
  | nil =>
    cases enters
    exact start
  | cons pass rest ih =>
    obtain ⟨own, others⟩ := List.forall_mem_cons.mp each
    simp only [enterAll] at enters
    split at enters
    · cases enters
      exact start
    · next node focused =>
      split at enters
      · exact ih others start enters
      · split at enters
        · cases enters
        · next entrance succeeded =>
          have kept := own focused (marks ordinal node.id start) succeeded
          obtain ⟨final, later, rfl⟩ := ok_of_map_eq_ok enters
          have last := ih others kept later
          split <;> exact last

/-- The node in focus has no mark, or is an element that is kept by its dependencies and not to be
rendered once; and nothing is known of new numbers. -/
structure Markable (site : Site) (progress : Progress) : Prop where
  given : ∀ node ∈ site.focus, node.id < progress.next
  apart : ∀ node ∈ site.focus, progress.marks.get? node.id ≠ some .once
  memo : ∀ node ∈ site.focus, progress.marks.get? node.id = some .memo →
    node.isElement = true ∧ node.properties.hasDirective "once" = false
  fresh : ∀ number : Nat, number ≥ progress.next → progress.marks.get? number = none

/-- An element in focus that is to be rendered once counts as such. -/
def Registered (site : Site) (progress : Progress) : Prop :=
  ∀ node ∈ site.focus, node.properties.hasDirective "once" = true → progress.inOnce site = true

theorem Progress.inOnce_congr {progress : Progress} {site other : Site} {node current : Node}
    (focused : site.focus = some node) (same : other.focus = some current)
    (number : current.id = node.id) (ancestors : other.ancestors = site.ancestors) :
    progress.inOnce other = progress.inOnce site := by
  rw [progress.inOnce_eq focused, progress.inOnce_eq same, number, ancestors]

theorem Node.hasDirective_of_other {node : Node} (other : node.isElement = false) (name : String) :
    node.properties.hasDirective name = false := by
  cases present : node.properties.hasDirective name with
  | false => rfl
  | true => exact absurd (isElement_of_hasDirective present) (by rw [other]; decide)

theorem Node.hasDirective_without {node : Node} {name other : String} (different : other ≠ name) :
    (node.without name).properties.hasDirective other = node.properties.hasDirective other := by
  cases element : node.isElement with
  | true =>
    rw [without, properties_withProperties element]
    exact node.properties.hasDirective_takeDirective different
  | false => rw [without_of_other element]

variable {site : Site} {node : Node} {progress : Progress}

theorem NodeMap.get?_insertNew_cases {α : Type} (map : NodeMap α) (id other : NodeId) (value : α) :
    (map.insertNew id value).get? other = map.get? other ∨
      other = id ∧ (map.insertNew id value).get? other = some value := by
  unfold insertNew
  split
  · exact .inl rfl
  · rw [get?_insert]
    split
    · next same => exact .inr ⟨same, rfl⟩
    · exact .inl rfl

namespace Markable

variable {after : Progress} {other : Site} {current : Node} (markable : Markable site progress)

include markable

theorem new (focused : other.focus = some current) (kind : current.isElement = false)
    (number : current.id = progress.next) (marks : after.marks = progress.marks)
    (next : after.next = progress.next + 1) : Markable other after ∧ Registered other after := by
  have unmarked := markable.fresh current.id (Nat.le_of_eq number.symm)
  refine ⟨⟨?_, ?_, ?_, fun number new => ?_⟩, ?_⟩
  · intro node same
    cases focused.symm.trans same
    rw [number, next]
    exact Nat.lt_succ_self _
  · intro node same
    cases focused.symm.trans same
    rw [marks, unmarked]
    exact nofun
  · intro node same
    cases focused.symm.trans same
    rw [marks, unmarked]
    exact nofun
  · rw [marks]
    rw [next] at new
    exact markable.fresh number (Nat.le_of_succ_le new)
  · intro node same directed
    cases focused.symm.trans same
    rw [Node.hasDirective_of_other kind] at directed
    cases directed

theorem gone (unfocused : other.focus = none) (marks : after.marks = progress.marks)
    (next : after.next = progress.next) : Markable other after ∧ Registered other after := by
  refine ⟨⟨?_, ?_, ?_, by rw [marks, next]; exact markable.fresh⟩, ?_⟩
  all_goals
    intro node same
    cases unfocused.symm.trans same

/-- An element may lose a directive, and may be kept by its dependencies unless it is in what is
rendered once. -/
theorem without {name : String} (focused : site.focus = some node) (different : "once" ≠ name)
    (registered : Registered site progress) (next : after.next = progress.next)
    (onceNodes : after.onceNodes = progress.onceNodes)
    (marks : after.marks = progress.marks ∨ node.isElement = true ∧ progress.inOnce site = false ∧
      after.marks = progress.marks.insertNew node.id .memo) :
    Markable (site.replace (node.without name)) after ∧
      Registered (site.replace (node.without name)) after := by
  have number : (node.without name).id = node.id := node.withProperties_id _
  have kind : (node.without name).isElement = node.isElement := node.isElement_withProperties _
  have once : (node.without name).properties.hasDirective "once" =
      node.properties.hasDirective "once" := Node.hasDirective_without different
  have old := markable.given node focused
  have cases (id : NodeId) : after.marks.get? id = progress.marks.get? id ∨
      id = node.id ∧ after.marks.get? id = some .memo ∧ node.isElement = true ∧
        node.properties.hasDirective "once" = false := by
    rcases marks with marks | ⟨element, outside, marks⟩
    · exact .inl (by rw [marks])
    · rw [marks]
      rcases progress.marks.get?_insertNew_cases node.id id .memo with same | ⟨same, found⟩
      · exact .inl same
      · refine .inr ⟨same, found, element, ?_⟩
        cases directed : node.properties.hasDirective "once" with
        | false => rfl
        | true => exact absurd (registered node focused directed) (by rw [outside]; decide)
  refine ⟨⟨?_, ?_, ?_, fun id new => ?_⟩, ?_⟩
  · rintro _ ⟨⟩
    rw [number, next]
    exact old
  · rintro _ ⟨⟩
    rw [number]
    rcases cases node.id with same | ⟨-, found, -⟩
    · rw [same]
      exact markable.apart node focused
    · rw [found]
      exact nofun
  · rintro _ ⟨⟩ marked
    rw [number] at marked
    rw [kind, once]
    rcases cases node.id with same | ⟨-, -, element, plain⟩
    · exact markable.memo node focused (same.symm.trans marked)
    · exact ⟨element, plain⟩
  · rw [next] at new
    rcases cases id with same | ⟨same, -⟩
    · rw [same]
      exact markable.fresh id new
    · rw [same] at new
      exact absurd old (Nat.not_lt.mpr new)
  · rintro _ ⟨⟩ directed
    have inside := registered node focused (once.symm.trans directed)
    have same := after.inOnce_congr focused (show (site.replace (node.without name)).focus = _ from
      rfl) number rfl
    rw [same]
    simpa only [Progress.inOnce, onceNodes] using inside

theorem same (registered : Registered site progress) (marks : after.marks = progress.marks)
    (next : after.next = progress.next) (onceNodes : after.onceNodes = progress.onceNodes) :
    Markable site after ∧ Registered site after := by
  refine ⟨⟨?_, ?_, ?_, ?_⟩, fun node focused directed => ?_⟩
  · rw [next]
    exact markable.given
  · rw [marks]
    exact markable.apart
  · rw [marks]
    exact markable.memo
  · rw [marks, next]
    exact markable.fresh
  · simpa only [Progress.inOnce, onceNodes] using registered node focused directed

end Markable

/-- The pass keeps the marks fit, once the elements that are rendered once are known. -/
def Pass.Marks (pass : Pass) : Prop :=
  ∀ {ordinal node site progress entrance}, site.focus = some node → Markable site progress →
    Registered site progress → pass.enter ordinal node site progress = .ok entrance →
    Markable entrance.site entrance.progress ∧ Registered entrance.site entrance.progress

theorem Memo.marks : Memo.pass.Marks := by
  rintro ordinal node site progress entrance focused markable registered ⟨⟩
  have kept {after : Progress} := @Markable.without site node progress after markable "memo" focused
    (by decide) registered
  simp only [enter]
  split
  · exact ⟨markable, registered⟩
  · next directive found =>
    have element : node.isElement = true := by
      refine @Node.isElement_of_hasDirective node "memo" ?_
      rw [Properties.hasDirective,
        show node.properties.findDirective? (· == "memo") = some directive from found]
      rfl
    split
    · exact kept rfl rfl (.inl rfl)
    · exact kept rfl rfl (.inl rfl)
    · split
      · exact kept rfl rfl (.inl rfl)
      · next outside =>
        refine kept rfl rfl (.inr ⟨element, Bool.not_eq_true _ ▸ outside, ?_⟩)
        simp only [keep, Node.withProperties_id]

theorem Loops.marks : Loops.pass.Marks := by
  rintro ordinal node site progress entrance focused markable registered ⟨⟩
  rcases Loops.enter_cases ordinal node site progress with same | ⟨properties, problem, same⟩ |
    ⟨properties, expression, span, same, -⟩
  · rw [same]
    exact ⟨markable, registered⟩
  · rw [same]
    exact markable.new rfl rfl rfl rfl rfl
  · rw [same]
    exact markable.new rfl rfl rfl rfl rfl

theorem Elements.marks : Elements.pass.Marks := by
  rintro ordinal node site progress entrance focused markable registered ⟨⟩
  simp only [enter]
  split
  · exact markable.same registered rfl rfl rfl
  · exact ⟨markable, registered⟩
  · exact ⟨markable, registered⟩

theorem TextRun.marks : TextRun.pass.Marks := by
  rintro ordinal node site progress entrance focused markable registered ⟨⟩
  exact ⟨markable, registered⟩

theorem Conditional.marks : Conditional.pass.Marks := by
  intro ordinal node site progress entrance focused markable registered enters
  change enter node site progress = .ok entrance at enters
  simp only [enter] at enters
  split at enters
  · split at enters
    · cases enters
    · cases enters
      exact markable.new rfl rfl rfl rfl rfl
  · split at enters
    · cases enters
      exact ⟨markable, registered⟩
    · split at enters
      · next several =>
        cases enters
        refine markable.gone ?_ rfl rfl
        rw [Site.remove, if_pos several]
      · cases enters
        exact markable.same registered rfl rfl rfl

theorem enterAll_marks {passes : List Pass} (keeps : ∀ pass ∈ passes, pass.Marks) {ordinal : Nat}
    {entered : Entered} (markable : Markable site progress) (registered : Registered site progress)
    (enters : enterAll ordinal site progress passes = .ok entered) :
    Markable entered.site entered.progress :=
  (@enterAll_holds (fun site progress => Markable site progress ∧ Registered site progress)
    (fun _ _ holds => holds.1.same holds.2 rfl rfl rfl) passes
    (fun pass member _ _ _ _ _ focused holds => keeps pass member focused holds.1 holds.2) ordinal
    site progress entered ⟨markable, registered⟩ enters).1

section Stages

variable {around : Surroundings} {ancestors : List NodeId} {hasSiblings : Bool} {stage : Nat}
  {done rest todo : List Node} {current : Node} {entered : Entered} {before : Progress}

theorem Progress.Ready.markable (ready : before.Ready around ancestors stage (node :: rest)) :
    Markable ⟨ancestors, hasSiblings, done, some node, rest⟩ before := by
  have begun := ready.begun node rfl
  refine ⟨?_, ?_, ?_, fun number new => (ready.fresh number new).mark⟩
  · rintro _ ⟨⟩
    exact ready.given node.id (Node.tally_pos_of_mem List.mem_cons_self)
  · rintro _ ⟨⟩
    rw [begun.mark]
    exact nofun
  · rintro _ ⟨⟩
    rw [begun.mark]
    exact nofun

theorem Progress.Ready.registered (ready : before.Ready around ancestors stage (node :: rest))
    (late : 0 < stage) : Registered ⟨ancestors, hasSiblings, done, some node, rest⟩ before := by
  rintro _ ⟨⟩ directed
  rw [before.inOnce_eq rfl]
  exact (congrArg _ ready.inOnce).trans
    ((ready.begun node rfl).once.trans (by rw [directed, decide_eq_true late]; rfl))

/-- Once a node has been entered, what is in focus has no mark, or is an element that is kept by its
dependencies and not to be rendered once. -/
theorem enterAll_markable (ready : before.Ready around ancestors stage (node :: rest))
    (staged : stage = 0 ∨ stage = 2 ∨ stage = 3)
    (enters : enterAll 0 ⟨ancestors, hasSiblings, done, some node, rest⟩ before defaultPasses =
      .ok entered) : Markable entered.site entered.progress := by
  have begun := ready.begun node rfl
  have others : ∀ pass ∈ [Conditional.pass, Loops.pass, Memo.pass, Elements.pass, TextRun.pass],
      pass.Marks := by
    simp only [List.forall_mem_cons]
    exact ⟨Conditional.marks, Loops.marks, Memo.marks, Elements.marks, TextRun.marks,
      List.forall_mem_nil _⟩
  rcases staged with rfl | late
  · have next := Once.ready_enter done hasSiblings ready
    rw [defaultPasses, enterAll_cons rfl (by rw [begun.entered]; rfl) rfl] at enters
    obtain ⟨later, entering, rfl⟩ := ok_of_map_eq_ok enters
    rw [Once.site_enter] at entering
    have last := enterAll_marks others next.markable (next.registered (by decide)) entering
    split <;> exact last
  · have first : before.hasEntered 0 node.id = true := by
      rw [begun.entered]
      rcases late with rfl | rfl <;> rfl
    rw [defaultPasses, enterAll_skip rfl first] at enters
    exact enterAll_marks others ready.markable
      (ready.registered (by rcases late with rfl | rfl <;> decide)) enters

theorem enterAll_exits_ordinal {passes : List Pass} {ordinal : Nat}
    (enters : enterAll ordinal site progress passes = .ok entered) :
    ∀ exit ∈ entered.exits, ordinal ≤ exit.1 := by
  induction passes generalizing ordinal site progress entered with
  | nil =>
    cases enters
    exact List.forall_mem_nil _
  | cons pass others ih =>
    simp only [enterAll] at enters
    split at enters
    · cases enters
      exact List.forall_mem_nil _
    · split at enters
      · exact fun exit member => Nat.le_of_succ_le (ih enters exit member)
      · split at enters
        · cases enters
        · obtain ⟨final, later, rfl⟩ := ok_of_map_eq_ok enters
          have behind : ∀ exit ∈ final.exits, ordinal ≤ exit.1 :=
            fun exit member => Nat.le_of_succ_le (ih later exit member)
          split
          · exact List.forall_mem_append.mpr
              ⟨behind, List.forall_mem_singleton.mpr (Nat.le_refl _)⟩
          · exact behind

/-- Only an element with the directive, entered for the first time, is left to be marked. -/
theorem directed_of_exit (ready : before.Ready around ancestors stage (node :: rest))
    (staged : stage = 0 ∨ stage = 2 ∨ stage = 3)
    (enters : enterAll 0 ⟨ancestors, hasSiblings, done, some node, rest⟩ before defaultPasses =
      .ok entered)
    {exit : Nat × Pass} (member : exit ∈ entered.exits) (first : exit.1 = 0) :
    stage = 0 ∧ node.properties.hasDirective "once" = true := by
  have begun := ready.begun node rfl
  rcases staged with rfl | late
  · refine ⟨rfl, ?_⟩
    rw [defaultPasses, enterAll_cons rfl (by rw [begun.entered]; rfl) rfl] at enters
    obtain ⟨later, others, rfl⟩ := ok_of_map_eq_ok enters
    have behind := enterAll_exits_ordinal others
    have marks : (Once.enter node ⟨ancestors, hasSiblings, done, some node, rest⟩
        (before.markEntered 0 node.id)).exits = true := by
      by_contra unmarked
      rw [if_neg unmarked] at member
      have := behind exit member
      omega
    rw [Once.exits_enter done hasSiblings ready] at marks
    exact (Bool.and_eq_true_iff.mp marks).1
  · have earlier : before.hasEntered 0 node.id = true := by
      rw [begun.entered]
      rcases late with rfl | rfl <;> rfl
    rw [defaultPasses, enterAll_skip rfl earlier] at enters
    have := enterAll_exits_ordinal enters exit member
    omega

/-- Of the passes that leave a node only the one for nodes that are rendered once makes marks. -/
theorem marks_exit : ∀ pass ∈ [Conditional.pass, Loops.pass, Elements.pass, TextRun.pass],
    ∀ ordinal node site progress, (pass.exit ordinal node site progress).2.marks = progress.marks := by
  simp only [List.forall_mem_cons]
  refine ⟨?_, ?_, ?_, ?_, List.forall_mem_nil _⟩
  · intro ordinal node site progress
    change (Conditional.exit node site progress).marks = progress.marks
    simp only [Conditional.exit]
    split
    · next branches _ =>
      have keyed := (Conditional.writes_keyAll (branches.zip node.children) progress).marks
      split <;> exact keyed
    · rfl
  · intro ordinal node site progress
    change (Loops.exit ordinal node progress).marks = progress.marks
    simp only [Loops.exit]
    split
    · rfl
    · split <;> rfl
  · intro ordinal node site progress
    change (Elements.exit node site progress).marks = progress.marks
    simp only [Elements.exit]
    split <;> rfl
  · intro ordinal node site progress
    change (TextRun.exit node site progress).2.marks = progress.marks
    simp only [TextRun.exit]
    split
    · exact (TextRun.writes_foldl progress _).marks
    · rfl

theorem marks_exitAll {exits : List (Nat × Pass)}
    (silent : ∀ exit ∈ exits, exit.2 ∈ [Conditional.pass, Loops.pass, Elements.pass, TextRun.pass])
    (node : Node) (site : Site) (progress : Progress) :
    (exitAll node site progress exits).2.marks = progress.marks := by
  induction exits generalizing node progress with
  | nil => rfl
  | cons exit rest ih =>
    obtain ⟨own, others⟩ := List.forall_mem_cons.mp silent
    exact (ih others _ _).trans (marks_exit exit.2 own ..)

variable {once : List (Nat × Pass)} {below : Visited}

/-- The state when the node is left. -/
def progressOf (current : Node) (entered : Entered) (below : Visited) : Progress :=
  (exitAll { current with children := below.nodes } entered.site below.progress entered.exits).2

/-- Leaving a node marks at most the node itself, if that is among the exits. -/
theorem Outcome.marks_left (outcome : Outcome around ancestors hasSiblings todo before once entered)
    (exits : OnceExits around once) (focused : entered.site.focus = some current)
    (known : ∀ exit ∈ entered.exits, exit.2 ∈ defaultPasses) :
    (progressOf current entered below).marks = below.progress.marks ∨
      (0, Once.pass) ∈ entered.exits ∧ (progressOf current entered below).marks =
        below.progress.marks.insert current.id .once := by
  have parts : ∃ inner, entered.exits = inner ++ once ∧ ∀ exit ∈ inner,
      exit.2 ∈ [Conditional.pass, Loops.pass, Elements.pass, TextRun.pass] := by
    cases outcome with
    | gone unfocused => cases unfocused.symm.trans focused
    | leaf => exact ⟨[], rfl, List.forall_mem_nil _⟩
    | element => exact ⟨elementExits, rfl, by simp [elementExits]⟩
    | conditional => exact ⟨[(1, Conditional.pass)], rfl, by simp⟩
    | loop => exact ⟨[(2, Loops.pass)], rfl, by simp⟩
  obtain ⟨inner, same, silent⟩ := parts
  have trims : ∀ exit ∈ inner, exit.2.Trims := fun exit member =>
    defaultPasses_trims _ (known exit (same ▸ List.mem_append_left once member))
  have number := (exitAll_trims trims { current with children := below.nodes } entered.site
    below.progress).1
  have kept := marks_exitAll silent { current with children := below.nodes } entered.site
    below.progress
  rw [progressOf, same, exitAll_append]
  rcases exits with rfl | ⟨rfl, -⟩
  · exact .inl kept
  · refine .inr ⟨List.mem_append_right inner (List.mem_singleton_self _), ?_⟩
    change NodeMap.insert _ _ _ = _
    rw [number, kept]

end Stages

inductive Node.RepeatsOnce : Node → Prop
  | element {node : Node} (directed : node.properties.hasDirective "once" = true) : RepeatsOnce node
  | placeholder {node : Node} (isComment : node.isComment = true) : RepeatsOnce node
  | loop {id : NodeId} {loop : Loop} {span : Span} {child : Node}
      (directed : child.properties.hasDirective "once" = true) :
      RepeatsOnce ⟨id, .loop loop, span, [child]⟩

inductive Node.CarriesOnce : Node → Prop
  | alone {node : Node} (repeats : node.RepeatsOnce) : CarriesOnce node
  | branch {id : NodeId} {branches : List Branch} {span : Span} {first : Node} {others : List Node}
      (repeats : first.RepeatsOnce) : CarriesOnce ⟨id, .conditional branches, span, first :: others⟩

theorem Stays.directed {given made : Node} {reports : List Problem} (stays : Stays given made reports)
    (directed : given.properties.hasDirective "once" = true) :
    made.properties.hasDirective "once" = true := by
  cases stays with
  | leaf => exact directed
  | element =>
    have kept : (given.without "memo").properties.hasDirective "once" =
        given.properties.hasDirective "once" := Node.hasDirective_without (by decide)
    exact kept.trans directed

theorem Becomes.repeatsOnce {given made : Node} {reports : List Problem}
    (becomes : Becomes given made reports)
    (directed : given.properties.hasDirective "once" = true) : made.RepeatsOnce := by
  cases becomes with
  | stays _ stays => exact .element (stays.directed directed)
  | loop _ stays =>
    refine .loop (stays.directed ?_)
    rwa [Node.hasDirective_without (by decide)]
  | placeholder => exact .placeholder rfl

section Walks

variable {around : Surroundings} {ancestors : List NodeId} {hasSiblings : Bool} {stage : Nat}
  {done rest todo : List Node} {current : Node} {entered : Entered} {before : Progress}
  {below : Visited}

theorem Deeper.of_walked (walked : visitAll defaultPasses (current.id :: ancestors)
    current.isElement [] current.children entered.progress = .ok below) :
    Deeper ancestors current entered below := by
  constructor
  · intro leaf
    rw [leaf, visitAll] at walked
    exact (Except.ok.inj walked).symm
  · intro within depth staged inner
    obtain ⟨out, reports, same, strays, rewrites⟩ := visitAll_rewrites inner staged walked
    rw [List.reverse_nil, List.nil_append] at same
    exact ⟨reports, strays, same ▸ rewrites⟩

theorem carriesOnce_left (ready : before.Ready around ancestors 0 (node :: rest))
    (enters : enterAll 0 ⟨ancestors, hasSiblings, done, some node, rest⟩ before defaultPasses =
      .ok entered)
    (focused : entered.site.focus = some current)
    (walked : visitAll defaultPasses (current.id :: ancestors) current.isElement [] current.children
      entered.progress = .ok below)
    (directed : node.properties.hasDirective "once" = true) :
    (leftOf current entered below).CarriesOnce := by
  obtain ⟨once, -, outcome⟩ := enterAll_outcome ready (.inl rfl) enters
  have known : ∀ exit ∈ entered.exits, exit.2 ∈ defaultPasses := enterAll_exits enters
  have deeper := Deeper.of_walked walked
  cases enterAll_zeroth_shape ready enters with
  | stray _ _ _ _ site => cases (congrArg Site.focus site).symm.trans focused
  | stays _ _ opens site exits =>
    cases (congrArg Site.focus site).symm.trans focused
    obtain ⟨own, -, becomes⟩ := outcome.becomes_left focused known deeper opens
      (ready.parsed node List.mem_cons_self) exits
    exact .alone (becomes.repeatsOnce directed)
  | chain _ _ site =>
    have same := (Option.some.inj ((congrArg Site.focus site).symm.trans focused)).symm
    obtain ⟨own, inner, first, made, -, becomes, -, left⟩ :=
      outcome.branches_left focused known deeper same
    rw [left, same, Conditional.grouped_eq]
    refine .branch (becomes.repeatsOnce ?_)
    rwa [Node.hasDirective_without (by decide)]

/-- What the marks say of a node. -/
structure OnceNoted (progress : Progress) (node : Node) : Prop where
  once : progress.marks.get? node.id = some .once → node.CarriesOnce
  memo : progress.marks.get? node.id = some .memo →
    node.isElement = true ∧ node.properties.hasDirective "once" = false
  /-- The mark is not on a branch or on what is repeated. -/
  first : node.isElement = false → ∀ child ∈ node.children.head?,
    progress.marks.get? child.id ≠ some .once

def OnceMarked (progress : Progress) (nodes : List Node) : Prop :=
  ∀ node ∈ Node.flattenAll nodes, OnceNoted progress node

theorem OnceMarked.nil (progress : Progress) : OnceMarked progress [] :=
  List.forall_mem_nil _

theorem OnceMarked.congr {nodes : List Node} {after : Progress} (marked : OnceMarked before nodes)
    (same : ∀ number, 0 < Node.tally number nodes →
      after.marks.get? number = before.marks.get? number) : OnceMarked after nodes := by
  intro node member
  have noted := marked node member
  have kept {other : Node} (inside : other ∈ Node.flattenAll nodes) :
      after.marks.get? other.id = before.marks.get? other.id :=
    same other.id (Node.tally_pos_iff.mpr ⟨other, inside, rfl⟩)
  refine ⟨by rw [kept member]; exact noted.once, by rw [kept member]; exact noted.memo,
    fun other child first => ?_⟩
  obtain ⟨above, lineage⟩ := Node.mem_flattenAll_iff.mp member
  have inside := Node.mem_flattenAll_iff.mpr ⟨_, lineage.child (List.mem_of_mem_head? first)⟩
  rw [kept inside]
  exact noted.first other child first

theorem OnceMarked.cons {nodes : List Node} (first : OnceMarked before [node])
    (others : OnceMarked before nodes) : OnceMarked before (node :: nodes) := by
  intro inner member
  rw [Node.flattenAll, List.mem_append] at member
  refine member.elim (fun inside => first inner ?_) (others inner)
  rwa [Node.flattenAll, Node.flattenAll, List.append_nil]

theorem OnceMarked.subset {few many : List Node} (marked : OnceMarked before many)
    (fewer : few ⊆ many) : OnceMarked before few := by
  intro node member
  obtain ⟨outer, listed, inside⟩ := Node.exists_of_mem_flattenAll member
  exact marked node (Node.flatten_subset_flattenAll (fewer listed) node inside)

structure BelowMarked (current : Node) (below : Visited) : Prop where
  marked : OnceMarked below.progress below.nodes
  first : current.isElement = false → ∀ child ∈ below.nodes.head?,
    below.progress.marks.get? child.id ≠ some .once

section Left

variable (ready : before.Ready around ancestors stage (node :: rest))
  (staged : stage = 0 ∨ stage = 2 ∨ stage = 3)
  (enters : enterAll 0 ⟨ancestors, hasSiblings, done, some node, rest⟩ before defaultPasses =
    .ok entered)
  (focused : entered.site.focus = some current)
  (walked : visitAll defaultPasses (current.id :: ancestors) current.isElement [] current.children
    entered.progress = .ok below)

include enters in
theorem leftOf_trims (current : Node) (below : Visited) :
    (leftOf current entered below).id = current.id ∧
      (leftOf current entered below).content = current.content ∧
      (leftOf current entered below).children ⊆ below.nodes :=
  exitAll_trims (fun exit member => defaultPasses_trims _ (enterAll_exits enters exit member)) _ _ _

include ready staged enters focused walked

theorem mark_left : (progressOf current entered below).marks.get? current.id =
      entered.progress.marks.get? current.id ∨
    (stage = 0 ∧ node.properties.hasDirective "once" = true) ∧
      (progressOf current entered below).marks.get? current.id = some .once := by
  obtain ⟨once, exits, outcome⟩ := enterAll_outcome ready staged enters
  have kept : below.progress.marks.get? current.id = entered.progress.marks.get? current.id := by
    refine outcome.mark_below focused (Deeper.of_walked walked).bare
      fun within depth staged inner => ?_
    obtain ⟨out, same, visits, -⟩ := visitAll_visits inner staged walked
    rw [List.reverse_nil, List.nil_append] at same
    rwa [same]
  rcases outcome.marks_left exits focused (enterAll_exits enters) with same | ⟨member, same⟩
  · exact .inl (by rw [same, kept])
  · refine .inr ⟨directed_of_exit ready staged enters member rfl, ?_⟩
    rw [same, NodeMap.get?_insert, if_pos rfl]

theorem mark_left_below {other : NodeId}
    (inside : 0 < Node.tally other (leftOf current entered below).children) :
    (progressOf current entered below).marks.get? other = below.progress.marks.get? other := by
  obtain ⟨once, exits, outcome⟩ := enterAll_outcome ready staged enters
  have visits : Visits around hasSiblings (node :: rest) before [leftOf current entered below]
      entered.site.after (progressOf current entered below) :=
    visits_left ready staged enters focused walked
  have different : other ≠ current.id := by
    rintro rfl
    have owned := (visits.owned ready current.id).1
    rw [Node.tally_singleton, (leftOf_trims enters current below).1, List.count_singleton_self] at owned
    omega
  rcases outcome.marks_left exits focused (enterAll_exits enters) with same | ⟨-, same⟩
  · rw [same]
  · rw [same, NodeMap.get?_insert, if_neg different]

/-- What the marks say of a node is right when the node is left. -/
theorem onceNoted_left (deeper : BelowMarked current below) :
    OnceNoted (progressOf current entered below) (leftOf current entered below) := by
  have markable := enterAll_markable ready staged enters
  have own := mark_left ready staged enters focused walked
  obtain ⟨number, content, -⟩ := leftOf_trims enters current below
  have kind : (leftOf current entered below).isElement = current.isElement := by
    simp only [Node.isElement, Node.element?, content]
  have properties : (leftOf current entered below).properties = current.properties := by
    simp only [Node.properties, Node.element?, content]
  refine ⟨fun marked => ?_, fun marked => ?_, fun other child first => ?_⟩
  · rw [number] at marked
    rcases own with same | ⟨⟨rfl, directed⟩, -⟩
    · exact absurd (same.symm.trans marked) (markable.apart current focused)
    · exact carriesOnce_left ready enters focused walked directed
  · rw [number] at marked
    rw [kind, properties]
    rcases own with same | ⟨-, found⟩
    · exact markable.memo current focused (same.symm.trans marked)
    · cases marked.symm.trans found
  · rw [kind] at other
    have inside := Node.tally_pos_of_mem (List.mem_of_mem_head? first)
    rw [mark_left_below ready staged enters focused walked inside]
    rw [leftOf_other (enterAll_exits enters) other] at first
    exact deeper.first other child first

/-- A node that was visited is marked right when it is left. -/
theorem onceMarked_left (deeper : BelowMarked current below) :
    OnceMarked (progressOf current entered below) [leftOf current entered below] ∧
      (stage ≠ 0 → (progressOf current entered below).marks.get? (leftOf current entered below).id ≠
        some .once) := by
  obtain ⟨number, -, fewer⟩ := leftOf_trims enters current below
  refine ⟨fun inner member => ?_, fun late marked => ?_⟩
  · rw [Node.flattenAll, Node.flattenAll, List.append_nil, Node.flatten_eq] at member
    rcases List.mem_cons.mp member with rfl | deep
    · exact onceNoted_left ready staged enters focused walked deeper
    · have children := (deeper.marked.subset fewer).congr fun other inside =>
        mark_left_below ready staged enters focused walked inside
      exact children inner deep
  · rw [number] at marked
    rcases mark_left ready staged enters focused walked with same | ⟨⟨early, -⟩, -⟩
    · exact absurd (same.symm.trans marked)
        ((enterAll_markable ready staged enters).apart current focused)
    · exact late early

end Left

/-- A walk over a list of nodes marks them right, and the first one not at all by itself if it was
taken into a conditional or a loop before. -/
theorem visitAll_onceMarked {visited : Visited} (ready : before.Ready around ancestors stage todo)
    (staged : stage = 0 ∨ stage = 2 ∨ stage = 3)
    (walked : visitAll defaultPasses ancestors hasSiblings done todo before = .ok visited) :
    ∃ out, visited.nodes = done.reverse ++ out ∧ OnceMarked visited.progress out ∧
      (stage ≠ 0 → ∀ made ∈ out.head?, visited.progress.marks.get? made.id ≠ some .once) := by
  fun_induction visitAll defaultPasses ancestors hasSiblings done todo before
    generalizing around stage visited with
  | case1 =>
    cases walked
    refine ⟨[], (List.append_nil _).symm, .nil _, ?_⟩
    rintro - _ ⟨⟩
  | case2 => cases walked
  | case3 ancestors hasSiblings done progress node rest entered enters unfocused ih =>
    obtain ⟨rfl, visits⟩ := visits_gone ready staged enters unfocused
    obtain ⟨out, same, marked, -⟩ := ih (visits.ready ready) (.inl rfl) walked
    exact ⟨out, same, marked, fun late => absurd rfl late⟩
  | case4 => cases walked
  | case5 ancestors hasSiblings done progress node rest entered enters current focused below
      walkedBelow left ihBelow =>
    rename_i ihRest
    obtain ⟨once, exits, outcome⟩ := enterAll_outcome ready staged enters
    have deeper : BelowMarked current below := by
      cases outcome with
      | gone unfocused => cases unfocused.symm.trans focused
      | leaf same bare =>
        cases same.symm.trans focused
        rw [(Deeper.of_walked walkedBelow).bare bare]
        refine ⟨.nil _, ?_⟩
        rintro - _ ⟨⟩
      | element same _ _ _ _ inner =>
        cases same.symm.trans focused
        obtain ⟨out, same, marked, -⟩ := ihBelow inner (.inl rfl) walkedBelow
        rw [List.reverse_nil, List.nil_append] at same
        refine ⟨same ▸ marked, fun other => ?_⟩
        cases other
      | conditional same _ _ _ _ inner =>
        cases same.symm.trans focused
        obtain ⟨out, same, marked, first⟩ := ihBelow inner (.inr (.inl rfl)) walkedBelow
        rw [List.reverse_nil, List.nil_append] at same
        exact ⟨same ▸ marked, fun _ => same ▸ first (by decide)⟩
      | loop same _ _ _ _ inner =>
        cases same.symm.trans focused
        obtain ⟨out, same, marked, first⟩ := ihBelow inner (.inr (.inr rfl)) walkedBelow
        rw [List.reverse_nil, List.nil_append] at same
        exact ⟨same ▸ marked, fun _ => same ▸ first (by decide)⟩
    have visits : Visits around hasSiblings (node :: rest) progress [left.1] entered.site.after
        left.2 := visits_left ready staged enters focused walkedBelow
    obtain ⟨own, unmarked⟩ := onceMarked_left ready staged enters focused walkedBelow deeper
    obtain ⟨out, same, marked, -⟩ := ihRest (visits.ready ready) (.inl rfl) walked
    -- Visiting what follows does not change the marks of the node and of what is below it.
    have kept (number : NodeId) (present : 0 < Node.tally number [left.1]) :
        visited.progress.marks.get? number = left.2.marks.get? number := by
      obtain ⟨_, _, later, -⟩ := visitAll_visits (visits.ready ready) (.inl rfl) walked
      exact (visits.agrees_front ready later.toMoves present).mark
    refine ⟨left.1 :: out, ?_, (own.congr kept).cons marked, fun late made first => ?_⟩
    · rw [same, List.reverse_cons, List.append_assoc]
      rfl
    · cases first
      rw [kept _ (Node.tally_self_pos _)]
      exact unmarked late

end Walks

end TemplateCompiler
