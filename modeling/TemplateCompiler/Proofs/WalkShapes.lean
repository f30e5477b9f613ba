import TemplateCompiler.Proofs.RegroupedSiblings
import TemplateCompiler.Proofs.StrayProblems
import TemplateCompiler.Proofs.WalkBalance

/-! What entering a node makes of its place, pass by pass, and what of it is reported as an
alternative that follows no condition. -/

namespace TemplateCompiler

namespace Progress

/-- The reported alternatives that follow no condition. -/
def strays (progress : Progress) : List Problem :=
  progress.problems.filter (·.kind = .elseWithoutIf)

theorem strays_report (progress : Progress) (problems : List Problem) :
    (progress.report problems).strays =
      progress.strays ++ problems.filter (·.kind = .elseWithoutIf) :=
  List.filter_append ..

theorem strays_report_others (progress : Progress) {problems : List Problem}
    (others : ∀ problem ∈ problems, problem.kind ≠ .elseWithoutIf) :
    (progress.report problems).strays = progress.strays := by
  rw [strays_report, List.filter_eq_nil_iff.mpr, List.append_nil]
  exact fun problem member => by simpa using others problem member

theorem strays_absorb {α : Type} (progress : Progress) {reported : Reported α}
    {reader : ScriptReader} (regular : reported.Regular reader) :
    (progress.absorb reported).strays = progress.strays :=
  progress.strays_report_others regular.other

end Progress

theorem Directive.ne_of_emptyProblem? {directive : Directive} {kind : ProblemKind}
    {problem : Problem} (found : directive.emptyProblem? kind = some problem)
    (other : kind ≠ .elseWithoutIf) : problem.kind ≠ .elseWithoutIf := by
  rwa [directive.kind_emptyProblem? found]

/-- A directive that is not there cannot be taken. -/
theorem Node.without_of_absent {node : Node} {name : String}
    (absent : node.properties.findDirective? (· == name) = none) : node.without name = node := by
  have unseen := Properties.findDirective?_isSome node.properties (· == name)
  rw [absent] at unseen
  have kept : (node.properties.takeDirective (· == name)).2 = node.properties :=
    List.eraseP_of_forall_not fun property member directs =>
      Bool.noConfusion (unseen.trans (List.any_eq_true.mpr ⟨property, member, directs⟩))
  rw [Node.without, kept, Node.withProperties_self]

namespace Memo

theorem strays_enter (node : Node) (site : Site) (progress : Progress) :
    (enter node site progress).progress.strays = progress.strays := by
  simp only [enter]
  split
  · rfl
  · split
    · next found =>
      exact progress.strays_report_others
        (List.forall_mem_singleton.mpr (Directive.ne_of_emptyProblem? found (by decide)))
    · rfl
    · split
      · rfl
      · exact progress.strays_absorb (Surroundings.regular_resolveValue ..)

/-- Nothing but the directive is taken from a node. -/
theorem site_enter {node : Node} {site : Site} (focused : site.focus = some node)
    (progress : Progress) : (enter node site progress).site = site.replace (node.without "memo") := by
  simp only [enter]
  split
  · next absent =>
    rw [Node.without_of_absent absent, Site.replace_self focused]
  · split
    · rfl
    · rfl
    · split <;> rfl

end Memo

namespace Loops

theorem strays_wrap (ordinal : Nat) (node : Node) (site : Site) (progress : Progress)
    (expression : LoopExpression) (span : Span) :
    (wrap ordinal node site progress expression span).progress.strays = progress.strays := by
  have unstray : ∀ problem ∈ (misplacedKey? node).toList.map fun place =>
      { kind := .forTemplateKey, span := place : Problem }, problem.kind ≠ .elseWithoutIf :=
    List.forall_mem_map.mpr fun _ _ => by simp
  refine (Progress.strays_absorb _ (regular_boundNames progress.reader _)).trans ?_
  refine (Progress.strays_absorb _ (Surroundings.regular_resolve ..)).trans ?_
  exact progress.strays_report_others unstray

theorem strays_enter (ordinal : Nat) (node : Node) (site : Site) (progress : Progress) :
    (enter ordinal node site progress).progress.strays = progress.strays := by
  have degraded {problem : Problem} (other : problem.kind ≠ .elseWithoutIf) (rest : Node) :
      (degrade rest site progress problem).progress.strays = progress.strays :=
    Progress.strays_report_others _ (List.forall_mem_singleton.mpr other)
  simp only [enter]
  split
  · rfl
  · split
    · next found => exact degraded (Directive.ne_of_emptyProblem? found (by decide)) _
    · rfl
    · split
      · exact strays_wrap ..
      · exact degraded (by simp) _

theorem strays_exit (ordinal : Nat) (node : Node) (progress : Progress) :
    (exit ordinal node progress).strays = progress.strays := by
  simp only [exit]
  split
  · rfl
  · split <;> rfl

end Loops

namespace Elements

theorem strays_enter (node : Node) (site : Site) (progress : Progress) :
    (enter node site progress).progress.strays = progress.strays := by
  simp only [enter]
  split <;> rfl

theorem strays_exit (node : Node) (site : Site) (progress : Progress) :
    (exit node site progress).strays = progress.strays := by
  simp only [exit]
  split
  · exact Progress.strays_absorb (addAssets _ progress) (regular_lowerElement ..)
  · rfl

theorem strays_exitRoot (roots : List Node) (progress : Progress) :
    (exitRoot roots progress).strays = progress.strays := by
  simp only [exitRoot]
  split <;> rfl

theorem site_enter (node : Node) (site : Site) (progress : Progress) :
    (enter node site progress).site = site := by
  simp only [enter]
  split <;> rfl

end Elements

namespace TextRun

theorem strays_merge (around : Surroundings) (takesText : Bool) (children : List Node)
    (progress : Progress) : (merge around takesText children progress).2.strays = progress.strays := by
  have written (fastPath : Bool) (found : List Run) :
      (found.foldl (write around fastPath) progress).strays = progress.strays := by
    induction found generalizing progress with
    | nil => rfl
    | cons run found ih =>
      rw [List.foldl_cons, ih, write]
      split
      · exact progress.strays_absorb (Reported.regular_mapM (regular_part around) _)
      · rfl
  exact written _ _

theorem strays_exit (node : Node) (site : Site) (progress : Progress) :
    (exit node site progress).2.strays = progress.strays := by
  simp only [exit]
  split
  · exact strays_merge ..
  · rfl

end TextRun

namespace Conditional

theorem strays_exit (node : Node) (site : Site) (progress : Progress) :
    (exit node site progress).strays = progress.strays := by
  have keyed (pairs : List (Branch × Node)) :
      (pairs.foldl (fun progress pair => keyBranch progress pair.1 pair.2) progress).strays =
        progress.strays := by
    induction pairs generalizing progress with
    | nil => rfl
    | cons pair rest ih =>
      rw [List.foldl_cons, ih]
      rfl
  simp only [exit]
  split
  · split
    · rw [Progress.strays_absorb _ (regular_links ..), keyed]
    · refine (Progress.strays_absorb _ (regular_links ..)).trans (keyed _)
  · rfl

theorem ne_of_takeCondition {node : Node} {name : String} :
    ∀ problem ∈ (takeCondition node name).problems, problem.kind ≠ .elseWithoutIf := by
  simp only [takeCondition]
  split
  · exact List.forall_mem_nil _
  · split
    · next found =>
      exact List.forall_mem_singleton.mpr (Directive.ne_of_emptyProblem? found (by decide))
    · exact List.forall_mem_nil _

theorem ne_of_collect (key : Nat) (skipped nodes : List Node) :
    ∀ problem ∈ (collect key skipped nodes).problems, problem.kind ≠ .elseWithoutIf := by
  induction nodes generalizing key skipped with
  | nil => exact List.forall_mem_nil _
  | cons node nodes ih =>
    simp only [collect]
    split
    · exact ih key (skipped ++ [node])
    · split
      · exact List.forall_mem_append.mpr ⟨ne_of_takeCondition, ih (key + 1) []⟩
      · split <;> exact List.forall_mem_nil _

theorem ne_of_repeatedKeys (seen : SeenKeys) (nodes : List Node) :
    ∀ problem ∈ repeatedKeys seen nodes, problem.kind ≠ .elseWithoutIf := by
  have reported (isRepeated : Bool) (value : Value) :
      ∀ problem ∈ repeatedKeys.report isRepeated value, problem.kind ≠ .elseWithoutIf := by
    cases isRepeated with
    | true => exact List.forall_mem_singleton.mpr (by simp)
    | false => exact List.forall_mem_nil _
  induction nodes generalizing seen with
  | nil => exact List.forall_mem_nil _
  | cons node nodes ih =>
    unfold repeatedKeys
    split
    · exact List.forall_mem_append.mpr ⟨reported _ _, ih _⟩
    · exact List.forall_mem_append.mpr ⟨reported _ _, ih _⟩
    · exact ih seen

theorem strays_group (node : Node) (site : Site) (progress : Progress) :
    (group node site progress).progress.strays = progress.strays := by
  refine Progress.strays_report_others _ ?_
  refine List.forall_mem_append.mpr ⟨List.forall_mem_append.mpr ⟨ne_of_takeCondition, ?_⟩,
    ne_of_repeatedKeys _ _⟩
  split
  · exact ne_of_collect _ _ _
  · exact List.forall_mem_nil _

end Conditional

/-- Of all passes only the one for conditionals reports alternatives that follow none. -/
theorem preserves_strays (given : List Problem) :
    ∀ pass ∈ [Once.pass, Loops.pass, Memo.pass, Elements.pass, TextRun.pass],
      pass.Preserves (·.strays = given) := by
  simp only [List.forall_mem_cons]
  refine ⟨⟨?_, fun _ _ _ _ same => same, fun _ _ same => same⟩,
    ⟨?_, fun ordinal node _ _ same => (Loops.strays_exit ordinal node _).trans same,
      fun _ _ same => same⟩,
    ⟨?_, fun _ _ _ _ same => same, fun _ _ same => same⟩,
    ⟨?_, fun _ node site _ same => (Elements.strays_exit node site _).trans same,
      fun roots _ same => (Elements.strays_exitRoot roots _).trans same⟩,
    ⟨?_, fun _ node site _ same => (TextRun.strays_exit node site _).trans same,
      fun roots _ same => (TextRun.strays_merge _ true roots _).trans same⟩, List.forall_mem_nil _⟩
  · rintro ordinal node site progress entrance same ⟨⟩
    simp only [Once.enter]
    split <;> exact same
  · rintro ordinal node site progress entrance same ⟨⟩
    exact (Loops.strays_enter ordinal node site progress).trans same
  · rintro ordinal node site progress entrance same ⟨⟩
    exact (Memo.strays_enter node site progress).trans same
  · rintro ordinal node site progress entrance same ⟨⟩
    exact (Elements.strays_enter node site progress).trans same
  · rintro ordinal node site progress entrance same ⟨⟩
    exact same

theorem strays_exitAll {exits : List (Nat × Pass)} (known : ∀ exit ∈ exits, exit.2 ∈ defaultPasses)
    (node : Node) (site : Site) (progress : Progress) :
    (exitAll node site progress exits).2.strays = progress.strays := by
  induction exits generalizing node progress with
  | nil => rfl
  | cons exit rest ih =>
    obtain ⟨own, others⟩ := List.forall_mem_cons.mp known
    refine (ih others _ _).trans ?_
    by_cases conditional : exit.2 = Conditional.pass
    · rw [conditional]
      exact Conditional.strays_exit ..
    · refine (preserves_strays progress.strays exit.2 ?_).exit _ _ _ rfl
      simp only [defaultPasses, List.mem_cons] at own ⊢
      tauto

/-- What a node is when the passes that come after the one for conditionals have entered it. -/
inductive Opens (node : Node) : Node → Prop
  | stays (unrepeated : node.properties.hasDirective "for" = false) : Opens node (node.without "memo")
  | loop {number : NodeId} {loop : Loop} (repeated : node.properties.hasDirective "for" = true) :
      Opens node ⟨number, .loop loop, node.span, [node.without "for"]⟩
  | placeholder {number : NodeId} (repeated : node.properties.hasDirective "for" = true) :
      Opens node ⟨number, .comment "v-for", node.span, []⟩

theorem Directive.isEmpty_of_none {directive : Directive} (absent : directive.expression = none) :
    directive.isEmpty = true := by
  rw [isEmpty, absent]
  rfl

theorem Loops.enter_unrepeated {node : Node}
    (unrepeated : node.properties.hasDirective "for" = false) (ordinal : Nat) (site : Site)
    (progress : Progress) : enter ordinal node site progress = { site, progress } := by
  have absent : (node.properties.takeDirective (· == "for")).1 = none := by
    simpa [Properties.hasDirective, Properties.takeDirective] using unrepeated
  simp only [enter, absent]

theorem Loops.opens_enter {node : Node} (repeated : node.properties.hasDirective "for" = true)
    (ordinal : Nat) (site : Site) (progress : Progress) :
    ∃ current, current.isElement = false ∧ Opens node current ∧
      (enter ordinal node site progress).site = site.replace current := by
  have span : (node.without "for").span = node.span := by
    simp only [Node.without, Node.withProperties]
    split <;> rfl
  have placeholder (problem : Problem) : ∃ current, current.isElement = false ∧
      Opens node current ∧
      (degrade (node.without "for") site progress problem).site = site.replace current :=
    ⟨_, rfl, .placeholder repeated, by rw [degrade, span]⟩
  obtain ⟨directive, found⟩ := Option.isSome_iff_exists.mp repeated
  simp only [enter, Properties.takeDirective, found]
  cases missing : directive.emptyProblem? .forWithoutExpression with
  | some problem => exact placeholder problem
  | none =>
    cases given : directive.expression with
    | none =>
      rw [Directive.emptyProblem?, if_pos (Directive.isEmpty_of_none given)] at missing
      cases missing
    | some value =>
      dsimp only
      cases LoopExpression.parse? value.content.raw with
      | none => exact placeholder _
      | some expression =>
        obtain ⟨loop, wrapped⟩ : ∃ loop, (wrap ordinal (node.without "for") site progress expression
            value.span).site = site.replace
              ⟨progress.next, .loop loop, (node.without "for").span, [node.without "for"]⟩ :=
          ⟨_, rfl⟩
        rw [span] at wrapped
        exact ⟨_, rfl, .loop repeated, wrapped⟩

theorem enterAll_site {passes : List Pass}
    (keeps : ∀ pass ∈ passes, ∀ {ordinal node site progress entrance},
      pass.enter ordinal node site progress = .ok entrance → entrance.site = site)
    {ordinal : Nat} {site : Site} {progress : Progress} {entered : Entered}
    (enters : enterAll ordinal site progress passes = .ok entered) : entered.site = site := by
  induction passes generalizing ordinal progress entered with
  | nil =>
    cases enters
    rfl
  | cons pass rest ih =>
    obtain ⟨own, others⟩ := List.forall_mem_cons.mp keeps
    simp only [enterAll] at enters
    split at enters
    · cases enters
      rfl
    · split at enters
      · exact ih others enters
      · split at enters
        · cases enters
        · next entrance succeeded =>
          obtain ⟨final, later, rfl⟩ := ok_of_map_eq_ok enters
          rw [own succeeded] at later
          have same := ih others later
          split <;> exact same

theorem Node.without_of_other {node : Node} (other : node.isElement = false) (name : String) :
    node.without name = node := by
  obtain ⟨id, content, span, children⟩ := node
  cases content with
  | element => cases other
  | _ => rfl

section Entering

/-- What an element gets is left by the passes for elements and texts, and at most by the one that
marks what is rendered once. -/
def ElementExits (entered : Entered) : Prop :=
  ∃ once, (∀ exit ∈ once, exit.2 = Once.pass) ∧ entered.exits = elementExits ++ once

variable {around : Surroundings} {ancestors : List NodeId} {hasSiblings : Bool} {done rest : List Node}
  {node : Node} {before : Progress} {entered : Entered}

theorem enterAll_third_site {site : Site} (focused : site.focus = some node)
    (new : node.isElement = true → before.hasEntered 3 node.id = false)
    (enters : enterAll 3 site before [Memo.pass, Elements.pass, TextRun.pass] = .ok entered) :
    entered.site = site.replace (node.without "memo") := by
  have keeps : ∀ pass ∈ [Elements.pass, TextRun.pass], ∀ {ordinal node site progress entrance},
      pass.enter ordinal node site progress = .ok entrance → entrance.site = site := by
    simp only [List.forall_mem_cons]
    refine ⟨?_, ?_, List.forall_mem_nil _⟩
    · rintro ordinal node site progress entrance ⟨⟩
      exact Elements.site_enter node site progress
    · rintro ordinal node site progress entrance ⟨⟩
      rfl
  cases entry : before.hasEntered 3 node.id with
  | true =>
    have other : node.isElement = false := by
      cases element : node.isElement with
      | false => rfl
      | true => exact absurd (new element) (by rw [entry]; decide)
    rw [enterAll_skip focused entry] at enters
    rw [enterAll_site keeps enters, Node.without_of_other other, Site.replace_self focused]
  | false =>
    rw [enterAll_cons focused entry rfl] at enters
    obtain ⟨final, later, rfl⟩ := ok_of_map_eq_ok enters
    have same := enterAll_site keeps later
    rw [Memo.site_enter focused] at same
    split <;> exact same

theorem enterAll_third_shape (ready : before.Ready around ancestors 3 (node :: rest))
    (enters : enterAll 3 ⟨ancestors, hasSiblings, done, some node, rest⟩ before
      [Memo.pass, Elements.pass, TextRun.pass] = .ok entered) :
    entered.site = ⟨ancestors, hasSiblings, done, some (node.without "memo"), rest⟩ ∧
      (node.isElement = true → entered.exits = elementExits) := by
  refine ⟨enterAll_third_site rfl (fun _ => ready.new 3 (Nat.le_refl 3)) enters, fun element => ?_⟩
  obtain ⟨properties, after, same, -⟩ := enterAll_kept done ready element
  rw [same] at enters
  cases enters
  rfl

theorem enterAll_second_shape (ready : before.Ready around ancestors 2 (node :: rest))
    (enters : enterAll 2 ⟨ancestors, hasSiblings, done, some node, rest⟩ before
      [Loops.pass, Memo.pass, Elements.pass, TextRun.pass] = .ok entered) :
    ∃ current, Opens node current ∧
      entered.site = ⟨ancestors, hasSiblings, done, some current, rest⟩ ∧
      (current.isElement = true → entered.exits = elementExits) := by
  have begun := ready.begun node rfl
  have next := ready.step (before.quiet_markEntered 2 node.id) (begun.mark_entered (by decide))
  rw [enterAll_cons rfl (by rw [begun.entered]; rfl) rfl] at enters
  obtain ⟨later, others, rfl⟩ := ok_of_map_eq_ok enters
  cases repeated : node.properties.hasDirective "for" with
  | false =>
    rw [Loops.enter_unrepeated repeated] at others ⊢
    obtain ⟨site, exits⟩ := enterAll_third_shape next others
    refine ⟨_, .stays repeated, site, fun element => exits ?_⟩
    rwa [Node.without, Node.isElement_withProperties] at element
  | true =>
    obtain ⟨current, other, opens, same⟩ := Loops.opens_enter repeated 2
      ⟨ancestors, hasSiblings, done, some node, rest⟩ (before.markEntered 2 node.id)
    refine ⟨current, opens, ?_, fun element => absurd element (by rw [other]; decide)⟩
    rw [same] at others
    have site := enterAll_third_site rfl (fun element => absurd element (by rw [other]; decide)) others
    rw [Node.without_of_other other] at site
    split <;> exact site

/-- The passes behind the one for conditionals leave a node alone that is no element. -/
theorem enterAll_second_other {site : Site} (focused : site.focus = some node)
    (other : node.isElement = false)
    (enters : enterAll 2 site before [Loops.pass, Memo.pass, Elements.pass, TextRun.pass] =
      .ok entered) : entered.site = site := by
  have unrepeated : node.properties.hasDirective "for" = false := by
    cases repeated : node.properties.hasDirective "for" with
    | false => rfl
    | true => exact absurd (Node.isElement_of_hasDirective repeated) (by rw [other]; decide)
  have third {progress : Progress} {later : Entered}
      (enters : enterAll 3 site progress [Memo.pass, Elements.pass, TextRun.pass] = .ok later) :
      later.site = site := by
    have same := enterAll_third_site focused
      (fun element => absurd element (by rw [other]; decide)) enters
    rwa [Node.without_of_other other, Site.replace_self focused] at same
  cases entry : before.hasEntered 2 node.id with
  | true =>
    rw [enterAll_skip focused entry] at enters
    exact third enters
  | false =>
    rw [enterAll_cons focused entry rfl, Loops.enter_unrepeated unrepeated] at enters
    obtain ⟨final, later, rfl⟩ := ok_of_map_eq_ok enters
    exact third later

/-- What entering a sibling or a branch that no pass has entered yet makes of its place. -/
inductive Shape (ancestors : List NodeId) (hasSiblings : Bool) (done : List Node) (node : Node)
    (rest : List Node) (before : Progress) (entered : Entered) : Prop
  | chain {number : NodeId} (tested : node.isConditioned = true)
      (place : hasSiblings = true ∨ done = [])
      (site : entered.site = ⟨ancestors, hasSiblings, done,
        some (Conditional.grouped node ⟨ancestors, hasSiblings, done, some node, rest⟩ number),
        (Conditional.others ⟨ancestors, hasSiblings, done, some node, rest⟩).rest⟩)
      (strays : entered.progress.strays = before.strays)
  | stray {problem : Problem} (untested : node.isConditioned = false)
      (alternative : node.isAlternative = true) (several : hasSiblings = true)
      (reported : node.strays = [problem])
      (site : entered.site = ⟨ancestors, hasSiblings, done, none, rest⟩)
      (strays : entered.progress.strays = before.strays ++ [problem])
  | stays {current : Node} (untested : node.isConditioned = false)
      (plain : hasSiblings = true → node.isAlternative = false) (opens : Opens node current)
      (site : entered.site = ⟨ancestors, hasSiblings, done, some current, rest⟩)
      (exits : current.isElement = true → ElementExits entered)
      (strays : entered.progress.strays = before.strays ++ node.strays)

/-- What was noted before and what leaves a node last does not matter to its place. -/
theorem Shape.after {middle : Progress} {other : Entered} {once : List (Nat × Pass)}
    (shape : Shape ancestors hasSiblings done node rest middle entered)
    (kept : middle.strays = before.strays) (site : other.site = entered.site)
    (progress : other.progress = entered.progress) (exits : other.exits = entered.exits ++ once)
    (only : ∀ exit ∈ once, exit.2 = Once.pass) :
    Shape ancestors hasSiblings done node rest before other := by
  cases shape with
  | chain tested place same strays =>
    exact .chain tested place (site.trans same) (by rw [progress, strays, kept])
  | stray untested alternative several reported same strays =>
    exact .stray untested alternative several reported (site.trans same)
      (by rw [progress, strays, kept])
  | stays untested plain opens same leaves strays =>
    refine .stays untested plain opens (site.trans same) (fun element => ?_)
      (by rw [progress, strays, kept])
    obtain ⟨earlier, few, listed⟩ := leaves element
    exact ⟨earlier ++ once, List.forall_mem_append.mpr ⟨few, only⟩, by
      rw [exits, listed, List.append_assoc]⟩

theorem strays_of_second {ordinal : Nat} {site : Site}
    (enters : enterAll ordinal site before [Loops.pass, Memo.pass, Elements.pass, TextRun.pass] =
      .ok entered) : entered.progress.strays = before.strays :=
  (enterAll_preserves (fun _ _ same => same)
    (fun pass member => preserves_strays before.strays pass (List.mem_cons_of_mem _ member)) rfl
    enters).1

theorem enterAll_first_shape (ready : before.Ready around ancestors 1 (node :: rest))
    (enters : enterAll 1 ⟨ancestors, hasSiblings, done, some node, rest⟩ before
      [Conditional.pass, Loops.pass, Memo.pass, Elements.pass, TextRun.pass] = .ok entered) :
    Shape ancestors hasSiblings done node rest before entered := by
  have begun := ready.begun node rfl
  have quiet := before.quiet_markEntered 1 node.id
  have next := ready.step quiet (begun.mark_entered (by decide))
  obtain ⟨entrance, later, entering, others, rfl⟩ := enterAll_first_ok ready enters
  have strays := strays_of_second others
  simp only [Conditional.enter] at entering
  split at entering
  · next tested =>
    split at entering
    · cases entering
    · next possible =>
      cases entering
      have place : hasSiblings = true ∨ done = [] := by simpa [Decidable.or_iff_not_imp_left] using possible
      have site := enterAll_second_other rfl rfl others
      exact .chain tested place site (strays.trans (Conditional.strays_group ..))
  · next untested =>
    have untested : node.isConditioned = false := Bool.not_eq_true _ ▸ untested
    split at entering
    · next plain =>
      cases entering
      have none : node.strays = [] := by rw [Node.strays, plain]; rfl
      obtain ⟨current, opens, site, exits⟩ := enterAll_second_shape next others
      refine .stays untested (fun _ => node.strays_eq_nil_iff.mp none) opens site
        (fun element => ⟨[], List.forall_mem_nil _, (exits element).trans rfl⟩) ?_
      rw [none, List.append_nil]
      exact strays
    · next directive found =>
      have reported : node.strays = [{ kind := .elseWithoutIf, span := directive.span }] := by
        rw [Node.strays, found]
        rfl
      split at entering
      · next several =>
        cases entering
        subst several
        cases others
        refine .stray untested ?_ rfl reported rfl ?_
        · by_contra plain
          have none := node.strays_eq_nil_iff.mpr (Bool.not_eq_true _ ▸ plain)
          cases reported.symm.trans none
        · exact Progress.strays_report _ _
      · next single =>
        cases entering
        have marked := begun.mark_entered (by decide)
        have quiet : Progress.Quiet node.id before ((before.markEntered 1 node.id).report
            [{ kind := .elseWithoutIf, span := directive.span }]) :=
          quiet.trans ⟨rfl, rfl, rfl, rfl, rfl, fun _ _ => ⟨rfl, rfl, rfl, rfl, fun _ => rfl⟩⟩
        have next := ready.step quiet
          ⟨marked.table, marked.dependencies, marked.mark, marked.entered, marked.once⟩
        obtain ⟨current, opens, site, exits⟩ := enterAll_second_shape next others
        refine .stays untested (fun several => absurd several single) opens site
          (fun element => ⟨[], List.forall_mem_nil _, (exits element).trans rfl⟩) ?_
        rw [reported]
        exact strays.trans (Progress.strays_report _ _)

theorem enterAll_zeroth_shape (ready : before.Ready around ancestors 0 (node :: rest))
    (enters : enterAll 0 ⟨ancestors, hasSiblings, done, some node, rest⟩ before defaultPasses =
      .ok entered) : Shape ancestors hasSiblings done node rest before entered := by
  have begun := ready.begun node rfl
  have next := Once.ready_enter done hasSiblings ready
  have kept : (Once.enter node ⟨ancestors, hasSiblings, done, some node, rest⟩
      (before.markEntered 0 node.id)).progress.strays = before.strays := by
    simp only [Once.enter]
    split <;> rfl
  rw [defaultPasses, enterAll_cons rfl (by rw [begun.entered]; rfl) rfl] at enters
  obtain ⟨later, others, rfl⟩ := ok_of_map_eq_ok enters
  rw [Once.site_enter] at others
  generalize Once.enter node ⟨ancestors, hasSiblings, done, some node, rest⟩
    (before.markEntered 0 node.id) = entrance at *
  have shape := enterAll_first_shape next others
  split
  · exact shape.after kept rfl rfl rfl (List.forall_mem_singleton.mpr rfl)
  · exact shape.after kept rfl rfl (List.append_nil _).symm (List.forall_mem_nil _)

/-- What entering the first branch of a conditional makes of its place. -/
theorem enterAll_branch_shape (ready : before.Ready around ancestors 2 (node :: rest))
    (enters : enterAll 0 ⟨ancestors, hasSiblings, done, some node, rest⟩ before defaultPasses =
      .ok entered) :
    ∃ current, Opens node current ∧
      entered.site = ⟨ancestors, hasSiblings, done, some current, rest⟩ ∧
      (current.isElement = true → ElementExits entered) ∧
      entered.progress.strays = before.strays := by
  have begun := ready.begun node rfl
  rw [defaultPasses, enterAll_skip rfl (by rw [begun.entered]; rfl),
    enterAll_skip rfl (by rw [begun.entered]; rfl)] at enters
  obtain ⟨current, opens, site, exits⟩ := enterAll_second_shape ready enters
  exact ⟨current, opens, site,
    fun element => ⟨[], List.forall_mem_nil _, exits element⟩, strays_of_second enters⟩

/-- What entering the element that a loop repeats makes of its place. -/
theorem enterAll_item_shape (ready : before.Ready around ancestors 3 (node :: rest))
    (enters : enterAll 0 ⟨ancestors, hasSiblings, done, some node, rest⟩ before defaultPasses =
      .ok entered) :
    entered.site = ⟨ancestors, hasSiblings, done, some (node.without "memo"), rest⟩ ∧
      ((node.without "memo").isElement = true → ElementExits entered) ∧
      entered.progress.strays = before.strays := by
  have begun := ready.begun node rfl
  rw [defaultPasses, enterAll_skip rfl (by rw [begun.entered]; rfl),
    enterAll_skip rfl (by rw [begun.entered]; rfl),
    enterAll_skip rfl (by rw [begun.entered]; rfl)] at enters
  obtain ⟨site, exits⟩ := enterAll_third_shape ready enters
  refine ⟨site, fun element => ⟨[], List.forall_mem_nil _, exits ?_⟩, ?_⟩
  · rwa [Node.without, Node.isElement_withProperties] at element
  · exact (enterAll_preserves (fun _ _ same => same) (fun pass member =>
      preserves_strays before.strays pass (by simp only [List.mem_cons] at member ⊢; tauto)) rfl
      enters).1

/-- Entering a node that goes away is a part of a walk. -/
theorem visits_gone {stage : Nat} (ready : before.Ready around ancestors stage (node :: rest))
    (staged : stage = 0 ∨ stage = 2 ∨ stage = 3)
    (enters : enterAll 0 ⟨ancestors, hasSiblings, done, some node, rest⟩ before defaultPasses =
      .ok entered)
    (unfocused : entered.site.focus = none) :
    stage = 0 ∧
      Visits around hasSiblings (node :: rest) before [] entered.site.after entered.progress := by
  obtain ⟨once, exits, outcome⟩ := enterAll_outcome ready staged enters
  constructor
  · rcases staged with rfl | rfl | rfl
    · rfl
    · obtain ⟨current, -, site, -⟩ := enterAll_branch_shape ready enters
      cases (congrArg Site.focus site).symm.trans unfocused
    · obtain ⟨site, -⟩ := enterAll_item_shape ready enters
      cases (congrArg Site.focus site).symm.trans unfocused
  · cases outcome with
    | gone _ visits => exact visits
    | leaf focused | element focused | conditional focused | loop focused =>
      cases focused.symm.trans unfocused

end Entering

end TemplateCompiler
