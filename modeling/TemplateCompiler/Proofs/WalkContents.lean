import TemplateCompiler.Proofs.GroupedSiblings
import TemplateCompiler.Proofs.LoweredPlaces

/-! The contents of the nodes during a walk. A pass takes directives away from elements, groups them
and wraps them up; so what is said of contents holds of a lowered template if it held before the
walk and does not mind a missing directive, and if it holds of what stands for a conditional and of
what stands for a loop. It may depend on the problems that are reported, of which none goes away. -/

namespace TemplateCompiler

def Directive.loop? (directive : Directive) : Option Loop :=
  if directive.isEmpty then none
  else
    directive.expression.bind fun value =>
      (LoopExpression.parse? value.content.raw).map fun expression =>
        { source := { content := { raw := expression.source }, span := value.span }
          value := expression.value
          key := expression.key
          index := expression.index }

/-- Why the loop that a directive asks for cannot be read. -/
def Directive.loopProblem? (directive : Directive) : Option Problem :=
  (directive.emptyProblem? .forWithoutExpression).or <|
    directive.expression.bind fun value =>
      if (LoopExpression.parse? value.content.raw).isSome then none
      else some { kind := .forMalformed, span := value.span }

theorem Directive.loop_cases (directive : Directive) :
    (∃ loop, directive.loop? = some loop ∧ directive.loopProblem? = none) ∨
      ∃ problem, directive.loop? = none ∧ directive.loopProblem? = some problem := by
  unfold loop? loopProblem? emptyProblem?
  cases empty : directive.isEmpty with
  | true => exact .inr ⟨_, rfl, rfl⟩
  | false =>
    cases given : directive.expression with
    | none =>
      rw [Directive.isEmpty_of_none given] at empty
      cases empty
    | some value =>
      cases read : LoopExpression.parse? value.content.raw with
      | none =>
        refine .inr ⟨{ kind := .forMalformed, span := value.span }, ?_, ?_⟩
        · simp [read]
        · simp [read]
      | some expression =>
        left
        simp [read]

/-- What is said of contents, given the problems so far, outlasts a walk. -/
structure Content.Lasts (holds : List Problem → Content → Prop) : Prop where
  more : ∀ {few many : List Problem} {content : Content}, few ⊆ many → holds few content →
    holds many content
  without : ∀ {problems : List Problem} {element : Element} (names : String → Bool),
    holds problems (.element element) →
    holds problems
      (.element { element with properties := (element.properties.takeDirective names).2 })
  conditional : ∀ problems branches, holds problems (.conditional branches)
  loop : ∀ {problems : List Problem} {element : Element} {directive : Directive} {loop : Loop},
    holds problems (.element element) →
    element.properties.findDirective? (· == "for") = some directive →
    directive.loop? = some loop → holds problems (.loop loop)
  placeholder : ∀ {problems : List Problem} {element : Element} {directive : Directive}
    {problem : Problem}, holds problems (.element element) →
    element.properties.findDirective? (· == "for") = some directive →
    directive.loopProblem? = some problem → problem ∈ problems →
    holds problems (.comment "v-for")

variable {holds : List Problem → Content → Prop}

section Problems

variable {given : List Problem} {progress : Progress}

theorem Progress.subset_report (kept : given ⊆ progress.problems) (problems : List Problem) :
    given ⊆ (progress.report problems).problems :=
  List.Subset.trans kept (List.subset_append_left ..)

theorem Once.reports : Once.pass.Preserves (given ⊆ ·.problems) where
  enter kept enters := by
    cases enters
    unfold Once.enter
    split <;> exact kept
  exit _ _ _ _ kept := kept
  exitRoot _ _ kept := kept

theorem Conditional.reports : Conditional.pass.Preserves (given ⊆ ·.problems) where
  enter {ordinal node site progress entrance} kept enters := by
    change Conditional.enter node site progress = .ok entrance at enters
    unfold Conditional.enter at enters
    split at enters
    · split at enters
      · cases enters
      · cases enters
        exact Progress.subset_report kept _
    · split at enters
      · cases enters
        exact kept
      · split at enters
        · cases enters
          exact Progress.subset_report kept _
        · cases enters
          exact Progress.subset_report kept _
  exit _ node site progress kept := by
    have keyed (pairs : List (Branch × Node)) :
        (pairs.foldl (fun progress pair => keyBranch progress pair.1 pair.2) progress).problems =
          progress.problems := by
      clear kept
      induction pairs generalizing progress with
      | nil => rfl
      | cons pair rest ih => exact ih _
    change given ⊆ (Conditional.exit node site progress).problems
    unfold Conditional.exit
    split
    · rw [← keyed] at kept
      simp only
      split <;> exact Progress.subset_report kept _
    · exact kept
  exitRoot _ _ kept := kept

theorem Loops.reports : Loops.pass.Preserves (given ⊆ ·.problems) where
  enter kept enters := by
    cases enters
    simp only [Loops.enter]
    split
    · exact kept
    · split
      · exact Progress.subset_report kept _
      · exact kept
      · split
        · refine Progress.subset_report (List.Subset.trans ?_ (List.subset_append_left ..)) _
          exact Progress.subset_report kept _
        · exact Progress.subset_report kept _
  exit ordinal node _ progress kept := by
    change given ⊆ (Loops.exit ordinal node progress).problems
    unfold Loops.exit
    simp only
    split
    · exact kept
    · split <;> exact kept
  exitRoot _ _ kept := kept

theorem Memo.reports : Memo.pass.Preserves (given ⊆ ·.problems) where
  enter kept enters := by
    cases enters
    simp only [Memo.enter]
    split
    · exact kept
    · split
      · exact Progress.subset_report kept _
      · exact kept
      · split
        · exact kept
        · exact Progress.subset_report kept _
  exit _ _ _ _ kept := kept
  exitRoot _ _ kept := kept

theorem Elements.reports : Elements.pass.Preserves (given ⊆ ·.problems) where
  enter kept enters := by
    cases enters
    unfold Elements.enter
    split <;> exact kept
  exit _ node site progress kept := by
    change given ⊆ (Elements.exit node site progress).problems
    unfold Elements.exit
    split
    · exact Progress.subset_report kept _
    · exact kept
  exitRoot roots progress kept := by
    change given ⊆ (Elements.exitRoot roots progress).problems
    unfold Elements.exitRoot
    split <;> exact kept

theorem TextRun.subset_merge (kept : given ⊆ progress.problems) (around : Surroundings)
    (takesText : Bool) (children : List Node) :
    given ⊆ (merge around takesText children progress).2.problems := by
  have written (fastPath : Bool) (found : List Run) :
      given ⊆ (found.foldl (write around fastPath) progress).problems := by
    induction found generalizing progress with
    | nil => exact kept
    | cons run found ih =>
      refine ih ?_
      unfold write
      split
      · exact Progress.subset_report kept _
      · exact kept
  exact written _ _

theorem TextRun.reports : TextRun.pass.Preserves (given ⊆ ·.problems) where
  enter kept enters := by
    cases enters
    exact kept
  exit _ node site progress kept := by
    change given ⊆ (TextRun.exit node site progress).2.problems
    unfold TextRun.exit
    split
    · exact TextRun.subset_merge kept ..
    · exact kept
  exitRoot roots _ kept := TextRun.subset_merge kept _ true roots

/-- No problem that was reported before goes away. -/
theorem defaultPasses_report :
    ∀ pass ∈ defaultPasses, pass.Preserves (given ⊆ ·.problems) := by
  simp only [defaultPasses, List.forall_mem_cons]
  exact ⟨Once.reports, Conditional.reports, Loops.reports, Memo.reports, Elements.reports,
    TextRun.reports, List.forall_mem_nil _⟩

end Problems

namespace Node

abbrev AllContain (holds : Content → Prop) (nodes : List Node) : Prop :=
  Every (fun _ content _ => holds content) nodes

section Contents

variable {holds : Content → Prop} {node : Node} {few many : List Node}

theorem allContain_iff :
    AllContain holds many ↔ ∀ node ∈ many, holds node.content ∧ AllContain holds node.children := by
  induction many with
  | nil => exact ⟨fun _ => List.forall_mem_nil _, fun _ => every_nil⟩
  | cons node rest ih =>
    rw [List.forall_mem_cons, ← ih]
    exact every_cons

theorem AllContain.subset (all : AllContain holds many) (fewer : few ⊆ many) :
    AllContain holds few :=
  allContain_iff.2 fun node member => allContain_iff.1 all node (fewer member)

theorem allContain_singleton :
    AllContain holds [node] ↔ holds node.content ∧ AllContain holds node.children :=
  allContain_iff.trans List.forall_mem_singleton

end Contents

variable {node : Node} {nodes : List Node} {few many : List Problem}

theorem AllContain.more (all : AllContain (holds few) nodes) (lasts : Content.Lasts holds)
    (subset : few ⊆ many) : AllContain (holds many) nodes :=
  fun node member => lasts.more subset (all node member)

theorem AllContain.without (all : AllContain (holds few) [node]) (lasts : Content.Lasts holds)
    (name : String) : AllContain (holds few) [node.without name] := by
  obtain ⟨id, content, span, children⟩ := node
  obtain ⟨own, below⟩ := allContain_singleton.1 all
  cases content with
  | element element => exact allContain_singleton.2 ⟨lasts.without (· == name) own, below⟩
  | _ => exact all

end Node

namespace Site

variable {holds : Content → Prop} {site : Site} {node other : Node}

/-- Another node in focus takes the place of the one that was there. -/
theorem allContain_replace (all : Node.AllContain holds site.nodes)
    (focused : site.focus = some node)
    (change : Node.AllContain holds [node] → Node.AllContain holds [other]) :
    Node.AllContain holds (site.replace other).nodes := by
  rw [nodes_of_focus focused, Node.AllContain, Node.every_append, Node.every_cons] at all
  obtain ⟨front, own, back⟩ := all
  have changed := Node.allContain_singleton.1 (change (Node.allContain_singleton.2 own))
  have replaced : (site.replace other).focus = some other := rfl
  rw [nodes_of_focus replaced, Node.AllContain, Node.every_append, Node.every_cons]
  exact ⟨front, changed, back⟩

theorem remove_subset (site : Site) : site.remove.nodes ⊆ site.nodes := by
  unfold remove
  split
  · intro node member
    simp only [nodes, List.mem_append] at member ⊢
    tauto
  · exact List.Subset.refl _

end Site

/-- It stays true of the contents of all siblings where the pass enters one of them. -/
def Pass.Contains (holds : List Problem → Content → Prop) (pass : Pass) : Prop :=
  ∀ {ordinal node site progress entrance}, site.focus = some node →
    Node.AllContain (holds entrance.progress.problems) site.nodes →
    pass.enter ordinal node site progress = .ok entrance →
    Node.AllContain (holds entrance.progress.problems) entrance.site.nodes ∧
      entrance.site.before = site.before

theorem Once.contains : Once.pass.Contains holds := by
  rintro ordinal node site progress entrance focused all ⟨⟩
  rw [Once.site_enter]
  exact ⟨all, rfl⟩

theorem Memo.contains (lasts : Content.Lasts holds) : Memo.pass.Contains holds := by
  rintro ordinal node site progress entrance focused all ⟨⟩
  rw [Memo.site_enter focused]
  exact ⟨Site.allContain_replace all focused fun own => own.without lasts "memo", rfl⟩

theorem Elements.contains : Elements.pass.Contains holds := by
  rintro ordinal node site progress entrance focused all ⟨⟩
  rw [Elements.site_enter]
  exact ⟨all, rfl⟩

theorem TextRun.contains : TextRun.pass.Contains holds := by
  rintro ordinal node site progress entrance focused all ⟨⟩
  exact ⟨all, rfl⟩

namespace Loops

/-- What stands for an element with a loop. -/
def standIn (node : Node) (directive : Directive) (number : NodeId) : Node :=
  match directive.loop? with
  | some loop =>
    { id := number, content := .loop loop, span := node.span, children := [node.without "for"] }
  | none => { id := number, content := .comment "v-for", span := node.span }

theorem site_enter {node : Node} {directive : Directive}
    (found : node.properties.findDirective? (· == "for") = some directive) (ordinal : Nat)
    (site : Site) (progress : Progress) :
    (enter ordinal node site progress).site =
      site.replace (standIn node directive progress.next) := by
  have span : (node.without "for").span = node.span := node.withProperties_span _
  simp only [enter, Properties.takeDirective, found, standIn, Directive.loop?,
    Directive.emptyProblem?]
  cases empty : directive.isEmpty with
  | true =>
    rw [if_pos rfl, if_pos rfl, ← span]
    rfl
  | false =>
    cases given : directive.expression with
    | none =>
      rw [Directive.isEmpty_of_none given] at empty
      cases empty
    | some value =>
      simp only [Bool.false_eq_true, if_false, Option.bind_some]
      rw [← span]
      cases LoopExpression.parse? value.content.raw with
      | none => rfl
      | some expression => rfl

theorem exists_element_of_found {node : Node} {names : String → Bool} {directive : Directive}
    (found : node.properties.findDirective? names = some directive) :
    ∃ element, node.content = .element element ∧ node.properties = element.properties := by
  obtain ⟨id, content, span, children⟩ := node
  cases content with
  | element element => exact ⟨element, rfl, rfl⟩
  | _ => cases found

/-- What hinders reading the loop is reported. -/
theorem reports_enter {node : Node} {directive : Directive} {problem : Problem}
    (found : node.properties.findDirective? (· == "for") = some directive)
    (unread : directive.loopProblem? = some problem) (ordinal : Nat) (site : Site)
    (progress : Progress) :
    (enter ordinal node site progress).progress.problems = progress.problems ++ [problem] := by
  simp only [Directive.loopProblem?] at unread
  simp only [enter, Properties.takeDirective, found]
  cases empty : directive.emptyProblem? .forWithoutExpression with
  | some given =>
    rw [empty, Option.some_or] at unread
    cases unread
    rfl
  | none =>
    rw [empty, Option.none_or] at unread
    obtain ⟨value, given, read⟩ := Option.bind_eq_some_iff.1 unread
    rw [given]
    cases parsed : LoopExpression.parse? value.content.raw with
    | none =>
      rw [parsed] at read
      cases read
      simp only [parsed]
      rfl
    | some expression =>
      rw [parsed] at read
      cases read

theorem contains (lasts : Content.Lasts holds) : Loops.pass.Contains holds := by
  rintro ordinal node site progress entrance focused all ⟨⟩
  cases found : node.properties.findDirective? (· == "for") with
  | none =>
    have unrepeated : node.properties.hasDirective "for" = false := by
      rw [Properties.hasDirective, found]
      rfl
    rw [enter_unrepeated unrepeated] at all ⊢
    exact ⟨all, rfl⟩
  | some directive =>
    have reported {problem : Problem} (unread : directive.loopProblem? = some problem) :
        problem ∈ (enter ordinal node site progress).progress.problems := by
      rw [reports_enter found unread]
      exact List.mem_append_right _ List.mem_cons_self
    rw [site_enter found]
    refine ⟨Site.allContain_replace all focused fun own => ?_, rfl⟩
    obtain ⟨element, content, same⟩ := exists_element_of_found found
    obtain ⟨given, below⟩ := Node.allContain_singleton.1 own
    rw [content] at given
    rw [same] at found
    rw [standIn, Node.allContain_singleton]
    rcases directive.loop_cases with ⟨loop, read, -⟩ | ⟨problem, unread, why⟩
    · rw [read]
      exact ⟨lasts.loop given found read, own.without lasts "for"⟩
    · rw [unread]
      exact ⟨lasts.placeholder given found why (reported why), Node.every_nil⟩

end Loops

namespace Conditional

variable {problems : List Problem}

theorem contain_alternate (lasts : Content.Lasts holds) {key : Nat} {nodes rest : List Node}
    {found : List Alternative} (taken : Alternate key nodes found rest)
    (all : Node.AllContain (holds problems) nodes) :
    Node.AllContain (holds problems) (found.map (·.node)) ∧
      Node.AllContain (holds problems) rest := by
  have keeps {node : Node} {others : List Node} (name : String)
      (own : Node.AllContain (holds problems) (node :: others)) :
      Node.AllContain (holds problems) [node.without name] :=
    (own.subset (List.cons_subset_cons node (List.nil_subset others))).without lasts name
  induction taken with
  | elseIf _ _ _ ih =>
    obtain ⟨-, behind⟩ := Node.every_append.1 all
    obtain ⟨later, left⟩ := ih (Node.every_cons.1 behind).2
    exact ⟨Node.every_append.2 ⟨keeps "else-if" behind, later⟩, left⟩
  | otherwise =>
    obtain ⟨-, behind⟩ := Node.every_append.1 all
    exact ⟨keeps "else" behind, (Node.every_cons.1 behind).2⟩
  | stop => exact ⟨Node.every_nil, all⟩

theorem contain_others (lasts : Content.Lasts holds) {site : Site}
    (all : Node.AllContain (holds problems) site.after) :
    Node.AllContain (holds problems) ((others site).found.map (·.node)) ∧
      Node.AllContain (holds problems) (others site).rest := by
  cases several : site.hasSiblings with
  | true => exact contain_alternate lasts (others_alternate site several) all
  | false =>
    simp only [others, several, Bool.false_eq_true, if_false]
    exact ⟨Node.every_nil, all⟩

theorem contains (lasts : Content.Lasts holds) : Conditional.pass.Contains holds := by
  intro ordinal node site progress entrance focused all enters
  change Conditional.enter node site progress = .ok entrance at enters
  unfold enter at enters
  split at enters
  · split at enters
    · cases enters
    · cases enters
      rw [Site.nodes_of_focus focused] at all
      obtain ⟨front, behind⟩ := Node.every_append.1 all
      obtain ⟨own, back⟩ := Node.every_cons.1 behind
      obtain ⟨found, left⟩ := contain_others lasts back
      have first := Node.AllContain.without (Node.allContain_singleton.2 own) lasts "if"
      have grouped : Node.AllContain (holds (group node site progress).progress.problems)
          [grouped node site progress.next] := by
        rw [grouped_eq, Node.allContain_singleton]
        exact ⟨lasts.conditional _ _, Node.every_append.2 ⟨first, found⟩⟩
      exact ⟨Node.every_append.2 ⟨front, Node.every_append.2 ⟨grouped, left⟩⟩, rfl⟩
  · split at enters
    · cases enters
      exact ⟨all, rfl⟩
    · split at enters
      · cases enters
        refine ⟨all.subset (Site.remove_subset site), ?_⟩
        unfold Site.remove
        split <;> rfl
      · cases enters
        exact ⟨all, rfl⟩

end Conditional

theorem defaultPasses_contain (lasts : Content.Lasts holds) :
    ∀ pass ∈ defaultPasses, pass.Contains holds := by
  simp only [defaultPasses, List.forall_mem_cons]
  exact ⟨Once.contains, Conditional.contains lasts, Loops.contains lasts, Memo.contains lasts,
    Elements.contains, TextRun.contains, List.forall_mem_nil _⟩

theorem enterAll_contains {passes : List Pass} (lasts : Content.Lasts holds)
    (contain : ∀ pass ∈ passes, pass.Contains holds)
    (report : ∀ pass ∈ passes, ∀ given, pass.Preserves (given ⊆ ·.problems))
    {ordinal : Nat} {site : Site} {progress : Progress} {entered : Entered}
    (enters : enterAll ordinal site progress passes = .ok entered)
    (all : Node.AllContain (holds progress.problems) site.nodes) :
    Node.AllContain (holds entered.progress.problems) entered.site.nodes ∧
      entered.site.before = site.before := by
  induction passes generalizing ordinal site progress entered with
  | nil =>
    cases enters
    exact ⟨all, rfl⟩
  | cons pass rest ih =>
    obtain ⟨own, others⟩ := List.forall_mem_cons.mp contain
    obtain ⟨reports, more⟩ := List.forall_mem_cons.mp report
    unfold enterAll at enters
    split at enters
    · cases enters
      exact ⟨all, rfl⟩
    · next node focused =>
      split at enters
      · exact ih others more enters all
      · split at enters
        · cases enters
        · next entrance succeeded =>
          have grown : progress.problems ⊆ entrance.progress.problems := by
            refine (reports progress.problems).enter ?_ succeeded
            exact List.Subset.refl _
          obtain ⟨kept, place⟩ := own focused (all.more lasts grown) succeeded
          obtain ⟨final, later, rfl⟩ := ok_of_map_eq_ok enters
          obtain ⟨last, same⟩ := ih others more later kept
          split <;> exact ⟨last, same.trans place⟩

theorem visitAll_reports {ancestors : List NodeId} {hasSiblings : Bool} {before todo : List Node}
    {progress : Progress} {visited : Visited}
    (visits : visitAll defaultPasses ancestors hasSiblings before todo progress = .ok visited) :
    progress.problems ⊆ visited.progress.problems :=
  @visitAll_preserves (progress.problems ⊆ ·.problems) (fun _ _ kept => kept) _
    defaultPasses_report _ _ _ _ _ (List.Subset.refl _) visited visits

theorem visitAll_contains (lasts : Content.Lasts holds) {ancestors : List NodeId}
    {hasSiblings : Bool} {before todo : List Node} {progress : Progress}
    (all : Node.AllContain (holds progress.problems) (before.reverse ++ todo)) :
    ∀ visited, visitAll defaultPasses ancestors hasSiblings before todo progress = .ok visited →
      Node.AllContain (holds visited.progress.problems) visited.nodes := by
  have contain := defaultPasses_contain lasts
  have report : ∀ pass ∈ defaultPasses, ∀ given, pass.Preserves (given ⊆ ·.problems) :=
    fun pass member given => defaultPasses_report pass member
  fun_induction visitAll defaultPasses ancestors hasSiblings before todo progress with
  | case1 =>
    rintro visited ⟨⟩
    simpa using all
  | case2 => rintro visited ⟨⟩
  | case3 ancestors hasSiblings before progress node rest entered enters unfocused ih =>
    obtain ⟨kept, place⟩ := enterAll_contains lasts contain report enters all
    rw [Site.nodes, unfocused, place] at kept
    exact ih kept
  | case4 => rintro visited ⟨⟩
  | case5 ancestors hasSiblings before progress node rest entered enters current focused below
      walked left ihBelow ih =>
    obtain ⟨kept, place⟩ := enterAll_contains lasts contain report enters all
    rw [Site.nodes_of_focus focused, place] at kept
    obtain ⟨front, behind⟩ := Node.every_append.1 kept
    obtain ⟨⟨own, inner⟩, back⟩ := Node.every_cons.1 behind
    have children := ihBelow inner below walked
    obtain ⟨-, content, fewer⟩ := exitAll_trims
      (fun exit member => defaultPasses_trims _ (enterAll_exits enters exit member))
      { current with children := below.nodes } entered.site below.progress
    have entering := visitAll_reports walked
    have leaving : below.progress.problems ⊆ left.2.problems :=
      @exitAll_preserves (below.progress.problems ⊆ ·.problems) _
        (fun exit member => defaultPasses_report _ (enterAll_exits enters exit member)) _ _ _
        (List.Subset.refl _)
    have grown := List.Subset.trans entering leaving
    have final : Node.AllContain (holds left.2.problems) [left.1] := by
      rw [Node.allContain_singleton, content]
      exact ⟨lasts.more grown own, (children.more lasts leaving).subset fewer⟩
    refine ih ?_
    rw [List.reverse_cons, List.append_assoc]
    exact Node.every_append.2 ⟨Node.AllContain.more front lasts grown,
      Node.every_append.2 ⟨final, Node.AllContain.more back lasts grown⟩⟩

theorem lower_contains (lasts : Content.Lasts holds) {option : LowerOption} {template : Template}
    {lowered : Lowered} (all : Node.AllContain (holds []) template.roots)
    (lowers : lower option template = .ok lowered) :
    Node.AllContain (holds lowered.problems) lowered.plan.template.roots := by
  obtain ⟨_, _, walks, _, rfl⟩ := walk_of_lowerWith lowers
  obtain ⟨visited, visits, same⟩ := ok_of_map_eq_ok walks
  cases same
  have start : Node.AllContain (holds []) ([].reverse ++ template.roots) := all
  have kept := visitAll_contains lasts start visited visits
  have grown := exitRootAll_preserves (@defaultPasses_report visited.progress.problems)
    visited.nodes (List.Subset.refl _)
  have roots := (kept.more lasts grown).subset (exitRootAll_subset visited.nodes visited.progress)
  simp only [Plan.injectCache]
  split
  · rwa [Plan.template_hoist]
  · exact roots

end TemplateCompiler
