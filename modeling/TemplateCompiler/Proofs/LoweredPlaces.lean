import TemplateCompiler.Proofs.WalkGrouping
import TemplateCompiler.Proofs.WalkPlaces

/-! The places in a lowered template. A pass keeps the place of a node, wraps it up, puts something
else there or takes it away; a conditional alone covers more than one node, and it ends behind its
last branch because siblings begin in order. -/

namespace TemplateCompiler

open Reported

variable {source : String} {node : Node} {site : Site} {progress : Progress}

theorem Once.places : Once.pass.Places source where
  enter focused placed sound enters := by
    cases enters
    unfold Once.enter
    split
    · exact ⟨Site.leadsTo_self placed, sound.problems, sound.dropped⟩
    · exact ⟨Site.leadsTo_self placed, sound⟩
  exit _ _ _ _ placed sound := ⟨⟨placed, rfl⟩, sound.problems, sound.dropped⟩
  exitRoot placed sound := ⟨placed, sound⟩

theorem Memo.placed_keep {value : Value} (lies : value.span.Lies source)
    (sound : progress.Placed source) (node : Node) (site : Site) :
    (Memo.keep node site progress value).Placed source := by
  have kept := sound.absorb ((progress.surroundings site).lies_resolveValue lies)
  exact ⟨kept.problems, kept.dropped⟩

theorem Memo.places : Memo.pass.Places source where
  enter {ordinal node site progress entrance} focused placed sound enters := by
    cases enters
    have own := Site.placed_focus placed focused
    have changed := Site.leadsTo_replace placed focused (own.withoutDirective (· == "memo"))
      (by rw [Node.withProperties_span])
    unfold Memo.enter
    simp only
    split
    · exact ⟨Site.leadsTo_self placed, sound⟩
    · next directive found =>
      have lies := own.directive found
      split
      · next problem _ empty =>
        exact ⟨changed, sound.report (problemsLie_singleton.mpr (lies.emptyProblem? empty))⟩
      · exact ⟨changed, sound⟩
      · next value _ given =>
        split
        · exact ⟨changed, sound⟩
        · exact ⟨changed, placed_keep (lies.expression value given) sound _ _⟩
  exit _ _ _ _ placed sound := ⟨⟨placed, rfl⟩, sound⟩
  exitRoot placed sound := ⟨placed, sound⟩

namespace Loops

theorem lies_misplacedKey? (placed : node.Placed source) {place : Span}
    (found : misplacedKey? node = some place) : place.Lies source := by
  unfold misplacedKey? at found
  split at found
  · obtain ⟨child, member, set⟩ := List.exists_of_findSome?_eq_some found
    obtain ⟨property, first, rfl⟩ := Option.map_eq_some_iff.mp set
    have lies := (placed.children.each child member).properties property
      (List.mem_of_find?_eq_some first)
    cases property with
    | attr given => exact lies.span
    | dir given => exact lies.span
  · cases found

theorem places_degrade {other : Node} (focused : site.focus = some node)
    (placed : Node.AllPlaced source site.nodes) (sound : progress.Placed source)
    (own : other.Placed source) (same : other.span = node.span) {problem : Problem}
    (lies : problem.span.Lies source) :
    site.LeadsTo source (degrade other site progress problem).site ∧
      (degrade other site progress problem).progress.Placed source := by
  constructor
  · refine Site.leadsTo_replace placed focused ?_ (congrArg Span.start same)
    exact .intro trivial own.span List.Pairwise.nil (List.forall_mem_nil _)
  · have counted : { progress with next := progress.next + 1 }.Placed source :=
      ⟨sound.problems, sound.dropped⟩
    exact (counted.drop own.allLie).report (problemsLie_singleton.mpr lies)

theorem places_wrap {other : Node} (focused : site.focus = some node)
    (placed : Node.AllPlaced source site.nodes) (sound : progress.Placed source)
    (own : other.Placed source) (same : other.span = node.span) (ordinal : Nat)
    (expression : LoopExpression) {span : Span} (lies : span.Lies source) :
    site.LeadsTo source (wrap ordinal other site progress expression span).site ∧
      (wrap ordinal other site progress expression span).progress.Placed source := by
  constructor
  · refine Site.leadsTo_replace placed focused ?_ (congrArg Span.start same)
    exact .intro lies own.span (List.pairwise_singleton _ _) (List.forall_mem_singleton.mpr own)
  · have misplaced : ProblemsLie source ((misplacedKey? other).toList.map fun place =>
        { kind := .forTemplateKey, span := place : Problem }) :=
      List.forall_mem_map.mpr fun place member =>
        lies_misplacedKey? own (Option.mem_toList.mp member)
    have reported := (sound.report misplaced).absorb
      ((progress.surroundings site).lies_resolve lies expression.source)
    refine ⟨?_, reported.dropped⟩
    simp only [wrap, Progress.absorb, Progress.report, problems_boundNames, List.append_nil]
    exact reported.problems

theorem placed_exit (sound : progress.Placed source) (ordinal : Nat) (node : Node) :
    (exit ordinal node progress).Placed source := by
  unfold exit
  simp only
  split
  · exact sound
  · split
    · exact ⟨sound.problems, sound.dropped⟩
    · exact ⟨sound.problems, sound.dropped⟩

theorem places : Loops.pass.Places source where
  enter {ordinal node site progress entrance} focused placed sound enters := by
    cases enters
    have own := Site.placed_focus placed focused
    have rest := own.withoutDirective (· == "for")
    have same := node.withProperties_span (node.properties.takeDirective (· == "for")).2
    unfold Loops.enter
    simp only
    split
    · exact ⟨Site.leadsTo_self placed, sound⟩
    · next directive found =>
      have lies := own.directive found
      split
      · next problem _ empty =>
        exact places_degrade focused placed sound rest same (lies.emptyProblem? empty)
      · exact ⟨Site.leadsTo_self placed, sound⟩
      · next value _ given =>
        have inside := lies.expression value given
        split
        · exact places_wrap focused placed sound rest same ordinal _ inside
        · exact places_degrade focused placed sound rest same inside
  exit _ _ _ _ placed sound := ⟨⟨placed, rfl⟩, placed_exit sound _ _⟩
  exitRoot placed sound := ⟨placed, sound⟩

end Loops

namespace Elements

theorem placed_exit (placed : node.Placed source) (sound : progress.Placed source) (site : Site) :
    (exit node site progress).Placed source := by
  have lies := placed.content
  unfold exit
  split
  · next element same =>
    rw [same] at lies
    have assets : (addAssets element progress).Placed source := ⟨sound.problems, sound.dropped⟩
    exact (assets.absorb (lies_lowerElement lies _ _ _)).setCode _ _
  · exact sound

theorem places : Elements.pass.Places source where
  enter focused placed sound enters := by
    cases enters
    unfold Elements.enter
    split
    · exact ⟨Site.leadsTo_self placed, sound.setCode _ _⟩
    · exact ⟨Site.leadsTo_self placed, sound⟩
    · exact ⟨Site.leadsTo_self placed, sound⟩
  exit _ _ site _ placed sound := ⟨⟨placed, rfl⟩, placed_exit placed sound site⟩
  exitRoot {roots _} placed sound := by
    refine ⟨placed, ?_⟩
    change (Elements.exitRoot roots _).Placed source
    unfold Elements.exitRoot
    split
    · exact ⟨sound.problems, sound.dropped⟩
    · exact ⟨sound.problems, sound.dropped⟩
    · exact ⟨sound.problems, sound.dropped⟩

end Elements

namespace TextRun

theorem lies_part (placed : node.Placed source) (around : Surroundings) :
    (part around node).Lies source := by
  unfold part
  split
  · exact lies_pure _
  · split
    · exact lies_pure _
    · exact (around.lies_resolve placed.span _).map _
  · exact lies_pure _

theorem placed_write {run : Run} (placed : ∀ node ∈ run.first :: run.rest, node.Placed source)
    (sound : progress.Placed source) (around : Surroundings) (fastPath : Bool) :
    (write around fastPath progress run).Placed source := by
  unfold write
  split
  · have parts := lies_mapM fun node member => lies_part (placed node member) around
    exact (sound.absorb parts).setCode _ _
  · exact sound

theorem placed_foldl {found : List Run}
    (placed : ∀ run ∈ found, ∀ node ∈ run.first :: run.rest, node.Placed source)
    (sound : progress.Placed source) (around : Surroundings) (fastPath : Bool) :
    (found.foldl (write around fastPath) progress).Placed source := by
  induction found generalizing progress with
  | nil => exact sound
  | cons run rest ih =>
    obtain ⟨own, others⟩ := List.forall_mem_cons.mp placed
    exact ih others (placed_write own sound around fastPath)

/-- The first nodes of the runs are some of the nodes, in order; so are the other ones. -/
theorem sublist_runs (found : List Run) :
    (found.map (·.first)).Sublist (found.flatMap fun run => run.first :: run.rest) ∧
      (found.flatMap (·.rest)).Sublist (found.flatMap fun run => run.first :: run.rest) := by
  induction found with
  | nil => exact ⟨.slnil, .slnil⟩
  | cons run rest ih =>
    obtain ⟨first, others⟩ := ih
    simp only [List.map_cons, List.flatMap_cons, List.cons_append]
    exact ⟨(first.trans (List.sublist_append_right _ _)).cons_cons _,
      ((List.Sublist.refl _).append others).cons _⟩

theorem places_merge {children : List Node} (placed : Node.AllPlaced source children)
    (sound : progress.Placed source) (around : Surroundings) (takesText : Bool) :
    Node.AllPlaced source (merge around takesText children progress).1 ∧
      (merge around takesText children progress).2.Placed source := by
  obtain ⟨first, others⟩ := sublist_runs (runs children)
  rw [flatMap_runs] at first others
  refine ⟨placed.sublist first, ?_⟩
  have written := @placed_foldl source progress (runs children) (fun run member node inside => ?_)
    sound around (takesText && (runs children).length = 1)
  · exact written.drop (placed.sublist others).allLie
  · refine placed.each node ?_
    rw [← flatMap_runs children]
    exact List.mem_flatMap.mpr ⟨run, member, inside⟩

theorem places_exit (placed : node.Placed source) (sound : progress.Placed source) (site : Site) :
    ((exit node site progress).1.Placed source ∧ (exit node site progress).1.span = node.span) ∧
      (exit node site progress).2.Placed source := by
  unfold exit
  split
  · obtain ⟨children, kept⟩ := places_merge placed.children sound (progress.surroundings site) _
    exact ⟨⟨placed.withChildren children, rfl⟩, kept⟩
  · exact ⟨⟨placed, rfl⟩, sound⟩

theorem places : TextRun.pass.Places source where
  enter focused placed sound enters := by
    cases enters
    exact ⟨Site.leadsTo_self placed, sound⟩
  exit _ _ site _ placed sound := places_exit placed sound site
  exitRoot placed sound := places_merge placed sound _ _

end TextRun

namespace Conditional

structure Conditioned.Placed (source : String) (given : Node) (taken : Conditioned) : Prop where
  placed : taken.node.Placed source
  span : taken.node.span = given.span
  condition : ∀ value ∈ taken.condition, value.span.Lies source
  problems : ProblemsLie source taken.problems

theorem placed_takeCondition (placed : node.Placed source) (name : String) :
    (takeCondition node name).Placed source node := by
  have rest := placed.withoutDirective (· == name)
  have same := node.withProperties_span (node.properties.takeDirective (· == name)).2
  unfold takeCondition
  simp only
  split
  · exact ⟨rest, same, by rintro _ ⟨⟩, List.forall_mem_nil _⟩
  · next directive found =>
    have lies := placed.directive found
    split
    · next problem empty =>
      have inside := lies.emptyProblem? empty
      refine ⟨rest, same, ?_, problemsLie_singleton.mpr inside⟩
      rintro value ⟨⟩
      exact inside
    · exact ⟨rest, same, lies.expression, List.forall_mem_nil _⟩

/-- The alternatives come from the nodes: those found begin in order, and so does the rest. -/
structure Alternatives.Placed (source : String) (nodes : List Node) (given : Alternatives) :
    Prop where
  found : ∀ alternative ∈ given.found, alternative.node.Placed source ∧
    alternative.branch.Lies source ∧ alternative.branch.span = alternative.node.span
  starts : (given.found.map (·.node.span.start.offset)).Sublist
    (nodes.map (·.span.start.offset))
  dropped : Node.AllLie source given.dropped
  rest : given.rest.Sublist nodes
  problems : ProblemsLie source given.problems

theorem placed_alternativeOf {taken : Conditioned} (placed : taken.Placed source node) (key : Nat) :
    (alternativeOf taken key).node.Placed source ∧ (alternativeOf taken key).branch.Lies source ∧
      (alternativeOf taken key).branch.span = (alternativeOf taken key).node.span :=
  ⟨placed.placed, ⟨placed.condition, placed.placed.span⟩, rfl⟩

theorem placed_collect (key : Nat) (skipped : List Node) {nodes : List Node}
    (placed : Node.AllPlaced source (skipped ++ nodes)) :
    (collect key skipped nodes).Placed source (skipped ++ nodes) := by
  induction nodes generalizing key skipped with
  | nil =>
    exact ⟨List.forall_mem_nil _, List.nil_sublist _, Node.every_nil, by simp [collect],
      List.forall_mem_nil _⟩
  | cons node nodes ih =>
    have own : node.Placed source := placed.each node (by simp)
    have front := placed.sublist (List.sublist_append_left skipped (node :: nodes))
    have behind : (node :: nodes).Sublist (skipped ++ node :: nodes) :=
      List.sublist_append_right _ _
    have starts := behind.map (·.span.start.offset)
    simp only [collect]
    split
    · have later := ih key (skipped ++ [node]) (by simpa using placed)
      rwa [List.append_assoc] at later
    · split
      · have taken := placed_takeCondition own "else-if"
        have later := ih (key + 1) [] (placed.sublist ((List.sublist_cons_self _ _).trans behind))
        refine ⟨List.forall_mem_cons.mpr ⟨placed_alternativeOf taken key, later.found⟩, ?_, ?_, ?_, ?_⟩
        · rw [List.map_cons, alternativeOf, taken.span]
          exact (later.starts.cons_cons _).trans starts
        · exact Node.every_append.mpr ⟨front.allLie, later.dropped⟩
        · exact (later.rest.cons node).trans behind
        · exact problemsLie_append.mpr ⟨taken.problems, later.problems⟩
      · split
        · have taken := placed_takeCondition own "else"
          have last : ({ takeCondition node "else" with condition := none } : Conditioned).Placed
              source node :=
            ⟨taken.placed, taken.span, by rintro _ ⟨⟩, taken.problems⟩
          refine ⟨List.forall_mem_singleton.mpr (placed_alternativeOf last key), ?_, front.allLie,
            (List.sublist_cons_self _ _).trans behind, List.forall_mem_nil _⟩
          rw [List.map_singleton, alternativeOf, last.span]
          exact ((List.nil_sublist _).cons_cons _).trans starts
        · exact ⟨List.forall_mem_nil _, List.nil_sublist _, Node.every_nil, .refl _,
            List.forall_mem_nil _⟩

theorem placed_others (placed : Node.AllPlaced source site.after) :
    (others site).Placed source site.after := by
  unfold others
  split
  · exact placed_collect _ [] placed
  · exact ⟨List.forall_mem_nil _, List.nil_sublist _, Node.every_nil, .refl _, List.forall_mem_nil _⟩

theorem lie_repeatedKeys (seen : SeenKeys) {nodes : List Node}
    (placed : ∀ node ∈ nodes, node.Placed source) : ProblemsLie source (repeatedKeys seen nodes) := by
  have reported {value : Value} (lies : value.span.Lies source) (isRepeated : Bool) :
      ProblemsLie source (repeatedKeys.report isRepeated value) := by
    unfold repeatedKeys.report
    split
    · exact problemsLie_singleton.mpr lies
    · exact List.forall_mem_nil _
  fun_induction repeatedKeys seen nodes with
  | case1 => exact List.forall_mem_nil _
  | case2 seen node rest name value nameSpan span set later ih =>
    obtain ⟨own, others⟩ := List.forall_mem_cons.mp placed
    have lies := own.properties _ (List.mem_of_find?_eq_some set)
    exact problemsLie_append.mpr ⟨reported (lies.value value rfl) _, ih others⟩
  | case3 seen node rest name argument modifiers value headSpan span set later ih =>
    obtain ⟨own, others⟩ := List.forall_mem_cons.mp placed
    have lies := own.properties _ (List.mem_of_find?_eq_some set)
    exact problemsLie_append.mpr ⟨reported (lies.expression value rfl) _, ih others⟩
  | case4 seen node rest _ _ ih => exact ih (List.forall_mem_cons.mp placed).2

/-- A conditional begins with its first branch and ends with its last one. -/
theorem placed_grouped (placed : Node.AllPlaced source (node :: site.after)) (number : NodeId) :
    (grouped node site number).Placed source := by
  obtain ⟨own, -⟩ := List.forall_mem_cons.mp placed.each
  have behind := placed_others (placed.sublist (List.sublist_cons_self node site.after))
  have first := placed_takeCondition own "if"
  have branches : ∀ alternative ∈ alternativeOf (takeCondition node "if") (firstKey site) ::
      (others site).found, alternative.node.Placed source ∧ alternative.branch.Lies source ∧
        alternative.branch.span = alternative.node.span :=
    List.forall_mem_cons.mpr ⟨placed_alternativeOf first (firstKey site), behind.found⟩
  have starts : ((grouped node site number).children.map (·.span.start.offset)).Sublist
      ((node :: site.after).map (·.span.start.offset)) := by
    simp only [grouped, alternativeOf, List.map_cons, List.map_map, first.span]
    exact behind.starts.cons_cons _
  refine .intro ?_ ?_ (List.Pairwise.sublist starts placed.sorted) ?_
  · exact List.forall_mem_map.mpr fun alternative member => (branches alternative member).2.1
  · simp only [grouped, Span.join]
    cases ending : (others site).found.getLast? with
    | none => exact own.span
    | some last =>
      have member := List.mem_of_getLast? ending
      obtain ⟨inside, -, same⟩ := behind.found last member
      have later : last.node.span.start.offset ∈ site.after.map (·.span.start.offset) :=
        behind.starts.subset (List.mem_map_of_mem member)
      have ordered := (List.pairwise_cons.mp placed.sorted).1 _ later
      simp only [Option.map_some, Option.getD_some, same]
      exact Span.lies_of_ordered own.span.start inside.span.stop (ordered.trans inside.span.ordered)
  · exact List.forall_mem_map.mpr fun alternative member => (branches alternative member).1

theorem places_group (focused : site.focus = some node) (placed : Node.AllPlaced source site.nodes)
    (sound : progress.Placed source) :
    site.LeadsTo source (group node site progress).site ∧
      (group node site progress).progress.Placed source := by
  rw [Site.nodes_of_focus focused] at placed
  have own : node.Placed source := placed.each node (by simp)
  have onward := placed.sublist (List.sublist_append_right site.before.reverse (node :: site.after))
  have behind := placed_others (onward.sublist (List.sublist_cons_self node site.after))
  have grouped := placed_grouped onward progress.next
  constructor
  · have exchanged := placed.exchange grouped rfl
    exact ⟨exchanged.sublist ((List.Sublist.refl _).append (behind.rest.cons_cons _)), rfl⟩
  · have counted : { progress with next := progress.next + 1 }.Placed source :=
      ⟨sound.problems, sound.dropped⟩
    refine (counted.drop behind.dropped).report (problemsLie_append.mpr ⟨problemsLie_append.mpr
      ⟨(placed_takeCondition own "if").problems, behind.problems⟩, ?_⟩)
    exact lie_repeatedKeys {} grouped.children.each

theorem lies_links (around : Surroundings) {pairs : List (Branch × Node)}
    (lie : ∀ pair ∈ pairs, pair.1.Lies source) : (links around pairs).Lies source := by
  induction pairs with
  | nil => exact lies_pure _
  | cons pair rest ih =>
    obtain ⟨own, others⟩ := List.forall_mem_cons.mp lie
    obtain ⟨branch, child⟩ := pair
    refine (ih others).bind fun later => ?_
    simp only
    split
    · exact lies_pure _
    · next condition given => exact (around.lies_resolveValue (own.condition condition given)).map _

theorem placed_keyBranches (sound : progress.Placed source) (pairs : List (Branch × Node)) :
    (pairs.foldl (fun progress pair => keyBranch progress pair.1 pair.2) progress).Placed source := by
  induction pairs generalizing progress with
  | nil => exact sound
  | cons pair rest ih => exact ih ⟨sound.problems, sound.dropped⟩

theorem placed_exit (placed : node.Placed source) (sound : progress.Placed source) (site : Site) :
    (exit node site progress).Placed source := by
  have lies := placed.content
  unfold exit
  split
  · next branches same =>
    rw [same] at lies
    have pairs : ∀ pair ∈ branches.zip node.children, pair.1.Lies source :=
      fun pair member => lies pair.1 (List.of_mem_zip member).1
    have keyed := placed_keyBranches sound (branches.zip node.children)
    simp only
    split
    · exact keyed.absorb (lies_links _ pairs)
    · exact (keyed.absorb (lies_links _ pairs)).setCode _ _
  · exact sound

theorem places : Conditional.pass.Places source where
  enter {ordinal node site progress entrance} focused placed sound enters := by
    change Conditional.enter node site progress = .ok entrance at enters
    unfold Conditional.enter at enters
    split at enters
    · split at enters
      · cases enters
      · cases enters
        exact places_group focused placed sound
    · split at enters
      · cases enters
        exact ⟨Site.leadsTo_self placed, sound⟩
      · next directive found =>
        have own := Site.placed_focus placed focused
        have reported := sound.report (@problemsLie_singleton source
          { kind := .elseWithoutIf, span := directive.span } |>.mpr (own.directive found).span)
        simp only at enters
        split at enters
        · cases enters
          exact ⟨Site.leadsTo_remove placed, reported.drop own.allLie⟩
        · cases enters
          exact ⟨Site.leadsTo_self placed, reported⟩
  exit _ _ site _ placed sound := ⟨⟨placed, rfl⟩, placed_exit placed sound site⟩
  exitRoot placed sound := ⟨placed, sound⟩

end Conditional

theorem defaultPasses_places : ∀ pass ∈ defaultPasses, pass.Places source := by
  simp only [defaultPasses, List.forall_mem_cons]
  exact ⟨Once.places, Conditional.places, Loops.places, Memo.places, Elements.places,
    TextRun.places, List.forall_mem_nil _⟩

theorem Plan.template_hoist (plan : Plan) : plan.hoist.template = plan.template := by
  unfold hoist
  generalize staticElementsAll plan.table plan.marks plan.template.roots = moved
  induction moved generalizing plan with
  | nil => rfl
  | cons id rest ih =>
    rw [List.foldl_cons, ih]
    unfold hoistNode
    split
    · rfl
    · rfl

/-- Lowering leaves everything in its place, and reports problems at places in the source. -/
theorem lower_placed {option : LowerOption} {template : Template} {lowered : Lowered}
    (placed : template.Placed source) (lowers : lower option template = .ok lowered) :
    lowered.plan.template.Placed source ∧ ProblemsLie source lowered.problems := by
  obtain ⟨roots, progress, walks, _, rfl⟩ := walk_of_lowerWith lowers
  have start : (option.start template).Placed source := ⟨List.forall_mem_nil _, Node.every_nil⟩
  obtain ⟨own, kept⟩ := walk_places defaultPasses_places placed.roots start walks
  refine ⟨?_, kept.problems⟩
  have planned : (planOf template roots progress).template.Placed source :=
    ⟨own, Node.every_append.mpr ⟨placed.dropped, kept.dropped⟩, placed.span⟩
  change Template.Placed source (if option.hoistStatic then (planOf template roots progress).hoist
    else planOf template roots progress).template
  split
  · rwa [Plan.template_hoist]
  · exact planned

end TemplateCompiler
