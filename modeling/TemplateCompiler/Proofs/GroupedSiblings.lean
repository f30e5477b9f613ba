import TemplateCompiler.Proofs.LoweringStages
import TemplateCompiler.Proofs.WalkShapes

/-! Grouping along a walk. Each step of a walk over siblings does what grouping says of the node in
front, with the keys counted over the finished nodes, so that the whole walk groups the siblings of
every element it visits. -/

namespace TemplateCompiler

variable {around : Surroundings} {ancestors : List NodeId} {hasSiblings : Bool} {stage : Nat}
  {node current : Node} {done todo : List Node} {before : Progress} {entered : Entered}

/-- Only texts are merged when a node is left. -/
theorem exitAll_other {exits : List (Nat × Pass)} (known : ∀ exit ∈ exits, exit.2 ∈ defaultPasses)
    {node : Node} (other : node.isElement = false) (site : Site) (progress : Progress) :
    (exitAll node site progress exits).1 = node := by
  have keeps : ∀ pass ∈ defaultPasses, ∀ ordinal site progress,
      (pass.exit ordinal node site progress).1 = node := by
    obtain ⟨id, content, span, children⟩ := node
    simp only [defaultPasses, List.forall_mem_cons]
    refine ⟨fun _ _ _ => rfl, fun _ _ _ => rfl, fun _ _ _ => rfl, fun _ _ _ => rfl,
      fun _ _ _ => rfl, fun _ _ _ => ?_, List.forall_mem_nil _⟩
    cases content with
    | element => cases other
    | _ => rfl
  induction exits generalizing progress with
  | nil => rfl
  | cons exit rest ih =>
    obtain ⟨own, others⟩ := List.forall_mem_cons.mp known
    rw [exitAll, keeps exit.2 own]
    exact ih others _

theorem exitAll_element (exits : ElementExits entered) {node : Node}
    (element : node.isElement = true) (site : Site) (progress : Progress) :
    (exitAll node site progress entered.exits).1 =
      { node with children := TextRun.merged node.children } := by
  obtain ⟨once, only, same⟩ := exits
  have kept (node : Node) (progress : Progress) : (exitAll node site progress once).1 = node := by
    clear same
    induction once generalizing progress with
    | nil => rfl
    | cons exit rest ih =>
      obtain ⟨own, others⟩ := List.forall_mem_cons.mp only
      rw [exitAll, own]
      exact ih others _
  rw [same, exitAll_append, kept]
  obtain ⟨id, content, span, children⟩ := node
  cases content with
  | element => rfl
  | _ => cases element

/-- The branches of the conditionals among finished siblings. -/
def branchTotal (done : List Node) : Nat :=
  (done.flatMap Node.branches).length

theorem branchTotal_cons (made : Node) (done : List Node) :
    branchTotal (made :: done) = made.branches.length + branchTotal done := by
  rw [branchTotal, List.flatMap_cons, List.length_append, branchTotal]

theorem Node.branchCount_eq (node : Node) : node.branchCount = node.branches.length := by
  obtain ⟨id, content, span, children⟩ := node
  cases content <;> rfl

theorem Conditional.firstKey_eq {site : Site} (several : site.hasSiblings = true) :
    firstKey site = branchTotal site.before := by
  have counted (count : Nat) (nodes : List Node) :
      nodes.foldl (fun count node => count + node.branchCount) count = count + branchTotal nodes := by
    induction nodes generalizing count with
    | nil => rfl
    | cons node nodes ih =>
      rw [List.foldl_cons, ih, branchTotal_cons, node.branchCount_eq, Nat.add_assoc]
  rw [firstKey, if_pos several, counted, Nat.zero_add]

theorem Conditional.others_alternate (site : Site) (several : site.hasSiblings = true) :
    Alternate (branchTotal site.before + 1) site.after (others site).found (others site).rest := by
  rw [others, if_pos several, firstKey_eq several]
  exact collect_alternate _ (List.forall_mem_nil _) site.after

theorem Conditional.grouped_eq (node : Node) (site : Site) (number : NodeId) :
    grouped node site number =
      { id := number
        content := .conditional
          (⟨node.test? "if", firstKey site, node.span⟩ :: (others site).found.map (·.branch))
        span := (grouped node site number).span
        children := node.without "if" :: (others site).found.map (·.node) } := by
  simp only [grouped, alternativeOf_takeCondition, List.map_cons]

/-- What a walk over `todo` makes of the nodes. Siblings are grouped; the first branch of a
conditional has been taken from among its siblings before, and a node that is repeated was wrapped
in its loop. -/
structure Rewrites (hasSiblings : Bool) (stage : Nat) (done todo out : List Node)
    (reports : List Problem) : Prop where
  siblings : stage = 0 → hasSiblings = true → Regroups (branchTotal done) todo out reports
  branches : stage = 0 → hasSiblings = false → done ≠ [] → Branches todo out reports
  chain : stage = 2 → hasSiblings = false → done = [] → ∀ first others, todo = first :: others →
    ∃ made more own inner, out = made :: more ∧ Becomes first made own ∧
      Branches others more inner ∧ reports = own ++ inner
  item : stage = 3 → hasSiblings = false → ∀ node, todo = [node] →
    ∃ made, out = [made] ∧ Stays node made reports

theorem Rewrites.unopened {hasSiblings : Bool} {done todo out : List Node} {reports : List Problem}
    (siblings : hasSiblings = true → Regroups (branchTotal done) todo out reports)
    (branches : hasSiblings = false → done ≠ [] → Branches todo out reports) :
    Rewrites hasSiblings 0 done todo out reports :=
  ⟨fun _ => siblings, fun _ => branches, nofun, nofun⟩

structure Deeper (ancestors : List NodeId) (current : Node) (entered : Entered) (below : Visited) :
    Prop where
  bare : current.children = [] → below = ⟨[], entered.progress⟩
  rewrites : ∀ within depth, (depth = 0 ∨ depth = 2 ∨ depth = 3) →
    entered.progress.Ready within (current.id :: ancestors) depth current.children →
    ∃ reports, below.progress.strays = entered.progress.strays ++ reports ∧
      Rewrites current.isElement depth [] current.children below.nodes reports

section Steps

variable {once : List (Nat × Pass)} {below : Visited}
  (outcome : Outcome around ancestors hasSiblings todo before once entered)
  (focused : entered.site.focus = some current)
  (known : ∀ exit ∈ entered.exits, exit.2 ∈ defaultPasses)
  (deeper : Deeper ancestors current entered below)

def leftOf (current : Node) (entered : Entered) (below : Visited) : Node :=
  (exitAll { current with children := below.nodes } entered.site below.progress entered.exits).1

omit outcome focused deeper in
include known in
theorem leftOf_other (other : current.isElement = false) :
    leftOf current entered below = { current with children := below.nodes } :=
  exitAll_other known (show ({ current with children := below.nodes } : Node).isElement = false
    from other) _ _

omit outcome focused deeper known in
theorem leftOf_element (exits : ElementExits entered) (element : current.isElement = true) :
    leftOf current entered below = { current with children := TextRun.merged below.nodes } :=
  exitAll_element exits (show ({ current with children := below.nodes } : Node).isElement = true
    from element) _ _

include outcome focused deeper

theorem Outcome.regroups_below (element : current.isElement = true) :
    ∃ own, below.progress.strays = entered.progress.strays ++ own ∧
      Regroups 0 current.children below.nodes own := by
  cases outcome with
  | gone unfocused => cases unfocused.symm.trans focused
  | leaf same bare =>
    cases same.symm.trans focused
    rw [deeper.bare bare, bare]
    exact ⟨[], (List.append_nil _).symm, .nil⟩
  | element same _ _ _ _ inner =>
    cases same.symm.trans focused
    obtain ⟨own, strays, rewrites⟩ := deeper.rewrites _ 0 (.inl rfl) inner
    exact ⟨own, strays, rewrites.siblings rfl rfl⟩
  | conditional same | loop same =>
    cases same.symm.trans focused
    cases element

include known

theorem Outcome.stays_left (same : current = node.without "memo") (parsed : node.Parsed)
    (exits : current.isElement = true → ElementExits entered) :
    ∃ own, below.progress.strays = entered.progress.strays ++ own ∧
      Stays node (leftOf current entered below) own := by
  have kind : current.isElement = node.isElement := by
    rw [same, Node.without, Node.isElement_withProperties]
  cases element : current.isElement with
  | true =>
    obtain ⟨own, strays, regroups⟩ := outcome.regroups_below focused deeper element
    refine ⟨own, strays, ?_⟩
    rw [same, Node.without, Node.withProperties_children] at regroups
    rw [leftOf_element (exits element) element, same]
    exact .element (kind.symm.trans element) regroups
  | false =>
    have other := kind.symm.trans element
    have leaf : (node.isTextLike || node.isComment) = true ∧ node.children = [] := by
      cases parsed with
      | element => cases other
      | _ => exact ⟨rfl, rfl⟩
    rw [Node.without_of_other other] at same
    subst same
    refine ⟨[], ?_, ?_⟩
    · rw [deeper.bare leaf.2, List.append_nil]
    · have kept : ({ current with children := [] } : Node) = current := by
        obtain ⟨id, content, span, children⟩ := current
        cases leaf.2
        rfl
      rw [leftOf_other known element, deeper.bare leaf.2, kept]
      exact .leaf leaf.1 leaf.2

theorem Outcome.becomes_left (opens : Opens node current) (parsed : node.Parsed)
    (exits : current.isElement = true → ElementExits entered) :
    ∃ own, below.progress.strays = entered.progress.strays ++ own ∧
      Becomes node (leftOf current entered below) own := by
  generalize given : current = made at opens
  cases opens with
  | stays unrepeated =>
    obtain ⟨own, strays, stays⟩ := outcome.stays_left focused known deeper given parsed exits
    exact ⟨own, strays, .stays unrepeated (given ▸ stays)⟩
  | placeholder repeated =>
    subst given
    refine ⟨[], ?_, ?_⟩
    · rw [deeper.bare rfl, List.append_nil]
    · rw [leftOf_other known rfl, deeper.bare rfl]
      exact .placeholder repeated
  | loop repeated =>
    subst given
    cases outcome with
    | gone unfocused => cases unfocused.symm.trans focused
    | leaf same bare =>
      cases same.symm.trans focused
      cases bare
    | element same | conditional same => cases same.symm.trans focused
    | loop same _ _ _ _ inner =>
      cases same.symm.trans focused
      obtain ⟨own, strays, rewrites⟩ := deeper.rewrites _ 3 (.inr (.inr rfl)) inner
      obtain ⟨child, only, stays⟩ := rewrites.item rfl rfl _ rfl
      refine ⟨own, strays, ?_⟩
      rw [leftOf_other known rfl, only]
      exact .loop repeated stays

theorem Outcome.branches_left {site : Site} {number : NodeId}
    (same : current = Conditional.grouped node site number) :
    ∃ own inner first made, below.progress.strays = entered.progress.strays ++ (own ++ inner) ∧
      Becomes (node.without "if") first own ∧
      Branches ((Conditional.others site).found.map (·.node)) made inner ∧
      leftOf current entered below = { current with children := first :: made } := by
  subst same
  cases outcome with
  | gone unfocused => cases unfocused.symm.trans focused
  | leaf given bare =>
    cases given.symm.trans focused
    cases bare
  | element given | loop given => cases given.symm.trans focused
  | conditional given _ _ _ _ inner =>
    cases given.symm.trans focused
    obtain ⟨reports, strays, rewrites⟩ := deeper.rewrites _ 2 (.inr (.inl rfl)) inner
    obtain ⟨first, made, own, inner, only, becomes, branches, rfl⟩ :=
      rewrites.chain rfl rfl rfl _ _ rfl
    refine ⟨own, inner, first, made, strays, ?_, branches, ?_⟩
    · rwa [Conditional.alternativeOf_takeCondition] at becomes
    · rw [leftOf_other known rfl, only]

variable {rest out : List Node} {reports : List Problem}
  (later : Rewrites hasSiblings 0 (leftOf current entered below :: done) entered.site.after out
    reports)

include later

theorem Shape.rewrites (shape : Shape ancestors hasSiblings done node rest before entered)
    (parsed : node.Parsed) :
    ∃ noted, below.progress.strays ++ reports = before.strays ++ noted ∧
      Rewrites hasSiblings 0 done (node :: rest) (leftOf current entered below :: out) noted := by
  cases shape with
  | stray _ _ _ _ site => cases (congrArg Site.focus site).symm.trans focused
  | stays untested plain opens site exits strays =>
    cases (congrArg Site.focus site).symm.trans focused
    obtain ⟨own, noted, becomes⟩ := outcome.becomes_left focused known deeper opens parsed exits
    refine ⟨node.strays ++ own ++ reports, ?_, .unopened (fun several => ?_) fun single _ => ?_⟩
    · rw [noted, strays, List.append_assoc, List.append_assoc, List.append_assoc]
    · have others := later.siblings rfl several
      rw [site, branchTotal_cons, becomes.branches, List.length_nil, Nat.zero_add] at others
      rw [node.strays_eq_nil_iff.mpr (plain several), List.nil_append]
      exact .kept untested (plain several) becomes others
    · have others := later.branches rfl single (List.cons_ne_nil _ _)
      rw [site] at others
      exact .cons becomes others
  | @chain number tested place site strays =>
    have same := (Option.some.inj ((congrArg Site.focus site).symm.trans focused)).symm
    obtain ⟨own, inner, first, made, noted, becomes, branches, left⟩ :=
      outcome.branches_left focused known deeper same
    refine ⟨own ++ inner ++ reports, ?_, .unopened (fun several => ?_) fun single some => ?_⟩
    · rw [noted, strays, List.append_assoc, List.append_assoc]
    · have others := later.siblings rfl several
      subst several
      have follow := Conditional.others_alternate ⟨ancestors, true, done, some node, rest⟩ rfl
      have key : Conditional.firstKey ⟨ancestors, true, done, some node, rest⟩ = branchTotal done :=
        Conditional.firstKey_eq rfl
      rw [left, same, Conditional.grouped_eq, key] at others ⊢
      have counted (found : List Conditional.Alternative) :
          found.length + 1 + branchTotal done = branchTotal done + 1 + found.length := by
        omega
      rw [site, branchTotal_cons, Node.branches, List.length_cons, List.length_map, counted] at others
      exact .chain tested follow becomes branches others
    · rcases place with several | empty
      · cases single.symm.trans several
      · exact absurd empty some

theorem Opens.rewrites (opens : Opens node current) (parsed : node.Parsed)
    (exits : current.isElement = true → ElementExits entered)
    (site : entered.site = ⟨ancestors, hasSiblings, done, some current, rest⟩)
    (strays : entered.progress.strays = before.strays) :
    ∃ noted, below.progress.strays ++ reports = before.strays ++ noted ∧
      Rewrites hasSiblings 2 done (node :: rest) (leftOf current entered below :: out) noted := by
  obtain ⟨own, noted, becomes⟩ := outcome.becomes_left focused known deeper opens parsed exits
  refine ⟨own ++ reports, ?_, nofun, nofun, fun _ single _ first others given => ?_, nofun⟩
  · rw [noted, strays, List.append_assoc]
  · cases given
    have behind := later.branches rfl single (List.cons_ne_nil _ _)
    rw [site] at behind
    exact ⟨_, out, own, reports, rfl, becomes, behind, rfl⟩

theorem Outcome.rewrites_item (same : current = node.without "memo") (parsed : node.Parsed)
    (exits : current.isElement = true → ElementExits entered)
    (site : entered.site = ⟨ancestors, hasSiblings, done, some current, rest⟩)
    (strays : entered.progress.strays = before.strays) :
    ∃ noted, below.progress.strays ++ reports = before.strays ++ noted ∧
      Rewrites hasSiblings 3 done (node :: rest) (leftOf current entered below :: out) noted := by
  obtain ⟨own, noted, stays⟩ := outcome.stays_left focused known deeper same parsed exits
  refine ⟨own ++ reports, ?_, nofun, nofun, nofun, fun _ single other only => ?_⟩
  · rw [noted, strays, List.append_assoc]
  · cases only
    have behind := later.branches rfl single (List.cons_ne_nil _ _)
    rw [site] at behind
    cases behind
    exact ⟨_, rfl, by rwa [List.append_nil]⟩

end Steps

theorem visitAll_rewrites {visited : Visited} (ready : before.Ready around ancestors stage todo)
    (staged : stage = 0 ∨ stage = 2 ∨ stage = 3)
    (walked : visitAll defaultPasses ancestors hasSiblings done todo before = .ok visited) :
    ∃ out reports, visited.nodes = done.reverse ++ out ∧
      visited.progress.strays = before.strays ++ reports ∧
      Rewrites hasSiblings stage done todo out reports := by
  fun_induction visitAll defaultPasses ancestors hasSiblings done todo before
    generalizing around stage visited with
  | case1 ancestors hasSiblings done progress =>
    cases walked
    refine ⟨[], [], (List.append_nil _).symm, (List.append_nil _).symm, fun _ _ => .nil,
      fun _ _ _ => .nil, ?_, ?_⟩
    · rintro _ _ _ first others ⟨⟩
    · rintro _ _ node ⟨⟩
  | case2 => cases walked
  | case3 ancestors hasSiblings done progress node rest entered enters unfocused ih =>
    obtain ⟨rfl, visits⟩ := visits_gone ready staged enters unfocused
    obtain ⟨out, reports, same, strays, rewrites⟩ := ih (visits.ready ready) (.inl rfl) walked
    cases enterAll_zeroth_shape ready enters with
    | chain _ _ site => cases (congrArg Site.focus site).symm.trans unfocused
    | stays _ _ _ site => cases (congrArg Site.focus site).symm.trans unfocused
    | @stray problem untested alternative several reported site noted =>
      refine ⟨out, problem :: reports, same, ?_, .unopened (fun _ => ?_) fun single => ?_⟩
      · rw [strays, noted, List.append_assoc]
        rfl
      · have later := rewrites.siblings rfl several
        rw [site] at later
        exact .stray untested alternative reported later
      · cases several.symm.trans single
  | case4 => cases walked
  | case5 ancestors hasSiblings done progress node rest entered enters current focused below
      walkedBelow left ihBelow =>
    rename_i ihRest
    obtain ⟨once, exits, outcome⟩ := enterAll_outcome ready staged enters
    have known : ∀ exit ∈ entered.exits, exit.2 ∈ defaultPasses := enterAll_exits enters
    have deeper : Deeper ancestors current entered below := by
      constructor
      · intro leaf
        rw [leaf, visitAll] at walkedBelow
        exact (Except.ok.inj walkedBelow).symm
      · intro within depth staged inner
        obtain ⟨out, reports, same, strays, rewrites⟩ := ihBelow inner staged walkedBelow
        rw [List.reverse_nil, List.nil_append] at same
        exact ⟨reports, strays, same ▸ rewrites⟩
    have visits := visits_left ready staged enters focused walkedBelow
    obtain ⟨out, reports, same, strays, rewrites⟩ :=
      ihRest (visits.ready ready) (.inl rfl) walked
    have kept : left.2.strays = below.progress.strays := strays_exitAll known _ _ _
    rw [kept] at strays
    rw [List.reverse_cons, List.append_assoc, List.singleton_append] at same
    have parsed := ready.parsed node List.mem_cons_self
    have stepped : ∃ noted, below.progress.strays ++ reports = progress.strays ++ noted ∧
        Rewrites hasSiblings stage done (node :: rest) (left.1 :: out) noted := by
      rcases staged with rfl | rfl | rfl
      · exact (enterAll_zeroth_shape ready enters).rewrites outcome focused known deeper rewrites
          parsed
      · obtain ⟨opened, opens, site, exits, noted⟩ := enterAll_branch_shape ready enters
        cases (congrArg Site.focus site).symm.trans focused
        exact opens.rewrites outcome focused known deeper rewrites parsed exits site noted
      · obtain ⟨site, exits, noted⟩ := enterAll_item_shape ready enters
        cases (congrArg Site.focus site).symm.trans focused
        exact outcome.rewrites_item focused known deeper rewrites rfl parsed exits site noted
    obtain ⟨noted, balance, all⟩ := stepped
    exact ⟨left.1 :: out, noted, same, strays.trans balance, all⟩

theorem strays_exitRootAll (roots : List Node) (progress : Progress) :
    (exitRootAll roots progress defaultPasses).2.strays = progress.strays :=
  (Elements.strays_exitRoot _ _).trans (TextRun.strays_merge _ true roots progress)

/-- Grouping made the final tree of the given one. -/
structure Lowered.GroupsSiblings (template : Template) (lowered : Lowered) : Prop where
  /-- The reports are those of grouping the root and what is below it, one after another. -/
  roots : Grouped template.roots lowered.plan.template.roots
    (lowered.problems.filter (·.kind = .elseWithoutIf))
  /-- The children of every element that is left were grouped. -/
  elements : Inherited template.roots lowered.plan.template.roots

/-- Whatever was parsed, lowering groups the siblings at the root and in every element. -/
theorem lower_groupsSiblings {parsing : ParseOption} {lowering : LowerOption} {reading : Scan}
    {template : Template} {problems : List Problem} {lowered : Lowered}
    (parsed : parse parsing reading = .ok (template, problems))
    (lowers : lower lowering template = .ok lowered) : lowered.GroupsSiblings template := by
  have numbered := numbered_of_parse parsed
  obtain ⟨roots, progress, walked, _, rfl⟩ := walk_of_lowerWith lowers
  have final := (stages_of_walked (walk_walked numbered walked)).roots_eq
  obtain ⟨visited, visiting, left⟩ := ok_of_map_eq_ok walked
  obtain ⟨out, reports, same, strays, rewrites⟩ :=
    visitAll_rewrites (numbered.ready lowering) (.inl rfl) visiting
  rw [List.reverse_nil, List.nil_append] at same
  have regroups : Regroups 0 template.roots out reports := rewrites.siblings rfl rfl
  have merged : roots = TextRun.merged out := by
    rw [← same]
    exact (congrArg Prod.fst left).symm
  have reported : progress.strays = reports := by
    have kept := strays_exitRootAll visited.nodes visited.progress
    rw [left, strays] at kept
    exact kept
  constructor
  · change Grouped _ _ progress.strays
    rw [final, merged, reported]
    exact regroups.grouped
  · rw [final, merged]
    exact regroups.inherited.merged

/-- A chain with a comment and blank text in between, an alternative too many, a second chain that
a word ends, and a third one inside of an element. -/
def chainedSource : String :=
  "<p v-if=\"a\"/> <!--b--><p v-else-if=\"c\" v-for=\"d in e\"/><i v-else/><b v-else/>" ++
    "<u v-if=\"f\"/>g<s v-else/><div><q v-if/><em v-else/></div>"

theorem lower_groupsSiblings_chained : ∃ template problems lowered,
    parse {} (scan {} chainedSource) = .ok (template, problems) ∧
      lower {} template = .ok lowered ∧
      ((lowered.plan.template.roots.flatMap Node.branches).map (·.key) = [0, 1, 2, 3] ∧
        (lowered.problems.filter (·.kind = .elseWithoutIf)).length = 2) ∧
      lowered.GroupsSiblings template := by
  have succeeds : ((parse {} (scan {} chainedSource)).bind fun parsed =>
      lower {} parsed.1).toOption.any (fun lowered =>
        decide ((lowered.plan.template.roots.flatMap Node.branches).map (·.key) = [0, 1, 2, 3] ∧
          (lowered.problems.filter (·.kind = .elseWithoutIf)).length = 2)) = true := by
    decide +kernel
  obtain ⟨template, problems, lowered, parsed, lowers, shape⟩ := exists_lowered succeeds
  exact ⟨template, problems, lowered, parsed, lowers, of_decide_eq_true shape,
    lower_groupsSiblings parsed lowers⟩

end TemplateCompiler
