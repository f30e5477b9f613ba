import TemplateCompiler.Proofs.Lineage
import TemplateCompiler.Proofs.WalkGrouping

/-! A walk does not fail. The one thing that could go wrong is a condition on a branch behind the
first one, which has no siblings to look for alternatives among. Such a branch was an alternative
before, so a walk is safe as long as no element is an alternative and has a condition. -/

namespace TemplateCompiler

namespace Node

def isConditioned (node : Node) : Bool :=
  node.properties.hasDirective "if"

/-- The element follows a condition as an alternative. -/
def isAlternative (node : Node) : Bool :=
  node.properties.hasDirective "else" || node.properties.hasDirective "else-if"

/-- The node is not both, and among children that are no siblings only the first has a
condition. -/
structure Tame (node : Node) : Prop where
  apart : (node.isConditioned && node.isAlternative) = false
  first : node.isElement = false → ∀ child ∈ node.children.tail, child.isConditioned = false

/-- All that is below a node is tame. -/
def Calm (node : Node) : Prop :=
  ∀ inner ∈ node.flatten, inner.Tame

variable {node : Node}

theorem exists_of_mem_flattenAll {nodes : List Node} {inner : Node}
    (member : inner ∈ flattenAll nodes) : ∃ node ∈ nodes, inner ∈ node.flatten := by
  induction nodes with
  | nil => cases member
  | cons node rest ih =>
    rcases List.mem_append.mp member with here | later
    · exact ⟨node, List.mem_cons_self, here⟩
    · obtain ⟨other, present, inside⟩ := ih later
      exact ⟨other, List.mem_cons_of_mem _ present, inside⟩

theorem calm_iff : node.Calm ↔ node.Tame ∧ ∀ child ∈ node.children, child.Calm := by
  unfold Calm
  rw [flatten_eq, List.forall_mem_cons]
  refine and_congr_right fun _ => ⟨?_, ?_⟩
  · intro below child member inner inside
    exact below inner (flatten_subset_flattenAll member inner inside)
  · intro below inner member
    obtain ⟨child, present, inside⟩ := exists_of_mem_flattenAll member
    exact below child present inner inside

theorem isConditioned_of_not_element (other : node.isElement = false) :
    node.isConditioned = false := by
  cases conditioned : node.isConditioned with
  | false => rfl
  | true => exact absurd (isElement_of_hasDirective conditioned) (by simp [other])

theorem tame_of_not_element (other : node.isElement = false)
    (first : ∀ child ∈ node.children.tail, child.isConditioned = false) : node.Tame := by
  refine ⟨?_, fun _ => first⟩
  rw [isConditioned_of_not_element other, Bool.false_and]

def Sheds (node : Node) (properties : Properties) : Prop :=
  ∀ name, properties.hasDirective name = true → node.properties.hasDirective name = true

theorem sheds_takeDirective (node : Node) (names : String → Bool) :
    node.Sheds (node.properties.takeDirective names).2 := by
  intro name present
  rw [Properties.hasDirective_eq_any, List.any_eq_true] at present ⊢
  obtain ⟨property, member, directs⟩ := present
  exact ⟨property, List.eraseP_subset member, directs⟩

theorem Sheds.hasDirective {properties : Properties} {name : String} (sheds : node.Sheds properties)
    (present : (node.withProperties properties).properties.hasDirective name = true) :
    node.properties.hasDirective name = true := by
  have element := isElement_of_hasDirective present
  rw [isElement_withProperties] at element
  rw [properties_withProperties element] at present
  exact sheds name present

theorem Sheds.isConditioned {properties : Properties} (sheds : node.Sheds properties)
    (plain : node.isConditioned = false) :
    (node.withProperties properties).isConditioned = false := by
  cases conditioned : (node.withProperties properties).isConditioned with
  | false => rfl
  | true => exact absurd (sheds.hasDirective conditioned) (by simpa [Node.isConditioned] using plain)

theorem Calm.withProperties {properties : Properties} (calm : node.Calm)
    (sheds : node.Sheds properties) : (node.withProperties properties).Calm := by
  obtain ⟨tame, below⟩ := calm_iff.mp calm
  refine calm_iff.mpr ⟨⟨?_, ?_⟩, ?_⟩
  · cases both : ((node.withProperties properties).isConditioned &&
        (node.withProperties properties).isAlternative) with
    | false => rfl
    | true =>
      simp only [Node.isConditioned, isAlternative, Bool.and_eq_true, Bool.or_eq_true] at both
      have apart := tame.apart
      rw [Node.isConditioned, isAlternative, sheds.hasDirective both.1] at apart
      rcases both.2 with other | other
      · rw [sheds.hasDirective other] at apart
        cases apart
      · rw [sheds.hasDirective other, Bool.or_true] at apart
        cases apart
  · rw [isElement_withProperties, withProperties_children]
    exact tame.first
  · rw [withProperties_children]
    exact below

end Node

/-- Among nodes that are no siblings only the first has a condition. -/
structure Site.Calm (site : Site) : Prop where
  focus : ∀ node ∈ site.focus, node.Calm
  after : ∀ node ∈ site.after, node.Calm
  first : site.hasSiblings = false → site.before ≠ [] →
    ∀ node ∈ site.focus, node.isConditioned = false
  others : site.hasSiblings = false → ∀ node ∈ site.after, node.isConditioned = false

/-- The place `later` is calm, and its list and the finished nodes are those of `site`. -/
structure Site.Leads (site later : Site) : Prop where
  calm : later.Calm
  hasSiblings : later.hasSiblings = site.hasSiblings
  before : later.before = site.before

namespace Site

variable {site : Site} {node : Node}

theorem Calm.leads (calm : site.Calm) : site.Leads site :=
  ⟨calm, rfl, rfl⟩

theorem Leads.trans {middle later : Site} (first : site.Leads middle)
    (second : middle.Leads later) : site.Leads later :=
  ⟨second.calm, second.hasSiblings.trans first.hasSiblings, second.before.trans first.before⟩

theorem Calm.replace {other : Node} (calm : site.Calm) (focused : site.focus = some node)
    (own : other.Calm) (plain : node.isConditioned = false → other.isConditioned = false) :
    site.Leads (site.replace other) := by
  refine ⟨⟨?_, calm.after, ?_, calm.others⟩, rfl, rfl⟩
  · rintro made ⟨⟩
    exact own
  · rintro alone started made ⟨⟩
    exact plain (calm.first alone started node focused)

theorem Calm.shed {properties : Properties} (calm : site.Calm) (focused : site.focus = some node)
    (sheds : node.Sheds properties) : site.Leads (site.replace (node.withProperties properties)) :=
  calm.replace focused ((calm.focus node focused).withProperties sheds) sheds.isConditioned

end Site

/-- Entering never fails at a calm place, and leaves it calm. -/
def Pass.Safe (pass : Pass) : Prop :=
  ∀ (ordinal : Nat) (node : Node) (site : Site) (progress : Progress), site.focus = some node →
    site.Calm → ∃ entrance, pass.enter ordinal node site progress = .ok entrance ∧
      site.Leads entrance.site

theorem Once.safe : Once.pass.Safe := by
  intro ordinal node site progress focused calm
  refine ⟨_, rfl, ?_⟩
  unfold Once.enter
  split
  · exact calm.leads
  · exact calm.leads

theorem Memo.safe : Memo.pass.Safe := by
  intro ordinal node site progress focused calm
  refine ⟨_, rfl, ?_⟩
  have shed := calm.shed focused (node.sheds_takeDirective (· == "memo"))
  unfold Memo.enter
  simp only
  split
  · exact calm.leads
  · split
    · exact shed
    · exact shed
    · split
      · exact shed
      · exact shed

theorem Elements.safe : Elements.pass.Safe := by
  intro ordinal node site progress focused calm
  refine ⟨_, rfl, ?_⟩
  unfold Elements.enter
  split
  · exact calm.leads
  · exact calm.leads
  · exact calm.leads

theorem TextRun.safe : TextRun.pass.Safe := by
  intro ordinal node site progress focused calm
  exact ⟨_, rfl, calm.leads⟩

namespace Loops

variable {node : Node} {site : Site} {progress : Progress}

theorem leads_degrade {other : Node} {problem : Problem} (focused : site.focus = some node)
    (calm : site.Calm) : site.Leads (degrade other site progress problem).site := by
  refine calm.replace focused ?_ fun _ => rfl
  exact Node.calm_iff.mpr ⟨Node.tame_of_not_element rfl (by simp), by simp⟩

theorem leads_wrap {other : Node} {ordinal : Nat} {expression : LoopExpression} {span : Span}
    (focused : site.focus = some node) (calm : site.Calm) (own : other.Calm) :
    site.Leads (wrap ordinal other site progress expression span).site := by
  refine calm.replace focused ?_ fun _ => rfl
  refine Node.calm_iff.mpr ⟨Node.tame_of_not_element rfl (by simp), ?_⟩
  intro child member
  rwa [List.mem_singleton.mp member]

theorem safe : Loops.pass.Safe := by
  intro ordinal node site progress focused calm
  refine ⟨_, rfl, ?_⟩
  have own := (calm.focus node focused).withProperties (node.sheds_takeDirective (· == "for"))
  unfold enter
  simp only
  split
  · exact calm.leads
  · split
    · exact leads_degrade focused calm
    · exact calm.leads
    · split
      · exact leads_wrap focused calm own
      · exact leads_degrade focused calm

end Loops

namespace Conditional

variable {node : Node} {site : Site} {progress : Progress}

theorem Calm.takeCondition (calm : node.Calm) (name : String) :
    (Conditional.takeCondition node name).node.Calm := by
  rw [node_takeCondition]
  exact calm.withProperties (node.sheds_takeDirective _)

theorem isConditioned_takeCondition {name : String} (calm : node.Calm)
    (alternative : node.isAlternative = true) :
    (Conditional.takeCondition node name).node.isConditioned = false := by
  have apart := (Node.calm_iff.mp calm).1.apart
  rw [alternative, Bool.and_true] at apart
  rw [node_takeCondition]
  exact (node.sheds_takeDirective _).isConditioned apart

theorem calm_collect (key : Nat) (skipped : List Node) {nodes : List Node}
    (calm : ∀ node ∈ nodes, node.Calm) :
    ∀ node ∈ (collect key skipped nodes).found.map (·.node),
      node.Calm ∧ node.isConditioned = false := by
  induction nodes generalizing key skipped with
  | nil => exact List.forall_mem_nil _
  | cons first nodes ih =>
    obtain ⟨own, others⟩ := List.forall_mem_cons.mp calm
    simp only [collect]
    split
    · exact ih key (skipped ++ [first]) others
    · split
      · next present =>
        refine List.forall_mem_cons.mpr ⟨⟨Calm.takeCondition own _, ?_⟩, ih (key + 1) [] others⟩
        exact isConditioned_takeCondition own (by simp [Node.isAlternative, present])
      · split
        · next present =>
          refine List.forall_mem_cons.mpr ⟨⟨Calm.takeCondition own _, ?_⟩, List.forall_mem_nil _⟩
          exact isConditioned_takeCondition own (by simp [Node.isAlternative, present])
        · exact List.forall_mem_nil _

theorem calm_others (calm : site.Calm) :
    ∀ node ∈ (others site).found.map (·.node), node.Calm ∧ node.isConditioned = false := by
  unfold others
  split
  · exact calm_collect _ _ calm.after
  · exact List.forall_mem_nil _

theorem leads_group (focused : site.focus = some node) (calm : site.Calm) :
    site.Leads (group node site progress).site := by
  have found := calm_others calm
  have first := Calm.takeCondition (calm.focus node focused) "if"
  have conditional : (grouped node site progress.next).Calm := by
    refine Node.calm_iff.mpr ⟨Node.tame_of_not_element rfl ?_, ?_⟩
    · exact fun child member => (found child member).2
    · exact List.forall_mem_cons.mpr ⟨first, fun child member => (found child member).1⟩
  refine ⟨⟨?_, ?_, ?_, ?_⟩, rfl, rfl⟩
  · rintro made ⟨⟩
    exact conditional
  · exact fun other member => calm.after other (rest_others_subset other member)
  · rintro alone started made ⟨⟩
    rfl
  · exact fun alone other member => calm.others alone other (rest_others_subset other member)

theorem safe : Conditional.pass.Safe := by
  intro ordinal node site progress focused calm
  change ∃ entrance, enter node site progress = .ok entrance ∧ _
  unfold enter
  split
  · next present =>
    -- the node would be a branch behind the first one
    have inside : (!site.hasSiblings && !site.before.isEmpty) = false := by
      cases alone : site.hasSiblings with
      | true => rfl
      | false =>
        cases started : site.before with
        | nil => rfl
        | cons previous others =>
          have plain := calm.first alone (by simp [started]) node focused
          rw [Node.isConditioned, present] at plain
          cases plain
    rw [inside]
    exact ⟨_, rfl, leads_group focused calm⟩
  · split
    · exact ⟨_, rfl, calm.leads⟩
    · simp only
      split
      · next several =>
        refine ⟨_, rfl, ?_⟩
        rw [Site.remove, if_pos several]
        refine ⟨⟨?_, calm.after, ?_, calm.others⟩, rfl, rfl⟩
        · rintro made ⟨⟩
        · rintro _ _ made ⟨⟩
      · exact ⟨_, rfl, calm.leads⟩

end Conditional

theorem defaultPasses_safe : ∀ pass ∈ defaultPasses, pass.Safe := by
  simp only [defaultPasses, List.forall_mem_cons]
  exact ⟨Once.safe, Conditional.safe, Loops.safe, Memo.safe, Elements.safe, TextRun.safe, by simp⟩

theorem enterAll_total {passes : List Pass} (safe : ∀ pass ∈ passes, pass.Safe) (ordinal : Nat)
    {site : Site} (calm : site.Calm) (progress : Progress) :
    ∃ entered, enterAll ordinal site progress passes = .ok entered ∧ site.Leads entered.site := by
  induction passes generalizing ordinal site progress with
  | nil => exact ⟨_, rfl, calm.leads⟩
  | cons pass rest ih =>
    obtain ⟨own, others⟩ := List.forall_mem_cons.mp safe
    unfold enterAll
    split
    · exact ⟨_, rfl, calm.leads⟩
    · next node focused =>
      split
      · exact ih others (ordinal + 1) calm progress
      · obtain ⟨entrance, enters, leads⟩ :=
          own ordinal node site (progress.markEntered ordinal node.id) focused calm
        obtain ⟨entered, later, further⟩ := ih others (ordinal + 1) leads.calm entrance.progress
        simp only [enters, later, Except.map]
        refine ⟨_, rfl, ?_⟩
        split
        · exact leads.trans further
        · exact leads.trans further

/-- The nodes `todo` may follow the finished nodes `before`. -/
structure CalmWalk (hasSiblings : Bool) (before todo : List Node) : Prop where
  calm : ∀ node ∈ todo, node.Calm
  started : hasSiblings = false → before ≠ [] → ∀ node ∈ todo, node.isConditioned = false
  others : hasSiblings = false → ∀ node ∈ todo.tail, node.isConditioned = false

theorem CalmWalk.site {hasSiblings : Bool} {before rest : List Node} {node : Node}
    (calm : CalmWalk hasSiblings before (node :: rest)) (ancestors : List NodeId) :
    Site.Calm ⟨ancestors, hasSiblings, before, some node, rest⟩ := by
  obtain ⟨own, others⟩ := List.forall_mem_cons.mp calm.calm
  refine ⟨?_, others, ?_, calm.others⟩
  · rintro made ⟨⟩
    exact own
  · rintro alone started made ⟨⟩
    exact calm.started alone started node List.mem_cons_self

theorem Site.Calm.onward {site : Site} (calm : site.Calm) (before : List Node) :
    CalmWalk site.hasSiblings before site.after := by
  refine ⟨calm.after, fun alone _ => calm.others alone, ?_⟩
  intro alone node member
  exact calm.others alone node (List.mem_of_mem_tail member)

theorem Node.Calm.downward {node : Node} (calm : node.Calm) :
    CalmWalk node.isElement [] node.children := by
  obtain ⟨tame, below⟩ := calm_iff.mp calm
  exact ⟨below, fun _ started => absurd rfl started, tame.first⟩

/-- A walk with safe passes over calm nodes comes to its end. -/
theorem visitAll_total {passes : List Pass} (safe : ∀ pass ∈ passes, pass.Safe)
    {ancestors : List NodeId} {hasSiblings : Bool} {before todo : List Node} {progress : Progress}
    (calm : CalmWalk hasSiblings before todo) :
    ∃ visited, visitAll passes ancestors hasSiblings before todo progress = .ok visited := by
  fun_induction visitAll passes ancestors hasSiblings before todo progress with
  | case1 => exact ⟨_, rfl⟩
  | case2 ancestors hasSiblings before progress node rest fault failed =>
    obtain ⟨entered, enters, -⟩ := enterAll_total safe 0 (calm.site ancestors) progress
    rw [failed] at enters
    cases enters
  | case3 ancestors hasSiblings before progress node rest entered enters unfocused ih =>
    obtain ⟨same, again, leads⟩ := enterAll_total safe 0 (calm.site ancestors) progress
    rw [enters] at again
    cases again
    have onward := leads.calm.onward before
    rw [leads.hasSiblings] at onward
    exact ih onward
  | case4 ancestors hasSiblings before progress node rest entered enters current focused fault
      failed ih =>
    obtain ⟨same, again, leads⟩ := enterAll_total safe 0 (calm.site ancestors) progress
    rw [enters] at again
    cases again
    obtain ⟨visited, walked⟩ := ih (leads.calm.focus current focused).downward
    rw [failed] at walked
    cases walked
  | case5 ancestors hasSiblings before progress node rest entered enters current focused below
      walked left ihBelow ih =>
    obtain ⟨same, again, leads⟩ := enterAll_total safe 0 (calm.site ancestors) progress
    rw [enters] at again
    cases again
    have onward := leads.calm.onward (left.1 :: before)
    rw [leads.hasSiblings] at onward
    exact ih onward

theorem Node.Parsed.calm {node : Node} (parsed : node.Parsed)
    (apart : ∀ inner ∈ node.flatten, (inner.isConditioned && inner.isAlternative) = false) :
    node.Calm := by
  induction parsed with
  | @element id element span children below ih =>
    rw [Node.flatten_eq, List.forall_mem_cons] at apart
    refine calm_iff.mpr ⟨⟨apart.1, fun other => (nomatch other)⟩, ?_⟩
    intro child member
    refine ih child member ?_
    exact fun inner inside => apart.2 inner (flatten_subset_flattenAll member inner inside)
  | text | interpolation | comment =>
    refine calm_iff.mpr ⟨tame_of_not_element rfl ?_, List.forall_mem_nil _⟩
    exact List.forall_mem_nil _

/-- A walk over a parsed template comes to its end. -/
theorem walk_total {template : Template} (numbered : template.Numbered)
    (apart : ∀ node ∈ Node.flattenAll template.roots,
      (node.isConditioned && node.isAlternative) = false) (progress : Progress) :
    ∃ done, walk defaultPasses template.roots progress = .ok done := by
  have calm : CalmWalk true [] template.roots := by
    refine ⟨?_, fun alone => (nomatch alone), fun alone => (nomatch alone)⟩
    intro node member
    refine (numbered.parsed node member).calm ?_
    exact fun inner inside => apart inner (Node.flatten_subset_flattenAll member inner inside)
  obtain ⟨visited, walked⟩ := visitAll_total defaultPasses_safe calm
  exact ⟨_, by rw [walk, walked]; rfl⟩

end TemplateCompiler
