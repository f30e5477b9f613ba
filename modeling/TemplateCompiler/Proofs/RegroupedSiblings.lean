import Mathlib.Data.List.Basic
import TemplateCompiler.Proofs.Lineage
import TemplateCompiler.Proofs.TextRuns
import TemplateCompiler.Proofs.WalkGrouping
import TemplateCompiler.Proofs.WalkTotality

/-! What lowering makes of siblings, told without the walk. Siblings are gone through in order. An
element with a condition and the alternatives that follow it become one conditional, an alternative
that follows no condition goes away with a report, and all other nodes stay in their places. -/

namespace TemplateCompiler

/-- The condition that a directive gives. An empty one always holds. -/
def Directive.test? (directive : Directive) : Option Value :=
  if directive.isEmpty then
    some
      { content := { raw := "true" }
        span := (directive.expression.map (·.span)).getD directive.headSpan }
  else directive.expression

namespace Node

def without (node : Node) (name : String) : Node :=
  node.withProperties (node.properties.takeDirective (· == name)).2

def test? (node : Node) (name : String) : Option Value :=
  (node.properties.findDirective? (· == name)).bind Directive.test?

/-- What may stand between a condition and its alternatives. -/
def isGap (node : Node) : Bool :=
  node.isBlankText || node.isComment

/-- The report of an alternative that follows no condition. -/
def strays (node : Node) : List Problem :=
  ((node.properties.findDirective? (["else-if", "else"].contains ·)).map fun directive =>
    { kind := .elseWithoutIf, span := directive.span : Problem }).toList

/-- At most one directive makes the node a part of a chain. -/
def Single (node : Node) : Prop :=
  (node.properties.filter (·.directs (["if", "else-if", "else"].contains ·))).length ≤ 1

def branches (node : Node) : List Branch :=
  match node.content with
  | .conditional branches => branches
  | _ => []

end Node

def TextRun.merged (children : List Node) : List Node :=
  (runs children).map (·.first)

namespace Conditional

/-- The alternatives that a condition in front of `nodes` takes, with keys from `key` on, and what is
left behind the last of them. Whatever stands in front of the first node that is no alternative is
left as well. -/
inductive Alternate : Nat → List Node → List Alternative → List Node → Prop
  | elseIf {key : Nat} {gap nodes left : List Node} {node : Node} {alternatives : List Alternative}
      (between : ∀ other ∈ gap, other.isGap = true)
      (tested : node.properties.hasDirective "else-if" = true)
      (later : Alternate (key + 1) nodes alternatives left) :
      Alternate key (gap ++ node :: nodes)
        (⟨⟨node.test? "else-if", key, node.span⟩, node.without "else-if"⟩ :: alternatives) left
  | otherwise {key : Nat} {gap nodes : List Node} {node : Node}
      (between : ∀ other ∈ gap, other.isGap = true)
      (untested : node.properties.hasDirective "else-if" = false)
      (last : node.properties.hasDirective "else" = true) :
      Alternate key (gap ++ node :: nodes) [⟨⟨none, key, node.span⟩, node.without "else"⟩] nodes
  | stop {key : Nat} {gap nodes : List Node} (between : ∀ other ∈ gap, other.isGap = true)
      (ends : ∀ node ∈ nodes.head?, node.isGap = false ∧ node.isAlternative = false) :
      Alternate key (gap ++ nodes) [] (gap ++ nodes)

end Conditional

mutual

inductive Stays : Node → Node → List Problem → Prop
  | leaf {node : Node} (leaf : (node.isTextLike || node.isComment) = true)
      (bare : node.children = []) : Stays node node []
  | element {node : Node} {grouped : List Node} {reports : List Problem}
      (element : node.isElement = true) (below : Regroups 0 node.children grouped reports) :
      Stays node { node.without "memo" with children := TextRun.merged grouped } reports

/-- An element that is repeated is wrapped in a loop, or a comment stands in for it if the loop
cannot be read. -/
inductive Becomes : Node → Node → List Problem → Prop
  | stays {node made : Node} {reports : List Problem}
      (unrepeated : node.properties.hasDirective "for" = false)
      (stays : Stays node made reports) : Becomes node made reports
  | loop {node child : Node} {reports : List Problem} {number : NodeId} {loop : Loop}
      (repeated : node.properties.hasDirective "for" = true)
      (stays : Stays (node.without "for") child reports) :
      Becomes node ⟨number, .loop loop, node.span, [child]⟩ reports
  | placeholder {node : Node} {number : NodeId}
      (repeated : node.properties.hasDirective "for" = true) :
      Becomes node ⟨number, .comment "v-for", node.span, []⟩ []

/-- The alternatives of a conditional stay. One that is an alternative in another way as well is
reported for that. -/
inductive Branches : List Node → List Node → List Problem → Prop
  | nil : Branches [] [] []
  | cons {node made : Node} {nodes more : List Node} {own others : List Problem}
      (becomes : Becomes node made own) (later : Branches nodes more others) :
      Branches (node :: nodes) (made :: more) (node.strays ++ own ++ others)

inductive Regroups : Nat → List Node → List Node → List Problem → Prop
  | nil {key : Nat} : Regroups key [] [] []
  | kept {key : Nat} {node made : Node} {nodes more : List Node} {own others : List Problem}
      (untested : node.isConditioned = false) (plain : node.isAlternative = false)
      (becomes : Becomes node made own) (later : Regroups key nodes more others) :
      Regroups key (node :: nodes) (made :: more) (own ++ others)
  | stray {key : Nat} {node : Node} {nodes more : List Node} {problem : Problem}
      {others : List Problem} (untested : node.isConditioned = false)
      (alternative : node.isAlternative = true) (reported : node.strays = [problem])
      (later : Regroups key nodes more others) :
      Regroups key (node :: nodes) more (problem :: others)
  | chain {key : Nat} {node first : Node} {nodes left made more : List Node} {number : NodeId}
      {span : Span} {alternatives : List Conditional.Alternative}
      {own inner others : List Problem} (tested : node.isConditioned = true)
      (follow : Conditional.Alternate (key + 1) nodes alternatives left)
      (becomes : Becomes (node.without "if") first own)
      (branches : Branches (alternatives.map (·.node)) made inner)
      (later : Regroups (key + 1 + alternatives.length) left more others) :
      Regroups key (node :: nodes)
        (⟨number,
          .conditional (⟨node.test? "if", key, node.span⟩ :: alternatives.map (·.branch)), span,
          first :: made⟩ :: more)
        (own ++ inner ++ others)

end

theorem Properties.findDirective?_isSome (properties : Properties) (names : String → Bool) :
    (properties.findDirective? names).isSome = properties.any (·.directs names) := by
  induction properties with
  | nil => rfl
  | cons property rest ih =>
    simp only [findDirective?, List.find?_cons, List.any_cons] at ih ⊢
    by_cases directs : property.directs names = true
    · cases property with
      | attr given => cases directs
      | dir given => simp [directs, Property.directive?]
    · rw [Bool.not_eq_true] at directs
      simpa [directs] using ih

/-- Taking a directive that is there takes one of any wider kind. -/
theorem Properties.length_filter_takeDirective {properties : Properties} {name : String}
    (names : String → Bool) (wider : names name = true)
    (present : properties.any (·.directs (· == name)) = true) :
    ((properties.takeDirective (· == name)).2.filter (·.directs names)).length + 1 =
      (properties.filter (·.directs names)).length := by
  induction properties with
  | nil => cases present
  | cons property rest ih =>
    simp only [takeDirective] at ih ⊢
    by_cases taken : property.directs (· == name) = true
    · have counted : property.directs names = true := by
        cases property with
        | attr given => cases taken
        | dir given =>
          rw [Property.directs, beq_iff_eq] at taken
          rwa [Property.directs, taken]
      rw [List.eraseP_cons_of_pos taken, List.filter_cons_of_pos counted, List.length_cons]
    · rw [List.any_cons, Bool.or_eq_true, or_iff_right taken] at present
      rw [List.eraseP_cons_of_neg taken, List.filter_cons, List.filter_cons]
      have fewer := ih present
      split
      · rw [List.length_cons, List.length_cons, fewer]
      · exact fewer

namespace Node

theorem isAlternative_eq_any (node : Node) : node.isAlternative =
    node.properties.any (·.directs (["else-if", "else"].contains ·)) := by
  rw [isAlternative, Properties.hasDirective_eq_any, Properties.hasDirective_eq_any]
  induction node.properties with
  | nil => rfl
  | cons property rest ih =>
    have own : property.directs (["else-if", "else"].contains ·) =
        (property.directs (· == "else") || property.directs (· == "else-if")) := by
      cases property with
      | attr given => rfl
      | dir given =>
        simp only [Property.directs, List.contains_cons, List.contains_nil, Bool.or_false]
        exact Bool.or_comm _ _
    rw [List.any_cons, List.any_cons, List.any_cons, ← ih, own]
    ac_rfl

theorem strays_eq_nil_iff (node : Node) : node.strays = [] ↔ node.isAlternative = false := by
  rw [isAlternative_eq_any, ← Properties.findDirective?_isSome, strays]
  cases node.properties.findDirective? (["else-if", "else"].contains ·) <;> simp

/-- A node that is part of a chain in one way only is no alternative once its directive is taken. -/
theorem strays_without {node : Node} {name : String} (single : node.Single)
    (part : ["if", "else-if", "else"].contains name = true)
    (present : node.properties.hasDirective name = true) : (node.without name).strays = [] := by
  have element := isElement_of_hasDirective present
  rw [Properties.hasDirective_eq_any] at present
  have fewer := Properties.length_filter_takeDirective (["if", "else-if", "else"].contains ·) part
    present
  rw [strays_eq_nil_iff, isAlternative_eq_any, without, properties_withProperties element,
    List.any_eq_false]
  have none : (node.properties.takeDirective (· == name)).2.filter
      (·.directs (["if", "else-if", "else"].contains ·)) = [] := by
    rw [← List.length_eq_zero_iff]
    unfold Single at single
    omega
  intro property member directs
  refine List.filter_eq_nil_iff.mp none property member ?_
  cases property with
  | attr given => cases directs
  | dir given =>
    simp only [Property.directs, List.contains_cons, List.contains_nil, Bool.or_false] at directs ⊢
    rw [directs, Bool.or_true]

end Node

namespace Conditional

variable {key : Nat} {nodes left : List Node} {alternatives : List Alternative}

theorem Alternate.keys (alternate : Alternate key nodes alternatives left) :
    alternatives.map (·.branch.key) = List.range' key alternatives.length := by
  induction alternate with
  | elseIf _ _ _ ih => rw [List.map_cons, ih, List.length_cons, List.range'_succ]
  | otherwise => rfl
  | stop => rfl

/-- Of nodes that are part of a chain in one way only, none is reported in a branch. -/
theorem Alternate.silent (alternate : Alternate key nodes alternatives left)
    (single : ∀ node ∈ nodes, node.Single) :
    ∀ alternative ∈ alternatives, alternative.node.strays = [] := by
  induction alternate with
  | elseIf _ tested _ ih =>
    obtain ⟨own, others⟩ := List.forall_mem_cons.mp (List.forall_mem_append.mp single).2
    exact List.forall_mem_cons.mpr ⟨Node.strays_without own (by decide) tested, ih others⟩
  | otherwise _ _ last =>
    have own := (List.forall_mem_cons.mp (List.forall_mem_append.mp single).2).1
    exact List.forall_mem_singleton.mpr (Node.strays_without own (by decide) last)
  | stop => exact List.forall_mem_nil _

end Conditional

namespace Conditional

theorem condition_eq_test? (node : Node) (name : String) :
    (takeCondition node name).condition = node.test? name := by
  simp only [takeCondition, Node.test?, Properties.takeDirective]
  cases node.properties.findDirective? (· == name) with
  | none => rfl
  | some directive =>
    rw [Option.bind_some, Directive.test?]
    simp only [Directive.emptyProblem?]
    by_cases empty : directive.isEmpty = true
    · simp only [empty, if_true]
    · simp only [empty]
      rfl

theorem alternativeOf_takeCondition (node : Node) (name : String) (key : Nat) :
    alternativeOf (takeCondition node name) key =
      ⟨⟨node.test? name, key, node.span⟩, node.without name⟩ := by
  have span : (node.without name).span = node.span := by
    simp only [Node.without, Node.withProperties]
    split <;> rfl
  rw [alternativeOf, condition_eq_test?, node_takeCondition]
  exact congrArg (fun place => (⟨⟨node.test? name, key, place⟩, _⟩ : Alternative)) span

/-- What is collected is what a condition takes, when all that was skipped may stand in between. -/
theorem collect_alternate (key : Nat) {skipped : List Node}
    (between : ∀ node ∈ skipped, node.isGap = true) (nodes : List Node) :
    Alternate key (skipped ++ nodes) (collect key skipped nodes).found
      (collect key skipped nodes).rest := by
  induction nodes generalizing key skipped with
  | nil =>
    have stop := @Alternate.stop key skipped [] between fun node first => nomatch first
    rwa [List.append_nil] at stop ⊢
  | cons node nodes ih =>
    simp only [collect]
    split
    · next gap =>
      have wider := List.forall_mem_append.mpr ⟨between, List.forall_mem_singleton.mpr gap⟩
      have later := ih key wider
      rwa [List.append_assoc] at later
    · next apart =>
      split
      · next tested =>
        rw [alternativeOf_takeCondition]
        exact .elseIf between tested (ih (key + 1) (List.forall_mem_nil _))
      · next untested =>
        split
        · next last =>
          have alternative := alternativeOf_takeCondition node "else" key
          simp only [alternativeOf, Alternative.mk.injEq, Branch.mk.injEq] at alternative ⊢
          rw [alternative.1.2.2, alternative.2]
          exact .otherwise between (Bool.not_eq_true _ ▸ untested) last
        · next unending =>
          refine .stop between fun other first => ?_
          cases first
          refine ⟨Bool.not_eq_true _ ▸ apart, ?_⟩
          rw [Node.isAlternative, Bool.or_eq_false_iff]
          exact ⟨Bool.not_eq_true _ ▸ unending, Bool.not_eq_true _ ▸ untested⟩

end Conditional

theorem TextRun.flatMap_merged {β : Type} {change : Node → List β}
    (texts : ∀ node, node.isTextLike = true → change node = []) (nodes : List Node) :
    (merged nodes).flatMap change = nodes.flatMap change := by
  conv_rhs => rw [← flatMap_runs nodes]
  have alone : ∀ run ∈ runs nodes, (run.first :: run.rest).flatMap change = change run.first := by
    intro run member
    rw [List.flatMap_cons, List.flatMap_eq_nil_iff.mpr, List.append_nil]
    exact fun node inside => texts node (isTextLike_of_mem_rest member node inside).1
  rw [merged, List.flatMap_map, List.flatMap_assoc]
  exact List.flatMap_congr fun run member => (alone run member).symm

theorem Node.branches_of_isTextLike {node : Node} (isText : node.isTextLike = true) :
    node.branches = [] := by
  obtain ⟨id, content, span, children⟩ := node
  cases content with
  | conditional => cases isText
  | _ => rfl

theorem Node.isElement_of_leaf {node : Node} (leaf : (node.isTextLike || node.isComment) = true) :
    node.isElement = false := by
  obtain ⟨id, content, span, children⟩ := node
  cases content with
  | element => cases leaf
  | _ => rfl

theorem Stays.branches {node made : Node} {reports : List Problem}
    (stays : Stays node made reports) : made.branches = [] := by
  cases stays with
  | leaf leaf =>
    obtain ⟨id, content, span, children⟩ := node
    cases content with
    | conditional => cases leaf
    | _ => rfl
  | element element =>
    obtain ⟨id, content, span, children⟩ := node
    cases content with
    | element => rfl
    | _ => cases element

theorem Becomes.branches {node made : Node} {reports : List Problem}
    (becomes : Becomes node made reports) : made.branches = [] := by
  cases becomes with
  | stays _ stays => exact stays.branches
  | loop => rfl
  | placeholder => rfl

/-- The keys of all branches among the siblings count up, whatever conditional they are in. -/
theorem Regroups.keys {key : Nat} {given made : List Node} {reports : List Problem} :
    Regroups key given made reports → (made.flatMap Node.branches).map (·.key) =
      List.range' key (made.flatMap Node.branches).length
  | .nil => rfl
  | .kept _ _ becomes later => by
    rw [List.flatMap_cons, becomes.branches, List.nil_append]
    exact later.keys
  | .stray _ _ _ later => later.keys
  | @Regroups.chain _ _ _ _ _ _ _ _ _ alternatives _ _ _ _ follow _ _ later => by
    have first := follow.keys
    rw [List.flatMap_cons, List.map_append, List.length_append, later.keys, Node.branches,
      List.map_cons, List.map_map, List.length_cons, List.length_map]
    change _ :: alternatives.map (·.branch.key) ++ _ = _
    rw [first, ← List.range'_append, List.range'_succ, Nat.one_mul, List.cons_append,
      Nat.add_comm alternatives.length, ← Nat.add_assoc]
    rfl

/-- The siblings `made` come of the siblings `given`, up to loops around them and to merged texts. -/
structure Grouped (given made : List Node) (reports : List Problem) : Prop where
  regroups : ∃ grouped, Regroups 0 given grouped reports ∧ made = TextRun.merged grouped
  /-- The keys of the branches have no gaps. -/
  keys : (made.flatMap Node.branches).map (·.key) = List.range (made.flatMap Node.branches).length
  /-- An alternative that is taken is not reported, unless it is one in two ways. -/
  silent : (∀ node ∈ given, node.Single) → ∀ {key : Nat} {nodes left : List Node}
    {alternatives : List Conditional.Alternative}, nodes ⊆ given →
    Conditional.Alternate key nodes alternatives left →
    ∀ alternative ∈ alternatives, alternative.node.strays = []

theorem Regroups.grouped {given made : List Node} {reports : List Problem}
    (regroups : Regroups 0 given made reports) :
    Grouped given (TextRun.merged made) reports := by
  refine ⟨⟨made, regroups, rfl⟩, ?_, fun single _ _ _ _ inside alternate =>
    alternate.silent fun node member => single node (inside member)⟩
  rw [TextRun.flatMap_merged fun _ => Node.branches_of_isTextLike, regroups.keys,
    List.range_eq_range']

/-- Each of these nodes is among the others, though it may have other properties there. -/
def Embeds (few many : List Node) : Prop :=
  ∀ node ∈ Node.flattenAll few, ∃ other ∈ Node.flattenAll many,
    other.isElement = node.isElement ∧ other.id = node.id ∧ other.children = node.children

namespace Embeds

variable {first second many : List Node} {node : Node}

theorem of_subset (inside : first ⊆ many) : Embeds first many := by
  intro inner member
  obtain ⟨outer, listed, below⟩ := Node.exists_of_mem_flattenAll member
  exact ⟨inner, Node.flatten_subset_flattenAll (inside listed) inner below, rfl, rfl, rfl⟩

theorem trans (early : Embeds first second) (late : Embeds second many) : Embeds first many := by
  intro node member
  obtain ⟨middle, inside, kind, number, children⟩ := early node member
  obtain ⟨other, outside, same, equal, below⟩ := late middle inside
  exact ⟨other, outside, same.trans kind, equal.trans number, below.trans children⟩

theorem append (early : Embeds first many) (late : Embeds second many) :
    Embeds (first ++ second) many := by
  intro node member
  rw [Node.flattenAll_append, List.mem_append] at member
  exact member.elim (early node) (late node)

theorem without (node : Node) (name : String) : Embeds [node.without name] [node] := by
  intro inner member
  rw [Node.flattenAll, Node.flattenAll, List.append_nil, Node.flatten_eq] at member ⊢
  rcases List.mem_cons.mp member with rfl | below
  · exact ⟨node, List.mem_cons_self, (node.isElement_withProperties _).symm,
      (node.withProperties_id _).symm, (node.withProperties_children _).symm⟩
  · rw [Node.without, Node.withProperties_children] at below
    exact ⟨inner, List.mem_cons_of_mem _ below, rfl, rfl, rfl⟩

theorem below (node : Node) : Embeds node.children [node] := by
  intro inner member
  rw [Node.flattenAll, Node.flattenAll, List.append_nil, Node.flatten_eq]
  exact ⟨inner, List.mem_cons_of_mem _ member, rfl, rfl, rfl⟩

end Embeds

/-- What a condition takes of the nodes behind it is among them, and so is what it leaves. -/
theorem Conditional.Alternate.embeds {key : Nat} {nodes left : List Node}
    {alternatives : List Alternative} (alternate : Alternate key nodes alternatives left) :
    Embeds (alternatives.map (·.node)) nodes ∧ Embeds left nodes := by
  induction alternate with
  | @elseIf key gap nodes left node alternatives _ _ _ ih =>
    obtain ⟨taken, left⟩ := ih
    have own : Embeds [node] (gap ++ node :: nodes) := .of_subset (by simp)
    have others : Embeds nodes (gap ++ node :: nodes) := .of_subset (by simp)
    exact ⟨((Embeds.without node _).trans own).append (taken.trans others), left.trans others⟩
  | @otherwise key gap nodes node =>
    have own : Embeds [node] (gap ++ node :: nodes) := .of_subset (by simp)
    exact ⟨(Embeds.without node _).trans own, .of_subset (by simp)⟩
  | stop => exact ⟨.of_subset (List.nil_subset _), .of_subset (List.Subset.refl _)⟩

/-- All elements of one tree come of elements of the other, each with its children grouped. -/
def Inherited (given made : List Node) : Prop :=
  ∀ node ∈ Node.flattenAll made, node.isElement = true →
    ∃ origin ∈ Node.flattenAll given, origin.isElement = true ∧ origin.id = node.id ∧
      ∃ reports, Grouped origin.children node.children reports

namespace Inherited

variable {given made more : List Node} {node : Node}

theorem embeds (inherited : Inherited given made) (wider : Embeds given more) :
    Inherited more made := by
  intro node member element
  obtain ⟨origin, inside, kind, number, reports, grouped⟩ := inherited node member element
  obtain ⟨other, outside, same, equal, below⟩ := wider origin inside
  exact ⟨other, outside, same.trans kind, equal.trans number, reports, below ▸ grouped⟩

theorem append (first : Inherited given made) (later : Inherited given more) :
    Inherited given (made ++ more) := by
  intro node member element
  rw [Node.flattenAll_append, List.mem_append] at member
  exact member.elim (fun early => first node early element) fun late => later node late element

theorem nil (given : List Node) : Inherited given [] :=
  List.forall_mem_nil _

/-- A node that is no element comes of nothing itself. -/
theorem around (other : node.isElement = false) (below : Inherited given node.children) :
    Inherited given [node] := by
  intro inner member element
  rw [Node.flattenAll, Node.flattenAll, List.append_nil, Node.flatten_eq] at member
  rcases List.mem_cons.mp member with rfl | inside
  · rw [other] at element
    cases element
  · exact below inner inside element

theorem wrap (below : Inherited given node.children)
    (own : ∃ origin ∈ Node.flattenAll given, origin.isElement = true ∧ origin.id = node.id ∧
      ∃ reports, Grouped origin.children node.children reports) : Inherited given [node] := by
  intro other member element
  rw [Node.flattenAll, Node.flattenAll, List.append_nil, Node.flatten_eq] at member
  rcases List.mem_cons.mp member with rfl | inside
  · exact own
  · exact below other inside element

theorem merged (inherited : Inherited given made) : Inherited given (TextRun.merged made) := by
  intro node member element
  refine inherited node ?_ element
  obtain ⟨child, listed, inside⟩ := Node.exists_of_mem_flattenAll member
  obtain ⟨run, found, rfl⟩ := List.mem_map.mp listed
  refine Node.flatten_subset_flattenAll ?_ node inside
  rw [← TextRun.flatMap_runs made]
  exact List.mem_flatMap.mpr ⟨run, found, List.mem_cons_self⟩

end Inherited

mutual

theorem Stays.inherited {node made : Node} {reports : List Problem} :
    Stays node made reports → Inherited [node] [made]
  | .leaf leaf bare => by
    refine .around (Node.isElement_of_leaf leaf) ?_
    rw [bare]
    exact .nil _
  | .element element below => by
    have inside := below.inherited.merged.embeds (.below node)
    refine .wrap inside ⟨node, ?_, element, (node.withProperties_id _).symm, _,
      below.grouped⟩
    simp [Node.flattenAll, Node.flatten_eq]

theorem Becomes.inherited {node made : Node} {reports : List Problem} :
    Becomes node made reports → Inherited [node] [made]
  | .stays _ stays => stays.inherited
  | .loop _ stays =>
    .around rfl (stays.inherited.embeds (.without node "for"))
  | .placeholder _ => .around rfl (.nil _)

theorem Branches.inherited {nodes made : List Node} {reports : List Problem} :
    Branches nodes made reports → Inherited nodes made
  | .nil => .nil _
  | .cons becomes later =>
    (becomes.inherited.embeds (.of_subset (by simp))).append
      (later.inherited.embeds (.of_subset (by simp)))

theorem Regroups.inherited {key : Nat} {given made : List Node} {reports : List Problem} :
    Regroups key given made reports → Inherited given made
  | .nil => .nil _
  | .kept _ _ becomes later =>
    (becomes.inherited.embeds (.of_subset (by simp))).append
      (later.inherited.embeds (.of_subset (by simp)))
  | .stray _ _ _ later => later.inherited.embeds (.of_subset (by simp))
  | @Regroups.chain _ node _ nodes _ _ _ _ _ _ _ _ _ _ follow becomes branches later => by
    obtain ⟨taken, left⟩ := follow.embeds
    have own : Embeds [node] (node :: nodes) := .of_subset (by simp)
    have others : Embeds nodes (node :: nodes) := .of_subset (by simp)
    have first := becomes.inherited.embeds ((Embeds.without node "if").trans own)
    have alternatives := branches.inherited.embeds (taken.trans others)
    have behind := later.inherited.embeds (left.trans others)
    exact Inherited.append (.around rfl (first.append alternatives)) behind

end

end TemplateCompiler
