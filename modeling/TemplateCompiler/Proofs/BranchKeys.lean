import TemplateCompiler.Proofs.ContributedNames
import TemplateCompiler.Proofs.GroupedSiblings

/-! Keys of branches. A branch that sets no key of its own gets its number as one, and the numbers
among siblings are distinct. Whether a branch sets a key is read off its directives, while the entry
comes of what these contribute, so a branch has just one key if the two agree. -/

namespace TemplateCompiler

def keyedNames : List (Option (List String)) → List (Option (List String))
  | some names :: rest => some ("key" :: names) :: rest
  | objects => some ["key"] :: objects

theorem objectNames_addKey (key : Nat) (props : Option Expr) :
    objectNames (some (Conditional.addKey key props)) = keyedNames (objectNames props) := by
  rw [objectNames, objects_addKey, objectNames]
  cases Expr.objects props with
  | nil => rfl
  | cons first rest => cases first <;> rfl

/-- One more key is one too many just if there is one in the first object. -/
theorem single_keyedNames {objects : List (Option (List String))}
    (distinct : ∀ names, some names ∈ objects → names.Nodup) :
    (∀ names, some names ∈ keyedNames objects → names.count "key" ≤ 1) ↔
      ¬ ∃ names, objects.head? = some (some names) ∧ "key" ∈ names := by
  have single (names : List String) (member : some names ∈ objects) : names.count "key" ≤ 1 :=
    List.nodup_iff_count_le_one.1 (distinct names member) "key"
  fun_cases keyedNames objects with
  | case1 first rest =>
    constructor
    · rintro counted ⟨names, head, member⟩
      cases head
      have := counted _ List.mem_cons_self
      have := List.count_pos_iff.2 member
      rw [List.count_cons_self] at *
      omega
    · intro absent names member
      rcases List.mem_cons.1 member with equal | later
      · cases equal
        have none : "key" ∉ first := fun listed => absent ⟨first, rfl, listed⟩
        rw [List.count_cons_self, List.count_eq_zero.2 none]
      · exact single names (List.mem_cons_of_mem _ later)
  | case2 _ unwritten =>
    constructor
    · rintro - ⟨names, head, -⟩
      cases objects with
      | nil => cases head
      | cons first rest =>
        cases head
        exact unwritten names rest rfl
    · intro _ names member
      rcases List.mem_cons.1 member with equal | later
      · cases equal
        decide
      · exact single names later

structure KeyedBranch (around : Surroundings) (element : Element) (key : Nat)
    (props : Option Expr) : Prop where
  /-- A branch that sets no key has its number in front of the first object. -/
  numbered : element.properties.setter? "key" = none → ∃ entries rest,
    Expr.objects props = .props ((.string "key", .number key) :: entries) :: rest
  /-- There is a key just if none is set or one is contributed. -/
  keyed : (∃ names, some names ∈ objectNames props ∧ "key" ∈ names) ↔
    element.properties.setter? "key" = none ∨ "key" ∈ contributedNames around element
  /-- No object has two keys just if one is set or none is contributed to the first object. -/
  single : (∀ names, some names ∈ objectNames props → names.count "key" ≤ 1) ↔
    (element.properties.setter? "key").isSome = true ∨ "key" ∉ leadingNames around element
  /-- What sets a key without a mark contributes it. -/
  plain : ∀ property, element.properties.setter? "key" = some property →
    property.isMarked = false → "key" ∈ contributedNames around element
  /-- A key that is contributed though none is set is a bound one without a value, or a model. -/
  doubled : element.properties.setter? "key" = none → "key" ∈ leadingNames around element →
    ∃ directive, .dir directive ∈ element.properties ∧ directive.KeysAnyway element

theorem leadingNames_subset (around : Surroundings) (element : Element) :
    leadingNames around element ⊆ contributedNames around element := by
  intro name member
  obtain ⟨contribution, listed, known⟩ := List.mem_flatMap.1 member
  exact List.mem_flatMap.2 ⟨contribution, (List.takeWhile_prefix _).subset listed, known⟩

theorem numbered_of_same {first second : Option Expr} {key : Nat} {entries : List Entry}
    {rest : List Expr} (same : first.map Expr.withoutCells = second.map Expr.withoutCells)
    (numbered : Expr.objects second = .props ((.string "key", .number key) :: entries) :: rest) :
    ∃ entries rest, Expr.objects first = .props ((.string "key", .number key) :: entries) :: rest := by
  have objects := congrArg Expr.objects same
  rw [Expr.objects_withoutCells, Expr.objects_withoutCells, numbered, List.map_cons] at objects
  obtain ⟨object, others, whole, front, -⟩ := List.map_eq_cons_iff.1 objects
  cases object with
  | props given =>
    have written := Expr.props.inj front
    cases given with
    | nil => cases written
    | cons entry more =>
      obtain ⟨name, value⟩ := entry
      obtain ⟨pair, -⟩ := List.cons.inj written
      obtain ⟨rfl, number⟩ := Prod.mk.inj pair
      have shown : value = .number key := by
        cases value with
        | number => exact number
        | _ => cases number
      exact ⟨more, others, by rw [whole, shown]⟩
  | _ => cases front

/-- Whether a branch has a key, and whether it has one only, shows in what it contributes. -/
theorem keyedBranch_finish {around : Surroundings} {element : Element} {key : Nat}
    {made call : VNode} (collected : made.props = (collectedProperties around element).expr?)
    (same : call.props.map Expr.withoutCells =
      ((Role.branch key).finish element.properties made).props.map Expr.withoutCells) :
    KeyedBranch around element key call.props := by
  have names := objectNames_congr same
  have distinct := nodup_objectNames around element
  have contributed := @mem_contributedNames around element "key"
  have leading := @mem_leadingNames around element "key"
  rw [← collected] at contributed distinct leading
  have plain (property : Property) (sets : element.properties.setter? "key" = some property)
      (unmarked : property.isMarked = false) := contributes_of_setter around sets unmarked
  have doubled (unset : element.properties.setter? "key" = none)
      (member : "key" ∈ leadingNames around element) :=
    keysAnyway_of_contributed around unset (leadingNames_subset around element member)
  cases setter : element.properties.setter? "key" with
  | none =>
    have finished : ((Role.branch key).finish element.properties made).props =
        some (Conditional.addKey key made.props) := by simp [Role.finish, setter]
    rw [finished] at names same
    rw [objectNames_addKey] at names
    refine ⟨fun _ => ?_, ?_, ?_, plain, doubled⟩
    · have added := objects_addKey key made.props
      unfold keyedObjects at added
      split at added <;> exact numbered_of_same same added
    · refine iff_of_true ?_ (.inl setter)
      rw [names]
      unfold keyedNames
      split
      · exact ⟨_, List.mem_cons_self, List.mem_cons_self⟩
      · exact ⟨_, List.mem_cons_self, List.mem_cons_self⟩
    · rw [names, single_keyedNames distinct, ← leading, setter]
      simp
  | some property =>
    have finished : ((Role.branch key).finish element.properties made).props = made.props := by
      simp [Role.finish, setter]
    rw [finished] at names
    have unset : element.properties.setter? "key" ≠ none := by simp [setter]
    refine ⟨fun none => absurd none unset, ?_, ?_, plain, doubled⟩
    · rw [names, ← contributed, or_iff_right unset]
    · refine iff_of_true (fun given member => ?_) (.inl (by simp [setter]))
      rw [names] at member
      exact List.nodup_iff_count_le_one.1 (distinct given member) "key"

namespace Node

/-- No two branches of the conditionals among these siblings have one number. -/
def DistinctKeys (siblings : List Node) : Prop :=
  ((siblings.flatMap branches).map (·.key)).Nodup

def DistinctBelow (nodes : List Node) : Prop :=
  ∀ node ∈ flattenAll nodes, DistinctKeys node.children

variable {node : Node} {nodes more : List Node}

theorem distinctKeys_of_bare (bare : ∀ node ∈ nodes, node.branches = []) : DistinctKeys nodes := by
  rw [DistinctKeys, List.flatMap_eq_nil_iff.2 bare]
  exact List.nodup_nil

theorem distinctBelow_nil : DistinctBelow [] :=
  List.forall_mem_nil _

theorem DistinctBelow.wrap (below : DistinctBelow node.children) (own : DistinctKeys node.children) :
    DistinctBelow [node] := by
  intro inner member
  rw [flattenAll, flattenAll, List.append_nil, flatten_eq] at member
  rcases List.mem_cons.1 member with rfl | inside
  · exact own
  · exact below inner inside

theorem DistinctBelow.append (first : DistinctBelow nodes) (later : DistinctBelow more) :
    DistinctBelow (nodes ++ more) := by
  intro node member
  rw [flattenAll_append, List.mem_append] at member
  exact member.elim (first node) (later node)

theorem DistinctBelow.merged (below : DistinctBelow nodes) : DistinctBelow (TextRun.merged nodes) := by
  intro node member
  refine below node ?_
  obtain ⟨child, listed, inside⟩ := exists_of_mem_flattenAll member
  obtain ⟨run, found, rfl⟩ := List.mem_map.1 listed
  refine flatten_subset_flattenAll ?_ node inside
  rw [← TextRun.flatMap_runs nodes]
  exact List.mem_flatMap.2 ⟨run, found, List.mem_cons_self⟩

end Node

theorem Grouped.distinctKeys {given made : List Node} {reports : List Problem}
    (grouped : Grouped given made reports) : Node.DistinctKeys made := by
  rw [Node.DistinctKeys, grouped.keys]
  exact List.nodup_range

/-- No branch is a conditional itself. -/
theorem Branches.bare {nodes made : List Node} {reports : List Problem}
    (branches : Branches nodes made reports) : ∀ node ∈ made, node.branches = [] := by
  cases branches with
  | nil => exact List.forall_mem_nil _
  | cons becomes later => exact List.forall_mem_cons.2 ⟨becomes.branches, later.bare⟩

mutual

theorem Stays.distinctBelow {node made : Node} {reports : List Problem} :
    Stays node made reports → Node.DistinctBelow [made]
  | .leaf _ bare => by
    refine .wrap ?_ ?_
    · rw [bare]
      exact Node.distinctBelow_nil
    · rw [bare]
      exact List.nodup_nil
  | .element _ below => .wrap below.distinctBelow.merged below.grouped.distinctKeys

theorem Becomes.distinctBelow {node made : Node} {reports : List Problem} :
    Becomes node made reports → Node.DistinctBelow [made]
  | .stays _ stays => stays.distinctBelow
  | .loop _ stays =>
    .wrap stays.distinctBelow (Node.distinctKeys_of_bare (List.forall_mem_singleton.2 stays.branches))
  | .placeholder _ => .wrap Node.distinctBelow_nil List.nodup_nil

theorem Branches.distinctBelow {nodes made : List Node} {reports : List Problem} :
    Branches nodes made reports → Node.DistinctBelow made
  | .nil => Node.distinctBelow_nil
  | .cons becomes later => becomes.distinctBelow.append later.distinctBelow

theorem Regroups.distinctBelow {key : Nat} {given made : List Node} {reports : List Problem} :
    Regroups key given made reports → Node.DistinctBelow made
  | .nil => Node.distinctBelow_nil
  | .kept _ _ becomes later => becomes.distinctBelow.append later.distinctBelow
  | .stray _ _ _ later => later.distinctBelow
  | .chain _ _ becomes branches later => by
    have children := Node.distinctKeys_of_bare (List.forall_mem_cons.2 ⟨becomes.branches, branches.bare⟩)
    have below := Node.DistinctBelow.append becomes.distinctBelow branches.distinctBelow
    exact Node.DistinctBelow.append (.wrap below children) later.distinctBelow

end

/-- Nodes that have one parent, or stand at the root together. -/
def Template.Siblings (template : Template) (nodes : List Node) : Prop :=
  nodes = template.roots ∨ ∃ parent ∈ Node.flattenAll template.roots, nodes = parent.children

/-- The branches of all conditionals of a plan have their keys, as far as their directives agree with
what these contribute. -/
structure Plan.KeysBranches (option : LowerOption) (plan : Plan) : Prop where
  branches : ∀ node above branches, Node.Lineage plan.template.roots node above →
    node.content = .conditional branches → branches.length = node.children.length ∧
      ∀ pair ∈ branches.zip node.children, ∀ element, pair.2.content = .element element →
        ∃ call, plan.unfolded? pair.2.id = some (.vnode call) ∧
          KeyedBranch ((option.surroundings.along above).inside element) element
            pair.1.key call.props
  siblings : ∀ nodes, plan.template.Siblings nodes → Node.DistinctKeys nodes

/-- Whatever was parsed, each element in a branch has a key unless what it sets is another one, and
only one unless it is given one that it does not set; numbers among siblings are distinct. -/
theorem lower_keysBranches {parsing : ParseOption} {lowering : LowerOption} {reading : Scan}
    {template : Template} {problems : List Problem} {lowered : Lowered}
    (parsed : parse parsing reading = .ok (template, problems))
    (lowers : lower lowering template = .ok lowered) :
    lowered.plan.KeysBranches lowering := by
  constructor
  · intro node above branches lineage content
    obtain ⟨roots, progress, stages⟩ := lower_stages (numbered_of_parse parsed) lowers
    rw [stages.roots_eq] at lineage
    obtain ⟨role, settled⟩ := Settled.along stages.walked.settled lineage
    cases settled with
    | text isText =>
      rw [Node.isTextLike, content] at isText
      cases isText
    | comment => cases content
    | element => cases content
    | loop => cases content
    | @conditional _ _ id span pairs _ _ _ _ below =>
      cases content
      refine ⟨by simp, fun pair member element given => ?_⟩
      rw [List.zip_map', List.mem_map] at member
      obtain ⟨found, listed, rfl⟩ := member
      obtain ⟨call, made, unfolded, collected, same⟩ := stages.props_unfolded (below found listed) given
      exact ⟨call, unfolded, keyedBranch_finish collected same⟩
  · obtain ⟨⟨grouped, regroups, same⟩, -, -⟩ := (lower_groupsSiblings parsed lowers).roots
    rintro nodes (rfl | ⟨parent, member, rfl⟩)
    · rw [same]
      exact regroups.grouped.distinctKeys
    · rw [same] at member
      exact regroups.distinctBelow.merged parent member

/-- Chains of siblings with and without keys of their own, and objects that are spread. -/
def branchedSource : String :=
  "<p v-if=\"a\" :key=\"b\"/><p v-else v-bind=\"c\"/><p v-if=\"d\" id=\"e\" v-bind=\"f\"/>" ++
    "<p v-else-if=\"g\" key=\"h\"/><p v-else/>"

theorem lower_keysBranches_branched : ∃ template problems lowered,
    parse {} (scan {} branchedSource) = .ok (template, problems) ∧
      lower {} template = .ok lowered ∧
      (lowered.plan.template.roots.flatMap Node.branches).map (·.key) = [0, 1, 2, 3, 4] ∧
      lowered.plan.KeysBranches {} := by
  have succeeds : ((parse {} (scan {} branchedSource)).bind fun parsed =>
      lower {} parsed.1).toOption.any (fun lowered =>
        decide ((lowered.plan.template.roots.flatMap Node.branches).map (·.key) = [0, 1, 2, 3, 4])) =
      true := by
    decide +kernel
  obtain ⟨template, problems, lowered, parsed, lowers, keys⟩ := exists_lowered succeeds
  exact ⟨template, problems, lowered, parsed, lowers, of_decide_eq_true keys,
    lower_keysBranches parsed lowers⟩

def Plan.propertyNames (plan : Plan) : List (Option (List (Option (List String)))) :=
  plan.table.entries.toList.map fun code =>
    (code.bind Code.vnode?).map fun call => objectNames call.props

/-- The only element of the branch is given no key, for the one that it sets is marked. -/
theorem branch_without_key : ∃ template problems lowered,
    parse {} (scan {} "<p v-if=\"a\" :key.prop=\"k\"/>") = .ok (template, problems) ∧
      lower {} template = .ok lowered ∧
      lowered.plan.template.roots.map (fun node =>
        (node.branches.length, node.children.map (·.id), node.children.map (·.isElement))) =
          [(1, [0], [true])] ∧
      lowered.plan.propertyNames = [some [some [".key"]], none] := by
  have succeeds : ((parse {} (scan {} "<p v-if=\"a\" :key.prop=\"k\"/>")).bind fun parsed =>
      lower {} parsed.1).toOption.any (fun lowered =>
        decide (lowered.plan.template.roots.map (fun node =>
          (node.branches.length, node.children.map (·.id), node.children.map (·.isElement))) =
            [(1, [0], [true])] ∧
          lowered.plan.propertyNames = [some [some [".key"]], none])) = true := by
    decide +kernel
  obtain ⟨template, problems, lowered, parsed, lowers, found⟩ := exists_lowered succeeds
  exact ⟨template, problems, lowered, parsed, lowers, of_decide_eq_true found⟩

end TemplateCompiler
