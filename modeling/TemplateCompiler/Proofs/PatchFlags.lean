import TemplateCompiler.Proofs.DynamicProperties
import TemplateCompiler.Proofs.ScopeIsolation

/-! The hint of a virtual node covers all that can change in it. Its flag is put together from what
was noted of the properties and from the children, and stays as it is when the node gets its key and
its cells. -/

namespace TemplateCompiler

namespace PatchFlag

variable {flag other part : PatchFlag}

theorem contains_self (flag : PatchFlag) : flag.contains flag = true := by
  simp [contains]

theorem contains_union_left (has : flag.contains part = true) :
    (flag ||| other).contains part = true := by
  simp only [contains, beq_iff_eq] at has ⊢
  ext index inside
  have bit := congrArg (BitVec.getLsbD · index) has
  change ((flag.bits ||| other.bits) &&& part.bits).getLsbD index = part.bits.getLsbD index
  simp only [BitVec.getLsbD_and, BitVec.getLsbD_or] at bit ⊢
  cases set : part.bits.getLsbD index with
  | false => rw [Bool.and_false]
  | true =>
    rw [set, Bool.and_true] at bit
    rw [bit, Bool.true_or, Bool.true_and]

theorem contains_union_right (has : other.contains part = true) :
    (flag ||| other).contains part = true := by
  have comm : flag ||| other = other ||| flag := congrArg mk (BitVec.or_comm ..)
  rw [comm]
  exact contains_union_left has

theorem ne_empty_of_contains (has : flag.contains part = true) (some : part ≠ empty) :
    flag ≠ empty := by
  rintro rfl
  obtain ⟨bits⟩ := part
  simp only [contains, empty, beq_iff_eq] at has
  exact some (congrArg mk (has.symm.trans BitVec.zero_and))

/-- The runtime looks at the entry of this name: by the flag, by the flag and the names that come
with it, or always. -/
inductive Watches (flag : PatchFlag) (names : List Expr) (kind : ElementKind) : String → Prop
  | key : Watches flag names kind "key"
  | ref (hinted : flag ≠ .empty) : Watches flag names kind "ref"
  | classes (plain : kind = .plain) (hinted : flag.contains .classBinding = true) :
      Watches flag names kind "class"
  | styles (plain : kind = .plain) (hinted : flag.contains .styleBinding = true) :
      Watches flag names kind "style"
  | listed {name : String} {expr : Expr} (member : expr ∈ names)
      (named : expr.staticKey? = some name) (hinted : flag.contains .props = true) :
      Watches flag names kind name

end PatchFlag

namespace PropertyTraits

def changes (isComponent : Bool) (traits : PropertyTraits) : PatchFlag :=
  (if traits.hasClass && !isComponent then .classBinding else .empty) |||
    (if traits.hasStyle && !isComponent then .styleBinding else .empty) |||
    (if !traits.dynamicNames.isEmpty then .props else .empty)

variable {isComponent hasDirectives : Bool} {traits : PropertyTraits}

theorem patchFlag_eq (known : traits.hasDynamicKeys = false) :
    traits.patchFlag isComponent hasDirectives =
      (traits.changes isComponent |||
        if traits.hasHydrationListener then .hydrateEvents else .empty) |||
      if (traits.changes isComponent).isEmpty &&
        (traits.hasRef || traits.hasHook || hasDirectives) then .needPatch else .empty := by
  simp only [patchFlag, known, changes]
  rfl

theorem contains_patchFlag {part : PatchFlag} (known : traits.hasDynamicKeys = false)
    (has : (traits.changes isComponent).contains part = true) :
    (traits.patchFlag isComponent hasDirectives).contains part = true := by
  rw [patchFlag_eq known]
  exact PatchFlag.contains_union_left (PatchFlag.contains_union_left has)

theorem patchFlag_of_unknown (unknown : traits.hasDynamicKeys = true) :
    traits.patchFlag isComponent hasDirectives = .fullProps := by
  simp only [patchFlag, unknown, if_true]

/-- What is to be done for the node as a whole is hinted at, if only by the last of the flags. -/
theorem patchFlag_ne_empty (needed : traits.hasRef = true ∨ hasDirectives = true) :
    traits.patchFlag isComponent hasDirectives ≠ .empty := by
  cases keys : traits.hasDynamicKeys with
  | true =>
    rw [patchFlag_of_unknown keys]
    decide
  | false =>
    by_cases none : traits.changes isComponent = .empty
    · have asked : (traits.hasRef || traits.hasHook || hasDirectives) = true := by
        rcases needed with ref | directives
        · rw [ref, Bool.true_or, Bool.true_or]
        · rw [directives, Bool.or_true]
      rw [patchFlag_eq keys, PatchFlag.isEmpty_iff.2 none, asked]
      exact PatchFlag.ne_empty_of_contains
        (PatchFlag.contains_union_right (PatchFlag.contains_self .needPatch)) (by decide)
    · exact PatchFlag.ne_empty_of_contains
        (contains_patchFlag keys (PatchFlag.contains_self _)) none

theorem Remembers.watches {kind : ElementKind} {name : String} {flag : PatchFlag}
    (remembers : traits.Remembers (kind = .component) name) (known : traits.hasDynamicKeys = false)
    (present : kind ≠ .fragment)
    (within : ∀ part, (traits.patchFlag (kind = .component) hasDirectives).contains part = true →
      flag.contains part = true) :
    flag.Watches (traits.dynamicNames.map Expr.madeLiteral) kind name := by
  have changed (part : PatchFlag)
      (has : (traits.changes (kind = .component)).contains part = true) :
      flag.contains part = true := within part (contains_patchFlag known has)
  have plain (noComponent : decide (kind = .component) = false) : kind = .plain := by
    cases kind with
    | plain => rfl
    | component => cases noComponent
    | fragment => exact absurd rfl present
  cases remembers with
  | key => exact .key
  | ref noted =>
    have hinted := @patchFlag_ne_empty (kind = .component) hasDirectives traits (.inl noted)
    exact .ref (PatchFlag.ne_empty_of_contains (within _ (PatchFlag.contains_self _)) hinted)
  | classes noComponent noted =>
    refine .classes (plain noComponent) (changed .classBinding ?_)
    rw [changes, noted, noComponent]
    exact PatchFlag.contains_union_left
      (PatchFlag.contains_union_left (PatchFlag.contains_self .classBinding))
  | styles noComponent noted =>
    refine .styles (plain noComponent) (changed .styleBinding ?_)
    rw [changes, noted, noComponent]
    exact PatchFlag.contains_union_left
      (PatchFlag.contains_union_right (PatchFlag.contains_self .styleBinding))
  | listed member =>
    refine .listed (List.mem_map_of_mem member) rfl (changed .props ?_)
    rw [changes, List.isEmpty_eq_false_iff.2 (List.ne_nil_of_mem member)]
    exact PatchFlag.contains_union_right (PatchFlag.contains_self .props)

end PropertyTraits

namespace VNode

/-- Unless the flag says that all properties are to be compared, each entry that can change is
watched; and a node with directives is looked at. -/
structure Hinted (kind : ElementKind) (vnode : VNode) : Prop where
  props : vnode.patchFlag.contains .fullProps = false →
    Expr.Covers (vnode.patchFlag.Watches vnode.dynamicProps kind) vnode.props
  directives : vnode.directives ≠ [] → vnode.patchFlag ≠ .empty

/-- The hint stays as it is, and no entry is brought in that can change. -/
structure Keeps (before after : VNode) : Prop where
  flag : after.patchFlag = before.patchFlag
  names : after.dynamicProps = before.dynamicProps
  directives : after.directives = before.directives
  raw : after.rawChildren = before.rawChildren
  props : ∀ watched, Expr.Covers watched before.props → Expr.Covers watched after.props

variable {before middle after : VNode}

theorem Keeps.refl (vnode : VNode) : Keeps vnode vnode :=
  ⟨rfl, rfl, rfl, rfl, fun _ covers => covers⟩

theorem Keeps.trans (first : Keeps before middle) (last : Keeps middle after) :
    Keeps before after :=
  ⟨last.flag.trans first.flag, last.names.trans first.names,
    last.directives.trans first.directives, last.raw.trans first.raw,
    fun watched covers => last.props watched (first.props watched covers)⟩

theorem Keeps.hinted {kind : ElementKind} (keeps : Keeps before after)
    (hinted : before.Hinted kind) : after.Hinted kind := by
  constructor
  · rw [keeps.flag, keeps.names]
    exact fun named => keeps.props _ (hinted.props named)
  · rw [keeps.flag, keeps.directives]
    exact hinted.directives

end VNode

theorem Role.keeps_finish (role : Role) (properties : Properties) (vnode : VNode) :
    vnode.Keeps (role.finish properties vnode) := by
  cases role with
  | child | item | root => exact ⟨rfl, rfl, rfl, rfl, fun _ covers => covers⟩
  | branch key =>
    refine ⟨rfl, rfl, rfl, rfl, fun watched covers => ?_⟩
    simp only [finish]
    split
    · exact covers
    · exact Conditional.covers_addKey key covers

theorem Caching.keeps_adjust (mark : CacheMark) (vnode : VNode) :
    vnode.Keeps (adjust mark vnode) := by
  obtain ⟨isBlock, same⟩ := exists_adjust mark vnode
  rw [same]
  exact ⟨rfl, rfl, rfl, rfl, fun _ covers => covers⟩

/-- Handing out cells to a virtual node keeps its hint. -/
theorem Plan.Recoded.keeps {marks : NodeMap CacheMark} {dependencies : NodeMap Expr} {id : NodeId}
    {vnode : VNode} {new : Code} (recoded : Recoded marks dependencies id { body := .vnode vnode } new) :
    ∃ call, new.body = .vnode call ∧ vnode.Keeps call := by
  induction recoded with
  | refl => exact ⟨vnode, rfl, .refl vnode⟩
  | @wrap body mark _ _ _ _ ih =>
    obtain ⟨call, rfl, keeps⟩ := ih
    exact ⟨_, rfl, keeps.trans (Caching.keeps_adjust mark call)⟩
  | @handlers call cache props next given _ ih =>
    obtain ⟨same, equal, keeps⟩ := ih
    cases equal
    refine ⟨_, rfl, keeps.trans ⟨rfl, rfl, rfl, rfl, fun watched covers => ?_⟩⟩
    rw [given] at covers
    exact Expr.covers_assignCells next covers

/-- Handing out cells makes no text and changes none. -/
theorem Plan.Recoded.text {marks : NodeMap CacheMark} {dependencies : NodeMap Expr} {id : NodeId}
    {old new : Code} {call : TextCall} (recoded : Recoded marks dependencies id old new)
    (text : new.body = .text call) : old.body = .text call := by
  induction recoded with
  | refl => exact text
  | @wrap body _ _ _ _ _ ih =>
    cases body with
    | vnode => cases text
    | _ => exact ih text
  | handlers => cases text

theorem tracked_collectedProperties (around : Surroundings) (element : Element) :
    (collectedProperties around element).Tracked (element.kind = .component) := by
  refine collectedProperties_of ⟨fun _ => rfl, fun _ => List.forall_mem_nil _⟩
    Collection.Tracked.add ?_ ?_ ?_
  · exact steady_plainContribution around element
  · exact Contribution.steady_ofListener around
  · exact Contribution.steady_ofModel around element

section Elements

variable {around : Surroundings} {table : Table} {element : Element} {children : List NodeId}

theorem hinted_lowerElement (present : element.kind ≠ .fragment) :
    (lowerElement around table element children).value.Hinted element.kind := by
  have tracked := tracked_collectedProperties around element
  simp only [lowerElement, if_neg present, Reported.value_bind, Reported.value_pure,
    value_lowerProperties]
  generalize collectedProperties around element = collection at tracked ⊢
  generalize appliedDirectives around element = directives
  generalize childrenFlag around table _ _ children = below
  constructor
  · intro named
    dsimp only at named ⊢
    have known : collection.traits.hasDynamicKeys = false := by
      by_contra unknown
      rw [PropertyTraits.patchFlag_of_unknown (eq_true_of_ne_false unknown),
        PatchFlag.contains_union_left (PatchFlag.contains_self _)] at named
      cases named
    refine (tracked.covers known).imp fun name remembers => ?_
    exact remembers.watches known present fun _ => PatchFlag.contains_union_left
  · intro given
    have some : (!directives.isEmpty) = true := by
      rwa [Bool.not_eq_true', List.isEmpty_eq_false_iff]
    exact PatchFlag.ne_empty_of_contains
      (PatchFlag.contains_union_left (PatchFlag.contains_self _))
      (PropertyTraits.patchFlag_ne_empty (.inr some))

theorem contains_childrenFlag (present : element.kind ≠ .fragment) {part : PatchFlag}
    (has : (childrenFlag around table (element.kind = .component)
      (lowerElement around table element children).value.rawChildren children).contains part = true) :
    (lowerElement around table element children).value.patchFlag.contains part = true := by
  simp only [lowerElement, if_neg present, Reported.value_bind, Reported.value_pure] at has ⊢
  exact PatchFlag.contains_union_right has

theorem childrenFlag_of_text {only : NodeId} {call : TextCall} (rawChildren : Bool)
    (found : table.get? only = some { body := .text call }) (fast : call.fastPath = true)
    (patched : call.needPatch = true) :
    childrenFlag around table false rawChildren [only] = .text := by
  simp [childrenFlag, found, fast, patched]

theorem childrenFlag_of_slots {name : String} (given : children ≠ [])
    (bound : around.scope.contains name = true) :
    childrenFlag around table true false children = .dynamicSlots := by
  have aliased : around.scope.isEmpty = false := by
    rw [Scope.isEmpty, List.isEmpty_eq_false_iff]
    exact List.ne_nil_of_mem (List.contains_iff_mem.1 bound)
  simp [childrenFlag, given, aliased]

end Elements

theorem Node.Lineage.through {roots : List Node} {node inner : Node} {above between : List Node}
    (lineage : Lineage roots node above) (further : Lineage node.children inner between) :
    Lineage roots inner (between ++ node :: above) := by
  induction further with
  | root member => exact .child lineage member
  | child _ member ih => exact .child ih member

theorem Node.Lineage.ne_nil {roots : List Node} {node : Node} {above : List Node}
    (lineage : Lineage roots node above) : roots ≠ [] := by
  induction lineage with
  | root member => exact List.ne_nil_of_mem member
  | child _ _ ih => exact ih

/-- The hint of an element covers its properties and directives, and also its children. -/
structure Plan.Hints (plan : Plan) (reader : ScriptReader) (node : Node) (element : Element)
    (vnode : VNode) : Prop extends vnode.Hinted element.kind where
  /-- A text that can change and stands alone is written without a node of its own. -/
  text : element.kind = .plain → ∀ only, node.children = [only] →
    ∀ call cache, plan.table.get? only.id = some { body := .text call, cache } →
    ∀ part ∈ call.parts, part.level = .notStatic → vnode.patchFlag.contains .text = true
  /-- An alias in a slot is from outside of the component if no loop on the way binds it. -/
  slots : element.kind = .component → vnode.rawChildren = false →
    ∀ inner between, Node.Lineage node.children inner between →
    ∀ expr ∈ plan.expressions inner.id, ∀ name, Expr.Occurs (.param name) expr →
    (∀ outer ∈ between, ¬ outer.Binds reader name) → vnode.patchFlag.contains .dynamicSlots = true

namespace Stages

variable {option : LowerOption} {template : Template} {roots : List Node} {progress : Progress}
  {plan : Plan} {node : Node} {above : List Node} {element : Element} {vnode : VNode}
  {cache : Option CacheCell}

theorem recoded_of_code {id : NodeId} {old new : Code}
    (stages : Stages option template roots progress plan)
    (before : progress.table.get? id = some old) (after : plan.table.get? id = some new)
    (stays : ∀ index, new.body ≠ .hoisted index) :
    Plan.Recoded progress.marks progress.memoDependencies id old new := by
  by_cases hoisted : id ∈ hoistedIds option roots progress
  · obtain ⟨index, _, _, moved, _⟩ := stages.moves before hoisted
    cases moved.symm.trans after
    exact absurd rfl (stays index)
  · obtain ⟨code, found, recoded⟩ := stages.stays before hoisted
    cases found.symm.trans after
    exact recoded

/-- The virtual node of an element is what lowering it gave, up to its key and its cells. -/
theorem keeps_lowerElement (stages : Stages option template roots progress plan)
    (lineage : Node.Lineage roots node above) (content : node.content = .element element)
    (final : plan.table.get? node.id = some { body := .vnode vnode, cache }) :
    let around := (Surroundings.along option.surroundings above).inside element
    (lowerElement around progress.table element (node.children.map (·.id))).value.Keeps vnode ∧
      ∀ child ∈ node.children, Settled progress around
        (.child (element.kind = .plain && node.children.length = 1)) child := by
  obtain ⟨role, settled⟩ := Settled.along stages.walked.settled lineage
  cases settled with
  | element _ code below =>
    cases content
    obtain ⟨call, same, keeps⟩ := (stages.recoded_of_code code final nofun).keeps
    cases same
    exact ⟨(role.keeps_finish element.properties _).trans keeps, below⟩
  | text isText =>
    rw [Node.isTextLike, content] at isText
    cases isText
  | _ => cases content

/-- What is a text in the end is a run of texts from the start. -/
theorem text_of_code {role : Role} {around : Surroundings} {only : Node} {call : TextCall}
    (stages : Stages option template roots progress plan)
    (settled : Settled progress around role only)
    (final : plan.table.get? only.id = some { body := .text call, cache }) :
    progress.table.get? only.id = some { body := .text call } ∧
      ∃ members, call = TextRun.call around role.alone members := by
  obtain ⟨body, before, _⟩ := settled.lowered
  obtain rfl : body = .text call := (stages.recoded_of_code before final nofun).text rfl
  refine ⟨before, ?_⟩
  cases settled with
  | text _ _ _ _ _ code =>
    cases code.symm.trans before
    exact ⟨_, rfl⟩
  | comment _ code | element _ code | loop _ code | conditional _ _ _ code =>
    cases code.symm.trans before

theorem hints (stages : Stages option template roots progress plan)
    (lineage : Node.Lineage roots node above) (content : node.content = .element element)
    (present : element.kind ≠ .fragment)
    (final : plan.table.get? node.id = some { body := .vnode vnode, cache }) :
    plan.Hints option.reader node element vnode := by
  obtain ⟨keeps, below⟩ := stages.keeps_lowerElement lineage content final
  refine ⟨keeps.hinted (hinted_lowerElement present), ?_, ?_⟩
  · intro plain only alone call cell found part member changing
    have settled := below only (by simp [alone])
    obtain ⟨before, members, same⟩ := stages.text_of_code settled found
    have fast : call.fastPath = true := by
      rw [same, plain, alone]
      rfl
    have patched : call.needPatch = true := by
      rw [same] at member ⊢
      exact List.any_eq_true.2 ⟨part, member, by rw [changing]; rfl⟩
    rw [keeps.flag]
    apply contains_childrenFlag present
    rw [plain, alone]
    change (childrenFlag _ _ false _ [only.id]).contains .text = true
    rw [childrenFlag_of_text _ before fast patched]
    exact PatchFlag.contains_self .text
  · intro component slotted inner between further expr member name occurs free
    have resolved := (stages.scoped_expressions (lineage.through further) expr member).isolated rfl
    obtain ⟨outer, listed, binds⟩ := resolved _ occurs
    have outside : outer ∈ above := by
      rcases List.mem_append.1 listed with inside | around
      · exact absurd binds (free outer inside)
      · rcases List.mem_cons.1 around with rfl | beyond
        · obtain ⟨loop, isLoop, _⟩ := binds
          cases content.symm.trans isLoop
        · exact beyond
    have bound : ((Surroundings.along option.surroundings above).inside
        element).scope.contains name = true :=
      (Surroundings.contains_along rfl above name).2 ⟨outer, outside, binds⟩
    have given : node.children.map (·.id) ≠ [] := fun none =>
      further.ne_nil (List.map_eq_nil_iff.1 none)
    rw [keeps.raw] at slotted
    rw [keeps.flag]
    apply contains_childrenFlag present
    rw [slotted, component]
    change (childrenFlag _ _ true false _).contains .dynamicSlots = true
    rw [childrenFlag_of_slots given bound]
    exact PatchFlag.contains_self .dynamicSlots

end Stages

/-- Whatever was parsed, no hint of a plan that lowering comes to hides a change. This is so for
every element with a virtual node of its own that was not moved out of the render function. -/
theorem lower_hints {parsing : ParseOption} {lowering : LowerOption} {reading : Scan}
    {template : Template} {problems : List Problem} {lowered : Lowered} {node : Node}
    {above : List Node} {element : Element} {vnode : VNode} {cache : Option CacheCell}
    (parsed : parse parsing reading = .ok (template, problems))
    (lowers : lower lowering template = .ok lowered)
    (lineage : Node.Lineage lowered.plan.template.roots node above)
    (content : node.content = .element element) (present : element.kind ≠ .fragment)
    (final : lowered.plan.table.get? node.id = some { body := .vnode vnode, cache }) :
    lowered.plan.Hints lowering.reader node element vnode := by
  obtain ⟨roots, progress, stages⟩ := lower_stages (numbered_of_parse parsed) lowers
  obtain rfl := stages.roots_eq
  exact stages.hints lineage content present final

/-- A merged class, a name and a listener beside a text; a directive on a branch; a slot with an
alias. -/
def hintedSource : String :=
  "<p class=\"a\" :class=\"b\" :id=\"c\" ref=\"r\" @click=\"d(e)\">\x7b\x7b g \x7d\x7d</p>" ++
    "<q v-if=\"h\" v-f/><C v-for=\"i in l\">\x7b\x7b i \x7d\x7d</C>"

def Plan.hint? (plan : Plan) (node : Node) : Option (ElementKind × PatchFlag) :=
  match node.content, plan.table.get? node.id with
  | .element element, some { body := .vnode vnode, .. } => some (element.kind, vnode.patchFlag)
  | _, _ => none

theorem lower_hints_crowded : ∃ template problems lowered,
    parse {} (scan {} hintedSource) = .ok (template, problems) ∧
      lower {} template = .ok lowered ∧
      ∀ hint ∈ [(ElementKind.plain, PatchFlag.text ||| .classBinding ||| .props),
          (.plain, .needPatch), (.component, .dynamicSlots)],
        ∃ node above element vnode cache,
          Node.Lineage lowered.plan.template.roots node above ∧
            node.content = .element element ∧ element.kind ≠ .fragment ∧
            lowered.plan.table.get? node.id = some { body := .vnode vnode, cache } ∧
            (element.kind, vnode.patchFlag) = hint ∧
              lowered.plan.Hints .standard node element vnode := by
  have succeeds : ((parse {} (scan {} hintedSource)).bind fun parsed =>
      lower {} parsed.1).toOption.any (fun lowered => decide
        ((Node.flattenAll lowered.plan.template.roots).filterMap lowered.plan.hint? =
          [(ElementKind.plain, PatchFlag.text ||| .classBinding ||| .props),
            (.plain, .needPatch), (.component, .dynamicSlots)])) = true := by
    decide +kernel
  obtain ⟨template, problems, lowered, parsed, lowers, found⟩ := exists_lowered succeeds
  refine ⟨template, problems, lowered, parsed, lowers, fun hint listed => ?_⟩
  have plainOrComponent : hint.1 ≠ .fragment := by
    revert hint
    decide
  rw [← of_decide_eq_true found] at listed
  obtain ⟨node, member, given⟩ := List.mem_filterMap.1 listed
  obtain ⟨above, lineage⟩ := Node.mem_flattenAll_iff.1 member
  unfold Plan.hint? at given
  split at given
  · next element vnode cache content final =>
    cases given
    exact ⟨node, above, element, vnode, cache, lineage, content, plainOrComponent, final, rfl,
      lower_hints parsed lowers lineage content plainOrComponent final⟩
  · cases given

end TemplateCompiler
