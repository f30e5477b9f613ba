import TemplateCompiler.Proofs.WalkLeaving

/-! A whole walk. Whatever the template, a walk that comes to its end has settled every node that is
still in the tree, and each number that was given is on one node or has left the tree. -/

namespace TemplateCompiler

variable {around : Surroundings} {ancestors : List NodeId} {hasSiblings : Bool} {stage : Nat}
  {done todo : List Node} {before : Progress}

/-- What a walk makes of an element that all passes up to the loops have entered is an element,
which is not to be rendered once by itself. -/
def Repeats (stage : Nat) (todo out : List Node) (after : Progress) : Prop :=
  stage = 3 → (∀ node ∈ todo.head?, node.isElement = true) →
    ∀ made ∈ out.head?, made.isElement = true ∧ after.marks.get? made.id ≠ some .once

theorem Outcome.leave {once : List (Nat × Pass)} {entered : Entered} {current : Node}
    {below : Visited} (outcome : Outcome around ancestors hasSiblings todo before once entered)
    (exits : OnceExits around once) (ready : before.Ready around ancestors stage todo)
    (focused : entered.site.focus = some current)
    (bare : current.children = [] → below = ⟨[], entered.progress⟩)
    (deeper : ∀ within depth, (depth = 0 ∨ depth = 2 ∨ depth = 3) →
      entered.progress.Ready within (current.id :: ancestors) depth current.children →
      Visits within current.isElement current.children entered.progress below.nodes []
        below.progress ∧ Repeats depth current.children below.nodes below.progress) :
    Visits around hasSiblings todo before
      [(exitAll { current with children := below.nodes } entered.site below.progress
        entered.exits).1] entered.site.after
      (exitAll { current with children := below.nodes } entered.site below.progress
        entered.exits).2 := by
  cases outcome with
  | gone unfocused =>
    rw [unfocused] at focused
    cases focused
  | leaf same leaf visits =>
    cases same.symm.trans focused
    cases bare leaf
    have kept : ({ current with children := [] } : Node) = current := by
      obtain ⟨id, content, span, children⟩ := current
      cases leaf
      rfl
    rw [kept]
    exact visits.exitOnce _ ready exits
  | element same place moves frames noted inner =>
    cases same.symm.trans focused
    have visits := Visits.exitElement ready place moves frames noted inner
      (deeper _ 0 (.inl rfl) inner).1
    rw [exitAll_append]
    exact visits.exitOnce _ ready exits
  | conditional same place moves frames noted inner elements length chained tested =>
    cases same.symm.trans focused
    have visits := Visits.exitConditional ready place moves frames noted inner elements length
      chained tested (deeper _ 2 (.inr (.inl rfl)) inner).1
    exact visits.exitOnce _ ready exits
  | @loop site _ _ _ _ _ same place moves frames noted inner element =>
    cases same.symm.trans focused
    obtain ⟨visits, repeats⟩ := deeper _ 3 (.inr (.inr rfl)) inner
    have repeated := repeats rfl fun node first => by
      cases first
      exact element
    exact (Visits.exitLoop site ready moves frames noted inner repeated visits).exitOnce _ ready exits

/-- Whether a node is to be rendered once or kept does not change while its children are
visited. -/
theorem Outcome.mark_below {once : List (Nat × Pass)} {entered : Entered} {current : Node}
    {below : Visited} (outcome : Outcome around ancestors hasSiblings todo before once entered)
    (focused : entered.site.focus = some current)
    (bare : current.children = [] → below = ⟨[], entered.progress⟩)
    (deeper : ∀ within depth, (depth = 0 ∨ depth = 2 ∨ depth = 3) →
      entered.progress.Ready within (current.id :: ancestors) depth current.children →
      Visits within current.isElement current.children entered.progress below.nodes []
        below.progress) :
    below.progress.marks.get? current.id = entered.progress.marks.get? current.id := by
  by_cases leaf : current.children = []
  · rw [bare leaf]
  · obtain ⟨depth, staged, inner⟩ := outcome.inner focused leaf
    exact ((deeper _ depth staged inner).parent inner).2.mark

theorem exitAll_elementExits (node : Node) (site : Site) (progress : Progress) :
    (exitAll node site progress elementExits).1.isElement = node.isElement ∧
      (exitAll node site progress elementExits).1.id = node.id ∧
      (exitAll node site progress elementExits).2.marks = progress.marks := by
  obtain ⟨id, content, span, children⟩ := node
  cases content with
  | element => exact ⟨rfl, rfl, (TextRun.writes_foldl progress (TextRun.runs children)).marks⟩
  | _ => exact ⟨rfl, rfl, rfl⟩

/-- A walk over a list of nodes finishes all of them. -/
theorem visitAll_visits {visited : Visited} (ready : before.Ready around ancestors stage todo)
    (staged : stage = 0 ∨ stage = 2 ∨ stage = 3)
    (walked : visitAll defaultPasses ancestors hasSiblings done todo before = .ok visited) :
    ∃ out, visited.nodes = done.reverse ++ out ∧
      Visits around hasSiblings todo before out [] visited.progress ∧
      Repeats stage todo out visited.progress := by
  fun_induction visitAll defaultPasses ancestors hasSiblings done todo before
    generalizing around stage visited with
  | case1 ancestors hasSiblings done progress =>
    cases walked
    exact ⟨[], (List.append_nil _).symm, .nil progress, fun _ _ made first => by cases first⟩
  | case2 => cases walked
  | case3 ancestors hasSiblings done progress node rest entered enters unfocused ih =>
    obtain ⟨once, exits, outcome⟩ := enterAll_outcome ready staged enters
    cases outcome with
    | gone _ visits =>
      obtain ⟨out, same, later, -⟩ := ih (visits.ready ready) (.inl rfl) walked
      refine ⟨out, same, visits.append later ready, fun staged element => ?_⟩
      subst staged
      obtain ⟨current, focused, -⟩ := enterAll_repeated ready (element node rfl) enters
      cases focused.symm.trans unfocused
    | leaf focused | element focused | conditional focused | loop focused =>
      cases focused.symm.trans unfocused
  | case4 => cases walked
  | case5 ancestors hasSiblings done progress node rest entered enters current focused below
      walkedBelow left ihBelow =>
    rename_i ihRest
    obtain ⟨once, exits, outcome⟩ := enterAll_outcome ready staged enters
    have bare (leaf : current.children = []) : below = ⟨[], entered.progress⟩ := by
      rw [leaf, visitAll] at walkedBelow
      exact (Except.ok.inj walkedBelow).symm
    have deeper (within : Surroundings) (depth : Nat) (staged : depth = 0 ∨ depth = 2 ∨ depth = 3)
        (inner : entered.progress.Ready within (current.id :: ancestors) depth current.children) :
        Visits within current.isElement current.children entered.progress below.nodes []
            below.progress ∧ Repeats depth current.children below.nodes below.progress := by
      obtain ⟨out, same, visits⟩ := ihBelow inner staged walkedBelow
      rw [List.reverse_nil, List.nil_append] at same
      rw [same]
      exact visits
    have visits : Visits around hasSiblings (node :: rest) progress [left.1] entered.site.after
        left.2 := outcome.leave exits ready focused bare deeper
    obtain ⟨out, same, later, -⟩ := ihRest (visits.ready ready) (.inl rfl) walked
    refine ⟨left.1 :: out, ?_, visits.append later ready, ?_⟩
    · rw [same, List.reverse_cons, List.append_assoc]
      rfl
    · rintro staged element made ⟨⟩
      subst staged
      obtain ⟨repeated, found, isElement, unmarked, exits⟩ :=
        enterAll_repeated ready (element node rfl) enters
      cases found.symm.trans focused
      obtain ⟨kind, number, marks⟩ := exitAll_elementExits { current with children := below.nodes }
        entered.site below.progress
      simp only [left, exits] at visits later ⊢
      refine ⟨kind.trans isElement, ?_⟩
      -- Neither the visit of its children nor that of what follows changes the mark.
      have present := Node.tally_self_pos
        (exitAll { current with children := below.nodes } entered.site below.progress elementExits).1
      rw [number] at present ⊢
      dsimp only at present ⊢
      rw [(visits.agrees_front ready later.toMoves present).mark, marks,
        outcome.mark_below focused bare fun within depth staged inner =>
          (deeper within depth staged inner).1]
      exact unmarked

/-- What the render function returns for the given nodes. -/
def RootCode.ofIds : List NodeId → RootCode
  | [] => .empty
  | [only] => .single only
  | several =>
    .fragment
      { tag := .symbol .fragment
        children := several
        patchFlag := .stableFragment
        isBlock := true }

def Role.ofRoots (roots : List Node) : Role :=
  if roots.length = 1 then .root else .child false

structure Walked (option : LowerOption) (template : Template) (roots : List Node)
    (progress : Progress) : Prop where
  tally : ∀ number, Node.tally number roots +
    Node.tally number (template.dropped ++ progress.dropped) =
      (List.range progress.next).count number
  settled : ∀ node ∈ roots, Settled progress option.surroundings
    (Role.ofRoots roots) node
  silent : ∀ number, Node.tally number roots = 0 → progress.Silent number
  root : progress.root = .ofIds (roots.map (·.id))

theorem Elements.exitRoot_settles {roots : List Node} {progress : Progress}
    (distinct : ∀ number, Node.tally number roots ≤ 1)
    (settled : ∀ node ∈ roots, Settled progress around (.child (roots.length = 1)) node) :
    (∀ node ∈ roots,
      Settled (Elements.exitRoot roots progress) around (Role.ofRoots roots) node) ∧
    (Elements.exitRoot roots progress).root = .ofIds (roots.map (·.id)) := by
  match roots with
  | [] => exact ⟨fun _ member => (nomatch member), rfl⟩
  | [only] =>
    refine ⟨fun node member => ?_, rfl⟩
    cases List.mem_singleton.1 member
    have own := settled only member
    refine own.adopt (fun vnode => { vnode with isBlock := true }) (fun number present => ?_)
      ⟨own.noted.dependencies, own.noted.mark⟩ ?_ (fun _ => rfl) fun _ => rfl
    · refine ⟨?_, rfl, rfl, rfl, fun _ => rfl⟩
      refine (Progress.get?_modifyVNode ..).trans (if_neg ?_)
      intro same
      subst same
      have := Node.tally_children_eq_zero distinct member member
      omega
    · exact (Progress.get?_modifyVNode ..).trans (if_pos rfl)
  | first :: second :: others =>
    refine ⟨fun node member => ?_, rfl⟩
    have own := settled node member
    exact own.agrees fun _ _ => ⟨rfl, rfl, rfl, rfl, fun _ => rfl⟩

theorem Elements.exitRoot_next (roots : List Node) (progress : Progress) :
    (Elements.exitRoot roots progress).next = progress.next := by
  simp only [Elements.exitRoot]
  split <;> rfl

theorem Elements.exitRoot_dropped (roots : List Node) (progress : Progress) :
    (Elements.exitRoot roots progress).dropped = progress.dropped := by
  simp only [Elements.exitRoot]
  split <;> rfl

theorem Elements.exitRoot_silent {roots : List Node} {progress : Progress} {number : NodeId}
    (silent : progress.Silent number) : (Elements.exitRoot roots progress).Silent number := by
  simp only [Elements.exitRoot]
  split
  · exact ⟨silent.table, silent.dependencies⟩
  · refine ⟨?_, silent.dependencies⟩
    refine (Progress.get?_modifyVNode ..).trans ?_
    rw [silent.table]
    split <;> rfl
  · exact ⟨silent.table, silent.dependencies⟩

theorem Template.Numbered.ready {template : Template} (numbered : template.Numbered)
    (option : LowerOption) :
    Progress.Ready (option.start template)
      option.surroundings [] 0 template.roots := by
  have blank (number : NodeId) : Progress.Blank
      (option.start template) number :=
    ⟨rfl, rfl, rfl, rfl, fun _ => rfl⟩
  have once (number : Nat) := numbered.tally number
  have range (number : Nat) := Node.count_range_cases number template.size
  refine ⟨numbered.parsed, fun number => ?_, fun number present => ?_, fun number _ _ => blank number,
    fun number _ => blank number, fun node _ => (blank node.id).begun _, rfl, rfl, rfl,
    fun _ member => (nomatch member)⟩
  · have := once number
    have := range number
    omega
  · have := once number
    have := range number
    change number < template.size
    omega

/-- What is known at the root when its children have been visited is what was known before. -/
theorem Visits.surroundings_root {option : LowerOption} {template : Template} {out : List Node}
    {after : Progress} {stage : Nat}
    (visits : Visits option.surroundings true template.roots (option.start template) out [] after)
    (ready : (option.start template).Ready option.surroundings [] stage template.roots) :
    after.surroundings {} = option.surroundings := by
  obtain ⟨reader, cacheHandlers⟩ := Prod.mk.inj visits.setting
  simp only [Progress.surroundings, visits.scope, ready.scope, reader, cacheHandlers]
  rfl

/-- A walk over a parsed template that comes to its end has settled all that is left of it. -/
theorem walk_walked {option : LowerOption} {template : Template} {roots : List Node}
    {progress : Progress} (numbered : template.Numbered)
    (walked : walk defaultPasses template.roots
      (option.start template) = .ok (roots, progress)) :
    Walked option template roots progress := by
  obtain ⟨visited, visiting, left⟩ := ok_of_map_eq_ok walked
  have ready := numbered.ready option
  obtain ⟨out, same, visits, -⟩ := visitAll_visits ready (.inl rfl) visiting
  rw [List.reverse_nil, List.nil_append] at same
  have around := visits.surroundings_root ready
  have merges := TextRun.merges true (visits.distinct ready) visits.finished
  rw [← around] at merges
  -- Only the passes for texts and for elements do something at the root.
  have leaves : exitRootAll out visited.progress defaultPasses =
      ((TextRun.exitRoot out visited.progress).1, Elements.exitRoot
        (TextRun.exitRoot out visited.progress).1 (TextRun.exitRoot out visited.progress).2) := rfl
  rw [same, leaves] at left
  change TextRun.Merges _ true out visited.progress (TextRun.exitRoot out visited.progress) at merges
  rw [around] at merges
  generalize TextRun.exitRoot out visited.progress = merged at merges left
  cases left
  have kept (number : Nat) := merges.tally number
  have conserved (number : Nat) := visits.conserved number
  obtain ⟨settled, root⟩ := @Elements.exitRoot_settles option.surroundings
    merged.1 merged.2
    (fun number => by
      have := visits.owned ready number
      have := kept number
      have := merges.dropped_le number
      rw [Node.tally_nil] at *
      omega)
    (by simpa using merges.settled)
  refine ⟨fun number => ?_, settled, fun number absent => ?_, root⟩
  · have := kept number
    have balance := conserved number
    have numbers := numbered.tally number
    rw [Elements.exitRoot_next, Elements.exitRoot_dropped, Node.tally_append, merges.next]
    simp only [LowerOption.start, Node.tally_nil] at balance
    omega
  · refine Elements.exitRoot_silent (merges.silent number absent fun outside => ?_)
    exact visits.silent number outside ⟨rfl, rfl⟩

theorem lower_walked {option : LowerOption} {template : Template} {lowered : Lowered}
    (numbered : template.Numbered) (lowers : lower option template = .ok lowered) :
    ∃ roots progress, Walked option template roots progress ∧
      lowered.plan = (if option.hoistStatic then (planOf template roots progress).hoist
        else planOf template roots progress).injectCache := by
  obtain ⟨roots, progress, walked, -, rfl⟩ := walk_of_lowerWith lowers
  exact ⟨roots, progress, walk_walked numbered walked, rfl⟩

end TemplateCompiler
