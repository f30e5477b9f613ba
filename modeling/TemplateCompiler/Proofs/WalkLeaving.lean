import TemplateCompiler.Proofs.TextRuns
import TemplateCompiler.Proofs.WalkGrouping

/-! What leaving a node does. The code of an element, a conditional or a loop is written once its
children are done, in the surroundings that the node was entered in; the children are fitted into
their places then. -/

namespace TemplateCompiler

variable {around within : Surroundings} {ancestors : List NodeId} {hasSiblings : Bool} {stage : Nat}
  {todo out rest : List Node} {node : Node} {before opened visited after : Progress} {site : Site}

theorem exitAll_append (node : Node) (site : Site) (progress : Progress)
    (first second : List (Nat × Pass)) :
    exitAll node site progress (first ++ second) =
      exitAll (exitAll node site progress first).1 site (exitAll node site progress first).2
        second := by
  induction first generalizing node progress with
  | nil => rfl
  | cons entry first ih =>
    obtain ⟨ordinal, pass⟩ := entry
    exact ih _ _

theorem Progress.Ready.surroundings {progress : Progress} (node : Node)
    (ready : progress.Ready within (node.id :: ancestors) stage todo)
    (place : site.ancestors = ancestors) : progress.surroundings (site.replace node) = within := by
  have inOnce : progress.inOnce (site.replace node) = within.inOnce := by
    rw [← ready.inOnce, ← place]
    rfl
  obtain ⟨reader, cacheHandlers⟩ := Prod.mk.inj ready.setting
  simp only [Progress.surroundings, ready.scope, reader, cacheHandlers, inOnce]

/-- What a single node has become of stays as it is when the node is marked. -/
theorem Visits.mark (visits : Visits around hasSiblings todo before [node] rest after)
    (ready : before.Ready around ancestors stage todo) (outside : around.inOnce = false) :
    Visits around hasSiblings todo before [node] rest (Once.exit node after) := by
  have owned (number : Nat) := visits.owned ready number
  have marks (number : NodeId) (different : number ≠ node.id) :
      after.Agrees number (Once.exit node after) := by
    refine ⟨rfl, rfl, ?_, rfl, fun _ => rfl⟩
    simp only [Once.exit, NodeMap.get?_insert, if_neg different]
  refine ⟨⟨visits.conserved, visits.next_le, visits.dropped_le, visits.setting, ?_,
      fun number absent silent => ?_, visits.subset, visits.past, visits.length⟩,
    visits.scope, visits.frames, ?_, visits.texts⟩
  · intro number (apart : number < before.next ∧ Node.tally number todo = 0 ∨
        number ≥ after.next ∨ 0 < Node.tally number rest)
    refine (visits.frame number apart).trans (marks number ?_)
    intro same
    subst same
    have := owned node.id
    have := Node.tally_self_pos node
    omega
  · have := visits.silent number absent silent
    exact ⟨this.table, this.dependencies⟩
  · intro made member
    cases List.mem_singleton.1 member
    have noted (old : after.Noted around node.id) : (Once.exit node after).Noted around node.id := by
      refine ⟨old.dependencies, fun inside => ?_⟩
      rw [outside] at inside
      cases inside
    rcases visits.finished node (List.mem_singleton_self node) with
      ⟨isText, leaf, silent, old⟩ | ⟨noText, settled⟩
    · exact .inl ⟨isText, leaf, ⟨silent.table, silent.dependencies⟩, noted old⟩
    · refine .inr ⟨noText, settled.adopt id (fun number present => marks number ?_)
        (noted settled.noted) ?_ (fun _ => rfl) fun _ => rfl⟩
      · intro same
        subst same
        have := owned node.id
        have := Node.tally_singleton node.id node
        rw [List.count_singleton_self] at this
        omega
      · change after.table.get? node.id = _
        simp only [Code.mapVNode_id, Option.map_id_fun', id]

/-- The pass for nodes that are rendered once is the last one to leave a node. -/
theorem Visits.exitOnce {once : List (Nat × Pass)} (site : Site)
    (visits : Visits around hasSiblings todo before [node] rest after)
    (ready : before.Ready around ancestors stage todo) (exits : OnceExits around once) :
    Visits around hasSiblings todo before [(exitAll node site after once).1] rest
      (exitAll node site after once).2 := by
  rcases exits with rfl | ⟨rfl, outside⟩
  · exact visits
  · exact visits.mark ready outside

theorem Elements.writes_exit (id : NodeId) (element : Element) (span : Span) (children : List Node)
    (site : Site) (progress : Progress) :
    progress.Writes (Elements.exit ⟨id, .element element, span, children⟩ site progress) :=
  ⟨rfl, rfl, rfl, rfl, rfl, rfl, rfl, rfl, rfl⟩

theorem Elements.get?_exit (id : NodeId) (element : Element) (span : Span) (children : List Node)
    (site : Site) (progress : Progress) (number : NodeId) :
    (Elements.exit ⟨id, .element element, span, children⟩ site progress).table.get? number =
      if number = id then
        some { body := .vnode (lowerElement (progress.surroundings site) progress.table element
                (children.map (·.id))).value }
      else progress.table.get? number :=
  Table.get?_set ..

/-- Leaving an element merges its texts and writes its virtual node. -/
theorem Visits.exitElement {id : NodeId} {element : Element} {span : Span} {children : List Node}
    (ready : before.Ready around ancestors stage todo) (place : site.ancestors = ancestors)
    (moves : Moves hasSiblings todo before [⟨id, .element element, span, children⟩] rest opened)
    (frames : opened.frames = before.frames) (noted : opened.Noted around id)
    (below : opened.Ready (around.inside element) (id :: ancestors) 0 children)
    (visits : Visits (around.inside element) true children opened out [] visited) :
    Visits around hasSiblings todo before
      [(exitAll ⟨id, .element element, span, out⟩ site visited elementExits).1] rest
      (exitAll ⟨id, .element element, span, out⟩ site visited elementExits).2 := by
  have done := visits.ready below
  have inside := Progress.Ready.surroundings ⟨id, .element element, span, out⟩ done place
  have merges := TextRun.merges (element.kind = .plain) (visits.distinct below) visits.finished
  rw [← inside] at merges
  generalize same : TextRun.merge (visited.surroundings
    (site.replace ⟨id, .element element, span, out⟩)) (element.kind = .plain) out visited = merged
    at merges
  rw [inside] at merges
  have left : exitAll ⟨id, .element element, span, out⟩ site visited elementExits =
      (⟨id, .element element, span, merged.1⟩,
        Elements.exit ⟨id, .element element, span, merged.1⟩
          (site.replace ⟨id, .element element, span, merged.1⟩) merged.2) := by
    rw [← same]
    rfl
  have still : merged.2.surroundings (site.replace ⟨id, .element element, span, merged.1⟩) =
      around.inside element := by
    rw [← inside]
    obtain ⟨reader, cacheHandlers⟩ := Prod.mk.inj merges.setting
    simp only [Progress.surroundings, Progress.inOnce, merges.scope, reader, cacheHandlers,
      merges.onceNodes]
    rfl
  have writes := Elements.writes_exit id element span merged.1
    (site.replace ⟨id, .element element, span, merged.1⟩) merged.2
  have table := Elements.get?_exit id element span merged.1
    (site.replace ⟨id, .element element, span, merged.1⟩) merged.2
  rw [left]
  generalize Elements.exit ⟨id, .element element, span, merged.1⟩
    (site.replace ⟨id, .element element, span, merged.1⟩) merged.2 = after at *
  -- The number of the element is on none of its children.
  obtain ⟨absent, untouched⟩ := visits.parent below
  have others (number : NodeId) (different : number ≠ id) : merged.2.Agrees number after :=
    writes.agrees (by rw [table, if_neg different])
  have deeper (number : NodeId) (present : 0 < Node.tally number merged.1) :
      merged.2.Agrees number after := by
    refine others number ?_
    intro same
    subst same
    have := merges.tally number
    have := merges.dropped_le number
    omega
  have agrees : opened.Agrees id merged.2 := untouched.trans (merges.frame id absent)
  refine .single ?_ ?_ ?_ (.inr ⟨rfl, ?_⟩) ?_
  · refine moves.close visits ready below ?_ ?_ ?_ ?_ ?_ ?_
    · rw [writes.dropped]
      exact merges.tally
    · rw [writes.dropped]
      exact merges.dropped_le
    · exact writes.next.trans merges.next
    · exact writes.setting.trans merges.setting
    · exact fun number different outside =>
        (merges.frame number outside).trans (others number different)
    · exact fun number different absent silent =>
        (merges.silent number absent silent).agrees (others number different)
  · rw [writes.scope, merges.scope, visits.scope, below.scope, ready.scope]
    rfl
  · rw [writes.frames, merges.frames, visits.frames, frames]
  · refine .element (writes.noted (noted.agrees agrees)) ?_ fun child member => ?_
    · rw [table, if_pos rfl, still, Settled.lowerElement_congr fun child member =>
        (deeper child.id (Node.tally_pos_of_mem member)).table]
      rfl
    · refine (merges.settled child member).agrees fun number present => deeper number ?_
      have := Node.tally_le_of_mem number member
      omega
  · intro isText
    cases isText

theorem Progress.get?_modifyVNode (progress : Progress) (id number : NodeId)
    (change : VNode → VNode) :
    (progress.modifyVNode id change).table.get? number =
      if number = id then (progress.table.get? number).map (·.mapVNode change)
      else progress.table.get? number :=
  Table.get?_modify ..

theorem Progress.writes_modifyVNode (progress : Progress) (id : NodeId) (change : VNode → VNode) :
    progress.Writes (progress.modifyVNode id change) :=
  ⟨rfl, rfl, rfl, rfl, rfl, rfl, rfl, rfl, rfl⟩

namespace Conditional

/-- Fit the branches into their places. -/
def keyAll (pairs : List (Branch × Node)) (progress : Progress) : Progress :=
  pairs.foldl (fun progress pair => keyBranch progress pair.1 pair.2) progress

theorem writes_keyAll (pairs : List (Branch × Node)) (progress : Progress) :
    progress.Writes (keyAll pairs progress) := by
  induction pairs generalizing progress with
  | nil => exact .refl progress
  | cons pair pairs ih => exact (progress.writes_modifyVNode _ _).trans (ih _)

theorem get?_keyAll_elsewhere {number : NodeId} {pairs : List (Branch × Node)} (progress : Progress)
    (elsewhere : ∀ pair ∈ pairs, number ≠ pair.2.id) :
    (keyAll pairs progress).table.get? number = progress.table.get? number := by
  induction pairs generalizing progress with
  | nil => rfl
  | cons pair pairs ih =>
    obtain ⟨own, others⟩ := List.forall_mem_cons.1 elsewhere
    exact (ih _ others).trans ((Progress.get?_modifyVNode ..).trans (if_neg own))

theorem get?_keyAll {pairs : List (Branch × Node)} (progress : Progress)
    (distinct : ∀ number, Node.tally number (pairs.map (·.2)) ≤ 1) {pair : Branch × Node}
    (member : pair ∈ pairs) :
    (keyAll pairs progress).table.get? pair.2.id = (progress.table.get? pair.2.id).map
      (·.mapVNode fun vnode => (Role.branch pair.1.key).finish pair.2.properties vnode) := by
  obtain ⟨front, back, rfl⟩ := List.append_of_mem member
  have once := distinct pair.2.id
  have own := Node.tally_self_pos pair.2
  rw [List.map_append, List.map_cons, Node.tally_append, Node.tally_cons pair.2.id pair.2] at once
  have apart {part : List (Branch × Node)}
      (fewer : Node.tally pair.2.id (part.map (·.2)) = 0) :
      ∀ other ∈ part, pair.2.id ≠ other.2.id := by
    intro other inside same
    have double : 0 < Node.tally other.2.id (part.map (·.2)) :=
      Node.tally_pos_of_mem (List.mem_map_of_mem inside)
    rw [← same] at double
    omega
  rw [keyAll, List.foldl_append, List.foldl_cons]
  refine (get?_keyAll_elsewhere _ (apart (by omega))).trans ?_
  refine ((Progress.get?_modifyVNode ..).trans (if_pos rfl)).trans ?_
  exact congrArg (Option.map _) (get?_keyAll_elsewhere progress (apart (by omega)))

/-- The state outside of a conditional over the given branches, which has just been left. -/
def leave (around : Surroundings) (id : NodeId) (pairs : List (Branch × Node))
    (progress : Progress) : Progress :=
  ((keyAll pairs progress).absorb (links around pairs)).setCode id (body around pairs)

theorem links_isEmpty (around : Surroundings) {pairs : List (Branch × Node)}
    (tested : (pairs.head?.bind (·.1.condition)).isSome = true) :
    (links around pairs).value.1.isEmpty = false := by
  cases pairs with
  | nil => cases tested
  | cons pair pairs =>
    obtain ⟨branch, child⟩ := pair
    cases given : branch.condition with
    | none => simp [given] at tested
    | some condition => simp [links, given]

theorem exit_eq {around : Surroundings} {id : NodeId} {span : Span} {pairs : List (Branch × Node)}
    {site : Site} {progress : Progress} (inside : progress.surroundings site = around)
    (tested : (pairs.head?.bind (·.1.condition)).isSome = true) :
    Conditional.exit ⟨id, .conditional (pairs.map (·.1)), span, pairs.map (·.2)⟩ site progress =
      leave around id pairs progress := by
  have zipped : (pairs.map (·.1)).zip (pairs.map (·.2)) = pairs := (List.zip_of_prod rfl rfl).symm
  have still := ((writes_keyAll pairs progress).surroundings site).trans inside
  simp only [Conditional.exit, zipped]
  rw [keyAll] at still
  simp only [still, links_isEmpty around tested]
  rfl

section Leave

variable (around) {pairs : List (Branch × Node)} (progress : Progress)

theorem writes_leave (id : NodeId) (pairs : List (Branch × Node)) :
    progress.Writes (leave around id pairs progress) :=
  (writes_keyAll pairs progress).trans ⟨rfl, rfl, rfl, rfl, rfl, rfl, rfl, rfl, rfl⟩

theorem get?_leave (id : NodeId) (pairs : List (Branch × Node)) (number : NodeId) :
    (leave around id pairs progress).table.get? number =
      if number = id then some { body := body around pairs }
      else (keyAll pairs progress).table.get? number :=
  Table.get?_set ..

/-- Only the code of the conditional and of its branches is touched. -/
theorem agrees_leave {id number : NodeId} (outer : number ≠ id)
    (inner : ∀ pair ∈ pairs, number ≠ pair.2.id) :
    progress.Agrees number (leave around id pairs progress) := by
  refine (writes_leave around progress id pairs).agrees ?_
  rw [get?_leave, if_neg outer, get?_keyAll_elsewhere progress inner]

theorem agrees_leave_elsewhere {id number : NodeId} (outer : number ≠ id)
    (outside : Node.tally number (pairs.map (·.2)) = 0) :
    progress.Agrees number (leave around id pairs progress) := by
  refine agrees_leave around progress outer fun pair member same => ?_
  have : 0 < Node.tally pair.2.id (pairs.map (·.2)) :=
    Node.tally_pos_of_mem (List.mem_map_of_mem member)
  rw [← same] at this
  omega

variable {progress} {around}

/-- A branch is settled in its place, and what is below it stays as it is. -/
theorem settled_leave {id : NodeId} (absent : Node.tally id (pairs.map (·.2)) = 0)
    (distinct : ∀ number, Node.tally number (pairs.map (·.2)) ≤ 1) {pair : Branch × Node}
    (member : pair ∈ pairs) (noText : pair.2.isTextLike = false)
    (settled : Settled progress around (.child false) pair.2) :
    Settled (leave around id pairs progress) around (.branch pair.1.key) pair.2 := by
  have inside : pair.2 ∈ pairs.map (·.2) := List.mem_map_of_mem member
  refine settled.adopt
    (fun vnode => (Role.branch pair.1.key).finish pair.2.properties vnode) (fun number present => ?_)
    ((writes_leave around progress id pairs).noted settled.noted) ?_ (fun _ => rfl)
    fun isText => ?_
  · have more := Node.tally_children_le number inside
    refine agrees_leave around progress ?_ ?_
    · intro same
      subst same
      omega
    · rintro other listed rfl
      have := Node.tally_children_eq_zero distinct inside (List.mem_map_of_mem listed)
      omega
  · rw [get?_leave, if_neg, get?_keyAll progress distinct member]
    intro same
    have := Node.tally_pos_of_mem inside
    rw [same] at this
    omega
  · rw [isText] at noText
    cases noText

end Leave

end Conditional

/-- Leaving a conditional keys its branches and writes its tests. -/
theorem Visits.exitConditional {id : NodeId} {branches : List Branch} {span : Span}
    {children : List Node}
    (ready : before.Ready around ancestors stage todo) (place : site.ancestors = ancestors)
    (moves : Moves hasSiblings todo before [⟨id, .conditional branches, span, children⟩] rest opened)
    (frames : opened.frames = before.frames) (noted : opened.Noted around id)
    (below : opened.Ready around (id :: ancestors) 2 children)
    (elements : ∀ child ∈ children, child.isTextLike = false)
    (length : branches.length = children.length) (chained : Conditional.Chained branches)
    (tested : (branches.head?.bind (·.condition)).isSome = true)
    (visits : Visits around false children opened out [] visited) :
    Visits around hasSiblings todo before
      [(exitAll ⟨id, .conditional branches, span, out⟩ site visited [(1, Conditional.pass)]).1] rest
      (exitAll ⟨id, .conditional branches, span, out⟩ site visited [(1, Conditional.pass)]).2 := by
  have done := visits.ready below
  -- There is one child for each branch, so the node is made of pairs.
  obtain ⟨pairs, rfl, rfl⟩ : ∃ pairs : List (Branch × Node),
      branches = pairs.map (·.1) ∧ out = pairs.map (·.2) := by
    have same := visits.length rfl
    rw [List.length_nil, Nat.add_zero, ← length] at same
    exact ⟨branches.zip out, (List.map_fst_zip (Nat.le_of_eq same.symm)).symm,
      (List.map_snd_zip (Nat.le_of_eq same)).symm⟩
  have tested : (pairs.head?.bind (·.1.condition)).isSome = true := by
    rw [List.head?_map, Option.bind_map] at tested
    exact tested
  have left : exitAll ⟨id, .conditional (pairs.map (·.1)), span, pairs.map (·.2)⟩ site visited
      [(1, Conditional.pass)] = (⟨id, .conditional (pairs.map (·.1)), span, pairs.map (·.2)⟩,
        Conditional.leave around id pairs visited) :=
    congrArg (Prod.mk _) (Conditional.exit_eq (Progress.Ready.surroundings
      ⟨id, .conditional (pairs.map (·.1)), span, pairs.map (·.2)⟩ done place) tested)
  rw [left]
  have writes := Conditional.writes_leave around visited id pairs
  have distinct := visits.distinct below
  obtain ⟨absent, agrees⟩ := visits.parent below
  have others (number : NodeId) (different : number ≠ id)
      (outside : Node.tally number (pairs.map (·.2)) = 0) :=
    Conditional.agrees_leave_elsewhere around visited different outside
  refine .single ?_ ?_ ?_ (.inr ⟨rfl, ?_⟩) ?_
  · refine moves.close visits ready below ?_ ?_ writes.next writes.setting others ?_
    · rw [writes.dropped]
      exact fun _ => rfl
    · rw [writes.dropped]
      exact fun _ => Nat.le_refl _
    · exact fun number different absent silent =>
        (silent absent).agrees (others number different absent)
  · rw [writes.scope, visits.scope, below.scope, ready.scope]
  · rw [writes.frames, visits.frames, frames]
  · refine .conditional (writes.noted (noted.agrees agrees)) chained tested ?_ fun pair member => ?_
    · rw [Conditional.get?_leave, if_pos rfl]
    · have inside : pair.2 ∈ pairs.map (·.2) := List.mem_map_of_mem member
      have noText : pair.2.isTextLike = false := by
        cases isText : pair.2.isTextLike with
        | false => rfl
        | true => rw [← elements pair.2 (visits.texts pair.2 inside isText), isText]
      exact Conditional.settled_leave absent distinct member noText (visits.settled inside noText)
  · intro isText
    cases isText

/-- Leaving a loop takes back what entering it brought into scope, also if a name was there
before. -/
theorem Scope.removeAll_addAll (scope : Scope) (names : List String) :
    (scope.addAll names).removeAll names = scope := by
  have added (names : List String) (scope : Scope) :
      scope.addAll names = ⟨names.reverse ++ scope.aliases⟩ := by
    induction names generalizing scope with
    | nil => rfl
    | cons name names ih =>
      refine (ih (scope.add name)).trans ?_
      simp [Scope.add]
  have removed (names front : List String) (same : front.Perm names) :
      Scope.removeAll ⟨front ++ scope.aliases⟩ names = scope := by
    induction names generalizing front with
    | nil =>
      rw [same.eq_nil]
      rfl
    | cons name names ih =>
      have member : name ∈ front := same.mem_iff.2 List.mem_cons_self
      have fewer : (front.erase name).Perm names := by
        simpa using same.erase name
      refine Eq.trans ?_ (ih (front.erase name) fewer)
      simp only [Scope.removeAll, List.foldl_cons, Scope.remove, List.erase_append_left _ member]
  rw [added]
  exact removed names names.reverse (List.reverse_perm names)

namespace Loops

/-- The state outside of a loop over the given body, which has just been left. -/
def leave (around : Surroundings) (id : NodeId) (loop : Loop) (body : Node)
    (frames : List LoopFrame) (progress : Progress) : Progress :=
  ({ progress with frames, scope := progress.scope.removeAll (loop.names around.reader) }.modifyVNode body.id
    fun vnode => (Role.item (around.resolveValue loop.source).value.level.isStatic).finish
      body.properties vnode).setCode id (.loop (call around loop body))

theorem exit_eq {around : Surroundings} {id : NodeId} {loop : Loop} {span : Span} {body : Node}
    {progress : Progress} {frames : List LoopFrame}
    (pushed : progress.frames =
      ⟨2, id, (around.resolveValue loop.source).value, loop.names around.reader⟩ :: frames) :
    Loops.exit 2 ⟨id, .loop loop, span, [body]⟩ progress =
      leave around id loop body frames progress := by
  simp only [Loops.exit, Loops.popFrame, pushed]
  rfl

theorem get?_leave (around : Surroundings) (id : NodeId) (loop : Loop) (body : Node)
    (frames : List LoopFrame) (progress : Progress) (number : NodeId) :
    (leave around id loop body frames progress).table.get? number =
      if number = id then some { body := .loop (call around loop body) }
      else if number = body.id then (progress.table.get? number).map (·.mapVNode fun vnode =>
        (Role.item (around.resolveValue loop.source).value.level.isStatic).finish
          body.properties vnode)
      else progress.table.get? number := by
  rw [leave, Progress.setCode, Table.get?_set, Progress.get?_modifyVNode]

theorem agrees_leave {around : Surroundings} {id : NodeId} {loop : Loop} {body : Node}
    {frames : List LoopFrame} {progress : Progress} {number : NodeId} (outer : number ≠ id)
    (inner : number ≠ body.id) : progress.Agrees number (leave around id loop body frames progress) :=
  ⟨by rw [get?_leave, if_neg outer, if_neg inner], rfl, rfl, rfl, fun _ => rfl⟩

/-- The body is settled in its place, and what is below it stays as it is. -/
theorem settled_leave {around : Surroundings} {id : NodeId} {loop : Loop} {body : Node}
    {frames : List LoopFrame} {progress : Progress} (absent : Node.tally id [body] = 0)
    (distinct : ∀ number, Node.tally number [body] ≤ 1) (noText : body.isTextLike = false)
    (settled : Settled progress (around.within loop) (.child false) body) :
    Settled (leave around id loop body frames progress) (around.within loop)
      (.item (around.resolveValue loop.source).value.level.isStatic) body := by
  have member : body ∈ [body] := List.mem_singleton_self body
  refine settled.adopt (fun vnode =>
      (Role.item (around.resolveValue loop.source).value.level.isStatic).finish
        body.properties vnode) (fun number present => ?_)
    ⟨settled.noted.dependencies, settled.noted.mark⟩ ?_ (fun _ => rfl) fun isText => ?_
  · have more := Node.tally_children_le number member
    refine agrees_leave ?_ ?_
    · intro same
      subst same
      omega
    · intro same
      subst same
      have := Node.tally_children_eq_zero distinct member member
      omega
  · rw [get?_leave, if_neg, if_pos rfl]
    intro same
    have := Node.tally_self_pos body
    rw [same] at this
    omega
  · rw [isText] at noText
    cases noText

end Loops

/-- Leaving a loop writes it outside of the scope that it opened. -/
theorem Visits.exitLoop (site : Site) {id : NodeId} {loop : Loop} {span : Span} {child : Node}
    (ready : before.Ready around ancestors stage todo)
    (moves : Moves hasSiblings todo before [⟨id, .loop loop, span, [child]⟩] rest opened)
    (frames : opened.frames =
      ⟨2, id, (around.resolveValue loop.source).value, loop.names around.reader⟩ :: before.frames)
    (noted : opened.Noted around id)
    (below : opened.Ready (around.within loop) (id :: ancestors) 3 [child])
    (repeated : ∀ body ∈ out.head?, body.isElement = true ∧ visited.marks.get? body.id ≠ some .once)
    (visits : Visits (around.within loop) false [child] opened out [] visited) :
    Visits around hasSiblings todo before
      [(exitAll ⟨id, .loop loop, span, out⟩ site visited [(2, Loops.pass)]).1] rest
      (exitAll ⟨id, .loop loop, span, out⟩ site visited [(2, Loops.pass)]).2 := by
  obtain ⟨body, rfl⟩ : ∃ body, out = [body] := by
    have same := visits.length rfl
    exact List.length_eq_one_iff.1 same
  have left : exitAll ⟨id, .loop loop, span, [body]⟩ site visited [(2, Loops.pass)] =
      (⟨id, .loop loop, span, [body]⟩, Loops.leave around id loop body before.frames visited) :=
    congrArg (Prod.mk _) (Loops.exit_eq (visits.frames.trans frames))
  rw [left]
  have member : body ∈ [body] := List.mem_singleton_self body
  have distinct := visits.distinct below
  obtain ⟨absent, agrees⟩ := visits.parent below
  obtain ⟨isElement, unmarked⟩ := repeated body rfl
  have noText := Node.isTextLike_of_isElement isElement
  have others (number : NodeId) (different : number ≠ id)
      (outside : Node.tally number [body] = 0) :
      visited.Agrees number (Loops.leave around id loop body before.frames visited) := by
    refine Loops.agrees_leave different ?_
    intro same
    subst same
    have := Node.tally_self_pos body
    omega
  refine .single ?_ ?_ rfl (.inr ⟨rfl, ?_⟩) ?_
  · refine moves.close visits ready below (fun _ => rfl) (fun _ => Nat.le_refl _) rfl rfl others ?_
    exact fun number different absent silent =>
      (silent absent).agrees (others number different absent)
  · have inside : visited.scope = before.scope.addAll (loop.names around.reader) := by
      rw [visits.scope, below.scope, ready.scope]
      rfl
    change visited.scope.removeAll (loop.names around.reader) = before.scope
    rw [inside, Scope.removeAll_addAll]
  · have kept := noted.agrees agrees
    refine .loop ⟨kept.dependencies, kept.mark⟩ ?_ ?_ isElement unmarked
    · rw [Loops.get?_leave, if_pos rfl]
    · exact Loops.settled_leave absent distinct noText (visits.settled member noText)
  · intro isText
    cases isText

end TemplateCompiler
