import TemplateCompiler.Proofs.Settlement

/-! The state of a walk between two of its steps. A walk over a list of nodes touches what is known
of the numbers in that list and of the numbers it gives itself, and nothing else; this is what lets
the walks over the children and over the siblings of a node be put together. -/

namespace TemplateCompiler

def Surroundings.setting (around : Surroundings) : ScriptReader × Bool :=
  (around.reader, around.cacheHandlers)

namespace Progress

/-- What stays the same all through a walk. -/
def setting (progress : Progress) : ScriptReader × Bool :=
  (progress.reader, progress.cacheHandlers)

structure Blank (progress : Progress) (number : NodeId) : Prop where
  table : progress.table.get? number = none
  dependencies : progress.memoDependencies.get? number = none
  mark : progress.marks.get? number = none
  once : progress.onceNodes.contains number = false
  entered : ∀ pass, progress.hasEntered pass number = false

theorem Blank.agrees {before after : Progress} {number : NodeId} (blank : before.Blank number)
    (same : Agrees number before after) : after.Blank number :=
  ⟨same.table.trans blank.table, same.dependencies.trans blank.dependencies,
    same.mark.trans blank.mark, same.once.trans blank.once,
    fun pass => (same.entered pass).trans (blank.entered pass)⟩

/-- No code was written for a number, and nothing was noted that it depends on. -/
structure Silent (progress : Progress) (number : NodeId) : Prop where
  table : progress.table.get? number = none
  dependencies : progress.memoDependencies.get? number = none

theorem Silent.agrees {before after : Progress} {number : NodeId} (silent : before.Silent number)
    (same : Agrees number before after) : after.Silent number :=
  ⟨same.table.trans silent.table, same.dependencies.trans silent.dependencies⟩

theorem Blank.silent {progress : Progress} {number : NodeId} (blank : progress.Blank number) :
    progress.Silent number :=
  ⟨blank.table, blank.dependencies⟩

/-- The passes before `stage` have entered a node, which is still in its place. -/
structure Begun (progress : Progress) (around : Surroundings) (node : Node) (stage : Nat) :
    Prop where
  table : progress.table.get? node.id = none
  dependencies : progress.memoDependencies.get? node.id = none
  mark : progress.marks.get? node.id = none
  entered : ∀ pass, progress.hasEntered pass node.id = decide (pass < stage)
  once : (progress.onceNodes.contains node.id || around.inOnce) =
    (decide (0 < stage) && node.properties.hasDirective "once" || around.inOnce)

theorem Begun.silent {progress : Progress} {around : Surroundings} {node : Node} {stage : Nat}
    (begun : progress.Begun around node stage) : progress.Silent node.id :=
  ⟨begun.table, begun.dependencies⟩

theorem Blank.begun {progress : Progress} {node : Node} (blank : progress.Blank node.id)
    (around : Surroundings) : progress.Begun around node 0 :=
  ⟨blank.table, blank.dependencies, blank.mark, fun pass => by simp [blank.entered pass],
    by simp only [blank.once]; rfl⟩

/-- Whether one of several nodes is rendered once is a matter of these nodes. -/
theorem any_once {before after : Progress} {numbers : List NodeId}
    (same : ∀ number ∈ numbers, before.Agrees number after) :
    numbers.any after.onceNodes.contains = numbers.any before.onceNodes.contains := by
  rw [Bool.eq_iff_iff, List.any_eq_true, List.any_eq_true]
  constructor
  · intro found
    obtain ⟨number, member, once⟩ := found
    exact ⟨number, member, (same number member).once.symm.trans once⟩
  · intro found
    obtain ⟨number, member, once⟩ := found
    exact ⟨number, member, (same number member).once.trans once⟩

/-- A walk may go on with the nodes `todo`. All of them are as the parser made them and nothing is
known of them, but that the passes before `stage` have entered the first one. -/
structure Ready (progress : Progress) (around : Surroundings) (ancestors : List NodeId)
    (stage : Nat) (todo : List Node) : Prop where
  parsed : ∀ node ∈ todo, node.Parsed
  distinct : ∀ number, Node.tally number todo ≤ 1
  given : ∀ number : Nat, 0 < Node.tally number todo → number < progress.next
  blank : ∀ number, 0 < Node.tally number todo → todo.head?.map (·.id) ≠ some number →
    progress.Blank number
  fresh : ∀ number : Nat, number ≥ progress.next → progress.Blank number
  begun : ∀ node ∈ todo.head?, progress.Begun around node stage
  scope : progress.scope = around.scope
  setting : progress.setting = around.setting
  inOnce : ancestors.any progress.onceNodes.contains = around.inOnce
  apart : ∀ number : Nat, number ∈ ancestors →
    number < progress.next ∧ Node.tally number todo = 0

theorem Ready.silent {progress : Progress} {around : Surroundings} {ancestors : List NodeId}
    {stage : Nat} {todo : List Node} {number : NodeId}
    (ready : progress.Ready around ancestors stage todo) (present : 0 < Node.tally number todo) :
    progress.Silent number := by
  by_cases first : todo.head?.map (·.id) = some number
  · obtain ⟨node, head, rfl⟩ := Option.map_eq_some_iff.1 first
    exact (ready.begun node head).silent
  · exact (ready.blank number present first).silent

end Progress

/-- A node that the walk is done with. A text gets its code only with its parent. -/
def Finished (progress : Progress) (around : Surroundings) (node : Node) : Prop :=
  node.isTextLike = true ∧ node.children = [] ∧ progress.Silent node.id ∧
      progress.Noted around node.id ∨
    node.isTextLike = false ∧ Settled progress around (.child false) node

theorem Finished.agrees {before after : Progress} {around : Surroundings} {node : Node}
    (finished : Finished before around node)
    (same : ∀ number, 0 < Node.tally number [node] → before.Agrees number after) :
    Finished after around node := by
  rcases finished with ⟨isText, leaf, silent, noted⟩ | ⟨noText, settled⟩
  · have own := same _ (Node.tally_self_pos node)
    exact .inl ⟨isText, leaf, silent.agrees own, noted.agrees own⟩
  · exact .inr ⟨noText, settled.agrees same⟩

/-- The nodes `out` came in place of those in front of `rest`. Each number is still on one node or
has left the tree, and what is known of a number changes only for these nodes. -/
structure Moves (hasSiblings : Bool) (todo : List Node) (before : Progress)
    (out rest : List Node) (after : Progress) : Prop where
  conserved : ∀ number, Node.tally number out + Node.tally number rest +
    Node.tally number after.dropped + (List.range before.next).count number =
      Node.tally number todo + Node.tally number before.dropped +
        (List.range after.next).count number
  next_le : ∀ number : Nat, number < before.next → number < after.next
  dropped_le : ∀ number, Node.tally number before.dropped ≤ Node.tally number after.dropped
  setting : after.setting = before.setting
  frame : ∀ number : Nat, number < before.next ∧ Node.tally number todo = 0 ∨
    number ≥ after.next ∨ 0 < Node.tally number rest → before.Agrees number after
  silent : ∀ number, Node.tally number out = 0 → before.Silent number → after.Silent number
  subset : ∀ node ∈ rest, node ∈ todo
  past : ∀ number, Node.tally number rest ≤ Node.tally number todo.tail
  length : hasSiblings = false → out.length + rest.length = todo.length

/-- A part of a walk is done with the nodes `out`, which came in place of those in front of
`rest`. -/
structure Visits (around : Surroundings) (hasSiblings : Bool) (todo : List Node) (before : Progress)
    (out rest : List Node) (after : Progress) : Prop
    extends Moves hasSiblings todo before out rest after where
  scope : after.scope = before.scope
  frames : after.frames = before.frames
  finished : ∀ node ∈ out, Finished after around node
  texts : ∀ node ∈ out, node.isTextLike = true → node ∈ todo

variable {around : Surroundings} {ancestors : List NodeId} {hasSiblings : Bool} {stage : Nat}
  {todo out rest : List Node} {before after : Progress}

/-- Whatever a walk makes or leaves is there once, under a number that it was handed or gave. -/
theorem Moves.owned (moves : Moves hasSiblings todo before out rest after)
    (ready : before.Ready around ancestors stage todo) (number : Nat) :
    Node.tally number out + Node.tally number rest ≤ 1 ∧
      (0 < Node.tally number out + Node.tally number rest → number < after.next ∧
        (number < before.next → 0 < Node.tally number todo)) := by
  have balance := moves.conserved number
  have dropped := moves.dropped_le number
  have once := ready.distinct number
  have given := ready.given number
  have later := moves.next_le number
  rcases Node.count_range_cases number before.next with ⟨old, count⟩ | ⟨new, count⟩ <;>
    rcases Node.count_range_cases number after.next with ⟨_, total⟩ | ⟨_, total⟩ <;>
    omega

/-- Once there is nothing left to visit, each number is on one of the nodes at most. -/
theorem Moves.distinct (moves : Moves hasSiblings todo before out [] after)
    (ready : before.Ready around ancestors stage todo) (number : NodeId) :
    Node.tally number out ≤ 1 := by
  have := moves.owned ready number
  rw [Node.tally_nil] at this
  omega

/-- What is done with the siblings behind some nodes leaves these alone, and what is below them. -/
theorem Moves.agrees_front {siblings : Bool} {middle : Progress} {more last : List Node}
    (moves : Moves hasSiblings todo before out rest middle)
    (ready : before.Ready around ancestors stage todo)
    (later : Moves siblings rest middle more last after) {number : NodeId}
    (present : 0 < Node.tally number out) : middle.Agrees number after := by
  have owned := moves.owned ready number
  exact later.frame number (.inl ⟨(owned.2 (by omega)).1, by omega⟩)

/-- A walk through the children of a node leaves the node itself alone. -/
theorem Moves.parent {id : NodeId} (moves : Moves hasSiblings todo before out [] after)
    (ready : before.Ready around (id :: ancestors) stage todo) :
    Node.tally id out = 0 ∧ before.Agrees id after := by
  obtain ⟨given, apart⟩ := ready.apart id List.mem_cons_self
  have owned := moves.owned ready id
  rw [Node.tally_nil] at owned
  exact ⟨by omega, moves.frame id (.inl ⟨given, apart⟩)⟩

/-- The node in front was opened, its children were visited and it was closed again. -/
theorem Moves.close {around within : Surroundings} {hasSiblings inner : Bool} {depth : Nat}
    {current : Node} {opened visited : Progress} {children : List Node}
    (moves : Moves hasSiblings todo before [current] rest opened)
    (visits : Visits within inner current.children opened out [] visited)
    (ready : before.Ready around ancestors stage todo)
    (below : opened.Ready within (current.id :: ancestors) depth current.children)
    (kept : ∀ number, Node.tally number children + Node.tally number after.dropped =
      Node.tally number out + Node.tally number visited.dropped)
    (dropped : ∀ number, Node.tally number visited.dropped ≤ Node.tally number after.dropped)
    (next : after.next = visited.next) (setting : after.setting = visited.setting)
    (frame : ∀ number, number ≠ current.id → Node.tally number out = 0 →
      visited.Agrees number after)
    (silent : ∀ number, number ≠ current.id → Node.tally number children = 0 →
      (Node.tally number out = 0 → visited.Silent number) → after.Silent number) :
    Moves hasSiblings todo before [{ current with children }] rest after := by
  have own (number : Nat) := Node.tally_singleton number current
  constructor
  · intro number
    have := moves.conserved number
    have := visits.conserved number
    have := kept number
    have := own number
    rw [Node.tally_nil] at *
    rw [Node.tally_singleton, next]
    dsimp only
    omega
  · intro number old
    rw [next]
    exact visits.next_le number (moves.next_le number old)
  · exact fun number => Nat.le_trans (Nat.le_trans (moves.dropped_le number)
      (visits.dropped_le number)) (dropped number)
  · rw [setting, visits.setting, moves.setting]
  · intro number outside
    have := own number
    have := moves.owned ready number
    have := visits.owned below number
    have := moves.next_le number
    have := visits.next_le number
    rw [next] at outside
    rw [Node.tally_nil] at *
    refine ((moves.frame number ?_).trans (visits.frame number ?_)).trans (frame number ?_ ?_)
    · omega
    · omega
    · intro same
      subst same
      have := Node.tally_self_pos current
      omega
    · omega
  · intro number absent quiet
    have := own number
    rw [Node.tally_singleton] at absent
    dsimp only at absent
    have different : number ≠ current.id := by
      intro same
      subst same
      rw [List.count_singleton_self] at absent
      omega
    refine silent number different (by omega) fun outside => visits.silent number outside ?_
    by_cases inside : 0 < Node.tally number current.children
    · exact below.silent inside
    · refine moves.silent number ?_ quiet
      rw [List.count_eq_zero_of_not_mem (by simpa using different)] at this
      omega
  · exact moves.subset
  · exact moves.past
  · exact moves.length

namespace Visits

theorem nil (progress : Progress) : Visits around hasSiblings [] progress [] [] progress where
  conserved _ := rfl
  next_le _ old := old
  dropped_le _ := Nat.le_refl _
  setting := rfl
  frame number _ := .refl number progress
  silent _ _ quiet := quiet
  subset _ member := nomatch member
  past _ := Nat.le_refl _
  length _ := rfl
  scope := rfl
  frames := rfl
  finished _ member := nomatch member
  texts _ member := nomatch member

/-- What is no text is settled as soon as the walk is done with it. -/
theorem settled {node : Node} (visits : Visits around hasSiblings todo before out rest after)
    (member : node ∈ out) (noText : node.isTextLike = false) :
    Settled after around (.child false) node := by
  rcases visits.finished node member with ⟨isText, -⟩ | ⟨-, settled⟩
  · rw [isText] at noText
    cases noText
  · exact settled

/-- What is known of the nodes that are left is what was known of them before. -/
theorem ready (visits : Visits around hasSiblings todo before out rest after)
    (ready : before.Ready around ancestors stage todo) :
    after.Ready around ancestors 0 rest := by
  have owned (number : Nat) := visits.owned ready number
  have blank (number : Nat) (left : 0 < Node.tally number rest) : after.Blank number := by
    have behind := visits.past number
    refine (ready.blank number ?_ ?_).agrees (visits.frame number (.inr (.inr left)))
    · have := Node.tally_tail_le number todo
      omega
    · intro first
      cases todo with
      | nil => cases first
      | cons node others =>
        have once := ready.distinct number
        have own := Node.tally_self_pos node
        simp only [List.head?_cons, Option.map_some, Option.some.injEq] at first
        rw [Node.tally_cons, ← first] at once
        simp only [List.tail_cons, ← first] at behind left
        omega
  constructor
  · exact fun node member => ready.parsed node (visits.subset node member)
  · intro number
    have := owned number
    omega
  · intro number left
    have := owned number
    omega
  · exact fun number left _ => blank number left
  · intro number new
    have := visits.next_le number
    exact (ready.fresh number (by omega)).agrees (visits.frame number (.inr (.inl new)))
  · intro node first
    have member := List.mem_of_mem_head? first
    exact (blank node.id (Node.tally_pos_of_mem member)).begun around
  · rw [visits.scope, ready.scope]
  · rw [visits.setting, ready.setting]
  · rw [← ready.inOnce]
    exact Progress.any_once fun number member =>
      visits.frame number (.inl (ready.apart number member))
  · intro number member
    obtain ⟨old, outside⟩ := ready.apart number member
    have := owned number
    have := visits.next_le number
    omega

theorem append {middle : Progress} {more last : List Node}
    (first : Visits around hasSiblings todo before out rest middle)
    (second : Visits around hasSiblings rest middle more last after)
    (ready : before.Ready around ancestors stage todo) :
    Visits around hasSiblings todo before (out ++ more) last after := by
  have owned (number : Nat) := first.owned ready number
  have fewer (number : Nat) := Node.tally_tail_le number rest
  constructor
  · constructor
    · intro number
      have := first.conserved number
      have := second.conserved number
      rw [Node.tally_append]
      omega
    · exact fun number old => second.next_le number (first.next_le number old)
    · exact fun number => Nat.le_trans (first.dropped_le number) (second.dropped_le number)
    · exact second.setting.trans first.setting
    · intro number outside
      have := owned number
      have := fewer number
      have := first.next_le number
      have := second.next_le number
      have := second.past number
      refine (first.frame number ?_).trans (second.frame number ?_)
      · omega
      · omega
    · intro number absent quiet
      rw [Node.tally_append] at absent
      exact second.silent number (by omega) (first.silent number (by omega) quiet)
    · exact fun node member => first.subset node (second.subset node member)
    · intro number
      have := first.past number
      have := second.past number
      have := fewer number
      omega
    · intro single
      have := first.length single
      have := second.length single
      rw [List.length_append]
      omega
  · exact second.scope.trans first.scope
  · exact second.frames.trans first.frames
  · intro node member
    rcases List.mem_append.1 member with early | late
    · refine (first.finished node early).agrees fun number present => ?_
      have := Node.tally_le_of_mem number early
      exact first.agrees_front ready second.toMoves (by omega)
    · exact second.finished node late
  · intro node member isText
    rcases List.mem_append.1 member with early | late
    · exact first.texts node early isText
    · exact first.subset node (second.texts node late isText)

end Visits

namespace Progress

/-- Something was noted of one number, and nothing else happened. -/
structure Quiet (number : NodeId) (before after : Progress) : Prop where
  next : after.next = before.next
  dropped : after.dropped = before.dropped
  scope : after.scope = before.scope
  frames : after.frames = before.frames
  setting : after.setting = before.setting
  others : ∀ other, other ≠ number → before.Agrees other after

theorem Quiet.refl (number : NodeId) (progress : Progress) : Quiet number progress progress :=
  ⟨rfl, rfl, rfl, rfl, rfl, fun other _ => .refl other progress⟩

theorem Quiet.trans {number : NodeId} {before middle after : Progress}
    (first : Quiet number before middle) (last : Quiet number middle after) :
    Quiet number before after :=
  ⟨last.next.trans first.next, last.dropped.trans first.dropped, last.scope.trans first.scope,
    last.frames.trans first.frames, last.setting.trans first.setting,
    fun other different => (first.others other different).trans (last.others other different)⟩

@[simp]
theorem hasEntered_markEntered (progress : Progress) (pass other : Nat) (id number : NodeId) :
    (progress.markEntered pass id).hasEntered other number =
      ((other == pass && number == id) || progress.hasEntered other number) := by
  simp only [hasEntered, markEntered, List.contains_cons]
  rfl

theorem hasEntered_congr {before after : Progress} (same : after.entered = before.entered)
    (pass : Nat) (number : NodeId) : after.hasEntered pass number = before.hasEntered pass number := by
  simp only [hasEntered, same]

theorem quiet_markEntered (progress : Progress) (pass : Nat) (id : NodeId) :
    Quiet id progress (progress.markEntered pass id) := by
  refine ⟨rfl, rfl, rfl, rfl, rfl, fun other different => ⟨rfl, rfl, rfl, rfl, fun later => ?_⟩⟩
  have unequal : (other == id) = false := beq_eq_false_iff_ne.2 different
  simp [unequal]

theorem quiet_setCode (progress : Progress) (id : NodeId) (body : CodeBody) :
    Quiet id progress (progress.setCode id body) := by
  refine ⟨rfl, rfl, rfl, rfl, rfl, fun other different => ⟨?_, rfl, rfl, rfl, fun _ => rfl⟩⟩
  simp [setCode, Table.get?_set, different]

end Progress

namespace Progress

/-- Only code was written, and problems and assets were noted. -/
structure Writes (before after : Progress) : Prop where
  next : after.next = before.next
  dropped : after.dropped = before.dropped
  scope : after.scope = before.scope
  frames : after.frames = before.frames
  setting : after.setting = before.setting
  onceNodes : after.onceNodes = before.onceNodes
  entered : after.entered = before.entered
  marks : after.marks = before.marks
  dependencies : after.memoDependencies = before.memoDependencies

theorem Writes.refl (progress : Progress) : Writes progress progress :=
  ⟨rfl, rfl, rfl, rfl, rfl, rfl, rfl, rfl, rfl⟩

theorem Writes.trans {before middle after : Progress} (first : Writes before middle)
    (last : Writes middle after) : Writes before after :=
  ⟨last.next.trans first.next, last.dropped.trans first.dropped, last.scope.trans first.scope,
    last.frames.trans first.frames, last.setting.trans first.setting,
    last.onceNodes.trans first.onceNodes, last.entered.trans first.entered,
    last.marks.trans first.marks, last.dependencies.trans first.dependencies⟩

theorem Writes.agrees {before after : Progress} {number : NodeId} (writes : Writes before after)
    (same : after.table.get? number = before.table.get? number) : before.Agrees number after :=
  ⟨same, by rw [writes.dependencies], by rw [writes.marks], by rw [writes.onceNodes],
    fun pass => hasEntered_congr writes.entered pass number⟩

theorem Writes.noted {before after : Progress} {around : Surroundings} {number : NodeId}
    (writes : Writes before after) (noted : before.Noted around number) :
    after.Noted around number := by
  constructor
  · rw [writes.dependencies]
    exact noted.dependencies
  · rw [writes.marks]
    exact noted.mark

theorem Writes.surroundings {before after : Progress} (writes : Writes before after) (site : Site) :
    after.surroundings site = before.surroundings site := by
  obtain ⟨reader, cacheHandlers⟩ := Prod.mk.inj writes.setting
  simp only [Progress.surroundings, inOnce, writes.scope, reader, cacheHandlers, writes.onceNodes]

end Progress

variable {node : Node} {middle : Progress}

namespace Progress.Ready

theorem ne_first (ready : before.Ready around ancestors stage (node :: rest)) {number : Nat}
    (outside : number < before.next ∧ Node.tally number (node :: rest) = 0 ∨
      number ≥ before.next ∨ 0 < Node.tally number rest) : number ≠ node.id := by
  intro same
  subst same
  have own := Node.tally_self_pos node
  have once := ready.distinct node.id
  have given := ready.given node.id
  rw [Node.tally_cons node.id node rest] at once given outside
  omega

theorem blank_rest (ready : before.Ready around ancestors stage (node :: rest)) {number : Nat}
    (present : 0 < Node.tally number (node :: rest)) (different : number ≠ node.id) :
    before.Blank number :=
  ready.blank number present fun same => different (Option.some.inj same).symm

theorem blank_children (ready : before.Ready around ancestors stage (node :: rest))
    (quiet : Quiet node.id before after) {number : Nat}
    (present : 0 < Node.tally number node.children) : after.Blank number := by
  have once := ready.distinct number
  have own := Node.tally_singleton number node
  rw [Node.tally_cons] at once
  have different : number ≠ node.id := by
    intro same
    subst same
    rw [List.count_singleton_self] at own
    omega
  refine (ready.blank_rest ?_ different).agrees (quiet.others number different)
  rw [Node.tally_cons]
  omega

theorem step {more : Nat} (ready : before.Ready around ancestors stage (node :: rest))
    (quiet : Quiet node.id before after) (begun : after.Begun around node more) :
    after.Ready around ancestors more (node :: rest) := by
  constructor
  · exact ready.parsed
  · exact ready.distinct
  · rw [quiet.next]
    exact ready.given
  · intro number present different
    refine (ready.blank number present different).agrees (quiet.others number ?_)
    intro same
    subst same
    exact different rfl
  · intro number new
    rw [quiet.next] at new
    exact (ready.fresh number new).agrees (quiet.others number (ready.ne_first (.inr (.inl new))))
  · intro first same
    cases same
    exact begun
  · rw [quiet.scope, ready.scope]
  · rw [quiet.setting, ready.setting]
  · rw [← ready.inOnce]
    exact any_once fun number member =>
      quiet.others number (ready.ne_first (.inl (ready.apart number member)))
  · rw [quiet.next]
    exact ready.apart

theorem descend {within : Surroundings} {todo : List Node} {depth : Nat}
    (ready : before.Ready around ancestors stage todo) (current : Node)
    (moves : Moves hasSiblings todo before [current] rest after)
    (parsed : ∀ child ∈ current.children, child.Parsed)
    (blank : ∀ number, 0 < Node.tally number current.children →
      current.children.head?.map (·.id) ≠ some number → after.Blank number)
    (begun : ∀ child ∈ current.children.head?, after.Begun within child depth)
    (scope : after.scope = within.scope)
    (setting : within.setting = around.setting)
    (inOnce : (after.onceNodes.contains current.id || around.inOnce) = within.inOnce) :
    after.Ready within (current.id :: ancestors) depth current.children := by
  have own (number : Nat) := Node.tally_singleton number current
  have owned (number : Nat) := moves.owned ready number
  constructor
  · exact parsed
  · intro number
    have := own number
    have := owned number
    omega
  · intro number present
    have := own number
    have := owned number
    omega
  · exact blank
  · intro number new
    have := moves.next_le number
    exact (ready.fresh number (by omega)).agrees (moves.frame number (.inr (.inl new)))
  · exact begun
  · exact scope
  · rw [moves.setting, ready.setting, setting]
  · rw [List.any_cons, ← inOnce, ← ready.inOnce]
    congr 1
    exact any_once fun number member => moves.frame number (.inl (ready.apart number member))
  · intro number member
    have := own number
    have := owned number
    rcases List.mem_cons.1 member with rfl | above
    · have := Node.tally_self_pos current
      rw [List.count_singleton_self] at *
      omega
    · have := ready.apart number above
      have := moves.next_le number
      omega

end Progress.Ready

/-- Noting something of the first node is a move that leaves all nodes in their places. -/
theorem Moves.keep {current : Node} (quiet : Progress.Quiet node.id before after)
    (ready : before.Ready around ancestors stage (node :: rest))
    (same : ∀ number, Node.tally number [current] = Node.tally number [node]) :
    Moves hasSiblings (node :: rest) before [current] rest after := by
  constructor
  · intro number
    rw [same, quiet.next, quiet.dropped, Node.tally_cons number node rest]
  · rw [quiet.next]
    exact fun _ old => old
  · rw [quiet.dropped]
    exact fun _ => Nat.le_refl _
  · exact quiet.setting
  · intro number outside
    rw [quiet.next] at outside
    exact quiet.others number (ready.ne_first outside)
  · intro number absent silent
    refine silent.agrees (quiet.others number ?_)
    intro same
    subst same
    have := Node.tally_self_pos node
    have := same node.id
    omega
  · exact fun _ member => List.mem_cons_of_mem _ member
  · exact fun _ => Nat.le_refl _
  · intro _
    simp only [List.length_cons, List.length_nil]
    omega

theorem Moves.after_quiet {left : List Node}
    (moves : Moves hasSiblings (node :: rest) middle out left after)
    (quiet : Progress.Quiet node.id before middle) (silent : middle.Silent node.id)
    (ready : before.Ready around ancestors stage (node :: rest)) :
    Moves hasSiblings (node :: rest) before out left after := by
  constructor
  · intro number
    rw [← quiet.next, ← quiet.dropped]
    exact moves.conserved number
  · rw [← quiet.next]
    exact moves.next_le
  · rw [← quiet.dropped]
    exact moves.dropped_le
  · exact moves.setting.trans quiet.setting
  · intro number outside
    have least := moves.next_le number
    have behind := moves.past number
    rw [List.tail_cons] at behind
    refine (quiet.others number (ready.ne_first ?_)).trans (moves.frame number ?_)
    · rw [quiet.next] at least
      omega
    · rw [quiet.next]
      exact outside
  · intro number absent earlier
    refine moves.silent number absent ?_
    by_cases same : number = node.id
    · rw [same]
      exact silent
    · exact earlier.agrees (quiet.others number same)
  · exact moves.subset
  · exact moves.past
  · exact moves.length

theorem Visits.after_quiet {left : List Node}
    (visits : Visits around hasSiblings (node :: rest) middle out left after)
    (quiet : Progress.Quiet node.id before middle) (silent : middle.Silent node.id)
    (ready : before.Ready around ancestors stage (node :: rest)) :
    Visits around hasSiblings (node :: rest) before out left after :=
  { visits.toMoves.after_quiet quiet silent ready with
    scope := visits.scope.trans quiet.scope
    frames := visits.frames.trans quiet.frames
    finished := visits.finished
    texts := visits.texts }

end TemplateCompiler
