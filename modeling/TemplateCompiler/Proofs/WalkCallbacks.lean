import Mathlib.Data.List.Nodup
import TemplateCompiler.Proofs.Lineage
import TemplateCompiler.Proofs.StoredTrees
import TemplateCompiler.Proofs.WalkEntering

/-! The order in which the walk on stored nodes calls its visitors. If they only watch, the calls for
a node form a bracket: all visitors enter it, then come the brackets of its children, and then those
that asked for it leave it, the last one first. Each call is made at the place of its node: whatever
the visits below a node do to the slot and to the list of ancestors, both are back when the node is
left. -/

namespace TemplateCompiler

open Walking Visitors

namespace Context

structure Stores (context : Context) (roots : List Node) : Prop where
  roots_eq : context.roots = roots.map (·.id)
  holds : context.Holds roots

structure Agrees (before after : Context) : Prop where
  cells_eq : after.cells = before.cells
  roots_eq : after.roots = before.roots
  ancestors_eq : after.ancestors = before.ancestors

/-- The tree was left alone, and so was what the walk keeps for itself: the slot, the ancestors, which
visitor has entered which node, and the calls. -/
structure Keeps (before after : Context) : Prop extends before.Agrees after where
  slot_eq : after.slot = before.slot
  entered_eq : after.progress.entered = before.progress.entered
  calls_eq : after.calls = before.calls

end Context

/-- Called at a node of the tree, the visitor comes back and leaves the tree alone. What else it does
to the state, and whether it wants to leave the node later, is its own matter. -/
structure Visitor.Watches (visitor : Visitor) (roots : List Node) : Prop where
  enter : ∀ ordinal context id, context.Stores roots → context.current? = some id →
    ∃ exits after, Runs (visitor.enter ordinal id) context exits after ∧ context.Keeps after
  exit : ∀ ordinal context id, context.Stores roots → context.current? = some id →
    ∃ after, Runs (visitor.exit ordinal id) context () after ∧ context.Keeps after
  exitRoot : ∀ context, ∃ after,
    Runs visitor.exitRoot context () after ∧ after.calls = context.calls

namespace Call

def node? : Call → Option (NodeId × Whereabouts)
  | enter _ id place _ => some (id, place)
  | exit _ id place => some (id, place)
  | exitRoot _ => none

/-- The numbers of the nodes that one of the visitors enters, in order. -/
def entries (ordinal : Nat) : List Call → List NodeId
  | [] => []
  | enter other id _ _ :: rest =>
    if other = ordinal then id :: entries ordinal rest else entries ordinal rest
  | exit _ _ _ :: rest => entries ordinal rest
  | exitRoot _ :: rest => entries ordinal rest

def bracket (count : Nat) (asks : Nat → Bool) (id : NodeId) (place : Whereabouts)
    (below : List Call) : List Call :=
  (List.range count).map (fun ordinal => enter ordinal id place (asks ordinal)) ++ below ++
    ((List.range count).filter asks).reverse.map (fun ordinal => exit ordinal id place)

end Call

/-- The place with the given index below the nodes `above`, of which the innermost is the first. -/
def Whereabouts.below (above : List Node) (index : Nat) (id : NodeId) : Whereabouts :=
  { current := some id
    parent := above.head?.map (·.id)
    index
    ancestors := (above.map (·.id)).reverse }

inductive Brackets (count : Nat) :
    (above : List Node) → (index : Nat) → (todo : List Node) → List Call → Prop
  | nil {above : List Node} {index : Nat} : Brackets count above index [] []
  | cons {above : List Node} {index : Nat} {node : Node} {rest : List Node}
      {below later : List Call} (asks : Nat → Bool)
      (inside : Brackets count (node :: above) 0 node.children below)
      (onward : Brackets count above (index + 1) rest later) :
      Brackets count above index (node :: rest)
        (Call.bracket count asks node.id (.below above index node.id) below ++ later)

namespace Context

variable {context before middle after : Context} {roots : List Node} {id : NodeId}

theorem Stores.agrees (stores : before.Stores roots) (agrees : before.Agrees after) :
    after.Stores roots := by
  refine ⟨agrees.roots_eq.trans stores.roots_eq, fun node member => ?_⟩
  rw [agrees.cells_eq]
  exact stores.holds node member

theorem Agrees.trans (first : before.Agrees middle) (second : middle.Agrees after) :
    before.Agrees after :=
  ⟨second.cells_eq.trans first.cells_eq, second.roots_eq.trans first.roots_eq,
    second.ancestors_eq.trans first.ancestors_eq⟩

theorem Agrees.list? (agrees : before.Agrees after) (parent : Option NodeId) :
    after.list? parent = before.list? parent := by
  cases parent with
  | none => exact congrArg some agrees.roots_eq
  | some parent => rw [Context.list?, Context.list?, agrees.cells_eq]

theorem Agrees.whereabouts (agrees : before.Agrees after) (slot : after.slot = before.slot) :
    after.whereabouts = before.whereabouts := by
  rw [Context.whereabouts, Context.whereabouts, current?, current?, slot, agrees.list?,
    agrees.ancestors_eq]

theorem Agrees.current? (agrees : before.Agrees after) (slot : after.slot = before.slot) :
    after.current? = before.current? :=
  congrArg Whereabouts.current (agrees.whereabouts slot)

end Context

def Progress.EntersOnly (numbers : NodeId → Prop) (before after : Progress) : Prop :=
  ∀ ordinal number, ¬ numbers number →
    after.hasEntered ordinal number = before.hasEntered ordinal number

section Node

variable {visitors : List Visitor} {roots : List Node} {context before after : Context}
  {id : NodeId} {children : List NodeId}

theorem Context.exists_list?_of_current? (given : context.current? = some id) :
    ∃ children, context.list? context.slot.parent = some children := by
  unfold Context.current? at given
  split at given
  · cases given
  · obtain ⟨children, listed, -⟩ := Option.bind_eq_some_iff.1 given
    exact ⟨children, listed⟩

theorem Walking.runs_current_some (given : context.current? = some id) :
    Runs current context (some id) context := by
  obtain ⟨children, listed⟩ := context.exists_list?_of_current? given
  rw [← given]
  exact runs_current listed

/-- The visitors at the places `ordinals` have entered a node, and nothing else was done. -/
structure Context.Enters (id : NodeId) (ordinals : List Nat) (asks : Nat → Bool)
    (before after : Context) : Prop extends before.Agrees after where
  slot_eq : after.slot = before.slot
  calls : after.calls = before.calls ++ ordinals.map fun ordinal =>
    .enter ordinal id before.whereabouts (asks ordinal)
  enters : before.progress.EntersOnly (· = id) after.progress

/-- The call of a visitor goes in front of those of the visitors behind it. -/
theorem Context.Enters.cons {ordinal count : Nat} {asks : Nat → Bool} {exits : Bool}
    (agrees : before.Agrees context) (slot : context.slot = before.slot)
    (calls : context.calls = before.calls ++ [.enter ordinal id before.whereabouts exits])
    (marked : before.progress.EntersOnly (· = id) context.progress)
    (enters : context.Enters id (List.range' (ordinal + 1) count) asks after) :
    before.Enters id (List.range' ordinal (count + 1)) (Function.update asks ordinal exits)
      after := by
  have others : ∀ other ∈ List.range' (ordinal + 1) count,
      Function.update asks ordinal exits other = asks other := by
    intro other member
    have late := (List.mem_range'_1.1 member).1
    exact Function.update_of_ne (by omega) ..
  refine ⟨agrees.trans enters.toAgrees, enters.slot_eq.trans slot, ?_, ?_⟩
  · have later := List.map_congr_left fun other member =>
      congrArg (Call.enter other id before.whereabouts) (others other member)
    rw [enters.calls, calls, agrees.whereabouts slot, List.range'_succ, List.map_cons, later,
      Function.update_self, List.append_assoc, List.singleton_append]
  · intro other number different
    exact (enters.enters other number different).trans (marked other number different)

theorem enterVisitors_watched (watches : ∀ visitor ∈ visitors, visitor.Watches roots)
    {rest : List Visitor} {ordinal : Nat} {before : Context} (behind : visitors.drop ordinal = rest)
    (stores : before.Stores roots) (given : before.current? = some id)
    (fresh : ∀ place, ordinal ≤ place → before.progress.hasEntered place id = false) :
    ∃ asks after,
      Runs (enterVisitors ordinal rest) before
        (some ((List.range' ordinal rest.length).filter asks)) after ∧
      before.Enters id (List.range' ordinal rest.length) asks after := by
  induction rest generalizing ordinal before with
  | nil =>
    refine ⟨fun _ => false, before, runs_pure _, ⟨rfl, rfl, rfl⟩, rfl, ?_, fun _ _ _ => rfl⟩
    exact (List.append_nil _).symm
  | cons visitor rest ih =>
    have registered : visitor ∈ visitors := by
      refine List.mem_of_getElem? (i := ordinal) ?_
      rw [← List.head?_drop, behind, List.head?_cons]
    have further : visitors.drop (ordinal + 1) = rest := by
      rw [← List.tail_drop, behind, List.tail_cons]
    obtain ⟨children, listed⟩ := before.exists_list?_of_current? given
    have new : before.progress.hasEntered ordinal id = false := fresh ordinal (Nat.le_refl _)
    let marked : Context := { before with progress := before.progress.markEntered ordinal id }
    have marks : Runs (note (·.markEntered ordinal id)) before () marked := runs_modify _
    have looks : Runs Walking.whereabouts marked before.whereabouts marked :=
      @runs_whereabouts marked children listed
    obtain ⟨exits, middle, enters, keeps⟩ :=
      (watches visitor registered).enter ordinal marked id ⟨stores.roots_eq, stores.holds⟩ given
    let recorded : Context := { middle with
      calls := middle.calls ++ [.enter ordinal id before.whereabouts exits] }
    have records : Runs (record (.enter ordinal id before.whereabouts exits)) middle () recorded :=
      runs_modify _
    have agrees : before.Agrees recorded := ⟨keeps.cells_eq, keeps.roots_eq, keeps.ancestors_eq⟩
    have slot : recorded.slot = before.slot := keeps.slot_eq
    have calls : recorded.calls = before.calls ++ [.enter ordinal id before.whereabouts exits] :=
      congrArg (· ++ [_]) keeps.calls_eq
    have only : before.progress.EntersOnly (· = id) recorded.progress := by
      intro other number different
      have unequal : (number == id) = false := beq_eq_false_iff_ne.2 different
      rw [Progress.hasEntered_congr keeps.entered_eq, Progress.hasEntered_markEntered, unequal,
        Bool.and_false, Bool.false_or]
    have still : ∀ place, ordinal + 1 ≤ place →
        recorded.progress.hasEntered place id = false := by
      intro place late
      have different : (place == ordinal) = false := beq_eq_false_iff_ne.2 (by omega)
      rw [Progress.hasEntered_congr keeps.entered_eq, Progress.hasEntered_markEntered, different,
        fresh place (by omega)]
      rfl
    obtain ⟨asks, after, runs, entered⟩ :=
      ih further (stores.agrees agrees) ((agrees.current? slot).trans given) still
    refine ⟨Function.update asks ordinal exits, after, ?_, entered.cons agrees slot calls only⟩
    have leaving : (List.range' (ordinal + 1) rest.length).filter (Function.update asks ordinal exits) =
        (List.range' (ordinal + 1) rest.length).filter asks := by
      refine List.filter_congr fun other member => ?_
      have late := (List.mem_range'_1.1 member).1
      exact Function.update_of_ne (by omega) ..
    unfold enterVisitors
    refine (runs_current_some given).bind (runs_get.bind ?_)
    rw [new]
    refine marks.bind (looks.bind (enters.bind (records.bind (runs.bind ?_))))
    rw [List.length_cons, List.range'_succ, List.filter_cons, Function.update_self, leaving]
    exact runs_pure _

theorem exitVisitors_watched (watches : ∀ visitor ∈ visitors, visitor.Watches roots)
    {ordinals : List Nat} (registered : ∀ ordinal ∈ ordinals, ordinal < visitors.length)
    {before : Context} (stores : before.Stores roots) (given : before.current? = some id) :
    ∃ after, Runs (exitVisitors visitors id ordinals) before () after ∧ before.Agrees after ∧
      after.slot = before.slot ∧
      after.calls = before.calls ++ ordinals.map (.exit · id before.whereabouts) ∧
      after.progress.entered = before.progress.entered := by
  induction ordinals generalizing before with
  | nil => exact ⟨before, runs_pure _, ⟨rfl, rfl, rfl⟩, rfl, (List.append_nil _).symm, rfl⟩
  | cons ordinal rest ih =>
    obtain ⟨inside, others⟩ := List.forall_mem_cons.1 registered
    have found : visitors[ordinal]? = some visitors[ordinal] := List.getElem?_eq_getElem inside
    obtain ⟨children, listed⟩ := before.exists_list?_of_current? given
    let recorded : Context := { before with
      calls := before.calls ++ [.exit ordinal id before.whereabouts] }
    have records : Runs (record (.exit ordinal id before.whereabouts)) before () recorded :=
      runs_modify _
    obtain ⟨middle, exits, keeps⟩ := (watches _ (List.mem_of_getElem? found)).exit ordinal recorded
      id ⟨stores.roots_eq, stores.holds⟩ given
    have agrees : before.Agrees middle := ⟨keeps.cells_eq, keeps.roots_eq, keeps.ancestors_eq⟩
    have slot : middle.slot = before.slot := keeps.slot_eq
    obtain ⟨after, runs, kept, still, calls, entered⟩ :=
      ih others (stores.agrees agrees) ((agrees.current? slot).trans given)
    refine ⟨after, ?_, agrees.trans kept, still.trans slot, ?_, entered.trans keeps.entered_eq⟩
    · unfold exitVisitors
      rw [found]
      exact (runs_whereabouts listed).bind (records.bind (exits.bind runs))
    · rw [calls, keeps.calls_eq, agrees.whereabouts slot, List.map_cons, List.append_assoc,
        List.singleton_append]

end Node

section Walk

theorem tally_first {number : NodeId} {node : Node} {rest : List Node} :
    0 < Node.tally number (node :: rest) ↔
      number = node.id ∨ 0 < Node.tally number node.children ∨ 0 < Node.tally number rest := by
  have own : 0 < [node.id].count number ↔ number = node.id := by
    rw [List.count_pos_iff, List.mem_singleton]
  rw [← own, Node.tally_cons, Node.tally_singleton]
  omega

/-- The nodes have different numbers, and none of them was entered. -/
structure Progress.Untouched (progress : Progress) (nodes : List Node) : Prop where
  distinct : ∀ number, Node.tally number nodes ≤ 1
  fresh : ∀ ordinal number, 0 < Node.tally number nodes →
    progress.hasEntered ordinal number = false

namespace Progress.Untouched

variable {node : Node} {behind : List Node} {progress : Progress}

theorem children {after : Progress} (untouched : progress.Untouched (node :: behind))
    (enters : progress.EntersOnly (· = node.id) after) : after.Untouched node.children := by
  refine ⟨fun number => ?_, fun ordinal number below => ?_⟩
  · have least := Node.tally_children_le number (List.mem_cons_self (a := node) (l := behind))
    exact Nat.le_trans least (untouched.distinct number)
  · rw [enters ordinal number ?_]
    · exact untouched.fresh ordinal number (tally_first.2 (.inr (.inl below)))
    · rintro rfl
      have := untouched.distinct node.id
      rw [Node.tally_cons, Node.tally_singleton, List.count_singleton_self] at this
      omega

theorem rest {after : Progress} (untouched : progress.Untouched (node :: behind))
    (enters : progress.EntersOnly
      (fun number => number = node.id ∨ 0 < Node.tally number node.children) after) :
    after.Untouched behind := by
  refine ⟨fun number => ?_, fun ordinal number present => ?_⟩
  · exact Nat.le_trans (Node.tally_tail_le number (node :: behind)) (untouched.distinct number)
  · have once := untouched.distinct number
    rw [Node.tally_cons, Node.tally_singleton] at once
    rw [enters ordinal number ?_]
    · exact untouched.fresh ordinal number (tally_first.2 (.inr (.inr present)))
    · rintro (rfl | below)
      · rw [List.count_singleton_self] at once
        omega
      · omega

end Progress.Untouched

def Node.slots (roots : List Node) : List Node → List Node
  | [] => roots
  | parent :: _ => parent.children

theorem Context.Stores.list? {context : Context} {roots above : List Node}
    (stores : context.Stores roots) (stored : ∀ parent ∈ above.head?, parent ∈ Node.flattenAll roots) :
    context.list? (above.head?.map (·.id)) = some ((Node.slots roots above).map (·.id)) := by
  cases above with
  | nil => exact congrArg some stores.roots_eq
  | cons parent above =>
    rw [List.head?_cons, Option.map_some, Context.list?, stores.holds parent (stored parent rfl)]
    rfl

/-- The nodes `todo`, which follow `index` others below the nodes `above`, were visited. -/
structure Context.Traverses (count : Nat) (above : List Node) (index : Nat) (todo : List Node)
    (calls : List Call) (before after : Context) : Prop extends before.Agrees after where
  brackets : Brackets count above index todo calls
  calls_eq : after.calls = before.calls ++ calls
  enters : before.progress.EntersOnly (fun number => 0 < Node.tally number todo) after.progress

variable {visitors : List Visitor} {roots above : List Node} {context : Context}

/-- Visiting a node: the nodes below it are visited in between, and the slot is put back. -/
theorem visitSlot_bracket (watches : ∀ visitor ∈ visitors, visitor.Watches roots) {node : Node}
    {index : Nat} (stored : ∀ parent ∈ above.head?, parent ∈ Node.flattenAll roots)
    (listed : (Node.slots roots above)[index]? = some node) (stores : context.Stores roots)
    (path : context.ancestors = (above.map (·.id)).reverse)
    (slot : context.slot = { parent := above.head?.map (·.id), index })
    (fresh : ∀ ordinal, context.progress.hasEntered ordinal node.id = false)
    (inner : ∀ inside : Context, inside.Stores roots →
      inside.ancestors = ((node :: above).map (·.id)).reverse →
      context.progress.EntersOnly (· = node.id) inside.progress →
      ∃ below after, Runs (visitChildren visitors (some node.id) 0) inside () after ∧
        inside.Traverses visitors.length (node :: above) 0 node.children below after) :
    ∃ asks below after, Runs (visitSlot visitors) context () after ∧ context.Agrees after ∧
      after.slot = context.slot ∧
      Brackets visitors.length (node :: above) 0 node.children below ∧
      after.calls = context.calls ++
        Call.bracket visitors.length asks node.id (.below above index node.id) below ∧
      context.progress.EntersOnly
        (fun number => number = node.id ∨ 0 < Node.tally number node.children) after.progress := by
  have given : context.current? = some node.id := by
    rw [Context.current?, slot, stores.list? stored]
    simp [listed]
  have here : context.whereabouts = .below above index node.id := by
    rw [Context.whereabouts, given, slot, path, Whereabouts.below]
  obtain ⟨asks, entered, enters, opened⟩ := enterVisitors_watched watches
    (List.drop_zero) stores given fun ordinal _ => fresh ordinal
  let inside : Context := { entered with ancestors := entered.ancestors ++ [node.id] }
  have pushes : Runs (push node.id) entered () inside := runs_modify _
  have further : inside.ancestors = ((node :: above).map (·.id)).reverse := by
    rw [List.map_cons, List.reverse_cons, ← path, ← opened.ancestors_eq]
  have kept : entered.Stores roots := stores.agrees opened.toAgrees
  obtain ⟨below, visited, visits, traverses⟩ :=
    inner inside ⟨kept.roots_eq, kept.holds⟩ further opened.enters
  let outside : Context := { visited with ancestors := visited.ancestors.dropLast }
  have pops : Runs pop visited () outside := runs_modify _
  let restored : Context := { outside with slot := entered.slot }
  have moves : Runs (moveTo entered.slot) outside () restored := runs_modify _
  have agrees : context.Agrees restored := by
    refine opened.toAgrees.trans ⟨traverses.cells_eq, traverses.roots_eq, ?_⟩
    change visited.ancestors.dropLast = _
    rw [traverses.ancestors_eq]
    exact List.dropLast_concat
  have place : restored.slot = context.slot := opened.slot_eq
  have again : restored.current? = some node.id := (agrees.current? place).trans given
  obtain ⟨after, exits, left, still, calls, same⟩ := @exitVisitors_watched _ _ node.id watches
    ((List.range' 0 visitors.length).filter asks).reverse (fun ordinal member => by
      have inRange := (List.mem_filter.1 (List.mem_reverse.1 member)).1
      have bound := (List.mem_range'_1.1 inRange).2
      omega) restored (stores.agrees agrees) again
  refine ⟨asks, below, after, ?_, agrees.trans left, still.trans place, traverses.brackets, ?_, ?_⟩
  · rw [visitSlot]
    have current := (opened.toAgrees.current? opened.slot_eq).trans given
    exact enters.bind ((runs_current_some current).bind (runs_place.bind (pushes.bind (visits.bind
      (pops.bind (moves.bind ((runs_current_some again).bind exits)))))))
  · have before : restored.calls = entered.calls ++ below := traverses.calls_eq
    rw [calls, before, opened.calls, agrees.whereabouts place, here, ← List.range_eq_range',
      Call.bracket]
    simp only [List.append_assoc]
  · intro ordinal number different
    rw [not_or] at different
    rw [Progress.hasEntered_congr same]
    exact (traverses.enters ordinal number different.2).trans
      (opened.enters ordinal number different.1)

theorem Node.mem_of_slots {node : Node}
    (stored : ∀ parent ∈ above.head?, parent ∈ Node.flattenAll roots)
    (listed : node ∈ Node.slots roots above) : node ∈ Node.flattenAll roots := by
  rw [Node.mem_flattenAll_iff]
  cases above with
  | nil => exact ⟨[], .root listed⟩
  | cons parent above =>
    obtain ⟨further, lineage⟩ := Node.mem_flattenAll_iff.1 (stored parent rfl)
    exact ⟨parent :: further, .child lineage listed⟩

/-- If no node was entered, the visits to nodes come to their end with the tree as it was, and the
calls are the brackets of the nodes. -/
theorem visitChildren_brackets (watches : ∀ visitor ∈ visitors, visitor.Watches roots)
    {above todo before : List Node} {context : Context}
    (stored : ∀ parent ∈ above.head?, parent ∈ Node.flattenAll roots)
    (list : before ++ todo = Node.slots roots above) (stores : context.Stores roots)
    (path : context.ancestors = (above.map (·.id)).reverse)
    (untouched : context.progress.Untouched todo) :
    ∃ calls after,
      Runs (visitChildren visitors (above.head?.map (·.id)) before.length) context () after ∧
      context.Traverses visitors.length above before.length todo calls after := by
  induction size : Node.weightAll todo using Nat.strongRecOn generalizing above todo before context with
  | ind bound ih =>
    have whole := stores.list? stored
    cases todo with
    | nil =>
      refine ⟨[], context, ?_, ⟨rfl, rfl, rfl⟩, .nil, (List.append_nil _).symm, fun _ _ _ => rfl⟩
      have ended : ((Node.slots roots above).map (·.id))[before.length]? = none := by
        simp [← list]
      rw [visitChildren]
      refine (runs_slotAt whole before.length).bind ?_
      rw [ended]
      exact runs_pure ()
    | cons node rest =>
      have listed : (Node.slots roots above)[before.length]? = some node := by
        simp [← list]
      have member := Node.mem_of_slots stored (List.mem_of_getElem? listed)
      let moved : Context := { context with
        slot := { parent := above.head?.map (·.id), index := before.length } }
      have moves : Runs (moveTo { parent := above.head?.map (·.id), index := before.length }) context ()
          moved := runs_modify _
      have inner (inside : Context) (kept : inside.Stores roots)
          (further : inside.ancestors = ((node :: above).map (·.id)).reverse)
          (only : moved.progress.EntersOnly (· = node.id) inside.progress) :
          ∃ below after, Runs (visitChildren visitors (some node.id) 0) inside () after ∧
            inside.Traverses visitors.length (node :: above) 0 node.children below after :=
        by
        have lighter := Node.weight_eq node
        refine @ih _ ?_ (node :: above) node.children [] inside ?_ rfl kept further
          (untouched.children only) rfl
        · simp only [← size, Node.weightAll]
          omega
        · rintro parent ⟨⟩
          exact member
      obtain ⟨asks, below, visited, visits, agrees, slot, inside, calls, enters⟩ :=
        @visitSlot_bracket visitors roots above moved watches node before.length stored listed
          ⟨stores.roots_eq, stores.holds⟩ path rfl
          (fun ordinal => untouched.fresh ordinal node.id (Node.tally_pos_of_mem List.mem_cons_self))
          inner
      have kept : context.Agrees visited :=
        ⟨agrees.cells_eq, agrees.roots_eq, agrees.ancestors_eq⟩
      have onward : (before ++ [node]) ++ rest = Node.slots roots above := by
        rw [← list, List.append_assoc, List.singleton_append]
      have fewer : Node.weightAll rest < bound := by
        have := Node.weight_pos node
        simp only [← size, Node.weightAll]
        omega
      obtain ⟨others, after, later, traverses⟩ := @ih _ fewer above rest (before ++ [node]) visited
        stored onward (stores.agrees kept) (kept.ancestors_eq.trans path) (untouched.rest enters) rfl
      rw [List.length_append, List.length_singleton] at later traverses
      refine ⟨_, after, ?_, kept.trans traverses.toAgrees, .cons asks inside traverses.brackets, ?_, ?_⟩
      · rw [visitChildren]
        refine (runs_slotAt whole before.length).bind ?_
        rw [List.getElem?_map, listed]
        refine moves.bind (visits.bind (runs_place.bind ?_))
        rw [slot]
        exact later
      · rw [traverses.calls_eq, calls, List.append_assoc]
      · intro ordinal number outside
        dsimp only at outside
        rw [tally_first, not_or, not_or] at outside
        rw [traverses.enters ordinal number outside.2.2]
        exact enters ordinal number (not_or.2 ⟨outside.1, outside.2.1⟩)

theorem exitRoots_watched {rest : List Visitor} (watches : ∀ visitor ∈ rest, visitor.Watches roots)
    (ordinal : Nat) (before : Context) :
    ∃ after, Runs (exitRoots ordinal rest) before () after ∧
      after.calls = before.calls ++ (List.range' ordinal rest.length).reverse.map .exitRoot := by
  induction rest generalizing ordinal before with
  | nil => exact ⟨before, runs_pure _, (List.append_nil _).symm⟩
  | cons visitor rest ih =>
    obtain ⟨own, others⟩ := List.forall_mem_cons.1 watches
    obtain ⟨middle, runs, calls⟩ := ih others (ordinal + 1) before
    let recorded : Context := { middle with calls := middle.calls ++ [.exitRoot ordinal] }
    have records : Runs (record (.exitRoot ordinal)) middle () recorded := runs_modify _
    obtain ⟨after, exits, kept⟩ := own.exitRoot recorded
    refine ⟨after, runs.bind (records.bind exits), ?_⟩
    have recorded : recorded.calls = middle.calls ++ [.exitRoot ordinal] := rfl
    rw [kept, recorded, calls, List.length_cons, List.range'_succ, List.reverse_cons,
      List.map_append, List.append_assoc]
    rfl

end Walk

namespace Call

variable {ordinal count : Nat} {asks : Nat → Bool} {id : NodeId} {place : Whereabouts}

@[simp]
theorem entries_append (first second : List Call) :
    entries ordinal (first ++ second) = entries ordinal first ++ entries ordinal second := by
  induction first with
  | nil => rfl
  | cons call rest ih =>
    cases call with
    | enter other =>
      simp only [List.cons_append, entries, ih]
      split <;> rfl
    | exit => exact ih
    | exitRoot => exact ih

theorem entries_enter (places : List Nat) :
    entries ordinal (places.map fun other => enter other id place (asks other)) =
      List.replicate (places.count ordinal) id := by
  induction places with
  | nil => rfl
  | cons other rest ih =>
    simp only [List.map_cons, entries, ih, List.count_cons, beq_iff_eq]
    split <;> rfl

theorem entries_exit (places : List Nat) :
    entries ordinal (places.map fun other => exit other id place) = [] := by
  induction places with
  | nil => rfl
  | cons other rest ih => exact ih

/-- Each visitor enters the node once, before anything below it. -/
theorem entries_bracket (registered : ordinal < count) (below : List Call) :
    entries ordinal (bracket count asks id place below) = id :: entries ordinal below := by
  have once : (List.range count).count ordinal = 1 := by
    rw [List.nodup_range.count, if_pos (List.mem_range.2 registered)]
  rw [bracket, entries_append, entries_append, entries_enter, entries_exit, once, List.append_nil]
  rfl

theorem mem_bracket {call : Call} {below : List Call}
    (member : call ∈ bracket count asks id place below) :
    call.node? = some (id, place) ∨ call ∈ below := by
  rcases List.mem_append.1 member with first | leaving
  · rcases List.mem_append.1 first with entering | inside
    · obtain ⟨other, _, rfl⟩ := List.mem_map.1 entering
      exact .inl rfl
    · exact .inr inside
  · obtain ⟨other, _, rfl⟩ := List.mem_map.1 leaving
    exact .inl rfl

end Call

/-- A visitor enters the nodes one after the other, each before its children. -/
theorem Brackets.entries_eq {count ordinal index : Nat} {above todo : List Node}
    {calls : List Call} (registered : ordinal < count)
    (brackets : Brackets count above index todo calls) :
    Call.entries ordinal calls = (Node.flattenAll todo).map (·.id) := by
  induction brackets with
  | nil => rfl
  | cons asks inside onward below later =>
    rw [Call.entries_append, Call.entries_bracket registered, below, later, Node.flattenAll,
      Node.flatten_eq, List.map_append, List.map_cons]

/-- The place of a node, as a visitor sees it. The nodes `above` are its path from the root, the
innermost first. -/
structure Whereabouts.Locates (place : Whereabouts) (roots : List Node) (node : Node)
    (above : List Node) : Prop where
  path : Node.Lineage roots node above
  current : place.current = some node.id
  ancestors : place.ancestors = (above.map (·.id)).reverse
  parent : place.parent = above.head?.map (·.id)
  index : (Node.slots roots above)[place.index]? = some node

theorem Brackets.located {count index : Nat} {roots above before todo : List Node}
    {calls : List Call} (brackets : Brackets count above index todo calls)
    (list : before ++ todo = Node.slots roots above) (behind : before.length = index)
    (outer : ∀ node ∈ Node.slots roots above, Node.Lineage roots node above) :
    ∀ call ∈ calls, ∃ node above place, call.node? = some (node.id, place) ∧
      place.Locates roots node above := by
  induction brackets generalizing before with
  | nil => exact List.forall_mem_nil _
  | @cons above index node rest below later asks inside onward ihInside ihOnward =>
    have listed : (Node.slots roots above)[index]? = some node := by
      simp [← list, ← behind]
    have lineage := outer node (List.mem_of_getElem? listed)
    intro call member
    rcases List.mem_append.1 member with own | later
    · rcases Call.mem_bracket own with same | deeper
      · exact ⟨node, above, _, same, lineage, rfl, rfl, rfl, listed⟩
      · apply @ihInside [] rfl rfl ?_ call deeper
        exact fun child below => .child lineage below
    · refine @ihOnward (before ++ [node]) ?_ ?_ outer call later
      · rw [← list, List.append_assoc, List.singleton_append]
      · rw [List.length_append, List.length_singleton, behind]

/-- The calls of a whole walk over a tree: those for its nodes, and those for the root. -/
structure Watched (count : Nat) (roots : List Node) (calls visits : List Call) : Prop where
  /-- At the end the visitors leave the root, the last one first. -/
  calls_eq : calls = visits ++ (List.range count).reverse.map .exitRoot
  brackets : Brackets count [] 0 roots visits
  /-- Each visitor enters each node, and each only once. -/
  once : ∀ ordinal < count, ∀ node ∈ Node.flattenAll roots,
    (Call.entries ordinal visits).count node.id = 1
  located : ∀ call ∈ visits, ∃ node above place, call.node? = some (node.id, place) ∧
    place.Locates roots node above

/-- Visitors that watch are called in brackets, each at the place of its node, and the tree comes to
the end as it was. Then they leave the root in reverse order. -/
theorem walkStored_brackets {visitors : List Visitor} {roots : List Node} {context : Context}
    (watches : ∀ visitor ∈ visitors, visitor.Watches roots) (stores : context.Stores roots)
    (forest : ((Node.flattenAll roots).map (·.id)).Nodup) (start : context.ancestors = [])
    (fresh : context.progress.entered = []) :
    ∃ calls visits visited last,
      Runs (visitChildren visitors none 0) context () visited ∧ context.Agrees visited ∧
      Runs (walkStored visitors) context () last ∧ last.calls = context.calls ++ calls ∧
      Watched visitors.length roots calls visits := by
  have untouched : context.progress.Untouched roots := by
    refine ⟨List.nodup_iff_count_le_one.1 forest, fun ordinal number _ => ?_⟩
    rw [Progress.hasEntered, fresh]
    rfl
  obtain ⟨visits, visited, walks, traverses⟩ := @visitChildren_brackets _ _ watches [] roots []
    context (by rintro parent ⟨⟩) rfl stores start untouched
  obtain ⟨last, leaves, calls⟩ := exitRoots_watched watches 0 visited
  refine ⟨_, visits, visited, last, walks, traverses.toAgrees, walks.bind leaves, ?_, rfl,
    traverses.brackets, ?_, ?_⟩
  · rw [calls, traverses.calls_eq, List.append_assoc, List.range_eq_range']
  · intro ordinal registered node inside
    rw [traverses.brackets.entries_eq registered]
    exact List.count_eq_one_of_mem forest (List.mem_map_of_mem inside)
  · exact @Brackets.located _ _ roots [] [] _ _ traverses.brackets rfl rfl fun _ member =>
      .root member

/-- A visitor that takes notes of the nodes that it is called at. -/
def Visitor.recorder (exits : NodeId → Bool) (change : NodeId → Progress → Progress) : Visitor where
  enter _ id := do
    note (change id)
    return exits id
  exit _ id := note (change id)

theorem Visitor.watches_recorder {exits : NodeId → Bool} {change : NodeId → Progress → Progress}
    (kept : ∀ id progress, (change id progress).entered = progress.entered) (roots : List Node) :
    (recorder exits change).Watches roots where
  enter _ context id _ _ := by
    refine ⟨exits id, { context with progress := change id context.progress },
      (runs_modify _).bind (runs_pure _), ⟨rfl, rfl, rfl⟩, rfl, kept id context.progress, rfl⟩
  exit _ context id _ _ :=
    ⟨{ context with progress := change id context.progress }, runs_modify _, ⟨rfl, rfl, rfl⟩, rfl,
      kept id context.progress, rfl⟩
  exitRoot context := ⟨context, runs_pure _, rfl⟩

/-- A visitor that leaves every node, and one that leaves a single one. -/
def recorders : List Visitor :=
  [.recorder (fun _ => true) fun id progress =>
      { progress with onceNodes := id :: progress.onceNodes },
    .recorder (· == 2) fun id progress =>
      { progress with components := toString id :: progress.components }]

/-- A loop over an element, in front of a text. -/
def recordedRoots : List Node :=
  [{ id := 0, content := .loop { source := default, value := none, key := none, index := none },
      span := {}, children :=
        [{ id := 1, content := .element { tag := "p", kind := .plain, properties := [] },
           span := {} }] },
    { id := 2, content := .text default, span := {} }]

def recordedContext : Context :=
  { cells := ((Node.flattenAll recordedRoots).map Node.cell).toArray
    roots := [0, 2]
    progress := default }

theorem walkStored_brackets_recorders :
    recordedContext.Stores recordedRoots ∧
    ((Node.flattenAll recordedRoots).map (·.id)).Nodup ∧
    ∃ calls visits visited last,
      Runs (visitChildren recorders none 0) recordedContext () visited ∧
      recordedContext.Agrees visited ∧ Runs (walkStored recorders) recordedContext () last ∧
      last.calls = recordedContext.calls ++ calls ∧ Watched 2 recordedRoots calls visits := by
  have watches : ∀ visitor ∈ recorders, visitor.Watches recordedRoots :=
    List.forall_mem_cons.2 ⟨Visitor.watches_recorder (by intros; rfl) _,
      List.forall_mem_singleton.2 (Visitor.watches_recorder (by intros; rfl) _)⟩
  have stores : recordedContext.Stores recordedRoots := by
    refine ⟨rfl, fun node member => ?_⟩
    rcases List.mem_cons.1 member with rfl | below
    · rfl
    · rcases List.mem_cons.1 below with rfl | behind
      · rfl
      · cases List.mem_singleton.1 behind
        rfl
  have forest : ((Node.flattenAll recordedRoots).map (·.id)).Nodup := by decide
  exact ⟨stores, forest, walkStored_brackets watches stores forest rfl rfl⟩

end TemplateCompiler
