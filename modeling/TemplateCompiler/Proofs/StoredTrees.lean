import TemplateCompiler.Lowering.Machine
import TemplateCompiler.Lowering.Site
import TemplateCompiler.Proofs.Lineage
import TemplateCompiler.Proofs.Runs

/-! Trees and the cells that they are stored in. The nodes of a list are stored apart from all that
stands around them, so what is done to them leaves that alone. -/

namespace TemplateCompiler

namespace Context

def list? (context : Context) : Option NodeId → Option (List NodeId)
  | none => some context.roots
  | some parent => context.cells[parent]?.map (·.children)

def current? (context : Context) : Option NodeId :=
  if context.slot.removed then none
  else (context.list? context.slot.parent).bind fun list => list[context.slot.index]?

def whereabouts (context : Context) : Whereabouts :=
  { current := context.current?
    parent := context.slot.parent
    index := context.slot.index
    ancestors := context.ancestors }

/-- All nodes are stored under their numbers. -/
def Holds (context : Context) (nodes : List Node) : Prop :=
  ∀ node ∈ Node.flattenAll nodes, context.cells[node.id]? = some node.cell

end Context

namespace Walking

variable {context : Context} {id : NodeId} {parent : Option NodeId} {children : List NodeId}
  {cell : Cell}

theorem runs_stored (found : context.cells[id]? = some cell) :
    Runs (stored id) context cell context := by
  apply runs_get.bind
  rw [found]
  exact runs_pure cell

theorem runs_look (found : context.cells[id]? = some cell) :
    Runs (look id) context (cell.node id) context :=
  (runs_stored found).bind (runs_pure _)

theorem runs_place : Runs place context context.slot context :=
  runs_get.bind (runs_pure _)

theorem runs_childrenOf (listed : context.list? parent = some children) :
    Runs (childrenOf parent) context children context := by
  cases parent with
  | none =>
    cases listed
    exact runs_get.bind (runs_pure _)
  | some parent =>
    obtain ⟨cell, found, rfl⟩ := Option.map_eq_some_iff.1 listed
    exact (runs_stored found).bind (runs_pure _)

theorem runs_slotAt (listed : context.list? parent = some children) (index : Nat) :
    Runs (slotAt parent index) context children[index]? context :=
  (runs_childrenOf listed).bind (runs_pure _)

theorem runs_current (listed : context.list? context.slot.parent = some children) :
    Runs current context context.current? context := by
  apply runs_place.bind
  rw [Context.current?, listed]
  split
  · exact runs_pure _
  · exact runs_slotAt listed _

theorem runs_whereabouts (listed : context.list? context.slot.parent = some children) :
    Runs Walking.whereabouts context context.whereabouts context :=
  runs_place.bind ((runs_current listed).bind (runs_get.bind (runs_pure _)))

end Walking

/-- What stands around a list of nodes. -/
structure Frame where
  /-- The nodes around the list, the innermost first. The list is that of its children, or of the
  roots. -/
  ancestors : List NodeId := []
  /-- The innermost node without its children. -/
  owner : Option Cell := none
  /-- Cells of other nodes. -/
  cells : NodeId → Option Cell := fun _ => none
  /-- The roots, unless these are the list. -/
  roots : List NodeId := []

namespace Frame

def parent? (frame : Frame) : Option NodeId :=
  frame.ancestors.head?

def hasSiblings (frame : Frame) : Bool :=
  (frame.owner.map Cell.isElement).getD true

end Frame

def Cell.bare (cell : Cell) : Cell :=
  { cell with children := [] }

theorem Node.node_cell (node : Node) : node.cell.node node.id = node.bare :=
  rfl

theorem Node.sublist_flattenAll_of_sublist {fewer nodes : List Node} (sublist : fewer.Sublist nodes) :
    (flattenAll fewer).Sublist (flattenAll nodes) := by
  induction sublist with
  | slnil => exact List.Sublist.refl _
  | cons node _ ih => exact ih.trans (List.sublist_append_right node.flatten _)
  | cons_cons node _ ih => exact (List.Sublist.refl node.flatten).append ih

theorem Node.tally_le_of_sublist {fewer nodes : List Node} (sublist : fewer.Sublist nodes)
    (number : NodeId) : tally number fewer ≤ tally number nodes :=
  ((sublist_flattenAll_of_sublist sublist).map Node.id).count_le number

/-- A walk over stored nodes can tell from the cells how many numbers were given, and keeps no account
of the nodes that leave the tree. -/
def Progress.bare (progress : Progress) : Progress :=
  { progress with next := 0, dropped := [] }

namespace Context

/-- Inside of a frame the nodes of the forest are stored, each under a number of its own, and the
list is as given. -/
structure Owns (context : Context) (frame : Frame) (list : List NodeId) (forest : List Node)
    (progress : Progress) : Prop where
  ancestors_eq : context.ancestors = frame.ancestors.reverse
  listed : context.list? frame.parent? = some list
  owner_eq : (frame.parent?.bind fun parent => context.cells[parent]?.map Cell.bare) = frame.owner
  roots_eq : frame.parent? ≠ none → context.roots = frame.roots
  holds : context.Holds forest
  distinct : ∀ number, Node.tally number forest ≤ 1
  apart : ∀ parent ∈ frame.parent?, Node.tally parent forest = 0
  kept : ∀ id cell, frame.cells id = some cell →
    context.cells[id]? = some cell ∧ Node.tally id forest = 0 ∧ frame.parent? ≠ some id
  progress_eq : context.progress = progress.bare
  size_eq : context.cells.size = progress.next

variable {context after : Context} {frame : Frame} {list : List NodeId} {forest : List Node}
  {node : Node} {progress later : Progress}

theorem list?_of_eq (cells : after.cells = context.cells) (roots : after.roots = context.roots)
    (parent : Option NodeId) : after.list? parent = context.list? parent := by
  cases parent with
  | none => exact congrArg some roots
  | some parent => rw [list?, list?, cells]

theorem Holds.cons_iff {rest : List Node} : context.Holds (node :: rest) ↔
    context.cells[node.id]? = some node.cell ∧ context.Holds node.children ∧
      context.Holds rest := by
  simp only [Holds, Node.flattenAll, Node.flatten_eq, List.cons_append, List.forall_mem_cons,
    List.forall_mem_append]

theorem Holds.append_iff {first second : List Node} :
    context.Holds (first ++ second) ↔ context.Holds first ∧ context.Holds second := by
  simp only [Holds, Node.flattenAll_append, List.forall_mem_append]

/-- Where no cell of a node is changed, the nodes stay in place. -/
theorem Holds.of_cells (holds : context.Holds forest)
    (same : ∀ id, 0 < Node.tally id forest → after.cells[id]? = context.cells[id]?) :
    after.Holds forest := by
  intro node member
  rw [same node.id (Node.tally_pos_iff.2 ⟨node, member, rfl⟩)]
  exact holds node member

theorem Holds.lt_size (holds : context.Holds forest) {id : NodeId}
    (present : 0 < Node.tally id forest) : id < context.cells.size := by
  obtain ⟨node, member, rfl⟩ := Node.tally_pos_iff.1 present
  exact (Array.getElem?_eq_some_iff.1 (holds node member)).1

namespace Owns

/-- The slot and the calls do not matter. -/
theorem of_eq (owns : context.Owns frame list forest progress)
    (cells : after.cells = context.cells) (roots : after.roots = context.roots)
    (ancestors : after.ancestors = context.ancestors)
    (same : after.progress = later.bare) (next : later.next = progress.next) :
    after.Owns frame list forest later := by
  refine ⟨ancestors.trans owns.ancestors_eq, ?_, ?_, ?_, ?_, owns.distinct, owns.apart, ?_, same, ?_⟩
  · rw [list?_of_eq cells roots]
    exact owns.listed
  · rw [cells]
    exact owns.owner_eq
  · rw [roots]
    exact owns.roots_eq
  · exact owns.holds.of_cells fun id _ => by rw [cells]
  · rw [cells]
    exact owns.kept
  · rw [cells, next]
    exact owns.size_eq

/-- Some of the nodes may be left to themselves. -/
theorem forget (owns : context.Owns frame list forest progress) {fewer : List Node}
    (subset : Node.flattenAll fewer ⊆ Node.flattenAll forest)
    (tally : ∀ number, Node.tally number fewer ≤ Node.tally number forest) :
    context.Owns frame list fewer progress where
  ancestors_eq := owns.ancestors_eq
  listed := owns.listed
  owner_eq := owns.owner_eq
  roots_eq := owns.roots_eq
  holds node member := owns.holds node (subset member)
  distinct number := Nat.le_trans (tally number) (owns.distinct number)
  apart parent given := Nat.eq_zero_of_le_zero (owns.apart parent given ▸ tally parent)
  kept id cell given :=
    have ⟨stored, absent, other⟩ := owns.kept id cell given
    ⟨stored, Nat.eq_zero_of_le_zero (absent ▸ tally id), other⟩
  progress_eq := owns.progress_eq
  size_eq := owns.size_eq

theorem stored (owns : context.Owns frame list forest progress) (member : node ∈ forest) :
    context.cells[node.id]? = some node.cell := by
  apply owns.holds
  exact Node.flatten_subset_flattenAll member node (by simp [Node.flatten_eq])

theorem stored_children (owns : context.Owns frame list forest progress) (member : node ∈ forest) :
    ∀ child ∈ node.children, context.cells[child.id]? = some child.cell := by
  intro child listed
  refine owns.holds child (Node.flatten_subset_flattenAll member child ?_)
  rw [Node.flatten_eq]
  refine List.mem_cons_of_mem node (Node.flatten_subset_flattenAll listed child ?_)
  simp [Node.flatten_eq]

theorem runs_siblings? (owns : context.Owns frame list forest progress)
    (parent : context.slot.parent = frame.parent?) :
    Runs Walking.siblings? context (if frame.hasSiblings then some list else none) context := by
  have listed := owns.listed
  have owner := owns.owner_eq
  refine Walking.runs_place.bind ?_
  rw [parent]
  cases given : frame.parent? with
  | none =>
    rw [given] at listed owner
    cases listed
    refine runs_get.bind ?_
    rw [Frame.hasSiblings, ← owner]
    exact runs_pure _
  | some parent =>
    rw [given, list?, Option.map_eq_some_iff] at listed
    obtain ⟨cell, found, rfl⟩ := listed
    rw [given, Option.bind_some, found] at owner
    refine (Walking.runs_stored found).bind ?_
    rw [Frame.hasSiblings, ← owner]
    exact runs_pure _

theorem runs_siblings (owns : context.Owns frame list forest progress)
    (parent : context.slot.parent = frame.parent?) :
    Runs Walking.siblings context (if frame.hasSiblings then list else []) context := by
  refine (owns.runs_siblings? parent).bind ?_
  split
  · exact runs_pure list
  · exact runs_pure []

theorem ne_parent (owns : context.Owns frame list forest progress) {id : NodeId}
    (present : 0 < Node.tally id forest) : frame.parent? ≠ some id := by
  intro same
  have := owns.apart id same
  omega

/-- The cells of some of the nodes, and new ones, are written. What is around stays as it is. -/
theorem rewrite (owns : context.Owns frame list forest progress) {others : List Node}
    (roots : after.roots = context.roots) (ancestors : after.ancestors = context.ancestors)
    (same : ∀ id, id < context.cells.size → Node.tally id forest = 0 →
      after.cells[id]? = context.cells[id]?)
    (holds : after.Holds others) (distinct : ∀ number, Node.tally number others ≤ 1)
    (old : ∀ id, id < context.cells.size → Node.tally id others ≤ Node.tally id forest)
    (noted : after.progress = later.bare) (size : after.cells.size = later.next) :
    after.Owns frame list others later := by
  have stays {id : NodeId} {cell : Cell} (found : context.cells[id]? = some cell)
      (absent : Node.tally id forest = 0) :
      after.cells[id]? = some cell ∧ Node.tally id others = 0 := by
    have inside := (Array.getElem?_eq_some_iff.1 found).1
    have := old id inside
    exact ⟨(same id inside absent).trans found, by omega⟩
  have parents (parent : NodeId) (given : frame.parent? = some parent) :
      after.cells[parent]? = context.cells[parent]? ∧ Node.tally parent others = 0 := by
    have listed := owns.listed
    rw [given, list?, Option.map_eq_some_iff] at listed
    obtain ⟨cell, found, -⟩ := listed
    obtain ⟨kept, absent⟩ := stays found (owns.apart parent given)
    exact ⟨kept.trans found.symm, absent⟩
  refine ⟨ancestors.trans owns.ancestors_eq, ?_, ?_, ?_, holds, distinct,
    fun parent given => (parents parent given).2, ?_, noted, size⟩
  · have listed := owns.listed
    cases given : frame.parent? with
    | none =>
      rw [given] at listed
      exact (congrArg some roots).trans listed
    | some parent =>
      rw [given] at listed
      rw [list?, (parents parent given).1]
      exact listed
  · rw [← owns.owner_eq]
    cases given : frame.parent? with
    | none => rfl
    | some parent =>
      rw [Option.bind_some, Option.bind_some, (parents parent given).1]
  · rw [roots]
    exact owns.roots_eq
  · intro id cell given
    obtain ⟨found, absent, other⟩ := owns.kept id cell given
    obtain ⟨kept, still⟩ := stays found absent
    exact ⟨kept, still, other⟩

theorem note (owns : context.Owns frame list forest progress) (change : Progress → Progress)
    (later : Progress) (same : change progress.bare = later.bare)
    (next : later.next = progress.next) : ∃ after, Runs (Walking.note change) context () after ∧
      after.Owns frame list forest later ∧ after.slot = context.slot := by
  refine ⟨{ context with progress := change context.progress }, runs_modify _,
    owns.of_eq rfl rfl rfl ?_ next, rfl⟩
  rw [← same, ← owns.progress_eq]

theorem take (owns : context.Owns frame list forest progress) {α : Type} {reported : Reported α}
    (fits : reported.fault? = none) :
    ∃ after, Runs (Walking.take reported) context reported.value after ∧
      after.Owns frame list forest (progress.absorb reported) ∧ after.slot = context.slot := by
  obtain ⟨after, notes, noted, slot⟩ := owns.note (·.report reported.problems)
    (progress.absorb reported) (by rw [Progress.absorb, fits, Option.or_none]; rfl) rfl
  refine ⟨after, notes.bind ?_, noted, slot⟩
  rw [fits]
  exact runs_pure _

theorem relist (owns : context.Owns frame list forest progress) (children : List NodeId) :
    ∃ after, Runs (Walking.setChildren children frame.parent?) context () after ∧
      after.Owns frame children forest progress ∧ after.slot = context.slot := by
  have listed := owns.listed
  have owner := owns.owner_eq
  cases given : frame.parent? with
  | none =>
    refine ⟨{ context with roots := children }, runs_modify _, ⟨owns.ancestors_eq, ?_, ?_, ?_,
      owns.holds, owns.distinct, owns.apart, owns.kept, owns.progress_eq, owns.size_eq⟩, rfl⟩
    · rw [given]
      rfl
    · rw [given] at owner ⊢
      exact owner
    · exact fun some => absurd given some
  | some parent =>
    rw [given, list?, Option.map_eq_some_iff] at listed
    obtain ⟨cell, found, -⟩ := listed
    have inside := (Array.getElem?_eq_some_iff.1 found).1
    let after : Context := { context with
      cells := context.cells.setIfInBounds parent { cell with children } }
    have own : after.cells[parent]? = some { cell with children } := by
      simp [after, inside]
    have others (id : NodeId) (other : frame.parent? ≠ some id) :
        after.cells[id]? = context.cells[id]? := by
      have different : parent ≠ id := fun same => other (same ▸ given)
      simp [after, different]
    refine ⟨after, (Walking.runs_stored found).bind (runs_modify _), ⟨owns.ancestors_eq, ?_, ?_,
      owns.roots_eq, ?_, owns.distinct, owns.apart, ?_, owns.progress_eq, ?_⟩, rfl⟩
    · rw [given, list?, own]
      rfl
    · rw [given, Option.bind_some, found] at owner
      rw [given, Option.bind_some, own]
      exact owner
    · exact owns.holds.of_cells fun id present => others id (owns.ne_parent present)
    · intro id cell kept
      obtain ⟨stored, absent, other⟩ := owns.kept id cell kept
      exact ⟨(others id other).trans stored, absent, other⟩
    · rw [Array.size_setIfInBounds]
      exact owns.size_eq

/-- One of the nodes gets another content. -/
theorem setContent {front back : List Node}
    (owns : context.Owns frame list (front ++ node :: back) progress) (content : Content) :
    ∃ after, Runs (Walking.setContent node.id content) context () after ∧
      after.Owns frame list (front ++ { node with content } :: back) progress ∧
      after.slot = context.slot := by
  have found := owns.stored (List.mem_append_right front List.mem_cons_self)
  have inside := (Array.getElem?_eq_some_iff.1 found).1
  let changed : Node := { node with content }
  let after : Context := { context with
    cells := context.cells.setIfInBounds node.id changed.cell }
  have others (id : NodeId) (other : id ≠ node.id) : after.cells[id]? = context.cells[id]? := by
    simp [after, other.symm]
  have tallied (number : NodeId) : Node.tally number (front ++ changed :: back) =
      Node.tally number (front ++ node :: back) := by
    rw [Node.tally_append, Node.tally_append, Node.tally_cons number changed,
      Node.tally_cons number node, Node.tally_singleton number changed,
      Node.tally_singleton number node]
  -- The number of the node is on it alone.
  have once := owns.distinct node.id
  rw [Node.tally_append, Node.tally_cons, Node.tally_singleton, List.count_singleton_self] at once
  have away {nodes : List Node} (absent : Node.tally node.id nodes = 0)
      (holds : context.Holds nodes) : after.Holds nodes := by
    refine holds.of_cells fun id present => others id ?_
    rintro rfl
    omega
  obtain ⟨before, behind⟩ := Holds.append_iff.1 owns.holds
  obtain ⟨-, below, behind⟩ := Holds.cons_iff.1 behind
  have holds : after.Holds (front ++ changed :: back) := by
    have kept := away (by omega) below
    refine Holds.append_iff.2 ⟨away (by omega) before, Holds.cons_iff.2 ⟨?_, kept,
      away (by omega) behind⟩⟩
    simp [after, inside, changed]
  refine ⟨after, (Walking.runs_stored found).bind (runs_modify _),
    owns.rewrite rfl rfl ?_ holds ?_ ?_ owns.progress_eq ?_, rfl⟩
  · intro id _ absent
    refine others id ?_
    rintro rfl
    have := Node.tally_pos_of_mem (List.mem_append_right front (List.mem_cons_self (a := node)
      (l := back)))
    omega
  · intro number
    rw [tallied]
    exact owns.distinct number
  · exact fun id _ => Nat.le_of_eq (tallied id)
  · rw [Array.size_setIfInBounds]
    exact owns.size_eq

/-- One of the nodes gets other children: some that were below it, or new ones. -/
theorem withChildren {front back nodes : List Node}
    (owns : context.Owns frame list (front ++ node :: back) progress)
    (roots : after.roots = context.roots) (ancestors : after.ancestors = context.ancestors)
    (own : after.cells[node.id]? = some { node with children := nodes }.cell)
    (stays : ∀ id, id < context.cells.size → id ≠ node.id → Node.tally id node.children = 0 →
      after.cells[id]? = context.cells[id]? ∧ Node.tally id nodes = 0)
    (apart : Node.tally node.id nodes = 0) (holds : after.Holds nodes)
    (distinct : ∀ number, Node.tally number nodes ≤ 1) (noted : after.progress = later.bare)
    (size : after.cells.size = later.next) :
    after.Owns frame list (front ++ { node with children := nodes } :: back) later := by
  have split (number : NodeId) (node : Node) : Node.tally number (front ++ node :: back) =
      Node.tally number front + ([node.id].count number + Node.tally number node.children) +
        Node.tally number back := by
    rw [Node.tally_append, Node.tally_cons, Node.tally_singleton]
    omega
  have old (number : NodeId) := split number node
  have new (number : NodeId) :
      Node.tally number (front ++ { node with children := nodes } :: back) =
        Node.tally number front + ([node.id].count number + Node.tally number nodes) +
          Node.tally number back :=
    split number { node with children := nodes }
  have once (number : NodeId) := old number ▸ owns.distinct number
  have self : [node.id].count node.id = 1 := List.count_singleton_self
  have inside (number : NodeId) (present : 0 < Node.tally number (front ++ node :: back)) :=
    owns.holds.lt_size present
  -- A number below the node now was there before, or is new.
  have known (number : NodeId) (given : number < context.cells.size) :
      Node.tally number nodes = 0 ∨ 0 < Node.tally number node.children := by
    by_cases same : number = node.id
    · exact .inl (same ▸ apart)
    · by_cases outside : Node.tally number node.children = 0
      · exact .inl (stays number given same outside).2
      · exact .inr (Nat.pos_of_ne_zero outside)
  have aside {aside : List Node} (held : context.Holds aside)
      (away : ∀ number, 0 < Node.tally number aside →
        number ≠ node.id ∧ Node.tally number node.children = 0) : after.Holds aside := by
    refine held.of_cells fun number present => ?_
    obtain ⟨other, outside⟩ := away number present
    exact (stays number (held.lt_size present) other outside).1
  obtain ⟨before, rest⟩ := Holds.append_iff.1 owns.holds
  obtain ⟨-, -, behind⟩ := Holds.cons_iff.1 rest
  refine owns.rewrite roots ancestors ?_ ?_ ?_ ?_ noted size
  · intro number given absent
    rw [old] at absent
    refine (stays number given ?_ (by omega)).1
    rintro rfl
    omega
  · refine Holds.append_iff.2 ⟨aside before ?_, Holds.cons_iff.2 ⟨own, holds, aside behind ?_⟩⟩
    · intro number present
      have := once number
      refine ⟨?_, by omega⟩
      rintro rfl
      omega
    · intro number present
      have := once number
      refine ⟨?_, by omega⟩
      rintro rfl
      omega
  · intro number
    have := once number
    have := distinct number
    rw [new]
    by_cases given : number < context.cells.size
    · have := known number given
      omega
    · have absent : ¬ 0 < Node.tally number (front ++ node :: back) := fun present =>
        given (inside number present)
      rw [old] at absent
      omega
  · intro number given
    have := distinct number
    have := once number
    have := known number given
    rw [new, old]
    omega

/-- A new node takes some of the nodes as its children. -/
theorem alloc (owns : context.Owns frame list forest progress) {others : List Node}
    (number : node.id = progress.next)
    (subset : Node.flattenAll (node.children ++ others) ⊆ Node.flattenAll forest)
    (tally : ∀ number, Node.tally number (node.children ++ others) ≤ Node.tally number forest)
    (next : later.next = progress.next + 1) (noted : later.bare = progress.bare) :
    ∃ after, Runs (Walking.alloc node.cell) context node.id after ∧
      after.Owns frame list (node :: others) later ∧ after.slot = context.slot := by
  let after : Context := { context with cells := context.cells.push node.cell }
  have fresh : Node.tally node.id forest = 0 := by
    by_contra present
    have := owns.holds.lt_size (Nat.pos_of_ne_zero present)
    rw [owns.size_eq, number] at this
    exact Nat.lt_irrefl _ this
  have same (id : NodeId) (inside : id < context.cells.size) :
      after.cells[id]? = context.cells[id]? := by
    simp [after, Array.getElem?_push, Nat.ne_of_lt inside]
  have split (id : NodeId) : Node.tally id (node :: others) =
      [node.id].count id + Node.tally id (node.children ++ others) := by
    rw [Node.tally_cons, Node.tally_singleton, Node.tally_append]
    omega
  have holds : after.Holds (node :: others) := by
    have kept : context.Holds (node.children ++ others) := fun inner member =>
      owns.holds inner (subset member)
    have moved : after.Holds (node.children ++ others) :=
      kept.of_cells fun id present => same id (kept.lt_size present)
    obtain ⟨below, behind⟩ := Holds.append_iff.1 moved
    refine Holds.cons_iff.2 ⟨?_, below, behind⟩
    rw [number, ← owns.size_eq]
    exact Array.getElem?_push_size
  refine ⟨after, ?_, owns.rewrite rfl rfl (fun id inside _ => same id inside) holds ?_ ?_ ?_ ?_, rfl⟩
  · rw [number, ← owns.size_eq]
    exact runs_get.bind ((runs_set after).bind (runs_pure _))
  · intro id
    have := tally id
    have := owns.distinct id
    rw [split, List.count_singleton]
    split
    · next own =>
      have own := beq_iff_eq.1 own
      subst own
      omega
    · omega
  · intro id inside
    have := tally id
    have other : node.id ≠ id := by
      rw [number, ← owns.size_eq]
      exact Nat.ne_of_gt inside
    rw [split, List.count_singleton, if_neg (by simpa using other)]
    omega
  · rw [noted]
    exact owns.progress_eq
  · rw [next, Array.size_push, owns.size_eq]

/-- The node in the slot gives way to another one. -/
theorem replaceNode {front back : List NodeId} {id : NodeId}
    (owns : context.Owns frame (front ++ id :: back) forest progress)
    (slot : context.slot = { parent := frame.parent?, index := front.length }) (new : NodeId) :
    ∃ after, Runs (Walking.replaceNode new) context () after ∧
      after.Owns frame (front ++ new :: back) forest progress ∧ after.slot = context.slot := by
  obtain ⟨after, sets, last, still⟩ := owns.relist (front ++ new :: back)
  refine ⟨after, Walking.runs_place.bind ?_, last, still⟩
  rw [slot]
  refine (Walking.runs_childrenOf owns.listed).bind ?_
  rw [List.set_append_right _ _ (Nat.le_refl _), Nat.sub_self, List.set_cons_zero]
  exact sets

/-- A new node comes in place of the one in the slot. Nodes that were there may be below it. -/
theorem exchange {front inner rest : List Node} {id : NodeId} {new : Node}
    (owns : context.Owns frame (front.map (·.id) ++ id :: rest.map (·.id)) (front ++ (inner ++ rest))
      progress)
    (slot : context.slot = { parent := frame.parent?, index := front.length })
    (number : new.id = progress.next) (below : new.children.Sublist inner)
    (next : later.next = progress.next + 1) (noted : later.bare = progress.bare) :
    ∃ middle after, Runs (Walking.alloc new.cell) context new.id middle ∧
      Runs (Walking.replaceNode new.id) middle () after ∧
      after.Owns frame ((front ++ new :: rest).map (·.id)) (front ++ new :: rest) later ∧
      after.slot = context.slot := by
  have nodes := Node.sublist_flattenAll_of_sublist below
  obtain ⟨middle, allocs, held, place⟩ := @alloc _ _ _ _ new _ later owns (front ++ rest) number
    (by
      intro inside member
      simp only [Node.flattenAll_append, List.mem_append] at member ⊢
      rcases member with lower | outside | behind
      · exact .inr (.inl (nodes.subset lower))
      · exact .inl outside
      · exact .inr (.inr behind))
    (by
      intro number
      have := Node.tally_le_of_sublist below number
      simp only [Node.tally_append]
      omega)
    next noted
  have moved : middle.Owns frame (front.map (·.id) ++ id :: rest.map (·.id)) (front ++ new :: rest)
      later := by
    refine held.forget ?_ fun number => ?_
    · intro inside member
      simp only [Node.flattenAll, Node.flattenAll_append, List.mem_append] at member ⊢
      rcases member with outside | own | behind
      · exact .inr (.inl outside)
      · exact .inl own
      · exact .inr (.inr behind)
    · have first := Node.tally_cons number new (front ++ rest)
      have later := Node.tally_cons number new rest
      have all := Node.tally_append number front (new :: rest)
      have others := Node.tally_append number front rest
      omega
  obtain ⟨after, replaces, last, still⟩ :=
    moved.replaceNode ((place.trans slot).trans (by rw [List.length_map])) new.id
  rw [← List.map_cons (f := fun node : Node => node.id), ← List.map_append] at last
  exact ⟨middle, after, allocs, replaces, last, still.trans place⟩

end Owns

end Context

end TemplateCompiler
