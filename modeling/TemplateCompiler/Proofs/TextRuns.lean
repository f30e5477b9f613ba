import TemplateCompiler.Proofs.WalkState

/-! Merging the texts among the children of a node. The first node of each run stays and gets the
text of the whole run, the others leave the tree, and all other children are left alone. -/

namespace TemplateCompiler.TextRun

theorem flatMap_runs (nodes : List Node) :
    (runs nodes).flatMap (fun run => run.first :: run.rest) = nodes := by
  induction nodes with
  | nil => rfl
  | cons node nodes ih =>
    simp only [runs]
    split
    · next empty =>
      rw [empty] at ih
      simp [← ih]
    · next run others same =>
      rw [same] at ih
      split
      · simp [← ih]
      · simp [← ih]

theorem mem_of_runs {nodes : List Node} {run : Run} (member : run ∈ runs nodes) :
    run.first ∈ nodes := by
  rw [← flatMap_runs nodes]
  exact List.mem_flatMap.2 ⟨run, member, List.mem_cons_self⟩

theorem isTextLike_of_mem_rest {nodes : List Node} {run : Run} (member : run ∈ runs nodes) :
    ∀ node ∈ run.rest, node.isTextLike = true ∧ run.first.isTextLike = true := by
  induction nodes generalizing run with
  | nil => cases member
  | cons node nodes ih =>
    simp only [runs] at member
    split at member
    · cases List.mem_singleton.1 member
      exact fun _ inside => nomatch inside
    · next next others same =>
      split at member
      · next both =>
        obtain ⟨own, later⟩ := Bool.and_eq_true_iff.1 both
        rcases List.mem_cons.1 member with rfl | behind
        · intro other inside
          rcases List.mem_cons.1 inside with rfl | deeper
          · exact ⟨later, own⟩
          · exact ⟨(ih (same ▸ List.mem_cons_self) other deeper).1, own⟩
        · exact ih (same ▸ List.mem_cons_of_mem _ behind)
      · rcases List.mem_cons.1 member with rfl | behind
        · exact fun _ inside => nomatch inside
        · exact ih (same ▸ behind)

theorem tally_runs (number : NodeId) (found : List Run) :
    Node.tally number (found.map (·.first)) + Node.tally number (found.flatMap (·.rest)) =
      Node.tally number (found.flatMap fun run => run.first :: run.rest) := by
  induction found with
  | nil => rfl
  | cons run found ih =>
    simp only [List.map_cons, List.flatMap_cons, List.cons_append]
    rw [Node.tally_cons number run.first (found.map _), Node.tally_cons number run.first (_ ++ _),
      Node.tally_append, Node.tally_append]
    omega

theorem distinct_firsts {nodes : List Node} (distinct : ∀ number, Node.tally number nodes ≤ 1)
    (number : NodeId) : Node.tally number ((runs nodes).map (·.first)) ≤ 1 := by
  have total := tally_runs number (runs nodes)
  have := distinct number
  rw [flatMap_runs] at total
  omega

variable {surroundings around : Surroundings} {fastPath : Bool} {progress : Progress}

theorem writes_write (progress : Progress) (run : Run) :
    progress.Writes (write surroundings fastPath progress run) := by
  simp only [write]
  split
  · exact ⟨rfl, rfl, rfl, rfl, rfl, rfl, rfl, rfl, rfl⟩
  · exact .refl progress

theorem get?_write (progress : Progress) (run : Run) (number : NodeId) :
    (write surroundings fastPath progress run).table.get? number =
      if number = run.first.id ∧ run.first.isTextLike = true then
        some { body := .text (call surroundings fastPath (run.first :: run.rest)) }
      else progress.table.get? number := by
  simp only [write]
  split
  · next isText =>
    simp only [Progress.setCode, Table.get?_set, isText, and_true]
    rfl
  · next noText => rw [if_neg fun both => noText both.2]

theorem writes_foldl (progress : Progress) (found : List Run) :
    progress.Writes (found.foldl (write surroundings fastPath) progress) := by
  induction found generalizing progress with
  | nil => exact .refl progress
  | cons run found ih => exact (writes_write progress run).trans (ih _)

theorem get?_foldl_elsewhere {number : NodeId} (progress : Progress) {found : List Run}
    (elsewhere : ∀ run ∈ found, run.first.isTextLike = true → number ≠ run.first.id) :
    (found.foldl (write surroundings fastPath) progress).table.get? number =
      progress.table.get? number := by
  induction found generalizing progress with
  | nil => rfl
  | cons run found ih =>
    obtain ⟨own, others⟩ := List.forall_mem_cons.1 elsewhere
    rw [List.foldl_cons, ih _ others, get?_write, if_neg]
    exact fun both => own both.2 both.1

theorem get?_foldl {found : List Run} (progress : Progress)
    (distinct : ∀ number, Node.tally number (found.map (·.first)) ≤ 1) {run : Run}
    (member : run ∈ found) (isText : run.first.isTextLike = true) :
    (found.foldl (write surroundings fastPath) progress).table.get? run.first.id =
      some { body := .text (call surroundings fastPath (run.first :: run.rest)) } := by
  obtain ⟨front, back, rfl⟩ := List.append_of_mem member
  rw [List.foldl_append, List.foldl_cons, get?_foldl_elsewhere, get?_write, if_pos ⟨rfl, isText⟩]
  intro other behind _ same
  have once := distinct run.first.id
  have own := Node.tally_self_pos run.first
  have double : 0 < Node.tally other.first.id (back.map (·.first)) :=
    Node.tally_pos_of_mem (List.mem_map_of_mem behind)
  rw [← same] at double
  rw [List.map_append, List.map_cons, Node.tally_append, Node.tally_cons run.first.id run.first] at once
  omega

structure Merges (around : Surroundings) (takesText : Bool) (children : List Node)
    (before : Progress) (merged : List Node × Progress) : Prop where
  tally : ∀ number, Node.tally number merged.1 + Node.tally number merged.2.dropped =
    Node.tally number children + Node.tally number before.dropped
  dropped_le : ∀ number,
    Node.tally number before.dropped ≤ Node.tally number merged.2.dropped
  next : merged.2.next = before.next
  scope : merged.2.scope = before.scope
  frames : merged.2.frames = before.frames
  setting : merged.2.setting = before.setting
  onceNodes : merged.2.onceNodes = before.onceNodes
  frame : ∀ number, Node.tally number children = 0 → before.Agrees number merged.2
  silent : ∀ number, Node.tally number merged.1 = 0 →
    (Node.tally number children = 0 → before.Silent number) → merged.2.Silent number
  settled : ∀ child ∈ merged.1,
    Settled merged.2 around (.child (takesText && merged.1.length = 1)) child

/-- Merging changes only what is known of the first texts of the runs. -/
theorem agrees_merge (takesText : Bool) {children : List Node} {number : NodeId}
    (elsewhere : ∀ run ∈ runs children, run.first.isTextLike = true → number ≠ run.first.id) :
    progress.Agrees number (merge surroundings takesText children progress).2 := by
  have writes := @writes_foldl surroundings (takesText && (runs children).length = 1) progress
    (runs children)
  have agrees := writes.agrees (get?_foldl_elsewhere progress elsewhere)
  exact ⟨agrees.table, agrees.dependencies, agrees.mark, agrees.once, agrees.entered⟩

/-- Nothing was written for a text that a run takes in behind its first. -/
theorem silent_of_joined {children : List Node}
    (finished : ∀ child ∈ children, Finished progress around child) {number : NodeId}
    (joined : 0 < Node.tally number ((runs children).flatMap (·.rest))) :
    progress.Silent number := by
  obtain ⟨gone, inside, counted⟩ := Node.exists_mem_of_tally_pos joined
  obtain ⟨run, member, behind⟩ := List.mem_flatMap.1 inside
  have listed : gone ∈ children := by
    rw [← flatMap_runs children]
    exact List.mem_flatMap.2 ⟨run, member, List.mem_cons_of_mem _ behind⟩
  have isText := (isTextLike_of_mem_rest member gone behind).1
  rcases finished gone listed with ⟨_, leaf, silent, _⟩ | ⟨noText, _⟩
  · rw [Node.tally_singleton, leaf, Node.tally_nil] at counted
    rw [List.mem_singleton.1 (List.count_pos_iff.1 counted)]
    exact silent
  · rw [noText] at isText
    cases isText

/-- The first of each run is settled by merging: a text by what is written for it, and anything else
was settled before. -/
theorem settled_merge (takesText : Bool) {children : List Node}
    (distinct : ∀ number, Node.tally number children ≤ 1)
    (finished : ∀ child ∈ children, Finished progress around child) {run : Run}
    (member : run ∈ runs children) :
    Settled (merge around takesText children progress).2 around
      (.child (takesText && (runs children).length = 1)) run.first := by
  rcases finished run.first (mem_of_runs member) with ⟨isText, leaf, _, noted⟩ | ⟨noText, settled⟩
  · have code := @get?_foldl around (takesText && (runs children).length = 1) _ progress
      (distinct_firsts distinct) run member isText
    have noted := (@writes_foldl around (takesText && (runs children).length = 1) progress
      (runs children)).noted noted
    refine .text isText leaf List.head?_cons ?_ ⟨noted.dependencies, noted.mark⟩ code
    refine List.forall_mem_cons.2 ⟨isText, fun other behind => ?_⟩
    exact (isTextLike_of_mem_rest member other behind).1
  · refine (settled.agrees fun number present => ?_).recast noText _
    refine agrees_merge takesText fun other listed isText same => ?_
    have different : run.first ≠ other.first := fun equal => by
      rw [equal, isText] at noText
      cases noText
    have := Node.tally_add_le_of_mem number (mem_of_runs member) (mem_of_runs listed) different
    have own := Node.tally_self_pos other.first
    have := distinct number
    rw [← same] at own
    omega

theorem merges (takesText : Bool) {children : List Node}
    (distinct : ∀ number, Node.tally number children ≤ 1)
    (finished : ∀ child ∈ children, Finished progress around child) :
    Merges around takesText children progress (merge around takesText children progress) := by
  have tally (number : NodeId) := tally_runs number (runs children)
  rw [flatMap_runs] at tally
  have writes := @writes_foldl around (takesText && (runs children).length = 1) progress
    (runs children)
  refine ⟨?_, ?_, writes.next, writes.scope, writes.frames, writes.setting,
    writes.onceNodes, ?_, ?_, ?_⟩
  · intro number
    have := tally number
    simp only [merge, Progress.drop, writes.dropped, Node.tally_append]
    omega
  · intro number
    simp only [merge, Progress.drop, writes.dropped, Node.tally_append]
    omega
  · intro number absent
    refine agrees_merge takesText fun run member _ same => ?_
    have := Node.tally_pos_of_mem (mem_of_runs member)
    rw [same] at absent
    omega
  · intro number absent quiet
    change Node.tally number ((runs children).map (·.first)) = 0 at absent
    refine Progress.Silent.agrees ?_ (agrees_merge takesText fun run member _ same => ?_)
    · by_cases outside : Node.tally number children = 0
      · exact quiet outside
      · have := tally number
        exact silent_of_joined finished (by omega)
    · have first : run.first ∈ (runs children).map (·.first) := List.mem_map_of_mem member
      have := Node.tally_pos_of_mem first
      rw [← same] at this
      omega
  · intro child member
    obtain ⟨run, inside, rfl⟩ := List.mem_map.1 member
    have length : (merge around takesText children progress).1.length =
        (runs children).length := by simp [merge]
    rw [length]
    exact settled_merge takesText distinct finished inside

end TemplateCompiler.TextRun
