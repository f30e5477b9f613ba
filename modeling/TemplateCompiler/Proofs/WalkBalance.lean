import TemplateCompiler.Proofs.StoredBlocks
import TemplateCompiler.Token.Lexer

/-! Lowering comes to its end with what a walk puts in place taken off again: at the end no frame and
no alias is left. On the way every node and every slice is found where it is looked for. -/

namespace TemplateCompiler

theorem Leaves.registered {passes : List Pass} {exit : Nat × Pass} {left : Node} {state : Progress}
    {ancestors : List NodeId} {hasSiblings : Bool} {before todo : List Node} {progress : Progress}
    (leaves : Leaves passes exit left state ancestors hasSiblings before todo progress) :
    passes[exit.1]? = some exit.2 := by
  induction leaves with
  | gone _ _ _ ih | inside _ _ _ ih | later _ _ _ _ ih => exact ih
  | here enters _ _ leaves =>
    obtain ⟨place, same, registered⟩ := enterAll_registered enters exit leaves.mem
    rwa [same, Nat.zero_add]

def LeavesSafely (ordinal : Nat) (node : Node) (progress : Progress) : Prop :=
  ordinal = 2 → TopFrame node progress

theorem defaultVisitors_simulate {reader : ScriptReader} (places : reader.Places) :
    Simulate reader LeavesSafely 0 defaultVisitors defaultPasses :=
  .cons (Once.visitor_simulates _ 0) Once.sound
    (.cons (Conditional.visitor_simulates _ 1) (Conditional.sound places)
      (.cons (Loops.visitor_simulates fun _ _ safe => safe rfl) (Loops.sound places)
        (.cons (Memo.visitor_simulates _ 3) (Memo.sound places)
          (.cons (Elements.visitor_simulates _ 4) (Elements.sound places)
            (.cons (TextRun.visitor_simulates _ 5) (TextRun.sound places) .nil)))))

theorem Template.Numbered.owns_stored {template : Template} (numbered : template.Numbered)
    (option : LowerOption) : (option.stored template).Owns {} (template.roots.map (·.id))
      template.roots (option.start template) := by
  have counted (number : NodeId) : Node.tally number (template.roots ++ template.dropped) =
      (List.range template.size).count number := by
    rw [Node.tally_append, numbered.tally]
  refine ⟨rfl, rfl, rfl, fun some => absurd rfl some, ?_, (numbered.ready option).distinct, ?_, ?_, rfl,
    ?_⟩
  · intro node inside
    have found := Template.nodes_getElem? counted inside
    simp [LowerOption.stored, found]
  · rintro parent ⟨⟩
  · rintro id cell ⟨⟩
  · have length := congrArg List.length (Template.nodes_ids counted)
    simpa [LowerOption.stored, LowerOption.start] using length

/-- The walk on the stored nodes ends without a fault, with the nodes of the tree that the walk over
the tree ends with. -/
theorem Template.Numbered.runs_walkStored {template : Template} (numbered : template.Numbered)
    {option : LowerOption} (places : option.reader.Places) {done : List Node × Progress}
    (walked : walk defaultPasses template.roots (option.start template) = .ok done) :
    ∃ after, Runs (walkStored defaultVisitors) (option.stored template) () after ∧
      after.Owns {} (done.1.map (·.id)) done.1 done.2 := by
  refine walkStored_simulates (defaultVisitors_simulate places) (numbered.owns_stored option)
    ⟨rfl, rfl⟩ ?_ walked
  rintro ⟨ordinal, pass⟩ left state leaves rfl
  cases leaves.registered
  exact leaves.topFrame (numbered.ready option) (.inl rfl)

theorem Elements.exitRoot_scope (roots : List Node) (progress : Progress) :
    (Elements.exitRoot roots progress).scope = progress.scope ∧
      (Elements.exitRoot roots progress).frames = progress.frames := by
  simp only [Elements.exitRoot]
  split <;> exact ⟨rfl, rfl⟩

theorem exitRootAll_subset (roots : List Node) (progress : Progress) :
    (exitRootAll roots progress defaultPasses).1 ⊆ roots :=
  TextRun.merge_subset (progress.surroundings {}) true roots progress

theorem exitRootAll_scope (roots : List Node) (progress : Progress) :
    (exitRootAll roots progress defaultPasses).2.scope = progress.scope ∧
      (exitRootAll roots progress defaultPasses).2.frames = progress.frames := by
  have writes := @TextRun.writes_foldl (progress.surroundings {})
    (true && (TextRun.runs roots).length = 1) progress (TextRun.runs roots)
  obtain ⟨scope, frames⟩ := Elements.exitRoot_scope (TextRun.exitRoot roots progress).1
    (TextRun.exitRoot roots progress).2
  exact ⟨scope.trans writes.scope, frames.trans writes.frames⟩

/-- Lowering succeeds, and what the loops put in place on the way is taken off again. -/
structure LowersBalanced (option : LowerOption) (template : Template) : Prop where
  lowers : ∃ lowered, lower option template = .ok lowered
  /-- The walk ends without aliases and without frames, and every loop that it ends with was
  left. -/
  balanced : ∃ roots done, walk defaultPasses template.roots
      (option.start template) = .ok (roots, done) ∧
    done.scope = {} ∧ done.frames = [] ∧
    ∀ loop ∈ Node.flattenAll roots, loop.isLoop = true → ∃ left state, left.id = loop.id ∧
      Leaves defaultPasses (2, Loops.pass) left state [] true [] template.roots
        (option.start template)
  /-- Whenever the pass for loops leaves a node, the frame that it takes off is that of the node. -/
  pops : ∀ left state, Leaves defaultPasses (2, Loops.pass) left state [] true [] template.roots
      (option.start template) →
    left.isLoop = true ∧ ∃ frame others, state.frames = frame :: others ∧
      frame.loop = left.id ∧ (Loops.exit 2 left state).frames = others
  /-- On stored nodes, where every access can fail, the walk runs to its end. The nodes that it leaves
  are stored, and so is all that can be reached from the roots later on. -/
  stored : ∃ after roots done,
    Runs (walkStored defaultVisitors) (option.stored template) () after ∧
    walk defaultPasses template.roots (option.start template) = .ok (roots, done) ∧
    after.roots = roots.map (·.id) ∧ after.Holds roots ∧ after.cells.size = done.next ∧
    after.ancestors = [] ∧ after.progress = done.bare

theorem Template.Numbered.lowersBalanced {template : Template} (numbered : template.Numbered)
    (apart : ∀ node ∈ Node.flattenAll template.roots,
      (node.isConditioned && node.isAlternative) = false) {option : LowerOption}
    (places : option.reader.Places) : LowersBalanced option template := by
  have ready := numbered.ready option
  obtain ⟨⟨roots, done⟩, walked⟩ := walk_total numbered apart
    (option.start template)
  refine ⟨?_, ⟨roots, done, walked, ?_⟩, ?_, ?_⟩
  · have sound : done.fault? = none := fault?_walk places ⟨rfl, rfl⟩ walked
    simp only [lower, lowerWith, walked, Except.bind, sound]
    exact ⟨_, rfl⟩
  · obtain ⟨visited, visiting, left⟩ := ok_of_map_eq_ok walked
    obtain ⟨out, -, visits, -⟩ := visitAll_visits ready (.inl rfl) visiting
    obtain ⟨scope, frames⟩ := exitRootAll_scope visited.nodes visited.progress
    have fewer := exitRootAll_subset visited.nodes visited.progress
    rw [left] at scope frames fewer
    refine ⟨scope.trans visits.scope, frames.trans visits.frames, ?_⟩
    intro loop member isLoop
    obtain ⟨root, listed, inside⟩ := Node.exists_of_mem_flattenAll member
    have found := Node.flatten_subset_flattenAll (fewer listed) loop inside
    rcases exists_leaves ready (.inl rfl) visiting loop found isLoop with none | leaves
    · cases none
    · exact leaves
  · intro left state leaves
    obtain ⟨loop, frame, others, top, own, same⟩ := leaves.topFrame ready (.inl rfl)
    exact ⟨loop, frame, others, top, same, Loops.frames_exit top own⟩
  · obtain ⟨after, runs, owns⟩ := numbered.runs_walkStored places walked
    exact ⟨after, roots, done, runs, walked, Option.some.inj owns.listed, owns.holds, owns.size_eq,
      owns.ancestors_eq, owns.progress_eq⟩

/-- Whatever a template that can be read contains, it is lowered in balance, as long as no element
has a condition and is an alternative. -/
theorem scan_lowersBalanced (reading : ScanOption) (parsing : ParseOption) (lowering : LowerOption)
    (places : lowering.reader.Places) (source : String) (found : List Problem)
    (ended : (scan reading source).ending = .ok found) :
    ∃ template problems, parse parsing (scan reading source) = .ok (template, problems) ∧
      ((∀ node ∈ Node.flattenAll template.roots,
        (node.isConditioned && node.isAlternative) = false) → LowersBalanced lowering template) := by
  have parsed : ∃ result, parse parsing (scan reading source) = .ok result :=
    ⟨_, by rw [parse, ended]; rfl⟩
  obtain ⟨⟨template, problems⟩, parsed⟩ := parsed
  refine ⟨template, problems, parsed, ?_⟩
  intro apart
  exact (numbered_of_parse parsed).lowersBalanced apart places

/-- A loop in a branch, a conditional in it, and a loop on the alternative of the branch. -/
def nestedLoopsSource : String :=
  "<ul v-if=\"a\"><li v-for=\"i in a\"><b v-if=\"i\" v-for=\"j in i\">x</b></li></ul>" ++
    "<p v-else v-for=\"k in b\">y</p>"

theorem scan_lowersBalanced_nested :
    (scan {} nestedLoopsSource).ending = .ok [] ∧
      ∃ template problems, parse {} (scan {} nestedLoopsSource) = .ok (template, problems) ∧
        LowersBalanced {} template := by
  have ended : (scan {} nestedLoopsSource).ending = .ok [] := by decide +kernel
  have apart : ((parse {} (scan {} nestedLoopsSource)).toOption.all fun parsed =>
      (Node.flattenAll parsed.1.roots).all fun node =>
        !(node.isConditioned && node.isAlternative)) = true := by decide +kernel
  obtain ⟨template, problems, parsed, balanced⟩ :=
    scan_lowersBalanced {} {} {} ScriptReader.places_standard nestedLoopsSource _ ended
  refine ⟨ended, template, problems, parsed, balanced ?_⟩
  rw [parsed] at apart
  intro node member
  have own := List.all_eq_true.mp apart node member
  rwa [Bool.not_eq_true'] at own

end TemplateCompiler
