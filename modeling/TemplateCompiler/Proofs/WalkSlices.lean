import TemplateCompiler.Proofs.StrayProblems

/-! Slices on a walk. A pass that takes a slice of an expression or of an alias takes it where the
reader of scripts found a name, so no slice is out of range as long as the reader places all names
inside of their texts. -/

namespace TemplateCompiler

open Reported

theorem LoopExpression.regular_boundNames (reader : ScriptReader) (pattern : String) :
    (boundNames reader pattern).Regular reader := by
  unfold boundNames
  split
  · exact regular_pure _
  · split
    · exact regular_pure _
    · next parsed accepted =>
      refine ⟨?_, fun places => ?_⟩
      · rw [problems_mapM]
        simp
      · rw [fault?_mapM, List.findSome?_eq_none_iff]
        intro binding member
        obtain ⟨listed, inside⟩ := List.mem_filter.1 member
        have ordered := (places.bindings _ parsed accepted binding listed).1
        simp only [Bool.and_eq_true, decide_eq_true_eq] at inside
        apply fault?_slice
        · omega
        · rw [String.length_toList]
          omega

theorem Loops.regular_boundNames (reader : ScriptReader) (loop : Loop) :
    (boundNames reader loop).Regular reader :=
  (regular_mapM (LoopExpression.regular_boundNames reader) loop.aliases).map _

/-- The reader is the one that the walk began with, and no slice was out of range. -/
structure Progress.Sound (reader : ScriptReader) (progress : Progress) : Prop where
  reader_eq : progress.reader = reader
  fault : progress.fault? = none

namespace Progress.Sound

variable {reader : ScriptReader} {progress : Progress}

theorem absorb {α : Type} {reported : Reported α} (sound : progress.Sound reader)
    (places : reader.Places) (regular : reported.Regular progress.reader) :
    (progress.absorb reported).Sound reader := by
  rw [sound.reader_eq] at regular
  refine ⟨sound.reader_eq, ?_⟩
  rw [Progress.absorb, sound.fault, regular.sound places]
  rfl

theorem report (sound : progress.Sound reader) (problems : List Problem) :
    (progress.report problems).Sound reader :=
  ⟨sound.reader_eq, sound.fault⟩

theorem foldl_keyBranch (sound : progress.Sound reader) (pairs : List (Branch × Node)) :
    (pairs.foldl (fun progress pair => Conditional.keyBranch progress pair.1 pair.2)
      progress).Sound reader := by
  induction pairs generalizing progress with
  | nil => exact sound
  | cons pair rest ih => exact ih ⟨sound.reader_eq, sound.fault⟩

theorem foldl_write (sound : progress.Sound reader) (places : reader.Places)
    {around : Surroundings} (same : around.reader = reader) (fastPath : Bool)
    (runs : List TextRun.Run) :
    (runs.foldl (TextRun.write around fastPath) progress).Sound reader := by
  induction runs generalizing progress with
  | nil => exact sound
  | cons run rest ih =>
    refine ih ?_
    unfold TextRun.write
    split
    · have regular := regular_mapM (TextRun.regular_part around) (run.first :: run.rest)
      rw [same, ← sound.reader_eq] at regular
      have absorbed := sound.absorb places regular
      exact ⟨absorbed.reader_eq, absorbed.fault⟩
    · exact sound

end Progress.Sound

section Passes

variable {reader : ScriptReader} (places : reader.Places)

theorem Once.sound : Once.pass.Preserves (Progress.Sound reader) where
  enter sound enters := by
    cases enters
    unfold Once.enter
    split
    · exact ⟨sound.reader_eq, sound.fault⟩
    · exact sound
  exit _ _ _ _ sound := ⟨sound.reader_eq, sound.fault⟩
  exitRoot _ _ sound := sound

include places

theorem Conditional.sound : Conditional.pass.Preserves (Progress.Sound reader) where
  enter {ordinal node site progress entrance} sound enters := by
    change Conditional.enter node site progress = .ok entrance at enters
    unfold Conditional.enter at enters
    split at enters
    · split at enters
      · cases enters
      · cases enters
        exact ⟨sound.reader_eq, sound.fault⟩
    · split at enters
      · cases enters
        exact sound
      · split at enters
        · cases enters
          exact ⟨sound.reader_eq, sound.fault⟩
        · cases enters
          exact ⟨sound.reader_eq, sound.fault⟩
  exit _ node site progress sound := by
    change (Conditional.exit node site progress).Sound reader
    unfold Conditional.exit
    split
    · next branches _ =>
      have keyed := sound.foldl_keyBranch (branches.zip node.children)
      simp only
      generalize (branches.zip node.children).foldl _ progress = after at keyed ⊢
      have absorbed := keyed.absorb places
        (Conditional.regular_links (after.surroundings site) (branches.zip node.children))
      split
      · exact absorbed
      · exact ⟨absorbed.reader_eq, absorbed.fault⟩
    · exact sound
  exitRoot _ _ sound := sound

theorem Loops.sound_wrap {progress : Progress} (sound : progress.Sound reader) (ordinal : Nat)
    (node : Node) (site : Site) (expression : LoopExpression) (span : Span) :
    (wrap ordinal node site progress expression span).progress.Sound reader := by
  unfold wrap
  extract_lets misplaced source loop bound wrapped
  have sourced := (sound.report misplaced).absorb places
    ((progress.surroundings site).regular_resolve expression.source span)
  have regular := regular_boundNames progress.reader loop
  rw [sound.reader_eq, ← sourced.reader_eq] at regular
  have absorbed := sourced.absorb places regular
  exact ⟨absorbed.reader_eq, by rw [← absorbed.fault, sourced.reader_eq, ← sound.reader_eq]⟩

theorem Loops.sound : Loops.pass.Preserves (Progress.Sound reader) where
  enter {ordinal node site progress entrance} sound enters := by
    cases enters
    simp only [Loops.enter]
    split
    · exact sound
    · split
      · exact ⟨sound.reader_eq, sound.fault⟩
      · exact sound
      · split
        · exact sound_wrap places sound ..
        · exact ⟨sound.reader_eq, sound.fault⟩
  exit ordinal node _ progress sound := by
    change (Loops.exit ordinal node progress).Sound reader
    unfold Loops.exit
    simp only
    split
    · exact sound
    · split
      · exact ⟨sound.reader_eq, sound.fault⟩
      · exact ⟨sound.reader_eq, sound.fault⟩
  exitRoot _ _ sound := sound

theorem Memo.sound_keep {progress : Progress} (sound : progress.Sound reader) (node : Node)
    (site : Site) (value : Value) : (keep node site progress value).Sound reader := by
  have absorbed := sound.absorb places ((progress.surroundings site).regular_resolveValue value)
  exact ⟨absorbed.reader_eq, absorbed.fault⟩

theorem Memo.sound : Memo.pass.Preserves (Progress.Sound reader) where
  enter {ordinal node site progress entrance} sound enters := by
    cases enters
    simp only [Memo.enter]
    split
    · exact sound
    · split
      · exact ⟨sound.reader_eq, sound.fault⟩
      · exact sound
      · split
        · exact sound
        · exact sound_keep places sound ..
  exit _ _ _ _ sound := sound
  exitRoot _ _ sound := sound

theorem Elements.sound : Elements.pass.Preserves (Progress.Sound reader) where
  enter sound enters := by
    cases enters
    unfold Elements.enter
    split
    · exact ⟨sound.reader_eq, sound.fault⟩
    · exact sound
    · exact sound
  exit _ node site progress sound := by
    change (Elements.exit node site progress).Sound reader
    unfold Elements.exit
    split
    · next element _ =>
      have absorbed := (⟨sound.reader_eq, sound.fault⟩ :
        (addAssets element progress).Sound reader).absorb places
          (regular_lowerElement (progress.surroundings site) progress.table element
            (node.children.map (·.id)))
      exact ⟨absorbed.reader_eq, absorbed.fault⟩
    · exact sound
  exitRoot roots progress sound := by
    change (Elements.exitRoot roots progress).Sound reader
    unfold Elements.exitRoot
    split
    · exact ⟨sound.reader_eq, sound.fault⟩
    · exact ⟨sound.reader_eq, sound.fault⟩
    · exact ⟨sound.reader_eq, sound.fault⟩

theorem TextRun.sound_merge {progress : Progress} (sound : progress.Sound reader)
    {around : Surroundings} (same : around.reader = reader) (takesText : Bool)
    (children : List Node) : (merge around takesText children progress).2.Sound reader := by
  have written := sound.foldl_write places same (takesText && (runs children).length = 1)
    (runs children)
  exact ⟨written.reader_eq, written.fault⟩

theorem TextRun.sound : TextRun.pass.Preserves (Progress.Sound reader) where
  enter sound enters := by
    cases enters
    exact sound
  exit _ node site progress sound := by
    change (TextRun.exit node site progress).2.Sound reader
    unfold TextRun.exit
    split
    · exact sound_merge places sound sound.reader_eq ..
    · exact sound
  exitRoot roots _ sound := sound_merge places sound sound.reader_eq true roots

theorem defaultPasses_sound : ∀ pass ∈ defaultPasses, pass.Preserves (Progress.Sound reader) := by
  simp only [defaultPasses, List.forall_mem_cons]
  exact ⟨Once.sound, Conditional.sound places, Loops.sound places, Memo.sound places,
    Elements.sound places, TextRun.sound places, List.forall_mem_nil _⟩

/-- No slice that a walk takes is out of range. -/
theorem fault?_walk {roots : List Node} {progress : Progress} {done : List Node × Progress}
    (sound : progress.Sound reader)
    (walked : walk defaultPasses roots progress = .ok done) : done.2.fault? = none :=
  (walk_preserves (fun _ _ kept => ⟨kept.reader_eq, kept.fault⟩) (defaultPasses_sound places) sound
    walked).fault

end Passes

end TemplateCompiler
