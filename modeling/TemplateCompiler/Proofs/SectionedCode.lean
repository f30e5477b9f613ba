import Mathlib.Data.List.TakeWhile
import TemplateCompiler.Proofs.SpelledCode

/-! Sections of generated code hold what their pieces are spelled as, and the places of their marks.
A section that is put behind another holds the same text there, as long as it is written at the
level that the other one leads to. -/

namespace TemplateCompiler

theorem HelperSet.foldl_insert (set : HelperSet) (added : List Helper) :
    added.foldl insert set = set.union (.ofList added) := by
  have along (start : HelperSet) :
      added.foldl insert (set.union start) = set.union (added.foldl insert start) := by
    induction added generalizing start with
    | nil => rfl
    | cons helper rest ih =>
      rw [List.foldl_cons, List.foldl_cons, ← ih]
      simp [insert, union, BitVec.or_assoc]
  have none : set.union .empty = set := by simp [union, empty]
  rw [← congrArg (added.foldl insert) none, along]
  rfl

theorem Pieces.helpers_append (first second : Pieces) :
    helpers (first ++ second) = (helpers first).union (helpers second) := by
  rw [helpers, List.filterMap_append, HelperSet.ofList, List.foldl_append, HelperSet.foldl_insert]
  rfl

theorem Pieces.helpers_concat (pieces : Pieces) (piece : Piece) :
    helpers (pieces ++ [piece]) =
      match piece with
      | .helper helper => (helpers pieces).insert helper
      | _ => helpers pieces := by
  cases piece <;> simp [helpers, HelperSet.ofList]

theorem Pieces.marks_concat (pieces : Pieces) {piece : Piece}
    (other : ∀ span, piece ≠ .mark span) (level : Nat) :
    ((marks (pieces ++ [piece])).map fun marked =>
        Mapping.behind (marked.front.spell level) marked.span) =
      (marks pieces).map fun marked => Mapping.behind (marked.front.spell level) marked.span := by
  have none : marks [piece] = [] := marks_eq_nil (by simpa using fun span => (other span).symm)
  simp [marks_append, none]

/-- The place behind a text, from where the text before it ends. -/
theorem Mapping.behind_append (before text : List Char) (source : Span) :
    behind (before ++ text) source = (behind text source).moved (before.count '\n')
      (before.reverse.takeWhile (· ≠ '\n')).length := by
  have whole : (text.reverse.takeWhile (· ≠ '\n')).length = text.reverse.length ↔
      text.count '\n' = 0 := by
    rw [List.count_eq_zero, ← List.forall_mem_ne']
    constructor
    · intro same
      have kept := (List.takeWhile_prefix _).eq_of_length same
      simpa using List.takeWhile_eq_self_iff.1 kept
    · intro none
      rw [List.takeWhile_eq_self_iff.2 (by simpa using none)]
  simp only [behind, moved, List.count_append, List.reverse_append, List.takeWhile_append, whole]
  by_cases feeds : text.count '\n' = 0
  · have same := whole.2 feeds
    simp only [feeds, same, if_true, List.length_append, mk.injEq, and_true]
    omega
  · have later : 1 + text.count '\n' ≠ 1 := by omega
    simp only [feeds, later, if_false, mk.injEq, and_true]
    omega

namespace Section

variable {part former latter : Section} {asked : Bool} {level : Nat} {pieces : Pieces}

/-- The section holds what the pieces are spelled as from a level on, and knows the place behind it;
the places of the marks are recorded if that is asked for. -/
structure Holds (part : Section) (asked : Bool) (level : Nat) (pieces : Pieces) : Prop where
  code : part.code.toList = pieces.spell level
  line : part.line = (pieces.spell level).count '\n'
  column : part.column = ((pieces.spell level).reverse.takeWhile (· ≠ '\n')).length
  helpers : part.helpers = pieces.helpers
  mappings : part.mappings = if asked then
    pieces.marks.map fun marked => .behind (marked.front.spell level) marked.span else []

theorem holds_nil (asked : Bool) (level : Nat) : Holds {} asked level [] := by
  refine ⟨rfl, rfl, rfl, rfl, ?_⟩
  cases asked <;> rfl

/-- Lines and columns are counted character by character. -/
theorem place_append (before text : List Char) :
    text.foldl
      (fun (place : Nat × Nat) c => if c = '\n' then (place.1 + 1, 0) else (place.1, place.2 + 1))
      (before.count '\n', (before.reverse.takeWhile (· ≠ '\n')).length) =
    ((before ++ text).count '\n', ((before ++ text).reverse.takeWhile (· ≠ '\n')).length) := by
  induction text generalizing before with
  | nil => simp
  | cons c rest ih =>
    have onward := ih (before ++ [c])
    rw [List.append_assoc, List.singleton_append] at onward
    rw [← onward, List.foldl_cons]
    split
    · next feed => simp [feed]
    · next other => simp [other]

/-- Anything but a mark is written as it is spelled. -/
theorem Holds.write (holds : part.Holds asked level pieces) (piece : Piece)
    (other : ∀ span, piece ≠ .mark span) :
    ({ part with helpers := Pieces.helpers (pieces ++ [piece]) }.write
      (String.ofList (piece.spell (pieces.levelAfter level)))).Holds asked level
        (pieces ++ [piece]) := by
  have code : (pieces ++ [piece]).spell level =
      pieces.spell level ++ piece.spell (pieces.levelAfter level) := by
    rw [Pieces.spell_append, Pieces.spell, Pieces.spell, List.append_nil]
  have place := place_append (pieces.spell level) (piece.spell (pieces.levelAfter level))
  rw [← holds.line, ← holds.column] at place
  refine ⟨?_, ?_, ?_, rfl, ?_⟩
  · rw [Section.write, String.toList_append, String.toList_ofList, holds.code, code]
  · rw [code, Section.write, String.toList_ofList]
    exact congrArg Prod.fst place
  · rw [code, Section.write, String.toList_ofList]
    exact congrArg Prod.snd place
  · rw [Pieces.marks_concat pieces other, ← holds.mappings]
    rfl

/-- A mark is recorded at the place behind all that is spelled before it. -/
theorem Holds.mark (holds : part.Holds true level pieces) (source : Span) :
    (part.mark source).Holds true level (pieces ++ [Piece.mark source]) := by
  have same : (pieces ++ [Piece.mark source]).spell level = pieces.spell level := by
    simp [Pieces.spell_append, Pieces.spell, Piece.spell]
  refine ⟨?_, ?_, ?_, ?_, ?_⟩
  · rw [same, ← holds.code]
    rfl
  · rw [same, ← holds.line]
    rfl
  · rw [same, ← holds.column]
    rfl
  · simp [Pieces.helpers, Section.mark, holds.helpers]
  · simp [Section.mark, holds.mappings, holds.line, holds.column, Pieces.marks_append, Pieces.marks,
      Mapping.behind, Nat.add_comm, Function.comp_def]

theorem Holds.unmarked (holds : part.Holds false level pieces) (source : Span) :
    part.Holds false level (pieces ++ [Piece.mark source]) := by
  have same : (pieces ++ [Piece.mark source]).spell level = pieces.spell level := by
    simp [Pieces.spell_append, Pieces.spell, Piece.spell]
  refine ⟨?_, ?_, ?_, ?_, holds.mappings⟩
  · rw [same, holds.code]
  · rw [same, holds.line]
  · rw [same, holds.column]
  · rw [Pieces.helpers_concat, holds.helpers]

/-- What a section holds comes behind what another one holds that leads to its level. -/
theorem Holds.append {first second : Pieces} (before : former.Holds asked level first)
    (after : latter.Holds asked (first.levelAfter level) second) :
    (former.append latter).Holds asked level (first ++ second) := by
  have code := Pieces.spell_append level first second
  have place := place_append (first.spell level) latter.code.toList
  rw [← before.line, ← before.column, after.code, ← code] at place
  have unmoved (mapping : Mapping) : mapping.moved 0 0 = mapping := by
    simp [Mapping.moved]
  refine ⟨?_, ?_, ?_, ?_, ?_⟩
  · rw [Section.append, Section.write, String.toList_append, before.code, after.code, code]
  · rw [Section.append, Section.write, after.code]
    exact congrArg Prod.fst place
  · rw [Section.append, Section.write, after.code]
    exact congrArg Prod.snd place
  · rw [Pieces.helpers_append, ← before.helpers, ← after.helpers]
    rfl
  · cases asked with
    | false => simp [Section.append, Section.write, before.mappings, after.mappings]
    | true =>
      simp [Section.append, Section.write, before.mappings, after.mappings, before.line,
        before.column, Pieces.marks_append, Pieces.spell_append, Mapping.behind_append,
        Function.comp_def]

end Section

namespace Writer

variable {writer : Writer} {level : Nat} {pieces : Pieces}

structure Wrote (writer : Writer) (level : Nat) (pieces : Pieces) : Prop where
  out : writer.out.Holds writer.sourceMap level pieces
  level : writer.level = pieces.levelAfter level

/-- What a step writes and where it leads to, if it is not a mark. -/
theorem Wrote.add_eq (wrote : writer.Wrote level pieces) (piece : Piece)
    (other : ∀ span, piece ≠ .mark span) :
    writer.add piece =
      { writer with
        out := { writer.out with helpers := Pieces.helpers (pieces ++ [piece]) }.write
          (String.ofList (piece.spell writer.level))
        level := piece.levelAfter writer.level } := by
  have helpers := wrote.out.helpers
  have line (level : Nat) : String.ofList (lineBreak level) =
      "\n" ++ String.ofList (List.replicate (2 * level) ' ') := by
    rw [← String.toList_inj]
    simp [lineBreak]
  cases piece with
  | text text => 
    simp [Writer.add, Writer.write, Piece.spell, Piece.levelAfter, Pieces.helpers_concat, ← helpers]
  | helper helper =>
    simp [Writer.add, Writer.write, Writer.collect, Piece.spell, Piece.levelAfter,
      Pieces.helpers_concat, ← helpers]
  | newline =>
    simp [Writer.add, Writer.breakLine, Writer.write, Piece.spell, Piece.levelAfter, line,
      Pieces.helpers_concat, ← helpers]
  | indent =>
    simp [Writer.add, Writer.breakLine, Writer.write, Piece.spell, Piece.levelAfter, line,
      Pieces.helpers_concat, ← helpers]
  | dedent =>
    simp [Writer.add, Writer.breakLine, Writer.write, Piece.spell, Piece.levelAfter, line,
      Pieces.helpers_concat, ← helpers]
  | outdent =>
    simp [Writer.add, Section.write, Piece.spell, Piece.levelAfter, Pieces.helpers_concat, ← helpers]
  | mark span => exact absurd rfl (other span)

theorem Wrote.add (wrote : writer.Wrote level pieces) (piece : Piece) :
    (writer.add piece).Wrote level (pieces ++ [piece]) := by
  have leads : (pieces ++ [piece]).levelAfter level = piece.levelAfter writer.level := by
    rw [Pieces.levelAfter_append, ← wrote.level]
    rfl
  by_cases marks : ∃ span, piece = .mark span
  · obtain ⟨span, rfl⟩ := marks
    refine ⟨?_, ?_⟩
    · rw [Writer.add]
      split
      · next asked =>
        have recorded := wrote.out
        rw [asked] at recorded ⊢
        exact recorded.mark span
      · next silent =>
        have unrecorded := wrote.out
        rw [Bool.not_eq_true] at silent
        rw [silent] at unrecorded ⊢
        exact unrecorded.unmarked span
    · rw [leads, Writer.add]
      split
      · rfl
      · rfl
  · have other : ∀ span, piece ≠ .mark span := fun span same => marks ⟨span, same⟩
    rw [wrote.add_eq piece other]
    refine ⟨?_, leads.symm⟩
    rw [wrote.level]
    exact wrote.out.write piece other

theorem Wrote.addAll (wrote : writer.Wrote level pieces) (more : Pieces) :
    (writer.addAll more).Wrote level (pieces ++ more) := by
  induction more generalizing writer pieces with
  | nil =>
    rw [List.append_nil]
    exact wrote
  | cons piece rest ih =>
    have later := ih (wrote.add piece)
    rwa [List.append_assoc] at later

theorem Wrote.append (wrote : writer.Wrote level pieces) {depth : Nat} (here : writer.level = depth)
    {part : Section} {more : Pieces} (holds : part.Holds writer.sourceMap depth more)
    (returns : more.levelAfter depth = depth) : (writer.append part).Wrote level (pieces ++ more) := by
  subst here
  refine ⟨wrote.out.append (wrote.level ▸ holds), ?_⟩
  rw [Pieces.levelAfter_append, ← wrote.level, returns]
  rfl

theorem wrote_empty (writer : Writer) : Wrote { writer with out := {} } writer.level [] :=
  ⟨Section.holds_nil writer.sourceMap writer.level, rfl⟩

@[simp]
theorem sourceMap_add (writer : Writer) (piece : Piece) :
    (writer.add piece).sourceMap = writer.sourceMap := by
  cases piece with
  | mark span =>
    rw [add]
    split
    · rfl
    · rfl
  | _ => rfl

@[simp]
theorem brackets_add (writer : Writer) (piece : Piece) :
    (writer.add piece).brackets = writer.brackets := by
  cases piece with
  | mark span =>
    rw [add]
    split
    · rfl
    · rfl
  | _ => rfl

@[simp]
theorem sourceMap_addAll (writer : Writer) (pieces : Pieces) :
    (writer.addAll pieces).sourceMap = writer.sourceMap := by
  induction pieces generalizing writer with
  | nil => rfl
  | cons piece rest ih => exact (ih _).trans (writer.sourceMap_add piece)

@[simp]
theorem brackets_addAll (writer : Writer) (pieces : Pieces) :
    (writer.addAll pieces).brackets = writer.brackets := by
  induction pieces generalizing writer with
  | nil => rfl
  | cons piece rest ih => exact (ih _).trans (writer.brackets_add piece)

@[simp]
theorem sourceMap_append (writer : Writer) (part : Section) :
    (writer.append part).sourceMap = writer.sourceMap :=
  rfl

@[simp]
theorem brackets_append (writer : Writer) (part : Section) :
    (writer.append part).brackets = writer.brackets :=
  rfl

@[simp]
theorem sourceMap_openBracket (writer : Writer) (head : Pieces) :
    (writer.openBracket head).sourceMap = writer.sourceMap :=
  sourceMap_addAll _ head

@[simp]
theorem brackets_openBracket (writer : Writer) (head : Pieces) :
    (writer.openBracket head).brackets = writer.brackets + 1 :=
  brackets_addAll _ head

theorem Wrote.openBracket (wrote : writer.Wrote level pieces) (head : Pieces) :
    (writer.openBracket head).Wrote level (pieces ++ head) := by
  have counted : Wrote { writer with brackets := writer.brackets + 1 } level pieces :=
    ⟨wrote.out, wrote.level⟩
  exact counted.addAll head

@[simp]
theorem sourceMap_close (writer : Writer) : writer.close.sourceMap = writer.sourceMap := by
  simp [close]

@[simp]
theorem brackets_close (writer : Writer) : writer.close.brackets = writer.brackets := by
  simp [close]

theorem Wrote.close (wrote : writer.Wrote level pieces) :
    writer.close.Wrote level
      (pieces ++ ((List.replicate writer.brackets [.dedent, .text "\x7d"]).flatten ++
        [.text "\n"])) := by
  have closed := (wrote.addAll (List.replicate writer.brackets [.dedent, .text "\x7d"]).flatten).add
    (.text "\n")
  rwa [List.append_assoc] at closed

/-- What is written aside begins at the level of the writer, which goes on as before if it also leads
back to it. -/
theorem exists_aside (writer : Writer) {pieces : Pieces}
    (returns : pieces.levelAfter writer.level = writer.level) :
    ∃ part : Section, part.Holds writer.sourceMap writer.level pieces ∧
      writer.aside pieces = (part, writer) := by
  have written := (wrote_empty writer).addAll pieces
  have level := written.level
  rw [List.nil_append, returns] at level
  refine ⟨(writer.aside pieces).1, ?_, ?_⟩
  · have holds := written.out
    rwa [sourceMap_addAll] at holds
  · simp [aside, level]

theorem wrote_ofPieces (pieces : Pieces) : (ofPieces pieces).Wrote 0 pieces :=
  (wrote_empty {}).addAll pieces

theorem level_ofPieces (pieces : Pieces) : (ofPieces pieces).level = pieces.levelAfter 0 :=
  (wrote_ofPieces pieces).level

theorem code_ofPieces (pieces : Pieces) :
    (ofPieces pieces).out.code = String.ofList (pieces.spell 0) := by
  rw [← String.toList_inj, String.toList_ofList]
  exact (wrote_ofPieces pieces).out.code

end Writer

end TemplateCompiler
