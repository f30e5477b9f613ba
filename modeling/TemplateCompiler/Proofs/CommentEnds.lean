import TemplateCompiler.Proofs.ScanTotality

/-! Where a comment ends. One that is closed by `--!>` ends there, whatever comes behind it. One that
is closed by `-->` ends there just if there is no `--!>` in all that comes behind it. -/

namespace TemplateCompiler

namespace Text

variable {pattern front back text : List Char}

/-- No occurrence of the pattern begins in `front` and ends in `back`. -/
def Apart (pattern front back : List Char) : Prop :=
  ∀ count, 0 < count → count < pattern.length → pattern.take count <:+ front →
    ¬ pattern.drop count <+: back

theorem not_prefix_append_of_apart (absent : ¬ pattern <+: front) (some : front ≠ [])
    (apart : Apart pattern front back) : ¬ pattern <+: front ++ back := by
  intro occurs
  by_cases short : pattern.length ≤ front.length
  · exact absent (List.prefix_of_prefix_length_le occurs (List.prefix_append front back) short)
  · obtain ⟨extra, rfl⟩ := List.prefix_of_prefix_length_le (List.prefix_append front back) occurs
      (Nat.le_of_not_le short)
    refine apart front.length (List.length_pos_iff.2 some) (Nat.lt_of_not_le short) ?_ ?_
    · exact List.take_left ▸ List.suffix_refl front
    · rw [List.drop_left]
      exact (List.prefix_append_right_inj front).1 occurs

/-- A pattern that is neither in `front` nor across the seam is found where it is in `back`. -/
theorem find?_append_of_apart (absent : find? pattern front = none)
    (apart : Apart pattern front back) :
    find? pattern (front ++ back) = (find? pattern back).map (· + front.length) := by
  induction front with
  | nil => simp
  | cons c front ih =>
    simp only [find?] at absent
    split at absent
    · cases absent
    · next elsewhere =>
      have later := ih (Option.map_eq_none_iff.1 absent) fun count some inside ends =>
        apart count some inside (ends.trans (List.suffix_cons c front))
      have here : ¬ pattern <+: (c :: front) ++ back := by
        refine not_prefix_append_of_apart ?_ (List.cons_ne_nil c front) apart
        rwa [← List.isPrefixOf_iff_prefix]
      rw [← List.isPrefixOf_iff_prefix] at here
      rw [List.cons_append] at here ⊢
      rw [find?, if_neg here, later, Option.map_map]
      congr 1

theorem find?_eq_none_iff (some : pattern ≠ []) :
    find? pattern text = none ↔ ¬ pattern <:+: text := by
  induction text with
  | nil => simp [find?, some]
  | cons c rest ih =>
    rw [List.infix_cons_iff, ← List.isPrefixOf_iff_prefix, find?]
    split
    · next here => simp [here]
    · next elsewhere => simp [elsewhere, ih]

end Text

open Text

def commentEnd (isProper : Bool) : List Char :=
  if isProper then "-->".toList else "--!>".toList

theorem commentEnd_ne_nil (isProper : Bool) : commentEnd isProper ≠ [] := by
  revert isProper
  decide

def commentMarkup (text : List Char) (isProper : Bool) : List Char :=
  "<!--".toList ++ text ++ commentEnd isProper

/-- Neither the text nor what it makes together with the `<!--` in front of it ends a comment. -/
structure Enclosed (text : List Char) : Prop where
  ends : ∀ isProper, ¬ commentEnd isProper <:+: text
  starts : ∀ start ∈ [">", "->", "!>", "-!>"], ¬ start.toList <+: text

theorem Enclosed.find?_opened {text : List Char} (enclosed : Enclosed text) (isProper : Bool) :
    find? (commentEnd isProper) ("<!--".toList ++ text) = none := by
  have absent : find? (commentEnd isProper) "<!--".toList = none := by
    revert isProper
    decide
  have seams : ∀ count < (commentEnd isProper).length, 0 < count →
      (commentEnd isProper).take count <:+ "<!--".toList →
      String.ofList ((commentEnd isProper).drop count) ∈ [">", "->", "!>", "-!>"] := by
    revert isProper
    decide
  rw [find?_append_of_apart absent,
    (find?_eq_none_iff (commentEnd_ne_nil isProper)).2 (enclosed.ends isProper)]
  · rfl
  · intro count some inside ends begins
    refine enclosed.starts _ (seams count inside some ends) ?_
    rwa [String.toList_ofList]

/-- No terminator ends in the middle of a terminator. -/
theorem apart_commentEnd (isProper other : Bool) (front rest : List Char) :
    Apart (commentEnd isProper) front (commentEnd other ++ rest) := by
  have seams : ∀ count < (commentEnd isProper).length, 0 < count →
      ((commentEnd isProper).drop count).length ≤ (commentEnd other).length ∧
        ¬ (commentEnd isProper).drop count <+: commentEnd other := by
    revert isProper other
    decide
  intro count some inside _ begins
  obtain ⟨short, different⟩ := seams count inside some
  exact different (List.prefix_of_prefix_length_le begins (List.prefix_append _ rest) short)

variable {text : List Char}

/-- Behind an enclosed text each terminator is found where it would be found without the text. -/
theorem Enclosed.find?_markup (enclosed : Enclosed text) (isProper other : Bool)
    (rest : List Char) :
    find? (commentEnd isProper) (commentMarkup text other ++ rest) =
      (find? (commentEnd isProper) (commentEnd other ++ rest)).map (· + (text.length + 4)) := by
  have parts : commentMarkup text other ++ rest =
      "<!--".toList ++ text ++ (commentEnd other ++ rest) := List.append_assoc ..
  exact (congrArg (find? _) parts).trans (find?_append_of_apart (enclosed.find?_opened isProper)
    (apart_commentEnd isProper other _ rest))

theorem Enclosed.find?_own (enclosed : Enclosed text) (isProper : Bool) (rest : List Char) :
    find? (commentEnd isProper) (commentMarkup text isProper ++ rest) = some (text.length + 4) := by
  rw [enclosed.find?_markup, find?_prefix, Option.map_some, Nat.zero_add]

/-- Behind a proper ending a wrong one is looked for in all that follows. -/
theorem Enclosed.find?_wrong (enclosed : Enclosed text) (rest : List Char) :
    find? (commentEnd false) (commentMarkup text true ++ rest) =
      (find? (commentEnd false) rest).map (· + (text.length + 7)) := by
  have absent : find? (commentEnd false) (commentEnd true) = none := by decide
  have apart : Apart (commentEnd false) (commentEnd true) rest := by
    have seams : ∀ count < (commentEnd false).length, 0 < count →
        ¬ (commentEnd false).take count <:+ commentEnd true := by decide
    exact fun count some inside ends _ => seams count inside some ends
  rw [enclosed.find?_markup, find?_append_of_apart absent apart, Option.map_map]
  congr 1
  funext index
  have three : (commentEnd true).length = 3 := by decide
  simp only [Function.comp_apply]
  omega

namespace Lexer

/-- What is reported inside of a comment depends on its text and its place only, as long as
something comes behind it. -/
theorem nestedComments_congr (length : Nat) (cursor other : Cursor)
    (text : other.rest.take length = cursor.rest.take length)
    (place : other.position = cursor.position) (more : length < cursor.rest.length)
    (others : length < other.rest.length) :
    (nestedComments length other).1 = (nestedComments length cursor).1 := by
  fun_induction nestedComments length cursor generalizing other with
  | case1 length cursor absent =>
    rw [nestedComments]
    split
    · rfl
    · next index found =>
      rw [text, absent] at found
      cases found
  | case2 length cursor index found after problems rest ih =>
    have inside := find?_length_le found
    have four : "<!--".toList.length = 4 := by decide
    rw [List.length_take] at inside
    rw [nestedComments]
    split
    · next absent =>
      rw [text, found] at absent
      cases absent
    · next index' found' =>
      rw [text, found] at found'
      cases found'
      have front : other.rest.take (index + 4) = cursor.rest.take (index + 4) := by
        have shorter := congrArg (List.take (index + 4)) text
        rwa [List.take_take, List.take_take, Nat.min_eq_left (by omega)] at shorter
      have back : (other.advance (index + 4)).rest.take (length - (index + 4)) =
          after.rest.take (length - (index + 4)) := by
        have shorter := congrArg (List.drop (index + 4)) text
        rwa [List.drop_take, List.drop_take] at shorter
      have behind : (other.advance (index + 4)).position = after.position := by
        simp only [after, Cursor.advance, front, place]
      have length_after : after.rest.length = cursor.rest.length - (index + 4) :=
        Cursor.length_advance ..
      have length_other : (other.advance (index + 4)).rest.length = other.rest.length - (index + 4) :=
        Cursor.length_advance ..
      have open_after : after.atEnd = false :=
        List.isEmpty_eq_false_iff.2 (List.ne_nil_of_length_pos (by omega))
      have open_other : (other.advance (index + 4)).atEnd = false :=
        List.isEmpty_eq_false_iff.2 (List.ne_nil_of_length_pos (by omega))
      have later := ih _ back behind (by omega) (by omega)
      simp only [later, problems, rest, open_after, open_other, problem, Cursor.spanFrom, behind,
        place]
      rfl

theorem kind_nestedComments (length : Nat) (cursor : Cursor) :
    ∀ found ∈ (nestedComments length cursor).1, found.kind = .nestedComment := by
  fun_induction nestedComments length cursor with
  | case1 => exact List.forall_mem_nil _
  | case2 length cursor index _ after problems rest ih =>
    intro found member
    rcases List.mem_append.1 member with own | later
    · simp only [problems] at own
      split at own
      · cases own
      · cases List.mem_singleton.1 own
        rfl
    · exact ih found later

/-- The further openings that are met in the text of a comment at `position`. -/
def nestedProblems (position : Position) (text : List Char) : List Problem :=
  (nestedComments text.length ⟨text ++ "-->".toList, position.advance "<!--".toList⟩).1

theorem nestedProblems_eq_nil (position : Position) (plain : ¬ "<!--".toList <:+: text) :
    nestedProblems position text = [] := by
  have absent : find? "<!--".toList ((text ++ "-->".toList).take text.length) = none := by
    rw [List.take_left]
    exact (find?_eq_none_iff (by decide)).2 plain
  rw [nestedProblems, nestedComments]
  split
  · rfl
  · next found =>
    rw [absent] at found
    cases found

/-- The problems of a comment: further openings in its text, and a wrong ending. -/
def commentProblems (position : Position) (text : List Char) (isProper : Bool) : List Problem :=
  nestedProblems position text ++
    if isProper then []
    else [{ kind := .incorrectlyClosedComment
            span := ⟨position, (position.advance "<!--".toList).advance text⟩ }]

theorem advance_front (front back : List Char) (position : Position) :
    (⟨front ++ back, position⟩ : Cursor).advance front.length = ⟨back, position.advance front⟩ := by
  simp [Cursor.advance]

theorem closeComment_commentEnd (start position : Position) (isProper : Bool) (rest : List Char) :
    closeComment start ⟨commentEnd isProper ++ rest, position⟩ =
      (if isProper then [] else [{ kind := .incorrectlyClosedComment, span := ⟨start, position⟩ }],
        ⟨rest, position.advance (commentEnd isProper)⟩) := by
  cases isProper with
  | true => rfl
  | false => rfl

/-- A comment ends where the search for its terminators has stopped. -/
theorem comment_of_stop {rest : List Char} {isProper : Bool} (position : Position)
    (stop : (find? (commentEnd false) (commentMarkup text isProper ++ rest)).or
      (find? (commentEnd true) (commentMarkup text isProper ++ rest)) = some (text.length + 4)) :
    comment ⟨commentMarkup text isProper ++ rest, position⟩ =
      .single ⟨.comment (String.ofList text),
          ⟨position, position.advance (commentMarkup text isProper)⟩⟩
        (commentProblems position text isProper)
        ⟨rest, position.advance (commentMarkup text isProper)⟩ := by
  have opened : (⟨commentMarkup text isProper ++ rest, position⟩ : Cursor).advance 4 =
      ⟨text ++ (commentEnd isProper ++ rest), position.advance "<!--".toList⟩ := by
    simp only [commentMarkup, List.append_assoc]
    exact advance_front "<!--".toList _ position
  have inside := List.length_pos_iff.2 (commentEnd_ne_nil isProper)
  have nested : (nestedComments text.length
      ⟨text ++ (commentEnd isProper ++ rest), position.advance "<!--".toList⟩).1 =
      nestedProblems position text := by
    apply nestedComments_congr
    · simp only [List.take_left]
    · rfl
    · simp
    · simp only [List.length_append]
      omega
  have read : commentText ⟨commentMarkup text isProper ++ rest, position⟩ =
      { text := String.ofList text
        problems := nestedProblems position text
        cursor := ⟨commentEnd isProper ++ rest, (position.advance "<!--".toList).advance text⟩ } := by
    have own : (⟨text ++ (commentEnd isProper ++ rest), position.advance "<!--".toList⟩ :
        Cursor).peek text.length = String.ofList text := peek_of_rest rfl
    have long : ¬ text.length + 4 ≤ 3 := by omega
    unfold commentText
    simp only [commentEnd, Bool.false_eq_true, if_false, if_true] at stop
    simp only [stop, opened, long, if_false, Nat.add_sub_cancel, nestedComments_cursor, nested,
      advance_front, own]
  simp only [comment, read, closeComment_commentEnd, Cursor.spanFrom, commentProblems]
  simp only [commentMarkup, Position.advance_append]

theorem plainLength_tag (delimiters : Delimiters) (rest : List Char) :
    plainLength delimiters ('<' :: rest) = 0 := by
  have first : find? ['<'] ('<' :: rest) = some 0 := find?_prefix ['<'] rest
  rw [plainLength, first]
  cases find? delimiters.opening.toList ('<' :: rest) with
  | none => rfl
  | some index => simp

/-- At `position` a comment with the given text and ending is read in front of `rest`: it comes with
the given problems, and `rest` is read from the place behind it. -/
def ReadsComment (option : ScanOption) (position : Position) (text : List Char) (isProper : Bool)
    (problems : List Problem) (rest : List Char) : Prop :=
  let after := position.advance (commentMarkup text isProper)
  let later := scanFrom option [] ⟨rest, after⟩ .data
  ∀ pending, scanFrom option pending ⟨commentMarkup text isProper ++ rest, position⟩ .data =
    ⟨⟨pending ++ problems, ⟨.comment (String.ofList text), ⟨position, after⟩⟩⟩ :: later.pulls,
      later.ending⟩

variable {option : ScanOption} {rest : List Char} {isProper : Bool}

theorem readsComment_of_stop (position : Position)
    (foreign : ¬ option.delimiters.opening.toList <+: commentMarkup text isProper ++ rest)
    (stop : (find? (commentEnd false) (commentMarkup text isProper ++ rest)).or
      (find? (commentEnd true) (commentMarkup text isProper ++ rest)) = some (text.length + 4)) :
    ReadsComment option position text isProper (commentProblems position text isProper) rest := by
  have starts : commentMarkup text isProper ++ rest =
      '<' :: '!' :: '-' :: '-' :: (text ++ commentEnd isProper ++ rest) := rfl
  have unopened : startsWith option.delimiters.opening
      ⟨commentMarkup text isProper ++ rest, position⟩ = false := by
    rw [startsWith, Bool.eq_false_iff, ne_eq, List.isPrefixOf_iff_prefix]
    exact foreign
  have piece : dataPiece option.delimiters ⟨commentMarkup text isProper ++ rest, position⟩ =
      comment ⟨commentMarkup text isProper ++ rest, position⟩ := by
    rw [dataPiece, unopened]
    simp only [starts, plainLength_tag]
    rfl
  have stepped : step option ⟨commentMarkup text isProper ++ rest, position⟩ .data =
      .ok (comment ⟨commentMarkup text isProper ++ rest, position⟩, .data) := by
    simp only [step, piece, comment, Piece.single]
  intro pending
  rw [scanFrom_stepped (by simp [starts]) stepped, comment_of_stop position stop]
  rfl

theorem readsComment_wrong (enclosed : Enclosed text) (position : Position)
    (foreign : ¬ option.delimiters.opening.toList <+: commentMarkup text false ++ rest) :
    ReadsComment option position text false (commentProblems position text false) rest := by
  apply readsComment_of_stop position foreign
  rw [enclosed.find?_own, Option.some_or]

theorem readsComment_proper (enclosed : Enclosed text) (position : Position)
    (foreign : ¬ option.delimiters.opening.toList <+: commentMarkup text true ++ rest)
    (absent : find? (commentEnd false) rest = none) :
    ReadsComment option position text true (commentProblems position text true) rest := by
  apply readsComment_of_stop position foreign
  rw [enclosed.find?_wrong, absent, enclosed.find?_own]
  rfl

/-- The text that runs over a proper ending up to a wrong one. -/
theorem commentMarkup_longer {index : Nat} (found : find? (commentEnd false) rest = some index) :
    commentMarkup text true ++ rest =
      commentMarkup (text ++ commentEnd true ++ rest.take index) false ++ rest.drop (index + 4) := by
  obtain ⟨behind, stands⟩ := prefix_drop_of_find? found
  have cut : rest.drop (index + 4) = behind := by
    rw [← List.drop_drop, ← stands]
    rfl
  calc commentMarkup text true ++ rest
    _ = commentMarkup text true ++ (rest.take index ++ rest.drop index) := by
      rw [List.take_append_drop]
    _ = commentMarkup (text ++ commentEnd true ++ rest.take index) false ++
        rest.drop (index + 4) := by
      rw [cut, ← stands]
      simp only [commentMarkup, List.append_assoc]

/-- A wrong ending anywhere in what follows hides the proper one. -/
theorem not_readsComment_proper (enclosed : Enclosed text) (position : Position)
    (foreign : ¬ option.delimiters.opening.toList <+: commentMarkup text true ++ rest) {index : Nat}
    (found : find? (commentEnd false) rest = some index) (problems : List Problem) :
    ¬ ReadsComment option position text true problems rest := by
  have same : commentMarkup text true ++ rest =
      commentMarkup (text ++ commentEnd true ++ rest.take index) false ++
        rest.drop (index + 4) := commentMarkup_longer found
  have length : (text ++ commentEnd true ++ rest.take index).length + 4 =
      index + (text.length + 7) := by
    have inside := find?_length_le found
    have three : (commentEnd true).length = 3 := by decide
    simp only [List.length_append, List.length_take, three]
    omega
  have longer : ReadsComment option position (text ++ commentEnd true ++ rest.take index) false
      (commentProblems position (text ++ commentEnd true ++ rest.take index) false)
      (rest.drop (index + 4)) := by
    apply readsComment_of_stop position (same ▸ foreign)
    rw [← same, enclosed.find?_wrong, found, length]
    rfl
  intro proper
  have both := (proper []).symm
  rw [same, longer []] at both
  simp only [Scan.mk.injEq, List.cons.injEq, Pull.mk.injEq, Token.mk.injEq,
    TokenKind.comment.injEq, String.ofList_inj] at both
  have equal := congrArg List.length both.1.1.2.1
  omega

/-- An enclosed text in front of any `rest`. A wrong ending is where the comment ends, and it is
reported once. The proper one is, just if no wrong one comes behind it. -/
theorem readsComment_enclosed (option : ScanOption) (position : Position) (text rest : List Char)
    (enclosed : Enclosed text)
    (foreign : ∀ isProper,
      ¬ option.delimiters.opening.toList <+: commentMarkup text isProper ++ rest) :
    ∃ nested : List Problem, (∀ found ∈ nested, found.kind = .nestedComment) ∧
      (nested ≠ [] → "<!--".toList <:+: text) ∧
      ReadsComment option position text false
        (nested ++ [{ kind := .incorrectlyClosedComment
                      span := ⟨position, position.advance ("<!--".toList ++ text)⟩ }]) rest ∧
      (ReadsComment option position text true nested rest ↔ ¬ "--!>".toList <:+: rest) := by
  have wrong := readsComment_wrong enclosed position (foreign false)
  simp only [commentProblems, Bool.false_eq_true, if_false, ← Position.advance_append] at wrong
  refine ⟨nestedProblems position text, kind_nestedComments _ _, ?_, wrong, ?_⟩
  · intro nested
    by_contra plain
    exact nested (nestedProblems_eq_nil position plain)
  · rw [← find?_eq_none_iff (by decide)]
    change _ ↔ find? (commentEnd false) rest = none
    cases found : find? (commentEnd false) rest with
    | none =>
      have proper := readsComment_proper enclosed position (foreign true) found
      simp only [commentProblems, if_true, List.append_nil] at proper
      exact iff_of_true proper rfl
    | some index =>
      exact iff_of_false (not_readsComment_proper enclosed position (foreign true) found _)
        (Option.some_ne_none index)

theorem readsComment_enclosed_opening :
    ∃ nested, ReadsComment {} {} "a<!--b".toList true nested "c-->".toList := by
  obtain ⟨nested, -, -, -, proper⟩ := readsComment_enclosed {} {} "a<!--b".toList "c-->".toList
    ⟨by decide +kernel, by decide +kernel⟩ (by decide +kernel)
  exact ⟨nested, proper.2 (by decide +kernel)⟩

/-- What follows decides where the comment `a` ends. -/
theorem comment_over_its_end :
    (scan {} "<!--a-->b").tokens.map (·.kind) =
        [.comment "a", .text { raw := "b", edits := { decode := true } }] ∧
      (scan {} "<!--a-->b--!>c").tokens.map (·.kind) =
        [.comment "a-->b", .text { raw := "c", edits := { decode := true } }] := by
  decide +kernel

end Lexer

end TemplateCompiler
