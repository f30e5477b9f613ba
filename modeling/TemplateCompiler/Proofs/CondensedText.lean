import Mathlib.Data.List.Basic
import TemplateCompiler.Text.Phrase

/-! Condensing the white space of a text does not change what else is in it. White space is condensed
before character references are decoded; no reference has a blank in it, so none is made, broken or
joined with what follows. -/

namespace TemplateCompiler.Text

/-- The characters of a text that are not blank. -/
def solid (text : List Char) : List Char :=
  text.filter fun c => !isBlank c

variable {c : Char} {text rest : List Char}

theorem solid_append (front back : List Char) : solid (front ++ back) = solid front ++ solid back :=
  List.filter_append ..

theorem solid_cons_of_blank (blank : isBlank c = true) : solid (c :: rest) = solid rest := by
  simp [solid, blank]

theorem squeeze_of_solid (visible : isBlank c = false) : squeeze (c :: rest) = c :: squeeze rest := by
  simp [squeeze, visible]

theorem squeeze_of_blank (blank : isBlank c = true) :
    ∃ later, squeeze (c :: rest) = ' ' :: later := by
  induction rest generalizing c with
  | nil => exact ⟨[], by simp [squeeze, blank]⟩
  | cons next rest ih =>
    cases again : isBlank next with
    | true =>
      obtain ⟨later, same⟩ := ih again
      exact ⟨later, by rw [squeeze, if_pos blank, if_pos again, same]⟩
    | false => exact ⟨squeeze (next :: rest), by simp [squeeze, blank, again]⟩

theorem solid_squeeze (text : List Char) : solid (squeeze text) = solid text := by
  have space (later : List Char) : solid (' ' :: later) = solid later := solid_cons_of_blank rfl
  fun_induction squeeze text with
  | case1 => rfl
  | case2 c blank => rw [space, solid_cons_of_blank blank]
  | case3 c blank next rest again ih => rw [ih, solid_cons_of_blank blank]
  | case4 c blank next rest visible ih => rw [space, ih, solid_cons_of_blank blank]
  | case5 c rest visible ih => simpa [solid, visible] using ih

theorem squeeze_append {front : List Char} (visible : ∀ c ∈ front, isBlank c = false)
    (back : List Char) : squeeze (front ++ back) = front ++ squeeze back := by
  induction front with
  | nil => rfl
  | cons c front ih =>
    obtain ⟨first, others⟩ := List.forall_mem_cons.mp visible
    rw [List.cons_append, squeeze_of_solid first, ih others, List.cons_append]

theorem ne_of_isBlank {other : Char} (blank : isBlank c = true) (visible : isBlank other = false) :
    other ≠ c := by
  intro same
  rw [same, blank] at visible
  cases visible

/-- A character that is not blank is in front of both texts or of none. -/
theorem head?_squeeze (visible : isBlank c = false) (text : List Char) :
    (squeeze text).head? = some c ↔ text.head? = some c := by
  cases text with
  | nil => exact Iff.rfl
  | cons first rest =>
    cases blank : isBlank first with
    | true =>
      obtain ⟨later, same⟩ := @squeeze_of_blank first rest blank
      have space : c ≠ ' ' := ne_of_isBlank rfl visible
      have other : c ≠ first := ne_of_isBlank blank visible
      simp [same, space.symm, other.symm]
    | false => simp [squeeze_of_solid blank]

/-- Characters among which are no blanks are in front of both texts or of none. -/
theorem isPrefixOf_squeeze {front : List Char} (visible : ∀ c ∈ front, isBlank c = false)
    (text : List Char) : front.isPrefixOf (squeeze text) = front.isPrefixOf text := by
  induction front generalizing text with
  | nil => simp
  | cons c front ih =>
    obtain ⟨own, others⟩ := List.forall_mem_cons.mp visible
    cases text with
    | nil => rfl
    | cons first rest =>
      cases blank : isBlank first with
      | true =>
        obtain ⟨later, same⟩ := @squeeze_of_blank first rest blank
        have space : c ≠ ' ' := ne_of_isBlank rfl own
        have other : c ≠ first := ne_of_isBlank blank own
        simp [same, List.isPrefixOf, beq_false_of_ne space, beq_false_of_ne other]
      | false => simp [squeeze_of_solid blank, List.isPrefixOf, ih others]

theorem takeWhile_squeeze {p : Char → Bool} (visible : ∀ c, p c = true → isBlank c = false)
    (text : List Char) : (squeeze text).takeWhile p = text.takeWhile p ∧
      (squeeze text).dropWhile p = squeeze (text.dropWhile p) := by
  have stops {c : Char} (blank : isBlank c = true) : p c = false := by
    cases holds : p c with
    | true => rw [visible c holds] at blank; cases blank
    | false => rfl
  induction text with
  | nil => exact ⟨rfl, rfl⟩
  | cons c rest ih =>
    cases blank : isBlank c with
    | true =>
      obtain ⟨later, same⟩ := @squeeze_of_blank c rest blank
      have space : p ' ' = false := stops rfl
      simp [same, stops blank, space]
    | false =>
      rw [squeeze_of_solid blank]
      cases holds : p c with
      | true => simp [holds, ih]
      | false => simp [holds, squeeze_of_solid blank]

theorem isBlank_of_isDigitOf {base : Nat} (digit : isDigitOf base c = true) : isBlank c = false := by
  by_contra other
  rw [Bool.not_eq_false] at other
  simp only [isBlank, Bool.or_eq_true, decide_eq_true_eq] at other
  rcases other with (((rfl | rfl) | rfl) | rfl) | rfl <;> simp [isDigitOf, digitValue?] at digit

/-- The semicolon that closes a number stays where it is. -/
theorem afterSemicolon_squeeze (tail : List Char) :
    (match squeeze tail with
      | ';' :: rest => rest
      | other => other) =
      squeeze (match tail with
        | ';' :: rest => rest
        | other => other) := by
  cases tail with
  | nil => rfl
  | cons c rest =>
    cases blank : isBlank c with
    | true =>
      obtain ⟨later, same⟩ := @squeeze_of_blank c rest blank
      have other : c ≠ ';' := (ne_of_isBlank blank rfl).symm
      simp [same, other]
    | false =>
      rw [squeeze_of_solid blank]
      by_cases closes : c = ';'
      · simp [closes]
      · simp [closes, squeeze_of_solid blank]

theorem numericReference_squeeze (base : Nat) (opening text : List Char) :
    numericReference base opening (squeeze text) =
      ((numericReference base opening text).1, squeeze (numericReference base opening text).2) := by
  obtain ⟨digits, tail⟩ := takeWhile_squeeze (fun c => @isBlank_of_isDigitOf c base) text
  simp only [numericReference, digits, tail]
  split
  · rfl
  · exact congrArg (Prod.mk _) (afterSemicolon_squeeze _)

theorem solid_referenceNames : ∀ entry ∈ referenceNames, ∀ c ∈ entry.1.toList, isBlank c = false := by
  have checked : (referenceNames.all fun entry => entry.1.toList.all fun c => !isBlank c) = true := by
    decide +kernel
  intro entry member c inside
  have named := List.all_eq_true.mp checked entry member
  simpa using List.all_eq_true.mp named c inside

theorem longestName?_squeeze (text : List Char) : longestName? (squeeze text) = longestName? text := by
  unfold longestName?
  refine List.foldl_ext _ _ _ fun best entry member => ?_
  simp only [isPrefixOf_squeeze (solid_referenceNames entry member)]

theorem isAmbiguous_squeeze (name tail : List Char) :
    isAmbiguous name (squeeze tail) = isAmbiguous name tail := by
  cases tail with
  | nil => rfl
  | cons c rest =>
    cases blank : isBlank c with
    | true =>
      obtain ⟨later, same⟩ := @squeeze_of_blank c rest blank
      have space : (' ' = '=' || Char.isAlphanum ' ') = false := by decide
      have other : (c = '=' || c.isAlphanum) = false := by
        simp only [isBlank, Bool.or_eq_true, decide_eq_true_eq] at blank
        rcases blank with (((rfl | rfl) | rfl) | rfl) | rfl <;> decide
      simp only [isAmbiguous, same, space, other]
    | false => rw [squeeze_of_solid blank]; rfl

theorem namedReference_squeeze (inAttribute : Bool) (text : List Char) :
    namedReference inAttribute (squeeze text) =
      ((namedReference inAttribute text).1, squeeze (namedReference inAttribute text).2) := by
  simp only [namedReference, longestName?_squeeze]
  split
  · rfl
  · next name value longest =>
    obtain ⟨⟨entry, member, rfl⟩, starts⟩ := mem_of_longestName? longest
    obtain ⟨tail, rfl⟩ := List.isPrefixOf_iff_prefix.mp starts
    rw [squeeze_append (solid_referenceNames entry member), List.drop_left, List.drop_left,
      isAmbiguous_squeeze]
    split <;> rfl

theorem reference_of_number (inAttribute : Bool) {digits : List Char}
    (lower : digits.head? ≠ some 'x') (upper : digits.head? ≠ some 'X') :
    reference inAttribute ('#' :: digits) = numericReference 10 ['&', '#'] digits := by
  unfold reference
  split
  · next same => cases same; exact absurd rfl lower
  · next same => cases same; exact absurd rfl upper
  · next same => cases same; rfl
  · next other => exact absurd rfl (other digits)

theorem reference_of_name (inAttribute : Bool) (name : text.head? ≠ some '#') :
    reference inAttribute text = namedReference inAttribute text := by
  unfold reference
  split
  · exact absurd rfl name
  · exact absurd rfl name
  · exact absurd rfl name
  · rfl

/-- A reference is read from the squeezed text as from the text itself, and what is left of the one
is what is left of the other, squeezed. -/
theorem reference_squeeze (inAttribute : Bool) (text : List Char) :
    reference inAttribute (squeeze text) =
      ((reference inAttribute text).1, squeeze (reference inAttribute text).2) := by
  have mark : isBlank '#' = false := rfl
  have lower : isBlank 'x' = false := rfl
  have upper : isBlank 'X' = false := rfl
  by_cases number : text.head? = some '#'
  · obtain ⟨digits, rfl⟩ := List.head?_eq_some_iff.mp number
    rw [squeeze_of_solid mark]
    by_cases low : digits.head? = some 'x'
    · obtain ⟨digits, rfl⟩ := List.head?_eq_some_iff.mp low
      rw [squeeze_of_solid lower]
      exact numericReference_squeeze 16 _ digits
    · by_cases up : digits.head? = some 'X'
      · obtain ⟨digits, rfl⟩ := List.head?_eq_some_iff.mp up
        rw [squeeze_of_solid upper]
        exact numericReference_squeeze 16 _ digits
      · rw [reference_of_number inAttribute low up, ← numericReference_squeeze]
        rw [← head?_squeeze lower] at low
        rw [← head?_squeeze upper] at up
        exact reference_of_number inAttribute low up
  · rw [reference_of_name inAttribute number, ← namedReference_squeeze]
    rw [← head?_squeeze mark] at number
    exact reference_of_name inAttribute number

theorem decodeReferences_ampersand (inAttribute : Bool) (rest : List Char) :
    decodeReferences inAttribute ('&' :: rest) = (reference inAttribute rest).1 ++
      decodeReferences inAttribute (reference inAttribute rest).2 := by
  rw [decodeReferences, if_pos rfl]

theorem decodeReferences_other (inAttribute : Bool) (other : c ≠ '&') (rest : List Char) :
    decodeReferences inAttribute (c :: rest) = c :: decodeReferences inAttribute rest := by
  rw [decodeReferences, if_neg other]

theorem decodeReferences_of_blank (inAttribute : Bool) (blank : text.all isBlank = true) :
    decodeReferences inAttribute text = text := by
  induction text with
  | nil => rw [decodeReferences]
  | cons c rest ih =>
    rw [List.all_cons, Bool.and_eq_true] at blank
    have other : c ≠ '&' := (ne_of_isBlank blank.1 rfl).symm
    rw [decodeReferences_other inAttribute other, ih blank.2]

/-- White space condensed or not, what is decoded is the same but for blanks. -/
theorem solid_decodeReferences_squeeze (inAttribute : Bool) (text : List Char) :
    solid (decodeReferences inAttribute (squeeze text)) =
      solid (decodeReferences inAttribute text) := by
  fun_induction decodeReferences inAttribute text with
  | case1 => rw [squeeze, decodeReferences]
  | case2 rest ih =>
    rw [squeeze_of_solid rfl, decodeReferences_ampersand, reference_squeeze, solid_append, ih,
      solid_append]
  | case3 c rest other ih =>
    have spaced (later : List Char) : solid (decodeReferences inAttribute (' ' :: later)) =
        solid (decodeReferences inAttribute later) := by
      rw [decodeReferences_other inAttribute (by decide), solid_cons_of_blank rfl]
    cases blank : isBlank c with
    | true =>
      rw [solid_cons_of_blank blank, ← ih]
      cases rest with
      | nil => simp [squeeze, blank, spaced]
      | cons next rest =>
        rw [squeeze, if_pos blank]
        split
        · rfl
        · rw [spaced]
    | false =>
      rw [squeeze_of_solid blank, decodeReferences_other inAttribute other]
      simpa [solid, blank] using ih

end TemplateCompiler.Text

namespace TemplateCompiler.Phrase

/-- The characters of the text, with all edits done, that are not blank. -/
def solid (phrase : Phrase) : List Char :=
  Text.solid phrase.text.toList

/-- The text is to be condensed and decoded at most. -/
def Plain (phrase : Phrase) : Prop :=
  phrase.edits =
    { squeeze := phrase.edits.squeeze
      decode := phrase.edits.decode
      inAttribute := phrase.edits.inAttribute }

variable {phrase : Phrase}

theorem Plain.text_eq (plain : phrase.Plain) :
    phrase.text.toList =
      Edits.applyIf phrase.edits.decode (Text.decodeReferences phrase.edits.inAttribute)
        (Edits.applyIf phrase.edits.squeeze Text.squeeze phrase.raw.toList) := by
  rw [text, plain, String.toList_ofList]
  rfl

/-- Whether a text is still to be condensed makes no difference to what is not blank in it. -/
theorem Plain.solid_eq (plain : phrase.Plain) :
    phrase.solid = Text.solid (Edits.applyIf phrase.edits.decode
      (Text.decodeReferences phrase.edits.inAttribute) phrase.raw.toList) := by
  rw [solid, plain.text_eq]
  cases phrase.edits.squeeze with
  | false => rfl
  | true =>
    cases phrase.edits.decode with
    | false => exact Text.solid_squeeze _
    | true => exact Text.solid_decodeReferences_squeeze _ _

theorem Plain.squeezed (plain : phrase.Plain) : phrase.squeezed.Plain := by
  unfold Plain Phrase.squeezed
  rw [plain]

theorem Plain.solid_squeezed (plain : phrase.Plain) : phrase.squeezed.solid = phrase.solid := by
  rw [plain.squeezed.solid_eq, plain.solid_eq]
  rfl

theorem Plain.solid_of_isBlank (plain : phrase.Plain) (blank : phrase.isBlank = true) :
    phrase.solid = [] := by
  have bare : Text.solid phrase.raw.toList = [] := by
    rw [Text.solid, List.filter_eq_nil_iff]
    intro c member
    simp [List.all_eq_true.mp blank c member]
  rw [plain.solid_eq]
  cases phrase.edits.decode with
  | false => exact bare
  | true => rw [Edits.applyIf, if_pos rfl, Text.decodeReferences_of_blank _ blank, bare]

end TemplateCompiler.Phrase
