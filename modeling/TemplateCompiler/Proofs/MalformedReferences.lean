import Mathlib.Data.List.Infix
import TemplateCompiler.Proofs.CondensedText

/-! Ampersands that begin no reference. What is read behind one of them is written back and read
again from there on, so that the text stays as it is, but for one thing: the mark of a hexadecimal
number without digits is written back in lower case, however it was written. -/

namespace TemplateCompiler.Text

/-- A number sign and a decimal digit, or a number sign, an `x` or `X` and a hexadecimal digit. -/
def beginsNumber : List Char → Bool
  | '#' :: mark :: rest =>
    isDigitOf 10 mark || (mark = 'x' || mark = 'X') && rest.head?.any (isDigitOf 16)
  | _ => false

/-- What stands behind an ampersand begins with a name of the table or with a number. -/
def BeginsReference (text : List Char) : Prop :=
  (∃ entry ∈ referenceNames, entry.1.toList <+: text) ∨ beginsNumber text = true

instance (text : List Char) : Decidable (BeginsReference text) :=
  inferInstanceAs (Decidable (_ ∨ _))

/-- None of the ampersands begins a reference. -/
def Malformed (text : List Char) : Prop :=
  ∀ back, '&' :: back <:+ text → ¬ BeginsReference back

def lowerMarks : List Char → List Char
  | '&' :: '#' :: 'X' :: rest => '&' :: '#' :: 'x' :: lowerMarks rest
  | c :: rest => c :: lowerMarks rest
  | [] => []

variable {text rest back : List Char}

theorem Malformed.suffix (malformed : Malformed text) (behind : back <:+ text) : Malformed back := by
  intro later inside
  exact malformed later (inside.trans behind)

theorem lowerMarks_other {c : Char} (other : c ≠ '&') (rest : List Char) :
    lowerMarks (c :: rest) = c :: lowerMarks rest := by
  rw [lowerMarks]
  intro _ same
  exact absurd same other

theorem lowerMarks_ampersand (plain : ¬ ['#', 'X'] <+: rest) :
    lowerMarks ('&' :: rest) = '&' :: lowerMarks rest := by
  rw [lowerMarks]
  rintro later - rfl
  exact plain (List.prefix_append ['#', 'X'] later)

/-- Nothing is changed just if there is no capital mark. -/
theorem lowerMarks_eq_self_iff : lowerMarks text = text ↔ ¬ ['&', '#', 'X'] <:+: text := by
  fun_induction lowerMarks text with
  | case1 rest ih =>
    apply iff_of_false
    · simp
    · exact not_not_intro (List.prefix_append ['&', '#', 'X'] rest).isInfix
  | case2 c rest plain ih =>
    have begins : ¬ ['&', '#', 'X'] <+: c :: rest := by
      rintro ⟨later, same⟩
      cases same
      exact plain later rfl rfl
    rw [List.cons_inj_right, ih, List.infix_cons_iff, not_or]
    exact (and_iff_right begins).symm
  | case3 => simp

/-- Behind an ampersand that begins no reference, what was read is written back, with a capital mark
in lower case. -/
inductive WrittenBack : List Char → List Char × List Char → Prop
  | whole {front back : List Char} (plain : ¬ ['#', 'X'] <+: front ++ back) (solid : '&' ∉ front) :
      WrittenBack (front ++ back) ('&' :: front, back)
  | lowered {back : List Char} : WrittenBack ('#' :: 'X' :: back) (['&', '#', 'x'], back)

theorem longestName?_eq_none (unnamed : ∀ entry ∈ referenceNames, ¬ entry.1.toList <+: text) :
    longestName? text = none := by
  cases longest : longestName? text with
  | none => rfl
  | some found =>
    obtain ⟨⟨entry, member, same⟩, starts⟩ := mem_of_longestName? longest
    exact absurd (same ▸ List.isPrefixOf_iff_prefix.mp starts) (unnamed entry member)

theorem namedReference_unnamed (inAttribute : Bool)
    (unnamed : ∀ entry ∈ referenceNames, ¬ entry.1.toList <+: text) :
    namedReference inAttribute text = (['&'], text) := by
  simp only [namedReference, longestName?_eq_none unnamed]

/-- Without a digit nothing is read of a number but what opens it. -/
theorem numericReference_undigited {base : Nat} (opening : List Char)
    (undigited : text.head?.any (isDigitOf base) = false) :
    numericReference base opening text = (opening, text) := by
  cases text with
  | nil => rfl
  | cons c rest =>
    have other : isDigitOf base c = false := by simpa using undigited
    simp [numericReference, other]

theorem writtenBack_reference (inAttribute : Bool) (unread : ¬ BeginsReference text) :
    WrittenBack text (reference inAttribute text) := by
  obtain ⟨unnamed, unnumbered⟩ := not_or.mp unread
  rw [Bool.not_eq_true] at unnumbered
  by_cases number : text.head? = some '#'
  · obtain ⟨digits, rfl⟩ := List.head?_eq_some_iff.mp number
    cases digits with
    | nil => exact @WrittenBack.whole ['#'] [] (by decide) (by decide)
    | cons mark later =>
      obtain ⟨decimal, hexadecimal⟩ := Bool.or_eq_false_iff.mp unnumbered
      by_cases low : mark = 'x'
      · subst low
        have undigited : later.head?.any (isDigitOf 16) = false := by simpa using hexadecimal
        rw [reference, numericReference_undigited _ undigited]
        exact @WrittenBack.whole ['#', 'x'] later (by simp) (by decide)
      · by_cases up : mark = 'X'
        · subst up
          have undigited : later.head?.any (isDigitOf 16) = false := by simpa using hexadecimal
          rw [reference, numericReference_undigited _ undigited]
          exact .lowered
        · have undigited : (mark :: later).head?.any (isDigitOf 10) = false := by simpa using decimal
          rw [reference_of_number inAttribute (by simpa using low) (by simpa using up),
            numericReference_undigited _ undigited]
          exact @WrittenBack.whole ['#'] (mark :: later) (by simp [Ne.symm up]) (by decide)
  · have unnamed : ∀ entry ∈ referenceNames, ¬ entry.1.toList <+: text := by
      intro entry member starts
      exact unnamed ⟨entry, member, starts⟩
    rw [reference_of_name inAttribute number, namedReference_unnamed inAttribute unnamed]
    apply @WrittenBack.whole [] text
    · rintro ⟨later, rfl⟩
      exact number rfl
    · exact List.not_mem_nil

theorem lowerMarks_append {front : List Char} (solid : '&' ∉ front) (back : List Char) :
    lowerMarks (front ++ back) = front ++ lowerMarks back := by
  induction front with
  | nil => rfl
  | cons c front ih =>
    have other : c ≠ '&' := fun same => solid (same ▸ List.mem_cons_self)
    have later : '&' ∉ front := fun inside => solid (List.mem_cons_of_mem c inside)
    rw [List.cons_append, lowerMarks_other other, ih later, List.cons_append]

theorem decodeReferences_eq_lowerMarks (inAttribute : Bool) (malformed : Malformed text) :
    decodeReferences inAttribute text = lowerMarks text := by
  -- on the calls of the decoder, as each call behind an ampersand goes on with what was left
  fun_induction decodeReferences inAttribute text with
  | case1 => rfl
  | case2 rest ih =>
    have read := writtenBack_reference inAttribute (malformed rest (List.suffix_refl _))
    generalize reference inAttribute rest = result at read ih
    cases read with
    | @whole front back plain solid =>
      have left : Malformed back :=
        malformed.suffix ((List.suffix_append front back).trans (List.suffix_cons _ _))
      rw [ih left, lowerMarks_ampersand plain, lowerMarks_append solid]
      rfl
    | @lowered back =>
      have left : Malformed back := malformed.suffix (List.suffix_append ['&', '#', 'X'] back)
      rw [ih left, lowerMarks]
      rfl
  | case3 c rest other ih =>
    rw [ih (malformed.suffix (List.suffix_cons c rest)), lowerMarks_other other]

/-- A text in which no reference begins is decoded to itself, in attribute values as elsewhere, just
if it has no capital mark of a hexadecimal number; such marks come out in lower case. -/
theorem decodeReferences_malformed (inAttribute : Bool) (text : List Char)
    (malformed : Malformed text) :
    decodeReferences inAttribute text = lowerMarks text ∧
      (decodeReferences inAttribute text = text ↔ ¬ "&#X".toList <:+: text) := by
  have lowered := decodeReferences_eq_lowerMarks inAttribute malformed
  refine ⟨lowered, ?_⟩
  rw [lowered]
  exact lowerMarks_eq_self_iff

theorem malformed_of_tails
    (checked : ∀ tail ∈ text.tails, tail.head? = some '&' → ¬ BeginsReference tail.tail) :
    Malformed text :=
  fun _ inside => checked _ ((List.mem_tails _ _).mpr inside) rfl

/-- Ampersands next to each other, in front of a name that is none, and in front of marks. -/
theorem decodeReferences_malformed_crowded :
    Malformed "a&&b &unknown; &#; &#x; &#&#xg &".toList ∧
      decodeReferences true "a&&b &unknown; &#; &#x; &#&#xg &".toList =
        "a&&b &unknown; &#; &#x; &#&#xg &".toList := by
  have malformed : Malformed "a&&b &unknown; &#; &#x; &#&#xg &".toList :=
    malformed_of_tails (by decide +kernel)
  exact ⟨malformed, (decodeReferences_malformed true _ malformed).2.mpr (by decide +kernel)⟩

/-- A capital mark without digits is not written back as it was. -/
theorem capital_mark_lowered :
    Malformed "&#X;".toList ∧ decodeReferences false "&#X;".toList = "&#x;".toList := by
  have malformed : Malformed "&#X;".toList := malformed_of_tails (by decide +kernel)
  exact ⟨malformed, (decodeReferences_eq_lowerMarks false malformed).trans (by decide +kernel)⟩

end TemplateCompiler.Text
