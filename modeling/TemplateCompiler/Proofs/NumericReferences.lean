import Mathlib.Data.Nat.Digits.Defs
import TemplateCompiler.Proofs.CondensedText

/-! References by number. A reference is read as one character, which depends on nothing but the
number that its digits denote, however many there are; and what follows it is read as if it stood
alone. -/

namespace TemplateCompiler.Text

variable {base number value : Nat} {c other : Char} {digits rest : List Char} {values : List Nat}

/-- The digit of this value, if the base has one. Letters are written small or large. -/
def DigitOf (base : Nat) (c : Char) (value : Nat) : Prop :=
  value < base ∧
    ("0123456789abcdef".toList[value]? = some c ∨ "0123456789ABCDEF".toList[value]? = some c)

instance : Decidable (DigitOf base c value) :=
  inferInstanceAs (Decidable (_ ∧ _))

theorem DigitOf.digitValue?_eq (digit : DigitOf base c value) : digitValue? base c = some value := by
  obtain ⟨below, listed⟩ := digit
  have checked : ∀ entry ∈ "0123456789abcdef".toList.zipIdx ++ "0123456789ABCDEF".toList.zipIdx,
      digitValue? 16 entry.1 = some entry.2 := by
    decide
  have sixteen : digitValue? 16 c = some value := by
    apply checked (c, value)
    rw [List.mem_append, List.mem_zipIdx_iff_getElem?, List.mem_zipIdx_iff_getElem?]
    exact listed
  -- the base only decides which values there are
  rw [digitValue?, Option.filter_eq_some_iff] at sixteen ⊢
  exact ⟨sixteen.1, decide_eq_true below⟩

theorem toNat_lt_of_digitValue? (found : digitValue? base c = some value) : c.toNat < 128 := by
  have upTo {last : Char} (small : last.toNat < 128) (within : c ≤ last) : c.toNat < 128 :=
    Nat.lt_of_le_of_lt within small
  rw [digitValue?, Option.filter_eq_some_iff] at found
  obtain ⟨found, -⟩ := found
  split at found
  · next digit =>
    rw [Char.isDigit, Bool.and_eq_true, decide_eq_true_eq, decide_eq_true_eq] at digit
    exact upTo (by decide) digit.2
  split at found
  · next letter =>
    rw [Bool.and_eq_true, decide_eq_true_eq, decide_eq_true_eq] at letter
    exact upTo (by decide) letter.2
  split at found
  · next letter =>
    rw [Bool.and_eq_true, decide_eq_true_eq, decide_eq_true_eq] at letter
    exact upTo (by decide) letter.2
  · cases found

theorem digitOf_of_digitValue? (small : base ≤ 16) (found : digitValue? base c = some value) :
    DigitOf base c value := by
  have checked : ∀ code < 128, ∀ value ∈ digitValue? 16 (Char.ofNat code),
      DigitOf 16 (Char.ofNat code) value := by
    decide +kernel
  have ascii := toNat_lt_of_digitValue? found
  rw [digitValue?, Option.filter_eq_some_iff, decide_eq_true_eq] at found
  have sixteen : digitValue? 16 c = some value := by
    rw [digitValue?, Option.filter_eq_some_iff, decide_eq_true_eq]
    exact ⟨found.1, Nat.lt_of_lt_of_le found.2 small⟩
  rw [← Char.ofNat_toNat c] at sixteen ⊢
  exact ⟨found.2, (checked c.toNat ascii value sixteen).2⟩

theorem isDigitOf_iff (small : base ≤ 16) : isDigitOf base c = true ↔ ∃ value, DigitOf base c value := by
  rw [isDigitOf, Option.isSome_iff_exists]
  constructor
  · rintro ⟨value, found⟩
    exact ⟨value, digitOf_of_digitValue? small found⟩
  · rintro ⟨value, digit⟩
    exact ⟨value, digit.digitValue?_eq⟩

theorem isDigitOf_of_spelled (small : base ≤ 16)
    (spelled : List.Forall₂ (DigitOf base) digits values) : ∀ c ∈ digits, isDigitOf base c = true := by
  induction spelled with
  | nil => exact List.forall_mem_nil _
  | cons digit _ ih => exact List.forall_mem_cons.2 ⟨(isDigitOf_iff small).2 ⟨_, digit⟩, ih⟩

def appendDigit (base number : Nat) (c : Char) : Nat :=
  number * base + (digitValue? base c).getD 0

theorem numberOf_eq_foldl (base : Nat) (digits : List Char) :
    numberOf base digits = digits.foldl (appendDigit base) 0 :=
  rfl

/-- The number is the sum of the values of the digits, each times the power of the base that belongs
to its place from the right. -/
theorem numberOf_eq_ofDigits (spelled : List.Forall₂ (DigitOf base) digits values) :
    numberOf base digits = Nat.ofDigits base values.reverse := by
  have onward (before : Nat) :
      digits.foldl (appendDigit base) before = Nat.ofDigits base (before :: values).reverse := by
    induction spelled generalizing before with
    | nil => simp
    | @cons c value digits values digit _ ih =>
      rw [List.foldl_cons, ih, appendDigit, digit.digitValue?_eq, Option.getD_some]
      simp only [Nat.ofDigits_reverse_cons, List.length_cons]
      ring
  rw [numberOf_eq_foldl, onward 0, Nat.ofDigits_reverse_zero_cons]

/-- Digit by digit in a word of 32 bits, as long as there is room in it. -/
def countInWord? (base : Nat) (digits : List Char) : Option Nat :=
  digits.foldlM (fun number c => (some (appendDigit base number c)).filter (· < UInt32.size)) 0

theorem le_foldl_appendDigit (positive : 0 < base) (digits : List Char) (before : Nat) :
    before ≤ digits.foldl (appendDigit base) before := by
  induction digits generalizing before with
  | nil => exact Nat.le_refl before
  | cons c rest ih =>
    have once : before ≤ appendDigit base before c :=
      (Nat.le_mul_of_pos_right before positive).trans (Nat.le_add_right _ _)
    exact once.trans (ih _)

/-- A number that fits is counted, as no number before its last digit is greater. -/
theorem countInWord?_eq (positive : 0 < base) (digits : List Char) :
    countInWord? base digits = (some (numberOf base digits)).filter (· < UInt32.size) := by
  have onward (before : Nat) (room : before < UInt32.size) :
      digits.foldlM (fun number c =>
          (some (appendDigit base number c)).filter (· < UInt32.size)) before =
        (some (digits.foldl (appendDigit base) before)).filter (· < UInt32.size) := by
    induction digits generalizing before with
    | nil => rw [List.foldl_nil, Option.filter_some, if_pos (decide_eq_true room)]; rfl
    | cons c rest ih =>
      rw [List.foldlM_cons, List.foldl_cons]
      by_cases fits : appendDigit base before c < UInt32.size
      · rw [Option.filter_some, if_pos (decide_eq_true fits)]
        exact ih _ fits
      · have full : ¬ rest.foldl (appendDigit base) (appendDigit base before c) < UInt32.size := by
          intro room
          exact fits (Nat.lt_of_le_of_lt (le_foldl_appendDigit positive rest _) room)
        rw [Option.filter_some, if_neg (by simpa using fits), Option.filter_some,
          if_neg (by simpa using full)]
        rfl
  exact onward 0 (by decide)

inductive StandsFor (number : Nat) (c : Char) : Prop
  /-- Zero, surrogates and numbers beyond Unicode. -/
  | replaced (unfit : number = 0 ∨ (0xd800 ≤ number ∧ number ≤ 0xdfff) ∨ 0x10ffff < number)
      (same : c = '\ufffd')
  /-- Control codes, taken for characters of Windows-1252. -/
  | remapped (low : 0x80 ≤ number) (high : number ≤ 0x9f)
      (listed : windowsCodes[number - 0x80]? = some c.toNat)
  | scalar (fit : number.isValidChar) (positive : number ≠ 0)
      (printed : ¬ (0x80 ≤ number ∧ number ≤ 0x9f)) (same : c.toNat = number)

theorem toNat_ofNat {code : Nat} (valid : code.isValidChar) : (Char.ofNat code).toNat = code := by
  rw [Char.ofNat, dif_pos valid]
  rfl

theorem standsFor_characterOf (number : Nat) : StandsFor number (characterOf number) := by
  have valid : ∀ code ∈ windowsCodes, code.isValidChar := by decide
  unfold characterOf
  split
  · next unfit => exact .replaced unfit rfl
  · next fit =>
    split
    · next control =>
      have inside : number - 0x80 < windowsCodes.length := by
        have : windowsCodes.length = 32 := rfl
        omega
      have listed : windowsCodes.getD (number - 0x80) number = windowsCodes[number - 0x80] := by
        rw [List.getD_eq_getElem?_getD, List.getElem?_eq_getElem inside, Option.getD_some]
      apply StandsFor.remapped control.1 control.2
      rw [listed, toNat_ofNat (valid _ (List.getElem_mem inside)), List.getElem?_eq_getElem inside]
    · next printed =>
      have scalar : number.isValidChar := by
        simp only [Nat.isValidChar]
        omega
      apply StandsFor.scalar scalar _ printed (toNat_ofNat scalar)
      omega

theorem StandsFor.unique (one : StandsFor number c) (another : StandsFor number other) : c = other := by
  have apart (fit : number.isValidChar) :
      ¬ ((0xd800 ≤ number ∧ number ≤ 0xdfff) ∨ 0x10ffff < number) := by
    simp only [Nat.isValidChar] at fit
    omega
  cases one with
  | replaced unfit same =>
    cases another with
    | replaced _ again => rw [same, again]
    | remapped low high => omega
    | scalar fit positive =>
      have := apart fit
      omega
  | remapped low high listed =>
    cases another with
    | replaced => omega
    | remapped _ _ again =>
      apply Char.toNat_inj.1
      exact Option.some_inj.1 (listed.symm.trans again)
    | scalar _ _ printed => exact absurd ⟨low, high⟩ printed
  | scalar fit positive printed same =>
    cases another with
    | replaced =>
      have := apart fit
      omega
    | remapped low high => exact absurd ⟨low, high⟩ printed
    | scalar _ _ _ again => exact Char.toNat_inj.1 (same.trans again.symm)

theorem standsFor_iff : StandsFor number other ↔ other = characterOf number := by
  constructor
  · intro stands
    exact stands.unique (standsFor_characterOf number)
  · rintro rfl
    exact standsFor_characterOf number

/-- Numbers without room in a word are too great for a character anyway. -/
theorem characterOf_countInWord? (positive : 0 < base) (digits : List Char) :
    characterOf ((countInWord? base digits).getD (UInt32.size - 1)) =
      characterOf (numberOf base digits) := by
  rw [countInWord?_eq positive, Option.filter_some]
  by_cases room : numberOf base digits < UInt32.size
  · rw [if_pos (decide_eq_true room), Option.getD_some]
  · have beyond : 0x10ffff < numberOf base digits := by
      have : UInt32.size = 2 ^ 32 := rfl
      omega
    rw [if_neg (by simpa using room), Option.getD_none, characterOf, characterOf,
      if_pos (by decide), if_pos (.inr (.inr beyond))]

inductive MarksBase : List Char → Nat → Prop
  | decimal : MarksBase [] 10
  | small : MarksBase ['x'] 16
  | capital : MarksBase ['X'] 16

/-- What is left of a text if a semicolon at its start belongs to the reference in front of it. -/
def afterSemicolon : List Char → List Char
  | ';' :: rest => rest
  | rest => rest

theorem afterSemicolon_of_other (unclosed : rest.head? ≠ some ';') : afterSemicolon rest = rest := by
  unfold afterSemicolon
  split
  · exact absurd rfl unclosed
  · rfl

theorem numericReference_digits (opening : List Char) (digital : ∀ c ∈ digits, isDigitOf base c = true)
    (more : digits ≠ []) (ends : rest.head?.any (isDigitOf base) = false) :
    numericReference base opening (digits ++ rest) =
      ([characterOf (numberOf base digits)], afterSemicolon rest) := by
  have stops : rest.takeWhile (isDigitOf base) = [] ∧ rest.dropWhile (isDigitOf base) = rest := by
    cases rest with
    | nil => exact ⟨rfl, rfl⟩
    | cons c later =>
      have last : isDigitOf base c = false := by simpa using ends
      simp [last]
  simp only [numericReference, List.takeWhile_append_of_pos digital,
    List.dropWhile_append_of_pos digital, stops, List.append_nil, List.isEmpty_iff, more, if_false]
  rfl

theorem reference_digits (inAttribute : Bool) {mark : List Char} (marks : MarksBase mark base)
    (digital : ∀ c ∈ digits, isDigitOf base c = true) (more : digits ≠ [])
    (ends : rest.head?.any (isDigitOf base) = false) :
    reference inAttribute ('#' :: (mark ++ digits) ++ rest) =
      ([characterOf (numberOf base digits)], afterSemicolon rest) := by
  cases marks with
  | decimal =>
    have noMark {mark : Char} (other : isDigitOf 10 mark = false) :
        (digits ++ rest).head? ≠ some mark := by
      rw [List.head?_append_of_ne_nil digits more]
      intro first
      rw [digital mark (List.mem_of_head? first)] at other
      cases other
    rw [← numericReference_digits ['&', '#'] digital more ends]
    exact reference_of_number inAttribute (noMark (by decide)) (noMark (by decide))
  | small => exact numericReference_digits ['&', '#', 'x'] digital more ends
  | capital => exact numericReference_digits ['&', '#', 'x'] digital more ends

theorem decodeReferences_digits (inAttribute : Bool) {mark : List Char} (marks : MarksBase mark base)
    (digital : ∀ c ∈ digits, isDigitOf base c = true) (more : digits ≠ [])
    (ends : rest.head?.any (isDigitOf base) = false) :
    decodeReferences inAttribute ("&#".toList ++ mark ++ digits ++ rest) =
      characterOf (numberOf base digits) :: decodeReferences inAttribute (afterSemicolon rest) := by
  have whole : "&#".toList ++ mark ++ digits ++ rest = '&' :: ('#' :: (mark ++ digits) ++ rest) := by
    simp
  rw [whole, decodeReferences_ampersand, reference_digits inAttribute marks digital more ends]
  rfl

/-- A reference by number is read as one character, and what follows it as if it stood alone. The
character is told by the number that the digits denote, and counting in words of 32 bits finds the
same one. -/
theorem decodeReferences_numeric (inAttribute : Bool) {mark : List Char} (marks : MarksBase mark base)
    (spelled : List.Forall₂ (DigitOf base) digits values) (more : digits ≠ [])
    (ends : ∀ c ∈ rest.head?, ∀ value, ¬ DigitOf base c value) :
    ∃ c, (∀ other, StandsFor (Nat.ofDigits base values.reverse) other ↔ other = c) ∧
      characterOf ((countInWord? base digits).getD (UInt32.size - 1)) = c ∧
      decodeReferences inAttribute ("&#".toList ++ mark ++ digits ++ ';' :: rest) =
        c :: decodeReferences inAttribute rest ∧
      (rest.head? ≠ some ';' →
        decodeReferences inAttribute ("&#".toList ++ mark ++ digits ++ rest) =
          c :: decodeReferences inAttribute rest) := by
  have small : 0 < base ∧ base ≤ 16 := by cases marks <;> decide
  have semicolon : isDigitOf base ';' = false := by cases marks <;> decide
  have digital := isDigitOf_of_spelled small.2 spelled
  have stops : rest.head?.any (isDigitOf base) = false := by
    rw [Option.any_eq_false]
    intro c first
    apply Bool.eq_false_of_not_eq_true
    intro digit
    obtain ⟨value, same⟩ := (isDigitOf_iff small.2).1 digit
    exact ends c first value same
  refine ⟨characterOf (numberOf base digits), ?_, ?_, ?_, ?_⟩
  · intro other
    rw [← numberOf_eq_ofDigits spelled]
    exact standsFor_iff
  · exact characterOf_countInWord? small.1 digits
  · exact decodeReferences_digits inAttribute marks digital more (by simpa using semicolon)
  · intro unclosed
    have read := decodeReferences_digits inAttribute marks digital more stops
    rwa [afterSemicolon_of_other unclosed] at read

/-- A number whose last 32 bits are those of a letter, in front of another reference. -/
theorem decodeReferences_numeric_great :
    MarksBase ['X'] 16 ∧
      List.Forall₂ (DigitOf 16) "00100000041".toList [0, 0, 1, 0, 0, 0, 0, 0, 0, 4, 1] ∧
      "00100000041".toList ≠ [] ∧ (∀ c ∈ "&#65".toList.head?, ∀ value, ¬ DigitOf 16 c value) ∧
      decodeReferences true "&#X00100000041;&#65".toList =
        '\ufffd' :: decodeReferences true "&#65".toList := by
  have spelled : List.Forall₂ (DigitOf 16) "00100000041".toList [0, 0, 1, 0, 0, 0, 0, 0, 0, 4, 1] := by
    decide
  have ends : ∀ c ∈ "&#65".toList.head?, ∀ value, ¬ DigitOf 16 c value := by
    intro c first value digit
    obtain rfl : '&' = c := Option.some_inj.1 first
    have missing : digitValue? 16 '&' = none := by decide
    rw [digit.digitValue?_eq] at missing
    cases missing
  obtain ⟨c, stands, -, closed, -⟩ :=
    decodeReferences_numeric true .capital spelled (by decide) ends
  have replaced : '\ufffd' = c := (stands '\ufffd').1 (.replaced (by decide) rfl)
  subst replaced
  exact ⟨.capital, spelled, by decide, ends, closed⟩

end TemplateCompiler.Text
