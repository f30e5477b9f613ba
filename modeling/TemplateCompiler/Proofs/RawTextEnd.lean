import TemplateCompiler.Proofs.TokenTiling

/-! The end of raw text is looked for by bytes: behind each `</` as many bytes as the name has are
compared with it. The search fails just if these bytes end inside of a character, at some `</`
before the end tag. -/

namespace TemplateCompiler

open Text

def Text.Boundary (text : List Char) (bytes : Nat) : Prop :=
  ∃ front back, text = front ++ back ∧ byteLength front = bytes

namespace Text

theorem boundary_cons {c : Char} {rest : List Char} {bytes : Nat} :
    Boundary (c :: rest) (c.utf8Size + bytes) ↔ Boundary rest bytes := by
  constructor
  · rintro ⟨front, back, whole, counted⟩
    cases front with
    | nil =>
      have positive := c.utf8Size_pos
      rw [byteLength_nil] at counted
      omega
    | cons first front =>
      obtain ⟨rfl, rfl⟩ := List.cons.inj whole
      rw [byteLength_cons] at counted
      exact ⟨front, back, rfl, by omega⟩
  · rintro ⟨front, back, rfl, rfl⟩
    exact ⟨c :: front, back, rfl, byteLength_cons c front⟩

theorem boundary_append {front text : List Char} {bytes : Nat} :
    Boundary (front ++ text) (byteLength front + bytes) ↔ Boundary text bytes := by
  induction front with
  | nil => simp
  | cons c front ih =>
    rw [List.cons_append, byteLength_cons, Nat.add_assoc, boundary_cons, ih]

/-- No boundary lies inside of the first character. -/
theorem not_boundary_of_lt {c : Char} {rest : List Char} {bytes : Nat} (some : 0 < bytes)
    (inside : bytes < c.utf8Size) : ¬Boundary (c :: rest) bytes := by
  rintro ⟨front, back, whole, counted⟩
  cases front with
  | nil =>
    rw [byteLength_nil] at counted
    omega
  | cons first front =>
    obtain ⟨rfl, rfl⟩ := List.cons.inj whole
    rw [byteLength_cons] at counted
    omega

/-- Two ways to split a text behind as many bytes are the same. -/
theorem split_unique {front back other behind : List Char}
    (same : front ++ back = other ++ behind) (bytes : byteLength front = byteLength other) :
    front = other ∧ back = behind := by
  induction front generalizing other with
  | nil =>
    cases other with
    | nil => exact ⟨rfl, same⟩
    | cons c other =>
      have positive := c.utf8Size_pos
      simp only [byteLength_nil, byteLength_cons] at bytes
      omega
  | cons c front ih =>
    cases other with
    | nil =>
      have positive := c.utf8Size_pos
      simp only [byteLength_nil, byteLength_cons] at bytes
      omega
    | cons d other =>
      obtain ⟨rfl, rest⟩ := List.cons.inj same
      simp only [byteLength_cons] at bytes
      obtain ⟨rfl, rfl⟩ := ih rest (by omega)
      exact ⟨rfl, rfl⟩

theorem utf8Size_toLower (c : Char) : c.toLower.utf8Size = c.utf8Size := by
  unfold Char.toLower
  split
  · next upper =>
    have small : c.toNat ≤ 90 := UInt32.le_iff_toNat_le.mp upper.2
    have before : c.val ≤ 127 := UInt32.le_iff_toNat_le.mpr (by simp; omega)
    have after : c.val + ('a'.val - 'A'.val) ≤ 127 := UInt32.le_iff_toNat_le.mpr (by simp; omega)
    rw [Char.utf8Size_eq_one_iff.mpr before, Char.utf8Size_eq_one_iff.mpr after]
  · rfl

theorem byteLength_of_sameIgnoringCase {first second : String}
    (same : sameIgnoringCase first second = true) :
    byteLength first.toList = byteLength second.toList := by
  have lowered : ∀ text : List Char, byteLength (text.map Char.toLower) = byteLength text := by
    intro text
    induction text with
    | nil => rfl
    | cons c text ih => rw [List.map_cons, byteLength_cons, byteLength_cons, ih, utf8Size_toLower]
  rw [sameIgnoringCase, beq_iff_eq] at same
  rw [← lowered first.toList, same, lowered]

end Text

namespace Lexer

def ByteSplit.Fits (bytes : Nat) (text : List Char) : ByteSplit → Prop
  | .tooShort => byteLength text < bytes
  | .insideCharacter => bytes ≤ byteLength text ∧ ¬Boundary text bytes
  | .split front back => text = front ++ back ∧ byteLength front = bytes

theorem splitBytes_fits (bytes : Nat) (text : List Char) :
    (splitBytes bytes text).Fits bytes text := by
  fun_induction splitBytes bytes text with
  | case1 text => exact ⟨rfl, rfl⟩
  | case2 bytes => exact Nat.succ_pos bytes
  | case3 bytes c rest fits front back inner ih =>
    rw [inner] at ih
    obtain ⟨rfl, counted⟩ := ih
    refine ⟨rfl, ?_⟩
    rw [byteLength_cons]
    omega
  | case4 bytes c rest fits other ih =>
    -- the split of the rest failed, and this one fails alike
    have shifted : bytes + 1 = c.utf8Size + (bytes + 1 - c.utf8Size) := by omega
    cases split : splitBytes (bytes + 1 - c.utf8Size) rest with
    | tooShort =>
      rw [split] at ih
      simp only [ByteSplit.Fits, byteLength_cons] at ih ⊢
      omega
    | insideCharacter =>
      rw [split] at ih
      obtain ⟨enough, inside⟩ := ih
      refine ⟨?_, ?_⟩
      · rw [byteLength_cons]
        omega
      · rwa [Nat.succ_eq_add_one, shifted, boundary_cons]
    | split front back => exact absurd split (other front back)
  | case5 bytes c rest large enough =>
    exact ⟨enough, not_boundary_of_lt (Nat.succ_pos bytes) (by omega)⟩
  | case6 bytes c rest large short => exact Nat.lt_of_not_le short

theorem fits_of_splitBytes {bytes : Nat} {text : List Char} {result : ByteSplit}
    (split : splitBytes bytes text = result) : result.Fits bytes text :=
  split ▸ splitBytes_fits bytes text

/-- An end tag of `tag` stands behind a `</`: its name, up to case, and no further name character. -/
def Ends (tag : String) (behind : List Char) : Prop :=
  ∃ name back, behind = name ++ back ∧ sameIgnoringCase (String.ofList name) tag = true ∧
    ∀ c ∈ back.head?, isNameChar c = false

/-- Before any end tag of `tag`, the text has a `</` behind which as many bytes as the name has end
inside of a character. -/
def CutsCharacter (tag : String) (text : List Char) : Prop :=
  ∃ front behind, text = front ++ '<' :: '/' :: behind ∧
    byteLength front + 2 + byteLength tag.toList ≤ byteLength text ∧
    ¬Boundary text (byteLength front + 2 + byteLength tag.toList) ∧
    ∀ earlier later, text = earlier ++ '<' :: '/' :: later → earlier.length < front.length →
      ¬Ends tag later

variable {tag : String}

theorem byteLength_closing (behind : List Char) :
    byteLength ('<' :: '/' :: behind) = 2 + byteLength behind :=
  byteLength_append ['<', '/'] behind

theorem boundary_closing {behind : List Char} {bytes : Nat} :
    Boundary ('<' :: '/' :: behind) (2 + bytes) ↔ Boundary behind bytes :=
  @boundary_append ['<', '/'] behind bytes

theorem not_cutsCharacter_nil : ¬CutsCharacter tag [] := by
  rintro ⟨front, behind, whole, -⟩
  simp at whole

/-- A `</` in front is the one that cuts, or it is passed over, as every other character is. -/
theorem cutsCharacter_cons {c : Char} {rest : List Char} :
    CutsCharacter tag (c :: rest) ↔
      (∃ behind, c :: rest = '<' :: '/' :: behind ∧ byteLength tag.toList ≤ byteLength behind ∧
        ¬Boundary behind (byteLength tag.toList)) ∨
      (∀ behind, c :: rest = '<' :: '/' :: behind → ¬Ends tag behind) ∧ CutsCharacter tag rest := by
  constructor
  · rintro ⟨front, behind, whole, enough, inside, first⟩
    cases front with
    | nil =>
      refine .inl ⟨behind, whole, ?_, ?_⟩
      · rw [whole, List.nil_append, byteLength_nil, byteLength_closing] at enough
        omega
      · rwa [whole, List.nil_append, byteLength_nil, Nat.zero_add, boundary_closing] at inside
    | cons d front =>
      obtain ⟨rfl, rfl⟩ := List.cons.inj whole
      simp only [byteLength_cons, Nat.add_assoc, boundary_cons] at enough inside
      refine .inr ⟨?_, front, behind, rfl, ?_, ?_, ?_⟩
      · intro later same
        exact first [] later same (by simp)
      · rw [Nat.add_assoc]
        omega
      · rwa [Nat.add_assoc]
      · intro earlier later same shorter
        exact first (c :: earlier) later (by rw [same]; rfl) (by simpa using shorter)
  · rintro (⟨behind, whole, enough, inside⟩ | ⟨unended, front, behind, rfl, enough, inside, first⟩)
    · refine ⟨[], behind, whole, ?_, ?_, ?_⟩
      · rw [whole, byteLength_nil, byteLength_closing]
        omega
      · rwa [whole, byteLength_nil, Nat.zero_add, boundary_closing]
      · intro earlier later same shorter
        simp at shorter
    · refine ⟨c :: front, behind, rfl, ?_, ?_, ?_⟩
      · simp only [byteLength_cons] at enough ⊢
        omega
      · rw [byteLength_cons, Nat.add_assoc, Nat.add_assoc, boundary_cons, ← Nat.add_assoc]
        exact inside
      · intro earlier later same shorter
        cases earlier with
        | nil => exact unended later same
        | cons d earlier =>
          obtain ⟨-, same⟩ := List.cons.inj same
          exact first earlier later same (by simpa using shorter)

theorem cutsCharacter_plain {c : Char} {rest : List Char}
    (plain : ∀ behind, c :: rest ≠ '<' :: '/' :: behind) :
    CutsCharacter tag (c :: rest) ↔ CutsCharacter tag rest := by
  rw [cutsCharacter_cons]
  constructor
  · rintro (⟨behind, whole, -⟩ | ⟨-, later⟩)
    · exact absurd whole (plain behind)
    · exact later
  · intro later
    exact .inr ⟨fun behind whole => absurd whole (plain behind), later⟩

/-- Whether an end tag stands behind a `</` is read off the bytes that its name would take. -/
theorem ends_append {name back : List Char} (bytes : byteLength name = byteLength tag.toList) :
    Ends tag (name ++ back) ↔
      sameIgnoringCase (String.ofList name) tag = true ∧ ∀ c ∈ back.head?, isNameChar c = false := by
  constructor
  · rintro ⟨other, behind, whole, same, ends⟩
    have counted := byteLength_of_sameIgnoringCase same
    rw [String.toList_ofList] at counted
    obtain ⟨rfl, rfl⟩ := split_unique whole (bytes.trans counted.symm)
    exact ⟨same, ends⟩
  · rintro ⟨same, ends⟩
    exact ⟨name, back, rfl, same, ends⟩

theorem failed_map_iff {α β : Type} {f : α → β} {result : Except Fault α} :
    (∃ fault, result.map f = .error fault) ↔ ∃ fault, result = .error fault := by
  cases result <;> simp [Except.map]

/-- The search for the end of raw text fails just where it cuts a character. -/
theorem appropriateEnd_error_iff (tag : String) (text : List Char) :
    (∃ fault, appropriateEnd tag text = .error fault) ↔ CutsCharacter tag text := by
  fun_induction appropriateEnd tag text with
  | case1 => simp [not_cutsCharacter_nil]
  | case2 behind short =>
    have fits : byteLength behind < byteLength tag.toList := fits_of_splitBytes short
    refine iff_of_false (by simp) ?_
    rintro ⟨front, later, -, enough, -⟩
    rw [byteLength_closing] at enough
    omega
  | case3 behind inside =>
    refine iff_of_true ⟨_, rfl⟩ (cutsCharacter_cons.mpr (.inl ⟨behind, rfl, ?_⟩))
    exact fits_of_splitBytes inside
  | case4 behind name back split terminated ends =>
    obtain ⟨rfl, bytes⟩ := fits_of_splitBytes split
    refine iff_of_false (by simp) ?_
    rw [cutsCharacter_cons]
    rintro (⟨later, whole, -, inside⟩ | ⟨unended, -⟩)
    · cases whole
      exact inside ⟨name, back, rfl, bytes⟩
    · refine unended _ rfl ((ends_append bytes).mpr ?_)
      cases back <;> simpa [terminated] using ends
  | case5 behind name back split terminated unended ih =>
    obtain ⟨rfl, bytes⟩ := fits_of_splitBytes split
    rw [failed_map_iff, ih, cutsCharacter_cons (c := '<')]
    constructor
    · intro later
      refine .inr ⟨?_, later⟩
      intro other whole ends
      cases whole
      refine unended ?_
      obtain ⟨same, ends⟩ := (ends_append bytes).mp ends
      cases back <;> simp_all [terminated]
    · rintro (⟨later, whole, -, inside⟩ | ⟨-, later⟩)
      · cases whole
        exact absurd ⟨name, back, rfl, bytes⟩ inside
      · exact later
  | case6 c rest plain ih =>
    rw [failed_map_iff, ih, cutsCharacter_plain]
    intro behind whole
    obtain ⟨angle, solidus⟩ := List.cons.inj whole
    exact plain behind angle solidus

theorem appropriateEnd_le (tag : String) (text : List Char) :
    ∀ length, appropriateEnd tag text = .ok length → length ≤ text.length := by
  have further (c : Char) {rest : List Char}
      (inside : ∀ length, appropriateEnd tag rest = .ok length → length ≤ rest.length) :
      ∀ length, (appropriateEnd tag rest).map (· + 1) = .ok length →
        length ≤ (c :: rest).length := by
    intro length found
    cases inner : appropriateEnd tag rest with
    | error fault =>
      rw [inner] at found
      cases found
    | ok shorter =>
      rw [inner] at found
      cases found
      exact Nat.succ_le_succ (inside shorter inner)
  fun_induction appropriateEnd tag text with
  | case1 | case2 =>
    rintro length ⟨⟩
    exact Nat.le_refl _
  | case3 => exact nofun
  | case4 =>
    rintro length ⟨⟩
    exact Nat.zero_le _
  | case5 behind name back split terminated unended ih => exact further '<' ih
  | case6 c rest plain ih => exact further c ih

-- the name is compared with five bytes, and the last letter takes the fifth and the sixth
example : appropriateEnd "style" "</abcdé>".toList = .error .splitCharacter := by cbv

end Lexer

end TemplateCompiler
