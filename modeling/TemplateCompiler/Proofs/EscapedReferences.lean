import TemplateCompiler.Proofs.CondensedText

/-! Text written with character references. A text is spelled so that markup cannot take any of it
for something else, in an attribute value or between tags, and decoding the references gives it
back. -/

namespace TemplateCompiler.Text

/-- No name goes on behind a semicolon. -/
theorem semicolon_ends_referenceNames : ∀ entry ∈ referenceNames,
    ';' ∉ entry.1.toList.dropLast := by
  have checked : (referenceNames.all fun entry => !entry.1.toList.dropLast.contains ';') = true := by
    decide +kernel
  intro entry member
  have last := List.all_eq_true.mp checked entry member
  simpa using last

/-- What starts with a name that has its semicolon is no other name. -/
theorem eq_of_closed_prefix {front : List Char} (closed : front.getLast? = some ';')
    {entry : String × Nat} (member : entry ∈ referenceNames) (starts : front <+: entry.1.toList) :
    entry.1.toList = front := by
  obtain ⟨tail, whole⟩ := starts
  cases tail with
  | nil => rw [← whole, List.append_nil]
  | cons c rest =>
    have inside := semicolon_ends_referenceNames entry member
    rw [← whole, List.dropLast_append_of_ne_nil (List.cons_ne_nil c rest)] at inside
    exact absurd (List.mem_append_left _ (List.mem_of_getLast? closed)) inside

/-- What follows a semicolon does not matter to the names that a text starts with. -/
theorem longestName?_append {front : List Char} (closed : front.getLast? = some ';')
    (back : List Char) : longestName? (front ++ back) = longestName? front := by
  unfold longestName?
  refine List.foldl_ext _ _ _ fun best entry member => ?_
  have same : entry.1.toList.isPrefixOf (front ++ back) = entry.1.toList.isPrefixOf front := by
    rw [Bool.eq_iff_iff, List.isPrefixOf_iff_prefix, List.isPrefixOf_iff_prefix]
    constructor
    · intro starts
      rcases List.prefix_or_prefix_of_prefix starts (List.prefix_append front back) with
        inside | beyond
      · exact inside
      · exact ⟨[], by rw [List.append_nil, eq_of_closed_prefix closed member beyond]⟩
    · intro inside
      exact inside.trans (List.prefix_append front back)
  simp only [same]

/-- A name with its semicolon is read as one reference, whatever follows it. -/
theorem reference_closed {name : String} {value : Char} (inAttribute : Bool)
    (own : longestName? name.toList = some (name.toList, value))
    (closed : name.toList.getLast? = some ';') (noNumber : name.toList.head? ≠ some '#')
    (back : List Char) :
    reference inAttribute (name.toList ++ back) = ([value], back) := by
  have alone : longestName? (name.toList ++ back) = some (name.toList, value) := by
    rw [longestName?_append closed, own]
  have nonempty : name.toList ≠ [] := by
    intro empty
    rw [empty] at closed
    cases closed
  have first : (name.toList ++ back).head? ≠ some '#' := by
    rwa [List.head?_append_of_ne_nil _ nonempty]
  rw [reference_of_name inAttribute first]
  simp only [namedReference, alone, isAmbiguous, closed, bne_self_eq_false, Bool.false_and,
    Bool.and_false, Bool.false_eq_true, if_false, List.drop_left]

/-- A character in an attribute value with double quotes. -/
def spellInAttribute (c : Char) : List Char :=
  if c = '&' then "&amp;".toList
  else if c = '"' then "&quot;".toList
  else [c]

/-- A character of a text between tags. -/
def spellInText (c : Char) : List Char :=
  if c = '&' then "&amp;".toList
  else if c = '<' then "&lt;".toList
  else if c = '\x7b' then "&#123;".toList
  else [c]

/-- The names that are written, checked together because the whole table is read for each. -/
theorem longestName?_written :
    longestName? "amp;".toList = some ("amp;".toList, '&') ∧
      longestName? "quot;".toList = some ("quot;".toList, '"') ∧
      longestName? "lt;".toList = some ("lt;".toList, '<') := by
  decide +kernel

theorem reference_amp (inAttribute : Bool) (back : List Char) :
    reference inAttribute ("amp;".toList ++ back) = (['&'], back) :=
  reference_closed inAttribute longestName?_written.1 (by decide) (by decide) back

theorem reference_quot (inAttribute : Bool) (back : List Char) :
    reference inAttribute ("quot;".toList ++ back) = (['"'], back) :=
  reference_closed inAttribute longestName?_written.2.1 (by decide) (by decide) back

theorem reference_lt (inAttribute : Bool) (back : List Char) :
    reference inAttribute ("lt;".toList ++ back) = (['<'], back) :=
  reference_closed inAttribute longestName?_written.2.2 (by decide) (by decide) back

theorem reference_brace (inAttribute : Bool) (back : List Char) :
    reference inAttribute ("#123;".toList ++ back) = (['\x7b'], back) := by
  have whole : "#123;".toList ++ back = '#' :: ("123".toList ++ ';' :: back) := rfl
  have digits : ∀ c ∈ "123".toList, isDigitOf 10 c = true := List.all_eq_true.mp (by decide)
  have number : characterOf (numberOf 10 "123".toList) = '\x7b' := by decide
  have more : "123".toList.isEmpty = false := by decide
  have mark : isDigitOf 10 ';' = false := by decide
  rw [whole, reference_of_number inAttribute (by simp) (by simp), numericReference]
  simp only [List.takeWhile_append_of_pos digits, List.dropWhile_append_of_pos digits,
    List.takeWhile_cons, List.dropWhile_cons, mark, Bool.false_eq_true, if_false, List.append_nil,
    more, number]

theorem decodeReferences_reference (inAttribute : Bool) {name : List Char} {value : Char}
    (read : ∀ back, reference inAttribute (name ++ back) = ([value], back)) (back : List Char) :
    decodeReferences inAttribute ('&' :: name ++ back) =
      value :: decodeReferences inAttribute back := by
  rw [List.cons_append, decodeReferences_ampersand, read]
  rfl

theorem decodeReferences_flatMap (inAttribute : Bool) {spell : Char → List Char}
    (undone : ∀ c back, decodeReferences inAttribute (spell c ++ back) =
      c :: decodeReferences inAttribute back) (text : List Char) :
    decodeReferences inAttribute (text.flatMap spell) = text := by
  induction text with
  | nil => rw [List.flatMap_nil, decodeReferences]
  | cons c rest ih => rw [List.flatMap_cons, undone, ih]

theorem decodeReferences_spellInAttribute (text : List Char) :
    decodeReferences true (text.flatMap spellInAttribute) = text := by
  refine decodeReferences_flatMap true (fun c back => ?_) text
  unfold spellInAttribute
  split
  · next same =>
    rw [same]
    exact decodeReferences_reference true (reference_amp true) back
  split
  · next same =>
    rw [same]
    exact decodeReferences_reference true (reference_quot true) back
  · next other _ => exact decodeReferences_other true other back

theorem decodeReferences_spellInText (text : List Char) :
    decodeReferences false (text.flatMap spellInText) = text := by
  refine decodeReferences_flatMap false (fun c back => ?_) text
  unfold spellInText
  split
  · next same =>
    rw [same]
    exact decodeReferences_reference false (reference_amp false) back
  split
  · next same =>
    rw [same]
    exact decodeReferences_reference false (reference_lt false) back
  split
  · next same =>
    rw [same]
    exact decodeReferences_reference false (reference_brace false) back
  · next other _ _ => exact decodeReferences_other false other back

/-- The quote that would end the value is not in its spelling. -/
theorem quote_not_mem_spellInAttribute (text : List Char) :
    '"' ∉ text.flatMap spellInAttribute := by
  intro member
  obtain ⟨c, _, inside⟩ := List.mem_flatMap.1 member
  unfold spellInAttribute at inside
  split at inside
  · exact absurd inside (by decide)
  split at inside
  · exact absurd inside (by decide)
  · next _ other => exact other (List.mem_singleton.1 inside).symm

/-- Neither a tag nor an interpolation can begin in the spelling of a text. -/
theorem not_mem_spellInText (text : List Char) :
    '<' ∉ text.flatMap spellInText ∧ '\x7b' ∉ text.flatMap spellInText := by
  have absent (mark : Char) (ampersand : mark ∉ "&amp;".toList) (angle : mark ∉ "&lt;".toList)
      (brace : mark ∉ "&#123;".toList) (other : ∀ c, c ≠ '<' → c ≠ '\x7b' → mark ≠ c) :
      mark ∉ text.flatMap spellInText := by
    intro member
    obtain ⟨c, _, inside⟩ := List.mem_flatMap.1 member
    unfold spellInText at inside
    split at inside
    · exact ampersand inside
    split at inside
    · exact angle inside
    split at inside
    · exact brace inside
    · next _ noAngle noBrace => exact other c noAngle noBrace (List.mem_singleton.1 inside)
  constructor
  · refine absent '<' (by decide) (by decide) (by decide) fun c noAngle _ same => ?_
    exact noAngle same.symm
  · refine absent '\x7b' (by decide) (by decide) (by decide) fun c _ noBrace same => ?_
    exact noBrace same.symm

theorem spellInText_ne_nil {text : List Char} (more : text ≠ []) :
    text.flatMap spellInText ≠ [] := by
  intro empty
  obtain ⟨c, rest, rfl⟩ := List.exists_cons_of_ne_nil more
  have first := (List.append_eq_nil_iff.1 empty).1
  unfold spellInText at first
  split at first
  · cases first
  split at first
  · cases first
  split at first
  · cases first
  · cases first

end TemplateCompiler.Text
