import Mathlib.Data.Bool.AllAny
import TemplateCompiler.Lowering.LoopExpression
import TemplateCompiler.Proofs.CommentEnds

/-! Reading back the aliases of a loop. Aliases that were written into a list come out of it again,
and with them the source of the loop, unless ` of ` is between the two and ` in ` in the source:
the text is cut at the first ` in `, and at ` of ` only if there is none. -/

namespace TemplateCompiler

namespace Text

/-- Neither end of the text is among the characters that are dropped. -/
structure Bare (dropped : Char → Bool) (text : List Char) : Prop where
  first : ∀ c ∈ text.head?, dropped c = false
  last : ∀ c ∈ text.getLast?, dropped c = false

instance (dropped : Char → Bool) (text : List Char) : Decidable (Bare dropped text) :=
  decidable_of_iff
    (text.head?.all (fun c => !dropped c) = true ∧ text.getLast?.all (fun c => !dropped c) = true)
    ⟨fun ends => ⟨by simpa [Option.all_eq_true] using ends.1,
        by simpa [Option.all_eq_true] using ends.2⟩,
      fun bare => ⟨by simpa [Option.all_eq_true] using bare.first,
        by simpa [Option.all_eq_true] using bare.last⟩⟩

section Strip

variable {dropped : Char → Bool} {text : List Char} {c : Char}

theorem dropWhile_of_head? (first : ∀ c ∈ text.head?, dropped c = false) :
    text.dropWhile dropped = text := by
  cases text with
  | nil => rfl
  | cons c rest => rw [List.dropWhile_cons_of_neg (by simp [first c rfl])]

theorem strip_of_bare (bare : Bare dropped text) : strip dropped text = text := by
  rw [strip, dropWhile_of_head? bare.first, dropWhile_of_head?, List.reverse_reverse]
  rw [List.head?_reverse]
  exact bare.last

theorem Bare.append {back : List Char} (first : Bare dropped text) (some : text ≠ [])
    (middle : List Char) (last : Bare dropped back) (more : back ≠ []) :
    Bare dropped (text ++ (middle ++ back)) := by
  constructor
  · rw [List.head?_append_of_ne_nil text some]
    exact first.first
  · rw [← List.append_assoc, List.getLast?_append_of_ne_nil _ more]
    exact last.last

theorem strip_cons (drops : dropped c = true) : strip dropped (c :: text) = strip dropped text := by
  rw [strip, List.dropWhile_cons_of_pos drops, strip]

theorem strip_cons_concat {closing : Char} (opens : dropped c = true)
    (closes : dropped closing = true) (bare : Bare dropped text) :
    strip dropped (c :: (text ++ [closing])) = text := by
  rw [strip_cons opens, strip]
  cases text with
  | nil => simp [closes]
  | cons first rest =>
    rw [List.cons_append, List.dropWhile_cons_of_neg (by simp [bare.first first rfl]),
      ← List.cons_append, List.reverse_append, List.reverse_singleton, List.singleton_append,
      List.dropWhile_cons_of_pos closes, dropWhile_of_head?, List.reverse_reverse]
    rw [List.head?_reverse]
    exact bare.last

theorem filter_strip (dropped : Char → Bool) (text : List Char) :
    (strip dropped text).filter (fun c => !dropped c) = text.filter (fun c => !dropped c) := by
  have kept (text : List Char) : (text.dropWhile dropped).filter (fun c => !dropped c) =
      text.filter (fun c => !dropped c) := by
    induction text with
    | nil => rfl
    | cons c rest ih =>
      cases drops : dropped c with
      | true => rw [List.dropWhile_cons_of_pos drops, ih, List.filter_cons_of_neg (by simp [drops])]
      | false => rw [List.dropWhile_cons_of_neg (by simp [drops])]
  rw [strip, List.filter_reverse, kept, List.filter_reverse, kept, List.reverse_reverse]

end Strip

section Cutting

variable {mark : Char} {front back text : List Char}

theorem cutLast?_of_absent (absent : mark ∉ text) : cutLast? mark text = none := by
  induction text with
  | nil => rfl
  | cons c rest ih =>
    rw [List.mem_cons, not_or] at absent
    simp only [cutLast?, ih absent.2, if_neg (Ne.symm absent.1)]

theorem cutLast?_append (absent : mark ∉ back) :
    cutLast? mark (front ++ mark :: back) = some (front, back) := by
  induction front with
  | nil => simp only [List.nil_append, cutLast?, cutLast?_of_absent absent, if_true]
  | cons c rest ih => simp only [List.cons_append, cutLast?, ih]

theorem eq_append_of_cutLast? (cut : cutLast? mark text = some (front, back)) :
    text = front ++ mark :: back := by
  induction text generalizing front back with
  | nil => cases cut
  | cons c rest ih =>
    simp only [cutLast?] at cut
    split at cut
    · next before after inner =>
      cases cut
      rw [ih inner, List.cons_append]
    · split at cut
      · next same =>
        cases cut
        rw [same, List.nil_append]
      · cases cut

/-- An occurrence does not go over a character that it does not have. -/
theorem infix_around {pattern : List Char} (absent : mark ∉ pattern)
    (occurs : pattern <:+: front ++ mark :: back) : pattern <:+: front ∨ pattern <:+: back := by
  induction front with
  | nil =>
    rcases List.infix_cons_iff.1 occurs with here | later
    · cases pattern with
      | nil => exact .inl (List.nil_infix)
      | cons c rest =>
        obtain ⟨rfl, -⟩ := List.cons_prefix_cons.1 here
        exact absurd List.mem_cons_self absent
    · exact .inr later
  | cons c rest ih =>
    rcases List.infix_cons_iff.1 occurs with here | later
    · by_cases short : pattern.length ≤ (c :: rest).length
      · exact .inl (List.prefix_of_prefix_length_le here (List.prefix_append (c :: rest) _)
          short).isInfix
      · obtain ⟨extra, rfl⟩ := List.prefix_of_prefix_length_le
          (List.prefix_append (c :: rest) (mark :: back)) here (Nat.le_of_not_le short)
        have behind := (List.prefix_append_right_inj (c :: rest)).1 here
        cases extra with
        | nil => simp at short
        | cons first more =>
          obtain ⟨rfl, -⟩ := List.cons_prefix_cons.1 behind
          exact absurd (by simp) absent
    · exact (ih later).imp_left fun inside => inside.trans (List.suffix_cons c rest).isInfix

/-- A word between spaces does not reach over the space in front of `back`. -/
theorem apart_spaced {first last : Char} (some : first ≠ ' ') (more : last ≠ ' ')
    (absent : ¬ [' ', first, last, ' '] <:+: ' ' :: (front ++ [' '])) :
    Apart [' ', first, last, ' '] front (' ' :: back) := by
  intro count pos inside ends begins
  have cases : count = 1 ∨ count = 2 ∨ count = 3 := by
    simp only [List.length_cons, List.length_nil] at inside
    omega
  rcases cases with rfl | rfl | rfl
  · exact some (List.cons_prefix_cons.1 begins).1
  · exact more (List.cons_prefix_cons.1 begins).1
  · obtain ⟨start, rfl⟩ := ends
    exact absent ⟨' ' :: start, [], by simp⟩

theorem find?_spaced {first last : Char} (some : first ≠ ' ') (more : last ≠ ' ')
    (absent : ¬ [' ', first, last, ' '] <:+: ' ' :: (front ++ [' '])) :
    find? [' ', first, last, ' '] (front ++ ' ' :: back) =
      (find? [' ', first, last, ' '] (' ' :: back)).map (· + front.length) := by
  refine find?_append_of_apart ?_ (apart_spaced some more absent)
  rw [find?_eq_none_iff (List.cons_ne_nil _ _)]
  intro occurs
  exact absent (occurs.trans ⟨[' '], [' '], rfl⟩)

theorem cut?_prefix (pattern back : List Char) : cut? pattern (pattern ++ back) = some ([], back) := by
  rw [cut?, find?_prefix, Option.map_some, Nat.zero_add, List.take_zero, List.drop_left]

/-- A cut behind a text that a word between spaces is not in. -/
theorem cut?_spaced {first last : Char} (some : first ≠ ' ') (more : last ≠ ' ')
    (absent : ¬ [' ', first, last, ' '] <:+: ' ' :: (front ++ [' '])) :
    cut? [' ', first, last, ' '] (front ++ ' ' :: back) =
      (cut? [' ', first, last, ' '] (' ' :: back)).map fun halves =>
        (front ++ halves.1, halves.2) := by
  rw [cut?, find?_spaced some more absent, cut?, Option.map_map, Option.map_map]
  refine Option.map_congr fun index _ => ?_
  simp only [Function.comp_apply]
  rw [Nat.add_comm index, List.take_length_add_append, Nat.add_assoc, List.drop_length_add_append]

theorem cut?_own {first last : Char} (some : first ≠ ' ') (more : last ≠ ' ')
    (absent : ¬ [' ', first, last, ' '] <:+: ' ' :: (front ++ [' '])) :
    cut? [' ', first, last, ' '] (front ++ [' ', first, last, ' '] ++ back) =
      Option.some (front, back) := by
  rw [List.append_assoc, List.cons_append, cut?_spaced some more absent, ← List.cons_append,
    cut?_prefix, Option.map_some, List.append_nil]

theorem eq_append_of_find? {pattern : List Char} {index : Nat}
    (found : find? pattern text = some index) :
    text = text.take index ++ pattern ++ text.drop (index + pattern.length) := by
  induction text generalizing index with
  | nil =>
    obtain ⟨rfl, empty⟩ : index = 0 ∧ pattern = [] := by
      simp only [find?] at found
      split at found
      · next empty =>
        cases found
        exact ⟨rfl, List.isEmpty_iff.1 empty⟩
      · cases found
    simp [empty]
  | cons c rest ih =>
    simp only [find?] at found
    split at found
    · next here =>
      cases found
      obtain ⟨back, whole⟩ := List.isPrefixOf_iff_prefix.1 here
      rw [← whole]
      simp
    · obtain ⟨inner, later, rfl⟩ := Option.map_eq_some_iff.1 found
      rw [Nat.add_right_comm, List.take_succ_cons, List.drop_succ_cons, List.cons_append,
        List.cons_append, ← ih later]

theorem eq_append_of_cut? {pattern : List Char} (cut : cut? pattern text = some (front, back)) :
    text = front ++ pattern ++ back := by
  obtain ⟨index, found, halves⟩ := Option.map_eq_some_iff.1 cut
  cases halves
  exact eq_append_of_find? found

theorem cut?_eq_none_iff {pattern : List Char} (some : pattern ≠ []) :
    cut? pattern text = none ↔ ¬ pattern <:+: text :=
  Option.map_eq_none_iff.trans (find?_eq_none_iff some)

end Cutting

end Text

open Text

namespace LoopExpression

/-- Aliases as they are written in the expression of a loop. -/
structure Aliases where
  value : String
  key : Option String := none
  index : Option String := none

namespace Aliases

def parts (aliases : Aliases) : List String :=
  aliases.value :: (aliases.key.toList ++ aliases.index.toList)

def listed (aliases : Aliases) : List Char :=
  List.intercalate ", ".toList (aliases.parts.map String.toList)

def written (aliases : Aliases) (enclosed : Bool) : List Char :=
  if enclosed then '(' :: (aliases.listed ++ [')']) else aliases.listed

def isParenthesis (c : Char) : Bool :=
  c = '(' || c = ')'

/-- Aliases that can be told apart in their list. -/
structure Separable (aliases : Aliases) : Prop where
  /-- A value has no commas, or what is behind a comma closes it. -/
  value : (∀ c ∈ aliases.value.toList, c ∉ [',', '}', ']']) ∨
    ∃ c ∈ aliases.value.toList.getLast?, c ∈ ['}', ']']
  others : ∀ part ∈ aliases.key.toList ++ aliases.index.toList, ∀ c ∈ part.toList,
    c ∉ [',', '(', ')', '}', ']']
  keyed : aliases.index.isSome = true → aliases.key.isSome = true
  present : ∀ part ∈ aliases.parts, part.toList ≠ []
  trimmed : ∀ part ∈ aliases.parts, Bare isSpace part.toList
  bare : ∀ part ∈ aliases.parts, Bare isParenthesis part.toList
  apart : ∀ word ∈ [" in ", " of "], ¬ word.toList <:+: ' ' :: (aliases.listed ++ [' '])

/-- An alias without a bracket behind the last comma is split off. -/
theorem splitAliases_append {front last : List Char} (single : ',' ∉ last)
    (plain : splitAliases.closesPattern last = false) :
    splitAliases (front ++ ',' :: last) =
      match cutLast? ',' front with
      | none => [trimChars front, trimChars last]
      | some (first, middle) =>
        if splitAliases.closesPattern middle then [trimChars front, trimChars last]
        else [trimChars first, trimChars middle, trimChars last] := by
  rw [splitAliases, cutLast?_append single]
  exact if_neg (by simp [plain])

theorem listed_value (value : String) : listed { value } = value.toList := by
  simp [listed, parts, List.intercalate]

theorem listed_key (value key : String) :
    listed { value, key := some key } = value.toList ++ ',' :: ' ' :: key.toList := by
  simp [listed, parts, List.intercalate]

theorem listed_index (value key index : String) :
    listed { value, key := some key, index := some index } =
      (value.toList ++ ',' :: ' ' :: key.toList) ++ ',' :: ' ' :: index.toList := by
  simp [listed, parts, List.intercalate]

namespace Separable

variable {aliases : Aliases}

theorem trimChars_part (separable : aliases.Separable) {part : String}
    (member : part ∈ aliases.parts) : trimChars part.toList = part.toList :=
  strip_of_bare (separable.trimmed part member)

/-- The space behind a comma is no part of an alias. -/
theorem trimChars_space (separable : aliases.Separable) {part : String}
    (member : part ∈ aliases.parts) : trimChars (' ' :: part.toList) = part.toList :=
  (strip_cons (by decide)).trans (separable.trimChars_part member)

theorem closes_value (separable : aliases.Separable) {front back : List Char}
    (cut : cutLast? ',' aliases.value.toList = some (front, back)) :
    splitAliases.closesPattern back = true := by
  have whole := eq_append_of_cutLast? cut
  rcases separable.value with plain | ⟨c, last, closing⟩
  · have comma := plain ',' (by simp [whole])
    simp at comma
  · rw [whole, List.getLast?_append_of_ne_nil front (List.cons_ne_nil ',' back)] at last
    cases back with
    | nil =>
      cases last
      simp at closing
    | cons first rest =>
      rw [List.getLast?_cons_cons] at last
      refine List.any_eq_true.2 ⟨c, List.mem_of_mem_getLast? last, ?_⟩
      simpa using closing

theorem closesPattern_other (separable : aliases.Separable) {part : String}
    (member : part ∈ aliases.key.toList ++ aliases.index.toList) :
    splitAliases.closesPattern (' ' :: part.toList) = false := by
  have plain := separable.others part member
  refine List.any_eq_false.2 fun c listed => ?_
  rcases List.mem_cons.1 listed with rfl | inside
  · decide
  · have apart := plain c inside
    simp at apart
    simp [apart]

theorem comma_not_mem (separable : aliases.Separable) {part : String}
    (member : part ∈ aliases.key.toList ++ aliases.index.toList) : ',' ∉ ' ' :: part.toList := by
  intro comma
  rcases List.mem_cons.1 comma with space | inside
  · cases space
  · have apart := separable.others part member ',' inside
    simp at apart

theorem splitAliases_value (separable : aliases.Separable) :
    splitAliases aliases.value.toList = [aliases.value.toList] := by
  have trimmed := separable.trimChars_part (List.mem_cons_self : aliases.value ∈ aliases.parts)
  unfold splitAliases
  split
  · rw [trimmed]
  · next front back cut => rw [if_pos (separable.closes_value cut), trimmed]

/-- The aliases come out of their list again. -/
theorem splitAliases_listed (separable : aliases.Separable) :
    splitAliases aliases.listed = aliases.parts.map String.toList := by
  obtain ⟨value, key, index⟩ := aliases
  have trimmed := separable.trimChars_part (List.mem_cons_self : value ∈ value :: _)
  cases key with
  | none =>
    cases index with
    | some index => cases separable.keyed rfl
    | none =>
      rw [listed_value]
      exact separable.splitAliases_value
  | some key =>
    have others := separable.trimChars_space (List.mem_cons_of_mem value List.mem_cons_self)
    have single := separable.comma_not_mem (List.mem_cons_self : key ∈ key :: _)
    have plain := separable.closesPattern_other (List.mem_cons_self : key ∈ key :: _)
    cases index with
    | none =>
      rw [listed_key, splitAliases_append single plain]
      split
      · rw [trimmed, others]
        rfl
      · next front back cut =>
        rw [if_pos (separable.closes_value cut), trimmed, others]
        rfl
    | some index =>
      have last : index ∈ (some key).toList ++ (some index).toList := by simp
      rw [listed_index, splitAliases_append (separable.comma_not_mem last)
        (separable.closesPattern_other last), cutLast?_append single]
      simp only [plain, Bool.false_eq_true, if_false]
      rw [trimmed, others, separable.trimChars_space (List.mem_cons_of_mem value last)]
      rfl

/-- The ends of the list are those of its first and last alias. -/
theorem bare_listed (separable : aliases.Separable) {dropped : Char → Bool}
    (bare : ∀ part ∈ aliases.parts, Bare dropped part.toList) : Bare dropped aliases.listed := by
  have some := separable.present
  obtain ⟨value, key, index⟩ := aliases
  cases key with
  | none =>
    cases index with
    | none =>
      rw [listed_value]
      exact bare value List.mem_cons_self
    | some index => cases separable.keyed rfl
  | some key =>
    obtain ⟨first, others⟩ := List.forall_mem_cons.1 bare
    obtain ⟨value, more⟩ := List.forall_mem_cons.1 some
    cases index with
    | none =>
      rw [listed_key]
      exact first.append value [',', ' '] (others key List.mem_cons_self)
        (more key List.mem_cons_self)
    | some index =>
      have last : index ∈ [key] ++ [index] := by simp
      have split := first.append value (',' :: ' ' :: key.toList ++ [',', ' ']) (others index last)
        (more index last)
      rw [listed_index]
      simpa using split

/-- What is left of the separator is cleared of spaces and parentheses. -/
theorem strip_written (separable : aliases.Separable) (enclosed : Bool) :
    strip isParenthesis (trimChars (aliases.written enclosed)) = aliases.listed := by
  have bare := separable.bare_listed separable.bare
  cases enclosed with
  | false =>
    have trimmed := separable.bare_listed separable.trimmed
    exact (congrArg _ (strip_of_bare trimmed)).trans (strip_of_bare bare)
  | true =>
    have trimmed : Bare isSpace ('(' :: (aliases.listed ++ [')'])) := by
      constructor
      · rintro c ⟨⟩
        decide
      · rw [← List.cons_append, List.getLast?_concat]
        rintro c ⟨⟩
        decide
    refine (congrArg _ (strip_of_bare trimmed)).trans ?_
    exact strip_cons_concat (by decide) (by decide) bare

theorem apart_written (separable : aliases.Separable) (enclosed : Bool) {word : String}
    (separator : word ∈ [" in ", " of "]) :
    ¬ word.toList <:+: ' ' :: (aliases.written enclosed ++ [' ']) := by
  have absent := separable.apart word separator
  cases enclosed with
  | false => exact absent
  | true =>
    intro occurs
    have known : '(' ∉ word.toList ∧ ')' ∉ word.toList ∧ 1 < word.toList.length := by
      simp only [List.mem_cons, List.not_mem_nil, or_false] at separator
      rcases separator with rfl | rfl <;> decide
    have around : ' ' :: (aliases.written true ++ [' ']) =
        [' '] ++ '(' :: (aliases.listed ++ ')' :: [' ']) := by
      simp [written]
    rw [around] at occurs
    rcases infix_around known.1 occurs with blank | inside
    · have := blank.length_le
      exact Nat.not_lt.2 this known.2.2
    · rcases infix_around known.2.1 inside with within | blank
      · exact absent (within.trans ⟨[' '], [' '], rfl⟩)
      · have := blank.length_le
        exact Nat.not_lt.2 this known.2.2

/-- Each alias is found at its place in the list. -/
theorem alias?_parts (separable : aliases.Separable) :
    alias? (aliases.parts.map String.toList) 0 = some aliases.value ∧
      alias? (aliases.parts.map String.toList) 1 = aliases.key ∧
      alias? (aliases.parts.map String.toList) 2 = aliases.index := by
  have found {index : Nat} {part : String} (listed : aliases.parts[index]? = some part) :
      alias? (aliases.parts.map String.toList) index = some part := by
    have some := separable.present part (List.mem_of_getElem? listed)
    simp [alias?, listed, some]
  have missing {index : Nat} (absent : aliases.parts[index]? = none) :
      alias? (aliases.parts.map String.toList) index = none := by
    simp [alias?, absent]
  obtain ⟨value, key, index⟩ := aliases
  cases key with
  | none =>
    cases index with
    | none => exact ⟨found rfl, missing rfl, missing rfl⟩
    | some index => cases separable.keyed rfl
  | some key =>
    cases index with
    | none => exact ⟨found rfl, found rfl, missing rfl⟩
    | some index => exact ⟨found rfl, found rfl, found rfl⟩

end Separable

end Aliases

/-- What is read if the text is cut around the separator. -/
def Aliases.reading (aliases : Aliases) (source : String) : LoopExpression :=
  { source := trim source, value := some aliases.value, key := aliases.key, index := aliases.index }

section Reading

variable {aliases : Aliases} {enclosed : Bool} {source : String}

theorem parse?_of_cut (separable : aliases.Separable)
    (present : ∃ c ∈ source.toList, isSpace c = false) {text : String}
    (cut : (cut? " in ".toList text.toList).or (cut? " of ".toList text.toList) =
      some (aliases.written enclosed, source.toList)) :
    parse? text = some (aliases.reading source) := by
  have some : trimChars source.toList ≠ [] := by
    intro empty
    obtain ⟨c, member, shown⟩ := present
    have kept := filter_strip isSpace source.toList
    rw [show strip isSpace source.toList = [] from empty] at kept
    have absent := List.filter_eq_nil_iff.1 kept.symm c member
    simp [shown] at absent
  obtain ⟨value, key, index⟩ := separable.alias?_parts
  have list : splitAliases (strip (fun c => c = '(' || c = ')')
      (trimChars (aliases.written enclosed))) = aliases.parts.map String.toList :=
    (congrArg splitAliases (separable.strip_written enclosed)).trans separable.splitAliases_listed
  simp only [parse?, cut, list, value, key, index, List.isEmpty_iff, if_neg some]
  rfl

theorem parse?_ne_of_cut {text : String} {left front back : List Char}
    (inside : ' ' :: source.toList = front ++ " in ".toList ++ back)
    (cut : cut? " in ".toList text.toList = some (left, back)) :
    parse? text ≠ some (aliases.reading source) := by
  intro read
  have same : trimChars back = trimChars source.toList := by
    simp only [parse?, cut, Option.some_or] at read
    split at read
    · cases read
    · have equal := congrArg LoopExpression.source (Option.some.inj read)
      exact String.ofList_injective equal
  have kept := (filter_strip isSpace back).symm.trans
    ((congrArg _ same).trans (filter_strip isSpace source.toList))
  have shown := congrArg (List.filter fun c => !isSpace c) inside
  rw [List.filter_cons_of_neg (by decide), List.filter_append, List.filter_append, ← kept,
    show (" in ".toList.filter fun c => !isSpace c) = ['i', 'n'] by decide] at shown
  have := congrArg List.length shown
  simp only [List.length_append, List.length_cons, List.length_nil] at this
  omega

theorem toList_in : " in ".toList = [' ', 'i', 'n', ' '] := rfl

theorem toList_of : " of ".toList = [' ', 'o', 'f', ' '] := rfl

theorem cut?_source (separable : aliases.Separable) (enclosed : Bool) (source : List Char) :
    cut? [' ', 'i', 'n', ' '] (aliases.written enclosed ++ [' ', 'o', 'f', ' '] ++ source) =
      (cut? [' ', 'i', 'n', ' '] (' ' :: source)).map fun halves =>
        (aliases.written enclosed ++ [' ', 'o', 'f'] ++ halves.1, halves.2) := by
  have among := separable.apart_written enclosed (List.mem_cons_self : " in " ∈ _)
  have absent : ¬ [' ', 'i', 'n', ' '] <:+:
      ' ' :: (aliases.written enclosed ++ [' ', 'o', 'f'] ++ [' ']) := by
    intro occurs
    have around : ' ' :: (aliases.written enclosed ++ [' ', 'o', 'f'] ++ [' ']) =
        ' ' :: (aliases.written enclosed ++ [' ']) ++ 'o' :: ['f', ' '] := by simp
    rw [around] at occurs
    rcases infix_around (by decide) occurs with within | behind
    · exact among within
    · exact absurd behind.length_le (by decide)
  have cut := @cut?_spaced _ source 'i' 'n' (by decide) (by decide) absent
  simpa using cut

/-- The aliases of a loop and its source are read back, unless the source itself is cut. -/
theorem reads_written (separable : aliases.Separable)
    (present : ∃ c ∈ source.toList, isSpace c = false) (enclosed : Bool) {separator : String}
    (either : separator ∈ ["in", "of"]) :
    parse? (String.ofList (aliases.written enclosed) ++ " " ++ separator ++ " " ++ source) =
        some (aliases.reading source) ↔
      (separator = "of" → ¬ " in ".toList <:+: ' ' :: source.toList) := by
  have chars : (String.ofList (aliases.written enclosed) ++ " " ++ separator ++ " " ++ source).toList =
      aliases.written enclosed ++ (' ' :: separator.toList ++ [' ']) ++ source.toList := by simp
  simp only [List.mem_cons, List.not_mem_nil, or_false] at either
  rcases either with rfl | rfl
  · have among := separable.apart_written enclosed (List.mem_cons_self : " in " ∈ _)
    have own := @cut?_own _ source.toList 'i' 'n' (by decide) (by decide) among
    refine iff_of_true (@parse?_of_cut _ enclosed _ separable present _ ?_)
      fun same => absurd same (by decide)
    rw [chars, toList_in]
    exact congrArg (Option.or · _) own
  · have behind := separable.apart_written enclosed (by simp : " of " ∈ _)
    have own := @cut?_own _ source.toList 'o' 'f' (by decide) (by decide) behind
    have other := cut?_source separable enclosed source.toList
    cases inner : cut? [' ', 'i', 'n', ' '] (' ' :: source.toList) with
    | none =>
      have absent := (cut?_eq_none_iff (List.cons_ne_nil _ _)).1 inner
      refine iff_of_true (@parse?_of_cut _ enclosed _ separable present _ ?_) fun _ => absent
      rw [inner] at other
      rw [chars, toList_in, toList_of]
      exact (congrArg (Option.or · _) other).trans own
    | some halves =>
      have inside := eq_append_of_cut? inner
      rw [inner, ← toList_of, ← toList_in] at other
      refine iff_of_false (parse?_ne_of_cut inside ((congrArg _ chars).trans other)) fun absent => ?_
      exact absent rfl ⟨_, _, inside.symm⟩

/-- A pattern with commas, a key and an index. -/
def destructured : Aliases :=
  { value := "{ a, b: [c] }", key := some "k", index := some "i" }

theorem reads_written_destructured :
    destructured.Separable ∧ (∃ c ∈ "x of (y, z) ".toList, isSpace c = false) ∧
      "of" ∈ ["in", "of"] ∧ ¬ " in ".toList <:+: ' ' :: "x of (y, z) ".toList ∧
      parse? (String.ofList (destructured.written true) ++ " " ++ "of" ++ " " ++ "x of (y, z) ") =
        some (destructured.reading "x of (y, z) ") := by
  have others : ∀ part ∈ ["k", "i"],
      part.toList.all (fun c => c ∉ [',', '(', ')', '}', ']']) = true := by decide +kernel
  have separable : destructured.Separable := by
    refine ⟨.inr ⟨'}', by decide +kernel, by decide⟩,
      fun part member => List.all_iff_forall_prop.1 (others part member), fun _ => rfl,
      ?_, ?_, ?_, ?_⟩ <;> decide +kernel
  have present : ∃ c ∈ "x of (y, z) ".toList, isSpace c = false :=
    ⟨'x', by decide +kernel, by decide⟩
  have uncut : ¬ " in ".toList <:+: ' ' :: "x of (y, z) ".toList := by decide +kernel
  have either : "of" ∈ ["in", "of"] := by decide
  exact ⟨separable, present, either, uncut,
    (reads_written separable present true either).2 fun _ => uncut⟩

/-- The ` in ` of an expression in the source is taken for the separator. -/
theorem splits_inside_source :
    Aliases.Separable { value := "k" } ∧
      (∃ c ∈ "ks.filter(x => x in m)".toList, isSpace c = false) ∧
      parse? (String.ofList (Aliases.written { value := "k" } false) ++ " " ++ "of" ++ " " ++
          "ks.filter(x => x in m)") ≠
        some (Aliases.reading { value := "k" } "ks.filter(x => x in m)") ∧
      parse? "k of ks.filter(x => x in m)" = some
        { source := "m)", value := some "k of ks.filter(x => x", key := none, index := none } := by
  have plain : ∀ c ∈ "k".toList, c ∉ [',', '}', ']'] :=
    List.all_iff_forall_prop.1 (by decide +kernel)
  refine ⟨⟨.inl plain, nofun, nofun, ?_, ?_, ?_, ?_⟩, ⟨'k', by decide +kernel, by decide⟩,
    ?_, ?_⟩ <;> decide +kernel

end Reading

end LoopExpression

end TemplateCompiler
