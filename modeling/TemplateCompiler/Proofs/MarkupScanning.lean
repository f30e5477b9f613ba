import Mathlib.Data.List.DropRight
import TemplateCompiler.Proofs.MarkupPrinting

/-! Reading the spelling of plain markup gives the tokens that spell it, and no problems. Each piece
of markup is read in front of an arbitrary rest; only a text needs a rest that ends it. -/

namespace TemplateCompiler

open Text

namespace Text

/-- A search passes over a text that the first character of the pattern is not in. -/
theorem find?_append {first : Char} {more front : List Char} (absent : first ∉ front)
    (back : List Char) :
    find? (first :: more) (front ++ back) =
      (find? (first :: more) back).map (· + front.length) := by
  induction front with
  | nil => simp
  | cons c front ih =>
    have different : first ≠ c := fun same => absent (by simp [same])
    have later : first ∉ front := fun member => absent (by simp [member])
    simp only [List.cons_append, find?, List.isPrefixOf, beq_iff_eq, different, Bool.and_eq_true,
      false_and, if_false, ih later, Option.map_map]
    congr 1

theorem find?_prefix (pattern back : List Char) : find? pattern (pattern ++ back) = some 0 := by
  have front : pattern.isPrefixOf (pattern ++ back) = true :=
    List.isPrefixOf_iff_prefix.mpr (List.prefix_append pattern back)
  cases whole : pattern ++ back with
  | nil =>
    obtain ⟨rfl, rfl⟩ := List.append_eq_nil_iff.mp whole
    rfl
  | cons c rest =>
    rw [whole] at front
    simp only [find?, front, if_true]

end Text

namespace Cursor

@[simp]
theorem rest_advance (cursor : Cursor) (count : Nat) :
    (cursor.advance count).rest = cursor.rest.drop count := rfl

@[simp]
theorem rest_skipWhile (cursor : Cursor) (p : Char → Bool) :
    (cursor.skipWhile p).rest = cursor.rest.dropWhile p := by
  calc (cursor.skipWhile p).rest
    _ = (cursor.rest.takeWhile p ++ cursor.rest.dropWhile p).drop (cursor.rest.takeWhile p).length := by
      rw [List.takeWhile_append_dropWhile]
      rfl
    _ = cursor.rest.dropWhile p := List.drop_left

end Cursor

namespace Lexer

@[simp]
theorem rest_skipBlanks (cursor : Cursor) :
    (skipBlanks cursor).rest = cursor.rest.dropWhile isBlank :=
  cursor.rest_skipWhile isBlank

theorem dropWhile_isBlank_cons {c : Char} (solid : isBlank c = false) (rest : List Char) :
    (c :: rest).dropWhile isBlank = c :: rest := by
  simp [solid]

theorem peek_of_rest {cursor : Cursor} {front back : List Char}
    (starts : cursor.rest = front ++ back) :
    cursor.peek front.length = String.ofList front := by
  simp [Cursor.peek, starts]

theorem not_isBlank_of_isNameChar {c : Char} (part : isNameChar c = true) :
    isBlank c = false := by
  simp only [isNameChar, Bool.and_eq_true, Bool.not_eq_true'] at part
  exact part.1.1

theorem takeWhile_name {p : Char → Bool} {name back : List Char} (inside : ∀ c ∈ name, p c = true)
    (ends : ∀ c ∈ back.head?, p c = false) : (name ++ back).takeWhile p = name := by
  rw [List.takeWhile_append_of_pos inside]
  cases back with
  | nil => simp
  | cons c rest =>
    have outside : p c = false := ends c (by simp)
    simp [outside]

/-- The scan has the given tokens and meets no problem. -/
structure Yields (scan : Scan) (kinds : List TokenKind) : Prop where
  kinds : scan.pulls.map (·.token.kind) = kinds
  problems : ∀ pull ∈ scan.pulls, pull.problems = []
  ending : scan.ending = .ok []

/-- Wherever `rest` is left among elements, it gives the tokens `kinds`. -/
def Reads (rest : List Char) (kinds : List TokenKind) : Prop :=
  ∀ cursor : Cursor, cursor.rest = rest → Yields (scanFrom {} [] cursor .data) kinds

theorem reads_nil : Reads [] [] := by
  intro cursor ended
  rw [scanFrom]
  simp only [ended, dif_pos]
  exact ⟨rfl, by simp, rfl⟩

/-- A piece of content that gives the tokens `front` without problems, and after which elements are
read. -/
structure Gives (piece : Piece) (front : List TokenKind) (back : List Char) : Prop where
  kinds : piece.pulls.map (·.token.kind) = front
  problems : ∀ pull ∈ piece.pulls, pull.problems = []
  silent : piece.problems = []
  inside : ∀ tag ∈ piece.inside, Tag.textMode tag = .data
  rest : piece.cursor.rest = back

/-- A piece among elements comes in front of what is read behind it. -/
theorem scanFrom_piece {cursor : Cursor} (more : cursor.rest ≠ [])
    (some : (dataPiece Delimiters.standard cursor).pulls ≠ [])
    (silent : (dataPiece Delimiters.standard cursor).problems = [])
    (inside : ∀ tag ∈ (dataPiece Delimiters.standard cursor).inside, Tag.textMode tag = .data) :
    scanFrom {} [] cursor .data =
      ⟨(dataPiece Delimiters.standard cursor).pulls ++
        (scanFrom {} [] (dataPiece Delimiters.standard cursor).cursor .data).pulls,
        (scanFrom {} [] (dataPiece Delimiters.standard cursor).cursor .data).ending⟩ := by
  have stepped : step {} cursor .data = .ok (dataPiece Delimiters.standard cursor, .data) := by
    simp only [step]
    split
    · next tag entered => simp [Mode.inside, inside tag entered]
    · rfl
  rw [scanFrom]
  simp only [more, dif_neg, not_false_eq_true]
  split
  · next failed => simp [stepped] at failed
  · next piece next done =>
    rw [stepped] at done
    cases done
    split
    · next none => exact absurd none some
    · next first others pulls => simp only [pulls, silent, List.nil_append]

theorem reads_piece {rest back : List Char} {front kinds : List TokenKind} (more : rest ≠ [])
    (some : front ≠ [])
    (gives : ∀ cursor : Cursor, cursor.rest = rest →
      Gives (dataPiece Delimiters.standard cursor) front back)
    (reads : Reads back kinds) : Reads rest (front ++ kinds) := by
  intro cursor starts
  obtain ⟨same, clean, silent, inside, behind⟩ := gives cursor starts
  have later := reads _ behind
  have nonempty : (dataPiece Delimiters.standard cursor).pulls ≠ [] := by
    intro none
    rw [none] at same
    exact some same.symm
  rw [scanFrom_piece (starts ▸ more) nonempty silent inside]
  refine ⟨?_, fun pull member => ?_, later.ending⟩
  · rw [List.map_append, same, later.kinds]
  · rcases List.mem_append.mp member with early | late
    · exact clean pull early
    · exact later.problems pull late

/-- A text in front of `rest` ends there: nothing is left, or a tag or an interpolation begins. -/
inductive Stops : List Char → Prop where
  | ended : Stops []
  | tag (rest : List Char) : Stops ('<' :: rest)
  | interpolation (rest : List Char) : Stops ('\x7b' :: '\x7b' :: rest)

theorem opening_standard : Delimiters.standard.opening.toList = ['\x7b', '\x7b'] := by decide

theorem closing_standard : Delimiters.standard.closing.toList = ['\x7d', '\x7d'] := by decide

theorem plainLength_text (words : List Char) {rest : List Char} (noTag : '<' ∉ words)
    (noBrace : '\x7b' ∉ words) (stops : Stops rest) :
    plainLength Delimiters.standard (words ++ rest) = words.length := by
  simp only [plainLength, opening_standard, find?_append noTag, find?_append noBrace]
  cases stops with
  | ended => simp [find?]
  | tag rest =>
    have first : find? ['<'] ('<' :: rest) = some 0 := find?_prefix ['<'] rest
    rw [first]
    cases find? ['\x7b', '\x7b'] ('<' :: rest) with
    | none => simp
    | some index => simp
  | interpolation rest =>
    have first : find? ['\x7b', '\x7b'] ('\x7b' :: '\x7b' :: rest) = some 0 :=
      find?_prefix ['\x7b', '\x7b'] rest
    rw [first]
    cases find? ['<'] ('\x7b' :: '\x7b' :: rest) with
    | none => simp
    | some index => simp

theorem gives_text {words : String} {rest : List Char} (plain : Markup.isPlainText words = true)
    (stops : Stops rest) {cursor : Cursor} (starts : cursor.rest = words.toList ++ rest) :
    Gives (dataPiece Delimiters.standard cursor) (Markup.text words).kinds rest := by
  simp only [Markup.isPlainText, Bool.and_eq_true, Bool.not_eq_true', List.all_eq_true,
    bne_iff_ne, ne_eq] at plain
  obtain ⟨nonempty, chars⟩ := plain
  have noTag : '<' ∉ words.toList := fun member => (chars _ member).1.1 rfl
  have noBrace : '\x7b' ∉ words.toList := fun member => (chars _ member).1.2 rfl
  have noNull : '\x00' ∉ words.toList := fun member => (chars _ member).2 rfl
  have length : plainLength Delimiters.standard cursor.rest = words.toList.length := by
    rw [starts]
    exact plainLength_text _ noTag noBrace stops
  have some : words.toList.length ≠ 0 := by
    intro zero
    rw [String.toList_eq_nil_iff.mp (List.length_eq_zero_iff.mp zero)] at nonempty
    simp at nonempty
  have raw : cursor.peek words.toList.length = words := by
    rw [peek_of_rest starts, String.ofList_toList]
  simp only [dataPiece, length, some, ne_eq, not_false_eq_true, if_true, textPiece, raw,
    Piece.single]
  refine ⟨rfl, ?_, rfl, by simp, by simp [starts]⟩
  intro pull member
  rw [List.mem_singleton.mp member]
  simp [noNull]

theorem reads_text {words : String} {rest : List Char} {kinds : List TokenKind}
    (plain : Markup.isPlainText words = true) (stops : Stops rest) (reads : Reads rest kinds) :
    Reads (words.toList ++ rest) ((Markup.text words).kinds ++ kinds) := by
  apply reads_piece _ (by simp [Markup.kinds]) (fun cursor => gives_text plain stops) reads
  intro empty
  simp only [Markup.isPlainText, Bool.and_eq_true, Bool.not_eq_true'] at plain
  rw [String.toList_eq_nil_iff.mp (List.append_eq_nil_iff.mp empty).1] at plain
  simp at plain

theorem gives_interpolation {source : String} {rest : List Char} (plain : '\x7d' ∉ source.toList)
    {cursor : Cursor}
    (starts : cursor.rest = (Markup.interpolation source).print ++ rest) :
    Gives (dataPiece Delimiters.standard cursor) (Markup.interpolation source).kinds rest := by
  have shape : cursor.rest =
      ['\x7b', '\x7b'] ++ (source.toList ++ (['\x7d', '\x7d'] ++ rest)) := by
    simp [starts, Markup.print]
  have length : plainLength Delimiters.standard cursor.rest = 0 := by
    simp only [plainLength, opening_standard]
    rw [shape, find?_prefix]
    cases find? ['<'] (['\x7b', '\x7b'] ++ (source.toList ++ (['\x7d', '\x7d'] ++ rest))) with
    | none => rfl
    | some index => simp
  have opened : startsWith Delimiters.standard.opening cursor = true := by
    simp [startsWith, opening_standard, shape]
  have inside : (cursor.advance 2).rest = source.toList ++ (['\x7d', '\x7d'] ++ rest) := by
    simp [shape]
  have closed : find? ['\x7d', '\x7d'] (cursor.advance 2).rest = some source.toList.length := by
    rw [inside, find?_append plain, find?_prefix]
    simp
  have raw : (cursor.advance 2).peek source.toList.length = source := by
    rw [peek_of_rest inside, String.ofList_toList]
  simp only [dataPiece, length, opened, ne_eq, not_true_eq_false, if_false, if_true, interpolation,
    opening_standard, closing_standard, List.length_cons, List.length_nil, Nat.zero_add,
    Nat.reduceAdd, closed, raw, Piece.single]
  refine ⟨rfl, by simp, rfl, by simp, ?_⟩
  rw [Cursor.rest_advance, inside, ← List.append_assoc]
  exact List.drop_left' (by simp)

/-- What may follow an attribute or the name of a tag: a blank or the end of the tag. -/
def Breaks (tail : List Char) : Prop :=
  ∃ rest, tail = ' ' :: rest ∨ tail = '>' :: rest

theorem Breaks.not_isNameChar {tail : List Char} (breaks : Breaks tail) :
    ∀ c ∈ tail.head?, isNameChar c = false := by
  obtain ⟨rest, rfl | rfl⟩ := breaks
  all_goals
    intro c first
    cases Option.mem_some.mp first
    decide

theorem attributeNameLength_plain {first : Char} {more back : List Char}
    (plain : ∀ c ∈ first :: more, MarkupAttribute.isNameChar c = true)
    (ends : ∀ c ∈ back.head?, (isNameChar c && c != '=') = false) :
    attributeNameLength (first :: more ++ back) = (first :: more).length := by
  have noEquals : first ≠ '=' := by
    intro same
    subst same
    exact absurd (plain '=' (by simp)) (by decide)
  have inside : ∀ c ∈ more, (isNameChar c && c != '=') = true := by
    intro c member
    have part := plain c (by simp [member])
    simp only [MarkupAttribute.isNameChar, Bool.and_eq_true] at part ⊢
    exact ⟨part.1.1.1.1, part.1.1.1.2⟩
  unfold attributeNameLength
  split
  · next rest same => exact absurd (List.cons.inj same).1 noEquals
  · simp only [List.cons_append, List.tail_cons, takeWhile_name inside ends, List.length_cons]
    omega

theorem attributeNameProblems_plain {name : String} {start : Position} {behind : Cursor}
    (plain : ∀ c ∈ name.toList, MarkupAttribute.isNameChar c = true) :
    attributeNameProblems name start behind = [] := by
  have noEquals : (name == "=") = false := by
    rw [beq_eq_false_iff_ne]
    intro same
    subst same
    exact absurd (plain '=' (by simp)) (by decide)
  have fine : (name.toList.any fun c => c = '<' || c = '"' || c = '\'') = false := by
    rw [List.any_eq_false]
    intro c member
    have part := plain c member
    simp only [MarkupAttribute.isNameChar, Bool.and_eq_true, bne_iff_ne, ne_eq] at part
    simp [part.1.1.2, part.1.2, part.2]
  simp [attributeNameProblems, noEquals, fine]

theorem afterQuotedValue_breaks {tail : List Char} (breaks : Breaks tail) (token : Token)
    {cursor : Cursor} (starts : cursor.rest = tail) :
    (afterQuotedValue token cursor).token = some token ∧
      (afterQuotedValue token cursor).problems = [] ∧
      (skipBlanks (afterQuotedValue token cursor).cursor).rest = tail.dropWhile isBlank := by
  obtain ⟨rest, rfl | rfl⟩ := breaks
  · have going : (atTagEnd cursor || startsWith "/" cursor) = false := by
      simp [atTagEnd, Cursor.atEnd, startsWith, starts, List.isPrefixOf]
    have blank : isBlank ' ' = true := by decide
    have shorter : (rest.dropWhile isBlank).length ≠ rest.length + 1 := by
      have := (List.dropWhile_suffix isBlank (l := rest)).length_le
      omega
    simp only [afterQuotedValue, going, Bool.false_eq_true, if_false, rest_skipBlanks, starts,
      List.dropWhile_cons_of_pos blank, List.length_cons, shorter, List.dropWhile_idempotent,
      and_self]
  · have ended : atTagEnd cursor = true := by
      simp [atTagEnd, Cursor.atEnd, startsWith, starts]
    simp only [afterQuotedValue, ended, Bool.true_or, if_true, rest_skipBlanks, starts, and_self]

theorem attributeValue_quoted {value : String} {tail : List Char} (plain : '"' ∉ value.toList)
    (breaks : Breaks tail) {cursor : Cursor}
    (starts : cursor.rest = '"' :: value.toList ++ '"' :: tail) :
    (∃ span, (attributeValue cursor).token =
      some ⟨.attrValue ((Phrase.mk value {}).decoded true), span⟩) ∧
      (attributeValue cursor).problems = [] ∧
      (skipBlanks (attributeValue cursor).cursor).rest = tail.dropWhile isBlank := by
  have inside : (cursor.advance 1).rest = value.toList ++ ('"' :: tail) := by simp [starts]
  have closed : find? ['"'] (cursor.advance 1).rest = some value.toList.length := by
    rw [inside, find?_append plain]
    have first : find? ['"'] ('"' :: tail) = some 0 := find?_prefix ['"'] tail
    simp [first]
  have raw : (cursor.advance 1).peek value.toList.length = value := by
    rw [peek_of_rest inside, String.ofList_toList]
  have behind : ((cursor.advance 1).advance (value.toList.length + 1)).rest = tail := by
    rw [Cursor.rest_advance, inside, List.append_cons]
    exact List.drop_left' (by simp)
  have quoted : attributeValue cursor =
      afterQuotedValue (valueToken (cursor.advance 1) value.toList.length)
        ((cursor.advance 1).advance (value.toList.length + 1)) := by
    simp only [attributeValue, starts, List.cons_append]
    rw [if_neg (by decide), if_pos (by decide)]
    simp only [quotedValue, closed]
  obtain ⟨token, problems, rest⟩ := afterQuotedValue_breaks breaks
    (valueToken (cursor.advance 1) value.toList.length) behind
  rw [quoted]
  refine ⟨⟨((cursor.advance 1).advance value.toList.length).spanFrom (cursor.advance 1).position,
    token.trans ?_⟩, problems, rest⟩
  rw [valueToken, raw]

structure ReadsAttribute (given : MarkupAttribute) (read : ReadAttribute) (tail : List Char) :
    Prop where
  kinds : read.name.kind :: read.value.toList.map (·.kind) = given.kinds
  problems : read.problems = []
  rest : (skipBlanks read.cursor).rest = tail.dropWhile isBlank

theorem readAttribute_named {name : String} {back : List Char} (nonempty : name ≠ "")
    (plain : ∀ c ∈ name.toList, MarkupAttribute.isNameChar c = true)
    (ends : ∀ c ∈ back.head?, (isNameChar c && c != '=') = false) {cursor : Cursor}
    (starts : cursor.rest = name.toList ++ back) :
    ∃ span behind, behind.rest = back ∧
      readAttribute cursor =
        match (skipBlanks behind).rest with
        | '=' :: _ =>
          let value := attributeValue (skipBlanks ((skipBlanks behind).advance 1))
          ⟨⟨.attrName name, span⟩, value.token, value.problems, value.cursor⟩
        | _ => ⟨⟨.attrName name, span⟩, none, [], skipBlanks behind⟩ := by
  have length : attributeNameLength cursor.rest = name.toList.length := by
    rw [starts]
    cases spelled : name.toList with
    | nil => exact absurd (String.toList_eq_nil_iff.mp spelled) nonempty
    | cons first more => exact attributeNameLength_plain (spelled ▸ plain) ends
  have raw : cursor.peek name.toList.length = name := by
    rw [peek_of_rest starts, String.ofList_toList]
  refine ⟨(cursor.advance name.toList.length).spanFrom cursor.position,
    cursor.advance name.toList.length, ?_, ?_⟩
  · rw [Cursor.rest_advance, starts]
    exact List.drop_left
  · dsimp only [readAttribute]
    rw [length, raw, attributeNameProblems_plain plain]
    rfl

theorem readAttribute_plain {given : MarkupAttribute} {tail : List Char}
    (plain : given.isPlain = true) (breaks : Breaks tail)
    (noEquals : (tail.dropWhile isBlank).head? ≠ some '=') {cursor : Cursor}
    (starts : ' ' :: cursor.rest = given.print ++ tail) :
    ReadsAttribute given (readAttribute cursor) tail := by
  simp only [MarkupAttribute.isPlain, Bool.and_eq_true, Bool.not_eq_true', List.all_eq_true]
    at plain
  obtain ⟨⟨⟨nonempty, -⟩, chars⟩, value⟩ := plain
  have nonempty : given.name ≠ "" := by
    intro empty
    simp [empty] at nonempty
  cases written : given.value with
  | none =>
    have shape : cursor.rest = given.name.toList ++ tail := by
      simpa [MarkupAttribute.print, written] using starts
    have ends : ∀ c ∈ tail.head?, (isNameChar c && c != '=') = false := by
      intro c member
      simp [breaks.not_isNameChar c member]
    obtain ⟨span, behind, rest, read⟩ := readAttribute_named nonempty chars ends shape
    rw [read]
    split
    · next more equals =>
      rw [rest_skipBlanks, rest] at equals
      simp [equals] at noEquals
    · refine ⟨by simp [MarkupAttribute.kinds, written], rfl, ?_⟩
      simp only [rest_skipBlanks, rest, List.dropWhile_idempotent]
  | some spelled =>
    have shape : cursor.rest =
        given.name.toList ++ ('=' :: '"' :: spelled.toList ++ '"' :: tail) := by
      simpa [MarkupAttribute.print, written] using starts
    have ends : ∀ c ∈ ('=' :: '"' :: spelled.toList ++ '"' :: tail).head?,
        (isNameChar c && c != '=') = false := by
      intro c member
      cases Option.mem_some.mp member
      decide
    obtain ⟨span, behind, rest, read⟩ := readAttribute_named nonempty chars ends shape
    have noQuote : '"' ∉ spelled.toList := by
      simpa [written] using value
    have next : (skipBlanks behind).rest = '=' :: '"' :: spelled.toList ++ '"' :: tail := by
      rw [rest_skipBlanks, rest]
      exact dropWhile_isBlank_cons (by decide) _
    have opened : (skipBlanks ((skipBlanks behind).advance 1)).rest =
        '"' :: spelled.toList ++ '"' :: tail := by
      rw [rest_skipBlanks, Cursor.rest_advance, next]
      exact dropWhile_isBlank_cons (by decide) _
    obtain ⟨⟨valueSpan, token⟩, problems, after⟩ := attributeValue_quoted noQuote breaks opened
    rw [read]
    split
    · refine ⟨?_, problems, after⟩
      simp only [token, MarkupAttribute.kinds, written, Option.toList_some, List.map_cons,
        List.map_nil, Option.map_some]
    · next other => exact absurd next (other _)

/-- What follows the name of a start tag. -/
def tagTail (attributes : List MarkupAttribute) (rest : List Char) : List Char :=
  attributes.flatMap MarkupAttribute.print ++ '>' :: rest

theorem breaks_tagTail (attributes : List MarkupAttribute) (rest : List Char) :
    Breaks (tagTail attributes rest) := by
  cases attributes with
  | nil => exact ⟨rest, .inr rfl⟩
  | cons given others => exact ⟨_, .inl rfl⟩

theorem dropWhile_tagTail_cons {given : MarkupAttribute} (plain : given.isPlain = true)
    (others : List MarkupAttribute) (rest : List Char) :
    ∃ c more, MarkupAttribute.isNameChar c = true ∧
      (tagTail (given :: others) rest).dropWhile isBlank = c :: more ∧
      ' ' :: c :: more = given.print ++ tagTail others rest := by
  simp only [MarkupAttribute.isPlain, Bool.and_eq_true, Bool.not_eq_true', List.all_eq_true]
    at plain
  obtain ⟨⟨⟨nonempty, -⟩, chars⟩, -⟩ := plain
  cases spelled : given.name.toList with
  | nil =>
    rw [String.toList_eq_nil_iff.mp spelled] at nonempty
    simp at nonempty
  | cons c name =>
    have part := chars c (by simp [spelled])
    have solid : isBlank c = false := by
      simp only [MarkupAttribute.isNameChar, Bool.and_eq_true] at part
      exact not_isBlank_of_isNameChar part.1.1.1.1
    have blank : isBlank ' ' = true := by decide
    simp only [tagTail, List.flatMap_cons, MarkupAttribute.print, spelled, List.cons_append,
      List.append_assoc, List.dropWhile_cons_of_pos blank, dropWhile_isBlank_cons solid]
    exact ⟨c, _, part, rfl, rfl⟩

structure ReadsTagRest (attributes : List MarkupAttribute) (read : StartTagRest)
    (rest : List Char) : Prop where
  kinds : read.pulls.map (·.token.kind) =
    attributes.flatMap MarkupAttribute.kinds ++ [.tagEnd false]
  problems : ∀ pull ∈ read.pulls, pull.problems = []
  rest : read.cursor.rest = rest

theorem startTagRest_plain {attributes : List MarkupAttribute} {rest : List Char}
    (plain : ∀ given ∈ attributes, given.isPlain = true) {cursor : Cursor}
    (starts : cursor.rest = (tagTail attributes rest).dropWhile isBlank) :
    ReadsTagRest attributes (startTagRest [] cursor) rest := by
  induction attributes generalizing cursor with
  | nil =>
    have ends : cursor.rest = '>' :: rest := starts
    rw [startTagRest]
    simp only [ends, startsWith, reduceCtorEq, dif_neg, not_false_eq_true]
    rw [if_neg (by simp [List.isPrefixOf]), if_pos (by simp)]
    exact ⟨rfl, by simp, by simp [ends]⟩
  | cons given others ih =>
    obtain ⟨c, more, part, drops, spelled⟩ :=
      dropWhile_tagTail_cons (plain given (by simp)) others rest
    have shape : cursor.rest = c :: more := starts.trans drops
    have later : ∀ other ∈ others, other.isPlain = true :=
      fun other member => plain other (by simp [member])
    have noEquals : ((tagTail others rest).dropWhile isBlank).head? ≠ some '=' := by
      cases others with
      | nil => simp [tagTail, isBlank]
      | cons next _ =>
        obtain ⟨d, _, other, nextDrops, -⟩ :=
          dropWhile_tagTail_cons (later next (by simp)) _ rest
        rw [nextDrops]
        intro same
        cases Option.some.inj same
        exact absurd other (by decide)
    have read := readAttribute_plain (plain given (by simp)) (breaks_tagTail others rest) noEquals
      (shape ▸ spelled)
    have below := ih later read.rest
    have name : isNameChar c = true := by
      simp only [MarkupAttribute.isNameChar, Bool.and_eq_true] at part
      exact part.1.1.1.1
    simp only [isNameChar, Bool.and_eq_true, bne_iff_ne, ne_eq] at name
    have noSlash : startsWith "/>" cursor = false ∧ startsWith "/" cursor = false ∧
        startsWith ">" cursor = false := by
      simp [startsWith, shape, List.isPrefixOf, Ne.symm name.1.2, Ne.symm name.2]
    rw [startTagRest]
    simp only [shape, reduceCtorEq, dif_neg, not_false_eq_true, noSlash, Bool.false_eq_true,
      if_false, List.nil_append]
    refine ⟨?_, ?_, below.rest⟩
    · simp only [List.cons_append, List.map_cons, List.map_append, List.map_map, below.kinds,
        List.flatMap_cons, ← read.kinds, List.append_assoc]
      rfl
    · intro pull member
      simp only [List.cons_append, List.mem_cons, List.mem_append, List.mem_map] at member
      obtain rfl | ⟨token, -, rfl⟩ | inside := member
      · exact read.problems
      · rfl
      · exact below.problems pull inside

theorem plainTag_head {tag : String} (plain : Markup.isPlainTag tag = true) :
    ∃ c more, tag.toList = c :: more ∧ c.isAlpha = true := by
  simp only [Markup.isPlainTag, Bool.and_eq_true] at plain
  cases spelled : tag.toList with
  | nil => simp [spelled] at plain
  | cons c more => exact ⟨c, more, rfl, by simpa [spelled] using plain.1.1.1.1⟩

theorem plainTag_chars {tag : String} (plain : Markup.isPlainTag tag = true) :
    ∀ c ∈ tag.toList, isNameChar c = true := by
  simp only [Markup.isPlainTag, Bool.and_eq_true, List.all_eq_true] at plain
  exact plain.1.1.1.2

theorem plainTag_textMode {tag : String} (plain : Markup.isPlainTag tag = true) :
    Tag.textMode tag = .data := by
  simp only [Markup.isPlainTag, Bool.and_eq_true, beq_iff_eq] at plain
  exact plain.2

theorem tagNameLength_plain {tag : String} {back : List Char}
    (plain : Markup.isPlainTag tag = true) (breaks : Breaks back) :
    tagNameLength (tag.toList ++ back) = tag.toList.length := by
  rw [tagNameLength, takeWhile_name (plainTag_chars plain) breaks.not_isNameChar]

/-- Among elements, what begins with `<` is no text. -/
theorem dataPiece_markup {cursor : Cursor} {rest : List Char} (starts : cursor.rest = '<' :: rest) :
    dataPiece Delimiters.standard cursor = markup cursor := by
  have length : plainLength Delimiters.standard cursor.rest = 0 :=
    starts ▸ plainLength_text [] (by simp) (by simp) (.tag rest)
  have unopened : startsWith Delimiters.standard.opening cursor = false := by
    simp [startsWith, opening_standard, starts, List.isPrefixOf]
  simp [dataPiece, length, unopened]

theorem markup_startTag {cursor : Cursor} {c : Char} {rest : List Char} (letter : c.isAlpha = true)
    (starts : cursor.rest = '<' :: c :: rest) : markup cursor = startTag cursor := by
  -- The rows of the match above the last one are excluded by these three.
  have noSlash : c ≠ '/' := by
    intro same
    subst same
    simp at letter
  have noBang : c ≠ '!' := by
    intro same
    subst same
    simp at letter
  have noQuestion : c ≠ '?' := by
    intro same
    subst same
    simp at letter
  simp [markup, starts, letter, noSlash]

theorem markup_endTag {cursor : Cursor} {c : Char} {rest : List Char} (letter : c.isAlpha = true)
    (starts : cursor.rest = '<' :: '/' :: c :: rest) : markup cursor = endTag cursor := by
  have noAngle : c ≠ '>' := by
    intro same
    subst same
    simp at letter
  simp [markup, starts, letter]

theorem gives_startTag {tag : String} {attributes : List MarkupAttribute} {rest : List Char}
    (plain : Markup.isPlainTag tag = true) (given : ∀ each ∈ attributes, each.isPlain = true)
    {cursor : Cursor} (starts : cursor.rest = '<' :: (tag.toList ++ tagTail attributes rest)) :
    Gives (dataPiece Delimiters.standard cursor)
      (.tagOpen tag :: attributes.flatMap MarkupAttribute.kinds ++ [.tagEnd false]) rest := by
  obtain ⟨c, more, spelled, letter⟩ := plainTag_head plain
  have named : (cursor.advance 1).rest = tag.toList ++ tagTail attributes rest := by simp [starts]
  have length : tagNameLength (cursor.advance 1).rest = tag.toList.length := by
    rw [named]
    exact tagNameLength_plain plain (breaks_tagTail attributes rest)
  have raw : (cursor.advance 1).peek tag.toList.length = tag := by
    rw [peek_of_rest named, String.ofList_toList]
  have behind : (skipBlanks ((cursor.advance 1).advance tag.toList.length)).rest =
      (tagTail attributes rest).dropWhile isBlank := by
    rw [rest_skipBlanks, Cursor.rest_advance, named, List.drop_left]
  have read := startTagRest_plain given behind
  rw [dataPiece_markup starts, markup_startTag letter (starts.trans (by rw [spelled]; rfl))]
  simp only [startTag, length, raw]
  refine ⟨?_, ?_, rfl, ?_, read.rest⟩
  · simp only [List.map_cons, read.kinds, List.cons_append]
  · intro pull member
    rcases List.mem_cons.mp member with rfl | inside
    · rfl
    · exact read.problems pull inside
  · intro entered member
    split at member
    · cases Option.mem_some.mp member
      exact plainTag_textMode plain
    · simp at member

theorem gives_endTag {tag : String} {rest : List Char} (plain : Markup.isPlainTag tag = true)
    {cursor : Cursor} (starts : cursor.rest = '<' :: '/' :: (tag.toList ++ '>' :: rest)) :
    Gives (dataPiece Delimiters.standard cursor) [.tagClose tag] rest := by
  obtain ⟨c, more, spelled, letter⟩ := plainTag_head plain
  have named : (cursor.advance 2).rest = tag.toList ++ '>' :: rest := by simp [starts]
  have length : tagNameLength (cursor.advance 2).rest = tag.toList.length := by
    rw [named]
    exact tagNameLength_plain plain ⟨rest, .inr rfl⟩
  have raw : (cursor.advance 2).peek tag.toList.length = tag := by
    rw [peek_of_rest named, String.ofList_toList]
  have behind : (skipBlanks ((cursor.advance 2).advance tag.toList.length)).rest = '>' :: rest := by
    rw [rest_skipBlanks, Cursor.rest_advance, named, List.drop_left]
    exact dropWhile_isBlank_cons (by decide) rest
  have ended : atTagEnd (skipBlanks ((cursor.advance 2).advance tag.toList.length)) = true := by
    simp only [atTagEnd, Cursor.atEnd, startsWith, behind]
    simp
  have unslashed :
      startsWith "/>" (skipBlanks ((cursor.advance 2).advance tag.toList.length)) = false := by
    simp only [startsWith, behind]
    simp [List.isPrefixOf]
  rw [dataPiece_markup starts, markup_endTag letter (starts.trans (by rw [spelled]; rfl))]
  simp only [endTag, length, raw]
  rw [endTagRest, dif_pos ended]
  simp only [closeEndTag, Cursor.atEnd, behind, unslashed, Piece.single, List.isEmpty_cons,
    Bool.false_eq_true, if_false, List.append_nil]
  refine ⟨rfl, by simp, rfl, by simp, ?_⟩
  rw [Cursor.rest_advance, behind]
  rfl

theorem stops_print {markup : Markup} (solid : markup.isText = false) (rest : List Char) :
    Stops (markup.print ++ rest) := by
  cases markup with
  | element tag attributes children =>
    simp only [Markup.print, List.cons_append]
    exact .tag _
  | text words => simp [Markup.isText] at solid
  | interpolation source => exact .interpolation _

mutual

theorem reads_print (markup : Markup) (plain : markup.isPlain = true) {rest : List Char}
    {kinds : List TokenKind} (stops : markup.isText = true → Stops rest) (reads : Reads rest kinds) :
    Reads (markup.print ++ rest) (markup.kinds ++ kinds) := by
  match markup with
  | .text words => exact reads_text plain (stops rfl) reads
  | .interpolation source =>
    have absent : '\x7d' ∉ source.toList := by simpa [Markup.isPlain] using plain
    exact reads_piece (by simp [Markup.print]) (by simp [Markup.kinds])
      (fun cursor => gives_interpolation absent) reads
  | .element tag attributes children =>
    simp only [Markup.isPlain, Bool.and_eq_true, List.all_eq_true] at plain
    obtain ⟨⟨⟨⟨named, given⟩, -⟩, -⟩, below⟩ := plain
    have closing : Reads ('<' :: '/' :: (tag.toList ++ '>' :: rest)) ([.tagClose tag] ++ kinds) :=
      reads_piece (by simp) (by simp) (fun cursor => gives_endTag named) reads
    have inside := reads_printAll children below (.tag _) closing
    have whole := reads_piece (by simp) (by simp) (fun cursor => gives_startTag named given) inside
    simpa [Markup.print, Markup.kinds, tagTail] using whole

theorem reads_printAll (forest : List Markup) (plain : Markup.isPlainAll forest = true)
    {rest : List Char} {kinds : List TokenKind} (stops : Stops rest) (reads : Reads rest kinds) :
    Reads (Markup.printAll forest ++ rest) (Markup.kindsAll forest ++ kinds) := by
  match forest with
  | [] => exact reads
  | markup :: others =>
    simp only [Markup.isPlainAll, Bool.and_eq_true, Bool.not_eq_true', Bool.and_eq_false_iff]
      at plain
    obtain ⟨⟨first, apart⟩, later⟩ := plain
    have below := reads_printAll others later stops reads
    have ends : markup.isText = true → Stops (Markup.printAll others ++ rest) := by
      intro isText
      cases others with
      | nil => exact stops
      | cons next more =>
        have solid : next.isText = false := by simpa [isText] using apart
        simpa [Markup.printAll] using stops_print solid (Markup.printAll more ++ rest)
    simpa [Markup.printAll, Markup.kindsAll] using reads_print markup first ends below

end

end Lexer

/-- The spelling of plain markup has the tokens of the markup, and nothing is wrong with it. -/
theorem scan_printAll (forest : List Markup) (plain : Markup.isPlainAll forest = true) :
    Lexer.Yields (scan {} (String.ofList (Markup.printAll forest))) (Markup.kindsAll forest) := by
  have reads := Lexer.reads_printAll forest plain .ended Lexer.reads_nil
  simp only [List.append_nil] at reads
  exact reads _ (by simp [Cursor.ofString])

end TemplateCompiler
