import TemplateCompiler.Proofs.RawTextEnd
import TemplateCompiler.Proofs.Runs
import TemplateCompiler.Token.Scanner

/-! Runs of a scanner, and the moves that it makes. As long as it moves by whole characters that are
there, it moves as a cursor does: no slice is out of range, and the place is counted right. -/

namespace TemplateCompiler

open Text

namespace Text

variable {text front back : List Char}

theorem splitAt_append (front back : List Char) :
    splitAt (front ++ back) (byteLength front) = .ok (front, back) := by
  have fits := Lexer.splitBytes_fits (byteLength front) (front ++ back)
  unfold splitAt
  cases split : Lexer.splitBytes (byteLength front) (front ++ back) with
  | tooShort =>
    rw [split, Lexer.ByteSplit.Fits, byteLength_append] at fits
    omega
  | insideCharacter =>
    rw [split] at fits
    exact absurd ⟨front, back, rfl, rfl⟩ fits.2
  | split first second =>
    rw [split] at fits
    obtain ⟨rfl, rfl⟩ := split_unique fits.1 fits.2.symm
    rfl

theorem sliceFrom_append (front back : List Char) :
    sliceFrom (front ++ back) (byteLength front) = .ok back := by
  rw [sliceFrom, splitAt_append]
  rfl

theorem splitAt_take (text : List Char) (count : Nat) :
    splitAt text (byteLength (text.take count)) = .ok (text.take count, text.drop count) := by
  have whole := splitAt_append (text.take count) (text.drop count)
  rwa [List.take_append_drop] at whole

theorem sliceTo_take (text : List Char) (count : Nat) :
    sliceTo text (byteLength (text.take count)) = .ok (text.take count) := by
  rw [sliceTo, splitAt_take]
  rfl

theorem sliceFrom_take (text : List Char) (count : Nat) :
    sliceFrom text (byteLength (text.take count)) = .ok (text.drop count) := by
  rw [sliceFrom, splitAt_take]
  rfl

theorem lastFeed?_cases (text : List Char) :
    (lastFeed? text = none ∧ '\n' ∉ text) ∨
      ∃ before behind, lastFeed? text = some (byteLength before) ∧
        text = before ++ '\n' :: behind ∧ '\n' ∉ behind := by
  unfold lastFeed?
  induction text with
  | nil => exact .inl ⟨rfl, by simp⟩
  | cons c rest ih =>
    rcases ih with ⟨none, absent⟩ | ⟨before, behind, found, whole, absent⟩
    · rw [Option.map_eq_none_iff] at none
      rw [cutLast?, none]
      dsimp only
      split
      · next feed => exact .inr ⟨[], rest, rfl, by rw [feed]; rfl, absent⟩
      · next other => exact .inl ⟨rfl, by simp [absent, Ne.symm other]⟩
    · obtain ⟨⟨first, second⟩, cut, bytes⟩ := Option.map_eq_some_iff.1 found
      have same : byteLength first = byteLength before := bytes
      rw [cutLast?, cut]
      refine .inr ⟨c :: before, behind, ?_, by rw [whole]; rfl, absent⟩
      simp [same]

end Text

namespace Lexer

theorem isNameChar_of_isAlpha {c : Char} (letter : c.isAlpha = true) : isNameChar c = true := by
  have differs : ∀ other : Char, other.isAlpha = false → c ≠ other := by
    rintro other plain rfl
    rw [letter] at plain
    cases plain
  simp [isNameChar, isBlank, differs]

end Lexer

namespace Position

theorem advance_of_plain (position : Position) {text : List Char} (plain : '\n' ∉ text) :
    position.advance text =
      ⟨position.offset + byteLength text, position.line, position.column + text.length⟩ := by
  induction text generalizing position with
  | nil => rfl
  | cons c rest ih =>
    rw [List.mem_cons, not_or] at plain
    rw [advance_cons, ih _ plain.2, step, if_neg (Ne.symm plain.1)]
    simp only [byteLength_cons, List.length_cons, mk.injEq, true_and]
    omega

theorem line_advance (position : Position) (text : List Char) :
    (position.advance text).line = position.line + text.count '\n' := by
  induction text generalizing position with
  | nil => rfl
  | cons c rest ih =>
    rw [advance_cons, ih, step, List.count_cons]
    split
    · next feed => simp [feed, Nat.add_comm, Nat.add_left_comm]
    · next other => simp [other]

/-- Counting the line feeds and the characters behind the last one comes to the same place as
reading character by character. -/
theorem moveBy_eq (position : Position) (text : List Char) :
    position.moveBy (byteLength text) text = .ok (position.advance text) := by
  unfold moveBy
  rcases lastFeed?_cases text with ⟨none, absent⟩ | ⟨before, behind, found, whole, absent⟩
  · rw [none, advance_of_plain position absent]
  · have feed : (before ++ ['\n']) ++ behind = text := by simp [whole]
    have bytes : byteLength before + 1 = byteLength (before ++ ['\n']) := by
      simp [show '\n'.utf8Size = 1 from rfl]
    have line : sliceFrom text (byteLength before + 1) = .ok behind := by
      rw [bytes, ← feed, sliceFrom_append]
    rw [found]
    dsimp only
    rw [line, ← feed, advance_append, advance_of_plain _ absent]
    have last : (position.advance (before ++ ['\n'])).column = 1 := by
      simp [advance_append, step]
    have none : behind.count '\n' = 0 := List.count_eq_zero.2 absent
    simp only [Except.map, line_advance, last, offset_advance, List.count_append, byteLength_append,
      none, Except.ok.injEq, mk.injEq]
    omega

end Position

namespace Scanner

variable {α β : Type} {scanner after last : Scanner}

def cursor (scanner : Scanner) : Cursor :=
  ⟨scanner.source, scanner.position⟩

def goTo (scanner : Scanner) (cursor : Cursor) : Scanner :=
  { scanner with source := cursor.rest, position := cursor.position }

def report (scanner : Scanner) (problems : List Problem) : Scanner :=
  { scanner with problems := scanner.problems ++ problems }

@[simp]
theorem rest_cursor (scanner : Scanner) : scanner.cursor.rest = scanner.source :=
  rfl

@[simp]
theorem position_cursor (scanner : Scanner) : scanner.cursor.position = scanner.position :=
  rfl

@[simp]
theorem cursor_goTo (scanner : Scanner) (cursor : Cursor) : (scanner.goTo cursor).cursor = cursor :=
  rfl

@[simp]
theorem source_goTo (scanner : Scanner) (cursor : Cursor) :
    (scanner.goTo cursor).source = cursor.rest :=
  rfl

@[simp]
theorem goTo_cursor (scanner : Scanner) : scanner.goTo scanner.cursor = scanner :=
  rfl

@[simp]
theorem goTo_goTo (scanner : Scanner) (first second : Cursor) :
    (scanner.goTo first).goTo second = scanner.goTo second :=
  rfl

@[simp]
theorem cursor_report (scanner : Scanner) (problems : List Problem) :
    (scanner.report problems).cursor = scanner.cursor :=
  rfl

@[simp]
theorem report_nil (scanner : Scanner) : scanner.report [] = scanner := by
  rw [report, List.append_nil]

theorem report_report (scanner : Scanner) (first second : List Problem) :
    (scanner.report first).report second = scanner.report (first ++ second) := by
  simp only [report, List.append_assoc]

theorem goTo_report (scanner : Scanner) (cursor : Cursor) (problems : List Problem) :
    (scanner.report problems).goTo cursor = (scanner.goTo cursor).report problems :=
  rfl

theorem runs_place : Runs place scanner scanner.position scanner :=
  rfl

theorem runs_startsWith (text : String) :
    Runs (startsWith text) scanner (text.toList.isPrefixOf scanner.source) scanner :=
  rfl

theorem runs_startsAt (text : String) :
    Runs (startsWith text) scanner (Lexer.startsWith text scanner.cursor) scanner :=
  rfl

theorem runs_atEnd : Runs atEnd scanner scanner.source.isEmpty scanner :=
  rfl

/-- The scanner moves over `count` characters if it is told their bytes. -/
theorem runs_moveBy (count : Nat) {size : Nat}
    (bytes : byteLength (scanner.source.take count) = size) :
    Runs (moveBy size) scanner (scanner.source.take count)
      (scanner.goTo (scanner.cursor.advance count)) := by
  subst bytes
  refine runs_get.bind ((runs_fallible (splitAt_take scanner.source count)).bind ?_)
  refine (runs_fallible (scanner.position.moveBy_eq (scanner.source.take count))).bind ?_
  exact (runs_set _).bind (runs_pure _)

/-- The scanner moves over a text that stands in front. -/
theorem runs_moveOver {text : List Char} (starts : text.isPrefixOf scanner.source = true) {size : Nat}
    (bytes : byteLength text = size) :
    Runs (moveBy size) scanner text (scanner.goTo (scanner.cursor.advance text.length)) := by
  have front : scanner.source.take text.length = text :=
    (List.prefix_iff_eq_take.1 (List.isPrefixOf_iff_prefix.1 starts)).symm
  have moved := @runs_moveBy scanner text.length size (by rw [front, bytes])
  rwa [front] at moved

theorem runs_moveOverText {text : String} (starts : Lexer.startsWith text scanner.cursor = true)
    {size : Nat} (bytes : byteLength text.toList = size) :
    Runs (moveBy size) scanner text.toList
      (scanner.goTo (scanner.cursor.advance text.toList.length)) :=
  runs_moveOver starts bytes

theorem take_length_takeWhile (p : Char → Bool) (text : List Char) :
    text.take (text.takeWhile p).length = text.takeWhile p :=
  List.prefix_iff_eq_take.1 (List.takeWhile_prefix p) |>.symm

theorem runs_moveWhile (p : Char → Bool) :
    Runs (moveWhile p) scanner (scanner.source.takeWhile p)
      (scanner.goTo (scanner.cursor.skipWhile p)) := by
  have moved := @runs_moveBy scanner (scanner.source.takeWhile p).length _ rfl
  rw [take_length_takeWhile] at moved
  exact runs_get.bind moved

theorem runs_moveToEnd :
    Runs moveToEnd scanner scanner.source
      (scanner.goTo (scanner.cursor.advance scanner.source.length)) := by
  have moved := @runs_moveBy scanner scanner.source.length _ rfl
  rw [List.take_length] at moved
  exact runs_get.bind moved

theorem findByte?_eq_none {pattern text : List Char} :
    findByte? pattern text = none ↔ find? pattern text = none :=
  Option.map_eq_none_iff

/-- Blanks are skipped; the answer tells whether there were some. -/
theorem runs_skipBlanks :
    Runs skipBlanks scanner
      (decide ((Lexer.skipBlanks scanner.cursor).rest.length ≠ scanner.source.length))
      (scanner.goTo (Lexer.skipBlanks scanner.cursor)) := by
  refine runs_get.bind ?_
  by_cases none : scanner.source.takeWhile isBlank = []
  · have still : Lexer.skipBlanks scanner.cursor = scanner.cursor := by
      simp [Lexer.skipBlanks, Cursor.skipWhile, cursor, none, Cursor.advance]
    rw [if_pos (by rw [none]; rfl), still]
    simp only [rest_cursor, ne_eq, not_true_eq_false, decide_false, goTo_cursor]
    exact runs_pure false
  · have some : byteLength (scanner.source.takeWhile isBlank) ≠ 0 := by
      obtain ⟨c, rest, starts⟩ := List.exists_cons_of_ne_nil none
      have positive := c.utf8Size_pos
      rw [starts, byteLength_cons]
      omega
    have moved : (Lexer.skipBlanks scanner.cursor).rest.length ≠ scanner.source.length := by
      have positive := List.length_pos_iff.2 none
      have inside := (List.takeWhile_prefix isBlank (l := scanner.source)).length_le
      simp only [Lexer.skipBlanks, Cursor.skipWhile, Cursor.length_advance, cursor]
      omega
    rw [if_neg some, decide_eq_true moved]
    exact (runs_moveBy _ (by rw [rest_cursor, take_length_takeWhile])).bind (runs_pure true)

theorem runs_emit (kind : ProblemKind) (start : Position) :
    Runs (emit kind start) scanner () (scanner.report [Lexer.problem kind start scanner.cursor]) :=
  rfl

theorem runs_emitIf (found : Bool) (kind : ProblemKind) (start : Position) :
    Runs (emitIf found kind start) scanner ()
      (scanner.report (if found then [Lexer.problem kind start scanner.cursor] else [])) := by
  cases found with
  | true => exact runs_emit kind start
  | false =>
    rw [if_neg Bool.false_ne_true, report, List.append_nil]
    exact runs_pure ()

theorem runs_token (kind : TokenKind) (start : Position) :
    Runs (token kind start) scanner ⟨kind, scanner.cursor.spanFrom start⟩ scanner :=
  rfl

end Scanner

end TemplateCompiler
