import TemplateCompiler.Proofs.CondensedText
import TemplateCompiler.Proofs.TokenTiling

/-! Places in a source. All that reading reports lies there: a cursor stands between two characters,
and its line and column are those of the text that was read, however far it moved at a time. -/

namespace TemplateCompiler

open Text

/-- The place is behind a part of the source, between two characters: the offset counts the bytes of
that part, the line its line feeds, and the column the characters behind the last of them. -/
def Position.Lies (source : String) (position : Position) : Prop :=
  ∃ before, before <+: source.toList ∧
    position.offset = byteLength before ∧
    position.line = 1 + before.count '\n' ∧
    position.column = 1 + (before.reverse.takeWhile (· ≠ '\n')).length

/-- Both ends of the stretch lie in the source, in order. -/
structure Span.Lies (source : String) (span : Span) : Prop where
  start : span.start.Lies source
  stop : span.stop.Lies source
  ordered : span.start.offset ≤ span.stop.offset
  inside : span.stop.offset ≤ byteLength source.toList

namespace Position

variable {source : String} {before : List Char}

theorem after_concat (before : List Char) (c : Char) :
    after (before ++ [c]) = (after before).step c := by
  rw [after, advance_append]
  rfl

theorem offset_after (before : List Char) : (after before).offset = byteLength before := by
  simp [after]

theorem line_after (before : List Char) : (after before).line = 1 + before.count '\n' := by
  induction before using List.reverseRecOn with
  | nil => rfl
  | append_singleton before c ih =>
    rw [after_concat, step, List.count_append, List.count_singleton]
    split
    · next feed => simp [ih, feed, Nat.add_assoc]
    · next other => simp [ih, other]

theorem column_after (before : List Char) :
    (after before).column = 1 + (before.reverse.takeWhile (· ≠ '\n')).length := by
  induction before using List.reverseRecOn with
  | nil => rfl
  | append_singleton before c ih =>
    rw [after_concat, step, List.reverse_concat, List.takeWhile_cons]
    split
    · next feed => simp [feed]
    · next other => simp [ih, other, Nat.add_comm]

theorem lies_after (inside : before <+: source.toList) : (after before).Lies source :=
  ⟨before, inside, offset_after before, line_after before, column_after before⟩

end Position

namespace Span

variable {source : String}

/-- Places in the source with one not behind the other are the ends of a stretch of it. -/
theorem lies_of_ordered {start stop : Position} (first : start.Lies source)
    (last : stop.Lies source) (ordered : start.offset ≤ stop.offset) :
    Span.Lies source ⟨start, stop⟩ := by
  refine ⟨first, last, ordered, ?_⟩
  obtain ⟨before, ⟨later, whole⟩, offset, -⟩ := last
  rw [offset, ← whole, byteLength_append]
  exact Nat.le_add_right _ _

theorem lies_default (source : String) : Span.Lies source {} :=
  have origin : (Position.after []).Lies source := Position.lies_after List.nil_prefix
  lies_of_ordered origin origin (Nat.le_refl _)

end Span

namespace Cursor

variable {cursor middle after : Cursor} {span : Span}

/-- The stretch is read from the cursor on. -/
def Covers (cursor : Cursor) (span : Span) : Prop :=
  ∃ first last, cursor.Reaches first ∧ first.Reaches last ∧ span = last.spanFrom first.position

theorem reaches_refl (cursor : Cursor) : cursor.Reaches cursor :=
  (Passes.refl cursor).reaches

theorem reaches_skipWhile (cursor : Cursor) (p : Char → Bool) :
    cursor.Reaches (cursor.skipWhile p) :=
  (cursor.passes_skipWhile p).reaches

theorem Reaches.covers (reached : cursor.Reaches after) :
    cursor.Covers (after.spanFrom cursor.position) :=
  ⟨cursor, after, cursor.reaches_refl, reached, rfl⟩

theorem Covers.behind (covers : middle.Covers span) (reached : cursor.Reaches middle) :
    cursor.Covers span := by
  obtain ⟨first, last, further, passed, same⟩ := covers
  exact ⟨first, last, reached.trans further, passed, same⟩

/-- What is read from the beginning of a source on lies in it. -/
theorem Covers.lies {source : String} (covers : (ofString source).Covers span) :
    span.Lies source := by
  obtain ⟨first, last, ⟨before, opened⟩, ⟨body, passed⟩, rfl⟩ := covers
  have start : first.position = Position.after before := opened.position
  have stop : last.position = Position.after (before ++ body) := by
    rw [passed.position, opened.position, ← Position.advance_append]
    rfl
  have whole : source.toList = before ++ body ++ last.rest := by
    rw [List.append_assoc, ← passed.rest, ← opened.rest]
    rfl
  rw [spanFrom, start, stop]
  refine Span.lies_of_ordered (Position.lies_after ?_) (Position.lies_after ?_) ?_
  · exact ⟨body ++ last.rest, by rw [whole, List.append_assoc]⟩
  · exact ⟨last.rest, whole.symm⟩
  · simp [Position.offset_after]

end Cursor

/-- A text is to be condensed and decoded at most. -/
def TokenKind.Plain : TokenKind → Prop
  | .text words => words.Plain
  | _ => True

namespace Lexer

variable {cursor middle after : Cursor} {first second : List Problem}

def Reported (cursor : Cursor) (problems : List Problem) : Prop :=
  ∀ problem ∈ problems, cursor.Covers problem.span

theorem reported_nil (cursor : Cursor) : Reported cursor [] :=
  List.forall_mem_nil _

theorem reported_append : Reported cursor (first ++ second) ↔
    Reported cursor first ∧ Reported cursor second :=
  List.forall_mem_append

theorem Reported.behind (reported : Reported middle first) (reached : cursor.Reaches middle) :
    Reported cursor first :=
  fun problem member => (reported problem member).behind reached

theorem reported_problem (kind : ProblemKind) (reached : cursor.Reaches after) :
    Reported cursor [problem kind cursor.position after] :=
  List.forall_mem_singleton.mpr reached.covers

/-- A problem at the place of the cursor itself. -/
theorem reported_here (kind : ProblemKind) (cursor : Cursor) :
    Reported cursor [problem kind cursor.position cursor] :=
  reported_problem kind cursor.reaches_refl

end Lexer

structure Pull.Read (cursor : Cursor) (pull : Pull) : Prop where
  problems : Lexer.Reported cursor pull.problems
  plain : pull.token.kind.Plain

theorem Pull.Read.behind {cursor middle : Cursor} {pull : Pull} (read : pull.Read middle)
    (reached : cursor.Reaches middle) : pull.Read cursor :=
  ⟨read.problems.behind reached, read.plain⟩

namespace Lexer

variable {cursor middle after : Cursor}

structure Piece.Read (cursor : Cursor) (piece : Piece) : Prop where
  pulls : ∀ pull ∈ piece.pulls, pull.Read cursor
  problems : Reported cursor piece.problems

theorem read_single {token : Token} {problems : List Problem} (reported : Reported cursor problems)
    (plain : token.kind.Plain) : (Piece.single token problems after).Read cursor :=
  ⟨List.forall_mem_singleton.mpr ⟨reported, plain⟩, reported_nil cursor⟩

theorem reported_afterQuotedValue (token : Token) (cursor : Cursor) :
    Reported cursor (afterQuotedValue token cursor).problems := by
  unfold afterQuotedValue
  split
  · exact reported_nil cursor
  · split
    · exact reported_here _ cursor
    · exact reported_nil cursor

structure ReadValue.Sound (cursor : Cursor) (value : ReadValue) : Prop where
  problems : Reported cursor value.problems
  plain : ∀ token ∈ value.token, token.kind.Plain

theorem sound_afterQuotedValue (inside : Cursor) (length : Nat) (reached : cursor.Reaches after) :
    (afterQuotedValue (valueToken inside length) after).Sound cursor := by
  refine ⟨(reported_afterQuotedValue _ after).behind reached, ?_⟩
  rw [(leads_afterQuotedValue .standard _ after).1]
  rintro token member
  cases member
  trivial

theorem sound_quotedValue (quote : Char) (cursor : Cursor) :
    (quotedValue quote cursor).Sound cursor := by
  unfold quotedValue
  simp only
  split
  · exact sound_afterQuotedValue _ _ ((cursor.reaches_advance 1).trans (Cursor.reaches_advance _ _))
  · exact sound_afterQuotedValue _ _ ((cursor.reaches_advance 1).trans (Cursor.reaches_advance _ _))

theorem sound_unquotedValue (cursor : Cursor) : (unquotedValue cursor).Sound cursor := by
  constructor
  · simp only [unquotedValue]
    split
    · exact reported_problem _ (cursor.reaches_advance _)
    · exact reported_nil cursor
  · rintro token member
    cases member
    trivial

theorem sound_attributeValue (cursor : Cursor) : (attributeValue cursor).Sound cursor := by
  have missing : ReadValue.Sound cursor
      { problems := [problem .missingAttributeValue cursor.position cursor], cursor } :=
    ⟨reported_here _ cursor, fun _ member => nomatch member⟩
  unfold attributeValue
  split
  · exact missing
  · split
    · exact missing
    · split
      · exact sound_quotedValue _ cursor
      · exact sound_unquotedValue cursor

theorem reported_attributeNameProblems (name : String) (reached : cursor.Reaches after) :
    Reported cursor (attributeNameProblems name cursor.position after) := by
  unfold attributeNameProblems
  split
  · exact reported_problem _ reached
  · split
    · exact reported_problem _ reached
    · exact reported_nil cursor

structure ReadAttribute.Sound (cursor : Cursor) (read : ReadAttribute) : Prop where
  problems : Reported cursor read.problems
  name : read.name.kind.Plain
  value : ∀ token ∈ read.value, token.kind.Plain

theorem sound_readAttribute (cursor : Cursor) : (readAttribute cursor).Sound cursor := by
  have named := cursor.reaches_advance (attributeNameLength cursor.rest)
  have name := reported_attributeNameProblems
    (cursor.peek (attributeNameLength cursor.rest)) named
  unfold readAttribute
  simp only
  split
  · have valued := named.trans ((Cursor.reaches_skipWhile _ isBlank).trans
      ((Cursor.reaches_advance _ 1).trans (Cursor.reaches_skipWhile _ isBlank)))
    obtain ⟨problems, plain⟩ := sound_attributeValue
      (skipBlanks ((skipBlanks (cursor.advance (attributeNameLength cursor.rest))).advance 1))
    exact ⟨reported_append.mpr ⟨name, problems.behind valued⟩, trivial, plain⟩
  · exact ⟨name, trivial, fun _ member => nomatch member⟩

theorem reaches_readAttribute (cursor : Cursor) :
    cursor.Reaches (skipBlanks (readAttribute cursor).cursor) :=
  (@leads_readAttribute .standard cursor).reaches.trans (Cursor.reaches_skipWhile _ _)

theorem read_startTagRest (cursor : Cursor) {origin : Cursor} {pending : List Problem}
    (reached : origin.Reaches cursor) (found : Reported origin pending) :
    ∀ pull ∈ (startTagRest pending cursor).pulls, pull.Read origin := by
  fun_induction startTagRest pending cursor with
  | case1 pending cursor start ended token =>
    have eof := (reported_here .eofInTag cursor).behind reached
    exact List.forall_mem_singleton.mpr ⟨reported_append.mpr ⟨found, eof⟩, trivial⟩
  | case2 => exact List.forall_mem_singleton.mpr ⟨found, trivial⟩
  | case3 => exact List.forall_mem_singleton.mpr ⟨found, trivial⟩
  | case4 pending cursor start more unslashed unclosed solidus ih =>
    have slash := (reported_problem .unexpectedSolidusInTag (cursor.reaches_advance 1)).behind reached
    refine ih (reached.trans ?_) (reported_append.mpr ⟨found, slash⟩)
    exact (cursor.reaches_advance 1).trans (Cursor.reaches_skipWhile _ _)
  | case5 pending cursor more unslashed unclosed plain rest read value ih =>
    obtain ⟨problems, name, valued⟩ := sound_readAttribute cursor
    refine List.forall_mem_cons.mpr ⟨⟨?_, name⟩, List.forall_mem_append.mpr ⟨?_, ?_⟩⟩
    · exact reported_append.mpr ⟨found, problems.behind reached⟩
    · refine List.forall_mem_map.mpr fun token member => ⟨reported_nil origin, ?_⟩
      exact valued token (Option.mem_toList.mp member)
    · exact ih (reached.trans (reaches_readAttribute cursor)) (reported_nil origin)

theorem reported_endTagRest (cursor : Cursor) :
    Reported cursor (endTagRest cursor).problems := by
  fun_induction endTagRest cursor with
  | case1 cursor ended => exact reported_nil cursor
  | case2 cursor going solidus rest found ih =>
    have next := (cursor.reaches_advance 1).trans (Cursor.reaches_skipWhile _ isBlank)
    have slash := reported_problem .unexpectedSolidusInTag (cursor.reaches_advance 1)
    exact (@reported_append cursor [found] _).mpr ⟨slash, ih.behind next⟩
  | case3 cursor going plain rest ih =>
    have problems := (sound_readAttribute cursor).problems
    exact reported_append.mpr ⟨problems, ih.behind (reaches_readAttribute cursor)⟩

theorem read_startTag (cursor : Cursor) : (startTag cursor).Read cursor := by
  constructor
  · refine List.forall_mem_cons.mpr ⟨⟨reported_nil cursor, trivial⟩, ?_⟩
    refine read_startTagRest _ ?_ (reported_nil cursor)
    exact (cursor.reaches_advance 1).trans
      ((Cursor.reaches_advance _ _).trans (Cursor.reaches_skipWhile _ _))
  · exact reported_nil cursor

theorem reported_closeEndTag (reached : cursor.Reaches after) :
    Reported cursor (closeEndTag cursor.position after).1 := by
  unfold closeEndTag
  split
  · exact reported_problem _ reached
  · split
    · exact reported_problem _ reached
    · exact reported_nil cursor

theorem read_endTag (cursor : Cursor) : (endTag cursor).Read cursor := by
  have named : cursor.Reaches (skipBlanks ((cursor.advance 2).advance
      (tagNameLength (cursor.advance 2).rest))) :=
    (cursor.reaches_advance 2).trans
      ((Cursor.reaches_advance _ _).trans (Cursor.reaches_skipWhile _ _))
  have reached := named.trans (reaches_endTagRest _)
  refine read_single ?_ trivial
  refine reported_append.mpr ⟨reported_append.mpr ⟨?_, ?_⟩, reported_closeEndTag reached⟩
  · exact (reported_endTagRest _).behind named
  · split
    · exact reported_problem _ reached
    · exact reported_nil cursor

theorem read_bogusComment (skip : Nat) {problems : List Problem}
    (found : Reported cursor problems) : (bogusComment skip problems cursor).Read cursor :=
  read_single found trivial

theorem reported_nestedComments (length : Nat) (cursor : Cursor) :
    Reported cursor (nestedComments length cursor).1 := by
  fun_induction nestedComments length cursor with
  | case1 length cursor absent => exact reported_nil cursor
  | case2 length cursor index found after problems rest ih =>
    have passed : cursor.Reaches after := cursor.reaches_advance _
    refine reported_append.mpr ⟨?_, ih.behind passed⟩
    simp only [problems]
    split
    · exact reported_nil cursor
    · exact reported_problem _ passed

theorem reported_commentText (cursor : Cursor) : Reported cursor (commentText cursor).problems := by
  unfold commentText
  simp only
  split
  · split
    · exact reported_here _ cursor
    · exact (reported_nestedComments _ _).behind (cursor.reaches_advance 4)
  · exact (reported_nestedComments _ _).behind (cursor.reaches_advance 4)

theorem reported_closeComment (reached : cursor.Reaches after) :
    Reported cursor (closeComment cursor.position after).1 := by
  unfold closeComment
  split
  · exact reported_problem _ reached
  · split
    · exact reported_problem _ reached
    · split <;> exact reported_nil cursor

theorem read_comment (cursor : Cursor) : (comment cursor).Read cursor := by
  obtain ⟨front, passed, -⟩ := commentText_passes cursor
  refine read_single (reported_append.mpr ⟨reported_commentText cursor, ?_⟩) trivial
  exact reported_closeComment passed.reaches

theorem read_declaration (cursor : Cursor) : (declaration cursor).Read cursor := by
  unfold declaration
  simp only
  split
  · exact read_comment cursor
  · split
    · exact read_bogusComment 2 (reported_nil cursor)
    · split <;> exact read_bogusComment 2 (reported_here _ cursor)

theorem read_textPiece (decode : Bool) (length : Nat) (cursor : Cursor) :
    (textPiece decode length cursor).Read cursor := by
  refine read_single ?_ ?_
  · split
    · exact reported_problem _ (cursor.reaches_advance length)
    · exact reported_nil cursor
  · cases decode <;> rfl

theorem read_strayText (kind : ProblemKind) (length problemLength : Nat) (cursor : Cursor) :
    (strayText kind length problemLength cursor).Read cursor :=
  read_single (reported_problem kind (cursor.reaches_advance problemLength)) rfl

theorem read_interpolation (delimiters : Delimiters) (cursor : Cursor) :
    (interpolation delimiters cursor).Read cursor := by
  unfold interpolation
  simp only
  split
  · exact read_single (reported_nil cursor) trivial
  · refine read_single (reported_problem _ ?_) trivial
    exact (cursor.reaches_advance _).trans (Cursor.reaches_advance _ _)

theorem read_markup (cursor : Cursor) : (markup cursor).Read cursor := by
  unfold markup
  simp only
  split
  · exact read_strayText _ _ _ cursor
  · exact ⟨List.forall_mem_nil _, reported_here _ cursor⟩
  · split
    · exact read_endTag cursor
    · exact read_bogusComment 2 (reported_here _ cursor)
  · exact read_declaration cursor
  · exact read_bogusComment 1 (reported_here _ cursor)
  · split
    · exact read_startTag cursor
    · exact read_strayText _ _ _ cursor
  · exact read_strayText _ _ _ cursor

theorem read_dataPiece (delimiters : Delimiters) (cursor : Cursor) :
    (dataPiece delimiters cursor).Read cursor := by
  unfold dataPiece
  split
  · exact read_textPiece _ _ cursor
  · split
    · exact read_interpolation _ cursor
    · exact read_markup cursor

theorem read_step {option : ScanOption} {mode next : Mode} {piece : Piece}
    (stepped : step option cursor mode = .ok (piece, next)) : piece.Read cursor := by
  cases step_cases stepped with
  | content => exact read_dataPiece _ cursor
  | interpolation => exact read_interpolation _ cursor
  | text => exact read_textPiece _ _ cursor
  | leave => exact ⟨List.forall_mem_nil _, reported_nil cursor⟩

theorem read_scanFrom {option : ScanOption} {pending : List Problem} {mode : Mode} {origin : Cursor}
    (reached : origin.Reaches cursor) (found : Reported origin pending) :
    (∀ pull ∈ (scanFrom option pending cursor mode).pulls, pull.Read origin) ∧
      ∀ problems, (scanFrom option pending cursor mode).ending = .ok problems →
        Reported origin problems := by
  fun_induction scanFrom option pending cursor mode with
  | case1 pending cursor mode empty =>
    refine ⟨List.forall_mem_nil _, fun problems ended => ?_⟩
    cases ended
    exact found
  | case2 =>
    refine ⟨List.forall_mem_nil _, ?_⟩
    rintro problems ⟨⟩
  | case3 pending cursor mode more piece next stepped none ih =>
    obtain ⟨-, problems⟩ := read_step stepped
    exact ih (reached.trans (follows_step stepped).reaches)
      (reported_append.mpr ⟨found, problems.behind reached⟩)
  | case4 pending cursor mode more piece next stepped first others pulls rest ih =>
    obtain ⟨read, problems⟩ := read_step stepped
    rw [pulls] at read
    obtain ⟨front, back⟩ := List.forall_mem_cons.mp read
    obtain ⟨later, ending⟩ := ih (reached.trans (follows_step stepped).reaches)
      (problems.behind reached)
    refine ⟨List.forall_mem_cons.mpr ⟨⟨?_, front.plain⟩, ?_⟩, ending⟩
    · exact reported_append.mpr ⟨found, front.problems.behind reached⟩
    · refine List.forall_mem_append.mpr ⟨fun pull member => (back pull member).behind reached, later⟩

end Lexer

end TemplateCompiler
