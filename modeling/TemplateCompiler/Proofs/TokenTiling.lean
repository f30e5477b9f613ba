import TemplateCompiler.Proofs.MarkupScanning

/-! The tokens of a template tile it. They stand in the order of the text and do not overlap, each
spells out the stretch that it covers, and what lies between two of them says nothing: blanks,
solidi, equals signs and quotes inside of a start tag, and nameless end tags elsewhere. -/

namespace TemplateCompiler

open Text

namespace Text

theorem foldl_utf8Size (bytes : Nat) (text : List Char) :
    text.foldl (fun bytes c => bytes + c.utf8Size) bytes = bytes + byteLength text := by
  unfold byteLength
  induction text generalizing bytes with
  | nil => rfl
  | cons c rest ih =>
    rw [List.foldl_cons, List.foldl_cons, ih, ih (0 + c.utf8Size)]
    omega

@[simp]
theorem byteLength_nil : byteLength [] = 0 := rfl

@[simp]
theorem byteLength_cons (c : Char) (rest : List Char) :
    byteLength (c :: rest) = c.utf8Size + byteLength rest := by
  rw [byteLength, List.foldl_cons, foldl_utf8Size, Nat.zero_add]

@[simp]
theorem byteLength_append (front back : List Char) :
    byteLength (front ++ back) = byteLength front + byteLength back := by
  rw [byteLength, List.foldl_append, foldl_utf8Size]
  rfl

theorem prefix_drop_of_find? {pattern text : List Char} {index : Nat}
    (found : find? pattern text = some index) : pattern <+: text.drop index := by
  induction text generalizing index with
  | nil =>
    simp only [find?] at found
    split at found
    · next empty => simp [List.isEmpty_iff.mp empty]
    · cases found
  | cons c rest ih =>
    simp only [find?] at found
    split at found
    · next here =>
      cases found
      exact List.isPrefixOf_iff_prefix.mp here
    · obtain ⟨inner, later, rfl⟩ := Option.map_eq_some_iff.mp found
      exact ih later

end Text

@[simp]
theorem Position.offset_advance (position : Position) (text : List Char) :
    (position.advance text).offset = position.offset + byteLength text := by
  induction text generalizing position with
  | nil => simp
  | cons c text ih =>
    have stepped : (position.step c).offset = position.offset + c.utf8Size := by
      unfold Position.step
      split <;> rfl
    simp only [Position.advance_cons, ih, stepped, byteLength_cons]
    omega

namespace Cursor

variable {cursor middle after : Cursor} {first second text : List Char}

structure Passes (cursor : Cursor) (text : List Char) (after : Cursor) : Prop where
  rest : cursor.rest = text ++ after.rest
  position : after.position = cursor.position.advance text

theorem Passes.refl (cursor : Cursor) : cursor.Passes [] cursor :=
  ⟨rfl, rfl⟩

theorem Passes.trans (passed : cursor.Passes first middle) (further : middle.Passes second after) :
    cursor.Passes (first ++ second) after := by
  refine ⟨?_, ?_⟩
  · rw [passed.rest, further.rest, List.append_assoc]
  · rw [further.position, passed.position, Position.advance_append]

theorem passes_advance (cursor : Cursor) (count : Nat) :
    cursor.Passes (cursor.rest.take count) (cursor.advance count) :=
  ⟨(List.take_append_drop count cursor.rest).symm, rfl⟩

theorem passes_skipWhile (cursor : Cursor) (p : Char → Bool) :
    cursor.Passes (cursor.rest.takeWhile p) (cursor.skipWhile p) := by
  have passed := cursor.passes_advance (cursor.rest.takeWhile p).length
  rwa [← List.prefix_iff_eq_take.mp (List.takeWhile_prefix p)] at passed

/-- The characters `front` are read by moving over as many. -/
theorem passes_front (front : List Char) {back : List Char} (starts : cursor.rest = front ++ back) :
    cursor.Passes front (cursor.advance front.length) := by
  have passed := cursor.passes_advance front.length
  rwa [starts, List.take_left] at passed

theorem toList_peek (cursor : Cursor) (count : Nat) :
    (cursor.peek count).toList = cursor.rest.take count := by
  simp [peek]

theorem advance_advance (cursor : Cursor) (first second : Nat) :
    (cursor.advance first).advance second = cursor.advance (first + second) := by
  simp only [advance, List.drop_drop, ← Position.advance_append, Cursor.mk.injEq, true_and]
  rw [← List.take_add]

/-- The cursor comes to `after` by reading forward. -/
def Reaches (cursor after : Cursor) : Prop :=
  ∃ text, cursor.Passes text after

theorem Passes.reaches (passed : cursor.Passes text after) : cursor.Reaches after :=
  ⟨text, passed⟩

theorem Reaches.trans (passed : cursor.Reaches middle) (further : middle.Reaches after) :
    cursor.Reaches after := by
  obtain ⟨first, passed⟩ := passed
  obtain ⟨second, further⟩ := further
  exact ⟨first ++ second, passed.trans further⟩

theorem reaches_advance (cursor : Cursor) (count : Nat) : cursor.Reaches (cursor.advance count) :=
  (cursor.passes_advance count).reaches

end Cursor

namespace TokenKind

def within : TokenKind → Bool
  | .attrName _ | .attrValue _ | .tagEnd _ => true
  | _ => false

def opens : TokenKind → Bool
  | .tagOpen _ | .attrName _ | .attrValue _ => true
  | _ => false

def Spells (delimiters : Delimiters) (body later : List Char) : TokenKind → Prop
  | .tagOpen name => body = '<' :: name.toList
  | .attrName name => body = name.toList
  | .attrValue value => body = value.raw.toList
  | .tagEnd selfClosing =>
    if selfClosing then body = ['/', '>'] else body = ['>'] ∨ body = [] ∧ later = []
  | .tagClose name =>
    ∃ attributes, body = '<' :: '/' :: name.toList ++ attributes ∧
      ∀ c ∈ attributes.head?, Lexer.isNameChar c = false
  | .text words => body = words.raw.toList
  | .interpolation source =>
    let closing := delimiters.closing.toList
    body = delimiters.opening.toList ++ source.toList ++ closing ∧
        find? closing (source.toList ++ closing ++ later) = some source.toList.length ∨
      body = delimiters.opening.toList ++ source.toList ∧ later = [] ∧
        find? closing source.toList = none
  | .comment source => source.toList <:+: body

end TokenKind

namespace Lexer

/-- What may stand between the tokens of one start tag. -/
def isSeparator (c : Char) : Bool :=
  isBlank c || c = '/' || c = '=' || c = '"' || c = '\''

/-- What may stand between two tokens, inside of a start tag and elsewhere. -/
def Gap (inTag : Bool) (gap : List Char) : Prop :=
  if inTag then ∀ c ∈ gap, isSeparator c = true
  else ∃ count, gap = (List.replicate count ['<', '/', '>']).flatten

theorem gap_nil (inTag : Bool) : Gap inTag [] := by
  cases inTag with
  | true => simp [Gap]
  | false => exact ⟨0, rfl⟩

theorem Gap.append {inTag : Bool} {first second : List Char} (front : Gap inTag first)
    (back : Gap inTag second) : Gap inTag (first ++ second) := by
  cases inTag with
  | true =>
    intro c member
    rcases List.mem_append.mp member with member | member
    · exact front c member
    · exact back c member
  | false =>
    obtain ⟨few, rfl⟩ := front
    obtain ⟨more, rfl⟩ := back
    exact ⟨few + more, by rw [List.replicate_add, List.flatten_append]⟩

/-- The tokens tile `text`, which begins at the given place, inside of a start tag or not: a gap,
then the stretch of the first token, then what the others tile. -/
inductive Tiled (delimiters : Delimiters) : Bool → Position → List Token → List Char → Prop where
  | done {position : Position} {gap : List Char} (silent : Gap false gap) :
      Tiled delimiters false position [] gap
  | token {inTag : Bool} {position : Position} {gap body later : List Char} {kind : TokenKind}
      {tokens : List Token} (silent : Gap inTag gap) (belongs : kind.within = inTag)
      (spelled : kind.Spells delimiters body later)
      (others : Tiled delimiters kind.opens (position.advance (gap ++ body)) tokens later) :
      Tiled delimiters inTag position
        (⟨kind, position.advance gap, position.advance (gap ++ body)⟩ :: tokens)
        (gap ++ body ++ later)

namespace Tiled

variable {delimiters : Delimiters} {inTag : Bool} {position : Position} {tokens : List Token}
  {text : List Char}

/-- A gap in front makes the first gap longer. -/
theorem skip {gap : List Char} (silent : Gap inTag gap)
    (tiled : Tiled delimiters inTag (position.advance gap) tokens text) :
    Tiled delimiters inTag position tokens (gap ++ text) := by
  cases tiled with
  | done further => exact .done (silent.append further)
  | @token _ _ between body later kind tokens further belongs spelled others =>
    simp only [← Position.advance_append, ← List.append_assoc] at others ⊢
    exact .token (silent.append further) belongs spelled others

theorem slice (tiled : Tiled delimiters inTag position tokens text) :
    ∀ token ∈ tokens, ∃ before body later, text = before ++ body ++ later ∧
      token.span = ⟨position.advance before, position.advance (before ++ body)⟩ ∧
      token.kind.Spells delimiters body later := by
  induction tiled with
  | done => simp
  | @token inTag position gap body later kind tokens silent belongs spelled others ih =>
    intro token member
    rcases List.mem_cons.mp member with rfl | member
    · exact ⟨gap, body, later, rfl, rfl, spelled⟩
    · obtain ⟨before, inner, behind, rfl, covered, spelled⟩ := ih token member
      refine ⟨gap ++ body ++ before, inner, behind, by simp, ?_, spelled⟩
      rw [covered]
      simp only [← Position.advance_append, List.append_assoc]

/-- Where the text begins at the origin, the offsets of a token are bytes of the text. -/
theorem offsets (tiled : Tiled delimiters inTag {} tokens text) :
    ∀ token ∈ tokens, ∃ before body later, text = before ++ body ++ later ∧
      token.span.start.offset = byteLength before ∧
      token.span.stop.offset = byteLength (before ++ body) ∧
      token.kind.Spells delimiters body later := by
  intro token member
  obtain ⟨before, body, later, whole, covered, spelled⟩ := tiled.slice token member
  refine ⟨before, body, later, whole, ?_, ?_, spelled⟩
  · simp [covered]
  · simp [covered]

theorem offset_le (tiled : Tiled delimiters inTag position tokens text) :
    ∀ token ∈ tokens, position.offset ≤ token.span.start.offset := by
  intro token member
  obtain ⟨before, body, later, -, covered, -⟩ := tiled.slice token member
  simp [covered]

theorem forward (tiled : Tiled delimiters inTag position tokens text) :
    ∀ token ∈ tokens, token.span.start.offset ≤ token.span.stop.offset := by
  intro token member
  obtain ⟨before, body, later, -, covered, -⟩ := tiled.slice token member
  simp only [covered, Position.offset_advance, byteLength_append]
  omega

theorem ordered (tiled : Tiled delimiters inTag position tokens text) :
    tokens.Pairwise fun first second => first.span.stop.offset ≤ second.span.start.offset := by
  induction tiled with
  | done => exact .nil
  | token silent belongs spelled others ih =>
    refine .cons ?_ ih
    intro token member
    exact others.offset_le token member

end Tiled

/-- Reading from `cursor` to `after` gives `tokens`: they tile what is read, in front of whatever
tiles the rest. -/
structure Leads (delimiters : Delimiters) (inTag : Bool) (cursor : Cursor) (tokens : List Token)
    (opened : Bool) (after : Cursor) : Prop where
  reaches : cursor.Reaches after
  tiles : ∀ later, Tiled delimiters opened after.position later after.rest →
    Tiled delimiters inTag cursor.position (tokens ++ later) cursor.rest

namespace Leads

variable {delimiters : Delimiters} {inTag opened further : Bool} {cursor middle after : Cursor}
  {first second : List Token}

theorem refl (cursor : Cursor) : Leads delimiters inTag cursor [] inTag cursor :=
  ⟨(Cursor.Passes.refl cursor).reaches, fun _ tiled => tiled⟩

theorem trans (front : Leads delimiters inTag cursor first opened middle)
    (back : Leads delimiters opened middle second further after) :
    Leads delimiters inTag cursor (first ++ second) further after := by
  refine ⟨front.reaches.trans back.reaches, ?_⟩
  intro later tiled
  rw [List.append_assoc]
  exact front.tiles _ (back.tiles later tiled)

theorem skip {gap : List Char} (passed : cursor.Passes gap after) (silent : Gap inTag gap) :
    Leads delimiters inTag cursor [] inTag after := by
  refine ⟨passed.reaches, ?_⟩
  intro later tiled
  rw [passed.position] at tiled
  rw [passed.rest]
  exact tiled.skip silent

theorem single {body : List Char} {kind : TokenKind} (passed : cursor.Passes body after)
    (belongs : kind.within = inTag) (spelled : kind.Spells delimiters body after.rest) :
    Leads delimiters inTag cursor [⟨kind, after.spanFrom cursor.position⟩] kind.opens after := by
  refine ⟨passed.reaches, ?_⟩
  intro later tiled
  rw [passed.position] at tiled
  have whole := Tiled.token (gap_nil inTag) belongs spelled tiled
  rw [Cursor.spanFrom, passed.position, passed.rest]
  exact whole

theorem skipBlanks (cursor : Cursor) :
    Leads delimiters true cursor [] true (Lexer.skipBlanks cursor) := by
  refine skip (cursor.passes_skipWhile isBlank) ?_
  intro c member
  have blank := List.mem_takeWhile_imp member
  simp [isSeparator, blank]

end Leads

variable {delimiters : Delimiters}

theorem leads_valueToken (cursor : Cursor) (length : Nat) :
    Leads delimiters true cursor [valueToken cursor length] true (cursor.advance length) := by
  refine Leads.single (cursor.passes_advance length) rfl ?_
  exact (cursor.toList_peek length).symm

theorem leads_afterQuotedValue (delimiters : Delimiters) (token : Token) (cursor : Cursor) :
    (afterQuotedValue token cursor).token = some token ∧
      Leads delimiters true cursor [] true (afterQuotedValue token cursor).cursor := by
  unfold afterQuotedValue
  split
  · exact ⟨rfl, .refl cursor⟩
  · split
    · exact ⟨rfl, .refl cursor⟩
    · exact ⟨rfl, .skipBlanks cursor⟩

theorem gap_separator {c : Char} (separates : isSeparator c = true) : Gap true [c] := by
  intro other member
  rwa [List.mem_singleton.mp member]

theorem leads_quotedValue {quote : Char} {cursor : Cursor} {back : List Char}
    (starts : cursor.rest = quote :: back) (separates : isSeparator quote = true) :
    Leads delimiters true cursor (quotedValue quote cursor).token.toList true
      (quotedValue quote cursor).cursor := by
  have opened : Leads delimiters true cursor [] true (cursor.advance 1) :=
    .skip (Cursor.passes_front [quote] starts) (gap_separator separates)
  unfold quotedValue
  simp only
  split
  · next length found =>
    have value : Leads delimiters true _ _ true _ := leads_valueToken (cursor.advance 1) length
    have closed : Leads delimiters true ((cursor.advance 1).advance length) [] true
        ((cursor.advance 1).advance (length + 1)) := by
      rw [← Cursor.advance_advance]
      obtain ⟨rest, behind⟩ := prefix_drop_of_find? found
      exact .skip (Cursor.passes_front [quote] behind.symm) (gap_separator separates)
    obtain ⟨same, after⟩ := leads_afterQuotedValue delimiters
      (valueToken (cursor.advance 1) length) ((cursor.advance 1).advance (length + 1))
    rw [same]
    exact opened.trans (value.trans (closed.trans after))
  · have value : Leads delimiters true _ _ true _ := leads_valueToken (cursor.advance 1)
      (cursor.advance 1).rest.length
    obtain ⟨same, after⟩ := leads_afterQuotedValue delimiters
      (valueToken (cursor.advance 1) (cursor.advance 1).rest.length)
      ((cursor.advance 1).advance (cursor.advance 1).rest.length)
    rw [same]
    exact opened.trans (value.trans after)

theorem leads_attributeValue (cursor : Cursor) :
    Leads delimiters true cursor (attributeValue cursor).token.toList true
      (attributeValue cursor).cursor := by
  unfold attributeValue
  split
  · exact .refl cursor
  · next c back starts =>
    split
    · exact .refl cursor
    · split
      · next quote =>
        refine leads_quotedValue starts ?_
        simp only [Bool.or_eq_true, decide_eq_true_eq] at quote
        rcases quote with rfl | rfl <;> rfl
      · exact leads_valueToken cursor _

theorem leads_readAttribute (cursor : Cursor) :
    Leads delimiters true cursor ((readAttribute cursor).name :: (readAttribute cursor).value.toList)
      true (readAttribute cursor).cursor := by
  have name : Leads delimiters true cursor
      [⟨.attrName (cursor.peek (attributeNameLength cursor.rest)),
        (cursor.advance (attributeNameLength cursor.rest)).spanFrom cursor.position⟩] true
      (skipBlanks (cursor.advance (attributeNameLength cursor.rest))) := by
    have read : Leads delimiters true cursor [⟨.attrName _, _⟩] true _ :=
      .single (cursor.passes_advance (attributeNameLength cursor.rest)) rfl
        (cursor.toList_peek _).symm
    exact read.trans (.skipBlanks _)
  unfold readAttribute
  simp only
  split
  · next back starts =>
    have equals : Leads delimiters true _ [] true _ :=
      .skip (Cursor.passes_front ['='] starts) (gap_separator rfl)
    exact name.trans (equals.trans ((Leads.skipBlanks _).trans (leads_attributeValue _)))
  · exact name

theorem front_of_startsWith {text : String} {cursor : Cursor}
    (starts : startsWith text cursor = true) :
    cursor.Passes text.toList (cursor.advance text.toList.length) := by
  obtain ⟨back, whole⟩ := List.isPrefixOf_iff_prefix.mp starts
  exact Cursor.passes_front _ whole.symm

theorem leads_startTagRest (pending : List Problem) (cursor : Cursor) :
    Leads delimiters true cursor ((startTagRest pending cursor).pulls.map (·.token)) false
      (startTagRest pending cursor).cursor := by
  fun_induction startTagRest pending cursor with
  | case1 pending cursor start ended token =>
    exact .single (.refl cursor) rfl (.inr ⟨rfl, ended⟩)
  | case2 pending cursor start more slashed =>
    exact .single (front_of_startsWith slashed) rfl rfl
  | case3 pending cursor start more unslashed closed =>
    exact .single (front_of_startsWith closed) rfl (.inl rfl)
  | case4 pending cursor start more unslashed unclosed solidus ih =>
    have slash : Leads delimiters true cursor [] true _ :=
      .skip (front_of_startsWith solidus) (gap_separator rfl)
    exact slash.trans ((Leads.skipBlanks _).trans ih)
  | case5 pending cursor more unslashed unclosed plain rest read value ih =>
    have named : Leads delimiters true _ _ true _ := leads_readAttribute cursor
    have whole := named.trans ((Leads.skipBlanks _).trans ih)
    simpa [value, read, rest, Function.comp_def] using whole

/-- Reading the piece from `cursor` gives its tokens, from outside of tags to outside of tags. -/
abbrev Follows (delimiters : Delimiters) (cursor : Cursor) (piece : Piece) : Prop :=
  Leads delimiters false cursor (piece.pulls.map (·.token)) false piece.cursor

theorem follows_startTag {cursor : Cursor} {back : List Char} (starts : cursor.rest = '<' :: back) :
    Follows delimiters cursor (startTag cursor) := by
  have angle : cursor.Passes ['<'] (cursor.advance 1) := Cursor.passes_front ['<'] starts
  have name := (cursor.advance 1).passes_advance (tagNameLength (cursor.advance 1).rest)
  have opened : Leads delimiters false cursor
      [⟨.tagOpen ((cursor.advance 1).peek (tagNameLength (cursor.advance 1).rest)), _⟩] true _ :=
    .single (angle.trans name) rfl (by simp [TokenKind.Spells, Cursor.toList_peek])
  exact opened.trans ((Leads.skipBlanks _).trans (leads_startTagRest [] _))

theorem reaches_endTagRest (cursor : Cursor) : cursor.Reaches (endTagRest cursor).cursor := by
  fun_induction endTagRest cursor with
  | case1 cursor ended => exact (Cursor.Passes.refl cursor).reaches
  | case2 cursor going solidus rest found ih =>
    exact (cursor.reaches_advance 1).trans ((Cursor.passes_skipWhile _ _).reaches.trans ih)
  | case3 cursor going plain rest ih =>
    have named : cursor.Reaches _ := (@leads_readAttribute .standard cursor).reaches
    exact named.trans ((Cursor.passes_skipWhile _ _).reaches.trans ih)

theorem reaches_closeEndTag (start : Position) (cursor : Cursor) :
    cursor.Reaches (closeEndTag start cursor).2 := by
  unfold closeEndTag
  split
  · exact (Cursor.Passes.refl cursor).reaches
  · split
    · exact cursor.reaches_advance 2
    · exact cursor.reaches_advance 1

theorem follows_endTag {cursor : Cursor} {back : List Char}
    (starts : cursor.rest = '<' :: '/' :: back) : Follows delimiters cursor (endTag cursor) := by
  have angle : cursor.Passes ['<', '/'] (cursor.advance 2) :=
    Cursor.passes_front ['<', '/'] starts
  have name : (cursor.advance 2).Passes _ _ := (cursor.advance 2).passes_skipWhile isNameChar
  obtain ⟨attributes, others⟩ : Cursor.Reaches _ _ :=
    (Cursor.passes_skipWhile ((cursor.advance 2).skipWhile isNameChar) isBlank).reaches.trans
      ((reaches_endTagRest _).trans (reaches_closeEndTag cursor.position _))
  refine Leads.single (angle.trans (name.trans others)) rfl ⟨attributes, ?_, ?_⟩
  · rw [Cursor.toList_peek, tagNameLength,
      ← List.prefix_iff_eq_take.mp (List.takeWhile_prefix isNameChar)]
    rfl
  · intro c member
    have ends := List.head?_dropWhile_not isNameChar (cursor.advance 2).rest
    rw [← Cursor.rest_skipWhile, others.rest, List.head?_append, member] at ends
    simpa using ends

theorem pastAngle_passes (cursor : Cursor) :
    ∃ body, cursor.Passes body (pastAngle cursor) ∧ cursor.rest.takeWhile (· != '>') <+: body := by
  have before : cursor.rest.takeWhile (· != '>') <+: cursor.rest := List.takeWhile_prefix _
  unfold pastAngle
  split
  · next index found =>
    refine ⟨_, cursor.passes_advance (index + 1), ?_⟩
    rcases List.prefix_or_prefix_of_prefix before (List.take_prefix (index + 1) _) with
      shorter | longer
    · exact shorter
    · obtain ⟨rest, behind⟩ := prefix_drop_of_find? found
      have angle : '>' ∈ cursor.rest.take (index + 1) := by
        rw [List.take_add, ← behind]
        simp
      have solid := List.mem_takeWhile_imp (longer.subset angle)
      simp at solid
  · refine ⟨_, cursor.passes_advance cursor.rest.length, ?_⟩
    rwa [List.take_length]

theorem follows_bogusComment (skip : Nat) (problems : List Problem) (cursor : Cursor) :
    Follows delimiters cursor (bogusComment skip problems cursor) := by
  obtain ⟨body, passed, before⟩ := pastAngle_passes cursor
  refine Leads.single passed rfl ?_
  simp only [TokenKind.Spells, String.toList_ofList]
  exact (List.drop_suffix skip _).isInfix.trans before.isInfix

theorem nestedComments_cursor (length : Nat) (cursor : Cursor) :
    (nestedComments length cursor).2 = cursor.advance length := by
  fun_induction nestedComments length cursor with
  | case1 length cursor absent => rfl
  | case2 length cursor index found after problems rest ih =>
    have inside := find?_length_le found
    have four : "<!--".toList.length = 4 := by decide
    rw [List.length_take] at inside
    simp only [rest, ih, after, Cursor.advance_advance]
    congr 1
    omega

/-- The text of a comment is the end of what is read of it, or empty. -/
theorem commentText_passes (cursor : Cursor) :
    ∃ body, cursor.Passes body (commentText cursor).cursor ∧
      (commentText cursor).text.toList <:+ body := by
  have text : ∀ length, cursor.Passes
      (cursor.rest.take 4 ++ (cursor.advance 4).rest.take length)
      (nestedComments length (cursor.advance 4)).2 := by
    intro length
    rw [nestedComments_cursor]
    exact (cursor.passes_advance 4).trans ((cursor.advance 4).passes_advance length)
  unfold commentText
  simp only
  split
  · next stop found =>
    split
    · exact ⟨_, cursor.passes_advance 2, by simp⟩
    · refine ⟨_, text (stop - 4), ?_⟩
      rw [Cursor.toList_peek]
      exact List.suffix_append _ _
  · refine ⟨_, text _, ?_⟩
    rw [List.take_length, String.toList_ofList]
    exact List.suffix_append _ _

theorem reaches_closeComment (start : Position) (cursor : Cursor) :
    cursor.Reaches (closeComment start cursor).2 := by
  unfold closeComment
  split
  · exact (Cursor.Passes.refl cursor).reaches
  · split
    · exact cursor.reaches_advance 4
    · split
      · exact cursor.reaches_advance 3
      · obtain ⟨body, passed, -⟩ := pastAngle_passes cursor
        exact passed.reaches

theorem follows_comment (cursor : Cursor) : Follows delimiters cursor (comment cursor) := by
  obtain ⟨front, opened, inside⟩ := commentText_passes cursor
  obtain ⟨back, closed⟩ := reaches_closeComment cursor.position (commentText cursor).cursor
  refine Leads.single (opened.trans closed) rfl ?_
  exact inside.isInfix.trans (List.prefix_append front back).isInfix

theorem follows_declaration (cursor : Cursor) : Follows delimiters cursor (declaration cursor) := by
  unfold declaration
  simp only
  split
  · exact follows_comment cursor
  · split
    · exact follows_bogusComment _ _ cursor
    · split
      · exact follows_bogusComment _ _ cursor
      · exact follows_bogusComment _ _ cursor

theorem follows_textPiece (decode : Bool) (length : Nat) (cursor : Cursor) :
    Follows delimiters cursor (textPiece decode length cursor) := by
  refine Leads.single (cursor.passes_advance length) rfl ?_
  cases decode <;> exact (cursor.toList_peek length).symm

theorem follows_strayText (kind : ProblemKind) (length problemLength : Nat) (cursor : Cursor) :
    Follows delimiters cursor (strayText kind length problemLength cursor) := by
  refine Leads.single (cursor.passes_advance length) rfl ?_
  exact (cursor.toList_peek length).symm

theorem interpolation_spells {cursor : Cursor}
    (starts : startsWith delimiters.opening cursor = true) : ∃ source body,
      (interpolation delimiters cursor).pulls.map (·.token) =
        [⟨.interpolation source, (interpolation delimiters cursor).cursor.spanFrom cursor.position⟩] ∧
      cursor.Passes body (interpolation delimiters cursor).cursor ∧
      (TokenKind.interpolation source).Spells delimiters body
        (interpolation delimiters cursor).cursor.rest := by
  have opened := front_of_startsWith starts
  simp only [interpolation]
  generalize cursor.advance delimiters.opening.toList.length = inside at opened
  split
  · next length found =>
    obtain ⟨rest, behind⟩ := prefix_drop_of_find? found
    have source := inside.passes_advance length
    have closed : (inside.advance length).Passes _ _ := Cursor.passes_front _ behind.symm
    have whole := (source.trans closed).rest
    have length_le := find?_length_le found
    rw [Cursor.advance_advance] at closed whole
    refine ⟨_, _, rfl, opened.trans (source.trans closed), .inl ⟨?_, ?_⟩⟩
    · rw [Cursor.toList_peek, List.append_assoc]
    · rw [Piece.single, Cursor.toList_peek, ← whole, found, List.length_take]
      congr 1
      omega
  · next absent =>
    have source := inside.passes_advance inside.rest.length
    refine ⟨_, _, rfl, opened.trans source, .inr ⟨?_, ?_, ?_⟩⟩
    · rw [List.take_length, String.toList_ofList]
    · simp [Piece.single]
    · rwa [String.toList_ofList]

theorem follows_interpolation {cursor : Cursor}
    (starts : startsWith delimiters.opening cursor = true) :
    Follows delimiters cursor (interpolation delimiters cursor) := by
  obtain ⟨source, body, tokens, passed, spelled⟩ := interpolation_spells starts
  rw [Follows, tokens]
  exact Leads.single passed rfl spelled

theorem follows_markup (cursor : Cursor) : Follows delimiters cursor (markup cursor) := by
  unfold markup
  simp only
  split
  · exact follows_strayText _ _ _ cursor
  · next rest starts =>
    refine Leads.skip (Cursor.passes_front ['<', '/', '>'] starts) ?_
    exact ⟨1, rfl⟩
  · next starts =>
    split
    · exact follows_endTag starts
    · exact follows_bogusComment _ _ cursor
  · exact follows_declaration cursor
  · exact follows_bogusComment _ _ cursor
  · next starts =>
    split
    · exact follows_startTag starts
    · exact follows_strayText _ _ _ cursor
  · exact follows_strayText _ _ _ cursor

theorem follows_dataPiece (cursor : Cursor) :
    Follows delimiters cursor (dataPiece delimiters cursor) := by
  unfold dataPiece
  split
  · exact follows_textPiece _ _ cursor
  · split
    · next starts => exact follows_interpolation starts
    · exact follows_markup cursor

/-- What a step can be: a piece of content, and in the text of an element an interpolation, a run of
text or, with nothing read, the way back to the content. -/
inductive Stepped (option : ScanOption) (cursor : Cursor) : Mode → Piece → Mode → Prop where
  | content {next : Mode} :
      Stepped option cursor .data (dataPiece option.delimiters cursor) next
  | interpolation {tag : String} (starts : startsWith option.delimiters.opening cursor = true) :
      Stepped option cursor (.rcData tag) (Lexer.interpolation option.delimiters cursor)
        (.rcData tag)
  | text {mode next : Mode} {decode : Bool} {length : Nat} (inside : mode ≠ .data)
      (some : length ≠ 0) : Stepped option cursor mode (textPiece decode length cursor) next
  | leave {mode : Mode} (inside : mode ≠ .data) : Stepped option cursor mode { cursor } .data

/-- The text up to `length`, which is the end tag of the element if it is zero. -/
theorem stepped_upTo {option : ScanOption} {cursor : Cursor} {mode next : Mode} {piece : Piece}
    {decode : Bool} {length : Nat} (inside : mode ≠ .data)
    (stepped : (if length = 0 then .ok ({ cursor }, .data)
      else .ok (textPiece decode length cursor, .data) : Except Fault (Piece × Mode)) =
        .ok (piece, next)) :
    Stepped option cursor mode piece next := by
  split at stepped
  · cases stepped
    exact .leave inside
  · next some =>
    cases stepped
    exact .text inside some

theorem step_cases {option : ScanOption} {cursor : Cursor} {mode next : Mode} {piece : Piece}
    (stepped : step option cursor mode = .ok (piece, next)) :
    Stepped option cursor mode piece next := by
  cases mode with
  | data =>
    cases stepped
    exact .content
  | rawText tag =>
    simp only [step, bind, Except.bind, pure, Except.pure] at stepped
    split at stepped
    · cases stepped
    · exact stepped_upTo (by simp) stepped
  | rcData tag =>
    simp only [step, bind, Except.bind, pure, Except.pure] at stepped
    split at stepped
    · next starts =>
      cases stepped
      exact .interpolation starts
    · next unopened =>
      split at stepped
      · cases stepped
      · split at stepped
        · next index found =>
          split at stepped
          · cases stepped
            refine .text (by simp) ?_
            intro zero
            exact unopened (isPrefixOf_of_find?_zero (zero ▸ found))
          · exact stepped_upTo (by simp) stepped
        · exact stepped_upTo (by simp) stepped

theorem follows_step {option : ScanOption} {cursor : Cursor} {mode next : Mode} {piece : Piece}
    (stepped : step option cursor mode = .ok (piece, next)) :
    Follows option.delimiters cursor piece := by
  cases step_cases stepped with
  | content => exact follows_dataPiece cursor
  | interpolation starts => exact follows_interpolation starts
  | text => exact follows_textPiece _ _ cursor
  | leave => exact .refl cursor

/-- Tokens that tile the rest of a template follow each step, up to where nothing is left. -/
theorem tiled_scanFrom {option : ScanOption} {pending found : List Problem} {cursor : Cursor}
    {mode : Mode} (ended : (scanFrom option pending cursor mode).ending = .ok found) :
    Tiled option.delimiters false cursor.position (scanFrom option pending cursor mode).tokens
      cursor.rest := by
  fun_induction scanFrom option pending cursor mode with
  | case1 pending cursor mode empty =>
    rw [empty]
    exact .done (gap_nil false)
  | case2 pending cursor mode more fault failed => cases ended
  | case3 pending cursor mode more piece next stepped none ih =>
    have follows := follows_step stepped
    rw [Follows, none] at follows
    exact follows.tiles _ (ih ended)
  | case4 pending cursor mode more piece next stepped first others pulls rest ih =>
    have follows := follows_step stepped
    rw [Follows, pulls] at follows
    have whole := follows.tiles _ (ih ended)
    simpa [Scan.tokens, rest] using whole

end Lexer

structure TilesSource (option : ScanOption) (source : String) (tokens : List Token) : Prop where
  /-- Nothing is lost between the tokens, and nothing is read twice. -/
  tiled : Lexer.Tiled option.delimiters false {} tokens source.toList
  forward : ∀ token ∈ tokens, token.span.start.offset ≤ token.span.stop.offset
  ordered : tokens.Pairwise fun first second => first.span.stop.offset ≤ second.span.start.offset
  /-- The offsets of a token are those of the stretch that it spells out. -/
  slices : ∀ token ∈ tokens, ∃ before body later, source.toList = before ++ body ++ later ∧
    token.span.start.offset = byteLength before ∧
    token.span.stop.offset = byteLength (before ++ body) ∧
    token.kind.Spells option.delimiters body later

theorem scan_tilesSource (option : ScanOption) (source : String) (found : List Problem)
    (ended : (scan option source).ending = .ok found) :
    TilesSource option source (scan option source).tokens := by
  have tiled := Lexer.tiled_scanFrom ended
  exact ⟨tiled, tiled.forward, tiled.ordered, tiled.offsets⟩

/-- A start tag with a stray solidus and a value without quotes, a nameless end tag, an end tag
with an attribute, and an interpolation that is never closed. -/
def untidySource : String :=
  "<p / a = 'x'b=y>1</></p c=\"2\"><!-- -->\x7b\x7b z"

theorem scan_tilesSource_untidy :
    (scan {} untidySource).ending = .ok [] ∧
      TilesSource {} untidySource (scan {} untidySource).tokens := by
  have ended : (scan {} untidySource).ending = .ok [] := by decide +kernel
  exact ⟨ended, scan_tilesSource {} untidySource _ ended⟩

end TemplateCompiler
