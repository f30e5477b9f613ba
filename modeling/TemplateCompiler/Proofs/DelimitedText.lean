import TemplateCompiler.Proofs.TokenGrammar

/-! The text of an element that is not read like other content. Raw text goes up to the first end
tag of its element that stands in the source, whatever else stands in front of it, and is one token;
text with references goes as far, or up to the next interpolation. Behind either the end tag is
read, unless the source ends. -/

namespace TemplateCompiler

open Text

namespace Text

def Free (begins : List Char → Prop) (text back : List Char) : Prop :=
  ∀ front later, text = front ++ later → later ≠ [] → ¬ begins (later ++ back)

variable {begins : List Char → Prop} {text back : List Char} {c : Char}

theorem free_nil (begins : List Char → Prop) (back : List Char) : Free begins [] back := by
  intro front later whole some
  exact absurd (List.append_eq_nil_iff.1 whole.symm).2 some

theorem Free.cons (here : ¬ begins (c :: (text ++ back))) (free : Free begins text back) :
    Free begins (c :: text) back := by
  intro front later whole some
  cases front with
  | nil =>
    rw [← show c :: text = later from whole]
    exact here
  | cons first front => exact free front later (List.cons.inj whole).2 some

/-- The first part of a text is as free as the whole. -/
theorem Free.left {middle : List Char} (free : Free begins (text ++ middle) back) :
    Free begins text (middle ++ back) := by
  rintro front later rfl some occurs
  refine free front (later ++ middle) (List.append_assoc ..) (by simp [some]) ?_
  rwa [List.append_assoc]

theorem Free.take {length shorter : Nat} (le : shorter ≤ length)
    (free : Free begins (text.take length) (text.drop length)) :
    Free begins (text.take shorter) (text.drop shorter) := by
  have first : (text.take length).take shorter = text.take shorter := by
    rw [List.take_take, Nat.min_eq_left le]
  have parted : text.take length = text.take shorter ++ (text.take length).drop shorter := by
    rw [← first, List.take_append_drop]
  have behind : (text.take length).drop shorter ++ text.drop length = text.drop shorter := by
    refine (List.append_right_inj (text.take shorter)).1 ?_
    rw [← List.append_assoc, ← parted, List.take_append_drop, List.take_append_drop]
  rw [parted] at free
  rw [← behind]
  exact free.left

/-- In front of the first occurrence of a pattern none begins. -/
theorem free_of_find? {pattern : List Char} {index : Nat}
    (found : find? pattern text = some index) :
    Free (pattern <+: ·) (text.take index) (text.drop index) := by
  induction text generalizing index with
  | nil => simpa using free_nil _ _
  | cons c rest ih =>
    rw [find?] at found
    split at found
    · cases found
      exact free_nil _ _
    · next elsewhere =>
      obtain ⟨inner, later, rfl⟩ := Option.map_eq_some_iff.1 found
      refine Free.cons ?_ (ih later)
      rwa [List.drop_succ_cons, List.take_append_drop, ← List.isPrefixOf_iff_prefix]

theorem free_of_find?_none {pattern : List Char} (absent : find? pattern text = none) :
    Free (pattern <+: ·) text [] := by
  induction text with
  | nil => exact free_nil _ _
  | cons c rest ih =>
    rw [find?] at absent
    split at absent
    · cases absent
    · next elsewhere =>
      refine Free.cons ?_ (ih (Option.map_eq_none_iff.1 absent))
      rwa [List.append_nil, ← List.isPrefixOf_iff_prefix]

end Text

namespace Lexer

/-- An end tag of `tag` is in front: `</`, the name up to case, and behind it a blank, a solidus, an
angle bracket or nothing. -/
def EndsAt (tag : String) (text : List Char) : Prop :=
  ∃ behind, text = '<' :: '/' :: behind ∧ Ends tag behind

variable {tag : String} {text content back : List Char}

theorem EndsAt.length_le (ends : EndsAt tag text) :
    2 + byteLength tag.toList ≤ byteLength text := by
  obtain ⟨-, rfl, name, back, rfl, same, -⟩ := ends
  have counted := byteLength_of_sameIgnoringCase same
  rw [String.toList_ofList] at counted
  rw [byteLength_closing, byteLength_append]
  omega

/-- `content` goes up to the first end tag of `tag`, or up to the end if there is none. -/
structure UpToEnd (tag : String) (content back : List Char) : Prop where
  free : Free (EndsAt tag) content back
  ends : back = [] ∨ EndsAt tag back

/-- A search that goes on behind a character finds the first end tag, if none begins at it. -/
theorem upToEnd_cons {c : Char} {length : Nat} (here : ¬ EndsAt tag (c :: text))
    (inside : ∀ length, appropriateEnd tag text = .ok length →
      UpToEnd tag (text.take length) (text.drop length))
    (found : (appropriateEnd tag text).map (· + 1) = .ok length) :
    UpToEnd tag ((c :: text).take length) ((c :: text).drop length) := by
  cases inner : appropriateEnd tag text with
  | error fault =>
    rw [inner] at found
    cases found
  | ok shorter =>
    rw [inner] at found
    cases found
    obtain ⟨free, ends⟩ := inside shorter inner
    refine ⟨Free.cons ?_ free, ends⟩
    rwa [List.drop_succ_cons, List.take_append_drop]

/-- The search for the end of the text finds its first end tag. -/
theorem upToEnd_of_appropriateEnd (tag : String) (text : List Char) :
    ∀ length, appropriateEnd tag text = .ok length →
      UpToEnd tag (text.take length) (text.drop length) := by
  fun_induction appropriateEnd tag text with
  | case1 =>
    rintro length ⟨⟩
    exact ⟨free_nil _ _, .inl rfl⟩
  | case2 behind short =>
    -- no end tag has room in what is left
    have fits : byteLength behind < byteLength tag.toList := fits_of_splitBytes short
    have all : ('/' :: behind).length + 1 = ('<' :: '/' :: behind).length := rfl
    rintro length ⟨⟩
    rw [all, List.take_length, List.drop_length]
    refine ⟨?_, .inl rfl⟩
    intro front later whole some ends
    have room := ends.length_le
    have bytes := congrArg byteLength whole
    rw [byteLength_closing, byteLength_append] at bytes
    rw [List.append_nil] at room
    omega
  | case3 => rintro length ⟨⟩
  | case4 behind name back split terminated ends =>
    obtain ⟨rfl, bytes⟩ := fits_of_splitBytes split
    rintro length ⟨⟩
    refine ⟨free_nil _ _, .inr ⟨_, rfl, (ends_append bytes).2 ?_⟩⟩
    cases back <;> simpa [terminated] using ends
  | case5 behind name back split terminated unended ih =>
    obtain ⟨rfl, bytes⟩ := fits_of_splitBytes split
    refine fun length => upToEnd_cons ?_ ih
    rintro ⟨other, whole, ends⟩
    cases whole
    refine unended ?_
    obtain ⟨same, ends⟩ := (ends_append bytes).1 ends
    cases back <;> simp_all [terminated]
  | case6 c rest plain ih =>
    refine fun length => upToEnd_cons ?_ ih
    rintro ⟨behind, whole, -⟩
    obtain ⟨angle, solidus⟩ := List.cons.inj whole
    exact plain behind angle solidus

theorem toLower_cases (c : Char) :
    c.toLower = c ∨ c.isAlpha = true ∧ c.toLower.isAlpha = true := by
  unfold Char.toLower
  split
  · next upper =>
    have above : 65 ≤ c.toNat := UInt32.le_iff_toNat_le.mp upper.1
    have below : c.toNat ≤ 90 := UInt32.le_iff_toNat_le.mp upper.2
    have number : c.val.toNat = c.toNat := rfl
    refine .inr ⟨?_, ?_⟩
    · unfold Char.isAlpha Char.isUpper
      simp only [Bool.or_eq_true, decide_eq_true_eq, ge_iff_le]
      exact .inl upper
    · unfold Char.isAlpha Char.isLower
      simp only [Bool.or_eq_true, Bool.and_eq_true, decide_eq_true_eq, ge_iff_le,
        UInt32.le_iff_toNat_le]
      right
      simp
      omega
  · exact .inl rfl

theorem isAlpha_toLower (c : Char) : c.toLower.isAlpha = c.isAlpha := by
  rcases toLower_cases c with same | ⟨letter, lower⟩
  · rw [same]
  · rw [letter, lower]

theorem isNameChar_toLower (c : Char) : isNameChar c.toLower = isNameChar c := by
  rcases toLower_cases c with same | ⟨letter, lower⟩
  · rw [same]
  · rw [isNameChar_of_isAlpha letter, isNameChar_of_isAlpha lower]

theorem spelled_of_sameIgnoringCase {name : List Char} (named : TokenKind.IsTagName tag)
    (same : sameIgnoringCase (String.ofList name) tag = true) :
    (∃ first more, name = first :: more ∧ first.isAlpha = true) ∧
      ∀ c ∈ name, isNameChar c = true := by
  rw [sameIgnoringCase, beq_iff_eq, String.toList_ofList] at same
  have alike {p : Char → Bool} (ignores : ∀ c, p c.toLower = p c) :
      name.map p = tag.toList.map p := by
    have lowered (text : List Char) : (text.map Char.toLower).map p = text.map p := by
      rw [List.map_map]
      exact List.map_congr_left fun c _ => ignores c
    rw [← lowered, same, lowered]
  obtain ⟨⟨first, more, letters, letter⟩, inside⟩ := named
  constructor
  · have heads := alike isAlpha_toLower
    rw [letters, List.map_cons, letter] at heads
    obtain ⟨other, others, rfl, begins, -⟩ := List.map_eq_cons_iff.1 heads
    exact ⟨other, others, rfl, begins⟩
  · have all : ∀ part ∈ tag.toList.map isNameChar, part = true := by
      intro part member
      obtain ⟨c, among, rfl⟩ := List.mem_map.1 member
      exact isNameChar_iff.2 (inside c among)
    intro c member
    exact all _ (alike isNameChar_toLower ▸ List.mem_map_of_mem member)

/-- The tokens of what is left behind the text of `tag`: none, or its end tag is the first. -/
inductive Closed (tag : String) (position : Position) : List Char → List Token → Prop
  | ended : Closed tag position [] []
  | endTag {back : List Char} {name : String} {stop : Position} {others : List Token}
      (ends : EndsAt tag back) (same : sameIgnoringCase name tag = true) :
      Closed tag position back (⟨.tagClose name, ⟨position, stop⟩⟩ :: others)

variable {option : ScanOption} {cursor : Cursor} {pending : List Problem}

/-- A step in front of the tokens that are read behind it. -/
theorem scanFrom_split {mode next : Mode} {piece : Piece} (more : cursor.rest ≠ [])
    (stepped : step option cursor mode = .ok (piece, next)) :
    ∃ left, (scanFrom option pending cursor mode).tokens =
        piece.pulls.map (·.token) ++ (scanFrom option left piece.cursor next).tokens ∧
      (scanFrom option pending cursor mode).ending =
        (scanFrom option left piece.cursor next).ending := by
  rw [scanFrom_stepped more stepped]
  cases pulls : piece.pulls with
  | nil => exact ⟨_, rfl, rfl⟩
  | cons first others =>
    refine ⟨piece.problems, ?_, rfl⟩
    simp [Scan.tokens]

theorem tokens_scanFrom_nil {mode : Mode} (ended : cursor.rest = []) :
    (scanFrom option pending cursor mode).tokens = [] := by
  rw [scanFrom, dif_pos ended]
  rfl

/-- Among elements, an angle bracket is no text, and no interpolation either. -/
theorem dataPiece_angle {rest : List Char}
    (opening : option.delimiters.opening.toList.head? ≠ some '<')
    (starts : cursor.rest = '<' :: rest) :
    dataPiece option.delimiters cursor = markup cursor := by
  have angle : find? ['<'] cursor.rest = some 0 := starts ▸ find?_prefix ['<'] rest
  have length : plainLength option.delimiters cursor.rest = 0 := by
    rw [plainLength, angle]
    cases find? option.delimiters.opening.toList cursor.rest with
    | none => rfl
    | some mark => exact Nat.zero_min mark
  have unopened : startsWith option.delimiters.opening cursor = false := by
    rw [startsWith, starts]
    cases letters : option.delimiters.opening.toList with
    | nil => exact absurd (String.toList_eq_nil_iff.1 letters) option.delimiters.opening_ne
    | cons first others =>
      have different : first ≠ '<' := by
        rintro rfl
        exact opening (by rw [letters]; rfl)
      simp [List.isPrefixOf, different]
  simp [dataPiece, length, unopened]

/-- Where an end tag is in front, it is read. -/
theorem closed_endTag (named : TokenKind.IsTagName tag)
    (opening : option.delimiters.opening.toList.head? ≠ some '<')
    (ends : EndsAt tag cursor.rest) :
    Closed tag cursor.position cursor.rest (scanFrom option pending cursor .data).tokens := by
  obtain ⟨behind, starts, name, back, rfl, same, outside⟩ := id ends
  obtain ⟨⟨first, others, rfl, letter⟩, inside⟩ := spelled_of_sameIgnoringCase named same
  have piece : dataPiece option.delimiters cursor = endTag cursor := by
    rw [dataPiece_angle opening starts, markup_endTag letter starts]
  have named : (cursor.advance 2).rest = (first :: others) ++ back := by
    rw [Cursor.rest_advance, starts]
    rfl
  have length : tagNameLength (cursor.advance 2).rest = (first :: others).length := by
    rw [named, tagNameLength, takeWhile_name inside outside]
  have read : (cursor.advance 2).peek (tagNameLength (cursor.advance 2).rest) =
      String.ofList (first :: others) := by
    rw [length, peek_of_rest named]
  obtain ⟨left, tokens, -⟩ := @scanFrom_split option cursor pending .data _ _
    (by rw [starts]; exact List.cons_ne_nil _ _) rfl
  rw [tokens, piece]
  simp only [endTag, Piece.single, List.map_cons, List.map_nil, List.singleton_append, read]
  exact .endTag ends same

theorem closed_data (named : TokenKind.IsTagName tag)
    (opening : option.delimiters.opening.toList.head? ≠ some '<')
    (ends : cursor.rest = [] ∨ EndsAt tag cursor.rest) :
    Closed tag cursor.position cursor.rest (scanFrom option pending cursor .data).tokens := by
  rcases ends with ended | ends
  · rw [tokens_scanFrom_nil ended, ended]
    exact .ended
  · exact closed_endTag named opening ends

/-- The token of a raw text, in which nothing is decoded. An empty text has none. -/
def rawTokens (content : List Char) (position : Position) : List Token :=
  if content = [] then []
  else [⟨.text { raw := String.ofList content }, ⟨position, position.advance content⟩⟩]

def HoldsRawText (tag : String) (position : Position) (rest : List Char) (tokens : List Token) :
    Prop :=
  ∃ content back later, rest = content ++ back ∧ UpToEnd tag content back ∧
    tokens = rawTokens content position ++ later ∧
    Closed tag (position.advance content) back later

theorem advance_zero (cursor : Cursor) : cursor.advance 0 = cursor := by
  simp [Cursor.advance]

theorem tokens_textPiece (cursor : Cursor) (length : Nat) (more : cursor.rest ≠ []) :
    let piece := if length = 0 then { cursor } else textPiece false length cursor
    piece.cursor = cursor.advance length ∧
      piece.pulls.map (·.token) = rawTokens (cursor.rest.take length) cursor.position := by
  dsimp only
  split
  · next zero =>
    rw [zero, advance_zero]
    exact ⟨rfl, rfl⟩
  · next some =>
    have content : cursor.rest.take length ≠ [] := by simp [some, more]
    rw [rawTokens, if_neg content]
    exact ⟨rfl, rfl⟩

variable {found : List Problem}

theorem holdsRawText (named : TokenKind.IsTagName tag)
    (opening : option.delimiters.opening.toList.head? ≠ some '<')
    (ended : (scanFrom option pending cursor (.rawText tag)).ending = .ok found) :
    HoldsRawText tag cursor.position cursor.rest
      (scanFrom option pending cursor (.rawText tag)).tokens := by
  by_cases more : cursor.rest = []
  · rw [tokens_scanFrom_nil more, more]
    exact ⟨[], [], [], rfl, ⟨free_nil _ _, .inl rfl⟩, rfl, .ended⟩
  cases search : appropriateEnd tag cursor.rest with
  | error fault =>
    have failed : step option cursor (.rawText tag) = .error fault := by
      simp [step, search, bind, Except.bind]
    rw [scanFrom_failed more failed] at ended
    cases ended
  | ok length =>
    have upTo := upToEnd_of_appropriateEnd tag cursor.rest length search
    have stepped : step option cursor (.rawText tag) =
        .ok (if length = 0 then { cursor } else textPiece false length cursor, .data) := by
      simp only [step, search, bind, Except.bind, pure, Except.pure]
      split <;> rfl
    obtain ⟨after, own⟩ := tokens_textPiece cursor length more
    obtain ⟨left, tokens, -⟩ := @scanFrom_split option cursor pending _ _ _ more stepped
    rw [after, own] at tokens
    have closed := @closed_data tag option (cursor.advance length) left named opening upTo.ends
    exact ⟨_, _, _, (List.take_append_drop length cursor.rest).symm, upTo, tokens, closed⟩

/-- The tokens of a source from the text of `tag` on, in which references and interpolations are
read. Where an interpolation or the end tag begins, no text goes on. -/
inductive HoldsText (delimiters : Delimiters) (tag : String) :
    Position → List Char → List Token → Prop
  | closed {position : Position} {back : List Char} {later : List Token}
      (closed : Closed tag position back later) : HoldsText delimiters tag position back later
  | text {position : Position} {content back : List Char} {others : List Token}
      (some : content ≠ []) (unopened : Free (delimiters.opening.toList <+: ·) content back)
      (unended : Free (EndsAt tag) content back)
      (more : HoldsText delimiters tag (position.advance content) back others) :
      HoldsText delimiters tag position (content ++ back)
        (⟨.text (Phrase.decoded { raw := String.ofList content } false),
          ⟨position, position.advance content⟩⟩ :: others)
  | interpolation {position : Position} {body back : List Char} {source : String}
      {others : List Token}
      (spelled : (TokenKind.interpolation source).Spells delimiters body back)
      (more : HoldsText delimiters tag (position.advance body) back others) :
      HoldsText delimiters tag position (body ++ back)
        (⟨.interpolation source, ⟨position, position.advance body⟩⟩ :: others)

inductive TextStep (option : ScanOption) (tag : String) (cursor : Cursor) : Piece → Mode → Prop
  | interpolation (starts : startsWith option.delimiters.opening cursor = true) :
      TextStep option tag cursor (interpolation option.delimiters cursor) (.rcData tag)
  /-- Text up to an interpolation, or up to the end tag. -/
  | text {length : Nat} {next : Mode} (some : length ≠ 0)
      (unopened : Free (option.delimiters.opening.toList <+: ·) (cursor.rest.take length)
        (cursor.rest.drop length))
      (unended : Free (EndsAt tag) (cursor.rest.take length) (cursor.rest.drop length))
      (further : next = .rcData tag ∨
        next = .data ∧ (cursor.rest.drop length = [] ∨ EndsAt tag (cursor.rest.drop length))) :
      TextStep option tag cursor (textPiece true length cursor) next
  | leave (ends : cursor.rest = [] ∨ EndsAt tag cursor.rest) :
      TextStep option tag cursor { cursor } .data

/-- All of the text up to the end tag is one token, if no interpolation begins in it. -/
theorem textStep_upTo {length : Nat} {piece : Piece} {next : Mode}
    (upTo : UpToEnd tag (cursor.rest.take length) (cursor.rest.drop length))
    (unopened : Free (option.delimiters.opening.toList <+: ·) (cursor.rest.take length)
      (cursor.rest.drop length))
    (stepped : (if length = 0 then .ok ({ cursor }, .data)
      else .ok (textPiece true length cursor, .data) : Except Fault (Piece × Mode)) =
        .ok (piece, next)) :
    TextStep option tag cursor piece next := by
  split at stepped
  · next zero =>
    cases stepped
    rw [zero] at upTo
    exact .leave upTo.ends
  · next some =>
    cases stepped
    exact .text some unopened upTo.free (.inr ⟨rfl, upTo.ends⟩)

theorem textStep_of_step {piece : Piece} {next : Mode}
    (stepped : step option cursor (.rcData tag) = .ok (piece, next)) :
    TextStep option tag cursor piece next := by
  simp only [step, bind, Except.bind, pure, Except.pure] at stepped
  split at stepped
  · next starts =>
    cases stepped
    exact .interpolation starts
  · next elsewhere =>
    split at stepped
    · cases stepped
    · next length search =>
      have upTo := upToEnd_of_appropriateEnd tag cursor.rest length search
      split at stepped
      · next index mark =>
        have unopened := free_of_find? mark
        split at stepped
        · next before =>
          cases stepped
          refine .text ?_ unopened (upTo.free.take (Nat.le_of_lt before)) (.inl rfl)
          rintro rfl
          exact elsewhere (isPrefixOf_of_find?_zero mark)
        · next behind => exact textStep_upTo upTo (unopened.take (Nat.le_of_not_lt behind)) stepped
      · next absent =>
        have unopened := free_of_find?_none absent
        rw [← List.take_append_drop length cursor.rest] at unopened
        have left := unopened.left
        rw [List.append_nil] at left
        exact textStep_upTo upTo left stepped

theorem holdsText (named : TokenKind.IsTagName tag)
    (opening : option.delimiters.opening.toList.head? ≠ some '<')
    (ended : (scanFrom option pending cursor (.rcData tag)).ending = .ok found) :
    HoldsText option.delimiters tag cursor.position cursor.rest
      (scanFrom option pending cursor (.rcData tag)).tokens := by
  induction size : cursor.rest.length using Nat.strong_induction_on generalizing cursor pending with
  | _ size ih =>
    by_cases more : cursor.rest = []
    · rw [tokens_scanFrom_nil more, more]
      exact .closed .ended
    cases stepped : step option cursor (.rcData tag) with
    | error fault =>
      rw [scanFrom_failed more stepped] at ended
      cases ended
    | ok result =>
      obtain ⟨piece, next⟩ := result
      obtain ⟨left, tokens, ending⟩ := @scanFrom_split option cursor pending _ _ _ more stepped
      rw [ending] at ended
      rw [tokens]
      cases textStep_of_step stepped with
      | interpolation starts =>
        obtain ⟨source, body, own, passed, spelled⟩ := interpolation_spells starts
        have shorter := length_interpolation_lt option.delimiters cursor more
        have later := ih _ (size ▸ shorter) ended rfl
        rw [passed.position] at later
        rw [own, passed.rest, Cursor.spanFrom, passed.position]
        exact .interpolation spelled later
      | @text length next some unopened unended further =>
        have shorter := length_textPiece_lt true length cursor some more
        have later : HoldsText option.delimiters tag (cursor.advance length).position
            (cursor.advance length).rest
            (scanFrom option left (cursor.advance length) next).tokens := by
          rcases further with rfl | ⟨rfl, ends⟩
          · exact ih _ (size ▸ shorter) ended rfl
          · exact .closed (closed_data named opening ends)
        have content : cursor.rest.take length ≠ [] := by simp [some, more]
        have whole := HoldsText.text content unopened unended later
        rwa [List.take_append_drop] at whole
      | leave ends => exact .closed (closed_data named opening ends)

def BeginsTag (token : Token) : Prop :=
  ∃ name, token.kind = .tagOpen name

def EndsTag (token : Token) : Prop :=
  ∃ selfClosing, token.kind = .tagEnd selfClosing

/-- The first of the items with some property stands at one place. -/
theorem first_unique {α : Type} {p : α → Prop} {front back other behind : List α} {first item : α}
    (before : ∀ x ∈ front, ¬ p x) (holds : p first) (earlier : ∀ x ∈ other, ¬ p x) (holds' : p item)
    (same : front ++ first :: back = other ++ item :: behind) :
    front = other ∧ first = item ∧ back = behind := by
  induction front generalizing other with
  | nil =>
    cases other with
    | nil => exact ⟨rfl, List.cons.inj same⟩
    | cons x other =>
      obtain ⟨rfl, -⟩ := List.cons.inj same
      exact absurd holds (earlier _ List.mem_cons_self)
  | cons x front ih =>
    cases other with
    | nil =>
      obtain ⟨rfl, -⟩ := List.cons.inj same
      exact absurd holds' (before _ List.mem_cons_self)
    | cons y other =>
      obtain ⟨rfl, inner⟩ := List.cons.inj same
      obtain ⟨rfl, rest⟩ := ih (List.forall_mem_of_forall_mem_cons before)
        (List.forall_mem_of_forall_mem_cons earlier) inner
      exact ⟨rfl, rest⟩

/-- A start tag does not begin in front of the tokens that are none of a start tag. -/
theorem split_behind {own later before others : List Token} {token : Token}
    (plain : ∀ token ∈ own, ¬ BeginsTag token) (begins : BeginsTag token)
    (split : own ++ later = before ++ token :: others) :
    ∃ more, later = more ++ token :: others := by
  rcases List.append_eq_append_iff.1 split with ⟨more, -, rest⟩ | ⟨more, whole, rest⟩
  · exact ⟨more, rest⟩
  · cases more with
    | nil => exact ⟨[], rest.symm⟩
    | cons first more =>
      obtain ⟨rfl, -⟩ := List.cons.inj rest
      exact absurd begins (plain _ (by simp [whole]))

structure EndsOnce (read : StartTagRest) (attributes : List Token) (selfClosing : Bool)
    (start : Position) : Prop where
  tokens : read.pulls.map (·.token) =
    attributes ++ [⟨.tagEnd selfClosing, ⟨start, read.cursor.position⟩⟩]
  inside : ∀ token ∈ attributes, ¬ BeginsTag token ∧ ¬ EndsTag token
  opened : selfClosing = false → read.opened = true ∨ start = read.cursor.position

theorem endsOnce_startTagRest (pending : List Problem) (cursor : Cursor) :
    ∃ attributes selfClosing start,
      EndsOnce (startTagRest pending cursor) attributes selfClosing start := by
  fun_induction startTagRest pending cursor with
  | case1 pending cursor start ended token =>
    exact ⟨[], false, cursor.position, rfl, List.forall_mem_nil _, fun _ => .inr rfl⟩
  | case2 pending cursor start more slashed =>
    exact ⟨[], true, cursor.position, rfl, List.forall_mem_nil _, Bool.noConfusion⟩
  | case3 pending cursor start more unslashed closed =>
    exact ⟨[], false, cursor.position, rfl, List.forall_mem_nil _, fun _ => .inl rfl⟩
  | case4 pending cursor start more unslashed unclosed solidus ih => exact ih
  | case5 pending cursor more unslashed unclosed plain rest read value ih =>
    obtain ⟨attributes, selfClosing, start, once⟩ := ih
    refine ⟨read.name :: read.value.toList ++ attributes, selfClosing, start, ?_, ?_, once.opened⟩
    · simp [rest, value, once.tokens, Function.comp_def]
    · intro token member
      rcases List.mem_append.1 member with own | later
      · rcases List.mem_cons.1 own with rfl | valued
        · simp [BeginsTag, EndsTag, read, name_readAttribute]
        · obtain ⟨content, kind⟩ := kind_readAttribute cursor token (Option.mem_toList.1 valued)
          simp [BeginsTag, EndsTag, kind]
      · exact once.inside token later

structure IsTag (piece : Piece) (name : String) (span : Span) (attributes : List Token)
    (selfClosing : Bool) (start : Position) : Prop where
  tokens : piece.pulls.map (·.token) =
    ⟨.tagOpen name, span⟩ :: (attributes ++ [⟨.tagEnd selfClosing, ⟨start, piece.cursor.position⟩⟩])
  attributes : ∀ token ∈ attributes, ¬ BeginsTag token ∧ ¬ EndsTag token
  inside : selfClosing = false → piece.inside = some name ∨ start = piece.cursor.position

theorem isTag_startTag (cursor : Cursor) : ∃ name span attributes selfClosing start,
    IsTag (startTag cursor) name span attributes selfClosing start := by
  obtain ⟨attributes, selfClosing, start, once⟩ := endsOnce_startTagRest []
    (skipBlanks ((cursor.advance 1).advance (tagNameLength (cursor.advance 1).rest)))
  have inside (closing : selfClosing = false) : (startTag cursor).inside =
      some ((cursor.advance 1).peek (tagNameLength (cursor.advance 1).rest)) ∨
        start = (startTag cursor).cursor.position :=
    (once.opened closing).imp_left fun opened => if_pos opened
  exact ⟨_, ((cursor.advance 1).advance _).spanFrom cursor.position, attributes, selfClosing, start,
    congrArg (List.cons _) once.tokens, once.inside, inside⟩

/-- No start tag begins in the piece. -/
def Piece.IsPlain (piece : Piece) : Prop :=
  ∀ token ∈ piece.pulls.map (·.token), ¬ BeginsTag token

theorem isPlain_single {token : Token} (plain : ¬ BeginsTag token) (problems : List Problem)
    (cursor : Cursor) : (Piece.single token problems cursor).IsPlain :=
  List.forall_mem_singleton.2 plain

theorem isPlain_textPiece (decode : Bool) (length : Nat) (cursor : Cursor) :
    (textPiece decode length cursor).IsPlain :=
  isPlain_single (by simp [BeginsTag]) _ _

theorem isPlain_interpolation (delimiters : Delimiters) (cursor : Cursor) :
    (interpolation delimiters cursor).IsPlain := by
  unfold interpolation
  dsimp only
  split <;> exact isPlain_single (by simp [BeginsTag]) _ _

theorem isPlain_bogusComment (skip : Nat) (problems : List Problem) (cursor : Cursor) :
    (bogusComment skip problems cursor).IsPlain :=
  isPlain_single (by simp [BeginsTag]) _ _

theorem isPlain_declaration (cursor : Cursor) : (declaration cursor).IsPlain := by
  unfold declaration
  dsimp only
  split
  · exact isPlain_single (by simp [BeginsTag]) _ _
  · split
    · exact isPlain_bogusComment _ _ _
    · split <;> exact isPlain_bogusComment _ _ _

/-- What begins with an angle bracket is a start tag, or none begins in it. -/
theorem markup_cases (cursor : Cursor) :
    markup cursor = startTag cursor ∨ (markup cursor).IsPlain := by
  have stray (kind : ProblemKind) (length problemLength : Nat) :
      (strayText kind length problemLength cursor).IsPlain :=
    isPlain_single (by simp [BeginsTag]) _ _
  unfold markup
  dsimp only
  split
  · exact .inr (stray _ _ _)
  · exact .inr (List.forall_mem_nil _)
  · split
    · exact .inr (isPlain_single (by simp [BeginsTag]) _ _)
    · exact .inr (isPlain_bogusComment _ _ _)
  · exact .inr (isPlain_declaration cursor)
  · exact .inr (isPlain_bogusComment _ _ _)
  · split
    · exact .inl rfl
    · exact .inr (stray _ _ _)
  · exact .inr (stray _ _ _)

theorem step_plain_or_startTag {mode next : Mode} {piece : Piece}
    (stepped : step option cursor mode = .ok (piece, next)) :
    piece.IsPlain ∨ mode = .data ∧ piece = startTag cursor := by
  cases step_cases stepped with
  | content =>
    unfold dataPiece
    split
    · exact .inl (isPlain_textPiece _ _ _)
    · split
      · exact .inl (isPlain_interpolation _ _)
      · exact (markup_cases cursor).symm.imp_right fun same => ⟨rfl, same⟩
  | interpolation => exact .inl (isPlain_interpolation _ _)
  | text => exact .inl (isPlain_textPiece _ _ _)
  | leave => exact .inl (List.forall_mem_nil _)

structure GoesOn (option : ScanOption) (name : String) (stop : Span) (tokens : List Token)
    (after : Cursor) : Prop where
  position : stop.stop = after.position
  inside : stop.start ≠ stop.stop → ∃ pending found,
    (scanFrom option pending after (Mode.inside option.textMode name)).ending = .ok found ∧
      tokens = (scanFrom option pending after (Mode.inside option.textMode name)).tokens

variable {name : String} {opened : Span} {stop : Span} {before attributes after : List Token}

/-- A start tag among the tokens of a step and of what is read behind it is the one that the step
reads, or it stands behind the step. -/
theorem goesOn_step {mode next : Mode} {piece : Piece} {left : List Problem}
    (stepped : step option cursor mode = .ok (piece, next))
    (ended : (scanFrom option left piece.cursor next).ending = .ok found)
    (later : ∀ more, (scanFrom option left piece.cursor next).tokens =
        more ++ ⟨.tagOpen name, opened⟩ :: (attributes ++ ⟨.tagEnd false, stop⟩ :: after) →
      ∃ reached, piece.cursor.Reaches reached ∧ GoesOn option name stop after reached)
    (inside : ∀ token ∈ attributes, ¬ EndsTag token)
    (split : piece.pulls.map (·.token) ++ (scanFrom option left piece.cursor next).tokens =
      before ++ ⟨.tagOpen name, opened⟩ :: (attributes ++ ⟨.tagEnd false, stop⟩ :: after)) :
    ∃ reached, cursor.Reaches reached ∧ GoesOn option name stop after reached := by
  have moved := (follows_step stepped).reaches
  have behind {own front : List Token} (plain : ∀ token ∈ own, ¬ BeginsTag token)
      (split : own ++ (scanFrom option left piece.cursor next).tokens =
        front ++ ⟨.tagOpen name, opened⟩ :: (attributes ++ ⟨.tagEnd false, stop⟩ :: after)) :
      ∃ reached, cursor.Reaches reached ∧ GoesOn option name stop after reached := by
    obtain ⟨more, rest⟩ := split_behind plain ⟨name, rfl⟩ split
    obtain ⟨reached, further, goesOn⟩ := later more rest
    exact ⟨reached, moved.trans further, goesOn⟩
  rcases step_plain_or_startTag stepped with plain | ⟨rfl, rfl⟩
  · exact behind plain split
  obtain ⟨tag, span, others, selfClosing, start, isTag⟩ := isTag_startTag cursor
  rw [isTag.tokens, List.cons_append] at split
  cases before with
  | cons first before =>
    obtain ⟨-, rest⟩ := List.cons.inj split
    refine behind ?_ rest
    intro token member
    rcases List.mem_append.1 member with among | last
    · exact (isTag.attributes token among).1
    · rw [List.mem_singleton.1 last]
      exact nofun
  | nil =>
    rw [List.nil_append, List.append_assoc, List.singleton_append] at split
    obtain ⟨same, rest⟩ := List.cons.inj split
    obtain ⟨-, ending, rfl⟩ := @first_unique _ EndsTag _ _ _ _ _ _
      (fun token member => (isTag.attributes token member).2) ⟨selfClosing, rfl⟩ inside
      ⟨false, rfl⟩ rest
    cases ending
    cases same
    refine ⟨_, moved, rfl, fun differs => ⟨left, found, ?_⟩⟩
    have entered := (isTag.inside rfl).resolve_right differs
    simp only [step, Except.ok.injEq, Prod.mk.injEq] at stepped
    obtain ⟨content, mode⟩ := stepped
    rw [content, entered] at mode
    rw [show Mode.inside option.textMode name = next from mode]
    exact ⟨ended, rfl⟩

/-- Behind each start tag that was read, reading went on in the mode of its element. -/
theorem goesOn_scanFrom {mode : Mode}
    (ended : (scanFrom option pending cursor mode).ending = .ok found)
    (inside : ∀ token ∈ attributes, ¬ EndsTag token) :
    ∀ before, (scanFrom option pending cursor mode).tokens =
        before ++ ⟨.tagOpen name, opened⟩ :: (attributes ++ ⟨.tagEnd false, stop⟩ :: after) →
      ∃ reached, cursor.Reaches reached ∧ GoesOn option name stop after reached := by
  fun_induction scanFrom option pending cursor mode with
  | case1 pending cursor mode empty => simp [Scan.tokens]
  | case2 pending cursor mode more fault failed => cases ended
  | case3 pending cursor mode more piece next stepped none ih =>
    intro before split
    refine @goesOn_step _ _ _ _ _ _ before _ _ _ _ _ _ stepped ended (ih ended) inside ?_
    rw [none]
    exact split
  | case4 pending cursor mode more piece next stepped first others pulls rest ih =>
    intro before split
    refine @goesOn_step _ _ _ _ _ _ before _ _ _ _ _ _ stepped ended (ih ended) inside ?_
    rw [pulls]
    simpa [Scan.tokens, rest] using split

end Lexer

/-- The tokens behind the start tag of `name`, with `rest` left to read, are those of its text up to
its end tag. -/
structure DelimitsText (option : ScanOption) (name : String) (position : Position)
    (rest : List Char) (tokens : List Token) : Prop where
  rawText : option.textMode name = .rawText → Lexer.HoldsRawText name position rest tokens
  rcData : option.textMode name = .rcData →
    Lexer.HoldsText option.delimiters name position rest tokens

/-- Wherever a start tag ends in `>`, the text of its element is delimited by its end tag. -/
theorem scan_delimitsText {option : ScanOption} {source : String} {found : List Problem}
    (ended : (scan option source).ending = .ok found)
    (opening : option.delimiters.opening.toList.head? ≠ some '<')
    {before attributes after : List Token} {name : String} {opened : Span} {front rest : List Char}
    (whole : source.toList = front ++ '>' :: rest)
    (inside : ∀ token ∈ attributes, ¬ Lexer.EndsTag token)
    (split : (scan option source).tokens = before ++ ⟨.tagOpen name, opened⟩ :: (attributes ++
      ⟨.tagEnd false, ⟨Position.after front, Position.after (front ++ ['>'])⟩⟩ :: after)) :
    DelimitsText option name (Position.after (front ++ ['>'])) rest after := by
  have grammatical := Lexer.grammatical_scanFrom option [] (.ofString source) .data
  have named : TokenKind.IsTagName name := by
    have member : ⟨.tagOpen name, opened⟩ ∈ (scan option source).tokens := by simp [split]
    obtain ⟨pull, among, same⟩ := List.mem_map.1 member
    exact grammatical.named (.tagOpen name) (List.mem_map.2 ⟨pull, among, by rw [same]⟩)
  obtain ⟨reached, ⟨text, passed⟩, goesOn⟩ := Lexer.goesOn_scanFrom ended inside before split
  have place : Position.after (front ++ ['>']) = Position.after text :=
    goesOn.position.trans passed.position
  have bytes : byteLength (front ++ ['>']) = byteLength text := by
    simpa [Position.after] using congrArg Position.offset place
  have same : (front ++ ['>']) ++ rest = text ++ reached.rest := by
    rw [← passed.rest, List.append_assoc]
    exact whole.symm
  obtain ⟨rfl, rfl⟩ := split_unique same bytes
  have differs : Position.after front ≠ Position.after (front ++ ['>']) := by
    intro here
    have offsets := congrArg Position.offset here
    have positive := ('>').utf8Size_pos
    simp only [Position.after, Position.offset_advance, byteLength_append, byteLength_cons,
      byteLength_nil] at offsets
    omega
  obtain ⟨pending, problems, ending, tokens⟩ := goesOn.inside differs
  rw [tokens, place]
  rw [← show reached.position = Position.after (front ++ ['>']) from passed.position]
  refine ⟨fun raw => ?_, fun text => ?_⟩
  · rw [Lexer.Mode.inside, raw] at ending ⊢
    exact Lexer.holdsRawText named opening ending
  · rw [Lexer.Mode.inside, text] at ending ⊢
    exact Lexer.holdsText named opening ending

/-- An end tag of another element, and then one in another case. -/
def styleSource : String := "<style>a</style-b></STYLE >"

/-- An end tag inside of an interpolation. -/
def titleSource : String := "<title>\x7b\x7b </title> \x7d\x7d"

theorem scan_delimitsText_nearMisses :
    Lexer.HoldsRawText "style" ⟨7, 1, 8⟩ (styleSource.toList.drop 7)
        ((scan {} styleSource).tokens.drop 2) ∧
      Lexer.HoldsText .standard "title" ⟨7, 1, 8⟩ (titleSource.toList.drop 7)
        ((scan {} titleSource).tokens.drop 2) := by
  constructor
  · let text : Cursor := ⟨styleSource.toList.drop 7, ⟨7, 1, 8⟩⟩
    have search : Lexer.appropriateEnd "style" text.rest = .ok 11 := by
      simp [text, styleSource, Lexer.appropriateEnd, Lexer.splitBytes, byteLength, Char.utf8Size,
        sameIgnoringCase, Lexer.isNameChar, isBlank, Except.map]
    have begins : Lexer.step {} (.ofString styleSource) .data =
        .ok (Lexer.dataPiece .standard (.ofString styleSource), .rawText "style") := by
      rw [Lexer.step]
      exact congrArg (fun mode => Except.ok (_, mode)) (by decide +kernel)
    have goesOn : (Lexer.dataPiece .standard (.ofString styleSource)).cursor = text :=
      congrArg₂ Cursor.mk (by decide +kernel) (by decide +kernel)
    have holds : Lexer.step {} text (.rawText "style") =
        .ok (Lexer.textPiece false 11 text, .data) := by
      rw [Lexer.step, search]
      rfl
    obtain ⟨_, tokens, front⟩ := @Lexer.scanFrom_split {} (.ofString styleSource) [] _ _ _
      (by decide +kernel) begins
    rw [goesOn] at tokens front
    obtain ⟨_, -, middle⟩ := @Lexer.scanFrom_split {} text _ _ _ _ (by decide +kernel) holds
    obtain ⟨found, -, last⟩ := @Lexer.scanFrom_split {}
      (Lexer.textPiece false 11 text).cursor _ .data _ _ (by decide +kernel) rfl
    have ended : (scan {} styleSource).ending = .ok found := by
      rw [scan, front, middle, last, Lexer.scanFrom, dif_pos]
      decide +kernel
    have opened : (Lexer.dataPiece .standard (.ofString styleSource)).pulls.map (·.token) =
        [⟨.tagOpen "style", ⟨⟨0, 1, 1⟩, ⟨6, 1, 7⟩⟩⟩, ⟨.tagEnd false, ⟨⟨6, 1, 7⟩, ⟨7, 1, 8⟩⟩⟩] := by
      decide +kernel
    rw [opened] at tokens
    exact (@scan_delimitsText {} styleSource found ended (by decide) [] [] _ "style" _
      (styleSource.toList.take 6) (styleSource.toList.drop 7) (by decide +kernel)
      (List.forall_mem_nil _) (by rw [scan, tokens]; rfl)).rawText (by decide)
  · exact (@scan_delimitsText {} titleSource [] (by decide +kernel) (by decide) [] []
      ((scan {} titleSource).tokens.drop 2) "title" ⟨⟨0, 1, 1⟩, ⟨6, 1, 7⟩⟩
      (titleSource.toList.take 6) (titleSource.toList.drop 7) (by decide +kernel)
      (List.forall_mem_nil _) (by decide +kernel)).rcData (by decide)

end TemplateCompiler
