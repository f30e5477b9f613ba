import TemplateCompiler.Proofs.BuilderSteps
import TemplateCompiler.Proofs.ScanTotality

/-! The grammar of tokens. However lenient reading is, a start tag always comes with its attributes
and its end behind it, names are spelled as names, and so no part of a tag is ever met by the
builder without its tag. -/

namespace TemplateCompiler

open Text

namespace TokenKind

inductive Attributes : List TokenKind → Prop
  | none : Attributes []
  | bare {name : String} {rest : List TokenKind} (later : Attributes rest) :
      Attributes (.attrName name :: rest)
  | valued {name : String} {value : Phrase} {rest : List TokenKind} (later : Attributes rest) :
      Attributes (.attrName name :: .attrValue value :: rest)

/-- The words of the grammar
`(text | interpolation | comment | tagClose | tagOpen (attrName attrValue?)* tagEnd)*`. -/
inductive Word : List TokenKind → Prop
  | empty : Word []
  | text {text : Phrase} {rest : List TokenKind} (later : Word rest) : Word (.text text :: rest)
  | interpolation {source : String} {rest : List TokenKind} (later : Word rest) :
      Word (.interpolation source :: rest)
  | comment {source : String} {rest : List TokenKind} (later : Word rest) :
      Word (.comment source :: rest)
  | endTag {name : String} {rest : List TokenKind} (later : Word rest) :
      Word (.tagClose name :: rest)
  | startTag {name : String} {selfClosing : Bool} {attributes rest : List TokenKind}
      (inside : Attributes attributes) (later : Word rest) :
      Word (.tagOpen name :: attributes ++ .tagEnd selfClosing :: rest)

theorem Word.append {first second : List TokenKind} (word : Word first) (further : Word second) :
    Word (first ++ second) := by
  induction word with
  | empty => exact further
  | text _ ih => exact .text ih
  | interpolation _ ih => exact .interpolation ih
  | comment _ ih => exact .comment ih
  | endTag _ ih => exact .endTag ih
  | startTag inside _ ih =>
    rw [List.append_assoc, List.cons_append]
    exact .startTag inside ih

/-- A name begins with a letter, and no character in it ends a name. -/
def IsTagName (name : String) : Prop :=
  (∃ first more, name.toList = first :: more ∧ first.isAlpha = true) ∧
    ∀ c ∈ name.toList, isBlank c = false ∧ c ≠ '/' ∧ c ≠ '>'

/-- No character ends the name, and an equals sign is a name by itself only. -/
def IsAttributeName (name : String) : Prop :=
  name ≠ "" ∧ (∀ c ∈ name.toList, isBlank c = false ∧ c ≠ '/' ∧ c ≠ '>') ∧
    ('=' ∈ name.toList → name = "=")

def WellNamed : TokenKind → Prop
  | .tagOpen name | .tagClose name => IsTagName name
  | .attrName name => IsAttributeName name
  | .attrValue _ | .tagEnd _ | .text _ | .interpolation _ | .comment _ => True

/-- The tokens are a word of the grammar, with names in their places. -/
structure Grammatical (kinds : List TokenKind) : Prop where
  word : Word kinds
  named : ∀ kind ∈ kinds, kind.WellNamed

theorem Grammatical.append {first second : List TokenKind} (whole : Grammatical first)
    (further : Grammatical second) : Grammatical (first ++ second) := by
  refine ⟨whole.word.append further.word, fun kind member => ?_⟩
  rcases List.mem_append.1 member with before | behind
  · exact whole.named kind before
  · exact further.named kind behind

end TokenKind

namespace Lexer

open TokenKind

theorem isNameChar_iff {c : Char} :
    isNameChar c = true ↔ isBlank c = false ∧ c ≠ '/' ∧ c ≠ '>' := by
  simp [isNameChar, and_assoc]

theorem isAttributeName_peek {cursor : Cursor} {c : Char} {back : List Char}
    (starts : cursor.rest = c :: back) (part : isNameChar c = true) :
    IsAttributeName (cursor.peek (attributeNameLength cursor.rest)) := by
  rw [starts]
  unfold attributeNameLength
  split
  · next same =>
    cases same
    have name : cursor.peek 1 = "=" := by simp [Cursor.peek, starts]
    have letters : "=".toList = ['='] := by simp
    rw [name]
    refine ⟨by decide, ?_, fun _ => rfl⟩
    rw [letters]
    exact List.forall_mem_singleton.2 (isNameChar_iff.1 (by decide))
  · next other =>
    have plain : c ≠ '=' := by
      rintro rfl
      exact other back rfl
    have name : (cursor.peek (1 + (back.takeWhile fun c => isNameChar c && c != '=').length)).toList =
        c :: back.takeWhile fun c => isNameChar c && c != '=' := by
      rw [Cursor.toList_peek, starts, Nat.add_comm, List.take_succ_cons,
        ← List.prefix_iff_eq_take.1 (List.takeWhile_prefix _)]
    have inside : ∀ other ∈ c :: back.takeWhile fun c => isNameChar c && c != '=',
        isNameChar other = true ∧ other ≠ '=' := by
      refine List.forall_mem_cons.2 ⟨⟨part, plain⟩, fun other member => ?_⟩
      simpa using List.mem_takeWhile_imp member
    rw [List.tail_cons]
    refine ⟨fun empty => ?_, fun other member => ?_, fun member => ?_⟩
    · rw [empty] at name
      cases name
    · rw [name] at member
      exact isNameChar_iff.1 (inside other member).1
    · rw [name] at member
      exact absurd rfl (inside '=' member).2

theorem name_readAttribute (cursor : Cursor) : (readAttribute cursor).name.kind =
    .attrName (cursor.peek (attributeNameLength cursor.rest)) := by
  unfold readAttribute
  dsimp only
  split <;> rfl

theorem token_afterQuotedValue (token : Token) (cursor : Cursor) :
    (afterQuotedValue token cursor).token = some token := by
  unfold afterQuotedValue
  split
  · rfl
  · split <;> rfl

theorem kind_attributeValue (cursor : Cursor) :
    ∀ token ∈ (attributeValue cursor).token, ∃ value, token.kind = .attrValue value := by
  intro token found
  unfold attributeValue at found
  split at found
  · cases found
  · split at found
    · cases found
    · split at found
      · unfold quotedValue at found
        dsimp only at found
        split at found
        all_goals
          rw [token_afterQuotedValue] at found
          cases found
          exact ⟨_, rfl⟩
      · cases found
        exact ⟨_, rfl⟩

theorem kind_readAttribute (cursor : Cursor) :
    ∀ token ∈ (readAttribute cursor).value, ∃ value, token.kind = .attrValue value := by
  intro token found
  unfold readAttribute at found
  dsimp only at found
  split at found
  · exact kind_attributeValue _ token found
  · cases found

theorem head?_skipBlanks (cursor : Cursor) :
    ∀ c ∈ (skipBlanks cursor).rest.head?, isBlank c = false := by
  intro c member
  rw [rest_skipBlanks] at member
  have ends := List.head?_dropWhile_not isBlank cursor.rest
  rw [member] at ends
  simpa using ends

theorem attributes_startTagRest (pending : List Problem) (cursor : Cursor)
    (solid : ∀ c ∈ cursor.rest.head?, isBlank c = false) : ∃ attributes selfClosing,
      (startTagRest pending cursor).pulls.map (·.token.kind) =
        attributes ++ [.tagEnd selfClosing] ∧
      Attributes attributes ∧ ∀ kind ∈ attributes, kind.WellNamed := by
  fun_induction startTagRest pending cursor with
  | case1 | case2 | case3 => exact ⟨[], _, rfl, .none, List.forall_mem_nil _⟩
  | case4 pending cursor start more unslashed unclosed solidus ih =>
    exact ih (head?_skipBlanks _)
  | case5 pending cursor more unslashed unclosed plain rest read value ih =>
    obtain ⟨attributes, selfClosing, kinds, inside, named⟩ := ih (head?_skipBlanks _)
    obtain ⟨c, back, starts⟩ := List.exists_cons_of_ne_nil more
    have part : isNameChar c = true := by
      refine isNameChar_iff.2 ⟨solid c (by rw [starts]; rfl), ?_, ?_⟩
      · rintro rfl
        simp [startsWith, starts] at plain
      · rintro rfl
        simp [startsWith, starts] at unclosed
    have name := isAttributeName_peek starts part
    cases given : (readAttribute cursor).value with
    | none =>
      refine ⟨_ :: attributes, selfClosing, ?_, .bare inside, List.forall_mem_cons.2 ⟨name, named⟩⟩
      simp [value, read, given, rest, kinds, name_readAttribute]
    | some token =>
      obtain ⟨content, kind⟩ := kind_readAttribute cursor token given
      refine ⟨_ :: .attrValue content :: attributes, selfClosing, ?_, .valued inside,
        List.forall_mem_cons.2 ⟨name, List.forall_mem_cons.2 ⟨trivial, named⟩⟩⟩
      simp [value, read, given, rest, kinds, kind, name_readAttribute]

abbrev Piece.Grammatical (piece : Piece) : Prop :=
  TokenKind.Grammatical (piece.pulls.map (·.token.kind))

theorem isTagName_peek {cursor : Cursor} {c : Char} {back : List Char}
    (starts : cursor.rest = c :: back) (letter : c.isAlpha = true) :
    IsTagName (cursor.peek (tagNameLength cursor.rest)) := by
  have name : (cursor.peek (tagNameLength cursor.rest)).toList =
      c :: back.takeWhile isNameChar := by
    rw [Cursor.toList_peek, tagNameLength,
      ← List.prefix_iff_eq_take.1 (List.takeWhile_prefix isNameChar), starts,
      List.takeWhile_cons_of_pos (isNameChar_of_isAlpha letter)]
  refine ⟨⟨c, _, name, letter⟩, fun other member => isNameChar_iff.1 ?_⟩
  rw [name] at member
  rcases List.mem_cons.1 member with rfl | behind
  · exact isNameChar_of_isAlpha letter
  · exact List.mem_takeWhile_imp behind

theorem grammatical_startTag {cursor : Cursor} {c : Char} {back : List Char}
    (starts : cursor.rest = '<' :: c :: back) (letter : c.isAlpha = true) :
    (startTag cursor).Grammatical := by
  have named : (cursor.advance 1).rest = c :: back := by rw [Cursor.rest_advance, starts]; rfl
  have tag := isTagName_peek named letter
  obtain ⟨attributes, selfClosing, kinds, inside, names⟩ := attributes_startTagRest []
    (skipBlanks ((cursor.advance 1).advance (tagNameLength (cursor.advance 1).rest)))
    (head?_skipBlanks _)
  simp only [Piece.Grammatical, startTag, List.map_cons, kinds]
  refine ⟨.startTag inside .empty, List.forall_mem_cons.2 ⟨tag, fun kind member => ?_⟩⟩
  rcases List.mem_append.1 member with inner | ending
  · exact names kind inner
  · cases List.mem_singleton.1 ending
    trivial

theorem grammatical_endTag {cursor : Cursor} {c : Char} {back : List Char}
    (starts : cursor.rest = '<' :: '/' :: c :: back) (letter : c.isAlpha = true) :
    (endTag cursor).Grammatical := by
  have named : (cursor.advance 2).rest = c :: back := by rw [Cursor.rest_advance, starts]; rfl
  exact ⟨.endTag .empty, List.forall_mem_singleton.2 (isTagName_peek named letter)⟩

theorem grammatical_bogusComment (skip : Nat) (problems : List Problem) (cursor : Cursor) :
    (bogusComment skip problems cursor).Grammatical :=
  ⟨.comment .empty, List.forall_mem_singleton.2 trivial⟩

theorem grammatical_declaration (cursor : Cursor) : (declaration cursor).Grammatical := by
  unfold declaration
  dsimp only
  split
  · exact ⟨.comment .empty, List.forall_mem_singleton.2 trivial⟩
  · split
    · exact grammatical_bogusComment ..
    · split <;> exact grammatical_bogusComment ..

theorem grammatical_textPiece (decode : Bool) (length : Nat) (cursor : Cursor) :
    (textPiece decode length cursor).Grammatical :=
  ⟨.text .empty, List.forall_mem_singleton.2 trivial⟩

theorem grammatical_strayText (kind : ProblemKind) (length problemLength : Nat) (cursor : Cursor) :
    (strayText kind length problemLength cursor).Grammatical :=
  ⟨.text .empty, List.forall_mem_singleton.2 trivial⟩

theorem grammatical_interpolation (delimiters : Delimiters) (cursor : Cursor) :
    (interpolation delimiters cursor).Grammatical := by
  unfold interpolation
  dsimp only
  split <;> exact ⟨.interpolation .empty, List.forall_mem_singleton.2 trivial⟩

theorem grammatical_nil : TokenKind.Grammatical [] :=
  ⟨.empty, List.forall_mem_nil _⟩

theorem grammatical_markup (cursor : Cursor) : (markup cursor).Grammatical := by
  unfold markup
  dsimp only
  split
  · exact grammatical_strayText ..
  · exact grammatical_nil
  · next starts =>
    split
    · next letter => exact grammatical_endTag starts letter
    · exact grammatical_bogusComment ..
  · exact grammatical_declaration cursor
  · exact grammatical_bogusComment ..
  · next starts =>
    split
    · next letter => exact grammatical_startTag starts letter
    · exact grammatical_strayText ..
  · exact grammatical_strayText ..

theorem grammatical_step {option : ScanOption} {cursor : Cursor} {mode next : Mode} {piece : Piece}
    (stepped : step option cursor mode = .ok (piece, next)) : piece.Grammatical := by
  cases step_cases stepped with
  | content =>
    unfold dataPiece
    split
    · exact grammatical_textPiece ..
    · split
      · exact grammatical_interpolation ..
      · exact grammatical_markup cursor
  | interpolation => exact grammatical_interpolation ..
  | text => exact grammatical_textPiece ..
  | leave => exact grammatical_nil

theorem grammatical_scanFrom (option : ScanOption) (pending : List Problem) (cursor : Cursor)
    (mode : Mode) :
    Grammatical ((scanFrom option pending cursor mode).pulls.map (·.token.kind)) := by
  fun_induction scanFrom option pending cursor mode with
  | case1 | case2 => exact grammatical_nil
  | case3 pending cursor mode more piece next stepped none ih => exact ih
  | case4 pending cursor mode more piece next stepped first others pulls rest ih =>
    have own := grammatical_step stepped
    rw [Piece.Grammatical, pulls] at own
    simpa using own.append ih

end Lexer

namespace Builder

/-- A token of a start tag finds its tag, and a value the attribute that it belongs to. -/
def Heeds (builder : Builder) : TokenKind → Prop
  | .attrName _ | .tagEnd _ => builder.pending.isSome = true
  | .attrValue _ => ∃ tag last others,
      builder.pending = some tag ∧ tag.attributes = last :: others
  | .tagOpen _ | .tagClose _ | .text _ | .interpolation _ | .comment _ => True

/-- Each of the tokens is heeded when its turn comes. -/
def HeedsAll (option : ParseOption) (builder : Builder) (pulls : List Pull) : Prop :=
  ∀ front pull back, pulls = front ++ pull :: back →
    (front.foldl (handlePull option) builder).Heeds pull.token.kind

variable {option : ParseOption} {builder : Builder} {pull : Pull} {pulls : List Pull}

theorem heedsAll_nil : HeedsAll option builder [] := by
  intro front pull back split
  cases front <;> cases split

theorem heedsAll_cons (own : builder.Heeds pull.token.kind)
    (later : HeedsAll option (builder.handlePull option pull) pulls) :
    HeedsAll option builder (pull :: pulls) := by
  intro front other back split
  cases front with
  | nil =>
    cases split
    exact own
  | cons first front =>
    cases split
    exact later front other back rfl

theorem pending_handlePull (option : ParseOption) (builder : Builder) (pull : Pull) :
    (builder.handlePull option pull).pending.isSome =
      pends builder.pending.isSome pull.token.kind :=
  pending_handle option (builder.report pull.problems) pull.token

/-- A value stands behind a name, so there is an attribute for it. -/
theorem heeds_attrValue {name : String} {value : Phrase} (kind : pull.token.kind = .attrName name)
    (opened : builder.pending.isSome = true) :
    (builder.handlePull option pull).Heeds (.attrValue value) := by
  obtain ⟨tag, pending⟩ := Option.isSome_iff_exists.1 opened
  let fresh : Attribute :=
    { name, value := none, nameSpan := pull.token.span, span := pull.token.span }
  refine ⟨{ tag with attributes := fresh :: tag.attributes }, fresh, tag.attributes, ?_, rfl⟩
  simp only [handlePull, handle, kind, report, pending]
  rfl

/-- Behind the name of a start tag its attributes and its end are heeded, and then it is done. -/
theorem heedsAll_of_attributes {attributes rest : List TokenKind} {selfClosing : Bool}
    (inside : TokenKind.Attributes attributes)
    (kinds : pulls.map (·.token.kind) = attributes ++ .tagEnd selfClosing :: rest)
    (opened : builder.pending.isSome = true)
    (later : ∀ (builder : Builder) (pulls : List Pull), pulls.map (·.token.kind) = rest →
      builder.pending.isSome = false → HeedsAll option builder pulls) :
    HeedsAll option builder pulls := by
  induction inside generalizing builder pulls with
  | none =>
    obtain ⟨pull, pulls, rfl, kind, others⟩ := List.map_eq_cons_iff.1 kinds
    refine heedsAll_cons (by rw [kind]; exact opened) (later _ _ others ?_)
    rw [pending_handlePull, kind]
    rfl
  | bare _ ih =>
    obtain ⟨pull, pulls, rfl, kind, others⟩ := List.map_eq_cons_iff.1 kinds
    refine heedsAll_cons (by rw [kind]; exact opened) (ih others ?_)
    rw [pending_handlePull, kind]
    exact opened
  | valued _ ih =>
    obtain ⟨pull, pulls, rfl, kind, others⟩ := List.map_eq_cons_iff.1 kinds
    obtain ⟨value, pulls, rfl, valueKind, others⟩ := List.map_eq_cons_iff.1 others
    have still : (builder.handlePull option pull).pending.isSome = true := by
      rw [pending_handlePull, kind]
      exact opened
    refine heedsAll_cons (by rw [kind]; exact opened) (heedsAll_cons ?_ (ih others ?_))
    · rw [valueKind]
      exact heeds_attrValue kind opened
    · rw [pending_handlePull, valueKind]
      exact still

theorem heedsAll_of_word {kinds : List TokenKind} (word : TokenKind.Word kinds)
    (same : pulls.map (·.token.kind) = kinds) (done : builder.pending.isSome = false) :
    HeedsAll option builder pulls := by
  induction word generalizing builder pulls with
  | empty =>
    cases List.map_eq_nil_iff.1 same
    exact heedsAll_nil
  | text _ ih | interpolation _ ih | comment _ ih | endTag _ ih =>
    obtain ⟨pull, pulls, rfl, kind, others⟩ := List.map_eq_cons_iff.1 same
    refine heedsAll_cons (by rw [kind]; trivial) (ih others ?_)
    rw [pending_handlePull, kind]
    exact done
  | startTag inside _ ih =>
    obtain ⟨pull, pulls, rfl, kind, others⟩ := List.map_eq_cons_iff.1 same
    refine heedsAll_cons (by rw [kind]; trivial)
      (heedsAll_of_attributes inside others ?_ fun _ _ same done => ih same done)
    rw [pending_handlePull, kind]
    rfl

end Builder

/-- The tokens of a source follow the grammar, also up to where reading cannot go on, and building a
template of them passes over no part of a tag. -/
theorem scan_grammatical (option : ScanOption) (source : String) :
    TokenKind.Grammatical ((scan option source).tokens.map (·.kind)) ∧
      ∀ parsing : ParseOption, Builder.HeedsAll parsing {} (scan option source).pulls := by
  have grammatical := Lexer.grammatical_scanFrom option [] (.ofString source) .data
  refine ⟨?_, fun parsing => Builder.heedsAll_of_word grammatical.word rfl rfl⟩
  rw [Scan.tokens, List.map_map]
  exact grammatical

end TemplateCompiler
