import TemplateCompiler.Proofs.NestedPlaces
import TemplateCompiler.Proofs.NestingProblems

/-! Where every element needs its end tag, end tags are reported exactly if the tags of a template do
not nest. The names of the open elements are what the tags to come have to close, so one tag is
judged by the stack alone; and once an end tag was reported, nothing that follows takes that back. -/

namespace TemplateCompiler

/-- A tag as a bracket: it begins the content of an element, or ends it. -/
inductive Bracket where
  | opening (name : String)
  | closing (name : String)
deriving DecidableEq, Repr

/-- The brackets among tokens, with a start tag that is neither void nor ends in `/>` standing where
it ends. The one that was begun before the tokens has the name `begun`. -/
def brackets (isVoid : String → Bool) (begun : Option String) : List TokenKind → List Bracket
  | [] => []
  | .tagOpen name :: rest => brackets isVoid (some name) rest
  | .tagEnd selfClosing :: rest =>
    match begun with
    | some name =>
      if selfClosing || isVoid name then brackets isVoid none rest
      else .opening name :: brackets isVoid none rest
    | none => brackets isVoid none rest
  | .tagClose name :: rest => .closing name :: brackets isVoid begun rest
  | _ :: rest => brackets isVoid begun rest

def TokenKind.endsOptionally : TokenKind → Bool
  | .tagOpen name => Tag.hasOptionalEnd name
  | _ => false

/-- Brackets come in pairs of one name, up to case, with whole pairs inside of each. -/
inductive WellNested : List Bracket → Prop
  | nil : WellNested []
  | pair {opened closed : String} {inside behind : List Bracket}
      (same : Text.sameIgnoringCase opened closed = true)
      (inner : WellNested inside) (others : WellNested behind) :
      WellNested (.opening opened :: inside ++ .closing closed :: behind)

/-- The brackets close those that are open with the names `tags`, innermost first, and all that they
open themselves. -/
def Closes : List String → List Bracket → Prop
  | tags, [] => tags = []
  | tags, .opening name :: rest => Closes (name :: tags) rest
  | [], .closing _ :: _ => False
  | top :: tags, .closing name :: rest => Text.sameIgnoringCase top name = true ∧ Closes tags rest

def Unwinds : List String → List Bracket → Prop
  | [], rest => WellNested rest
  | top :: tags, word => ∃ inside name behind, word = inside ++ .closing name :: behind ∧
      WellNested inside ∧ Text.sameIgnoringCase top name = true ∧ Unwinds tags behind

namespace WellNested

variable {first second : List Bracket}

theorem append (front : WellNested first) (back : WellNested second) :
    WellNested (first ++ second) := by
  induction front with
  | nil => exact back
  | pair same inner _ _ ih =>
    rw [List.append_assoc, List.cons_append]
    exact .pair same inner ih

theorem unwinds {tags : List String} (front : WellNested first) (back : Unwinds tags second) :
    Unwinds tags (first ++ second) := by
  cases tags with
  | nil => exact front.append back
  | cons top tags =>
    obtain ⟨inside, name, behind, rfl, inner, same, others⟩ := back
    refine ⟨first ++ inside, name, behind, ?_, front.append inner, same, others⟩
    rw [List.append_assoc]

/-- Whole pairs leave what is open as it is. -/
theorem closes_append (front : WellNested first) (tags : List String) :
    Closes tags (first ++ second) ↔ Closes tags second := by
  induction front generalizing tags second with
  | nil => exact .rfl
  | @pair opened closed inside behind same inner others within further =>
    rw [List.append_assoc, List.cons_append, List.cons_append, Closes, within, Closes]
    exact (and_iff_right same).trans (further tags)

end WellNested

theorem Closes.unwinds {tags : List String} {word : List Bracket} (closes : Closes tags word) :
    Unwinds tags word := by
  induction word generalizing tags with
  | nil =>
    cases closes
    exact WellNested.nil
  | cons bracket rest ih =>
    cases bracket with
    | opening name =>
      -- the bracket that closes this one is the first to close something among the rest
      obtain ⟨inside, closed, behind, rfl, inner, same, others⟩ := ih closes
      have pair : WellNested (.opening name :: inside ++ [.closing closed]) := .pair same inner .nil
      have whole := pair.unwinds others
      rwa [List.append_assoc] at whole
    | closing name =>
      cases tags with
      | nil => exact closes.elim
      | cons top tags =>
        obtain ⟨same, others⟩ := closes
        exact ⟨[], name, rest, rfl, .nil, same, ih others⟩

/-- Brackets are well nested if and only if they close just what they open. -/
theorem closes_nil_iff {word : List Bracket} : Closes [] word ↔ WellNested word := by
  constructor
  · intro closes
    exact closes.unwinds
  · intro nested
    have whole := @WellNested.closes_append word [] nested []
    rw [List.append_nil] at whole
    exact whole.mpr rfl

theorem closes_closing_iff {tags : List String} {name : String} {rest : List Bracket} :
    Closes tags (.closing name :: rest) ↔
      tags.findIdx? (Text.sameIgnoringCase · name) = some 0 ∧ Closes tags.tail rest := by
  cases tags with
  | nil => simp [Closes]
  | cons top tags => simp [Closes, List.findIdx?_cons]

namespace Tag

/-- Only elements that may leave out their end tags are closed by a start tag. -/
theorem closesImplicitly_of_required {tag : String} (required : hasOptionalEnd tag = false)
    (incoming : String) : closesImplicitly tag incoming = false := by
  unfold closesImplicitly closers
  split
  all_goals first | rfl | cases required

end Tag

namespace Builder

variable {option : ParseOption} {builder before after : Builder} {stop : Position}

/-- The names of the open elements, innermost first. -/
def tags (builder : Builder) : List String :=
  builder.stack.map (·.element.tag)

/-- The name of the start tag that is not at its end. -/
def begun (builder : Builder) : Option String :=
  builder.pending.map (·.name)

theorem tags_of_stack {top : OpenElement} {rest : List OpenElement}
    (stack : builder.stack = top :: rest) :
    builder.tags = top.element.tag :: rest.map (·.element.tag) := by
  rw [tags, stack]
  rfl

theorem tags_append (builder : Builder) (node : Node) : (builder.append node).tags = builder.tags := by
  simp only [tags, append]
  split
  · rfl
  · next stack =>
    rw [stack]
    rfl

theorem tags_close (builder : Builder) (stop : Position) :
    (builder.close option stop).tags = builder.tags.tail := by
  cases stack : builder.stack with
  | nil =>
    rw [close_nil stack, tags, stack]
    rfl
  | cons top rest =>
    rw [close_cons stack, tags_append, tags_of_stack stack]
    rfl

theorem tags_reportUnclosed (builder : Builder) : builder.reportUnclosed.tags = builder.tags := by
  rw [tags, (sameTree_reportUnclosed builder).stack, tags]

theorem tags_closeUnclosed (builder : Builder) (stop : Position) (count : Nat) :
    (builder.closeUnclosed option stop count).tags = builder.tags.drop count := by
  induction count generalizing builder with
  | zero => rfl
  | succ count ih =>
    rw [closeUnclosed, ih, tags_close, tags_reportUnclosed, ← List.drop_one, List.drop_drop,
      Nat.add_comm]

/-- Neither the open elements nor the start tag that is not at its end may leave out end tags. -/
structure EndsRequired (builder : Builder) : Prop where
  tags : ∀ name ∈ builder.tags, Tag.hasOptionalEnd name = false
  begun : ∀ name ∈ builder.begun, Tag.hasOptionalEnd name = false

/-- An element that needs its end tag is reported if it is closed without, and stays so. -/
theorem spares_closeUnclosed (required : ∀ name ∈ builder.tags, Tag.hasOptionalEnd name = false)
    {count : Nat} (few : count ≤ builder.tags.length) :
    SparesEndTags (builder.closeUnclosed option stop count).problems ↔
      SparesEndTags builder.problems ∧ count = 0 := by
  induction count generalizing builder with
  | zero => simp only [closeUnclosed, and_true]
  | succ count ih =>
    cases stack : builder.stack with
    | nil =>
      rw [tags, stack] at few
      exact absurd few (Nat.not_succ_le_zero count)
    | cons top rest =>
      have closed : (builder.reportUnclosed.close option stop).tags =
          rest.map (·.element.tag) := by
        rw [tags_close, tags_reportUnclosed, tags_of_stack stack]
        rfl
      rw [tags_of_stack stack] at required few
      obtain ⟨own, others⟩ := List.forall_mem_cons.mp required
      have reported : (builder.reportUnclosed.close option stop).problems =
          builder.problems ++ [{ kind := .missingEndTag, span := top.span }] := by
        simp [problems_close, reportUnclosed, stack, own, report]
      rw [closeUnclosed, ih (closed ▸ others) (closed ▸ Nat.le_of_succ_le_succ few), reported,
        sparesEndTags_append, sparesEndTags_cons]
      simp [ProblemKind.isOfEndTag]

/-- A start tag closes no element that needs its end tag. -/
theorem closeImplied_required (required : ∀ name ∈ builder.tags, Tag.hasOptionalEnd name = false)
    (name : String) (stop : Position) (count : Nat) :
    builder.closeImplied option name stop count = builder := by
  cases count with
  | zero => rfl
  | succ count =>
    simp only [closeImplied]
    split
    · rfl
    · next top rest stack =>
      have own : Tag.hasOptionalEnd top.element.tag = false := by
        apply required
        rw [tags_of_stack stack]
        exact List.mem_cons_self
      rw [Tag.closesImplicitly_of_required own name]
      rfl

/-- No end tag was reported, and the tokens to come close what is open. -/
def Fits (option : ParseOption) (builder : Builder) (rest : List TokenKind) : Prop :=
  SparesEndTags builder.problems ∧
    Closes builder.tags (brackets option.isVoid builder.begun rest)

/-- Behind a token of `kind` all that is open still needs its end tag, and the tokens to come fit there
if and only if they fit in front of it together with the token. -/
structure Judges (option : ParseOption) (before after : Builder) (kind : TokenKind) : Prop where
  required : after.EndsRequired
  fits : ∀ rest, after.Fits option rest ↔ before.Fits option (kind :: rest)

/-- A token that opens and closes nothing. -/
theorem judges_of_same {kind : TokenKind} (required : before.EndsRequired)
    (tags : after.tags = before.tags) (begun : after.begun = before.begun)
    (problems : after.problems = before.problems)
    (passed : ∀ rest, brackets option.isVoid before.begun (kind :: rest) =
      brackets option.isVoid before.begun rest) : Judges option before after kind := by
  constructor
  · exact ⟨tags ▸ required.tags, begun ▸ required.begun⟩
  · intro rest
    rw [Fits, Fits, tags, begun, problems, passed]

theorem judges_tagOpen (required : builder.EndsRequired) {name : String}
    (plain : Tag.hasOptionalEnd name = false) (span : Span) :
    Judges option builder (builder.handle option ⟨.tagOpen name, span⟩) (.tagOpen name) := by
  have same := @closeImplied_required option { builder with stop := span.stop } required.tags name
    span.start builder.stack.length
  simp only [handle, same]
  constructor
  · refine ⟨required.tags, ?_⟩
    intro other member
    cases member
    exact plain
  · intro rest
    rfl

theorem judges_tagEnd (required : builder.EndsRequired) (selfClosing : Bool) (span : Span) :
    Judges option builder (builder.handle option ⟨.tagEnd selfClosing, span⟩)
      (.tagEnd selfClosing) := by
  simp only [handle, finishStartTag]
  split
  · next pending =>
    refine judges_of_same required rfl rfl rfl ?_
    intro rest
    simp only [begun, show builder.pending = none from pending, Option.map_none, brackets]
  · next tag pending =>
    have begun : builder.begun = some tag.name := by
      rw [Builder.begun, show builder.pending = some tag from pending]
      rfl
    have read : SparesEndTags
        (builder.problems ++ (readProperties [] tag.attributes.reverse).2) ↔
          SparesEndTags builder.problems :=
      sparesEndTags_append.trans (and_iff_left (spares_readProperties _ _))
    have own : Tag.hasOptionalEnd tag.name = false := required.begun tag.name begun
    split
    · next empty =>
      constructor
      · constructor
        · rw [leaf, tags_append]
          exact required.tags
        · rw [Builder.begun, pending_leaf]
          intro other member
          cases member
      · intro rest
        rw [Fits, Fits, begun, leaf, tags_append, problems_append, Builder.begun, pending_append]
        simp only [report, brackets, empty, if_true]
        exact and_congr read .rfl
    · next content =>
      constructor
      · constructor
        · exact List.forall_mem_cons.mpr ⟨own, required.tags⟩
        · intro other member
          cases member
      · intro rest
        simp only [Fits, begun, brackets, content]
        exact and_congr read .rfl

theorem judges_tagClose (required : builder.EndsRequired) (name : String) (span : Span) :
    Judges option builder (builder.handle option ⟨.tagClose name, span⟩) (.tagClose name) := by
  have named : (builder.stack.findIdx? fun top => Text.sameIgnoringCase top.element.tag name) =
      builder.tags.findIdx? (Text.sameIgnoringCase · name) := by
    rw [tags, List.findIdx?_map]
    rfl
  simp only [handle, closeTag, named]
  split
  · next absent =>
    constructor
    · exact ⟨required.tags, required.begun⟩
    · intro rest
      simp only [Fits, report, sparesEndTags_append, sparesEndTags_cons, ProblemKind.isOfEndTag,
        brackets, closes_closing_iff, absent]
      simp
  · next depth found =>
    have few : depth ≤ builder.tags.length :=
      Nat.le_of_lt (List.findIdx?_eq_some_iff_findIdx_eq.mp found).1
    have closes := @closeUnclosed_closing option { builder with stop := span.stop } span.start depth
    have tags : (({ builder with stop := span.stop }.closeUnclosed option span.start depth).close
        option span.stop).tags = (builder.tags.drop depth).tail := by
      rw [tags_close, tags_closeUnclosed]
      rfl
    have begun : (({ builder with stop := span.stop }.closeUnclosed option span.start depth).close
        option span.stop).begun = builder.begun := by
      rw [Builder.begun, pending_close, (closings_keep closes).2]
      rfl
    constructor
    · constructor
      · intro other member
        rw [tags] at member
        exact required.tags other (List.mem_of_mem_drop (List.mem_of_mem_tail member))
      · rw [begun]
        exact required.begun
    · intro rest
      have spared := @spares_closeUnclosed option { builder with stop := span.stop } span.start
        required.tags depth few
      rw [Fits, Fits, tags, begun, problems_close, spared, brackets, closes_closing_iff, found]
      -- the end tag fits only the innermost element, and all that are passed over are reported
      cases depth with
      | zero => simp
      | succ depth => simp

theorem judges_leaf (required : builder.EndsRequired) {kind : TokenKind}
    (passed : ∀ rest, brackets option.isVoid builder.begun (kind :: rest) =
      brackets option.isVoid builder.begun rest) (content : Content) (span : Span) :
    Judges option builder ({ builder with stop := span.stop }.leaf content span) kind := by
  refine judges_of_same required ?_ ?_ ?_ passed
  · rw [leaf, tags_append]
    rfl
  · rw [begun, pending_leaf]
    rfl
  · rw [leaf, problems_append]

theorem judges_handle (required : builder.EndsRequired) (token : Token)
    (plain : token.kind.endsOptionally = false) :
    Judges option builder (builder.handle option token) token.kind := by
  obtain ⟨kind, span⟩ := token
  cases kind with
  | tagOpen name => exact judges_tagOpen required plain span
  | attrName name =>
    simp only [handle]
    split
    · exact judges_of_same required rfl rfl rfl fun _ => rfl
    · next tag pending =>
      refine judges_of_same required rfl ?_ rfl fun _ => rfl
      rw [begun, begun, show builder.pending = some tag from pending]
      rfl
  | attrValue content =>
    simp only [handle, updateAttribute]
    split
    · next pending =>
      refine judges_of_same required rfl ?_ rfl fun _ => rfl
      rw [begun, begun, show builder.pending = _ from pending]
      rfl
    · exact judges_of_same required rfl rfl rfl fun _ => rfl
  | tagEnd selfClosing => exact judges_tagEnd required selfClosing span
  | tagClose name => exact judges_tagClose required name span
  | text text => exact judges_leaf required (fun _ => rfl) _ span
  | interpolation source => exact judges_leaf required (fun _ => rfl) _ span
  | comment source =>
    simp only [handle]
    split
    · exact judges_leaf required (fun _ => rfl) _ span
    · exact judges_of_same required rfl rfl rfl fun _ => rfl

theorem fits_report {problems : List Problem} (spared : SparesEndTags problems)
    (rest : List TokenKind) :
    (builder.report problems).Fits option rest ↔ builder.Fits option rest :=
  and_congr (sparesEndTags_append.trans (and_iff_left spared)) .rfl

def reading (option : ParseOption) (front : List Pull) : Builder :=
  front.foldl (handlePull option) {}

/-- A whole run: what is behind it fits if and only if it did with all its tokens in front. -/
theorem judges_foldl (required : builder.EndsRequired) (pulls : List Pull)
    (spared : ∀ pull ∈ pulls, SparesEndTags pull.problems)
    (plain : ∀ kind ∈ pulls.map (·.token.kind), kind.endsOptionally = false) :
    (pulls.foldl (handlePull option) builder).EndsRequired ∧
      ((pulls.foldl (handlePull option) builder).Fits option [] ↔
        builder.Fits option (pulls.map (·.token.kind))) := by
  induction pulls generalizing builder with
  | nil => exact ⟨required, .rfl⟩
  | cons pull rest ih =>
    obtain ⟨own, others⟩ := List.forall_mem_cons.mp spared
    obtain ⟨first, later⟩ := List.forall_mem_cons.mp plain
    have reported : (builder.report pull.problems).EndsRequired := ⟨required.tags, required.begun⟩
    have judged : Judges option (builder.report pull.problems) (handlePull option builder pull)
        pull.token.kind := judges_handle reported pull.token first
    obtain ⟨ended, run⟩ := ih judged.required others later
    refine ⟨ended, ?_⟩
    rw [List.foldl_cons, run, judged.fits, fits_report own, List.map_cons]

/-- The end of the template reports what is open, so nothing may be. -/
theorem spares_finish (required : builder.EndsRequired) :
    SparesEndTags (builder.finish option).2 ↔ builder.Fits option [] := by
  have count : builder.stack.length = builder.tags.length := (List.length_map _).symm
  simp only [finish, count]
  rw [spares_closeUnclosed required.tags (Nat.le_refl _), List.length_eq_zero_iff]
  rfl

/-- From the first token to the end of the template, with problems found on the way to there. -/
theorem spares_reading (pulls : List Pull) (spared : ∀ pull ∈ pulls, SparesEndTags pull.problems)
    (plain : ∀ kind ∈ pulls.map (·.token.kind), kind.endsOptionally = false)
    {found : List Problem} (last : SparesEndTags found) :
    SparesEndTags (((reading option pulls).report found).finish option).2 ↔
      WellNested (brackets option.isVoid none (pulls.map (·.token.kind))) := by
  have empty : ({} : Builder).EndsRequired := by
    refine ⟨List.forall_mem_nil _, ?_⟩
    intro name member
    cases member
  obtain ⟨required, run⟩ := @judges_foldl option _ empty pulls spared plain
  have ended : ((reading option pulls).report found).EndsRequired := ⟨required.tags, required.begun⟩
  rw [spares_finish ended, fits_report last]
  apply run.trans
  apply (and_iff_right sparesEndTags_nil).trans
  exact closes_nil_iff

/-- An end tag without an open element of its name is reported, and nothing else becomes of it. -/
theorem handlePull_unmatched (option : ParseOption) (builder : Builder) {pull : Pull} {name : String}
    (closes : pull.token.kind = .tagClose name)
    (unmatched : ∀ top ∈ builder.stack, Text.sameIgnoringCase top.element.tag name = false) :
    builder.handlePull option pull =
      { builder with
          stop := pull.token.span.stop
          problems := builder.problems ++ pull.problems ++
            [{ kind := .invalidEndTag, span := pull.token.span }] } := by
  have absent : (builder.stack.findIdx? fun top => Text.sameIgnoringCase top.element.tag name) =
      none := List.findIdx?_eq_none_iff.mpr unmatched
  simp only [handlePull, handle, closes, closeTag, report, absent]

end Builder

/-- Where every element needs its end tag, parsing reports that one is missing or closes nothing if
and only if the tags of the source do not nest. One that closes nothing is reported, and leaves the
tree and the open elements as they were. -/
theorem parse_endTags (scanning : ScanOption) (option : ParseOption) (source : String)
    (found : List Problem) (ended : (scan scanning source).ending = .ok found) :
    (∃ template problems, parse option (scan scanning source) = .ok (template, problems) ∧
      ((∀ kind ∈ (scan scanning source).tokens.map (·.kind), kind.endsOptionally = false) →
        (SparesEndTags problems ↔
          WellNested (brackets option.isVoid none ((scan scanning source).tokens.map (·.kind)))))) ∧
    ∀ front pull back name, (scan scanning source).pulls = front ++ pull :: back →
      pull.token.kind = .tagClose name →
      (∀ top ∈ (Builder.reading option front).stack,
        Text.sameIgnoringCase top.element.tag name = false) →
      Builder.reading option (front ++ [pull]) =
        { Builder.reading option front with
            stop := pull.token.span.stop
            problems := (Builder.reading option front).problems ++ pull.problems ++
              [{ kind := .invalidEndTag, span := pull.token.span }] } := by
  constructor
  · have parsed : parse option (scan scanning source) =
        .ok (((Builder.reading option (scan scanning source).pulls).report found).finish
          option) := by
      rw [parse, ended]
      rfl
    refine ⟨_, _, parsed, ?_⟩
    intro plain
    have kinds : (scan scanning source).tokens.map (·.kind) =
        (scan scanning source).pulls.map (·.token.kind) := List.map_map
    rw [kinds] at plain ⊢
    obtain ⟨spared, ending⟩ := @Lexer.spares_scanFrom scanning [] (.ofString source) .data
      sparesEndTags_nil
    exact Builder.spares_reading _ spared plain (ending found ended)
  · intro front pull back name _ closes unmatched
    rw [Builder.reading, List.foldl_append]
    exact Builder.handlePull_unmatched option _ closes unmatched

/-- Tags that nest, up to case and with some that are void or end themselves; and an end tag that
belongs to none of them. -/
theorem parse_endTags_crossed :
    ((scan {} "<div><B><br></b><img/></DIV>").ending = .ok [] ∧
      ∃ template problems, parse {} (scan {} "<div><B><br></b><img/></DIV>") =
        .ok (template, problems) ∧ SparesEndTags problems) ∧
    ((scan {} "<div><B></i></b></div>").ending = .ok [] ∧
      ∃ template problems, parse {} (scan {} "<div><B></i></b></div>") =
        .ok (template, problems) ∧ ¬SparesEndTags problems) := by
  constructor
  · have ended : (scan {} "<div><B><br></b><img/></DIV>").ending = .ok [] := by decide +kernel
    have kinds : (scan {} "<div><B><br></b><img/></DIV>").tokens.map (·.kind) =
        [.tagOpen "div", .tagEnd false, .tagOpen "B", .tagEnd false, .tagOpen "br", .tagEnd false,
          .tagClose "b", .tagOpen "img", .tagEnd true, .tagClose "DIV"] := by decide +kernel
    obtain ⟨⟨template, problems, parsed, judged⟩, -⟩ :=
      parse_endTags {} {} "<div><B><br></b><img/></DIV>" [] ended
    refine ⟨ended, template, problems, parsed, ?_⟩
    rw [kinds] at judged
    have inner : WellNested [.opening "B", .closing "b"] :=
      @WellNested.pair "B" "b" [] [] (by decide) .nil .nil
    exact (judged (by decide)).mpr (@WellNested.pair "div" "DIV" _ [] (by decide) inner .nil)
  · have ended : (scan {} "<div><B></i></b></div>").ending = .ok [] := by decide +kernel
    have kinds : (scan {} "<div><B></i></b></div>").tokens.map (·.kind) =
        [.tagOpen "div", .tagEnd false, .tagOpen "B", .tagEnd false, .tagClose "i", .tagClose "b",
          .tagClose "div"] := by decide +kernel
    obtain ⟨⟨template, problems, parsed, judged⟩, -⟩ :=
      parse_endTags {} {} "<div><B></i></b></div>" [] ended
    refine ⟨ended, template, problems, parsed, ?_⟩
    rw [kinds] at judged
    intro spared
    have nested := closes_nil_iff.mpr ((judged (by decide)).mp spared)
    have same : Text.sameIgnoringCase "B" "i" = true := nested.1
    revert same
    decide

end TemplateCompiler
