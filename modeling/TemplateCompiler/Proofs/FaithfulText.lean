import TemplateCompiler.Proofs.AssembledCode
import TemplateCompiler.Proofs.CompiledPlaces
import TemplateCompiler.Proofs.EscapedReferences
import TemplateCompiler.Proofs.MarkupRoundTrip
import TemplateCompiler.Proofs.StringLiterals

/-! Text that goes all the way. A paragraph is spelled with the same text as its title and as its
content, whatever the text is, and compiled; its virtual node has both, and the literals in the code
denote the text. -/

namespace TemplateCompiler

def paragraph (text : String) : String :=
  "<p title=\"" ++ String.ofList (text.toList.flatMap Text.spellInAttribute) ++ "\">" ++
    String.ofList (text.toList.flatMap Text.spellInText) ++ "</p>"

namespace Lexer

/-- A piece that gives the tokens `front`, whatever is wrong with them, and after which elements are
read. -/
structure Shows (piece : Piece) (front : List TokenKind) (back : List Char) : Prop where
  kinds : piece.pulls.map (·.token.kind) = front
  silent : piece.problems = []
  inside : ∀ tag ∈ piece.inside, Tag.textMode tag = .data
  rest : piece.cursor.rest = back

theorem Gives.shows {piece : Piece} {front : List TokenKind} {back : List Char}
    (gives : Gives piece front back) : Shows piece front back :=
  ⟨gives.kinds, gives.silent, gives.inside, gives.rest⟩

/-- The scan has the given tokens and comes to the end. -/
def Lists (scan : Scan) (kinds : List TokenKind) : Prop :=
  scan.pulls.map (·.token.kind) = kinds ∧ scan.ending = .ok []

theorem lists_piece {cursor : Cursor} {back : List Char} {front kinds : List TokenKind}
    (more : cursor.rest ≠ []) (some : front ≠ [])
    (shows : Shows (dataPiece Delimiters.standard cursor) front back)
    (later : ∀ next : Cursor, next.rest = back → Lists (scanFrom {} [] next .data) kinds) :
    Lists (scanFrom {} [] cursor .data) (front ++ kinds) := by
  obtain ⟨same, silent, inside, behind⟩ := shows
  obtain ⟨others, ending⟩ := later _ behind
  have nonempty : (dataPiece Delimiters.standard cursor).pulls ≠ [] := by
    intro none
    rw [none] at same
    exact some same.symm
  rw [scanFrom_piece more nonempty silent inside]
  exact ⟨by rw [List.map_append, same, others], ending⟩

/-- A text without braces in front of a tag is one token, whatever else is in it. -/
theorem shows_text {words : String} {rest : List Char} (more : words ≠ "")
    (noTag : '<' ∉ words.toList) (noBrace : '\x7b' ∉ words.toList) {cursor : Cursor}
    (starts : cursor.rest = words.toList ++ '<' :: rest) :
    Shows (dataPiece Delimiters.standard cursor) [.text ((Phrase.mk words {}).decoded false)]
      ('<' :: rest) := by
  have length : plainLength Delimiters.standard cursor.rest = words.toList.length := by
    rw [starts]
    exact plainLength_text _ noTag noBrace (.tag rest)
  have some : words.toList.length ≠ 0 := by
    intro zero
    exact more (String.toList_eq_nil_iff.mp (List.length_eq_zero_iff.mp zero))
  have raw : cursor.peek words.toList.length = words := by
    rw [peek_of_rest starts, String.ofList_toList]
  simp only [dataPiece, length, some, ne_eq, not_false_eq_true, if_true, textPiece, raw,
    Piece.single]
  exact ⟨rfl, rfl, by simp, by simp [starts]⟩

end Lexer

def paragraphKinds (title words : String) : List TokenKind :=
  [.tagOpen "p", .attrName "title", .attrValue ((Phrase.mk title {}).decoded true), .tagEnd false,
    .text ((Phrase.mk words {}).decoded false), .tagClose "p"]

/-- A title in double quotes is an attribute that can be printed. -/
theorem isPlain_title {title : String} (noQuote : '"' ∉ title.toList) :
    (MarkupAttribute.mk "title" (some title)).isPlain = true := by
  have named : "title".isEmpty = false ∧ DirectiveName.isDirective "title" = false ∧
      "title".toList.all MarkupAttribute.isNameChar = true := by decide
  simp only [MarkupAttribute.isPlain]
  rw [named.1, named.2.1, named.2.2]
  simpa using noQuote

theorem scan_paragraph {text : String} (more : text ≠ "") :
    Lexer.Lists (scan {} (paragraph text))
      (paragraphKinds (String.ofList (text.toList.flatMap Text.spellInAttribute))
        (String.ofList (text.toList.flatMap Text.spellInText))) := by
  have content : text.toList ≠ [] := fun empty => more (String.toList_eq_nil_iff.mp empty)
  generalize spelled : String.ofList (text.toList.flatMap Text.spellInAttribute) = title
  generalize written : String.ofList (text.toList.flatMap Text.spellInText) = words
  have noQuote : '"' ∉ title.toList := by
    rw [← spelled, String.toList_ofList]
    exact Text.quote_not_mem_spellInAttribute _
  obtain ⟨noTag, noBrace⟩ : '<' ∉ words.toList ∧ '\x7b' ∉ words.toList := by
    rw [← written, String.toList_ofList]
    exact Text.not_mem_spellInText text.toList
  have nonempty : words ≠ "" := by
    intro empty
    have none := congrArg String.toList (written.trans empty)
    rw [String.toList_ofList] at none
    exact Text.spellInText_ne_nil content none
  have start : (Cursor.ofString (paragraph text)).rest =
      '<' :: ("p".toList ++ Lexer.tagTail [⟨"title", some title⟩]
        (words.toList ++ '<' :: '/' :: ("p".toList ++ ['>']))) := by
    simp [Cursor.ofString, paragraph, spelled, written, Lexer.tagTail, MarkupAttribute.print]
  have plainTag : Markup.isPlainTag "p" = true := by decide
  have opens := Lexer.gives_startTag plainTag
    (List.forall_mem_singleton.mpr (isPlain_title noQuote)) start
  refine Lexer.lists_piece (by simp [start]) (List.cons_ne_nil _ _) opens.shows
    fun second inner => ?_
  refine Lexer.lists_piece (by simp [inner]) (List.cons_ne_nil _ _)
    (Lexer.shows_text nonempty noTag noBrace inner) fun third close => ?_
  refine Lexer.lists_piece (by simp [close]) (List.cons_ne_nil _ _)
    (Lexer.gives_endTag plainTag close).shows fun last ended => ?_
  obtain ⟨kinds, -, ending⟩ := Lexer.reads_nil last ended
  exact ⟨kinds, ending⟩

inductive Paragraph (title words : Phrase) : Template → Prop
  | intro (nameSpan valueSpan span inner whole file : Span) : Paragraph title words
      { roots := [⟨0, .element ⟨"p", .plain,
          [.attr ⟨"title", some ⟨title, valueSpan⟩, nameSpan, span⟩]⟩, whole,
          [⟨1, .text words, inner, []⟩]⟩]
        size := 2
        span := file }

theorem parse_paragraph (option : ParseOption) {scan : Scan} {title words : String}
    (lists : Lexer.Lists scan (paragraphKinds title words))
    (preserve : option.whitespace = .preserve) (filled : option.isVoid "p" = false)
    (loose : option.isPreformatted "p" = false) (native : option.isNative "p" = true) :
    ∃ template problems, parse option scan = .ok (template, problems) ∧
      Paragraph ((Phrase.mk title {}).decoded true) ((Phrase.mk words {}).decoded false)
        template := by
  obtain ⟨kinds, ending⟩ := lists
  obtain ⟨first, _, pulls, opens, kinds⟩ := List.map_eq_cons_iff.mp kinds
  obtain ⟨second, _, rfl, named, kinds⟩ := List.map_eq_cons_iff.mp kinds
  obtain ⟨third, _, rfl, valued, kinds⟩ := List.map_eq_cons_iff.mp kinds
  obtain ⟨fourth, _, rfl, ended, kinds⟩ := List.map_eq_cons_iff.mp kinds
  obtain ⟨fifth, _, rfl, written, kinds⟩ := List.map_eq_cons_iff.mp kinds
  obtain ⟨sixth, _, rfl, closes, kinds⟩ := List.map_eq_cons_iff.mp kinds
  cases List.map_eq_nil_iff.mp kinds
  have kind (properties : Properties) : Builder.elementKind option "p" properties = .plain := by
    have core : Tag.isDynamicComponent "p" = false ∧ (Tag.core? "p").isSome = false ∧
      "p".toList.head?.any Char.isUpper = false := by decide
    simp [Builder.elementKind, core, native]
  have undirected : DirectiveName.isDirective "title" = false := by decide
  have same : Text.sameIgnoringCase "p" "p" = true := by decide
  have built : ∃ problems, parse option scan = .ok
      ({ roots := [⟨0, .element ⟨"p", .plain, [.attr ⟨"title",
            some ⟨(Phrase.mk title {}).decoded true, third.token.span⟩, second.token.span,
            ⟨second.token.span.start, third.token.span.stop⟩⟩]⟩,
          ⟨first.token.span.start, sixth.token.span.stop⟩,
          [⟨1, .text ((Phrase.mk words {}).decoded false), fifth.token.span, []⟩]⟩]
         size := 2
         span := ⟨{}, sixth.token.span.stop⟩ }, problems) := by
    -- The six tokens are handled one after the other; no step looks into the two texts.
    simp [parse, ending, pulls, Builder.handlePull, Builder.report, Builder.handle, opens, named,
      valued, ended, written, closes, Builder.closeImplied, Builder.updateAttribute,
      Builder.finishStartTag, Builder.readProperties, undirected, kind, filled, loose, Builder.leaf,
      Builder.append, Builder.closeTag, same, Builder.closeUnclosed, Builder.close, Builder.finish,
      Builder.settle, preserve, Except.map, List.findIdx?_cons]
  obtain ⟨problems, parsed⟩ := built
  exact ⟨_, problems, parsed, .intro _ _ _ _ _ _⟩

theorem visitAll_nil (passes : List Pass) (ancestors : List NodeId) (hasSiblings : Bool)
    (before : List Node) (progress : Progress) :
    visitAll passes ancestors hasSiblings before [] progress =
      .ok { nodes := before.reverse, progress } := by
  rw [visitAll]

/-- A node that is still there when all passes have entered it is left before the next one. -/
theorem visitAll_cons {passes : List Pass} {ancestors : List NodeId} {hasSiblings : Bool}
    {before rest : List Node} {node current : Node} {progress : Progress} {entered : Entered}
    {below : Visited}
    (enters : enterAll 0 { ancestors, hasSiblings, before, focus := some node, after := rest }
      progress passes = .ok entered)
    (focused : entered.site.focus = some current)
    (walked : visitAll passes (current.id :: ancestors) current.isElement [] current.children
      entered.progress = .ok below) :
    visitAll passes ancestors hasSiblings before (node :: rest) progress =
      visitAll passes ancestors hasSiblings
        ((exitAll { current with children := below.nodes } entered.site below.progress
          entered.exits).1 :: before) entered.site.after
        (exitAll { current with children := below.nodes } entered.site below.progress
          entered.exits).2 := by
  rw [visitAll]
  split
  · next failed =>
    rw [enters] at failed
    cases failed
  · next other same =>
    cases enters.symm.trans same
    split
    · next none =>
      rw [focused] at none
      cases none
    · next again found =>
      cases focused.symm.trans found
      rw [walked]

/-- The virtual node of an element with the title as its only property and a child. -/
def titledCall (title : Phrase) : VNode :=
  { tag := .string "p"
    props := some (.props [(.string "title", .literal title)])
    children := [1] }

/-- The same as the only node of a template. -/
def titledBlock (title : Phrase) : VNode :=
  { titledCall title with isBlock := true }

/-- A text that is the only child and never changes. -/
def wordsCall (words : Phrase) : TextCall :=
  { fastPath := true, needPatch := false, parts := [.literal words] }

/-- An element is left by the pass for texts first. -/
theorem exitAll_elementExits_eq (node : Node) (site : Site) (progress : Progress) :
    exitAll node site progress elementExits =
      ((TextRun.exit node (site.replace node) progress).1,
        Elements.exit (TextRun.exit node (site.replace node) progress).1
          (site.replace (TextRun.exit node (site.replace node) progress).1)
          (TextRun.exit node (site.replace node) progress).2) := rfl

section Elements

variable (title : Value) (nameSpan span : Span)

def titledElement : Element :=
  ⟨"p", .plain, [.attr ⟨"title", some title, nameSpan, span⟩]⟩

theorem collectedProperties_titled (around : Surroundings) :
    collectedProperties around (titledElement title nameSpan span) =
      { pending := [(.string "title", .literal title.content)] } := rfl

theorem appliedDirectives_titled (around : Surroundings) :
    appliedDirectives around (titledElement title nameSpan span) = [] := rfl

/-- An element with one attribute and a text that stays as it is. -/
theorem lowerElement_titled (around : Surroundings) {table : Table} {call : TextCall}
    (coded : table.get? 1 = some { body := .text call }) (still : call.needPatch = false) :
    (lowerElement around table (titledElement title nameSpan span) [1]).value =
      titledCall title.content := by
  have form : TagForm.of (titledElement title nameSpan span) = .native := rfl
  have fragment : (titledElement title nameSpan span).kind ≠ .fragment := nofun
  have component : decide ((titledElement title nameSpan span).kind = .component) = false := rfl
  have listed : TagForm.native.hasRawChildren = false := rfl
  have flag : childrenFlag around table false false [1] = .empty := by
    simp [childrenFlag, coded, still]
  have props : (Collection.mk [(.string "title", .literal title.content)] [] {}).expr? =
      some (.props [(.string "title", .literal title.content)]) := by
    simp [Collection.expr?, Collection.flush, dedupe, addEntry, Expr.staticKey?, Expr.string]
  rw [lowerElement, if_neg fragment]
  simp only [Reported.value_bind, Reported.value_pure, value_lowerProperties,
    collectedProperties_titled, appliedDirectives_titled, props, form]
  rw [component, listed, flag]
  rfl

end Elements

section Paragraphs

variable {title words : Phrase} {template : Template}

/-- The text of a paragraph. -/
def wordsNode (words : Phrase) (inner : Span) : Node :=
  ⟨1, .text words, inner, []⟩

/-- The element of a paragraph with its text. -/
def titledNode (title : Value) (nameSpan span whole : Span) (words : Phrase) (inner : Span) :
    Node :=
  ⟨0, .element (titledElement title nameSpan span), whole, [wordsNode words inner]⟩

/-- The state when the six passes have entered the nodes, the last one first, and nothing else has
been done. -/
def enteredState (option : LowerOption) (nodes : List NodeId) : Progress :=
  { reader := option.reader
    cacheHandlers := option.cacheHandlers
    next := 2
    entered := nodes.flatMap fun id => [5, 4, 3, 2, 1, 0].map fun pass => (pass, id) }

structure LeftParagraph (title words : Phrase) (progress : Progress) : Prop where
  coded : ∀ id, progress.table.get? id =
    if id = 0 then some { body := .vnode (titledCall title) }
    else if id = 1 then some { body := .text (wordsCall words) }
    else none
  assets : progress.components = [] ∧ progress.directives = []
  marks : progress.marks = []
  sound : progress.fault? = none

/-- What a walk over a paragraph leaves: a virtual node with one attribute and one text. -/
structure WalkedParagraph (title words : Phrase) (progress : Progress) : Prop where
  element : progress.table.get? 0 = some { body := .vnode (titledBlock title) }
  content : progress.table.get? 1 = some { body := .text (wordsCall words) }
  others : ∀ id, id ≠ 0 → id ≠ 1 → progress.table.get? id = none
  root : progress.root = .single 0
  assets : progress.components = [] ∧ progress.directives = []
  marks : progress.marks = []
  sound : progress.fault? = none

section Steps

variable (title : Value) (nameSpan span whole : Span) (words : Phrase) (inner : Span)
variable (option : LowerOption)

/-- No pass that enters the text does anything to it. -/
theorem visitAll_words :
    visitAll defaultPasses [0] true [] [wordsNode words inner] (enteredState option [0]) =
      .ok ⟨[wordsNode words inner], enteredState option [1, 0]⟩ := by
  have enters : enterAll 0 { ancestors := [0], focus := some (wordsNode words inner) }
      (enteredState option [0]) defaultPasses =
        .ok
          { site := { ancestors := [0], focus := some (wordsNode words inner) }
            progress := enteredState option [1, 0] } := rfl
  rw [visitAll_cons enters rfl (visitAll_nil _ _ _ _ _), visitAll_nil]
  rfl

/-- The text is written first, since its element's code depends on whether it changes. -/
theorem exitAll_titled :
    ∃ left, exitAll (titledNode title nameSpan span whole words inner)
        { focus := some (titledNode title nameSpan span whole words inner) }
        (enteredState option [1, 0]) elementExits =
          (titledNode title nameSpan span whole words inner, left) ∧
      LeftParagraph title.content words left := by
  generalize same : titledNode title nameSpan span whole words inner = node
  let site : Site := { focus := some node }
  obtain ⟨merged, leaves, table, components, directives, marks, sound⟩ : ∃ merged,
      TextRun.exit node site (enteredState option [1, 0]) = (node, merged) ∧
      merged.table = ({} : Table).set 1 { body := .text (wordsCall words) } ∧
      merged.components = [] ∧ merged.directives = [] ∧ merged.marks = [] ∧
      merged.fault? = none := by
    subst same
    exact ⟨_, rfl, rfl, rfl, rfl, rfl, rfl⟩
  have written (id : NodeId) : merged.table.get? id =
      if id = 1 then some { body := .text (wordsCall words) } else none := by
    rw [table, Table.get?_set]
    rfl
  refine ⟨Elements.exit node site merged, ?_, fun id => ?_, ?_, ?_, ?_⟩
  · rw [exitAll_elementExits_eq, Site.replace_self rfl, leaves]
    rfl
  · subst same
    rw [titledNode, Elements.get?_exit, ← written, ← lowerElement_titled title nameSpan span
      (merged.surroundings site) (written 1) rfl]
    rfl
  · subst same
    exact ⟨components, directives⟩
  · subst same
    exact marks
  · subst same
    change merged.fault?.or none = none
    rw [sound, Option.none_or]

/-- The only node of a template becomes a block. -/
theorem exitRootAll_titled {left : Progress} (leaves : LeftParagraph title.content words left) :
    ∃ last, exitRootAll [titledNode title nameSpan span whole words inner] left defaultPasses =
        ([titledNode title nameSpan span whole words inner], last) ∧
      WalkedParagraph title.content words last := by
  obtain ⟨coded, assets, marks, sound⟩ := leaves
  let last := Elements.exitRoot [titledNode title nameSpan span whole words inner]
    { left with dropped := left.dropped ++ [] }
  have final (id : NodeId) : last.table.get? id =
      if id = 0 then
        (left.table.get? id).map (·.mapVNode fun vnode => { vnode with isBlock := true })
      else left.table.get? id := Table.get?_modify ..
  refine ⟨last, rfl, ?_, ?_, fun id noElement noText => ?_, rfl, assets, marks, sound⟩
  · rw [final, if_pos rfl, coded, if_pos rfl]
    rfl
  · rw [final, if_neg (by decide), coded, if_neg (by decide), if_pos rfl]
  · rw [final, if_neg noElement, coded, if_neg noElement, if_neg noText]

end Steps

theorem walk_paragraph (option : LowerOption) (shape : Paragraph title words template) :
    ∃ progress, walk defaultPasses template.roots (option.start template) =
        .ok (template.roots, progress) ∧ WalkedParagraph title words progress := by
  obtain ⟨nameSpan, valueSpan, span, inner, whole, file⟩ := shape
  let node := titledNode ⟨title, valueSpan⟩ nameSpan span whole words inner
  have enters : enterAll 0 { focus := some node } (enteredState option []) defaultPasses =
      .ok
        { site := { focus := some node }
          progress := enteredState option [0]
          exits := elementExits } := rfl
  have below := visitAll_words words inner option
  obtain ⟨left, exits, leaves⟩ := exitAll_titled ⟨title, valueSpan⟩ nameSpan span whole words inner
    option
  have visited : visitAll defaultPasses [] true [] [node] (enteredState option []) =
      .ok ⟨[node], left⟩ := by
    rw [visitAll_cons enters rfl below, visitAll_nil]
    exact congrArg (fun done : Node × Progress => Except.ok (Visited.mk [done.1] done.2)) exits
  obtain ⟨last, ends, walked⟩ :=
    exitRootAll_titled ⟨title, valueSpan⟩ nameSpan span whole words inner leaves
  refine ⟨last, ?_, walked⟩
  change (visitAll defaultPasses [] true [] [node] (enteredState option [])).map _ = _
  rw [visited]
  exact congrArg Except.ok ends

/-- There is no handler to keep. -/
theorem cacheHandlers_titled {caching : Caching}
    (coded : caching.table.get? 0 = some { body := .vnode (titledBlock title) }) :
    caching.cacheHandlers 0 = caching := by
  have cells (next : Nat) : (Expr.props [(.string "title", .literal title)]).assignCells next =
      (.props [(.string "title", .literal title)], next) := rfl
  obtain ⟨table, slots⟩ := caching
  simp only [Caching.cacheHandlers, coded, titledBlock, titledCall, cells, Nat.sub_self,
    List.replicate_zero, List.append_nil]
  congr 1
  exact Table.set_get? coded

theorem cacheHandlers_text {caching : Caching} {id : NodeId} {call : TextCall}
    (coded : caching.table.get? id = some { body := .text call }) :
    caching.cacheHandlers id = caching := by
  simp only [Caching.cacheHandlers, coded]

theorem injectCache_paragraph {progress : Progress} (shape : Paragraph title words template)
    (walked : WalkedParagraph title words progress) :
    (planOf template template.roots progress).injectCache =
      planOf template template.roots progress := by
  obtain ⟨nameSpan, valueSpan, span, inner, whole, file⟩ := shape
  have unmarked (id : NodeId) : progress.marks.get? id = none := by
    rw [walked.marks]
    rfl
  have kept : (Caching.mk progress.table []).cacheHandlers 0 = ⟨progress.table, []⟩ :=
    cacheHandlers_titled walked.element
  have same : (Caching.mk progress.table []).cacheHandlers 1 = ⟨progress.table, []⟩ :=
    cacheHandlers_text walked.content
  simp only [Plan.injectCache, planOf, Plan.cacheAll, Plan.cacheNode, unmarked, kept, same]

/-- A plan with nothing but a virtual node, the title its only property and a text its only
child. -/
structure PlannedParagraph (plan : Plan) (title words : Phrase) : Prop where
  root : plan.root = .single 0
  element : plan.table.get? 0 = some { body := .vnode (titledBlock title) }
  content : plan.table.get? 1 = some { body := .text (wordsCall words) }
  others : ∀ id, id ≠ 0 → id ≠ 1 → plan.table.get? id = none
  hoists : plan.hoists = []
  slots : plan.slots = []
  assets : plan.components = [] ∧ plan.directives = []

theorem lower_paragraph (option : LowerOption) (unmoved : option.hoistStatic = false)
    (shape : Paragraph title words template) :
    ∃ lowered, lower option template = .ok lowered ∧ PlannedParagraph lowered.plan title words := by
  obtain ⟨progress, walks, walked⟩ := walk_paragraph option shape
  have planned := injectCache_paragraph shape walked
  refine ⟨{ plan := planOf template template.roots progress
            problems := progress.problems
            journal := progress.journal }, ?_, ?_⟩
  · simp only [lower, lowerWith, walks, Except.bind, walked.sound, unmoved, Bool.false_eq_true,
      if_false, planned]
  · exact ⟨walked.root, walked.element, walked.content, walked.others, rfl, rfl, walked.assets⟩

/-- The call that renders a paragraph. -/
def paragraphPieces (title words : Phrase) (whole inner : Span) : Pieces :=
  [.mark whole, .text "(", .helper .openBlock, .text "(), ", .helper .createElementBlock, .text "(",
    .text "\"p\"", .text ", ", .text "\x7b ", .text "title", .text ": ", .text title.asLiteral.text,
    .text " \x7d", .text ", ", .mark inner, .text words.asLiteral.text, .text ")", .text ")"]

theorem view_titled {plan : Plan} (spans : Array Span)
    (planned : PlannedParagraph plan title words) :
    plan.view spans 0 =
      .node ((spans[0]?).getD {}) (some { body := .vnode (titledBlock title) })
        [.node ((spans[1]?).getD {}) (some { body := .text (wordsCall words) }) []] := by
  have deep := Table.lt_size_of_get? planned.content
  obtain ⟨depth, size⟩ : ∃ depth, plan.table.size = depth + 1 := Nat.exists_eq_succ_of_ne_zero (by
    intro none
    rw [none] at deep
    cases deep)
  have below : Plan.viewWithin plan.table spans (depth + 1) 1 =
      .node ((spans[1]?).getD {}) (some { body := .text (wordsCall words) }) [] := by
    rw [Plan.viewWithin, planned.content]
    rfl
  rw [Plan.view, size, Plan.viewWithin, planned.element]
  exact congrArg (fun view => View.node _ _ [view]) below

theorem write_titled (onContext : String) (whole inner : Span) :
    ((View.node whole (some { body := .vnode (titledBlock title) })
      [.node inner (some { body := .text (wordsCall words) }) []]).write onContext).pieces =
        paragraphPieces title words whole inner := by
  have tag : (Phrase.mk "p" {}).asLiteral.text = "\"p\"" := by decide
  have key : (Expr.string "title").bareKey? = some "title" := by decide
  have named : (Expr.string "p").pieces onContext = [Piece.text "\"p\""] := by
    rw [Expr.string, Expr.pieces, tag]
  have flag : PatchFlag.empty.isEmpty = true := rfl
  simp [View.write, View.writeAll, writeCode, Written.pieces, bodyPieces, vnodePieces, titledBlock,
    titledCall, creationPieces, openBlock, childrenPieces, Written.isPlainText, wordsCall,
    textPieces, Pieces.arguments, Pieces.join, Expr.pieces, Expr.piecesAll, Expr.piecesEntries,
    objectPieces, key, named, flag, VNode.creator, paragraphPieces]

/-- What is written in front of the paragraph; a plan without anything has no cells either. -/
def openingPieces (option : EmitOption) : Pieces :=
  importPieces option.mode (.ofList [.openBlock, .createElementBlock]) ++
    (default : Plan).signaturePieces option ++ Plan.scopePieces option

theorem functionPieces_paragraph {plan : Plan} (option : EmitOption)
    (planned : PlannedParagraph plan title words) :
    ∃ whole inner, plan.functionPieces option plan.spans =
      openingPieces option ++ (.text "return " :: paragraphPieces title words whole inner) ++
        Plan.closingPieces option := by
  refine ⟨(plan.spans[0]?).getD {}, (plan.spans[1]?).getD {}, ?_⟩
  have returned : ((plan.view plan.spans 0).write option.onContext).pieces =
      paragraphPieces title words ((plan.spans[0]?).getD {}) ((plan.spans[1]?).getD {}) := by
    rw [view_titled plan.spans planned, write_titled]
  have used (whole inner : Span) : Pieces.helpers (paragraphPieces title words whole inner) =
      .ofList [.openBlock, .createElementBlock] := rfl
  have signature : plan.signaturePieces option = (default : Plan).signaturePieces option := by
    rw [Plan.signaturePieces, Plan.cacheSize, planned.slots]
    rfl
  simp [Plan.functionPieces, Plan.hoistPieces, planned.hoists, Plan.assetsPieces, planned.assets,
    Plan.returnedPieces, planned.root, returned, used, signature, openingPieces]

/-- The code of a paragraph around the two literals. -/
theorem spell_paragraphPieces (level : Nat) (whole inner : Span) :
    Pieces.spell level (paragraphPieces title words whole inner) =
      ("(_openBlock(), _createElementBlock(\"p\", \x7b title: " ++ title.asLiteral.text ++
        " \x7d, " ++ words.asLiteral.text ++ "))").toList := by
  simp [paragraphPieces, Pieces.spell, Piece.spell, Helper.runtimeName]

/-- The code is the same for all titles and contents, but for the two literals. -/
theorem code_paragraph (option : EmitOption) : ∃ before behind, ∀ plan title words,
    PlannedParagraph plan title words → (generate option plan).code =
      before ++ ("return (_openBlock(), _createElementBlock(\"p\", \x7b title: " ++
        title.asLiteral.text ++ " \x7d, " ++ words.asLiteral.text ++ "))") ++ behind := by
  let level := Pieces.levelAfter 0 (openingPieces option)
  refine ⟨String.ofList (Pieces.spell 0 (openingPieces option)),
    String.ofList (Pieces.spell level (Plan.closingPieces option)),
    fun plan title words planned => ?_⟩
  obtain ⟨whole, inner, pieces⟩ := functionPieces_paragraph option planned
  have kept : Pieces.levelAfter level (.text "return " :: paragraphPieces title words whole inner) =
      level := rfl
  have spelled : Pieces.spell level (.text "return " :: paragraphPieces title words whole inner) =
      "return ".toList ++ Pieces.spell level (paragraphPieces title words whole inner) := rfl
  rw [← String.toList_inj]
  simp only [Plan.code_generate, pieces, Pieces.spell_append, Pieces.levelAfter_append,
    kept, spelled, spell_paragraphPieces, String.toList_append, String.toList_ofList, level]
  simp

end Paragraphs

def writtenTitle (text : String) : Phrase :=
  (Phrase.mk (String.ofList (text.toList.flatMap Text.spellInAttribute)) {}).decoded true

def writtenWords (text : String) : Phrase :=
  (Phrase.mk (String.ofList (text.toList.flatMap Text.spellInText)) {}).decoded false

theorem text_decoded (raw : String) (inAttribute : Bool) :
    ((Phrase.mk raw {}).decoded inAttribute).text =
      String.ofList (Text.decodeReferences inAttribute raw.toList) := rfl

theorem asLiteral_decoded (raw : String) (inAttribute : Bool) :
    ((Phrase.mk raw {}).decoded inAttribute).asLiteral.text =
      Text.quoted ((Phrase.mk raw {}).decoded inAttribute).text := by
  simp [Phrase.text, Phrase.asLiteral, Phrase.decoded, Edits.apply, Edits.applyIf, Text.quoted]

theorem text_writtenTitle (text : String) : (writtenTitle text).text = text := by
  rw [writtenTitle, text_decoded, String.toList_ofList, Text.decodeReferences_spellInAttribute,
    String.ofList_toList]

theorem text_writtenWords (text : String) : (writtenWords text).text = text := by
  rw [writtenWords, text_decoded, String.toList_ofList, Text.decodeReferences_spellInText,
    String.ofList_toList]

theorem unquoted?_writtenTitle (text : String) :
    Text.unquoted? (writtenTitle text).asLiteral.text = some text := by
  rw [writtenTitle, asLiteral_decoded, Text.unquoted?_quoted, ← writtenTitle, text_writtenTitle]

theorem unquoted?_writtenWords (text : String) :
    Text.unquoted? (writtenWords text).asLiteral.text = some text := by
  rw [writtenWords, asLiteral_decoded, Text.unquoted?_quoted, ← writtenWords, text_writtenWords]

/-- Planning a paragraph succeeds in all stages. -/
theorem exists_plan_paragraph {option : CompileOption} (standard : option.delimiters = .standard)
    (preserve : option.whitespace = .preserve) (unmoved : option.hoistStatic = false)
    {text : String} (more : text ≠ "") :
    ∃ template problems lowered,
      parse option.parsing (option.scan (paragraph text)) = .ok (template, problems) ∧
      lower option.lowering template = .ok lowered ∧
      PlannedParagraph lowered.plan (writtenTitle text) (writtenWords text) := by
  have lists := scan_paragraph more
  have scans : option.scan (paragraph text) = scan {} (paragraph text) := by
    rw [CompileOption.scan, CompileOption.scanning, standard]
  rw [← scans] at lists
  have filled : Tag.isVoid "p" = false := by decide
  have loose : Tag.isPreformatted "p" = false := by decide
  have native : Tag.isNative "p" = true := by decide
  obtain ⟨template, problems, parsed, shape⟩ :=
    parse_paragraph option.parsing lists preserve filled loose native
  obtain ⟨lowered, lowers, planned⟩ := lower_paragraph option.lowering unmoved shape
  exact ⟨template, problems, lowered, parsed, lowers, planned⟩

/-- A text becomes the title and the content of a virtual node as it is, and the literals in the
code denote it, whatever the text is. -/
theorem compile_faithful {option : CompileOption} (standard : option.delimiters = .standard)
    (preserve : option.whitespace = .preserve) (unmoved : option.hoistStatic = false) :
    ∃ before behind, ∀ text, text ≠ "" → ∃ plan compilation title words first second,
      (option.planSource (paragraph text)).run' [] = .ok plan ∧
      compile option (paragraph text) = .ok compilation ∧
      PlannedParagraph plan title words ∧ title.text = text ∧ words.text = text ∧
      compilation.code = before ++
        ("return (_openBlock(), _createElementBlock(\"p\", \x7b title: " ++ first ++ " \x7d, " ++
          second ++ "))") ++ behind ∧
      Text.unquoted? first = some text ∧ Text.unquoted? second = some text := by
  obtain ⟨before, behind, coded⟩ := code_paragraph option.emitting
  refine ⟨before, behind, fun text more => ?_⟩
  obtain ⟨template, problems, lowered, parsed, lowers, planned⟩ :=
    exists_plan_paragraph standard preserve unmoved more
  have plans : (option.planSource (paragraph text)).run' [] = .ok lowered.plan := by
    rw [CompileOption.run_planSource, parsed, Except.bind, lowers, Except.map]
  have compiles := compile_eq option (paragraph text)
  rw [parsed, Except.bind, lowers, Except.map, CompileOption.generatePlan] at compiles
  refine ⟨lowered.plan, _, writtenTitle text, writtenWords text, (writtenTitle text).asLiteral.text,
    (writtenWords text).asLiteral.text, plans, compiles, planned, text_writtenTitle text,
    text_writtenWords text, ?_, unquoted?_writtenTitle text, unquoted?_writtenWords text⟩
  dsimp only
  exact coded lowered.plan (writtenTitle text) (writtenWords text) planned

/-- A text of nothing but characters that have a meaning in templates. -/
theorem compile_faithful_marks :
    ∃ compilation plan title words first second,
      compile { whitespace := .preserve, hoistStatic := false }
        "<p title=\"<&amp;&quot;\x7b\x7b\">&lt;&amp;\"&#123;&#123;</p>" = .ok compilation ∧
      PlannedParagraph plan title words ∧
      title.text = "<&\"\x7b\x7b" ∧ words.text = "<&\"\x7b\x7b" ∧
      Text.unquoted? first = some "<&\"\x7b\x7b" ∧ Text.unquoted? second = some "<&\"\x7b\x7b" := by
  have spelled : paragraph "<&\"\x7b\x7b" =
      "<p title=\"<&amp;&quot;\x7b\x7b\">&lt;&amp;\"&#123;&#123;</p>" := by decide
  obtain ⟨_, _, faithful⟩ := compile_faithful
    (show ({ whitespace := .preserve, hoistStatic := false } : CompileOption).delimiters =
      .standard from rfl) rfl rfl
  obtain ⟨plan, compilation, title, words, first, second, _, compiles, planned, titled, worded, _,
    firstRead, secondRead⟩ := faithful "<&\"\x7b\x7b" (by decide)
  rw [spelled] at compiles
  exact ⟨compilation, plan, title, words, first, second, compiles, planned, titled, worded,
    firstRead, secondRead⟩

end TemplateCompiler
