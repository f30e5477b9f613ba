import TemplateCompiler.Proofs.BuilderSteps
import TemplateCompiler.Proofs.MarkupScanning

/-! Building a tree from the tokens of plain markup gives the markup back. The open elements are a
stack, so each element is followed from its start tag to its end tag with the stack below it left
alone. -/

namespace TemplateCompiler

namespace Builder

theorem append_withPlace (builder : Builder) (node : Node) (next : NodeId) (stop : Position) :
    { builder with next, stop }.append node = { builder.append node with next, stop } := by
  simp only [append]
  split <;> rfl

theorem foldl_append_withPlace (builder : Builder) (nodes : List Node) (next : NodeId)
    (stop : Position) :
    nodes.foldl append { builder with next, stop } =
      { nodes.foldl append builder with next, stop } := by
  induction nodes generalizing builder with
  | nil => rfl
  | cons node rest ih =>
    rw [List.foldl_cons, append_withPlace, ih]
    rfl

theorem foldl_append_opened {builder : Builder} {top : OpenElement} {below : List OpenElement}
    (opened : builder.stack = top :: below) (nodes : List Node) :
    nodes.foldl append builder =
      { builder with
          stack := { top with children := nodes.reverse ++ top.children } :: below } := by
  induction nodes generalizing builder top with
  | nil => simp [← opened]
  | cons node rest ih =>
    have pushed : (builder.append node).stack =
        { top with children := node :: top.children } :: below := by
      simp [append, opened]
    rw [List.foldl_cons, ih pushed]
    simp [append, opened]

theorem foldl_append_closed {builder : Builder} (closed : builder.stack = []) (nodes : List Node) :
    nodes.foldl append builder = { builder with roots := nodes.reverse ++ builder.roots } := by
  induction nodes generalizing builder with
  | nil => simp
  | cons node rest ih =>
    have still : (builder.append node).stack = [] := by
      simp [append, closed]
    rw [List.foldl_cons, ih still]
    simp [append, closed]

theorem head_append (builder : Builder) (node : Node) :
    (builder.append node).stack.head?.map (·.element) =
      builder.stack.head?.map (·.element) := by
  simp only [append]
  split
  · next closed => simp [closed]
  · next top rest opened => simp [opened]

abbrev Spell (attributes : List Attribute) (given : List MarkupAttribute) : Prop :=
  (attributes.map Property.attr).mapM Property.markup? = some given

theorem spell_cons {one : Attribute} {others : List Attribute} {first : MarkupAttribute}
    {given : List MarkupAttribute} (head : (Property.attr one).markup? = some first)
    (tail : Spell others given) : Spell (one :: others) (first :: given) := by
  simp only [Spell, List.map_cons, List.mapM_cons, head]
  rw [tail]
  rfl

theorem spell_cons_iff {one : Attribute} {others : List Attribute} {given : List MarkupAttribute} :
    Spell (one :: others) given ↔
      ∃ first more, given = first :: more ∧ (Property.attr one).markup? = some first ∧
        Spell others more := by
  constructor
  · intro spelled
    simp only [Spell, List.map_cons, List.mapM_cons, Option.bind_eq_bind, Option.bind_eq_some_iff]
      at spelled
    obtain ⟨first, head, more, tail, same⟩ := spelled
    exact ⟨first, more, (Option.some.inj same).symm, head, tail⟩
  · rintro ⟨first, more, rfl, head, tail⟩
    exact spell_cons head tail

theorem name_of_markup? {one : Attribute} {first : MarkupAttribute}
    (head : (Property.attr one).markup? = some first) : first.name = one.name := by
  simp only [Property.markup?] at head
  split at head
  · exact congrArg MarkupAttribute.name (Option.some.inj head).symm
  · simp at head

/-- Attributes that are no directives and have names of their own become properties as they are. -/
theorem readProperties_plain (seen : List String) {attributes : List Attribute}
    {given : List MarkupAttribute} (spelled : Spell attributes given)
    (plain : ∀ each ∈ given, each.isPlain = true)
    (distinct : (given.map MarkupAttribute.name).Nodup)
    (fresh : ∀ each ∈ given, each.name ∉ seen) :
    readProperties seen attributes = (attributes.map Property.attr, []) := by
  induction attributes generalizing given seen with
  | nil => rfl
  | cons one others ih =>
    obtain ⟨first, more, rfl, head, tail⟩ := spell_cons_iff.mp spelled
    have name := name_of_markup? head
    rw [List.map_cons, List.nodup_cons] at distinct
    have unseen : seen.contains one.name = false := by
      simpa [name] using fresh first (by simp)
    have undirected : DirectiveName.isDirective one.name = false := by
      have := plain first (by simp)
      simp only [MarkupAttribute.isPlain, Bool.and_eq_true, Bool.not_eq_true'] at this
      exact name ▸ this.1.1.2
    have later : readProperties (one.name :: seen) others = (others.map Property.attr, []) := by
      refine ih (one.name :: seen) tail (fun each member => plain each (by simp [member])) distinct.2 ?_
      intro each member again
      rcases List.mem_cons.mp again with same | earlier
      · exact distinct.1 (List.mem_map.mpr ⟨each, member, same.trans name.symm⟩)
      · exact fresh each (by simp [member]) earlier
    simp only [readProperties, unseen, Bool.false_eq_true, if_false, later, undirected,
      List.map_cons]

variable (option : ParseOption)

theorem handle_attribute (given : MarkupAttribute) {tokens : List Token}
    (spelled : tokens.map (·.kind) = given.kinds) (builder : Builder) {tag : PendingTag}
    (inside : builder.pending = some tag) :
    ∃ one stop, (Property.attr one).markup? = some given ∧
      tokens.foldl (handle option) builder =
        { builder with
            stop
            pending := some { tag with attributes := one :: tag.attributes } } := by
  obtain ⟨name, others, rfl, named, rest⟩ := List.map_eq_cons_iff.mp spelled
  cases written : given.value with
  | none =>
    simp only [written, Option.map_none, Option.toList_none, List.map_eq_nil_iff] at rest
    subst rest
    refine ⟨⟨given.name, none, name.span, name.span⟩, name.span.stop, ?_, ?_⟩
    · cases given
      simp_all [Property.markup?]
    · simp [handle, named, inside]
  | some value =>
    simp only [written, Option.map_some, Option.toList_some] at rest
    obtain ⟨last, more, rfl, valued, none⟩ := List.map_eq_cons_iff.mp rest
    cases List.map_eq_nil_iff.mp none
    refine ⟨⟨given.name, some ⟨(Phrase.mk value {}).decoded true, last.span⟩, name.span,
      ⟨name.span.start, last.span.stop⟩⟩, last.span.stop, ?_, ?_⟩
    · cases given
      simp_all [Property.markup?, Phrase.decoded]
    · simp [handle, named, valued, inside, updateAttribute]

theorem handle_attributes (given : List MarkupAttribute) {tokens : List Token}
    (spelled : tokens.map (·.kind) = given.flatMap MarkupAttribute.kinds) (builder : Builder)
    {tag : PendingTag} (inside : builder.pending = some tag) :
    ∃ attributes stop, Spell attributes given ∧
      tokens.foldl (handle option) builder =
        { builder with
            stop
            pending := some { tag with attributes := attributes.reverse ++ tag.attributes } } := by
  induction given generalizing tokens builder tag with
  | nil =>
    cases List.map_eq_nil_iff.mp spelled
    exact ⟨[], builder.stop, rfl, by simp [← inside]⟩
  | cons first others ih =>
    rw [List.flatMap_cons] at spelled
    obtain ⟨front, back, rfl, one, rest⟩ := List.map_eq_append_iff.mp spelled
    obtain ⟨written, stop, head, handled⟩ := handle_attribute option first one builder inside
    obtain ⟨attributes, last, tail, later⟩ := ih rest
      { builder with stop, pending := some { tag with attributes := written :: tag.attributes } }
      rfl
    refine ⟨written :: attributes, last, spell_cons head tail, ?_⟩
    rw [List.foldl_append, handled, later]
    simp

/-- Blanks are kept as they are. -/
def preserving : ParseOption :=
  { whitespace := .preserve }

/-- The start tag of an element of the markup does not close what is open. -/
def Accepts (builder : Builder) (markup : Markup) : Prop :=
  ∀ top ∈ builder.stack.head?, ∀ tag ∈ markup.tag?,
    Tag.closesImplicitly top.element.tag tag = false

theorem closeImplied_accepted {builder : Builder} {tag : String} {attributes children}
    (accepts : builder.Accepts (.element tag attributes children)) (stop : Position) (count : Nat) :
    builder.closeImplied option tag stop count = builder := by
  cases count with
  | zero => rfl
  | succ count =>
    simp only [closeImplied]
    split
    · rfl
    · next top rest opened =>
      have stays : Tag.closesImplicitly top.element.tag tag = false :=
        accepts top (by simp [opened]) tag rfl
      simp [stays]

theorem plainTag_content {tag : String} (plain : Markup.isPlainTag tag = true) :
    Tag.isVoid tag = false ∧ Tag.isPreformatted tag = false := by
  simp only [Markup.isPlainTag, Bool.and_eq_true, Bool.not_eq_true'] at plain
  exact ⟨plain.1.1.2, plain.1.2⟩

theorem handle_startTag {tag : String} {given : List MarkupAttribute}
    (plainTag : Markup.isPlainTag tag = true) (plain : ∀ each ∈ given, each.isPlain = true)
    (distinct : (given.map MarkupAttribute.name).Nodup) {tokens : List Token}
    (spelled : tokens.map (·.kind) =
      .tagOpen tag :: given.flatMap MarkupAttribute.kinds ++ [.tagEnd false])
    {builder : Builder} {children : List Markup}
    (accepts : builder.Accepts (.element tag given children)) (idle : builder.pending = none) :
    ∃ (top : OpenElement) (stop : Position), top.element.tag = tag ∧ top.children = [] ∧
      top.element.properties.mapM Property.markup? = some given ∧
      tokens.foldl (handle preserving) builder =
        { builder with next := builder.next + 1, stop, stack := top :: builder.stack } := by
  rw [List.cons_append] at spelled
  obtain ⟨first, others, rfl, opens, rest⟩ := List.map_eq_cons_iff.mp spelled
  obtain ⟨inner, ends, rfl, attributes, closes⟩ := List.map_eq_append_iff.mp rest
  obtain ⟨last, none, rfl, ended, empty⟩ := List.map_eq_cons_iff.mp closes
  cases List.map_eq_nil_iff.mp empty
  have opened : handle preserving builder first =
      { builder with
          stop := first.span.stop
          pending := some { name := tag, start := first.span.start } } := by
    have still : ({ builder with stop := first.span.stop } : Builder).Accepts
        (.element tag given children) := accepts
    simp only [handle, opens, closeImplied_accepted preserving still]
  obtain ⟨read, stop, spell, handled⟩ := handle_attributes preserving given attributes
    { builder with
      stop := first.span.stop
      pending := some { name := tag, start := first.span.start } } rfl
  have properties := readProperties_plain [] spell plain distinct (by simp)
  obtain ⟨filled, loose⟩ := plainTag_content plainTag
  refine ⟨{ id := builder.next
            element := ⟨tag, elementKind preserving tag (read.map Property.attr),
              read.map Property.attr⟩
            span := ⟨first.span.start, last.span.stop⟩ },
    last.span.stop, rfl, rfl, spell, ?_⟩
  rw [List.foldl_cons, opened, List.foldl_append, handled]
  simp only [List.foldl_cons, List.foldl_nil, handle, ended, finishStartTag, List.append_nil,
    List.reverse_reverse, properties, preserving, filled, loose, Bool.or_self, Bool.false_eq_true,
    if_false, report, ← idle]

theorem handle_endTag {tag : String} (plain : Markup.isPlainTag tag = true) {token : Token}
    (closes : token.kind = .tagClose tag) (builder : Builder) {top : OpenElement}
    {below : List OpenElement} (opened : builder.stack = top :: below)
    (named : top.element.tag = tag) :
    handle preserving builder token =
      { builder with stop := token.span.stop, stack := below }.append
        { id := top.id
          content := .element top.element
          span := ⟨top.span.start, token.span.stop⟩
          children := top.children.reverse } := by
  obtain ⟨-, loose⟩ := plainTag_content plain
  simp [handle, closes, closeTag, opened, named, Text.sameIgnoringCase, List.findIdx?_cons,
    closeUnclosed, close, settle, preserving, loose]

theorem handle_leaf {builder : Builder} {token : Token} (content : Content)
    (leaves : handle preserving builder token =
      { builder with stop := token.span.stop }.leaf content token.span) :
    handle preserving builder token =
      { builder.append { id := builder.next, content, span := token.span } with
          next := builder.next + 1
          stop := token.span.stop } := by
  rw [leaves, leaf]
  exact append_withPlace builder _ _ _

mutual

theorem handle_markup (markup : Markup) (plain : markup.isPlain = true) {tokens : List Token}
    (spelled : tokens.map (·.kind) = markup.kinds) (builder : Builder)
    (idle : builder.pending = none) (accepts : builder.Accepts markup) :
    ∃ node next stop, node.markup? = some markup ∧
      tokens.foldl (handle preserving) builder = { builder.append node with next, stop } := by
  match markup with
  | .text words =>
    obtain ⟨token, none, rfl, kind, empty⟩ := List.map_eq_cons_iff.mp spelled
    cases List.map_eq_nil_iff.mp empty
    refine ⟨_, _, _, ?_, handle_leaf (.text ((Phrase.mk words {}).decoded false))
      (by simp only [handle, kind])⟩
    simp [Node.markup?, Phrase.decoded]
  | .interpolation source =>
    obtain ⟨token, none, rfl, kind, empty⟩ := List.map_eq_cons_iff.mp spelled
    cases List.map_eq_nil_iff.mp empty
    refine ⟨_, _, _, ?_, handle_leaf (.interpolation source)
      (by simp only [handle, kind])⟩
    simp [Node.markup?]
  | .element tag given children =>
    simp only [Markup.isPlain, Bool.and_eq_true, List.all_eq_true, decide_eq_true_eq,
      Bool.not_eq_true'] at plain
    obtain ⟨⟨⟨⟨plainTag, plainGiven⟩, distinct⟩, apart⟩, below⟩ := plain
    simp only [Markup.kinds] at spelled
    obtain ⟨front, back, rfl, starts, rest⟩ := List.map_eq_append_iff.mp (spelled.trans
      (by simp : _ = (.tagOpen tag :: given.flatMap MarkupAttribute.kinds ++ [.tagEnd false]) ++
        (Markup.kindsAll children ++ [.tagClose tag])))
    obtain ⟨inner, ends, rfl, inside, closes⟩ := List.map_eq_append_iff.mp rest
    obtain ⟨last, none, rfl, closing, empty⟩ := List.map_eq_cons_iff.mp closes
    cases List.map_eq_nil_iff.mp empty
    obtain ⟨top, opened, named, bare, properties, entered⟩ :=
      handle_startTag plainTag plainGiven distinct starts accepts idle
    obtain ⟨nodes, next, stop, read, handled⟩ := handle_forest children below inside
      { builder with next := builder.next + 1, stop := opened, stack := top :: builder.stack }
      idle (by
          intro child member open' first name isName
          cases Option.mem_some.mp first
          rw [named]
          exact apart name (List.mem_filterMap.mpr ⟨child, member, isName⟩))
    have settled := handle_endTag plainTag closing
      { builder with
        next
        stop
        stack := { top with children := nodes.reverse } :: builder.stack } rfl named
    refine ⟨{ id := top.id
              content := .element top.element
              span := ⟨top.span.start, last.span.stop⟩
              children := nodes }, next, last.span.stop, ?_, ?_⟩
    · simp only [Node.markup?, properties, read, named]
    · rw [List.foldl_append, entered, List.foldl_append, handled, foldl_append_opened rfl]
      simp only [bare, List.append_nil, List.foldl_cons, List.foldl_nil, settled,
        List.reverse_reverse]
      exact append_withPlace builder _ next last.span.stop

theorem handle_forest (forest : List Markup) (plain : Markup.isPlainAll forest = true)
    {tokens : List Token} (spelled : tokens.map (·.kind) = Markup.kindsAll forest)
    (builder : Builder) (idle : builder.pending = none)
    (accepts : ∀ markup ∈ forest, builder.Accepts markup) :
    ∃ nodes next stop, Node.markupAll? nodes = some forest ∧
      tokens.foldl (handle preserving) builder =
        { nodes.foldl append builder with next, stop } := by
  match forest with
  | [] =>
    cases List.map_eq_nil_iff.mp spelled
    exact ⟨[], builder.next, builder.stop, rfl, rfl⟩
  | markup :: others =>
    simp only [Markup.isPlainAll, Bool.and_eq_true] at plain
    obtain ⟨front, back, rfl, one, rest⟩ := List.map_eq_append_iff.mp spelled
    obtain ⟨node, next, stop, read, handled⟩ :=
      handle_markup markup plain.1.1 one builder idle (accepts markup (by simp))
    obtain ⟨nodes, last, final, below, later⟩ := handle_forest others plain.2 rest
      { builder.append node with next, stop } (by simp [pending_append, idle]) (by
        intro other member top first
        have same := head_append builder node
        obtain ⟨old, opened, element⟩ : ∃ old, builder.stack.head? = some old ∧
            old.element = top.element := by
          rw [Option.mem_def.mp first] at same
          exact Option.map_eq_some_iff.mp same.symm
        intro tag isTag
        rw [← element]
        exact accepts other (by simp [member]) old opened tag isTag)
    refine ⟨node :: nodes, last, final, by simp only [Node.markupAll?, read, below], ?_⟩
    rw [List.foldl_append, handled, later, foldl_append_withPlace, List.foldl_cons]

end

/-- Without problems on the way, only the tokens count. -/
theorem foldl_handlePull {pulls : List Pull} (clean : ∀ pull ∈ pulls, pull.problems = [])
    (builder : Builder) :
    pulls.foldl (handlePull option) builder =
      (pulls.map (·.token)).foldl (handle option) builder := by
  induction pulls generalizing builder with
  | nil => rfl
  | cons pull rest ih =>
    have silent : builder.report pull.problems = builder := by
      simp [report, clean pull (by simp)]
    rw [List.foldl_cons, handlePull, silent, ih fun other member => clean other (by simp [member])]
    rfl

end Builder

/-- Scanning and building undo printing: plain markup is read back from its spelling, with nothing
reported, nothing dropped and nothing added. -/
theorem parse_scan_print (forest : List Markup) (plain : Markup.isPlainAll forest = true) :
    ∃ template, parse { whitespace := .preserve }
        (scan {} (String.ofList (Markup.printAll forest))) = .ok (template, []) ∧
      Node.markupAll? template.roots = some forest ∧ template.dropped = [] := by
  have scanned := scan_printAll forest plain
  have spelled : ((scan {} (String.ofList (Markup.printAll forest))).pulls.map (·.token)).map
      (·.kind) = Markup.kindsAll forest := by
    rw [List.map_map]
    exact scanned.kinds
  obtain ⟨nodes, next, stop, read, handled⟩ := Builder.handle_forest forest plain spelled
    {} rfl (by
      intro markup member top opened
      simp at opened)
  rw [Builder.foldl_append_closed rfl] at handled
  refine ⟨{ roots := nodes, size := next, span := ⟨{}, stop⟩ }, ?_, read, rfl⟩
  simp only [parse, scanned.ending, Except.map, Builder.foldl_handlePull _ scanned.problems]
  rw [show ({ whitespace := .preserve } : ParseOption) = Builder.preserving from rfl, handled]
  simp [Builder.report, Builder.finish, Builder.closeUnclosed, Builder.settle, Builder.preserving]

/-- A list whose items end explicitly, with attributes, text and an interpolation in it. -/
theorem parse_scan_print_list :
    Markup.isPlainAll
      [.element "ul" [⟨"id", some "a>b"⟩, ⟨"hidden", none⟩]
        [.text "x &amp; y\n", .element "li" [] [.interpolation " b < c "], .element "li" [] []]] =
      true ∧
    ∃ template, parse { whitespace := .preserve }
        (scan {} (String.ofList (Markup.printAll
          [.element "ul" [⟨"id", some "a>b"⟩, ⟨"hidden", none⟩]
            [.text "x &amp; y\n", .element "li" [] [.interpolation " b < c "],
              .element "li" [] []]]))) = .ok (template, []) ∧
      Node.markupAll? template.roots = some
        [.element "ul" [⟨"id", some "a>b"⟩, ⟨"hidden", none⟩]
          [.text "x &amp; y\n", .element "li" [] [.interpolation " b < c "],
            .element "li" [] []]] ∧
      template.dropped = [] :=
  ⟨by decide, parse_scan_print _ (by decide)⟩

end TemplateCompiler
