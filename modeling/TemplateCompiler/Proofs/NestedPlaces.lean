import TemplateCompiler.Proofs.ParsedPlaces

/-! Places nest like the nodes do. However tags are missing, implied, crossed or left over, a node
ends before the next sibling begins and lies within its parent, as an element is never closed before
what was read last nor behind what is read next. -/

namespace TemplateCompiler

/-- The place `first` is not behind `second`, by bytes and by lines and columns. -/
structure Position.Precedes (first second : Position) : Prop where
  offset : first.offset ≤ second.offset
  line : first.line < second.line ∨ first.line = second.line ∧ first.column ≤ second.column

namespace Position

theorem Precedes.refl (position : Position) : position.Precedes position :=
  ⟨Nat.le_refl _, .inr ⟨rfl, Nat.le_refl _⟩⟩

theorem Precedes.trans {first second third : Position} (front : first.Precedes second)
    (back : second.Precedes third) : first.Precedes third := by
  obtain ⟨bytes, lines⟩ := front
  obtain ⟨moreBytes, moreLines⟩ := back
  exact ⟨Nat.le_trans bytes moreBytes, by omega⟩

theorem precedes_step (position : Position) (c : Char) : position.Precedes (position.step c) := by
  unfold step
  split
  · exact ⟨Nat.le_add_right _ _, .inl (Nat.lt_succ_self _)⟩
  · exact ⟨Nat.le_add_right _ _, .inr ⟨rfl, Nat.le_succ _⟩⟩

/-- Reading only goes forward. -/
theorem precedes_advance (position : Position) (text : List Char) :
    position.Precedes (position.advance text) := by
  induction text generalizing position with
  | nil => exact .refl position
  | cons c text ih => exact (position.precedes_step c).trans (ih (position.step c))

end Position

/-- The one stretch lies in the other. -/
structure Span.Within (inner outer : Span) : Prop where
  start : outer.start.Precedes inner.start
  stop : inner.stop.Precedes outer.stop

namespace Node

structure SiblingsIn (span : Span) (nodes : List Node) : Prop where
  within : ∀ node ∈ nodes, node.span.Within span
  forward : ∀ node ∈ nodes, node.span.start.Precedes node.span.stop
  apart : nodes.Pairwise fun first second => first.span.stop.Precedes second.span.start

/-- Between `low` and `high` the nodes stand one behind the other, and so do their children between
the two ends of each. -/
inductive Nested : Position → List Node → Position → Prop
  | nil {low high : Position} (order : low.Precedes high) : Nested low [] high
  | cons {low high : Position} {node : Node} {rest : List Node}
      (before : low.Precedes node.span.start)
      (inside : Nested node.span.start node.children node.span.stop)
      (behind : Nested node.span.stop rest high) : Nested low (node :: rest) high

namespace Nested

variable {low middle high : Position} {nodes first second : List Node}

theorem order (nested : Nested low nodes high) : low.Precedes high := by
  induction nested with
  | nil order => exact order
  | cons before _ _ inside behind => exact before.trans (inside.trans behind)

theorem earlier {lower : Position} (nested : Nested low nodes high) (below : lower.Precedes low) :
    Nested lower nodes high := by
  cases nested with
  | nil order => exact .nil (below.trans order)
  | cons before inside behind => exact .cons (below.trans before) inside behind

theorem append (front : Nested low first middle) (back : Nested middle second high) :
    Nested low (first ++ second) high := by
  induction front with
  | nil order => exact back.earlier order
  | cons before inside _ _ ih => exact .cons before inside (ih back)

theorem later {higher : Position} (nested : Nested low nodes high) (above : high.Precedes higher) :
    Nested low nodes higher := by
  have whole := nested.append (.nil above)
  rwa [List.append_nil] at whole

/-- What becomes of white space moves no node. -/
theorem condense (nested : Nested low nodes high) (previous : Option Node) :
    Nested low (Template.condense previous nodes).1 high := by
  -- on the list, as the children of a node are left alone
  induction nodes generalizing low previous with
  | nil => exact nested
  | cons node rest ih =>
    cases nested with
    | cons before inside behind =>
      have kept := ih behind (some node)
      simp only [Template.condense]
      split
      · split
        · exact .cons before inside kept
        · split
          · exact kept.earlier (before.trans inside.order)
          · exact .cons before inside kept
      · exact .cons before inside kept

theorem trimFirstBreak (nested : Nested low nodes high) :
    Nested low (Template.trimFirstBreak nodes) high := by
  cases nested with
  | nil order => exact .nil order
  | cons before inside behind =>
    simp only [Template.trimFirstBreak]
    split
    · exact .cons before inside behind
    · exact .cons before inside behind

theorem settle (option : ParseOption) (nested : Nested low nodes high) :
    Nested low (Builder.settle option nodes).1 high := by
  unfold Builder.settle
  split
  · exact nested
  · exact nested.condense none

theorem siblings (nested : Nested low nodes high) : SiblingsIn ⟨low, high⟩ nodes := by
  induction nested with
  | nil => exact ⟨List.forall_mem_nil _, List.forall_mem_nil _, List.Pairwise.nil⟩
  | @cons low high node rest before inside behind _ ih =>
    obtain ⟨within, forward, apart⟩ := ih
    constructor
    · refine List.forall_mem_cons.mpr ⟨⟨before, behind.order⟩, ?_⟩
      intro other member
      obtain ⟨start, stop⟩ := within other member
      exact ⟨before.trans (inside.order.trans start), stop⟩
    · exact List.forall_mem_cons.mpr ⟨inside.order, forward⟩
    · exact List.Pairwise.cons (fun other member => (within other member).start) apart

/-- The children of each node, however deep it is, lie in it one behind the other. -/
theorem deeper (nested : Nested low nodes high) :
    ∀ node ∈ flattenAll nodes, SiblingsIn node.span node.children := by
  induction nested with
  | nil => exact List.forall_mem_nil _
  | cons before inside behind inner others =>
    intro node member
    rw [flattenAll, flatten_eq, List.cons_append] at member
    rcases List.mem_cons.mp member with rfl | later
    · exact inside.siblings
    · rcases List.mem_append.mp later with lower | further
      · exact inner node lower
      · exact others node further

end Nested

end Node

namespace Builder

variable {option : ParseOption} {builder before after : Builder} {here stop : Position}

inductive Laid (roots : List Node) : List OpenElement → Position → Prop
  | roots {here : Position} (nested : Node.Nested {} roots.reverse here) : Laid roots [] here
  | opened {top : OpenElement} {rest : List OpenElement} {here : Position}
      (outer : Laid roots rest top.span.start)
      (inner : Node.Nested top.span.start top.children.reverse here) : Laid roots (top :: rest) here

abbrev LaidTo (builder : Builder) (here : Position) : Prop :=
  Laid builder.roots builder.stack here

theorem Laid.later {roots : List Node} {stack : List OpenElement} {there : Position}
    (laid : Laid roots stack here) (further : here.Precedes there) : Laid roots stack there := by
  cases laid with
  | roots nested => exact .roots (nested.later further)
  | opened outer inner => exact .opened outer (inner.later further)

theorem LaidTo.transfer (laid : before.LaidTo here) (same : SameTree before after) :
    after.LaidTo here := by
  rw [LaidTo, same.roots, same.stack]
  exact laid

theorem LaidTo.append {node : Node} (laid : builder.LaidTo node.span.start)
    (inside : Node.Nested node.span.start node.children node.span.stop) :
    (builder.append node).LaidTo node.span.stop := by
  have last : Node.Nested node.span.start [node] node.span.stop :=
    .cons (.refl _) inside (.nil (.refl _))
  unfold LaidTo at laid
  simp only [Builder.append]
  split
  · next empty =>
    rw [empty] at laid
    cases laid with
    | roots nested =>
      rw [LaidTo, empty]
      apply Laid.roots
      rw [List.reverse_cons]
      exact nested.append last
  · next top rest stack =>
    rw [stack] at laid
    cases laid with
    | opened outer inner =>
      refine .opened outer ?_
      rw [List.reverse_cons]
      exact inner.append last

theorem LaidTo.leaf {content : Content} {span : Span} (laid : builder.LaidTo span.start)
    (forward : span.start.Precedes span.stop) : (builder.leaf content span).LaidTo span.stop :=
  LaidTo.append laid (.nil forward)

theorem nested_settleOpen {top : OpenElement}
    (inner : Node.Nested top.span.start top.children.reverse stop) :
    Node.Nested top.span.start (settleOpen option builder top).1 stop := by
  unfold settleOpen
  split
  · exact inner.trimFirstBreak
  · split
    · exact inner.settle option
    · exact inner

/-- An element may be closed anywhere behind what was read. -/
theorem LaidTo.close (laid : builder.LaidTo here) (further : here.Precedes stop) :
    (builder.close option stop).LaidTo stop := by
  cases stack : builder.stack with
  | nil =>
    rw [close_nil stack]
    exact Laid.later laid further
  | cons top rest =>
    rw [LaidTo, stack] at laid
    rw [close_cons stack]
    cases laid with
    | opened outer inner => exact LaidTo.append outer (nested_settleOpen (inner.later further))

theorem LaidTo.closing (laid : before.LaidTo stop) (closes : Closing option stop before after) :
    after.LaidTo stop := by
  cases closes with
  | unclosed => exact laid.transfer (sameTree_reportUnclosed before)
  | close => exact laid.close (.refl stop)

theorem LaidTo.closings (laid : before.LaidTo stop)
    (closes : Relation.ReflTransGen (Closing option stop) before after) : after.LaidTo stop := by
  induction closes with
  | refl => exact laid
  | tail _ closing ih => exact ih.closing closing

/-- What is no part of the tree is left alone by closing elements. -/
theorem closings_keep (closes : Relation.ReflTransGen (Closing option here) before after) :
    after.stop = before.stop ∧ after.pending = before.pending := by
  induction closes with
  | refl => exact ⟨rfl, rfl⟩
  | tail _ closing ih =>
    cases closing with
    | unclosed =>
      simp only [reportUnclosed]
      split
      · exact ih
      · split
        · exact ih
        · exact ih
    | close => exact ⟨stop_close.trans ih.1, (pending_close here).trans ih.2⟩

/-- The nodes stand one behind the other up to what was read last, and in front of a start tag that
is not at its end. -/
structure Ordered (builder : Builder) : Prop where
  laid : builder.LaidTo builder.stop
  pending : ∀ tag ∈ builder.pending, builder.LaidTo tag.start ∧ tag.start.Precedes builder.stop

namespace Ordered

theorem report (ordered : builder.Ordered) (problems : List Problem) :
    (builder.report problems).Ordered :=
  ⟨ordered.laid, ordered.pending⟩

theorem read (ordered : builder.Ordered) (further : builder.stop.Precedes stop) :
    { builder with stop }.Ordered := by
  refine ⟨Laid.later ordered.laid further, ?_⟩
  intro tag member
  obtain ⟨front, reached⟩ := ordered.pending tag member
  exact ⟨front, reached.trans further⟩

theorem beginTag (ordered : builder.Ordered) (name : String) {span : Span}
    (further : builder.stop.Precedes span.start) (forward : span.start.Precedes span.stop) :
    { { builder with stop := span.stop }.closeImplied option name span.start
          builder.stack.length with
        pending := some { name, start := span.start } }.Ordered := by
  have closes := @closeImplied_closing option { builder with stop := span.stop } name span.start
    builder.stack.length
  have laid : { builder with stop := span.stop }.LaidTo span.start :=
    Laid.later ordered.laid further
  have closed := laid.closings closes
  have stop := (closings_keep closes).1
  constructor
  · simp only [stop]
    exact Laid.later closed forward
  · intro tag member
    cases member
    simp only [stop]
    exact ⟨closed, forward⟩

theorem finishStartTag (ordered : builder.Ordered) (selfClosing : Bool) {span : Span}
    (further : builder.stop.Precedes span.stop) :
    ({ builder with stop := span.stop }.finishStartTag option selfClosing span).Ordered := by
  simp only [Builder.finishStartTag]
  split
  · exact ordered.read further
  · next tag pending =>
    obtain ⟨front, reached⟩ := ordered.pending tag pending
    have forward : tag.start.Precedes span.stop := reached.trans further
    split
    · constructor
      · rw [Builder.leaf, stop_append]
        exact @LaidTo.leaf _ _ ⟨tag.start, span.stop⟩ front forward
      · rw [pending_leaf]
        rintro _ ⟨⟩
    · constructor
      · exact .opened front (.nil forward)
      · rintro _ ⟨⟩

theorem closeTag (ordered : builder.Ordered) (idle : builder.pending = none) (name : String)
    {span : Span} (further : builder.stop.Precedes span.start)
    (forward : span.start.Precedes span.stop) :
    ({ builder with stop := span.stop }.closeTag option name span).Ordered := by
  have laid : { builder with stop := span.stop }.LaidTo span.start :=
    Laid.later ordered.laid further
  simp only [Builder.closeTag]
  split
  · exact (ordered.read (further.trans forward)).report _
  · next depth _ =>
    have closes := @closeUnclosed_closing option { builder with stop := span.stop } span.start depth
    obtain ⟨stop, pending⟩ := closings_keep closes
    constructor
    · rw [stop_close, stop]
      exact (laid.closings closes).close forward
    · rw [pending_close, pending, idle]
      rintro _ ⟨⟩

theorem leaf (ordered : builder.Ordered) (idle : builder.pending = none) (content : Content)
    {span : Span} (further : builder.stop.Precedes span.start)
    (forward : span.start.Precedes span.stop) :
    ({ builder with stop := span.stop }.leaf content span).Ordered := by
  have laid : { builder with stop := span.stop }.LaidTo span.start :=
    Laid.later ordered.laid further
  constructor
  · rw [Builder.leaf, stop_append]
    exact laid.leaf forward
  · rw [pending_leaf, idle]
    rintro _ ⟨⟩

/-- A token that belongs where it is and stands behind what was read before. -/
theorem handle (ordered : builder.Ordered) (token : Token)
    (further : builder.stop.Precedes token.span.start)
    (forward : token.span.start.Precedes token.span.stop)
    (belongs : token.kind.within = builder.pending.isSome) :
    (builder.handle option token).Ordered := by
  obtain ⟨kind, span⟩ := token
  have idle (outside : kind.within = false) : builder.pending = none := by
    rw [← Option.not_isSome_iff_eq_none, ← belongs, outside]
    exact Bool.false_ne_true
  have read := ordered.read (further.trans forward)
  cases kind with
  | tagOpen name => exact ordered.beginTag name further forward
  | attrName name =>
    simp only [Builder.handle]
    split
    · exact read
    · next tag pending =>
      refine ⟨read.laid, ?_⟩
      rintro _ ⟨⟩
      exact read.pending tag pending
  | attrValue content =>
    simp only [Builder.handle, updateAttribute]
    split
    · next pending =>
      have front := read.pending _ pending
      refine ⟨read.laid, ?_⟩
      rintro _ ⟨⟩
      exact front
    · exact read
  | tagEnd selfClosing => exact ordered.finishStartTag selfClosing (further.trans forward)
  | tagClose name => exact ordered.closeTag (idle rfl) name further forward
  | text text => exact ordered.leaf (idle rfl) _ further forward
  | interpolation source => exact ordered.leaf (idle rfl) _ further forward
  | comment source =>
    simp only [Builder.handle]
    split
    · exact ordered.leaf (idle rfl) _ further forward
    · exact read

end Ordered

/-- Whatever is handled, the builder has come to the end of the token. -/
theorem stop_handle (option : ParseOption) (builder : Builder) (token : Token) :
    (builder.handle option token).stop = token.span.stop := by
  obtain ⟨kind, span⟩ := token
  cases kind with
  | tagOpen name => exact (closings_keep (closeImplied_closing name span.start _)).1
  | attrName name =>
    simp only [handle]
    split <;> rfl
  | attrValue content =>
    simp only [handle, updateAttribute]
    split <;> rfl
  | tagEnd selfClosing =>
    simp only [handle, finishStartTag]
    split
    · rfl
    · split
      · rw [leaf, stop_append]
        rfl
      · rfl
  | tagClose name =>
    simp only [handle, closeTag]
    split
    · rfl
    · rw [stop_close, (closings_keep (closeUnclosed_closing _ _)).1]
  | text | interpolation => exact stop_append _ _
  | comment source =>
    simp only [handle]
    split
    · exact stop_append _ _
    · rfl

/-- Reading tokens that tile a text. -/
theorem Ordered.foldl {delimiters : Delimiters} {inTag : Bool} {position : Position}
    {text : List Char} {tokens : List Token}
    (tiled : Lexer.Tiled delimiters inTag position tokens text) {pulls : List Pull}
    (pulled : pulls.map (·.token) = tokens) (ordered : builder.Ordered)
    (further : builder.stop.Precedes position) (belongs : builder.pending.isSome = inTag) :
    (pulls.foldl (handlePull option) builder).Ordered := by
  induction tiled generalizing builder pulls with
  | done =>
    rw [List.map_eq_nil_iff.mp pulled]
    exact ordered
  | @token inTag position gap body later kind tokens silent within spelled others ih =>
    obtain ⟨pull, rest, rfl, same, remaining⟩ := List.map_eq_cons_iff.mp pulled
    have forward : (position.advance gap).Precedes (position.advance (gap ++ body)) := by
      rw [Position.advance_append]
      exact Position.precedes_advance _ body
    have ahead := further.trans (position.precedes_advance gap)
    have inside : kind.within = (builder.report pull.problems).pending.isSome :=
      within.trans belongs.symm
    have handled := @Ordered.handle option _ (ordered.report pull.problems) pull.token
    rw [same] at handled
    rw [List.foldl_cons, handlePull, same]
    apply ih remaining (handled ahead forward inside)
    · rw [stop_handle]
      exact .refl _
    · rw [pending_handle, ← inside]
      cases kind <;> rfl

end Builder

/-- The root nodes lie in the template one behind the other, and so do the children of each node in
that node. -/
structure Template.Nests (template : Template) : Prop where
  roots : Node.SiblingsIn template.span template.roots
  children : ∀ node ∈ Node.flattenAll template.roots, Node.SiblingsIn node.span node.children

theorem Builder.Ordered.finish {builder : Builder} (ordered : builder.Ordered)
    (option : ParseOption) : (builder.finish option).1.Nests := by
  have closed := ordered.laid.closings
    (@closeUnclosed_closing option builder builder.stop builder.stack.length)
  rw [LaidTo, stack_closeAll] at closed
  cases closed with
  | roots nested =>
    have settled := nested.settle option
    exact ⟨settled.siblings, settled.deeper⟩

/-- Whatever the tags of a source are, the places of the nodes that are parsed of it nest. -/
theorem parse_nests (scanning : ScanOption) (option : ParseOption) (source : String)
    (found : List Problem) (ended : (scan scanning source).ending = .ok found) :
    ∃ template problems, parse option (scan scanning source) = .ok (template, problems) ∧
      template.Nests := by
  have empty : ({} : Builder).Ordered := by
    refine ⟨.roots (.nil (.refl _)), ?_⟩
    rintro _ ⟨⟩
  have read : ((scan scanning source).pulls.foldl (Builder.handlePull option) {}).Ordered :=
    empty.foldl (Lexer.tiled_scanFrom ended) rfl (.refl _) rfl
  have parsed : parse option (scan scanning source) =
      .ok ((((scan scanning source).pulls.foldl (Builder.handlePull option) {}).report
        found).finish option) := by
    rw [parse, ended]
    rfl
  exact ⟨_, _, parsed, (read.report found).finish option⟩

/-- Start tags that imply ends, end tags that cross and are left over, and elements that are never
closed. -/
theorem parse_nests_crossed :
    (scan {} "<ul><li>a<li><b>c\n<i>d</b>e</i></ul></p><p>f<div>g").ending = .ok [] ∧
      ∃ template problems,
        parse {} (scan {} "<ul><li>a<li><b>c\n<i>d</b>e</i></ul></p><p>f<div>g") =
          .ok (template, problems) ∧ template.Nests := by
  have ended : (scan {} "<ul><li>a<li><b>c\n<i>d</b>e</i></ul></p><p>f<div>g").ending = .ok [] := by
    decide +kernel
  exact ⟨ended, parse_nests {} {} _ [] ended⟩

end TemplateCompiler
