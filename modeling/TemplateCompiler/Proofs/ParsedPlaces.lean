import TemplateCompiler.Proofs.NodeOrder
import TemplateCompiler.Proofs.SourcePlaces

/-! The places in a parsed template. An element begins where its start tag does and ends where it is
closed, which is never before what was read last; so all that a builder makes of tokens that tile a
source lies in the source, and siblings begin one behind the other. -/

namespace TemplateCompiler

open Text

structure Attribute.Lies (source : String) (given : Attribute) : Prop where
  name : given.nameSpan.Lies source
  value : ∀ value ∈ given.value, value.span.Lies source
  span : given.span.Lies source

structure Directive.Lies (source : String) (directive : Directive) : Prop where
  head : directive.headSpan.Lies source
  expression : ∀ value ∈ directive.expression, value.span.Lies source
  span : directive.span.Lies source

def Property.Lies (source : String) : Property → Prop
  | .attr given => given.Lies source
  | .dir directive => directive.Lies source

structure Branch.Lies (source : String) (branch : Branch) : Prop where
  condition : ∀ value ∈ branch.condition, value.span.Lies source
  span : branch.span.Lies source

def Content.Lies (source : String) : Content → Prop
  | .element made => ∀ property ∈ made.properties, property.Lies source
  | .conditional branches => ∀ branch ∈ branches, branch.Lies source
  | .loop repeated => repeated.source.span.Lies source
  | _ => True

def ProblemsLie (source : String) (problems : List Problem) : Prop :=
  ∀ problem ∈ problems, problem.span.Lies source

namespace Node

abbrev AllLie (source : String) (nodes : List Node) : Prop :=
  Every (fun _ content span => content.Lies source ∧ span.Lies source) nodes

/-- The nodes begin in their order. -/
def Sorted (nodes : List Node) : Prop :=
  (nodes.map fun node => node.span.start.offset).Pairwise (· ≤ ·)

theorem Sorted.sublist {few many : List Node} (sorted : Sorted many) (fewer : few.Sublist many) :
    Sorted few :=
  List.Pairwise.sublist (fewer.map _) sorted

end Node

variable {source : String} {option : ParseOption}

theorem problemsLie_append {first second : List Problem} :
    ProblemsLie source (first ++ second) ↔ ProblemsLie source first ∧ ProblemsLie source second :=
  List.forall_mem_append

theorem problemsLie_singleton {problem : Problem} :
    ProblemsLie source [problem] ↔ problem.span.Lies source :=
  List.forall_mem_singleton

theorem Lexer.Reported.lie {problems : List Problem}
    (reported : Lexer.Reported (.ofString source) problems) : ProblemsLie source problems :=
  fun problem member => (reported problem member).lies

theorem Builder.lies_readProperties (seen : List String) {attributes : List Attribute}
    (lie : ∀ given ∈ attributes, given.Lies source) :
    (∀ property ∈ (readProperties seen attributes).1, property.Lies source) ∧
      ProblemsLie source (readProperties seen attributes).2 := by
  induction attributes generalizing seen with
  | nil => exact ⟨List.forall_mem_nil _, List.forall_mem_nil _⟩
  | cons given rest ih =>
    obtain ⟨own, others⟩ := List.forall_mem_cons.mp lie
    simp only [readProperties]
    split
    · obtain ⟨properties, problems⟩ := ih seen others
      exact ⟨properties, List.forall_mem_cons.mpr ⟨own.span, problems⟩⟩
    · obtain ⟨properties, problems⟩ := ih (given.name :: seen) others
      split
      · have found : ProblemsLie source ((DirectiveName.parse given.name).2.map fun kind =>
            { kind, span := given.nameSpan : Problem }) :=
          List.forall_mem_map.mpr fun _ _ => own.name
        split
        · refine ⟨List.forall_mem_cons.mpr ⟨⟨own.name, ?_, own.span⟩, properties⟩,
            problemsLie_append.mpr ⟨found, problems⟩⟩
          intro value member
          obtain ⟨given, inside, rfl⟩ := Option.map_eq_some_iff.mp member
          exact own.value given inside
        · exact ⟨List.forall_mem_cons.mpr ⟨own, properties⟩,
            problemsLie_append.mpr ⟨found, problems⟩⟩
      · exact ⟨List.forall_mem_cons.mpr ⟨own, properties⟩, problems⟩

structure PendingTag.Placed (source : String) (bound : Nat) (tag : PendingTag) : Prop where
  start : tag.start.Lies source
  reached : tag.start.offset ≤ bound
  attributes : ∀ given ∈ tag.attributes, given.Lies source ∧ given.span.start.offset ≤ bound

structure Builder.Placed (source : String) (bound : Nat) (builder : Builder) : Prop where
  holds : builder.Holds (fun _ content span => content.Lies source ∧ span.Lies source)
    fun _ element span => ((Content.element element).Lies source ∧ span.Lies source) ∧
      span.start.offset ≤ bound
  sorted : (builder.trail.map (·.2.offset)).Pairwise (· ≤ ·)
  reached : ∀ head ∈ builder.trail, head.2.offset ≤ bound
  pending : ∀ tag ∈ builder.pending, tag.Placed source bound ∧
    ∀ head ∈ builder.trail, head.2.offset ≤ tag.start.offset
  problems : ProblemsLie source builder.problems
  stop : builder.stop.Lies source
  bounded : bound ≤ builder.stop.offset

theorem Content.tolerates_lies : Node.Tolerates fun _ content span =>
    content.Lies source ∧ span.Lies source :=
  fun _ _ _ _ _ lies => ⟨trivial, lies.2⟩

namespace Builder

variable {builder before after : Builder} {token : Token} {bound : Nat} {stop : Position}

theorem problems_append (builder : Builder) (node : Node) :
    (builder.append node).problems = builder.problems := by
  simp only [append]
  split <;> rfl

theorem stop_append (builder : Builder) (node : Node) :
    (builder.append node).stop = builder.stop := by
  simp only [append]
  split <;> rfl

theorem problems_close : (builder.close option stop).problems = builder.problems := by
  simp only [close]
  split
  · rfl
  · rw [problems_append]

theorem stop_close {place : Position} : (builder.close option place).stop = builder.stop := by
  simp only [close]
  split
  · rfl
  · rw [stop_append]

namespace Placed

theorem read (placed : builder.Placed source bound) (lies : stop.Lies source) {later : Nat}
    (further : bound ≤ later) (late : later ≤ stop.offset) :
    { builder with stop }.Placed source later := by
  obtain ⟨⟨roots, dropped, stack⟩, sorted, reached, pending, problems, -, -⟩ := placed
  refine ⟨⟨roots, dropped, fun top member => ?_⟩, sorted,
    fun head member => (reached head member).trans further, fun tag member => ?_, problems, lies,
    late⟩
  · obtain ⟨⟨own, early⟩, inner⟩ := stack top member
    exact ⟨⟨own, early.trans further⟩, inner⟩
  · obtain ⟨⟨start, early, attributes⟩, front⟩ := pending tag member
    refine ⟨⟨start, early.trans further, fun given inside => ?_⟩, front⟩
    obtain ⟨own, first⟩ := attributes given inside
    exact ⟨own, first.trans further⟩

theorem report (placed : builder.Placed source bound) {problems : List Problem}
    (lie : ProblemsLie source problems) : (builder.report problems).Placed source bound :=
  ⟨⟨placed.holds.roots, placed.holds.dropped, placed.holds.stack⟩, placed.sorted, placed.reached,
    placed.pending, problemsLie_append.mpr ⟨placed.problems, lie⟩, placed.stop, placed.bounded⟩

theorem reportUnclosed (placed : builder.Placed source bound) :
    builder.reportUnclosed.Placed source bound := by
  unfold Builder.reportUnclosed
  split
  · exact placed
  · next top rest stack =>
    split
    · exact placed
    · have opened := (placed.holds.stack top (stack ▸ List.mem_cons_self)).1
      exact placed.report (problemsLie_singleton.mpr opened.1.2)

theorem close (placed : builder.Placed source bound) (lies : stop.Lies source)
    (late : bound ≤ stop.offset) : (builder.close option stop).Placed source bound := by
  obtain ⟨fewer, -⟩ := trail_close option builder stop
  refine ⟨?_, ?_, ?_, ?_, ?_, ?_, ?_⟩
  · refine placed.holds.close Content.tolerates_lies ?_
    rintro id element span ⟨⟨content, whole⟩, early⟩
    exact ⟨content, Span.lies_of_ordered whole.start lies (early.trans late)⟩
  · exact List.Pairwise.sublist (fewer.map _) placed.sorted
  · exact fun head member => placed.reached head (fewer.subset member)
  · rw [pending_close]
    intro tag member
    obtain ⟨own, front⟩ := placed.pending tag member
    exact ⟨own, fun head inside => front head (fewer.subset inside)⟩
  · rw [problems_close]
    exact placed.problems
  · rw [stop_close]
    exact placed.stop
  · rw [stop_close]
    exact placed.bounded

theorem closing (placed : before.Placed source bound) (lies : stop.Lies source)
    (late : bound ≤ stop.offset) (closes : Closing option stop before after) :
    after.Placed source bound := by
  cases closes with
  | unclosed => exact placed.reportUnclosed
  | close => exact placed.close lies late

theorem closeUnclosed (placed : builder.Placed source bound) (lies : stop.Lies source)
    (late : bound ≤ stop.offset) (count : Nat) :
    (builder.closeUnclosed option stop count).Placed source bound :=
  closeUnclosed_keeps placed (fun closes placed => placed.closing lies late closes) count

theorem withPending (placed : builder.Placed source bound) {tag : PendingTag}
    (own : tag.Placed source bound)
    (front : ∀ head ∈ builder.trail, head.2.offset ≤ tag.start.offset) :
    { builder with pending := some tag }.Placed source bound := by
  refine ⟨⟨placed.holds.roots, placed.holds.dropped, placed.holds.stack⟩, placed.sorted,
    placed.reached, ?_, placed.problems, placed.stop, placed.bounded⟩
  rintro given ⟨⟩
  exact ⟨own, front⟩

theorem step (placed : before.Placed source token.span.start.offset) (lies : token.span.Lies source)
    (step : Step option token before after) : after.Placed source token.span.start.offset := by
  cases step with
  | read => exact placed.read lies.stop (Nat.le_refl _) lies.ordered
  | closing place closes =>
    rcases place with rfl | rfl
    · exact placed.closing lies.start (Nat.le_refl _) closes
    · exact placed.closing lies.stop lies.ordered closes
  | begin => exact placed.withPending ⟨lies.start, Nat.le_refl _, List.forall_mem_nil _⟩ placed.reached
  | name _ pending =>
    obtain ⟨⟨start, early, attributes⟩, front⟩ := placed.pending _ pending
    refine placed.withPending ⟨start, early, List.forall_mem_cons.mpr ⟨?_, attributes⟩⟩ front
    exact ⟨⟨lies, by rintro _ ⟨⟩, lies⟩, Nat.le_refl _⟩
  | value =>
    unfold updateAttribute
    split
    · next name start last others pending =>
      obtain ⟨⟨begins, early, attributes⟩, front⟩ := placed.pending _ pending
      obtain ⟨⟨own, reached⟩, rest⟩ := List.forall_mem_cons.mp attributes
      refine placed.withPending ⟨begins, early, List.forall_mem_cons.mpr ⟨⟨?_, reached⟩, rest⟩⟩ front
      refine ⟨own.name, ?_, ?_⟩
      · rintro value ⟨⟩
        exact lies
      · exact Span.lies_of_ordered own.span.start lies.stop (reached.trans lies.ordered)
    · exact placed
  | stray => exact placed.report (problemsLie_singleton.mpr lies)

theorem steps (placed : before.Placed source token.span.start.offset)
    (lies : token.span.Lies source) (steps : Steps option token before after) :
    after.Placed source token.span.start.offset := by
  induction steps with
  | refl => exact placed
  | tail _ step ih => exact ih.step lies step

/-- A node that begins behind all others is put in place. -/
theorem extend (placed : before.Placed source bound) {id : NodeId} {start : Position}
    (holds : after.Holds (fun _ content span => content.Lies source ∧ span.Lies source)
      fun _ element span => ((Content.element element).Lies source ∧ span.Lies source) ∧
        span.start.offset ≤ bound)
    (trail : after.trail = before.trail ++ [(id, start)]) (reached : start.offset ≤ bound)
    (front : ∀ head ∈ before.trail, head.2.offset ≤ start.offset) (idle : after.pending = none)
    (problems : ProblemsLie source after.problems) (stop : after.stop = before.stop) :
    after.Placed source bound := by
  refine ⟨holds, ?_, ?_, fun tag member => ?_, problems, stop ▸ placed.stop, stop ▸ placed.bounded⟩
  · rw [trail, List.map_append, List.pairwise_append]
    refine ⟨placed.sorted, List.pairwise_singleton _ _, ?_⟩
    rintro _ member _ last
    obtain ⟨head, inside, rfl⟩ := List.mem_map.mp member
    rw [List.mem_singleton.mp last]
    exact front head inside
  · rw [trail]
    exact List.forall_mem_append.mpr ⟨placed.reached, List.forall_mem_singleton.mpr reached⟩
  · rw [idle] at member
    cases member

theorem make (placed : before.Placed source token.span.start.offset) (lies : token.span.Lies source)
    (idle : ∀ content, LeafOf option token.kind content → before.pending = none)
    (make : Make option token before after) : after.Placed source token.span.start.offset := by
  have properties (tag : PendingTag) (pending : before.pending = some tag) :=
    lies_readProperties [] fun given member =>
      ((placed.pending tag pending).1.attributes given (List.mem_reverse.mp member)).1
  have whole (tag : PendingTag) (pending : before.pending = some tag) :
      Span.Lies source ⟨tag.start, token.span.stop⟩ := by
    obtain ⟨own, -⟩ := placed.pending tag pending
    exact Span.lies_of_ordered own.start lies.stop (own.reached.trans lies.ordered)
  have holds := Holds.make placed.holds
    (fun content own => ⟨by generalize token.kind = kind at own; cases own <;> trivial, lies⟩)
    (fun tag _ _ pending => ⟨⟨(properties tag pending).1, whole tag pending⟩,
      ⟨(properties tag pending).1, whole tag pending⟩, (placed.pending tag pending).1.reached⟩) make
  cases make with
  | leaf own =>
    refine placed.extend holds (trail_leaf _ _ _) (Nat.le_refl _) placed.reached ?_ ?_ ?_
    · rw [pending_leaf]
      exact idle _ own
    · rw [leaf, problems_append]
      exact placed.problems
    · rw [leaf, stop_append]
  | @empty tag _ _ pending =>
    obtain ⟨own, front⟩ := placed.pending tag pending
    refine placed.extend holds (trail_leaf _ _ _) own.reached front ?_ ?_ ?_
    · rw [pending_leaf]
      rfl
    · rw [leaf, problems_append]
      exact problemsLie_append.mpr ⟨placed.problems, (properties tag pending).2⟩
    · rw [leaf, stop_append]
      rfl
  | @opened tag _ _ pending =>
    obtain ⟨own, front⟩ := placed.pending tag pending
    refine @extend _ _ _ _ placed before.next tag.start holds ?_ own.reached front rfl ?_ rfl
    · simp [Builder.trail, withoutTag, Builder.report]
    · exact problemsLie_append.mpr ⟨placed.problems, (properties tag pending).2⟩

theorem handle (placed : builder.Placed source bound) (lies : token.span.Lies source)
    (further : bound ≤ token.span.start.offset)
    (belongs : token.kind.within = builder.pending.isSome) :
    (builder.handle option token).Placed source token.span.start.offset := by
  have read := placed.read lies.stop further lies.ordered
  obtain ⟨middle, steps, outcome⟩ := handle_cases option { builder with stop := token.span.stop } token
  have moved := read.steps lies steps
  rcases outcome with ⟨-, make⟩ | ⟨-, same⟩
  · refine moved.make lies (fun content own => ?_) make
    have other (name : String) : token.kind ≠ .tagOpen name := by
      intro kind
      rw [kind] at own
      cases own
    have outside : token.kind.within = false := by
      generalize token.kind = kind at own
      cases own <;> rfl
    have idle := Steps.pending_eq steps other
    rw [← belongs, outside] at idle
    simpa using idle
  · exact same ▸ moved

/-- Reading tokens that tile the rest of the source. -/
theorem foldl {delimiters : Delimiters} {inTag : Bool} {position : Position} {text front : List Char}
    {tokens : List Token} (tiled : Lexer.Tiled delimiters inTag position tokens text)
    {pulls : List Pull} (pulled : pulls.map (·.token) = tokens)
    (reported : ∀ pull ∈ pulls, ProblemsLie source pull.problems)
    (whole : source.toList = front ++ text) (here : position = Position.after front)
    (placed : builder.Placed source bound) (further : bound ≤ position.offset)
    (belongs : builder.pending.isSome = inTag) :
    ∃ last, (pulls.foldl (handlePull option) builder).Placed source last := by
  induction tiled generalizing builder bound front pulls with
  | done =>
    rw [List.map_eq_nil_iff.mp pulled]
    exact ⟨bound, placed⟩
  | @token inTag position gap body later kind tokens silent within spelled others ih =>
    obtain ⟨pull, rest, rfl, same, remaining⟩ := List.map_eq_cons_iff.mp pulled
    obtain ⟨own, behind⟩ := List.forall_mem_cons.mp reported
    have start : position.advance gap = Position.after (front ++ gap) := by
      rw [here, Position.after, Position.after, Position.advance_append]
    have stop : position.advance (gap ++ body) = Position.after (front ++ (gap ++ body)) := by
      rw [here, Position.after, Position.after, Position.advance_append _ front]
    have lies : pull.token.span.Lies source := by
      rw [same, start, stop]
      refine Span.lies_of_ordered (Position.lies_after ?_) (Position.lies_after ?_) ?_
      · exact ⟨body ++ later, by simp [whole]⟩
      · exact ⟨later, by simp [whole]⟩
      · simp [Position.offset_after]
    have ahead : bound ≤ pull.token.span.start.offset := by
      rw [same, Position.offset_advance]
      exact further.trans (Nat.le_add_right _ _)
    have inside : pull.token.kind.within = (builder.report pull.problems).pending.isSome := by
      rw [same]
      exact within.trans belongs.symm
    have handled := @handle _ option _ _ _ (placed.report own) lies ahead inside
    rw [List.foldl_cons]
    refine ih remaining behind (by simp [whole]) stop handled ?_ ?_
    · exact lies.ordered.trans (by rw [same])
    · rw [handlePull, pending_handle, ← inside, same]
      generalize kind = given
      cases given <;> rfl

end Placed

theorem placed_empty (source : String) : ({} : Builder).Placed source 0 := by
  refine ⟨⟨Node.every_nil, Node.every_nil, List.forall_mem_nil _⟩, List.Pairwise.nil,
    List.forall_mem_nil _, by rintro _ ⟨⟩, List.forall_mem_nil _, ?_, Nat.le_refl _⟩
  exact (Span.lies_default source).start

end Builder

namespace Node

variable {node : Node} {nodes : List Node}

/-- Reading the tree from the root on, the nodes begin in order. -/
def InOrder (nodes : List Node) : Prop :=
  ((heads nodes).map (·.2.offset)).Pairwise (· ≤ ·)

theorem InOrder.sorted (order : InOrder nodes) : Sorted nodes := by
  have offsets : (nodes.map fun node => node.span.start.offset).Sublist
      ((heads nodes).map (·.2.offset)) := by
    rw [heads, List.map_map]
    exact (sublist_flattenAll nodes).map _
  exact List.Pairwise.sublist offsets order

theorem InOrder.children (order : InOrder nodes) (member : node ∈ nodes) :
    InOrder node.children := by
  obtain ⟨front, back, rfl⟩ := List.append_of_mem member
  rw [InOrder, heads_append, heads_cons] at order
  refine List.Pairwise.sublist (List.Sublist.map _ ?_) order
  exact ((List.sublist_append_left _ _).cons _).trans (List.sublist_append_right _ _)

theorem AllLie.of_mem (lie : AllLie source nodes) (member : node ∈ nodes) :
    (node.content.Lies source ∧ node.span.Lies source) ∧ AllLie source node.children := by
  obtain ⟨front, back, rfl⟩ := List.append_of_mem member
  exact (every_cons.mp (every_append.mp lie).2).1

inductive Placed (source : String) : Node → Prop
  | intro {node : Node} (content : node.content.Lies source) (span : node.span.Lies source)
      (sorted : Sorted node.children) (below : ∀ child ∈ node.children, child.Placed source) :
      Placed source node

structure AllPlaced (source : String) (nodes : List Node) : Prop where
  each : ∀ node ∈ nodes, node.Placed source
  sorted : Sorted nodes

theorem Parsed.placed (parsed : node.Parsed) (member : node ∈ nodes) (lie : AllLie source nodes)
    (order : InOrder nodes) : node.Placed source := by
  induction parsed generalizing nodes with
  | element _ ih =>
    obtain ⟨⟨content, span⟩, below⟩ := lie.of_mem member
    have inner := order.children member
    exact .intro content span inner.sorted fun child inside => ih child inside inside below inner
  | text | interpolation | comment =>
    obtain ⟨⟨content, span⟩, -⟩ := lie.of_mem member
    exact .intro content span List.Pairwise.nil (List.forall_mem_nil _)

theorem allLie_of_each {nodes : List Node} (each : ∀ node ∈ nodes, AllLie source [node]) :
    AllLie source nodes := by
  induction nodes with
  | nil => exact every_nil
  | cons node rest ih =>
    obtain ⟨own, others⟩ := List.forall_mem_cons.mp each
    exact (@every_append _ [node] rest).mpr ⟨own, ih others⟩

theorem Placed.allLie (placed : node.Placed source) : AllLie source [node] := by
  induction placed with
  | intro content span _ _ ih =>
    exact every_cons.mpr ⟨⟨⟨content, span⟩, allLie_of_each ih⟩, every_nil⟩

end Node

structure Template.Placed (source : String) (template : Template) : Prop where
  roots : Node.AllPlaced source template.roots
  dropped : Node.AllLie source template.dropped
  span : template.span.Lies source

theorem Builder.Placed.finish {builder : Builder} {bound : Nat}
    (placed : builder.Placed source bound) (numbered : (builder.finish option).1.Numbered) :
    (builder.finish option).1.Placed source ∧ ProblemsLie source (builder.finish option).2 := by
  obtain ⟨lie, dropped⟩ := @Holds.finish option _ _ _ placed.holds Content.tolerates_lies
    fun id element span opened => ⟨opened.1.1,
      Span.lies_of_ordered opened.1.2.start placed.stop (opened.2.trans placed.bounded)⟩
  have closed := @closeUnclosed _ option _ _ _ placed placed.stop placed.bounded builder.stack.length
  have order : Node.InOrder (builder.finish option).1.roots :=
    List.Pairwise.sublist ((heads_finish option builder).1.map _) closed.sorted
  refine ⟨⟨⟨fun node member => ?_, order.sorted⟩, dropped, ?_⟩, closed.problems⟩
  · exact (numbered.parsed node member).placed member lie order
  · exact Span.lies_of_ordered (Span.lies_default source).start placed.stop (Nat.zero_le _)

theorem parse_placed {scanning : ScanOption} {template : Template} {problems : List Problem}
    (parsed : parse option (scan scanning source) = .ok (template, problems)) :
    template.Placed source ∧ ProblemsLie source problems := by
  have numbered := numbered_of_parse parsed
  cases ended : (scan scanning source).ending with
  | error fault => simp [parse, ended, Except.map] at parsed
  | ok found =>
    simp only [parse, ended, Except.map, Except.ok.injEq] at parsed
    obtain ⟨read, last⟩ := Lexer.read_scanFrom (Cursor.reaches_refl _) (Lexer.reported_nil _)
    have whole : source.toList = [] ++ source.toList := rfl
    obtain ⟨bound, placed⟩ : ∃ bound, ((scan scanning source).pulls.foldl
        (Builder.handlePull option) {}).Placed source bound :=
      (Builder.placed_empty source).foldl (Lexer.tiled_scanFrom ended) rfl
        (fun pull member => (read pull member).problems.lie) whole rfl (Nat.le_refl _) rfl
    have finished := @Builder.Placed.finish _ option _ _ (placed.report (last found ended).lie)
    rw [parsed] at finished
    exact finished numbered

end TemplateCompiler
