import TemplateCompiler.Proofs.BuilderSteps
import TemplateCompiler.Proofs.PlanConsistency

/-! The nodes of a template stand in the order of the tokens that made them. Reading the tree from
the root on, each node before its children, the numbers grow; all that is missing is blank text that
was condensed away. This holds for any list of tokens. -/

namespace TemplateCompiler

namespace Node

theorem sublist_flattenAll (nodes : List Node) : nodes.Sublist (flattenAll nodes) := by
  induction nodes with
  | nil => exact .slnil
  | cons node rest ih =>
    rw [flattenAll, flatten_eq, List.cons_append]
    exact (ih.trans (List.sublist_append_right _ _)).cons_cons node

def heads (nodes : List Node) : List (NodeId × Position) :=
  (flattenAll nodes).map fun node => (node.id, node.span.start)

@[simp]
theorem heads_nil : heads [] = [] := rfl

@[simp]
theorem heads_append (first second : List Node) :
    heads (first ++ second) = heads first ++ heads second := by
  simp [heads]

theorem heads_cons (node : Node) (rest : List Node) :
    heads (node :: rest) = (node.id, node.span.start) :: heads node.children ++ heads rest := by
  simp [heads, flattenAll, flatten_eq]

end Node

namespace Template

theorem heads_condense (previous : Option Node) (nodes : List Node) :
    (Node.heads (condense previous nodes).1).Sublist (Node.heads nodes) := by
  induction nodes generalizing previous with
  | nil => exact .slnil
  | cons node rest ih =>
    have later := ih (some node)
    simp only [condense, Node.heads_cons]
    split
    · split
      · rw [Node.heads_cons]
        exact (List.Sublist.refl _).append later
      · split
        · exact later.trans (List.sublist_append_right _ _)
        · rw [Node.heads_cons]
          exact (List.Sublist.refl _).append later
    · rw [Node.heads_cons]
      exact (List.Sublist.refl _).append later

theorem heads_trimFirstBreak (nodes : List Node) :
    Node.heads (trimFirstBreak nodes) = Node.heads nodes := by
  cases nodes with
  | nil => rfl
  | cons node rest =>
    simp only [trimFirstBreak]
    split
    · simp only [Node.heads_cons]
    · rfl

theorem blank_of_condensed {previous : Option Node} {nodes : List Node} :
    ∀ node ∈ (condense previous nodes).2, node ∈ nodes ∧ node.isBlankText = true := by
  induction nodes generalizing previous with
  | nil => exact fun _ member => nomatch member
  | cons first rest ih =>
    have later : ∀ node ∈ (condense (some first) rest).2,
        node ∈ first :: rest ∧ node.isBlankText = true :=
      fun node member => ⟨List.mem_cons_of_mem first (ih node member).1, (ih node member).2⟩
    simp only [condense]
    split
    · next text same =>
      split
      · exact later
      · next blank =>
        split
        · refine List.forall_mem_cons.mpr ⟨⟨List.mem_cons_self, ?_⟩, later⟩
          simpa [Node.isBlankText, same] using blank
        · exact later
    · exact later

end Template

namespace Builder

variable {option : ParseOption} {builder before after : Builder} {token : Token}
  {made : List Token}

/-- The numbers and places of the nodes so far, from the root to the innermost open element. -/
def trail (builder : Builder) : List (NodeId × Position) :=
  Node.heads builder.roots.reverse ++ builder.stack.reverse.flatMap fun opened =>
    (opened.id, opened.span.start) :: Node.heads opened.children.reverse

theorem trail_append (builder : Builder) (node : Node) :
    (builder.append node).trail = builder.trail ++ Node.heads [node] := by
  simp only [append]
  split
  · next empty => simp [trail, empty]
  · next top rest stack => simp [trail, stack]

theorem trail_congr (same : SameTree before after) : after.trail = before.trail := by
  rw [trail, same.roots, same.stack, trail]

theorem trail_leaf (builder : Builder) (content : Content) (span : Span) :
    (builder.leaf content span).trail = builder.trail ++ [(builder.next, span.start)] :=
  trail_append _ _

theorem heads_settle (option : ParseOption) (children : List Node) :
    (Node.heads (settle option children).1).Sublist (Node.heads children) ∧
      (option.whitespace = .preserve →
        Node.heads (settle option children).1 = Node.heads children) := by
  unfold settle
  split
  · exact ⟨.refl _, fun _ => rfl⟩
  · next condense => exact ⟨Template.heads_condense none _, fun keep => by simp [keep] at condense⟩

theorem heads_settleOpen (option : ParseOption) (builder : Builder) (top : OpenElement) :
    (Node.heads (settleOpen option builder top).1).Sublist (Node.heads top.children.reverse) ∧
      (option.whitespace = .preserve →
        Node.heads (settleOpen option builder top).1 = Node.heads top.children.reverse) := by
  unfold settleOpen
  split
  · rw [Template.heads_trimFirstBreak]
    exact ⟨.refl _, fun _ => rfl⟩
  · split
    · exact heads_settle option top.children.reverse
    · exact ⟨.refl _, fun _ => rfl⟩

/-- Closing an element leaves out of the trail what was condensed away. -/
theorem trail_close (option : ParseOption) (builder : Builder) (stop : Position) :
    (builder.close option stop).trail.Sublist builder.trail ∧
      (option.whitespace = .preserve → (builder.close option stop).trail = builder.trail) := by
  cases stack : builder.stack with
  | nil =>
    rw [close_nil stack]
    exact ⟨.refl _, fun _ => rfl⟩
  | cons top rest =>
    obtain ⟨fewer, same⟩ := heads_settleOpen option builder top
    have whole : builder.trail = Node.heads builder.roots.reverse ++
        (rest.reverse.flatMap fun opened =>
          (opened.id, opened.span.start) :: Node.heads opened.children.reverse) ++
        (top.id, top.span.start) :: Node.heads top.children.reverse := by
      simp [trail, stack]
    rw [close_cons stack, trail_append, whole, Node.heads_cons, Node.heads_nil, List.append_nil]
    constructor
    · exact (List.Sublist.refl _).append (fewer.cons_cons _)
    · intro keep
      simp only [OpenElement.closed, same keep]
      rfl

/-- A node that is made is the last one of the trail. -/
theorem Make.trail (make : Make option token before after) :
    ∃ start, after.trail = before.trail ++ [(before.next, start)] := by
  cases make with
  | leaf => exact ⟨_, trail_leaf _ _ _⟩
  | empty => exact ⟨_, trail_leaf _ _ _⟩
  | @opened tag => exact ⟨tag.start, by simp [Builder.trail, withoutTag, report]⟩

theorem Make.next_eq (make : Make option token before after) : after.next = before.next + 1 := by
  cases make with
  | leaf | empty => exact next_append _ _
  | opened => rfl

end Builder

inductive Token.Makes : Token → Content → Span → Prop
  | element {selfClosing : Bool} {element : Element} {place span : Span} :
      Makes ⟨.tagEnd selfClosing, place⟩ (.element element) span
  | text {text kept : Phrase} {span : Span} : Makes ⟨.text text, span⟩ (.text kept) span
  | interpolation {source : String} {span : Span} :
      Makes ⟨.interpolation source, span⟩ (.interpolation source) span
  | comment {source : String} {span : Span} :
      Makes ⟨.comment source, span⟩ (.comment source) span

def Builder.makers (option : ParseOption) (pending : Bool) : List Token → List Token
  | [] => []
  | token :: rest =>
    if makes option pending token.kind then
      token :: makers option (pends pending token.kind) rest
    else makers option (pends pending token.kind) rest

def MadeBy (made : List Token) (id : NodeId) (content : Content) (span : Span) : Prop :=
  ∃ token, made[id]? = some token ∧ token.Makes content span

theorem MadeBy.append {made more : List Token} {id : NodeId} {content : Content} {span : Span}
    (own : MadeBy made id content span) : MadeBy (made ++ more) id content span := by
  obtain ⟨token, found, makes⟩ := own
  exact ⟨token, List.getElem?_append_left (List.getElem?_eq_some_iff.mp found).1 ▸ found, makes⟩

theorem MadeBy.tolerates (made : List Token) : Node.Tolerates (MadeBy made) := by
  rintro id text kept span - ⟨token, found, makes⟩
  cases makes
  exact ⟨_, found, .text⟩

namespace Builder

variable {option : ParseOption} {builder before after : Builder} {token : Token}
  {made : List Token}

/-- The nodes so far are those made for the tokens `made`, and the tree has them in order. -/
structure Traced (option : ParseOption) (made : List Token) (builder : Builder) : Prop where
  counted : builder.Counted []
  next : builder.next = made.length
  fewer : (builder.trail.map Prod.fst).Sublist (List.range builder.next)
  all : option.whitespace = .preserve → builder.trail.map Prod.fst = List.range builder.next
  dropped : ∀ node ∈ builder.dropped, node.isBlankText = true ∧ node.children = []
  holds : builder.Holds (MadeBy made) fun id element span => MadeBy made id (.element element) span

theorem bare_of_isBlankText {node : Node} (parsed : node.Parsed) (blank : node.isBlankText = true) :
    node.children = [] := by
  cases parsed with
  | text => rfl
  | element | interpolation | comment => cases blank

theorem blank_of_settled {children : List Node} (parsed : ∀ child ∈ children, child.Parsed) :
    ∀ node ∈ (settle option children).2, node.isBlankText = true ∧ node.children = [] := by
  intro node member
  unfold settle at member
  split at member
  · cases member
  · obtain ⟨child, blank⟩ := Template.blank_of_condensed node member
    exact ⟨blank, bare_of_isBlankText (parsed node child) blank⟩

namespace Traced

theorem transfer (traced : before.Traced option made) (same : SameTree before after) :
    after.Traced option made := by
  obtain ⟨counted, next, fewer, all, dropped, holds⟩ := traced
  have trail := trail_congr same
  rw [← trail, ← same.next] at fewer all
  refine ⟨?_, same.next.trans next, fewer, all, ?_, holds.transfer same⟩
  · exact counted.transfer same.roots same.stack same.dropped same.next
  · rw [same.dropped]
    exact dropped

theorem close (traced : builder.Traced option made) (stop : Position) :
    (builder.close option stop).Traced option made := by
  obtain ⟨fewer, same⟩ := trail_close option builder stop
  have next : (builder.close option stop).next = builder.next := next_close builder stop
  refine ⟨traced.counted.close option stop, next.trans traced.next, ?_, ?_, ?_, ?_⟩
  · rw [next]
    exact (fewer.map Prod.fst).trans traced.fewer
  · intro keep
    rw [same keep, next]
    exact traced.all keep
  · cases stack : builder.stack with
    | nil =>
      rw [close_nil stack]
      exact traced.dropped
    | cons top rest =>
      rw [close_cons stack, dropped_append]
      refine List.forall_mem_append.mpr ⟨traced.dropped, ?_⟩
      have inner := traced.counted.stack top (stack ▸ List.mem_cons_self)
      unfold settleOpen
      split
      · exact List.forall_mem_nil _
      · split
        · exact blank_of_settled fun child member => inner child (List.mem_reverse.mp member)
        · exact List.forall_mem_nil _
  · exact traced.holds.close (MadeBy.tolerates made) fun _ _ _ => by
      rintro ⟨token, found, makes⟩
      cases makes
      exact ⟨_, found, .element⟩

theorem step (traced : before.Traced option made) (step : Step option token before after) :
    after.Traced option made := by
  rcases step.tree_cases with same | ⟨stop, -, rfl⟩
  · exact traced.transfer same
  · exact traced.close stop

theorem closing {stop : Position} (traced : before.Traced option made)
    (closes : Closing option stop before after) : after.Traced option made := by
  cases closes with
  | unclosed => exact traced.transfer (sameTree_reportUnclosed before)
  | close => exact traced.close stop

theorem steps (traced : before.Traced option made) (steps : Steps option token before after) :
    after.Traced option made := by
  induction steps with
  | refl => exact traced
  | tail _ step ih => exact ih.step step

theorem make (traced : before.Traced option made) (make : Make option token before after)
    (counted : after.Counted []) : after.Traced option (made ++ [token]) := by
  obtain ⟨start, trail⟩ := make.trail
  have next := make.next_eq
  have newest : (made ++ [token])[before.next]? = some token := by
    rw [traced.next, List.getElem?_concat_length]
  have dropped : after.dropped = before.dropped := by
    cases make with
    | leaf | empty => exact dropped_append _ _
    | opened => rfl
  refine ⟨counted, ?_, ?_, ?_, ?_, ?_⟩
  · rw [next, traced.next, List.length_append, List.length_singleton]
  · rw [trail, next, List.map_append, List.range_succ]
    exact traced.fewer.append (.refl _)
  · intro keep
    rw [trail, next, List.map_append, List.range_succ, traced.all keep]
    rfl
  · rw [dropped]
    exact traced.dropped
  · refine Holds.make (traced.holds.mono (fun _ _ _ => MadeBy.append) fun _ _ _ => MadeBy.append)
      ?_ ?_ make
    · intro content own
      refine ⟨token, newest, ?_⟩
      obtain ⟨kind, span⟩ := token
      cases own with
      | text => exact .text
      | interpolation => exact .interpolation
      | comment => exact .comment
    · intro tag selfClosing kind pending
      have own (span : Span) : MadeBy (made ++ [token]) before.next
          (.element (tag.element option)) span := by
        refine ⟨token, newest, ?_⟩
        obtain ⟨_, place⟩ := token
        cases kind
        exact .element
      exact ⟨own _, own _⟩

theorem handle (traced : builder.Traced option made) (token : Token) :
    (builder.handle option token).Traced option
      (made ++ if makes option builder.pending.isSome token.kind then [token] else []) := by
  obtain ⟨middle, steps, ⟨yes, make⟩ | ⟨no, same⟩⟩ := handle_cases option builder token
  · rw [if_pos yes]
    exact (traced.steps steps).make make (traced.counted.handle option token)
  · rw [no, same]
    simpa using traced.steps steps

theorem foldl (traced : builder.Traced option made) (tokens : List Token) :
    (tokens.foldl (Builder.handle option) builder).Traced option
      (made ++ makers option builder.pending.isSome tokens) := by
  induction tokens generalizing builder made with
  | nil => simpa [makers] using traced
  | cons token rest ih =>
    have later := ih (traced.handle token)
    rw [pending_handle, List.append_assoc] at later
    rw [List.foldl_cons]
    cases outcome : makes option builder.pending.isSome token.kind with
    | true => simpa [makers, outcome] using later
    | false => simpa [makers, outcome] using later

theorem closeUnclosed (traced : builder.Traced option made) (stop : Position) (count : Nat) :
    (builder.closeUnclosed option stop count).Traced option made :=
  closeUnclosed_keeps traced (fun closes traced => traced.closing closes) count

end Traced

theorem traced_empty (option : ParseOption) : ({} : Builder).Traced option [] := by
  refine ⟨⟨?_, ?_, fun _ => rfl⟩, rfl, List.Sublist.refl _, fun _ => rfl, ?_, ?_, ?_, ?_⟩
  all_goals exact fun _ member => nomatch member

end Builder

namespace Template

variable {template : Template}

theorem length_nodes (numbers : template.nodes.map (·.id) = List.range template.size) :
    template.nodes.length = template.size := by
  have same := congrArg List.length numbers
  rwa [List.length_map, List.length_range] at same

theorem id_nodes (numbers : template.nodes.map (·.id) = List.range template.size) {index : Nat}
    (inside : index < template.nodes.length) :
    (template.nodes.get ⟨index, inside⟩).id = index := by
  have same := congrArg (fun list => list[index]?) numbers
  simpa [inside, length_nodes numbers ▸ inside] using same

end Template

/-- The tree of a template has its nodes in the order of the tokens `made` that they are made for;
what is not in the tree is blank text. -/
structure Template.InOrder (option : ParseOption) (made : List Token) (template : Template) :
    Prop where
  /-- The nodes by number, those that left the tree included. -/
  numbers : template.nodes.map (·.id) = List.range template.size
  makers : List.Forall₂ (fun token node => token.Makes node.content node.span) made template.nodes
  /-- Each node before its children, and the children in order. -/
  increasing : ((Node.flattenAll template.roots).map (·.id)).Pairwise (· < ·)
  inside : ∀ node ∈ Node.flattenAll template.roots, template.nodes[node.id]? = some node
  /-- No node is referred to twice. -/
  once : template.references.Nodup
  preserved : option.whitespace = .preserve →
    (Node.flattenAll template.roots).map (·.id) = List.range template.size
  condensed : ∀ node ∈ template.nodes,
    node.id ∉ (Node.flattenAll template.roots).map (·.id) → node.isBlankText = true

namespace Builder

variable {option : ParseOption} {builder : Builder} {made : List Token}

theorem flattenAll_of_bare {nodes : List Node} (bare : ∀ node ∈ nodes, node.children = []) :
    Node.flattenAll nodes = nodes := by
  induction nodes with
  | nil => rfl
  | cons node rest ih =>
    obtain ⟨own, others⟩ := List.forall_mem_cons.mp bare
    rw [Node.flattenAll, Node.flatten_eq, own, ih others]
    rfl

/-- Once all elements are closed, the trail is the tree, but for what is condensed away. -/
theorem heads_finish (option : ParseOption) (builder : Builder) :
    let closed := builder.closeUnclosed option builder.stop builder.stack.length
    (Node.heads (builder.finish option).1.roots).Sublist closed.trail ∧
      (option.whitespace = .preserve →
        Node.heads (builder.finish option).1.roots = closed.trail) := by
  intro closed
  have trail : closed.trail = Node.heads closed.roots.reverse := by
    simp [Builder.trail, closed, stack_closeAll]
  rw [trail]
  exact heads_settle option closed.roots.reverse

/-- What is left of the numbers and the trail once all elements are closed. -/
theorem Traced.finish_heads (traced : builder.Traced option made) :
    let template := (builder.finish option).1
    template.size = made.length ∧
      ((Node.heads template.roots).map Prod.fst).Sublist (List.range template.size) ∧
      (option.whitespace = .preserve →
        (Node.heads template.roots).map Prod.fst = List.range template.size) ∧
      ∀ node ∈ template.dropped, node.isBlankText = true ∧ node.children = [] := by
  have closed := traced.closeUnclosed builder.stop builder.stack.length
  obtain ⟨fewer, same⟩ := heads_finish option builder
  refine ⟨closed.next, (fewer.map Prod.fst).trans closed.fewer, fun keep => ?_, ?_⟩
  · rw [same keep]
    exact closed.all keep
  · refine List.forall_mem_append.mpr ⟨closed.dropped, ?_⟩
    exact blank_of_settled fun child member =>
      closed.counted.roots child (List.mem_reverse.mp member)

theorem Traced.finish (traced : builder.Traced option made) :
    (builder.finish option).1.InOrder option made := by
  obtain ⟨size, fewer, all, gone⟩ := traced.finish_heads
  have numbered := traced.counted.finish option
  obtain ⟨kept, left⟩ := traced.holds.finish (MadeBy.tolerates made) fun _ _ _ => by
    rintro ⟨token, found, makes⟩
    cases makes
    exact ⟨_, found, .element⟩
  generalize (builder.finish option).1 = template at *
  have counted (number : NodeId) : Node.tally number (template.roots ++ template.dropped) =
      (List.range template.size).count number := by
    rw [Node.tally_append, numbered.tally]
  have numbers := Template.nodes_ids counted
  have ids : (Node.heads template.roots).map Prod.fst =
      (Node.flattenAll template.roots).map (·.id) := by
    simp [Node.heads, Function.comp_def]
  rw [ids] at fewer all
  have increasing := List.pairwise_lt_range.sublist fewer
  have member_nodes (node : Node) : node ∈ template.nodes ↔
      node ∈ Node.flattenAll template.roots ∨ node ∈ Node.flattenAll template.dropped := by
    rw [Template.nodes, List.mem_mergeSort, Node.flattenAll_append, List.mem_append]
  refine ⟨numbers, ?_, increasing, fun node => Template.nodes_getElem? counted, ?_, all, ?_⟩
  · have length : made.length = template.nodes.length :=
      size.symm.trans (Template.length_nodes numbers).symm
    refine List.forall₂_iff_get.mpr ⟨length, fun index inside outside => ?_⟩
    have place := Template.id_nodes numbers outside
    have listed : MadeBy made (template.nodes.get ⟨index, outside⟩).id _ _ :=
      ((member_nodes _).mp (List.get_mem _ _)).elim (kept _) (left _)
    obtain ⟨token, found, makes⟩ := listed
    rw [place, List.getElem?_eq_getElem inside] at found
    cases found
    exact makes
  · refine List.nodup_iff_count_le_one.mpr fun number => ?_
    rw [Template.count_references]
    exact List.nodup_iff_count_le_one.mp (increasing.imp Nat.ne_of_lt) number
  · intro node member absent
    rcases (member_nodes node).mp member with inside | outside
    · exact absurd (List.mem_map_of_mem inside) absent
    · rw [flattenAll_of_bare fun node member => (gone node member).2] at outside
      exact (gone node outside).1

end Builder

/-- Any tokens, in any order, give a template with its nodes in order. -/
theorem buildTemplate_inOrder (option : ParseOption) (tokens : List Token) :
    (buildTemplate option tokens).1.InOrder option (Builder.makers option false tokens) :=
  ((Builder.traced_empty option).foldl tokens).finish

end TemplateCompiler
