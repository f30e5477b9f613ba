import Mathlib.Data.List.Count
import TemplateCompiler.Template.Builder

/-! The numbers of the nodes of a template. Each number that was given belongs to exactly one node,
in the tree or among the nodes that left it. Every step that builds a tree keeps a tally of each
number, so what it moves is neither lost nor doubled. -/

namespace TemplateCompiler

namespace Node

/-- What holds of a node whenever it holds of its children holds of all nodes. -/
@[elab_as_elim]
theorem inductChildren {motive : Node → Prop}
    (step : ∀ node, (∀ child ∈ node.children, motive child) → motive node) (node : Node) :
    motive node :=
  step node fun child _member => inductChildren step child
termination_by sizeOf node
decreasing_by
  have := List.sizeOf_lt_of_mem _member
  cases node
  simp only [Node.mk.sizeOf_spec] at this ⊢
  omega

/-- How often a number occurs on the nodes and below them. -/
def tally (number : NodeId) (nodes : List Node) : Nat :=
  ((flattenAll nodes).map (·.id)).count number

@[simp]
theorem flattenAll_append (first second : List Node) :
    flattenAll (first ++ second) = flattenAll first ++ flattenAll second := by
  induction first with
  | nil => rfl
  | cons node rest ih => simp [flattenAll, ih]

theorem flatten_eq (node : Node) : node.flatten = node :: flattenAll node.children := by
  cases node
  rfl

@[simp]
theorem tally_nil (number : NodeId) : tally number [] = 0 := rfl

@[simp]
theorem tally_append (number : NodeId) (first second : List Node) :
    tally number (first ++ second) = tally number first + tally number second := by
  simp [tally]

theorem tally_cons (number : NodeId) (node : Node) (rest : List Node) :
    tally number (node :: rest) = tally number [node] + tally number rest :=
  tally_append number [node] rest

theorem tally_singleton (number : NodeId) (node : Node) :
    tally number [node] = [node.id].count number + tally number node.children := by
  simp only [tally, flattenAll, flatten_eq, List.append_nil, List.map_cons]
  exact @List.count_append _ _ _ [node.id] _

@[simp]
theorem tally_reverse (number : NodeId) (nodes : List Node) :
    tally number nodes.reverse = tally number nodes := by
  induction nodes with
  | nil => rfl
  | cons node rest ih =>
    rw [List.reverse_cons, tally_append, tally_cons number node rest, ih]
    omega

theorem tally_pos_iff {number : NodeId} {nodes : List Node} :
    0 < tally number nodes ↔ ∃ node ∈ flattenAll nodes, node.id = number := by
  simp [tally, List.count_pos_iff]

theorem exists_mem_of_tally_pos {number : NodeId} {nodes : List Node}
    (present : 0 < tally number nodes) : ∃ node ∈ nodes, 0 < tally number [node] := by
  induction nodes with
  | nil => cases present
  | cons node rest ih =>
    by_cases first : 0 < tally number [node]
    · exact ⟨node, List.mem_cons_self, first⟩
    · rw [tally_cons] at present
      obtain ⟨other, member, inside⟩ := ih (by omega)
      exact ⟨other, List.mem_cons_of_mem node member, inside⟩

theorem tally_le_of_mem (number : NodeId) {node : Node} {nodes : List Node}
    (member : node ∈ nodes) : tally number [node] ≤ tally number nodes := by
  obtain ⟨front, back, rfl⟩ := List.append_of_mem member
  rw [tally_append, tally_cons number node back]
  omega

theorem tally_add_le_of_mem (number : NodeId) {first second : Node} {nodes : List Node}
    (one : first ∈ nodes) (other : second ∈ nodes) (different : first ≠ second) :
    tally number [first] + tally number [second] ≤ tally number nodes := by
  obtain ⟨front, back, rfl⟩ := List.append_of_mem one
  rw [tally_append, tally_cons number first back]
  rcases List.mem_append.1 other with before | after
  · have := tally_le_of_mem number before
    omega
  · rcases List.mem_cons.1 after with same | behind
    · exact absurd same.symm different
    · have := tally_le_of_mem number behind
      omega

theorem tally_children_le (number : NodeId) {node : Node} {nodes : List Node}
    (member : node ∈ nodes) : tally number node.children ≤ tally number nodes := by
  have := tally_le_of_mem number member
  have := tally_singleton number node
  omega

theorem tally_tail_le (number : NodeId) (nodes : List Node) :
    tally number nodes.tail ≤ tally number nodes := by
  cases nodes with
  | nil => exact Nat.le_refl _
  | cons node rest =>
    rw [List.tail_cons, tally_cons number node rest]
    omega

theorem tally_pos_of_mem {node : Node} {nodes : List Node} (member : node ∈ nodes) :
    0 < tally node.id nodes := by
  have own := tally_singleton node.id node
  have least := tally_le_of_mem node.id member
  rw [List.count_singleton_self] at own
  omega

theorem tally_self_pos (node : Node) : 0 < tally node.id [node] :=
  tally_pos_of_mem (List.mem_singleton_self node)

theorem tally_pos_of_child {number : NodeId} (node : Node) {child : Node}
    (member : child ∈ node.children) (present : 0 < tally number [child]) :
    0 < tally number [node] := by
  have := tally_le_of_mem number member
  have := tally_singleton number node
  omega

/-- In a list without doubles no node has the number of one below another, or below itself. -/
theorem tally_children_eq_zero {nodes : List Node} (distinct : ∀ number, tally number nodes ≤ 1)
    {first second : Node} (one : first ∈ nodes) (other : second ∈ nodes) :
    tally second.id first.children = 0 := by
  have once := distinct second.id
  have own := tally_singleton second.id second
  have below := tally_singleton second.id first
  rw [List.count_singleton_self] at own
  by_cases same : first = second
  · subst same
    have := tally_le_of_mem first.id one
    omega
  · have := tally_add_le_of_mem second.id one other same
    omega

theorem count_range_cases (number size : Nat) :
    number < size ∧ (List.range size).count number = 1 ∨
      size ≤ number ∧ (List.range size).count number = 0 := by
  rw [List.nodup_range.count]
  by_cases inside : number < size
  · exact .inl ⟨inside, by simp [inside]⟩
  · exact .inr ⟨Nat.le_of_not_lt inside, by simp [inside]⟩

theorem count_range_succ (number size : Nat) :
    (List.range (size + 1)).count number = (List.range size).count number + [size].count number := by
  rw [List.range_succ, List.count_append]

/-- A node as the parser makes it: only elements have children, and nothing is grouped yet. -/
inductive Parsed : Node → Prop
  | element {id : NodeId} {element : Element} {span : Span} {children : List Node}
      (below : ∀ child ∈ children, Parsed child) : Parsed ⟨id, .element element, span, children⟩
  | text {id : NodeId} {text : Phrase} {span : Span} : Parsed ⟨id, .text text, span, []⟩
  | interpolation {id : NodeId} {source : String} {span : Span} :
      Parsed ⟨id, .interpolation source, span, []⟩
  | comment {id : NodeId} {source : String} {span : Span} :
      Parsed ⟨id, .comment source, span, []⟩

end Node

namespace Template

/-- The numbers below the size of a template are each on one node, and there are no others. -/
structure Numbered (template : Template) : Prop where
  parsed : ∀ node ∈ template.roots, node.Parsed
  tally : ∀ number, Node.tally number template.roots + Node.tally number template.dropped =
    (List.range template.size).count number

theorem nodes_ids {template : Template} (counted : ∀ number,
    Node.tally number (template.roots ++ template.dropped) = (List.range template.size).count number) :
    template.nodes.map (·.id) = List.range template.size := by
  have sorted : template.nodes.Pairwise fun first second => first.id ≤ second.id := by
    refine (List.pairwise_mergeSort (fun first second third => ?_) (fun first second => ?_) _).imp
      of_decide_eq_true
    · simp only [decide_eq_true_eq]
      exact Nat.le_trans
    · simp only [Bool.or_eq_true, decide_eq_true_eq]
      exact Nat.le_total first.id second.id
  have same : (template.nodes.map (·.id)).Perm (List.range template.size) :=
    ((List.mergeSort_perm _ _).map _).trans (List.perm_iff_count.2 counted)
  exact same.eq_of_pairwise (fun _ _ _ _ => Nat.le_antisymm) (List.pairwise_map.2 sorted)
    List.pairwise_le_range

theorem nodes_getElem? {template : Template} {node : Node}
    (counted : ∀ number, Node.tally number (template.roots ++ template.dropped) =
      (List.range template.size).count number)
    (inside : node ∈ Node.flattenAll template.roots) : template.nodes[node.id]? = some node := by
  have member : node ∈ template.nodes := by
    rw [nodes, List.mem_mergeSort, Node.flattenAll_append]
    exact List.mem_append_left _ inside
  obtain ⟨index, found⟩ := List.mem_iff_getElem?.1 member
  have place : (List.range template.size)[index]? = some node.id := by
    rw [← nodes_ids counted, List.getElem?_map, found, Option.map_some]
  have bound : index < template.size := by
    simpa using (List.getElem?_eq_some_iff.1 place).1
  rw [List.getElem?_range bound] at place
  rw [← Option.some.inj place]
  exact found

theorem tally_condense (number : NodeId) (previous : Option Node) (nodes : List Node) :
    Node.tally number (condense previous nodes).1 + Node.tally number (condense previous nodes).2 =
      Node.tally number nodes := by
  induction nodes generalizing previous with
  | nil => rfl
  | cons node rest ih =>
    have later := ih (some node)
    have own := Node.tally_singleton number node
    rw [Node.tally_cons]
    simp only [condense]
    split
    · next text same =>
      split
      · dsimp only
        rw [Node.tally_cons, Node.tally_singleton]
        dsimp only
        omega
      · split
        · dsimp only
          rw [Node.tally_cons number node]
          omega
        · dsimp only
          rw [Node.tally_cons, Node.tally_singleton]
          dsimp only
          omega
    · dsimp only
      rw [Node.tally_cons number node]
      omega

theorem parsed_condense {previous : Option Node} {nodes : List Node}
    (parsed : ∀ node ∈ nodes, node.Parsed) :
    ∀ node ∈ (condense previous nodes).1, node.Parsed := by
  induction nodes generalizing previous with
  | nil => exact fun _ member => nomatch member
  | cons first rest ih =>
    obtain ⟨own, others⟩ := List.forall_mem_cons.1 parsed
    have later : ∀ node ∈ (condense (some first) rest).1, node.Parsed := ih others
    simp only [condense]
    split
    · next text same =>
      obtain ⟨id, content, span, children⟩ := first
      subst same
      cases own
      split
      · exact List.forall_mem_cons.2 ⟨.text, later⟩
      · split
        · exact later
        · exact List.forall_mem_cons.2 ⟨.text, later⟩
    · exact List.forall_mem_cons.2 ⟨own, later⟩

theorem tally_trimFirstBreak (number : NodeId) (nodes : List Node) :
    Node.tally number (trimFirstBreak nodes) = Node.tally number nodes := by
  cases nodes with
  | nil => rfl
  | cons node rest =>
    simp only [trimFirstBreak]
    split
    · rw [Node.tally_cons, Node.tally_cons number node, Node.tally_singleton,
        Node.tally_singleton number node]
    · rfl

theorem parsed_trimFirstBreak {nodes : List Node} (parsed : ∀ node ∈ nodes, node.Parsed) :
    ∀ node ∈ trimFirstBreak nodes, node.Parsed := by
  cases nodes with
  | nil => exact parsed
  | cons first rest =>
    obtain ⟨own, others⟩ := List.forall_mem_cons.1 parsed
    simp only [trimFirstBreak]
    split
    · next text same =>
      obtain ⟨id, content, span, children⟩ := first
      subst same
      cases own
      exact List.forall_mem_cons.2 ⟨.text, others⟩
    · exact parsed

end Template

/-- An open element as the node it is going to be, its children still in reverse order. -/
def OpenElement.node (opened : OpenElement) : Node :=
  { id := opened.id
    content := .element opened.element
    span := opened.span
    children := opened.children }

namespace Builder

/-- The numbers given so far are on the finished nodes, the open elements, the nodes that left and
those of `loose`, which are on their way. -/
structure Counted (builder : Builder) (loose : List Node) : Prop where
  roots : ∀ node ∈ builder.roots, node.Parsed
  stack : ∀ opened ∈ builder.stack, ∀ child ∈ opened.children, child.Parsed
  tally : ∀ number, Node.tally number builder.roots +
    Node.tally number (builder.stack.map OpenElement.node) + Node.tally number builder.dropped +
    Node.tally number loose = (List.range builder.next).count number

theorem Counted.transfer {builder other : Builder} {loose : List Node}
    (counted : builder.Counted loose) (roots : other.roots = builder.roots)
    (stack : other.stack = builder.stack) (dropped : other.dropped = builder.dropped)
    (next : other.next = builder.next) : other.Counted loose := by
  constructor
  · rw [roots]
    exact counted.roots
  · rw [stack]
    exact counted.stack
  · rw [roots, stack, dropped, next]
    exact counted.tally

theorem Counted.append {builder : Builder} {node : Node} (counted : builder.Counted [node])
    (parsed : node.Parsed) : (builder.append node).Counted [] := by
  obtain ⟨roots, stack, tally⟩ := counted
  simp only [Builder.append]
  split
  · next empty =>
    refine ⟨List.forall_mem_cons.2 ⟨parsed, roots⟩, stack, fun number => ?_⟩
    have count := tally number
    dsimp only
    rw [Node.tally_cons number node, Node.tally_nil]
    omega
  · next top rest same =>
    rw [same] at stack tally
    obtain ⟨own, others⟩ := List.forall_mem_cons.1 stack
    refine ⟨roots, List.forall_mem_cons.2 ⟨List.forall_mem_cons.2 ⟨parsed, own⟩, others⟩,
      fun number => ?_⟩
    have count := tally number
    rw [List.map_cons, Node.tally_cons, Node.tally_singleton] at count ⊢
    dsimp only [OpenElement.node] at count ⊢
    rw [Node.tally_cons number node top.children, Node.tally_nil]
    omega

theorem Counted.leaf {builder : Builder} (counted : builder.Counted []) {content : Content}
    {span : Span} (parsed : Node.Parsed { id := builder.next, content, span }) :
    (builder.leaf content span).Counted [] := by
  refine Counted.append ⟨counted.roots, counted.stack, fun number => ?_⟩ parsed
  have count := counted.tally number
  rw [Node.tally_singleton, Node.count_range_succ]
  dsimp only
  rw [Node.tally_nil] at count ⊢
  omega

variable (option : ParseOption)

theorem tally_settle (number : NodeId) (children : List Node) :
    Node.tally number (settle option children).1 + Node.tally number (settle option children).2 =
      Node.tally number children := by
  simp only [settle]
  split
  · rfl
  · exact Template.tally_condense number none children

theorem parsed_settle {children : List Node} (parsed : ∀ node ∈ children, node.Parsed) :
    ∀ node ∈ (settle option children).1, node.Parsed := by
  simp only [settle]
  split
  · exact parsed
  · exact Template.parsed_condense parsed

theorem Counted.close {builder : Builder} (counted : builder.Counted []) (stop : Position) :
    (builder.close option stop).Counted [] := by
  obtain ⟨roots, stack, tally⟩ := counted
  simp only [Builder.close]
  split
  · exact ⟨roots, stack, tally⟩
  · next top rest same =>
    rw [same] at stack tally
    obtain ⟨own, others⟩ := List.forall_mem_cons.1 stack
    have children : ∀ node ∈ top.children.reverse, node.Parsed :=
      fun node member => own node (List.mem_reverse.1 member)
    -- Whatever becomes of the white space, the children are kept or dropped.
    generalize outcome : (if option.isPreformatted top.element.tag then
        (Template.trimFirstBreak top.children.reverse, ([] : List Node))
      else if builder.preDepth = 0 then settle option top.children.reverse
      else (top.children.reverse, [])) = settled
    have split : (∀ node ∈ settled.1, node.Parsed) ∧ ∀ number,
        Node.tally number settled.1 + Node.tally number settled.2 =
          Node.tally number top.children := by
      rw [← outcome]
      split
      · exact ⟨Template.parsed_trimFirstBreak children, fun number => by
          simp [Template.tally_trimFirstBreak]⟩
      · split
        · exact ⟨parsed_settle option children, fun number => by rw [tally_settle, Node.tally_reverse]⟩
        · exact ⟨children, fun number => by simp⟩
    refine Counted.append ⟨roots, others, fun number => ?_⟩ (.element split.1)
    have count := tally number
    have kept := split.2 number
    rw [List.map_cons, Node.tally_cons, Node.tally_singleton, Node.tally_nil] at count
    rw [Node.tally_append, Node.tally_singleton]
    dsimp only [OpenElement.node] at count ⊢
    omega

theorem Counted.closeUnclosed {builder : Builder} (counted : builder.Counted []) (stop : Position)
    (count : Nat) : (builder.closeUnclosed option stop count).Counted [] := by
  induction count generalizing builder with
  | zero => exact counted
  | succ count ih =>
    apply ih
    apply Counted.close
    simp only [reportUnclosed]
    split
    · exact counted
    · split
      · exact counted
      · exact counted.transfer rfl rfl rfl rfl

theorem Counted.closeImplied {builder : Builder} (counted : builder.Counted []) (name : String)
    (stop : Position) (count : Nat) :
    (builder.closeImplied option name stop count).Counted [] := by
  induction count generalizing builder with
  | zero => exact counted
  | succ count ih =>
    simp only [Builder.closeImplied]
    split
    · exact counted
    · split
      · exact ih (counted.close option stop)
      · exact counted

theorem Counted.closeTag {builder : Builder} (counted : builder.Counted []) (name : String)
    (span : Span) : (builder.closeTag option name span).Counted [] := by
  simp only [Builder.closeTag]
  split
  · exact counted.transfer rfl rfl rfl rfl
  · exact (counted.closeUnclosed option _ _).close option _

theorem Counted.finishStartTag {builder : Builder} (counted : builder.Counted [])
    (selfClosing : Bool) (span : Span) :
    (builder.finishStartTag option selfClosing span).Counted [] := by
  simp only [Builder.finishStartTag]
  split
  · exact counted
  · split
    · refine Counted.leaf ?_ (.element fun _ member => nomatch member)
      exact counted.transfer rfl rfl rfl rfl
    · refine ⟨counted.roots, List.forall_mem_cons.2 ⟨fun _ member => (nomatch member),
        counted.stack⟩, fun number => ?_⟩
      have count := counted.tally number
      dsimp only [report]
      rw [List.map_cons, Node.tally_cons, Node.tally_singleton, Node.count_range_succ]
      dsimp only [OpenElement.node]
      rw [Node.tally_nil] at count ⊢
      omega

theorem Counted.handle {builder : Builder} (counted : builder.Counted []) (token : Token) :
    (builder.handle option token).Counted [] := by
  have moved : ({ builder with stop := token.span.stop } : Builder).Counted [] :=
    counted.transfer rfl rfl rfl rfl
  simp only [Builder.handle]
  split
  · next name _ =>
    exact (moved.closeImplied option name token.span.start builder.stack.length).transfer
      rfl rfl rfl rfl
  · split
    · exact moved
    · exact counted.transfer rfl rfl rfl rfl
  · simp only [updateAttribute]
    split
    · exact counted.transfer rfl rfl rfl rfl
    · exact moved
  · exact moved.finishStartTag option _ _
  · exact moved.closeTag option _ _
  · exact moved.leaf .text
  · exact moved.leaf .interpolation
  · split
    · exact moved.leaf .comment
    · exact moved

theorem Counted.handlePull {builder : Builder} (counted : builder.Counted []) (pull : Pull) :
    (builder.handlePull option pull).Counted [] :=
  (counted.transfer rfl rfl rfl rfl : (builder.report pull.problems).Counted []).handle option
    pull.token

theorem Counted.foldl {builder : Builder} (counted : builder.Counted []) (pulls : List Pull) :
    (pulls.foldl (Builder.handlePull option) builder).Counted [] := by
  induction pulls generalizing builder with
  | nil => exact counted
  | cons pull rest ih => exact ih (counted.handlePull option pull)

/-- As many elements are closed as were open, so none is left. -/
theorem stack_close (builder : Builder) (stop : Position) :
    (builder.close option stop).stack.length = builder.stack.length - 1 := by
  simp only [Builder.close]
  split
  · next empty => simp [empty]
  · next top rest same =>
    rw [same]
    cases rest <;> simp [Builder.append]

theorem stack_closeUnclosed (builder : Builder) (stop : Position) (count : Nat) :
    (builder.closeUnclosed option stop count).stack.length = builder.stack.length - count := by
  induction count generalizing builder with
  | zero => rfl
  | succ count ih =>
    have same : builder.reportUnclosed.stack = builder.stack := by
      simp only [reportUnclosed]
      split
      · rfl
      · split <;> rfl
    rw [Builder.closeUnclosed, ih, stack_close, same]
    omega

theorem Counted.finish {builder : Builder} (counted : builder.Counted []) :
    (builder.finish option).1.Numbered := by
  obtain ⟨roots, stack, tally⟩ :=
    counted.closeUnclosed option builder.stop builder.stack.length
  have empty := stack_closeUnclosed option builder builder.stop builder.stack.length
  rw [Nat.sub_self, List.length_eq_zero_iff] at empty
  refine ⟨parsed_settle option fun node member => roots node (List.mem_reverse.1 member),
    fun number => ?_⟩
  have count := tally number
  have kept := tally_settle option number
    (builder.closeUnclosed option builder.stop builder.stack.length).roots.reverse
  rw [Node.tally_reverse] at kept
  rw [empty, List.map_nil, Node.tally_nil] at count
  dsimp only [Builder.finish]
  rw [Node.tally_append]
  omega

end Builder

/-- Whatever is scanned, the nodes of the template are numbered without gaps or clashes. -/
theorem numbered_of_parse {option : ParseOption} {scan : Scan} {template : Template}
    {problems : List Problem} (parsed : parse option scan = .ok (template, problems)) :
    template.Numbered := by
  simp only [parse] at parsed
  cases ending : scan.ending with
  | error fault => simp [ending, Except.map] at parsed
  | ok last =>
    simp only [ending, Except.map, Except.ok.injEq] at parsed
    have start : ({} : Builder).Counted [] :=
      ⟨fun _ member => (nomatch member), fun _ member => (nomatch member), fun _ => rfl⟩
    have read : ((scan.pulls.foldl (Builder.handlePull option) {}).report last).Counted [] :=
      (start.foldl option scan.pulls).transfer rfl rfl rfl rfl
    have finished := read.finish option
    rw [parsed] at finished
    exact finished

end TemplateCompiler
