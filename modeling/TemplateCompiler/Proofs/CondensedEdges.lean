import TemplateCompiler.Proofs.CondensedTemplates

/-! The edges of condensed lists. A blank text goes away at either end of a list, but its neighbours
are those from before condensing: where texts follow each other, as they do around comments that are
left out, only the outermost one goes. A list has a blank edge just if it had two blank texts there,
with something behind them. -/

namespace TemplateCompiler

namespace Node

def blankEdge : List Node → Bool
  | first :: second :: _ :: _ => first.isBlankText && second.isBlankText
  | _ => false

/-- A text with a line break in it. -/
def hasBreak (node : Node) : Bool :=
  match node.content with
  | .text text => text.raw.toList.any fun c => c = '\r' || c = '\n'
  | _ => false

/-- What can be said of the ends of a list that was condensed to `kept`, and of its line breaks. -/
structure Trimmed (nodes kept : List Node) : Prop where
  thins : Thins nodes kept
  first : kept.head?.any isBlankText = blankEdge nodes
  last : kept.getLast?.any isBlankText = blankEdge nodes.reverse
  /-- Nothing is left of blank texts, unless there were more than two of them. -/
  empty : (∀ node ∈ nodes, node.isBlankText = true) → (kept = [] ↔ nodes.length ≤ 2)
  /-- The blanks that are left between two elements come of texts without line breaks. -/
  between : ∀ before blank behind, [before, blank, behind] <:+: kept →
    before.isElement = true → blank.isBlankText = true → behind.isElement = true →
    ∀ node ∈ nodes, node.id = blank.id → node.hasBreak = false

variable {isPre : String → Bool} {nodes others : List Node} {previous : Option Node} {node : Node}

inductive Condensing (previous : Option Node) (node : Node) (rest : List Node) : List Node → Prop
  | solid {kept : Node} (visible : node.isBlankText = false) (still : kept.isBlankText = false)
      (id : kept.id = node.id) (element : kept.isElement = node.isElement) :
      Condensing previous node rest (kept :: (Template.condense (some node) rest).1)
  | gone {text : Phrase} (content : node.content = .text text) (blank : text.isBlank = true)
      (removable : Template.isRemovable previous rest.head? text = true) :
      Condensing previous node rest (Template.condense (some node) rest).1
  | space {text : Phrase} {kept : Node} (content : node.content = .text text)
      (blank : text.isBlank = true) (still : kept.isBlankText = true) (id : kept.id = node.id)
      (stays : Template.isRemovable previous rest.head? text = false) :
      Condensing previous node rest (kept :: (Template.condense (some node) rest).1)

theorem condensing (previous : Option Node) (node : Node) (rest : List Node) :
    Condensing previous node rest (Template.condense previous (node :: rest)).1 := by
  obtain ⟨id, content, span, children⟩ := node
  simp only [Template.condense]
  cases content with
  | text text =>
    simp only
    split
    · next visible =>
      rw [Bool.not_eq_true'] at visible
      exact .solid visible visible rfl rfl
    · next blank =>
      rw [Bool.not_eq_true', Bool.not_eq_false] at blank
      split
      · next removable => exact .gone rfl blank removable
      · next stays => exact .space rfl blank rfl rfl (Bool.not_eq_true _ ▸ stays)
  | _ => exact .solid rfl rfl rfl rfl

theorem isBlankText_of_content {text : Phrase} (content : node.content = .text text)
    (blank : text.isBlank = true) : node.isBlankText = true := by
  rw [isBlankText, content]
  exact blank

theorem exists_text_of_isBlankText (blank : node.isBlankText = true) :
    ∃ text, node.content = .text text := by
  unfold isBlankText at blank
  split at blank
  · next text content => exact ⟨text, content⟩
  · cases blank

/-- A text keeps the blanks behind it, unless they are the last of the list. -/
theorem stays_behind_text {text blank : Phrase} {next : Node} (content : node.content = .text text) :
    Template.isRemovable (some node) (some next) blank = false := by
  simp [Template.isRemovable, isComment, isElement, element?, content]

/-- A text keeps the blanks before it, unless they are the first of the list. -/
theorem stays_before_text {text blank : Phrase} {before : Node} (content : node.content = .text text) :
    Template.isRemovable (some before) (some node) blank = false := by
  simp [Template.isRemovable, isComment, isElement, element?, content]

theorem blankEdge_of_first (visible : node.isBlankText = false) :
    blankEdge (node :: nodes) = false := by
  rcases nodes with _ | ⟨second, _ | ⟨third, rest⟩⟩
  · rfl
  · rfl
  · rw [blankEdge, visible, Bool.false_and]

theorem blankEdge_of_second {first : Node} (visible : node.isBlankText = false) :
    blankEdge (first :: node :: nodes) = false := by
  cases nodes with
  | nil => rfl
  | cons third rest => rw [blankEdge, visible, Bool.and_false]

theorem blankEdge_of_both {first second : Node} (blank : first.isBlankText = true)
    (again : second.isBlankText = true) (more : nodes ≠ []) :
    blankEdge (first :: second :: nodes) = true := by
  cases nodes with
  | nil => exact absurd rfl more
  | cons third rest => rw [blankEdge, blank, again, Bool.and_self]

theorem head?_condense (nodes : List Node) :
    (Template.condense none nodes).1.head?.any isBlankText = blankEdge nodes := by
  cases nodes with
  | nil => rfl
  | cons node rest =>
    have outcome := condensing none node rest
    generalize (Template.condense none (node :: rest)).1 = kept at outcome
    cases outcome with
    | solid visible still => rw [List.head?_cons, Option.any_some, still, blankEdge_of_first visible]
    | space _ _ _ _ stays => cases stays
    | @gone text content blank =>
      cases rest with
      | nil => rfl
      | cons second rest =>
        have outcome := condensing (some node) second rest
        generalize (Template.condense (some node) (second :: rest)).1 = kept at outcome
        cases outcome with
        | solid visible still =>
          rw [List.head?_cons, Option.any_some, still, blankEdge_of_second visible]
        | gone _ _ removable =>
          cases rest with
          | nil => rfl
          | cons third rest =>
            rw [List.head?_cons, stays_behind_text content] at removable
            cases removable
        | space inner again still _ stays =>
          rw [List.head?_cons, Option.any_some, still]
          cases rest with
          | nil => cases stays
          | cons third rest =>
            exact (blankEdge_of_both (isBlankText_of_content content blank)
              (isBlankText_of_content inner again) (List.cons_ne_nil _ _)).symm

/-- The end of a list is condensed as it would be alone, behind what is before it. -/
theorem condense_append (previous : Option Node) (front back : List Node) :
    ∃ kept, (front = [] → kept = []) ∧ (Template.condense previous (front ++ back)).1 =
      kept ++ (Template.condense (front.getLast?.or previous) back).1 := by
  induction front generalizing previous with
  | nil => exact ⟨[], fun _ => rfl, rfl⟩
  | cons node front ih =>
    obtain ⟨kept, -, same⟩ := ih (some node)
    have place : (node :: front).getLast?.or previous = front.getLast?.or (some node) := by
      rw [List.getLast?_cons]
      cases front.getLast? <;> rfl
    have outcome := condensing previous node (front ++ back)
    rw [List.cons_append, place]
    generalize (Template.condense previous (node :: (front ++ back))).1 = whole at outcome
    cases outcome with
    | gone => exact ⟨kept, nofun, same⟩
    | @solid first | @space _ first => exact ⟨first :: kept, nofun, by rw [same, List.cons_append]⟩

theorem condense_singleton (previous : Option Node) (node : Node) :
    (node.isBlankText = true ∧ (Template.condense previous [node]).1 = []) ∨
      ∃ kept, node.isBlankText = false ∧ kept.isBlankText = false ∧
        (Template.condense previous [node]).1 = [kept] := by
  have outcome := condensing previous node []
  generalize (Template.condense previous [node]).1 = whole at outcome
  cases outcome with
  | gone content blank => exact .inl ⟨isBlankText_of_content content blank, rfl⟩
  | @solid kept visible still => exact .inr ⟨kept, visible, still, rfl⟩
  | space _ _ _ _ stays => cases previous <;> cases stays

theorem getLast?_condense (nodes : List Node) :
    (Template.condense none nodes).1.getLast?.any isBlankText = blankEdge nodes.reverse := by
  rcases nodes.eq_nil_or_concat' with rfl | ⟨front, last, rfl⟩
  · rfl
  · rcases front.eq_nil_or_concat' with rfl | ⟨front, before, rfl⟩
    · rcases condense_singleton none last with ⟨-, same⟩ | ⟨kept, -, still, same⟩
      · rw [List.nil_append, same]
        rfl
      · rw [List.nil_append, same]
        exact still
    · obtain ⟨kept, bare, same⟩ := condense_append none front [before, last]
      rw [Option.or_none] at same
      have turned : (front ++ [before] ++ [last]).reverse = last :: before :: front.reverse := by
        simp
      rw [turned, List.append_assoc, List.singleton_append, same]
      have outcome := condensing front.getLast? before [last]
      generalize (Template.condense front.getLast? [before, last]).1 = whole at outcome
      rcases condense_singleton (some before) last with
        ⟨blank, alone⟩ | ⟨other, visible, still, alone⟩
      · cases outcome with
        | solid visible still =>
          rw [alone, List.getLast?_concat, Option.any_some, still, blankEdge_of_second visible]
        | gone _ _ removable =>
          obtain ⟨text, content⟩ := exists_text_of_isBlankText blank
          rcases front.eq_nil_or_concat' with rfl | ⟨first, inner, rfl⟩
          · rw [alone, bare rfl]
            rfl
          · rw [List.getLast?_concat, List.head?_cons, stays_before_text content] at removable
            cases removable
        | space content first still _ stays =>
          rw [alone, List.getLast?_concat, Option.any_some, still]
          refine (blankEdge_of_both blank (isBlankText_of_content content first) ?_).symm
          rintro empty
          rw [List.reverse_eq_nil_iff.mp empty] at stays
          cases stays
      · rw [blankEdge_of_first visible]
        cases outcome with
        | gone => rw [alone, List.getLast?_concat, Option.any_some, still]
        | solid | space =>
          rw [alone, List.append_cons, List.getLast?_concat, Option.any_some, still]

theorem not_isElement_of_text {text : Phrase} (content : node.content = .text text) :
    node.isElement = false := by
  simp [isElement, element?, content]

theorem not_isElement_of_blank (blank : node.isBlankText = true) : node.isElement = false := by
  obtain ⟨text, content⟩ := exists_text_of_isBlankText blank
  exact not_isElement_of_text content

theorem not_isComment_of_element (opens : node.isElement = true) : node.isComment = false := by
  obtain ⟨id, content, span, children⟩ := node
  cases content with
  | element => rfl
  | _ => cases opens

/-- Between two elements blanks stay only if they have no line break. -/
theorem unbroken_of_stays {text : Phrase} {next : Node} (opens : node.isElement = true)
    (closes : next.isElement = true)
    (stays : Template.isRemovable (some node) (some next) text = false) :
    (text.raw.toList.any fun c => c = '\r' || c = '\n') = false := by
  simpa [Template.isRemovable, not_isComment_of_element opens, not_isComment_of_element closes,
    opens, closes] using stays

theorem unbroken_behind_element {rest : List Node} {blank behind : Node}
    (opens : node.isElement = true) (white : blank.isBlankText = true)
    (closes : behind.isElement = true)
    (front : [blank, behind] <+: (Template.condense (some node) rest).1) :
    ∃ other ∈ rest, other.id = blank.id ∧ other.hasBreak = false := by
  cases rest with
  | nil => simp [Template.condense] at front
  | cons second rest =>
    have outcome := condensing (some node) second rest
    generalize (Template.condense (some node) (second :: rest)).1 = whole at front outcome
    cases outcome with
    | solid _ still =>
      rw [(List.cons_prefix_cons.mp front).1, still] at white
      cases white
    | gone _ _ removable =>
      cases rest with
      | nil => simp [Template.condense] at front
      | cons third rest =>
        have outcome := condensing (some second) third rest
        generalize (Template.condense (some second) (third :: rest)).1 = whole at front outcome
        cases outcome with
        | solid _ still =>
          rw [(List.cons_prefix_cons.mp front).1, still] at white
          cases white
        | gone content | space content =>
          rw [List.head?_cons, stays_before_text content] at removable
          cases removable
    | @space text kept content _ _ id stays =>
      obtain ⟨rfl, next⟩ := List.cons_prefix_cons.mp front
      clear front
      refine ⟨second, List.mem_cons_self, id.symm, ?_⟩
      rw [hasBreak, content]
      cases rest with
      | nil => simp [Template.condense] at next
      | cons third rest =>
        have outcome := condensing (some second) third rest
        generalize (Template.condense (some second) (third :: rest)).1 = whole at next outcome
        cases outcome with
        | solid _ _ _ element =>
          rw [(List.cons_prefix_cons.mp next).1, element] at closes
          exact unbroken_of_stays opens closes stays
        | space _ _ still =>
          rw [(List.cons_prefix_cons.mp next).1, not_isElement_of_blank still] at closes
          cases closes
        | gone _ _ removable =>
          cases rest with
          | nil => simp [Template.condense] at next
          | cons fourth rest =>
            rw [List.head?_cons, stays_behind_text content] at removable
            cases removable

/-- Between two elements no blanks are left that had a line break. -/
theorem unbroken_between_elements (nodes : List Node) (previous : Option Node)
    {before blank behind : Node}
    (stand : [before, blank, behind] <:+: (Template.condense previous nodes).1)
    (opens : before.isElement = true) (white : blank.isBlankText = true)
    (closes : behind.isElement = true) :
    ∃ node ∈ nodes, node.id = blank.id ∧ node.hasBreak = false := by
  induction nodes generalizing previous with
  | nil => simp [Template.condense] at stand
  | cons node rest ih =>
    have later (found : ∃ other ∈ rest, other.id = blank.id ∧ other.hasBreak = false) :
        ∃ other ∈ node :: rest, other.id = blank.id ∧ other.hasBreak = false := by
      obtain ⟨other, member, own⟩ := found
      exact ⟨other, List.mem_cons_of_mem node member, own⟩
    have outcome := condensing previous node rest
    generalize (Template.condense previous (node :: rest)).1 = whole at stand outcome
    cases outcome with
    | gone => exact later (ih (some node) stand)
    | space _ _ still =>
      rcases List.infix_cons_iff.mp stand with front | within
      · rw [(List.cons_prefix_cons.mp front).1, not_isElement_of_blank still] at opens
        cases opens
      · exact later (ih (some node) within)
    | solid _ _ _ element =>
      rcases List.infix_cons_iff.mp stand with front | within
      · obtain ⟨same, front⟩ := List.cons_prefix_cons.mp front
        rw [same, element] at opens
        exact later (unbroken_behind_element opens white closes front)
      · exact later (ih (some node) within)

/-- Of blank texts nothing is left, unless there are more than two of them. -/
theorem empty_condense (blank : ∀ node ∈ nodes, node.isBlankText = true) :
    (Template.condense none nodes).1 = [] ↔ nodes.length ≤ 2 := by
  have alone (previous : Option Node) (node : Node) (member : node ∈ nodes) :
      (Template.condense previous [node]).1 = [] := by
    rcases condense_singleton previous node with ⟨-, same⟩ | ⟨-, visible, -⟩
    · exact same
    · rw [blank node member] at visible
      cases visible
  rcases nodes with _ | ⟨first, _ | ⟨second, _ | ⟨third, rest⟩⟩⟩
  · simp [Template.condense]
  · simp [alone]
  · have outcome := condensing none first [second]
    generalize (Template.condense none [first, second]).1 = whole at outcome
    cases outcome with
    | solid visible =>
      rw [blank first List.mem_cons_self] at visible
      cases visible
    | space _ _ _ _ stays => cases stays
    | gone => simp [alone]
  · have head := head?_condense (first :: second :: third :: rest)
    rw [blankEdge_of_both (blank first (by simp)) (blank second (by simp)) (List.cons_ne_nil _ _)]
      at head
    constructor
    · intro empty
      rw [empty] at head
      cases head
    · simp

theorem trimmed_condense (distinct : (nodes.map (·.id)).Nodup)
    (plain : ∀ node ∈ nodes, node.content.Plain) :
    Trimmed nodes (Template.condense none nodes).1 := by
  refine ⟨(reworded_condense none plain).1, head?_condense nodes, getLast?_condense nodes,
    empty_condense, fun before blank behind stand opens white closes node member same => ?_⟩
  obtain ⟨other, found, id, unbroken⟩ :=
    unbroken_between_elements nodes none stand opens white closes
  rwa [List.inj_on_of_nodup_map distinct member found (same.trans id.symm)]

/-- A list of children outside of preformatted text, with the number of the element that it belongs
to; the roots belong to none. -/
inductive Outside (isPre : String → Bool) (roots : List Node) : Option NodeId → List Node → Prop
  | roots : Outside isPre roots none roots
  | children {parent : Option NodeId} {nodes : List Node} {node : Node} {element : Element}
      (outside : Outside isPre roots parent nodes) (member : node ∈ nodes)
      (content : node.content = .element element) (plain : isPre element.tag = false) :
      Outside isPre roots (some node.id) node.children

theorem isBlankText_condensed (isPre : String → Bool) (node : Node) :
    (condensed isPre node).isBlankText = node.isBlankText := by
  rw [isBlankText, (condensed_head isPre node).2.2, isBlankText]

theorem blankEdge_map (isPre : String → Bool) (nodes : List Node) :
    blankEdge (nodes.map (condensed isPre)) = blankEdge nodes := by
  rcases nodes with _ | ⟨first, _ | ⟨second, _ | ⟨third, rest⟩⟩⟩
  · rfl
  · rfl
  · rfl
  · simp only [List.map_cons, blankEdge, isBlankText_condensed]

theorem Trimmed.of_map (trimmed : Trimmed (nodes.map (condensed isPre)) others) :
    Trimmed nodes others := by
  obtain ⟨thins, first, last, empty, between⟩ := trimmed
  rw [← List.map_reverse, blankEdge_map] at last
  rw [blankEdge_map] at first
  refine ⟨thins.of_map, first, last, ?_, ?_⟩
  · simpa [isBlankText_condensed] using empty
  · intro before blank behind stand opens white closes node member same
    have unbroken := between before blank behind stand opens white closes (condensed isPre node)
      (List.mem_map_of_mem member) ((condensed_head isPre node).1.trans same)
    rwa [hasBreak, (condensed_head isPre node).2.2] at unbroken

theorem condensed_children {element : Element} (content : node.content = .element element)
    (plain : isPre element.tag = false) : (condensed isPre node).children =
      (Template.condense none (condensedAll isPre node.children)).1 := by
  obtain ⟨id, _, span, children⟩ := node
  cases content
  simp [condensed, plain]

theorem Outside.sublist {parent : Option NodeId} {roots : List Node}
    (outside : Outside isPre roots parent nodes) :
    (flattenAll nodes).Sublist (flattenAll roots) := by
  induction outside with
  | roots => exact .refl _
  | @children _ nodes node _ _ member _ _ ih =>
    obtain ⟨front, back, rfl⟩ := List.append_of_mem member
    refine List.Sublist.trans ?_ ih
    rw [flattenAll_append, flattenAll, flatten_eq, List.cons_append]
    exact ((List.sublist_append_left _ _).cons node).trans (List.sublist_append_right _ _)

/-- Each list of the condensed tree comes of the list of the same element. -/
theorem Outside.origin {parent : Option NodeId} {roots kept : List Node}
    (plain : Every (fun _ content _ => content.Plain) roots)
    (outside : Outside isPre (Template.condense none (condensedAll isPre roots)).1 parent kept) :
    ∃ nodes, Outside isPre roots parent nodes ∧
      kept = (Template.condense none (condensedAll isPre nodes)).1 := by
  induction outside with
  | roots => exact ⟨roots, .roots, rfl⟩
  | @children _ _ node element _ member content visible ih =>
    obtain ⟨nodes, outside, rfl⟩ := ih
    have simple : ∀ other ∈ nodes.map (condensed isPre), other.content.Plain := by
      refine List.forall_mem_map.mpr fun other inside => ?_
      rw [(condensed_head isPre other).2.2]
      exact plain other (outside.sublist.subset ((sublist_flattenAll nodes).subset inside))
    rw [condensedAll_eq_map] at member
    obtain ⟨other, mapped, reworded⟩ := (reworded_condense none simple).2 node member
    obtain ⟨whole, inside, rfl⟩ := List.mem_map.mp mapped
    obtain ⟨id, -, same⟩ := condensed_head isPre whole
    have own : whole.content = .element element := by
      have agrees := reworded.content
      rw [same, content] at agrees
      generalize whole.content = content at agrees
      cases agrees
      rfl
    refine ⟨whole.children, ?_, ?_⟩
    · rw [reworded.id, id]
      exact .children outside inside own visible
    · rw [reworded.children, condensed_children own visible]

theorem Outside.trimmed {parent : Option NodeId} {roots kept : List Node}
    (plain : Every (fun _ content _ => content.Plain) roots)
    (distinct : ((flattenAll roots).map (·.id)).Nodup)
    (outside : Outside isPre (Template.condense none (condensedAll isPre roots)).1 parent kept) :
    ∃ nodes, Outside isPre roots parent nodes ∧ Trimmed nodes kept := by
  obtain ⟨nodes, origin, rfl⟩ := outside.origin plain
  have inside := (sublist_flattenAll nodes).trans origin.sublist
  refine ⟨nodes, origin, ?_⟩
  rw [condensedAll_eq_map]
  refine Trimmed.of_map (trimmed_condense ?_ (List.forall_mem_map.mpr fun node member => ?_))
  · have ids : (nodes.map (condensed isPre)).map (·.id) = nodes.map (·.id) := by
      simp [Function.comp_def, (condensed_head isPre _).1]
    rw [ids]
    exact (inside.map _).nodup distinct
  · rw [(condensed_head isPre node).2.2]
    exact plain node (inside.subset member)

end Node

/-- Of each list of children outside of preformatted text, condensing leaves a list without blank
edges and without line breaks between elements, save that blank texts in a row lose the outermost
one only. -/
theorem parse_trimmed (scanning : ScanOption) (option : ParseOption) (source : String)
    (found : List Problem) (ended : (scan scanning source).ending = .ok found) :
    ∃ whole thin problems,
      parse option.preserving (scan scanning source) = .ok (whole, problems) ∧
      parse option.condensing (scan scanning source) = .ok (thin, problems) ∧
      ∀ parent kept, Node.Outside option.isPreformatted thin.roots parent kept →
        ∃ nodes, Node.Outside option.isPreformatted whole.roots parent nodes ∧
          Node.Trimmed nodes kept := by
  obtain ⟨whole, problems, parsed, condensed, plain⟩ := parse_both option ended
  refine ⟨whole, _, problems, parsed, condensed, fun parent kept outside => ?_⟩
  have distinct : ((Node.flattenAll whole.roots).map (·.id)).Nodup := by
    refine List.nodup_iff_count_le_one.mpr fun number => ?_
    have tally := (numbered_of_parse parsed).tally number
    have once := List.nodup_iff_count_le_one.mp (List.nodup_range (n := whole.size)) number
    exact Nat.le_trans (Nat.le_of_add_right_le (Nat.le_of_eq tally)) once
  exact outside.trimmed plain distinct

/-- Two blank texts in a row at the edges of an element, and of the roots. -/
def edgySource : String :=
  "<p> <!-- a -->\n<i></i>\n<b></b> <!-- b --> </p> <!-- c --> "

theorem parse_trimmed_edgy : (scan {} edgySource).ending = .ok [] ∧
    ∃ whole thin problems,
      parse (ParseOption.preserving {}) (scan {} edgySource) = .ok (whole, problems) ∧
      parse (ParseOption.condensing {}) (scan {} edgySource) = .ok (thin, problems) ∧
      ∀ parent kept, Node.Outside Tag.isPreformatted thin.roots parent kept →
        ∃ nodes, Node.Outside Tag.isPreformatted whole.roots parent nodes ∧
          Node.Trimmed nodes kept := by
  have ended : (scan {} edgySource).ending = .ok [] := by decide +kernel
  exact ⟨ended, parse_trimmed {} {} edgySource [] ended⟩

/-- Nothing but white space and comments that are left out, and yet a root stays. -/
theorem blank_root_between_comments : ∃ template problems,
    parse {} (scan {} " <!-- a --> <!-- b --> ") = .ok (template, problems) ∧
      template.roots ≠ [] ∧ ∀ root ∈ template.roots, root.isBlankText = true := by
  have succeeds : (parse {} (scan {} " <!-- a --> <!-- b --> ")).toOption.any (fun parsed =>
      !parsed.1.roots.isEmpty && parsed.1.roots.all Node.isBlankText) = true := by
    decide +kernel
  cases parsed : parse {} (scan {} " <!-- a --> <!-- b --> ") with
  | error fault =>
    rw [parsed] at succeeds
    cases succeeds
  | ok result =>
    rw [parsed] at succeeds
    obtain ⟨more, blank⟩ := Bool.and_eq_true_iff.mp succeeds
    exact ⟨result.1, result.2, rfl, by simpa using more, List.all_eq_true.mp blank⟩

end TemplateCompiler
