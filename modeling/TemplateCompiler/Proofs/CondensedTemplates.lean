import TemplateCompiler.Proofs.CondensedTrees
import TemplateCompiler.Proofs.NodeOrder
import TemplateCompiler.Proofs.SourcePlaces

/-! Condensing the white space of a template touches nothing but white space. Node by node, the
condensed template agrees with the template that keeps it all: only blank texts are missing among
the children, what is not blank in a text is still there, and preformatted elements are the same
down to their leaves. -/

namespace TemplateCompiler

inductive Content.Agrees : Content → Content → Prop
  | same {content : Content} : Agrees content content
  | text {text kept : Phrase} (solid : kept.solid = text.solid) :
      Agrees (.text text) (.text kept)

theorem Content.Agrees.trans {first second third : Content} (agrees : first.Agrees second)
    (further : second.Agrees third) : first.Agrees third := by
  cases agrees with
  | same => exact further
  | text solid =>
    cases further with
    | same => exact .text solid
    | text again => exact .text (again.trans solid)

/-- A text is to be condensed and decoded at most. -/
def Content.Plain : Content → Prop
  | .text words => words.Plain
  | _ => True

namespace Node

inductive Thins : List Node → List Node → Prop
  | nil : Thins [] []
  | keep {node kept : Node} {nodes others : List Node} (same : kept.id = node.id)
      (thins : Thins nodes others) : Thins (node :: nodes) (kept :: others)
  | drop {node : Node} {nodes others : List Node} (blank : node.isBlankText = true)
      (thins : Thins nodes others) : Thins (node :: nodes) others

structure Agrees (isPre : String → Bool) (whole thin : Node) : Prop where
  id : thin.id = whole.id
  span : thin.span = whole.span
  content : whole.content.Agrees thin.content
  children : Thins whole.children thin.children
  preformatted : ∀ element, whole.content = .element element → isPre element.tag = true →
    thin.children = whole.children

variable {isPre : String → Bool} {whole thin node : Node} {nodes others : List Node}

theorem Thins.refl (nodes : List Node) : Thins nodes nodes := by
  induction nodes with
  | nil => exact .nil
  | cons node rest ih => exact .keep rfl ih

theorem Agrees.refl (node : Node) : Agrees isPre node node :=
  ⟨rfl, rfl, .same, .refl _, fun _ _ _ => rfl⟩

/-- A text changes its white space in its own place. -/
structure Reworded (node kept : Node) : Prop where
  id : kept.id = node.id
  span : kept.span = node.span
  content : node.content.Agrees kept.content
  children : kept.children = node.children

theorem Agrees.reworded {kept : Node} (agrees : Agrees isPre whole thin)
    (reworded : Reworded thin kept) : Agrees isPre whole kept := by
  refine ⟨reworded.id.trans agrees.id, reworded.span.trans agrees.span,
    agrees.content.trans reworded.content, ?_, fun element same pre => ?_⟩
  · rw [reworded.children]
    exact agrees.children
  · rw [reworded.children, agrees.preformatted element same pre]

/-- What is kept are the nodes themselves, reworded, and what goes is blank text. -/
theorem reworded_condense (previous : Option Node) (plain : ∀ node ∈ nodes, node.content.Plain) :
    Thins nodes (Template.condense previous nodes).1 ∧
      ∀ kept ∈ (Template.condense previous nodes).1, ∃ node ∈ nodes, Reworded node kept := by
  induction nodes generalizing previous with
  | nil => exact ⟨.nil, List.forall_mem_nil _⟩
  | cons node rest ih =>
    obtain ⟨own, others⟩ := List.forall_mem_cons.mp plain
    obtain ⟨thins, later⟩ := ih (some node) others
    have behind : ∀ kept ∈ (Template.condense (some node) rest).1,
        ∃ other ∈ node :: rest, Reworded other kept := by
      intro kept member
      obtain ⟨other, inside, reworded⟩ := later kept member
      exact ⟨other, List.mem_cons_of_mem node inside, reworded⟩
    obtain ⟨id, content, span, children⟩ := node
    simp only [Template.condense]
    cases content with
    | text text =>
      have spaced (kept : Phrase) (solid : kept.solid = text.solid) :
          Reworded ⟨id, .text text, span, children⟩ ⟨id, .text kept, span, children⟩ :=
        ⟨rfl, rfl, .text solid, rfl⟩
      simp only
      split
      · refine ⟨.keep rfl thins, List.forall_mem_cons.mpr ⟨?_, behind⟩⟩
        exact ⟨_, List.mem_cons_self, spaced _ own.solid_squeezed⟩
      · next blank =>
        rw [Bool.not_eq_true', Bool.not_eq_false] at blank
        split
        · exact ⟨.drop blank thins, behind⟩
        · refine ⟨.keep rfl thins, List.forall_mem_cons.mpr ⟨?_, behind⟩⟩
          have space : (Phrase.mk " " {}).solid = [] := by decide
          exact ⟨_, List.mem_cons_self, spaced _ (space.trans (own.solid_of_isBlank blank).symm)⟩
    | _ =>
      refine ⟨.keep rfl thins, List.forall_mem_cons.mpr ⟨?_, behind⟩⟩
      exact ⟨_, List.mem_cons_self, rfl, rfl, .same, rfl⟩

theorem condensedAll_eq_map (isPre : String → Bool) (nodes : List Node) :
    condensedAll isPre nodes = nodes.map (condensed isPre) := by
  induction nodes with
  | nil => rfl
  | cons node rest ih => rw [condensedAll, ih, List.map_cons]

theorem mem_removedAll {node : Node} :
    node ∈ removedAll isPre nodes ↔ ∃ whole ∈ nodes, node ∈ removed isPre whole := by
  induction nodes with
  | nil => simp [removedAll]
  | cons first rest ih => simp [removedAll, ih]

theorem condensed_head (isPre : String → Bool) (node : Node) :
    (condensed isPre node).id = node.id ∧ (condensed isPre node).span = node.span ∧
      (condensed isPre node).content = node.content := by
  obtain ⟨id, content, span, children⟩ := node
  cases content <;> exact ⟨rfl, rfl, rfl⟩

theorem condensed_cases (isPre : String → Bool) (node : Node) :
    (condensed isPre node = node ∧ removed isPre node = []) ∨
      ∃ element, node.content = .element element ∧ isPre element.tag = false ∧
        condensed isPre node = { node with
          children := (Template.condense none (condensedAll isPre node.children)).1 } ∧
        removed isPre node = removedAll isPre node.children ++
          (Template.condense none (condensedAll isPre node.children)).2 := by
  obtain ⟨id, content, span, children⟩ := node
  cases content with
  | element element =>
    cases pre : isPre element.tag with
    | true => exact .inl ⟨by simp [condensed, pre], by simp [removed, pre]⟩
    | false => exact .inr ⟨element, rfl, pre, by simp [condensed, pre], by simp [removed, pre]⟩
  | _ => exact .inl ⟨rfl, rfl⟩

theorem Thins.of_map (thins : Thins (nodes.map (condensed isPre)) others) : Thins nodes others := by
  generalize mapped : nodes.map (condensed isPre) = list at thins
  induction thins generalizing nodes with
  | nil =>
    rw [List.map_eq_nil_iff] at mapped
    rw [mapped]
    exact .nil
  | keep same thins ih =>
    obtain ⟨node, rest, rfl, rfl, rfl⟩ := List.map_eq_cons_iff.mp mapped
    exact .keep (same.trans (condensed_head isPre node).1) (ih rfl)
  | drop blank thins ih =>
    obtain ⟨node, rest, rfl, rfl, rfl⟩ := List.map_eq_cons_iff.mp mapped
    refine .drop ?_ (ih rfl)
    rw [isBlankText, (condensed_head isPre node).2.2] at blank
    exact blank

def Covered (isPre : String → Bool) (nodes others : List Node) : Prop :=
  ∀ thin ∈ flattenAll others, ∃ whole ∈ flattenAll nodes, Agrees isPre whole thin

theorem mem_flattenAll {node : Node} :
    node ∈ flattenAll nodes ↔ ∃ root ∈ nodes, node ∈ root.flatten := by
  induction nodes with
  | nil => simp [flattenAll]
  | cons first rest ih => simp [flattenAll, ih]

/-- The nodes that come of a node by condensing, in the tree and out of it. -/
structure Settled (isPre : String → Bool) (node : Node) : Prop where
  own : Agrees isPre node (condensed isPre node)
  kept : Covered isPre [node] [condensed isPre node]
  gone : Covered isPre [node] (removed isPre node)

/-- If what comes of each node of a list agrees with nodes of it, so does what comes of the list. -/
theorem covered_condense (plain : ∀ node ∈ nodes, node.content.Plain)
    (settled : ∀ node ∈ nodes, Settled isPre node) :
    Thins nodes (Template.condense none (condensedAll isPre nodes)).1 ∧
      Covered isPre nodes (Template.condense none (condensedAll isPre nodes)).1 ∧
      Covered isPre nodes (removedAll isPre nodes ++
        (Template.condense none (condensedAll isPre nodes)).2) := by
  have below {node whole : Node} (member : node ∈ nodes) (inside : whole ∈ flattenAll [node]) :
      whole ∈ flattenAll nodes := by
    rw [flattenAll, flattenAll, List.append_nil] at inside
    exact mem_flattenAll.mpr ⟨node, member, inside⟩
  have simple : ∀ node ∈ nodes.map (condensed isPre), node.content.Plain := by
    refine List.forall_mem_map.mpr fun node member => ?_
    rw [(condensed_head isPre node).2.2]
    exact plain node member
  obtain ⟨thins, reworded⟩ := reworded_condense none simple
  rw [condensedAll_eq_map]
  refine ⟨thins.of_map, fun thin member => ?_, fun thin member => ?_⟩
  · obtain ⟨kept, inside, within⟩ := mem_flattenAll.mp member
    obtain ⟨other, mapped, same⟩ := reworded kept inside
    obtain ⟨node, found, rfl⟩ := List.mem_map.mp mapped
    rw [flatten_eq] at within
    rcases List.mem_cons.mp within with rfl | deeper
    · exact ⟨node, mem_flattenAll.mpr ⟨node, found, by simp [flatten_eq]⟩,
        (settled node found).own.reworded same⟩
    · rw [same.children] at deeper
      obtain ⟨whole, place, agrees⟩ := (settled node found).kept thin
        (by simp [flattenAll, flatten_eq, deeper])
      exact ⟨whole, below found place, agrees⟩
  · rw [flattenAll_append, List.mem_append] at member
    rcases member with member | member
    · obtain ⟨lost, inside, within⟩ := mem_flattenAll.mp member
      obtain ⟨node, found, own⟩ := mem_removedAll.mp inside
      obtain ⟨whole, place, agrees⟩ := (settled node found).gone thin
        (mem_flattenAll.mpr ⟨lost, own, within⟩)
      exact ⟨whole, below found place, agrees⟩
    · obtain ⟨lost, inside, within⟩ := mem_flattenAll.mp member
      obtain ⟨node, found, rfl⟩ := List.mem_map.mp (Template.blank_of_condensed lost inside).1
      obtain ⟨whole, place, agrees⟩ := (settled node found).kept thin
        (by simpa [flattenAll] using within)
      exact ⟨whole, below found place, agrees⟩

theorem settled (node : Node) (plain : Every (fun _ content _ => content.Plain) [node]) :
    Settled isPre node := by
  induction node using inductChildren with
  | step node ih =>
    obtain ⟨⟨-, below⟩, -⟩ := every_cons.mp plain
    rcases condensed_cases isPre node with ⟨same, none⟩ | ⟨element, content, pre, same, gone⟩
    · refine ⟨?_, ?_, ?_⟩
      · rw [same]
        exact .refl node
      · rw [same]
        exact fun thin member => ⟨thin, member, .refl thin⟩
      · rw [none]
        exact List.forall_mem_nil _
    · have simple : ∀ child ∈ node.children, child.content.Plain := fun child member =>
        below child (mem_flattenAll.mpr ⟨child, member, by simp [flatten_eq]⟩)
      obtain ⟨thins, kept, lost⟩ := covered_condense simple fun child member => by
        refine ih child member fun other inside => below other ?_
        exact mem_flattenAll.mpr ⟨child, member, by simpa [flattenAll] using inside⟩
      have inner {whole : Node} (inside : whole ∈ flattenAll node.children) :
          whole ∈ flattenAll [node] := by
        simp [flattenAll, flatten_eq, inside]
      have own : Agrees isPre node (condensed isPre node) := by
        rw [same]
        refine ⟨rfl, rfl, .same, thins, fun other equal preformatted => ?_⟩
        rw [content] at equal
        cases equal
        rw [pre] at preformatted
        cases preformatted
      refine ⟨own, fun thin member => ?_, fun thin member => ?_⟩
      · rw [flattenAll, flattenAll, List.append_nil, flatten_eq] at member
        rcases List.mem_cons.mp member with rfl | deeper
        · exact ⟨node, by simp [flattenAll, flatten_eq], own⟩
        · rw [same] at deeper
          obtain ⟨whole, inside, agrees⟩ := kept thin deeper
          exact ⟨whole, inner inside, agrees⟩
      · rw [gone] at member
        obtain ⟨whole, inside, agrees⟩ := lost thin member
        exact ⟨whole, inner inside, agrees⟩

end Node

namespace Builder

variable {option : ParseOption} {builder : Builder}

/-- All texts in the tree are plain. -/
abbrev Plain (builder : Builder) : Prop :=
  builder.Holds (fun _ content _ => content.Plain) fun _ _ _ => True

theorem tolerates_plain : Node.Tolerates fun _ content _ => content.Plain := by
  rintro id text kept span (same | same | same) plain
  · have edits : kept.Plain := by
      rw [Phrase.Plain, same]
      exact plain
    exact edits
  · have edits : kept.Plain := by
      rw [Phrase.Plain, same]
      exact Phrase.Plain.squeezed plain
    exact edits
  · rw [same]
    rfl

theorem Plain.handlePull (holds : builder.Plain) {pull : Pull} (plain : pull.token.kind.Plain) :
    (builder.handlePull option pull).Plain := by
  have reported : (builder.report pull.problems).Plain := ⟨holds.roots, holds.dropped, holds.stack⟩
  obtain ⟨middle, steps, made⟩ := handle_cases option (builder.report pull.problems) pull.token
  have reached : middle.Plain := by
    clear made
    induction steps with
    | refl => exact reported
    | tail _ step ih => exact ih.step tolerates_plain (fun _ _ _ _ _ _ => trivial) step
  rcases made with ⟨-, make⟩ | ⟨-, same⟩
  · refine reached.make (fun content own => ?_) (fun _ _ _ _ => ⟨trivial, trivial⟩) make
    generalize pull.token.kind = kind at own plain
    cases own with
    | text => exact plain
    | _ => trivial
  · rwa [Builder.handlePull, same]

theorem plain_foldl {pulls : List Pull} (holds : builder.Plain)
    (plain : ∀ pull ∈ pulls, pull.token.kind.Plain) :
    (pulls.foldl (Builder.handlePull option) builder).Plain := by
  induction pulls generalizing builder with
  | nil => exact holds
  | cons pull rest ih =>
    obtain ⟨own, others⟩ := List.forall_mem_cons.mp plain
    exact ih (holds.handlePull own) others

end Builder

theorem plain_of_parse {option : ParseOption} {scan : Scan} {template : Template}
    {problems : List Problem} (plain : ∀ pull ∈ scan.pulls, pull.token.kind.Plain)
    (parsed : parse option scan = .ok (template, problems)) :
    Node.Every (fun _ content _ => content.Plain) template.roots := by
  simp only [parse] at parsed
  cases ending : scan.ending with
  | error fault => simp [ending, Except.map] at parsed
  | ok last =>
    simp only [ending, Except.map, Except.ok.injEq] at parsed
    have start : ({} : Builder).Plain :=
      ⟨Node.every_nil, Node.every_nil, List.forall_mem_nil _⟩
    obtain ⟨roots, dropped, stack⟩ := @Builder.plain_foldl option _ _ start plain
    have read : ((scan.pulls.foldl (Builder.handlePull option) {}).report last).Plain :=
      ⟨roots, dropped, stack⟩
    have finished : Node.Every (fun _ content _ => content.Plain)
        (Builder.finish option _).1.roots :=
      (read.finish Builder.tolerates_plain fun _ _ _ _ => trivial).1
    rw [parsed] at finished
    exact finished

structure Template.Condenses (isPre : String → Bool) (whole thin : Template) : Prop where
  /-- Number by number, also the nodes that left the tree. -/
  nodes : List.Forall₂ (Node.Agrees isPre) whole.nodes thin.nodes
  numbers : whole.nodes.map (·.id) = List.range whole.size
  roots : Node.Thins whole.roots thin.roots
  size : thin.size = whole.size
  span : thin.span = whole.span

theorem condenses_condensed {isPre : String → Bool} {whole : Template} (numbered : whole.Numbered)
    (again : (whole.condensed isPre).Numbered)
    (plain : Node.Every (fun _ content _ => content.Plain) whole.roots) :
    whole.Condenses isPre (whole.condensed isPre) := by
  have within {root node : Node} (member : root ∈ whole.roots) (inside : node ∈ root.flatten) :
      node ∈ Node.flattenAll whole.roots :=
    Node.mem_flattenAll.mpr ⟨root, member, inside⟩
  have simple : ∀ root ∈ whole.roots, root.content.Plain := fun root member =>
    plain root (within member (by simp [Node.flatten_eq]))
  obtain ⟨thins, kept, gone⟩ := Node.covered_condense simple fun root member =>
    Node.settled root fun node inside => plain node
      (within member (by simpa [Node.flattenAll] using inside))
  have counted (number : NodeId) : Node.tally number (whole.roots ++ whole.dropped) =
      (List.range whole.size).count number := by
    rw [Node.tally_append, numbered.tally]
  have recounted (number : NodeId) :
      Node.tally number ((whole.condensed isPre).roots ++ (whole.condensed isPre).dropped) =
        (List.range whole.size).count number := by
    rw [Node.tally_append, again.tally]
    rfl
  have ids := Template.nodes_ids counted
  have others : (whole.condensed isPre).nodes.map (·.id) = List.range whole.size :=
    Template.nodes_ids recounted
  refine ⟨List.forall₂_iff_get.mpr ⟨?_, fun index inside outside => ?_⟩, ids, thins, rfl, rfl⟩
  · exact (Template.length_nodes ids).trans (Template.length_nodes others).symm
  · have place := Template.id_nodes others outside
    have member := List.get_mem (whole.condensed isPre).nodes ⟨index, outside⟩
    generalize (whole.condensed isPre).nodes.get ⟨index, outside⟩ = thin at place member
    rw [Template.nodes, List.mem_mergeSort, Node.flattenAll_append, List.mem_append] at member
    obtain ⟨node, listed, agrees⟩ := member.elim (kept thin) (gone thin)
    have found := Template.nodes_getElem? counted listed
    rw [← agrees.id, place, List.getElem?_eq_getElem inside, Option.some.injEq] at found
    rw [List.get_eq_getElem, found]
    exact agrees

/-- The templates of a source, with white space kept and condensed: the problems are the same, and the
second template is the first one condensed. -/
theorem parse_both {scanning : ScanOption} {source : String} {found : List Problem}
    (option : ParseOption) (ended : (scan scanning source).ending = .ok found) :
    ∃ whole problems, parse option.preserving (scan scanning source) = .ok (whole, problems) ∧
      parse option.condensing (scan scanning source) =
        .ok (whole.condensed option.isPreformatted, problems) ∧
      Node.Every (fun _ content _ => content.Plain) whole.roots := by
  obtain ⟨read, -⟩ : _ ∧ _ := Lexer.read_scanFrom (Cursor.reaches_refl (.ofString source))
    (Lexer.reported_nil _)
  have parsed : ∃ outcome, parse option.preserving (scan scanning source) = .ok outcome := by
    simp only [parse, ended, Except.map]
    exact ⟨_, rfl⟩
  obtain ⟨⟨whole, problems⟩, kept⟩ := parsed
  have thin := parse_condensing option (scan scanning source)
  rw [kept] at thin
  exact ⟨whole, problems, kept, thin, plain_of_parse (fun pull member => (read pull member).plain) kept⟩

/-- Whether the white space of a source is kept or condensed, the problems are the same, and the
templates differ in nothing but white space. -/
theorem parse_condenses (scanning : ScanOption) (option : ParseOption) (source : String)
    (found : List Problem) (ended : (scan scanning source).ending = .ok found) :
    ∃ whole thin problems,
      parse option.preserving (scan scanning source) = .ok (whole, problems) ∧
      parse option.condensing (scan scanning source) = .ok (thin, problems) ∧
      whole.Condenses option.isPreformatted thin := by
  obtain ⟨whole, problems, kept, thin, plain⟩ := parse_both option ended
  exact ⟨whole, _, problems, kept, thin,
    condenses_condensed (numbered_of_parse kept) (numbered_of_parse thin) plain⟩

/-- Preformatted text with a line break in front, blanks around references, blanks that are read as
a reference, and an end tag that is missing. -/
def spacedSource : String :=
  "<pre>\n a  <b> </b></pre> <p> x &lt; \t y&#32;&#32; <i></i>\n<i></i> <!-- z -->  "

theorem parse_condenses_spaced : (scan {} spacedSource).ending = .ok [] ∧
    ∃ whole thin problems,
      parse (ParseOption.preserving {}) (scan {} spacedSource) = .ok (whole, problems) ∧
      parse (ParseOption.condensing {}) (scan {} spacedSource) = .ok (thin, problems) ∧
      whole.Condenses Tag.isPreformatted thin := by
  have ended : (scan {} spacedSource).ending = .ok [] := by decide +kernel
  exact ⟨ended, parse_condenses {} {} spacedSource [] ended⟩

end TemplateCompiler
