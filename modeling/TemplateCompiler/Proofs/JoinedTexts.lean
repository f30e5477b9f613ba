import TemplateCompiler.Proofs.HoistRelocation
import TemplateCompiler.Proofs.OnceCells

/-! Texts that are joined along a walk. When an element is left, each maximal run of texts among its
children gets the code of the whole run, under the number of its first node. Nothing that is done
later touches that code, so the final tree shows for every element how its texts were joined. -/

namespace TemplateCompiler

namespace TextRun

/-- Runs are as long as they can be: of two neighbours one is no text. -/
theorem isChain_runs (nodes : List Node) : (runs nodes).IsChain fun run next =>
    (run.first.isTextLike && next.first.isTextLike) = false := by
  induction nodes with
  | nil => exact .nil
  | cons node nodes ih =>
    simp only [runs]
    split
    · exact .singleton _
    · next run others same =>
      rw [same] at ih
      split
      · next both =>
        obtain ⟨own, later⟩ := Bool.and_eq_true_iff.1 both
        cases others with
        | nil => exact .singleton _
        | cons next others =>
          obtain ⟨apart, behind⟩ := List.isChain_cons_cons.1 ih
          rw [later, ← own] at apart
          exact List.isChain_cons_cons.2 ⟨apart, behind⟩
      · next apart => exact List.isChain_cons_cons.2 ⟨Bool.not_eq_true _ ▸ apart, ih⟩

/-- Each text that is left when the siblings are merged has the code of its run. -/
def Codes (table : Table) (around : Surroundings) (takesText : Bool) (grouped : List Node) : Prop :=
  ∀ run ∈ runs grouped, run.first.isTextLike = true →
    table.get? run.first.id = some
      { body := .text (call around (takesText && (runs grouped).length = 1)
          (run.first :: run.rest)) }

theorem codes_merge {around surroundings : Surroundings} (takesText : Bool) {children : List Node}
    {progress : Progress} (same : surroundings = around)
    (distinct : ∀ number, Node.tally number children ≤ 1) :
    Codes (merge surroundings takesText children progress).2.table around takesText children := by
  intro run member isText
  rw [← same]
  exact get?_foldl progress (distinct_firsts distinct) member isText

end TextRun

def Table.HasText (table : Table) (number : NodeId) (call : TextCall) : Prop :=
  table.get? number = some { body := .text call }

section Leaving

variable {number : NodeId} {call : TextCall} {progress : Progress}

theorem Progress.hasText_modifyVNode (id : NodeId) (change : VNode → VNode)
    (found : progress.table.HasText number call) :
    (progress.modifyVNode id change).table.HasText number call := by
  rw [Table.HasText] at *
  rw [Progress.get?_modifyVNode, found]
  split <;> rfl

theorem Progress.hasText_setCode {id : NodeId} (body : CodeBody) (different : number ≠ id)
    (found : progress.table.HasText number call) :
    (progress.setCode id body).table.HasText number call :=
  (Table.get?_set ..).trans ((if_neg different).trans found)

theorem Conditional.hasText_exit {node : Node} (site : Site) (different : number ≠ node.id)
    (found : progress.table.HasText number call) :
    (Conditional.exit node site progress).table.HasText number call := by
  have keyed (pairs : List (Branch × Node)) :
      (pairs.foldl (fun progress pair => keyBranch progress pair.1 pair.2) progress).table.HasText
        number call := by
    induction pairs generalizing progress with
    | nil => exact found
    | cons pair rest ih => exact ih (Progress.hasText_modifyVNode _ _ found)
  simp only [Conditional.exit]
  split
  · split
    · exact keyed _
    · exact Progress.hasText_setCode _ different (keyed _)
  · exact found

theorem Loops.hasText_exit (ordinal : Nat) {node : Node} (different : number ≠ node.id)
    (found : progress.table.HasText number call) :
    (Loops.exit ordinal node progress).table.HasText number call := by
  simp only [Loops.exit]
  split
  · exact found
  · split
    · exact Progress.hasText_setCode _ different (Progress.hasText_modifyVNode _ _ found)
    · exact found

theorem Elements.hasText_exit {node : Node} (site : Site) (different : number ≠ node.id)
    (found : progress.table.HasText number call) :
    (Elements.exit node site progress).table.HasText number call := by
  simp only [Elements.exit]
  split
  · exact Progress.hasText_setCode _ different found
  · exact found

/-- The passes that leave the code of texts alone, except on the node they leave. -/
def plainExits : List Pass :=
  [Once.pass, Conditional.pass, Loops.pass, Elements.pass]

theorem exitAll_keepsText {exits : List (Nat × Pass)} (plain : ∀ exit ∈ exits, exit.2 ∈ plainExits)
    {node : Node} (site : Site) (different : number ≠ node.id)
    (found : progress.table.HasText number call) :
    (exitAll node site progress exits).2.table.HasText number call := by
  have step : ∀ pass ∈ plainExits, ∀ ordinal site progress,
      Table.HasText progress.table number call → (pass.exit ordinal node site progress).1 = node ∧
        (pass.exit ordinal node site progress).2.table.HasText number call := by
    simp only [plainExits, List.forall_mem_cons]
    refine ⟨fun _ _ _ found => ⟨rfl, found⟩,
      fun _ site _ found => ⟨rfl, Conditional.hasText_exit site different found⟩,
      fun ordinal _ _ found => ⟨rfl, Loops.hasText_exit ordinal different found⟩,
      fun _ site _ found => ⟨rfl, Elements.hasText_exit site different found⟩,
      List.forall_mem_nil _⟩
  induction exits generalizing progress with
  | nil => exact found
  | cons exit rest ih =>
    obtain ⟨own, others⟩ := List.forall_mem_cons.1 plain
    obtain ⟨same, kept⟩ := step exit.2 own exit.1 (site.replace node) progress found
    rw [exitAll, same]
    exact ih others kept

theorem plain_once {around : Surroundings} {once : List (Nat × Pass)}
    (exits : OnceExits around once) : ∀ exit ∈ once, exit.2 ∈ plainExits := by
  rcases exits with rfl | ⟨rfl, -⟩
  · exact List.forall_mem_nil _
  · exact List.forall_mem_singleton.2 List.mem_cons_self

/-- An element is left by merging its texts; what comes after that keeps their code. -/
theorem hasText_exitElement {around : Surroundings} {once : List (Nat × Pass)}
    (exits : OnceExits around once) {id : NodeId} {element : Element} {span : Span}
    {children : List Node} {site : Site} (different : number ≠ id)
    (found : Table.HasText (TextRun.exit ⟨id, .element element, span, children⟩
      (site.replace ⟨id, .element element, span, children⟩) progress).2.table number call) :
    (exitAll ⟨id, .element element, span, children⟩ site progress
      (elementExits ++ once)).2.table.HasText number call := by
  have rest : ∀ exit ∈ (4, Elements.pass) :: once, exit.2 ∈ plainExits :=
    List.forall_mem_cons.2 ⟨by simp [plainExits], plain_once exits⟩
  have kept := @exitAll_keepsText number call _ _ rest (TextRun.exit
    ⟨id, .element element, span, children⟩ (site.replace ⟨id, .element element, span, children⟩)
    progress).1 site different found
  exact kept

/-- Merging keeps the code of what is no text among the children. -/
theorem TextRun.hasText_merge {around : Surroundings} (takesText : Bool) {children : List Node}
    (apart : ∀ child ∈ children, child.isTextLike = true → number ≠ child.id)
    (found : progress.table.HasText number call) :
    (merge around takesText children progress).2.table.HasText number call := by
  refine (get?_foldl_elsewhere progress ?_).trans found
  exact fun run member isText => apart run.first (mem_of_runs member) isText

end Leaving

/-- The children of an element come of the children that one of the given nodes had: these were
grouped, and then their texts were merged. -/
def JoinsBelow (table : Table) (given : List Node) (around : Surroundings) (element : Element)
    (node : Node) : Prop :=
  ∃ origin ∈ Node.flattenAll given, origin.id = node.id ∧
    ∃ grouped reports, Regroups 0 origin.children grouped reports ∧
      node.children = TextRun.merged grouped ∧
      TextRun.Codes table (around.inside element) (element.kind = .plain) grouped

inductive Joined (table : Table) (given : List Node) : Surroundings → Node → Prop
  | node {around : Surroundings} {node : Node}
      (own : ∀ element, node.content = .element element →
        JoinsBelow table given around element node)
      (below : ∀ child ∈ node.children, Joined table given (around.below node.content) child) :
      Joined table given around node

namespace Joined

variable {table other : Table} {given more : List Node} {around : Surroundings} {node : Node}

theorem own (joined : Joined table given around node) :
    ∀ element, node.content = .element element → JoinsBelow table given around element node := by
  cases joined with
  | node own => exact own

theorem children (joined : Joined table given around node) :
    ∀ child ∈ node.children, Joined table given (around.below node.content) child := by
  cases joined with
  | node _ below => exact below

theorem wider (joined : Joined table given around node) (embeds : Embeds given more) :
    Joined table more around node := by
  induction joined with
  | node own _ ih =>
    refine .node (fun element content => ?_) ih
    obtain ⟨origin, inside, number, grouped⟩ := own element content
    obtain ⟨outer, outside, _, same, children⟩ := embeds origin inside
    exact ⟨outer, outside, same.trans number, by rwa [children]⟩

/-- Only the code of texts below the node matters. -/
theorem keeps (joined : Joined table given around node)
    (kept : ∀ number call, 0 < Node.tally number node.children → table.HasText number call →
      other.HasText number call) : Joined other given around node := by
  induction joined with
  | @node around node own below ih =>
    refine .node (fun element content => ?_) fun child member => ?_
    · obtain ⟨origin, inside, number, grouped, reports, regroups, same, codes⟩ :=
        own element content
      refine ⟨origin, inside, number, grouped, reports, regroups, same, fun run member isText => ?_⟩
      refine kept run.first.id _ ?_ (codes run member isText)
      rw [same]
      exact Node.tally_pos_of_mem (List.mem_map_of_mem member)
    · refine ih child member fun number call present => kept number call ?_
      have := Node.tally_children_le number member
      omega

theorem along {roots above : List Node} (joined : ∀ root ∈ roots, Joined table given around root)
    (lineage : Node.Lineage roots node above) : Joined table given (around.along above) node := by
  induction lineage with
  | root member => exact joined _ member
  | child _ member ih => exact ih.children _ member

end Joined

theorem Opens.embeds {node current : Node} (opens : Opens node current) :
    Embeds current.children [node] ∧ (current.isElement = true → Embeds [current] [node]) := by
  cases opens with
  | stays =>
    refine ⟨?_, fun _ => .without node "memo"⟩
    rw [Node.without, Node.withProperties_children]
    exact .below node
  | loop => exact ⟨.without node "for", fun element => by cases element⟩
  | placeholder => exact ⟨.of_subset (List.nil_subset _), fun element => by cases element⟩

section Walks

variable {around : Surroundings} {ancestors : List NodeId} {hasSiblings : Bool} {stage : Nat}
  {done rest todo : List Node} {node current : Node} {entered : Entered} {before : Progress}
  {below : Visited}

/-- The node that was entered has children of the nodes ahead. If it is an element, it is one of
them itself, and is left as an element. -/
theorem embeds_current (ready : before.Ready around ancestors stage (node :: rest))
    (staged : stage = 0 ∨ stage = 2 ∨ stage = 3)
    (enters : enterAll 0 ⟨ancestors, hasSiblings, done, some node, rest⟩ before defaultPasses =
      .ok entered)
    (focused : entered.site.focus = some current) :
    Embeds current.children (node :: rest) ∧
      (current.isElement = true → Embeds [current] (node :: rest) ∧ ElementExits entered) := by
  have first : Embeds [node] (node :: rest) := .of_subset (by simp)
  have opened (opens : Opens node current)
      (exits : current.isElement = true → ElementExits entered) :
      Embeds current.children (node :: rest) ∧
        (current.isElement = true → Embeds [current] (node :: rest) ∧ ElementExits entered) :=
    ⟨opens.embeds.1.trans first,
      fun element => ⟨(opens.embeds.2 element).trans first, exits element⟩⟩
  rcases staged with rfl | rfl | rfl
  · cases enterAll_zeroth_shape ready enters with
    | stray _ _ _ _ site => cases (congrArg Site.focus site).symm.trans focused
    | stays _ _ opens site exits =>
      cases (congrArg Site.focus site).symm.trans focused
      exact opened opens exits
    | @chain number _ _ site =>
      have same := (Option.some.inj ((congrArg Site.focus site).symm.trans focused)).symm
      rw [same, Conditional.grouped_eq]
      have others : Embeds ((Conditional.others
          ⟨ancestors, hasSiblings, done, some node, rest⟩).found.map (·.node)) (node :: rest) := by
        cases hasSiblings with
        | true =>
          have follow := Conditional.others_alternate ⟨ancestors, true, done, some node, rest⟩ rfl
          exact follow.embeds.1.trans (.of_subset (List.subset_cons_self node rest))
        | false => exact .of_subset (List.nil_subset _)
      exact ⟨((Embeds.without node "if").trans first).append others, fun element => by cases element⟩
  · obtain ⟨branch, opens, site, exits, -⟩ := enterAll_branch_shape ready enters
    cases (congrArg Site.focus site).symm.trans focused
    exact opened opens exits
  · obtain ⟨site, exits, -⟩ := enterAll_item_shape ready enters
    cases (congrArg Site.focus site).symm.trans focused
    refine ⟨?_, fun element => ⟨(Embeds.without node "memo").trans first, exits element⟩⟩
    rw [Node.without, Node.withProperties_children]
    exact (Embeds.below node).trans first

section Left

variable (ready : before.Ready around ancestors stage (node :: rest))
  (staged : stage = 0 ∨ stage = 2 ∨ stage = 3)
  (enters : enterAll 0 ⟨ancestors, hasSiblings, done, some node, rest⟩ before defaultPasses =
    .ok entered)
  (focused : entered.site.focus = some current)
  (walked : visitAll defaultPasses (current.id :: ancestors) current.isElement [] current.children
    entered.progress = .ok below)

omit node ready staged enters focused walked in
/-- Until its parent is left a text has no code. -/
theorem apart_of_hasText {progress : Progress} {nodes : List Node} {number : NodeId}
    {call : TextCall} (finished : ∀ node ∈ nodes, Finished progress around node)
    (found : progress.table.HasText number call) :
    ∀ node ∈ nodes, node.isTextLike = true → number ≠ node.id := by
  rintro node member isText rfl
  rcases finished node member with ⟨_, _, silent, _⟩ | ⟨noText, _⟩
  · cases silent.table.symm.trans found
  · cases noText.symm.trans isText

include ready staged enters focused walked

/-- Leaving a node keeps the code of texts below it. -/
theorem hasText_left {number : NodeId} {call : TextCall} (different : number ≠ current.id)
    (found : below.progress.table.HasText number call) :
    (progressOf current entered below).table.HasText number call := by
  obtain ⟨once, exits, outcome⟩ := enterAll_outcome ready staged enters
  have plain := plain_once exits
  cases outcome with
  | gone unfocused => cases unfocused.symm.trans focused
  | leaf =>
    apply exitAll_keepsText plain _ ?_ found
    exact different
  | conditional =>
    apply exitAll_keepsText (List.forall_mem_cons.2 ⟨by simp [plainExits], plain⟩) _ ?_ found
    exact different
  | loop =>
    apply exitAll_keepsText (List.forall_mem_cons.2 ⟨by simp [plainExits], plain⟩) _ ?_ found
    exact different
  | @element site progress id element span children same _ _ _ _ inner =>
    cases same.symm.trans focused
    obtain ⟨out, same, visits, -⟩ := visitAll_visits inner (.inl rfl) walked
    rw [List.reverse_nil, List.nil_append] at same
    have apart := apart_of_hasText visits.finished found
    rw [progressOf, same]
    exact hasText_exitElement exits different (TextRun.hasText_merge _ apart found)

/-- Leaving an element gives the texts among its children their code. -/
theorem codes_left {element : Element} (content : current.content = .element element) :
    TextRun.Codes (progressOf current entered below).table (around.inside element)
      (element.kind = .plain) below.nodes := by
  obtain ⟨once, exits, outcome⟩ := enterAll_outcome ready staged enters
  cases outcome with
  | gone unfocused => cases unfocused.symm.trans focused
  | leaf same bare =>
    cases same.symm.trans focused
    rw [(Deeper.of_walked walked).bare bare]
    exact fun run member => nomatch member
  | conditional same | loop same =>
    cases same.symm.trans focused
    cases content
  | @element site progress id inner span children same place _ _ _ ready =>
    cases same.symm.trans focused
    cases content
    obtain ⟨out, same, visits, -⟩ := visitAll_visits ready (.inl rfl) walked
    rw [List.reverse_nil, List.nil_append] at same
    rw [same]
    have inside := Progress.Ready.surroundings ⟨id, .element element, span, out⟩
      (visits.ready ready) place
    have codes := @TextRun.codes_merge (around.inside element) _ (element.kind = .plain) out
      below.progress inside (visits.distinct ready)
    intro run member isText
    have different : run.first.id ≠ id := by
      intro same
      have present := Node.tally_pos_of_mem (TextRun.mem_of_runs member)
      have absent := (visits.parent ready).1
      rw [same] at present
      omega
    rw [progressOf, same]
    exact hasText_exitElement exits different (codes run member isText)

theorem joined_left (deeper : ∀ child ∈ below.nodes,
      Joined below.progress.table current.children (around.below current.content) child) :
    Joined (progressOf current entered below).table (node :: rest) around
      (leftOf current entered below) := by
  obtain ⟨number, content, fewer⟩ := leftOf_trims enters current below
  obtain ⟨outside, own⟩ := embeds_current ready staged enters focused
  refine .node (fun element isElement => ?_) fun child member => ?_
  · rw [content] at isElement
    have kind : current.isElement = true := by
      rw [Node.isElement, Node.element?, isElement]
      rfl
    obtain ⟨embeds, leaves⟩ := own kind
    obtain ⟨origin, inside, _, same, children⟩ :=
      embeds current (by simp [Node.flattenAll, Node.flatten_eq])
    obtain ⟨once, -, outcome⟩ := enterAll_outcome ready staged enters
    obtain ⟨reports, -, regroups⟩ :=
      outcome.regroups_below focused (Deeper.of_walked walked) kind
    have codes := codes_left ready staged enters focused walked isElement
    refine ⟨origin, inside, same.trans number.symm, below.nodes, reports, ?_, ?_, codes⟩
    · rw [children]
      exact regroups
    · rw [leftOf_element leaves kind]
  · have visits : Visits around hasSiblings (node :: rest) before
        [leftOf current entered below] entered.site.after (progressOf current entered below) :=
      visits_left ready staged enters focused walked
    rw [content]
    refine ((deeper child (fewer member)).wider outside).keeps fun inner call present => ?_
    apply hasText_left ready staged enters focused walked
    -- The number of the node itself is not below it.
    rintro rfl
    have owned := (visits.owned ready current.id).1
    have deep := Node.tally_children_le current.id member
    rw [Node.tally_singleton, number, List.count_singleton_self] at owned
    omega

end Left

/-- A walk over a list of nodes joins the texts of all elements. -/
theorem visitAll_joined {visited : Visited} (ready : before.Ready around ancestors stage todo)
    (staged : stage = 0 ∨ stage = 2 ∨ stage = 3)
    (walked : visitAll defaultPasses ancestors hasSiblings done todo before = .ok visited) :
    ∃ out, visited.nodes = done.reverse ++ out ∧
      ∀ made ∈ out, Joined visited.progress.table todo around made := by
  fun_induction visitAll defaultPasses ancestors hasSiblings done todo before
    generalizing around stage visited with
  | case1 =>
    cases walked
    exact ⟨[], (List.append_nil _).symm, List.forall_mem_nil _⟩
  | case2 => cases walked
  | case3 ancestors hasSiblings done progress node rest entered enters unfocused ih =>
    obtain ⟨rfl, visits⟩ := visits_gone ready staged enters unfocused
    obtain ⟨out, same, joined⟩ := ih (visits.ready ready) (.inl rfl) walked
    exact ⟨out, same, fun made member => (joined made member).wider (.of_subset visits.subset)⟩
  | case4 => cases walked
  | case5 ancestors hasSiblings done progress node rest entered enters current focused below
      walkedBelow left ihBelow =>
    rename_i ihRest
    have deeper : ∀ child ∈ below.nodes,
        Joined below.progress.table current.children (around.below current.content) child := by
      obtain ⟨once, -, outcome⟩ := enterAll_outcome ready staged enters
      by_cases leaf : current.children = []
      · rw [(Deeper.of_walked walkedBelow).bare leaf]
        exact List.forall_mem_nil _
      · obtain ⟨depth, staged, inner⟩ := outcome.inner focused leaf
        obtain ⟨out, same, joined⟩ := ihBelow inner staged walkedBelow
        rw [List.reverse_nil, List.nil_append] at same
        exact same ▸ joined
    have own := joined_left ready staged enters focused walkedBelow deeper
    have visits : Visits around hasSiblings (node :: rest) progress [left.1] entered.site.after
        left.2 := visits_left ready staged enters focused walkedBelow
    obtain ⟨out, same, joined⟩ := ihRest (visits.ready ready) (.inl rfl) walked
    -- Visiting what follows does not change the code of the node and of what is below it.
    have kept (number : NodeId) (present : 0 < Node.tally number [left.1]) :
        visited.progress.table.get? number = left.2.table.get? number := by
      obtain ⟨_, _, later, -⟩ := visitAll_visits (visits.ready ready) (.inl rfl) walked
      exact (visits.agrees_front ready later.toMoves present).table
    refine ⟨left.1 :: out, ?_, List.forall_mem_cons.2 ⟨?_, fun made member => ?_⟩⟩
    · rw [same, List.reverse_cons, List.append_assoc]
      rfl
    · refine own.keeps fun number call present found => (kept number ?_).trans found
      have := Node.tally_children_le number (List.mem_singleton_self left.1)
      exact Nat.lt_of_lt_of_le present this
    · exact (joined made member).wider (.of_subset visits.subset)

end Walks

theorem Elements.hasText_exitRoot (roots : List Node) {progress : Progress} {number : NodeId}
    {call : TextCall} (found : progress.table.HasText number call) :
    (Elements.exitRoot roots progress).table.HasText number call := by
  simp only [Elements.exitRoot]
  split
  · exact found
  · exact Progress.hasText_modifyVNode _ _ found
  · exact found

theorem walk_joined {option : LowerOption} {template : Template} {roots : List Node}
    {progress : Progress} (numbered : template.Numbered)
    (walked : walk defaultPasses template.roots
      (option.start template) = .ok (roots, progress)) :
    (∃ grouped reports, Regroups 0 template.roots grouped reports ∧
      roots = TextRun.merged grouped ∧
      TextRun.Codes progress.table option.surroundings true grouped) ∧
    ∀ root ∈ roots,
      Joined progress.table template.roots option.surroundings root := by
  obtain ⟨visited, visiting, left⟩ := ok_of_map_eq_ok walked
  have ready := numbered.ready option
  obtain ⟨out, same, joined⟩ := visitAll_joined ready (.inl rfl) visiting
  obtain ⟨_, again, visits, -⟩ := visitAll_visits ready (.inl rfl) visiting
  obtain ⟨_, reports, equal, -, rewrites⟩ := visitAll_rewrites ready (.inl rfl) visiting
  rw [List.reverse_nil, List.nil_append] at same again equal
  cases same.symm.trans again
  cases same.symm.trans equal
  have codes := @TextRun.codes_merge option.surroundings _ true out visited.progress
    (visits.surroundings_root ready) (visits.distinct ready)
  -- Only the passes for texts and for elements do something at the root.
  have leaves : exitRootAll out visited.progress defaultPasses =
      (TextRun.merged out, Elements.exitRoot (TextRun.merged out)
        (TextRun.exitRoot out visited.progress).2) := rfl
  rw [same, leaves] at left
  cases left
  refine ⟨⟨out, reports, rewrites.siblings rfl rfl, rfl, fun run member isText => ?_⟩,
    fun root member => ?_⟩
  · exact Elements.hasText_exitRoot _ (codes run member isText)
  · obtain ⟨run, listed, rfl⟩ := List.mem_map.1 member
    refine (joined _ (TextRun.mem_of_runs listed)).keeps fun number call _ found => ?_
    exact Elements.hasText_exitRoot _
      (TextRun.hasText_merge true (apart_of_hasText visits.finished found) found)

theorem OnceNoted.unmarked_of_text {progress : Progress} {node : Node}
    (noted : OnceNoted progress node) (isText : node.isTextLike = true) :
    progress.marks.get? node.id = none := by
  obtain ⟨id, content, span, children⟩ := node
  cases marked : progress.marks.get? id with
  | none => rfl
  | some mark =>
    cases mark with
    | once =>
      cases noted.once marked with
      | branch => cases isText
      | alone repeats =>
        cases repeats with
        | element directed =>
          have element := Node.isElement_of_hasDirective directed
          rw [Node.isTextLike_of_isElement element] at isText
          cases isText
        | placeholder isComment =>
          cases content with
          | comment => cases isText
          | _ => cases isComment
        | loop => cases isText
    | memo =>
      rw [Node.isTextLike_of_isElement (noted.memo marked).1] at isText
      cases isText

/-- A text keeps its code to the end: it is not moved and has no cell. -/
theorem Stages.hasText {option : LowerOption} {template : Template} {roots : List Node}
    {progress : Progress} {plan : Plan} {node : Node} {call : TextCall}
    (stages : Stages option template roots progress plan) (noted : OnceNoted progress node)
    (isText : node.isTextLike = true) (found : progress.table.HasText node.id call) :
    plan.table.HasText node.id call := by
  by_cases hoisted : node.id ∈ hoistedIds option roots progress
  · obtain ⟨_, _, same, _⟩ := stages.moves found hoisted
    cases same
  · obtain ⟨final, code, recoded⟩ := stages.stays found hoisted
    rcases recoded.eq_or_props (noted.unmarked_of_text isText) with rfl | ⟨_, _, _, _, same, _⟩
    · exact code
    · cases same

end TemplateCompiler
