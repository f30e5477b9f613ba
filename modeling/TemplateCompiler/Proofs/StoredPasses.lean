import TemplateCompiler.Lowering.Visitor
import TemplateCompiler.Proofs.StoredWalks

/-! Each visitor of lowering does with stored nodes what its pass does in a tree. -/

namespace TemplateCompiler

open Walking

namespace Context.Shows

variable {context : Context} {frame : Frame} {site : Site} {node : Node}
  {progress later : Progress}

theorem look (shows : context.Shows frame site progress) (focused : site.focus = some node) :
    Runs (look node.id) context node.bare context := by
  refine @runs_look _ _ node.cell (shows.stored ?_)
  simp [Site.nodes, focused]

theorem inOnce (shows : context.Shows frame site progress) :
    Runs Walking.inOnce context (progress.inOnce site) context := by
  refine runs_get.bind (shows.runs_current.bind ?_)
  have same : ((site.focus.map (·.id)).toList ++ context.ancestors).any
      context.progress.onceNodes.contains = progress.inOnce site := by
    rw [shows.ancestors_eq, shows.progress_eq, ← shows.around_eq, List.any_append,
      List.any_reverse, ← List.any_append]
    rfl
  rw [same]
  exact runs_pure _

theorem surroundings (shows : context.Shows frame site progress) :
    Runs Walking.surroundings context (progress.surroundings site) context := by
  refine runs_get.bind (shows.inOnce.bind ?_)
  rw [shows.progress_eq]
  exact runs_pure _

theorem take {α : Type} (shows : context.Shows frame site progress) {reported : Reported α}
    (fits : reported.fault? = none) :
    ∃ after, Runs (Walking.take reported) context reported.value after ∧
      after.Shows frame site (progress.absorb reported) := by
  obtain ⟨after, takes, owns, slot⟩ := shows.toOwns.take fits
  exact ⟨after, takes, owns, slot.trans shows.slot_eq, shows.around_eq, shows.siblings_eq⟩

theorem setContent (shows : context.Shows frame site progress) (focused : site.focus = some node)
    (content : Content) : ∃ after, Runs (Walking.setContent node.id content) context () after ∧
      after.Shows frame (site.replace { node with content }) progress := by
  have owns := shows.toOwns
  rw [Site.nodes_of_focus focused] at owns
  obtain ⟨after, runs, changed, slot⟩ := owns.setContent content
  have listing : (site.replace { node with content }).nodes =
      site.before.reverse ++ { node with content } :: site.after := Site.nodes_of_focus rfl
  refine ⟨after, runs, ?_, ?_, shows.around_eq, shows.siblings_eq⟩
  · rw [listing]
    rw [List.map_append, List.map_cons] at changed ⊢
    exact changed
  · rw [slot, shows.slot_eq, focused]
    rfl

/-- A new node comes in place of the one in focus, and may have it as its child. -/
theorem exchange (shows : context.Shows frame site progress) (focused : site.focus = some node)
    {new : Node} (number : new.id = progress.next) (below : new.children.Sublist [node])
    (next : later.next = progress.next + 1) (noted : later.bare = progress.bare) :
    ∃ middle after, Runs (alloc new.cell) context new.id middle ∧
      Runs (replaceNode new.id) middle () after ∧ after.Shows frame (site.replace new) later := by
  have owns := shows.toOwns
  rw [Site.nodes_of_focus focused] at owns
  have listing : (site.replace new).nodes = site.before.reverse ++ new :: site.after :=
    Site.nodes_of_focus rfl
  rw [List.map_append, List.map_cons] at owns
  have place : context.slot = { parent := frame.parent?, index := site.before.reverse.length } := by
    rw [shows.slot_eq, focused, List.length_reverse]
    rfl
  obtain ⟨middle, after, allocs, replaces, last, still⟩ :=
    owns.exchange place number below next noted
  refine ⟨middle, after, allocs, replaces, ⟨?_, ?_, shows.around_eq, shows.siblings_eq⟩⟩
  · rw [listing]
    exact last
  · rw [still, shows.slot_eq, focused]
    rfl

end Context.Shows

namespace Node

@[simp]
theorem properties_bare (node : Node) : node.bare.properties = node.properties :=
  rfl

theorem withProperties_bare (node : Node) (properties : Properties) :
    node.bare.withProperties properties = (node.withProperties properties).bare := by
  obtain ⟨id, content, span, children⟩ := node
  cases content with
  | element given => rfl
  | comment | text | interpolation | conditional | loop => rfl

theorem content_withProperties (node : Node) (properties : Properties) :
    { node with content := (node.withProperties properties).content } =
      node.withProperties properties := by
  obtain ⟨id, content, span, children⟩ := node
  cases content with
  | element given => rfl
  | comment | text | interpolation | conditional | loop => rfl

end Node

@[simp]
theorem Progress.report_nil (progress : Progress) : progress.report [] = progress := by
  rw [report, List.append_nil]

theorem Progress.report_append (progress : Progress) (first second : List Problem) :
    (progress.report first).report second = progress.report (first ++ second) := by
  simp only [report, List.append_assoc]

theorem Progress.inOnce_replace {progress : Progress} {site : Site} {node other : Node}
    (focused : site.focus = some node) (same : other.id = node.id) :
    progress.inOnce (site.replace other) = progress.inOnce site := by
  simp only [inOnce, Site.replace, focused, Option.map_some, same]

theorem Context.Shows.setProperties {context : Context} {frame : Frame} {site : Site} {node : Node}
    {progress : Progress} (shows : context.Shows frame site progress)
    (focused : site.focus = some node) (properties : Properties) : ∃ after,
      Runs (Walking.setContent node.id (node.bare.withProperties properties).content) context ()
        after ∧ after.Shows frame (site.replace (node.withProperties properties)) progress := by
  rw [← node.content_withProperties properties, node.withProperties_bare]
  exact shows.setContent focused _

theorem Once.visitor_simulates (safe : Node → Progress → Prop) (ordinal : Nat) :
    visitor.Simulates safe ordinal Once.pass where
  enter {frame context site node progress entrance} shows focused sound enters _ := by
    cases enters
    unfold Once.enter
    split
    · next first =>
      obtain ⟨after, notes, shown⟩ := shows.note
        (fun progress => { progress with onceNodes := node.id :: progress.onceNodes })
        { progress with onceNodes := node.id :: progress.onceNodes } rfl rfl
      refine ⟨rfl, after, (shows.look focused).bind (shows.inOnce.bind ?_), shown⟩
      exact (if_pos first) ▸ notes.bind (runs_pure true)
    · next inside =>
      refine ⟨rfl, context, (shows.look focused).bind (shows.inOnce.bind ?_), shows⟩
      exact (if_neg inside) ▸ runs_pure false
  exit {frame context site node progress} shows _ _ _ := by
    obtain ⟨after, notes, shown⟩ := shows.note
      (fun progress => { progress with marks := progress.marks.insert node.id .once })
      (Once.exit node progress) rfl rfl
    exact ⟨rfl, after, notes, shown⟩
  exitRoot owns _ _ := ⟨_, runs_pure (), owns⟩

theorem Progress.fault?_of_absorb {α : Type} {progress : Progress} {reported : Reported α}
    (kept : (progress.absorb reported).fault? = none) : reported.fault? = none := by
  unfold Progress.absorb at kept
  exact (Option.or_eq_none_iff.1 kept).2

theorem Directive.expression_of_emptyProblem? {directive : Directive} {kind : ProblemKind}
    (given : directive.emptyProblem? kind = none) : directive.expression ≠ none := by
  intro missing
  simp [emptyProblem?, isEmpty, missing] at given

theorem Memo.keepStored_simulates {context : Context} {frame : Frame} {site : Site} {node : Node}
    {progress : Progress} {value : Value} (shows : context.Shows frame site progress)
    (kept : (keep node site progress value).fault? = none) :
    ∃ after, Runs (keepStored node.id value) context () after ∧
      after.Shows frame site (keep node site progress value) := by
  have fits : ((progress.surroundings site).resolveValue value).fault? = none :=
    Progress.fault?_of_absorb kept
  obtain ⟨taken, takes, absorbed⟩ := shows.take fits
  obtain ⟨after, notes, shown⟩ := absorbed.note
    (fun later =>
      { later with
        memoDependencies := later.memoDependencies.insert node.id
          ((progress.surroundings site).resolveValue value).value
        marks := later.marks.insertNew node.id .memo })
    (keep node site progress value) rfl rfl
  exact ⟨after, shows.surroundings.bind (takes.bind notes), shown⟩

theorem Memo.visitor_simulates (safe : Node → Progress → Prop) (ordinal : Nat) :
    visitor.Simulates safe ordinal Memo.pass where
  enter {frame context site node progress entrance} shows focused sound enters kept := by
    have looks := shows.look focused
    have same := Except.ok.inj enters
    simp only [Memo.enter] at same
    cases taken : (node.properties.takeDirective (· == "memo")).1 with
    | none =>
      rw [taken] at same
      subst same
      refine ⟨rfl, context, looks.bind ?_, shows⟩
      simp only [Node.properties_bare, taken]
      exact runs_pure false
    | some directive =>
      rw [taken] at same
      dsimp only at same
      let rest := node.withProperties (node.properties.takeDirective (· == "memo")).2
      have number : rest.id = node.id := Node.withProperties_id _ _
      obtain ⟨changed, changes, shown⟩ :=
        shows.setProperties focused (node.properties.takeDirective (· == "memo")).2
      -- What is left is to read the directive.
      suffices reads : entrance.site.before = site.before ∧ entrance.exits = false ∧
          ∃ after, Runs (readMemo node.id directive) changed () after ∧
            after.Shows frame entrance.site entrance.progress by
        obtain ⟨before, exits, after, reads, last⟩ := reads
        refine ⟨before, after, looks.bind ?_, last⟩
        simp only [Node.properties_bare, taken, exits]
        exact changes.bind (reads.bind (runs_pure false))
      unfold readMemo
      cases empty : directive.emptyProblem? .memoWithoutExpression with
      | some problem =>
        rw [empty] at same
        subst same
        obtain ⟨after, notes, noted⟩ :=
          shown.note (·.report [problem]) (progress.report [problem]) rfl rfl
        exact ⟨rfl, rfl, after, notes, noted⟩
      | none =>
        cases given : directive.expression with
        | none => exact absurd given (Directive.expression_of_emptyProblem? empty)
        | some value =>
          rw [empty, given] at same
          have asks := shown.inOnce
          rw [Progress.inOnce_replace focused number] at asks
          dsimp only at same
          split at same
          · next inside =>
            subst same
            rw [inside] at asks
            exact ⟨rfl, rfl, changed, asks.bind (runs_pure ()), shown⟩
          · next outside =>
            subst same
            rw [Bool.not_eq_true] at outside
            rw [outside] at asks
            obtain ⟨after, keeps, last⟩ := keepStored_simulates shown kept
            rw [Node.withProperties_id] at keeps
            exact ⟨rfl, rfl, after, asks.bind keeps, last⟩
  exit shows _ _ _ := ⟨rfl, _, runs_pure (), shows⟩
  exitRoot owns _ _ := ⟨_, runs_pure (), owns⟩

section Lists

variable {context : Context} {frame : Frame} {list : List NodeId} {forest : List Node}
  {progress : Progress}

theorem runs_mapM_look {nodes : List Node}
    (stored : ∀ node ∈ nodes, context.cells[node.id]? = some node.cell) :
    Runs ((nodes.map (·.id)).mapM look) context (nodes.map Node.bare) context := by
  induction nodes with
  | nil => exact runs_pure []
  | cons node rest ih =>
    obtain ⟨own, others⟩ := List.forall_mem_cons.1 stored
    rw [List.map_cons, List.mapM_cons]
    exact (runs_look own).bind ((ih others).bind (runs_pure _))

end Lists

theorem Elements.exitRoot_bare (roots : List Node) (progress : Progress) :
    exitRoot (roots.map Node.bare) progress.bare = (exitRoot roots progress).bare ∧
      (exitRoot roots progress).next = progress.next := by
  match roots with
  | [] => exact ⟨rfl, rfl⟩
  | [only] => exact ⟨rfl, rfl⟩
  | first :: second :: rest =>
    refine ⟨?_, rfl⟩
    simp only [exitRoot, List.map_cons, List.map_map]
    rfl

theorem Elements.visitor_simulates (safe : Node → Progress → Prop) (ordinal : Nat) :
    visitor.Simulates safe ordinal Elements.pass where
  enter {frame context site node progress entrance} shows focused sound enters _ := by
    cases enters
    have stored := runs_stored (@Context.Owns.stored _ _ _ _ node _ shows.toOwns
      (by simp [Site.nodes, focused]))
    obtain ⟨id, content, span, children⟩ := node
    cases content with
    | comment source =>
      obtain ⟨after, notes, shown⟩ := shows.note (·.setCode id (.comment source))
        (progress.setCode id (.comment source)) rfl rfl
      exact ⟨rfl, after, stored.bind (notes.bind (runs_pure false)), shown⟩
    | element element => exact ⟨rfl, context, stored.bind (runs_pure true), shows⟩
    | text | interpolation | conditional | loop =>
      exact ⟨rfl, context, stored.bind (runs_pure false), shows⟩
  exit {frame context site node progress} shows sound kept _ := by
    have stored := runs_stored (@Context.Owns.stored _ _ _ _ node _ shows.toOwns
      (by simp [Site.nodes, Site.replace]))
    obtain ⟨id, content, span, children⟩ := node
    cases content with
    | element element =>
      let lowered := lowerElement
        (progress.surroundings (site.replace ⟨id, .element element, span, children⟩))
        progress.table element (children.map (·.id))
      obtain ⟨listed, lists, shown⟩ :=
        shows.note (addAssets element) (addAssets element progress) rfl rfl
      have fits : lowered.fault? = none :=
        @Progress.fault?_of_absorb _ (addAssets element progress) _ kept
      obtain ⟨taken, takes, absorbed⟩ := shown.take fits
      obtain ⟨after, notes, last⟩ := absorbed.note (·.setCode id (.vnode lowered.value))
        (((addAssets element progress).absorb lowered).setCode id (.vnode lowered.value)) rfl rfl
      refine ⟨rfl, after, stored.bind (runs_get.bind (shows.surroundings.bind (lists.bind ?_))), last⟩
      rw [shows.progress_eq]
      exact takes.bind notes
    | comment | text | interpolation | conditional | loop =>
      exact ⟨rfl, context, stored.bind (runs_pure ()), shows⟩
  exitRoot {context roots progress} owns sound kept := by
    have looks := @runs_mapM_look context roots fun node member => owns.stored member
    obtain ⟨same, next⟩ := exitRoot_bare roots progress
    obtain ⟨after, notes, last, -⟩ :=
      owns.note (exitRoot (roots.map Node.bare)) (exitRoot roots progress) same next
    refine ⟨after, runs_get.bind ?_, last⟩
    have listed : context.roots = roots.map (·.id) := Option.some.inj owns.listed
    rw [listed]
    exact looks.bind notes

namespace TextRun

variable {around : Surroundings}

theorem runs_of_noText {node : Node} {nodes : List Node} (noText : node.isTextLike = false) :
    runs (node :: nodes) = { first := node } :: runs nodes := by
  rw [runs]
  cases runs nodes with
  | nil => rfl
  | cons run others =>
    rw [noText]
    rfl

theorem first_of_runs {node : Node} {nodes : List Node} :
    ∃ rest others, runs (node :: nodes) = { first := node, rest } :: others := by
  rw [runs]
  cases runs nodes with
  | nil => exact ⟨_, _, rfl⟩
  | cons run others =>
    dsimp only
    split
    · exact ⟨_, _, rfl⟩
    · exact ⟨_, _, rfl⟩

/-- Texts in front of something else, or of the end, are a run. -/
theorem runs_of_texts {first : Node} {rest nodes : List Node}
    (texts : ∀ node ∈ first :: rest, node.isTextLike = true)
    (stops : ∀ node ∈ nodes.head?, node.isTextLike = false) :
    runs (first :: rest ++ nodes) = { first, rest } :: runs nodes := by
  induction rest generalizing first with
  | nil =>
    cases nodes with
    | nil => rfl
    | cons node nodes =>
      obtain ⟨rest, others, same⟩ := @first_of_runs node nodes
      rw [List.singleton_append, runs, same]
      simp [stops node rfl]
  | cons second rest ih =>
    obtain ⟨own, others⟩ := List.forall_mem_cons.1 texts
    have next := others second List.mem_cons_self
    have later := ih others
    rw [List.cons_append] at later ⊢
    rw [List.cons_append, runs, later]
    simp [own, next]

theorem head_cons (first : Node) (rest : List Node) : head (first :: rest) = .ok first :=
  rfl

theorem gather_eq {run nodes : List Node} (texts : ∀ node ∈ run, node.isTextLike = true) :
    gather run nodes = .ok ((runs (run ++ nodes)).map (·.first.id),
      ((runs (run ++ nodes)).filter (·.first.isTextLike)).map fun run => run.first :: run.rest) := by
  induction nodes generalizing run with
  | nil =>
    cases run with
    | nil => rfl
    | cons first rest =>
      rw [runs_of_texts texts (by rintro node ⟨⟩)]
      simp [gather, head_cons, runs, texts first List.mem_cons_self]
  | cons node nodes ih =>
    rw [gather]
    split
    · next text =>
      rw [ih (List.forall_mem_append.2 ⟨texts, List.forall_mem_singleton.2 text⟩),
        List.append_assoc, List.singleton_append]
    · next noText =>
      rw [Bool.not_eq_true] at noText
      rw [ih (List.forall_mem_nil _), List.nil_append]
      cases run with
      | nil =>
        simp [runs_of_noText noText, noText]
      | cons first rest =>
        rw [runs_of_texts texts (by rintro other ⟨⟩; exact noText), runs_of_noText noText]
        simp [head_cons, noText, texts first List.mem_cons_self]
        rfl

/-- A run without what is below its nodes. -/
def Run.bare (run : Run) : Run :=
  { first := run.first.bare, rest := run.rest.map Node.bare }

theorem runs_bare (nodes : List Node) : runs (nodes.map Node.bare) = (runs nodes).map Run.bare := by
  induction nodes with
  | nil => rfl
  | cons node nodes ih =>
    rw [List.map_cons, runs, ih, runs]
    cases runs nodes with
    | nil => rfl
    | cons run others =>
      change (if node.isTextLike && run.first.isTextLike then _ else _) = _
      dsimp only
      split
      · rfl
      · rfl

theorem part_congr {other : Surroundings} (reader : around.reader = other.reader)
    (scope : around.scope = other.scope) : part around = part other := by
  funext node
  unfold part Surroundings.resolve
  rw [reader, scope]

theorem merge_congr {other : Surroundings} (reader : around.reader = other.reader)
    (scope : around.scope = other.scope) (takesText : Bool) (nodes : List Node)
    (progress : Progress) :
    merge around takesText nodes progress = merge other takesText nodes progress := by
  have same (fastPath : Bool) : write around fastPath = write other fastPath := by
    funext progress run
    unfold write
    rw [part_congr reader scope]
  unfold merge
  simp only [same]

variable {context : Context} {frame : Frame} {list : List NodeId} {forest : List Node}
  {progress : Progress} {fastPath : Bool}

theorem fault?_of_foldl_write {found : List Run}
    (kept : (found.foldl (write around fastPath) progress).fault? = none) :
    progress.fault? = none := by
  induction found generalizing progress with
  | nil => exact kept
  | cons run rest ih =>
    have first := ih kept
    unfold write at first
    split at first
    · exact (Option.or_eq_none_iff.1 first).1
    · exact first

theorem mapM_part_bare (nodes : List Node) :
    (nodes.map Node.bare).mapM (part around) = nodes.mapM (part around) := by
  suffices looped : ∀ done, List.mapM.loop (part around) (nodes.map Node.bare) done =
      List.mapM.loop (part around) nodes done from looped []
  induction nodes with
  | nil => exact fun _ => rfl
  | cons node rest ih =>
    intro done
    rw [List.map_cons, List.mapM.loop, List.mapM.loop]
    exact congrArg (part around node >>= ·) (funext fun expr => ih (expr :: done))

theorem writeRun_simulates {run : Run} (owns : context.Owns frame list forest progress)
    (text : run.first.isTextLike = true)
    (kept : (write around fastPath progress run).fault? = none) :
    ∃ after, Runs (writeRun around fastPath (run.bare.first :: run.bare.rest)) context () after ∧
      after.Owns frame list forest (write around fastPath progress run) ∧
      after.slot = context.slot := by
  let parts := (run.first :: run.rest).mapM (part around)
  have same : (run.bare.first :: run.bare.rest).mapM (part around) = parts :=
    mapM_part_bare (run.first :: run.rest)
  have written : write around fastPath progress run = (progress.absorb parts).setCode run.first.id
      (.text { fastPath, needPatch := parts.value.any fun expr => !expr.level.isStatic,
               parts := parts.value }) := by
    rw [write, if_pos text]
  rw [written] at kept ⊢
  have fits : parts.fault? = none := @Progress.fault?_of_absorb _ progress _ kept
  obtain ⟨taken, takes, absorbed, place⟩ := owns.take fits
  let body : CodeBody := .text
    { fastPath, needPatch := parts.value.any fun expr => !expr.level.isStatic, parts := parts.value }
  obtain ⟨after, notes, last, still⟩ := absorbed.note (·.setCode run.first.id body)
    ((progress.absorb parts).setCode run.first.id body) rfl rfl
  refine ⟨after, ?_, last, still.trans place⟩
  unfold writeRun
  rw [same]
  exact takes.bind ((runs_fallible (head_cons run.bare.first run.bare.rest)).bind notes)

theorem writeRuns_simulates {found : List Run} (owns : context.Owns frame list forest progress)
    (kept : (found.foldl (write around fastPath) progress).fault? = none) :
    ∃ after,
      Runs (((((found.map Run.bare).filter (·.first.isTextLike)).map fun run =>
        run.first :: run.rest)).forM (writeRun around fastPath)) context () after ∧
      after.Owns frame list forest (found.foldl (write around fastPath) progress) ∧
      after.slot = context.slot := by
  induction found generalizing progress context with
  | nil => exact ⟨context, runs_pure (), owns, rfl⟩
  | cons run rest ih =>
    have first : (write around fastPath progress run).fault? = none :=
      @fault?_of_foldl_write _ _ _ rest kept
    rw [List.map_cons, List.filter_cons]
    by_cases text : run.first.isTextLike = true
    · obtain ⟨middle, writes, held, place⟩ := writeRun_simulates owns text first
      obtain ⟨after, runs, last, still⟩ := ih held kept
      refine ⟨after, ?_, last, still.trans place⟩
      rw [if_pos (show run.bare.first.isTextLike = true from text), List.map_cons]
      exact writes.bind runs
    · have same : write around fastPath progress run = progress := if_neg text
      rw [List.foldl_cons, same] at kept ⊢
      rw [if_neg (show ¬ run.bare.first.isTextLike = true from text)]
      exact ih owns kept

theorem merge_of_noText {takesText : Bool} {nodes : List Node}
    (noText : nodes.any Node.isTextLike = false) :
    merge around takesText nodes progress = (nodes, progress.drop []) := by
  have each : ∀ node ∈ nodes, node.isTextLike = false := by
    intro node member
    have := List.any_eq_false.1 noText node member
    rwa [Bool.not_eq_true] at this
  have single : runs nodes = nodes.map fun node => { first := node } := by
    clear noText
    induction nodes with
    | nil => rfl
    | cons node rest ih =>
      obtain ⟨own, others⟩ := List.forall_mem_cons.1 each
      rw [runs_of_noText own, ih others, List.map_cons]
  have unwritten (fastPath : Bool) :
      (nodes.map fun node => ({ first := node } : Run)).foldl (write around fastPath) progress =
        progress := by
    clear single noText
    induction nodes with
    | nil => rfl
    | cons node rest ih =>
      obtain ⟨own, others⟩ := List.forall_mem_cons.1 each
      have same : write around fastPath progress { first := node } = progress :=
        if_neg (by simp [own])
      rw [List.map_cons, List.foldl_cons, same, ih others]
  have nothing : (runs nodes).flatMap (·.rest) = [] := by
    rw [single, List.flatMap_eq_nil_iff]
    simp
  have firsts : (runs nodes).map (·.first) = nodes := by
    rw [single, List.map_map]
    exact List.map_id nodes
  simp only [merge, nothing, firsts]
  rw [single, unwritten]

theorem mergeStored_of_noText {parent : Option NodeId} {takesText : Bool} {nodes : List Node}
    (listed : context.list? parent = some (nodes.map (·.id)))
    (stored : ∀ node ∈ nodes, context.cells[node.id]? = some node.cell)
    (noText : nodes.any Node.isTextLike = false) :
    Runs (mergeStored parent takesText) context () context := by
  have absent : ¬ (nodes.map Node.bare).any Node.isTextLike = true := by
    rw [List.any_map]
    exact Bool.not_eq_true _ ▸ noText
  unfold mergeStored
  refine (runs_childrenOf listed).bind ((runs_mapM_look stored).bind ?_)
  rw [if_neg absent]
  exact runs_pure ()

/-- Up to the place where the children are set, merging writes what the pass writes. -/
theorem mergeStored_simulates {parent : Option NodeId} {takesText : Bool} {nodes : List Node}
    (owns : context.Owns frame list forest progress)
    (listed : context.list? parent = some (nodes.map (·.id)))
    (stored : ∀ node ∈ nodes, context.cells[node.id]? = some node.cell)
    (texts : nodes.any Node.isTextLike = true) (reader : around.reader = progress.reader)
    (scope : around.scope = progress.scope)
    (kept : (merge around takesText nodes progress).2.fault? = none) :
    ∃ middle, middle.Owns frame list forest (merge around takesText nodes progress).2 ∧
      middle.slot = context.slot ∧
      ∀ after, Runs (setChildren ((merge around takesText nodes progress).1.map (·.id)) parent) middle
        () after → Runs (mergeStored parent takesText) context () after := by
  rw [@merge_congr _ (progress.bare.surroundings {}) reader scope] at kept ⊢
  obtain ⟨middle, writes, held, slot⟩ := @writeRuns_simulates (progress.bare.surroundings {}) _ _ _ _
    _ (takesText && (runs nodes).length = 1) (runs nodes) owns kept
  refine ⟨middle, held.of_eq rfl rfl rfl held.progress_eq rfl, slot, fun after sets => ?_⟩
  have gathered := @gather_eq [] (nodes.map Node.bare) (List.forall_mem_nil _)
  rw [List.nil_append, runs_bare, List.map_map] at gathered
  have present : (nodes.map Node.bare).any Node.isTextLike = true := by
    rw [List.any_map]
    exact texts
  unfold mergeStored
  refine (runs_childrenOf listed).bind ((runs_mapM_look stored).bind ?_)
  rw [if_pos present]
  refine (runs_fallible gathered).bind (runs_get.bind ?_)
  dsimp only
  rw [owns.progress_eq, List.length_map]
  refine writes.bind ?_
  have same : (merge (progress.bare.surroundings {}) takesText nodes progress).1.map (·.id) =
      (runs nodes).map ((·.first.id) ∘ Run.bare) := by
    simp only [merge, List.map_map]
    rfl
  rw [← same]
  exact sets

theorem flattenAll_merge_subset {takesText : Bool} (nodes : List Node) :
    Node.flattenAll (merge around takesText nodes progress).1 ⊆ Node.flattenAll nodes := by
  intro inner member
  obtain ⟨node, listed, inside⟩ := Node.exists_of_mem_flattenAll member
  exact Node.flatten_subset_flattenAll (merge_subset around takesText nodes progress listed) inner
    inside

theorem tally_merge_le {takesText : Bool} (nodes : List Node) (number : NodeId) :
    Node.tally number (merge around takesText nodes progress).1 ≤ Node.tally number nodes := by
  have total := tally_runs number (runs nodes)
  rw [flatMap_runs] at total
  simp only [merge]
  omega

/-- The texts among the children of an element are merged. -/
theorem mergeChildren_simulates {front back : List Node} {node : Node} {takesText : Bool}
    (owns : context.Owns frame list (front ++ node :: back) progress)
    (reader : around.reader = progress.reader) (scope : around.scope = progress.scope)
    (kept : (merge around takesText node.children progress).2.fault? = none) :
    ∃ after, Runs (mergeStored (some node.id) takesText) context () after ∧
      after.Owns frame list
        (front ++ { node with children := (merge around takesText node.children progress).1 } :: back)
        (merge around takesText node.children progress).2 ∧
      after.slot = context.slot := by
  have member : node ∈ front ++ node :: back := List.mem_append_right front List.mem_cons_self
  have listed : context.list? (some node.id) = some (node.children.map (·.id)) := by
    rw [Context.list?, owns.stored member]
    rfl
  have below : ∀ child ∈ Node.flattenAll node.children,
      child ∈ Node.flattenAll (front ++ node :: back) := by
    intro inner inside
    refine Node.flatten_subset_flattenAll member inner ?_
    rw [Node.flatten_eq]
    exact List.mem_cons_of_mem node inside
  have stored := owns.stored_children member
  by_cases texts : node.children.any Node.isTextLike = true
  · obtain ⟨middle, held, slot, runs⟩ :=
      mergeStored_simulates owns listed stored texts reader scope kept
    have found := held.stored member
    have inside := (Array.getElem?_eq_some_iff.1 found).1
    have fewer := @tally_merge_le around progress takesText node.children
    have subset := @flattenAll_merge_subset around progress takesText node.children
    have apart : Node.tally node.id (merge around takesText node.children progress).1 = 0 := by
      have := fewer node.id
      have := Node.tally_children_eq_zero held.distinct member member
      omega
    let after : Context := { middle with
      cells := middle.cells.setIfInBounds node.id { node.cell with
        children := (merge around takesText node.children progress).1.map (·.id) } }
    have others (id : NodeId) (other : id ≠ node.id) : after.cells[id]? = middle.cells[id]? := by
      simp [after, other.symm]
    refine ⟨after, runs after ((runs_stored found).bind (runs_modify _)),
      held.withChildren rfl rfl ?_ ?_ apart ?_ ?_ held.progress_eq ?_, slot⟩
    · exact Array.getElem?_setIfInBounds_self_of_lt inside
    · intro id _ other outside
      have := fewer id
      exact ⟨others id other, by omega⟩
    · have lower : middle.Holds (merge around takesText node.children progress).1 :=
        fun inner listed => held.holds inner (below inner (subset listed))
      refine lower.of_cells fun id present => others id ?_
      rintro rfl
      omega
    · intro number
      have := fewer number
      have := Node.tally_children_le number member
      have := held.distinct number
      omega
    · rw [Array.size_setIfInBounds]
      exact held.size_eq
  · rw [Bool.not_eq_true] at texts
    have same : (⟨node.id, node.content, node.span, node.children⟩ : Node) = node := by
      cases node
      rfl
    rw [merge_of_noText texts]
    dsimp only
    rw [same]
    exact ⟨context, mergeStored_of_noText listed stored texts,
      owns.of_eq rfl rfl rfl owns.progress_eq rfl, rfl⟩

/-- The texts among the roots are merged. -/
theorem mergeRoots_simulates {roots : List Node} {takesText : Bool}
    (owns : context.Owns {} (roots.map (·.id)) roots progress)
    (reader : around.reader = progress.reader) (scope : around.scope = progress.scope)
    (kept : (merge around takesText roots progress).2.fault? = none) :
    ∃ after, Runs (mergeStored none takesText) context () after ∧
      after.Owns {} ((merge around takesText roots progress).1.map (·.id))
        (merge around takesText roots progress).1 (merge around takesText roots progress).2 := by
  have stored : ∀ root ∈ roots, context.cells[root.id]? = some root.cell :=
    fun root member => owns.stored member
  have listed : context.list? none = some (roots.map (·.id)) := owns.listed
  by_cases texts : roots.any Node.isTextLike = true
  · obtain ⟨middle, held, -, runs⟩ :=
      mergeStored_simulates owns listed stored texts reader scope kept
    obtain ⟨after, sets, last, -⟩ := held.relist ((merge around takesText roots progress).1.map (·.id))
    exact ⟨after, runs after sets,
      last.forget (flattenAll_merge_subset roots) (tally_merge_le roots)⟩
  · rw [Bool.not_eq_true] at texts
    rw [merge_of_noText texts]
    exact ⟨context, mergeStored_of_noText listed stored texts,
      owns.of_eq rfl rfl rfl owns.progress_eq rfl⟩

theorem visitor_simulates (safe : Node → Progress → Prop) (ordinal : Nat) :
    visitor.Simulates safe ordinal TextRun.pass where
  enter {frame context site node progress entrance} shows focused sound enters _ := by
    cases enters
    have stored := runs_stored (@Context.Owns.stored _ _ _ _ node _ shows.toOwns
      (by simp [Site.nodes, focused]))
    refine ⟨rfl, context, stored.bind ?_, shows⟩
    rw [Node.isElement_cell]
    exact runs_pure node.isElement
  exit {frame context site node progress} shows sound kept _ := by
    have stored := runs_stored (@Context.Owns.stored _ _ _ _ node _ shows.toOwns
      (by simp [Site.nodes, Site.replace]))
    have listing (node : Node) : (site.replace node).nodes =
        site.before.reverse ++ node :: site.after := Site.nodes_of_focus rfl
    obtain ⟨id, content, span, children⟩ := node
    cases content with
    | element element =>
      have owns := shows.toOwns
      rw [listing] at owns
      obtain ⟨after, merges, held, slot⟩ := mergeChildren_simulates owns rfl rfl kept
      refine ⟨rfl, after, stored.bind merges, ?_, slot.trans shows.slot_eq, shows.around_eq,
        shows.siblings_eq⟩
      rw [listing]
      rw [List.map_append, List.map_cons] at held ⊢
      exact held
    | comment | text | interpolation | conditional | loop =>
      exact ⟨rfl, context, stored.bind (runs_pure ()), shows⟩
  exitRoot owns _ kept := mergeRoots_simulates owns rfl rfl kept

end TextRun

end TemplateCompiler
