import TemplateCompiler.Proofs.LoopFrames
import TemplateCompiler.Proofs.StoredTrees
import TemplateCompiler.Proofs.WalkSlices

/-! The walk on stored nodes does what the walk over a tree does. Each visitor does to the cells what
its pass does to the tree; the visits below a node stay inside of it, so the lists around it, the
slot and the ancestors are as they were when it is left. -/

namespace TemplateCompiler

theorem Node.isElement_cell (node : Node) : node.cell.isElement = node.isElement := by
  obtain ⟨id, content, span, children⟩ := node
  cases content <;> rfl

namespace Context

/-- The site is where the slot is, and its list is stored. -/
structure Shows (context : Context) (frame : Frame) (site : Site) (progress : Progress) : Prop
    extends context.Owns frame (site.nodes.map (·.id)) site.nodes progress where
  slot_eq : context.slot =
    { parent := frame.parent?, index := site.index, removed := site.focus.isNone }
  around_eq : site.ancestors = frame.ancestors
  siblings_eq : site.hasSiblings = frame.hasSiblings

namespace Shows

variable {context after : Context} {frame : Frame} {site : Site} {node : Node}
  {progress later : Progress}

theorem list_eq (shows : context.Shows frame site progress) :
    context.list? context.slot.parent = some (site.nodes.map (·.id)) := by
  rw [shows.slot_eq]
  exact shows.listed

theorem current?_eq (shows : context.Shows frame site progress) :
    context.current? = site.focus.map (·.id) := by
  rw [Context.current?, shows.list_eq, shows.slot_eq]
  cases focused : site.focus with
  | none => rfl
  | some node => simp [Site.nodes, Site.index, focused]

theorem runs_current (shows : context.Shows frame site progress) :
    Runs Walking.current context (site.focus.map (·.id)) context := by
  rw [← shows.current?_eq]
  exact Walking.runs_current shows.list_eq

/-- What is done besides changes nothing that is shown. -/
theorem of_eq (shows : context.Shows frame site progress) (cells : after.cells = context.cells)
    (roots : after.roots = context.roots) (ancestors : after.ancestors = context.ancestors)
    (slot : after.slot = context.slot) (same : after.progress = later.bare)
    (next : later.next = progress.next) : after.Shows frame site later :=
  ⟨shows.toOwns.of_eq cells roots ancestors same next, slot.trans shows.slot_eq, shows.around_eq,
    shows.siblings_eq⟩

theorem note (shows : context.Shows frame site progress) (change : Progress → Progress)
    (later : Progress) (same : change progress.bare = later.bare)
    (next : later.next = progress.next) :
    ∃ after, Runs (Walking.note change) context () after ∧ after.Shows frame site later := by
  obtain ⟨after, runs, owns, slot⟩ := shows.toOwns.note change later same next
  exact ⟨after, runs, owns, slot.trans shows.slot_eq, shows.around_eq, shows.siblings_eq⟩

theorem record (shows : context.Shows frame site progress) (call : Call) :
    ∃ after, Runs (Walking.record call) context () after ∧ after.Shows frame site progress :=
  ⟨{ context with calls := context.calls ++ [call] }, runs_modify _,
    shows.of_eq rfl rfl rfl rfl shows.progress_eq rfl⟩

end Shows

end Context

variable {reader : ScriptReader} {safe : Nat → Node → Progress → Prop}

/-- The visitor does with stored nodes what the pass does in a tree. Of the passes before it may be
known what is `safe` where it leaves a node. -/
structure Visitor.Simulates (safe : Node → Progress → Prop) (ordinal : Nat) (visitor : Visitor)
    (pass : Pass) : Prop where
  enter : ∀ {frame : Frame} {context : Context} {site : Site} {node : Node}
      {progress : Progress} {entrance : Entrance},
    context.Shows frame site progress → site.focus = some node → progress.fault? = none →
    pass.enter ordinal node site progress = .ok entrance → entrance.progress.fault? = none →
    entrance.site.before = site.before ∧
    ∃ after, Runs (visitor.enter ordinal node.id) context entrance.exits after ∧
      after.Shows frame entrance.site entrance.progress
  exit : ∀ {frame : Frame} {context : Context} {site : Site} {node : Node} {progress : Progress},
    context.Shows frame (site.replace node) progress → progress.fault? = none →
    (pass.exit ordinal node (site.replace node) progress).2.fault? = none → safe node progress →
    (pass.exit ordinal node (site.replace node) progress).1.id = node.id ∧
    ∃ after, Runs (visitor.exit ordinal node.id) context () after ∧
      after.Shows frame (site.replace (pass.exit ordinal node (site.replace node) progress).1)
        (pass.exit ordinal node (site.replace node) progress).2
  exitRoot : ∀ {context : Context} {roots : List Node} {progress : Progress},
    context.Owns {} (roots.map (·.id)) roots progress → progress.fault? = none →
    (pass.exitRoot roots progress).2.fault? = none →
    ∃ after, Runs visitor.exitRoot context () after ∧
      after.Owns {} ((pass.exitRoot roots progress).1.map (·.id)) (pass.exitRoot roots progress).1
        (pass.exitRoot roots progress).2

/-- From the place `ordinal` on, each visitor does what its pass does, and no pass takes a slice out
of range. -/
inductive Simulate (reader : ScriptReader) (safe : Nat → Node → Progress → Prop) :
    Nat → List Visitor → List Pass → Prop
  | nil {ordinal : Nat} : Simulate reader safe ordinal [] []
  | cons {ordinal : Nat} {visitor : Visitor} {pass : Pass} {visitors : List Visitor}
      {passes : List Pass} (first : visitor.Simulates (safe ordinal) ordinal pass)
      (sound : pass.Preserves (Progress.Sound reader))
      (others : Simulate reader safe (ordinal + 1) visitors passes) :
      Simulate reader safe ordinal (visitor :: visitors) (pass :: passes)

theorem Simulate.get {ordinal place : Nat} {visitors : List Visitor} {passes : List Pass}
    {pass : Pass} (simulate : Simulate reader safe ordinal visitors passes)
    (registered : passes[place]? = some pass) : ∃ visitor, visitors[place]? = some visitor ∧
      visitor.Simulates (safe (ordinal + place)) (ordinal + place) pass ∧
      pass.Preserves (Progress.Sound reader) := by
  induction simulate generalizing place with
  | nil => cases registered
  | @cons ordinal visitor other _ _ first sound others ih =>
    cases place with
    | zero =>
      cases registered
      exact ⟨visitor, rfl, first, sound⟩
    | succ place =>
      have same : ordinal + (place + 1) = ordinal + 1 + place := by omega
      rw [same]
      exact ih registered

theorem Simulate.preserves {ordinal : Nat} {visitors : List Visitor} {passes : List Pass}
    (simulate : Simulate reader safe ordinal visitors passes) :
    ∀ pass ∈ passes, pass.Preserves (Progress.Sound reader) := by
  induction simulate with
  | nil => exact List.forall_mem_nil _
  | cons _ sound _ ih => exact List.forall_mem_cons.2 ⟨sound, ih⟩

/-- The passes that leave a node are known by their places. -/
theorem enterAll_registered {passes : List Pass} {ordinal : Nat} {site : Site}
    {progress : Progress} {entered : Entered}
    (enters : enterAll ordinal site progress passes = .ok entered) :
    ∀ exit ∈ entered.exits, ∃ place, exit.1 = ordinal + place ∧ passes[place]? = some exit.2 := by
  have further {pass : Pass} {rest : List Pass} {ordinal : Nat} {exit : Nat × Pass}
      (found : ∃ place, exit.1 = ordinal + 1 + place ∧ rest[place]? = some exit.2) :
      ∃ place, exit.1 = ordinal + place ∧ (pass :: rest)[place]? = some exit.2 := by
    obtain ⟨place, same, registered⟩ := found
    exact ⟨place + 1, by omega, registered⟩
  induction passes generalizing ordinal site progress entered with
  | nil =>
    cases enters
    exact List.forall_mem_nil _
  | cons pass rest ih =>
    simp only [enterAll] at enters
    split at enters
    · cases enters
      exact List.forall_mem_nil _
    · split at enters
      · exact fun exit member => further (ih enters exit member)
      · split at enters
        · cases enters
        · obtain ⟨final, later, rfl⟩ := ok_of_map_eq_ok enters
          intro exit member
          split at member
          · rcases List.mem_append.1 member with others | own
            · exact further (ih later exit others)
            · rw [List.mem_singleton.1 own]
              exact ⟨0, rfl, rfl⟩
          · exact further (ih later exit member)

theorem enterVisitors_simulates {visitors : List Visitor} {passes : List Pass} {ordinal : Nat}
    {frame : Frame} {site : Site} {progress : Progress} {entered : Entered} {context : Context}
    (simulate : Simulate reader safe ordinal visitors passes)
    (shows : context.Shows frame site progress) (sound : progress.Sound reader)
    (enters : enterAll ordinal site progress passes = .ok entered) :
    entered.site.before = site.before ∧
    ∃ answer after, Runs (enterVisitors ordinal visitors) context answer after ∧
      after.Shows frame entered.site entered.progress ∧
      (entered.site.focus.isSome = true → answer = some (entered.exits.map (·.1)).reverse) := by
  induction simulate generalizing site progress entered context with
  | nil =>
    cases enters
    exact ⟨rfl, some [], context, runs_pure _, shows, fun _ => rfl⟩
  | @cons ordinal visitor pass visitors passes first preserve others ih =>
    have current := shows.runs_current
    simp only [enterAll] at enters
    split at enters
    · next gone =>
      cases enters
      rw [gone] at current
      exact ⟨rfl, none, context, current.bind (runs_pure _), shows, fun some => by simp [gone] at some⟩
    · next node focused =>
      rw [focused] at current
      have known : context.progress.hasEntered ordinal node.id =
          progress.hasEntered ordinal node.id := by
        rw [shows.progress_eq]
        rfl
      unfold enterVisitors
      split at enters
      · next again =>
        obtain ⟨before, answer, after, runs, shown, exits⟩ := ih shows sound enters
        refine ⟨before, answer, after, current.bind (runs_get.bind ?_), shown, exits⟩
        rwa [known, again]
      · next new =>
        split at enters
        · cases enters
        · next entrance entering =>
          obtain ⟨final, later, rfl⟩ := ok_of_map_eq_ok enters
          have marked : (progress.markEntered ordinal node.id).Sound reader :=
            ⟨sound.reader_eq, sound.fault⟩
          have kept := preserve.enter marked entering
          obtain ⟨noted, notes, shown⟩ := shows.note (·.markEntered ordinal node.id)
            (progress.markEntered ordinal node.id) rfl rfl
          have looks := Walking.runs_whereabouts shown.list_eq
          obtain ⟨place, middle, visits, stays⟩ :=
            first.enter shown focused marked.fault entering kept.fault
          obtain ⟨recorded, records, held⟩ :=
            stays.record (.enter ordinal node.id noted.whereabouts entrance.exits)
          obtain ⟨before, answer, after, runs, last, exits⟩ := ih held kept later
          have same : (if entrance.exits then { final with exits := final.exits ++ [(ordinal, pass)] }
              else final).site = final.site := by
            split <;> rfl
          have noted : (if entrance.exits then { final with exits := final.exits ++ [(ordinal, pass)] }
              else final).progress = final.progress := by
            split <;> rfl
          rw [same, noted]
          refine ⟨before.trans place,
            answer.map fun later => if entrance.exits then ordinal :: later else later, after,
            current.bind (runs_get.bind ?_), last, ?_⟩
          · rw [known, if_neg new]
            exact notes.bind (looks.bind (visits.bind (records.bind (runs.bind (runs_pure _)))))
          · intro some
            rw [exits some, Option.map_some]
            split
            · rw [List.map_append, List.reverse_append]
              rfl
            · rfl

theorem exitVisitors_simulates {visitors : List Visitor} {passes : List Pass} {frame : Frame}
    {site : Site} {context : Context} {node : Node} {progress : Progress}
    {exits : List (Nat × Pass)} (simulate : Simulate reader safe 0 visitors passes)
    (registered : ∀ exit ∈ exits, passes[exit.1]? = some exit.2)
    (shows : context.Shows frame (site.replace node) progress) (sound : progress.Sound reader)
    (guard : ∀ exit left state, LeavesNode site exit left state node progress exits →
      safe exit.1 left state) :
    (exitAll node site progress exits).1.id = node.id ∧
    ∃ after, Runs (exitVisitors visitors node.id (exits.map (·.1))) context () after ∧
      after.Shows frame (site.replace (exitAll node site progress exits).1)
        (exitAll node site progress exits).2 := by
  induction exits generalizing node progress context with
  | nil => exact ⟨rfl, context, runs_pure _, shows⟩
  | cons exit rest ih =>
    obtain ⟨ordinal, pass⟩ := exit
    obtain ⟨own, others⟩ := List.forall_mem_cons.1 registered
    obtain ⟨visitor, found, simulates, preserve⟩ := simulate.get own
    rw [Nat.zero_add] at simulates
    have kept := preserve.exit ordinal node (site.replace node) sound
    obtain ⟨recorded, records, held⟩ := shows.record (.exit ordinal node.id context.whereabouts)
    obtain ⟨number, middle, leaves, left⟩ :=
      simulates.exit held sound.fault kept.fault (guard (ordinal, pass) node progress .here)
    obtain ⟨same, after, runs, last⟩ := ih others left kept fun exit left state leaving =>
      guard exit left state (.later leaving)
    refine ⟨same.trans number, after, ?_, last⟩
    rw [List.map_cons, exitVisitors, found]
    rw [number] at runs
    exact (Walking.runs_whereabouts shows.list_eq).bind (records.bind (leaves.bind runs))

/-- Around the children of a node there is the node itself, and all cells but those below it. -/
def Context.frameBelow (context : Context) (frame : Frame) (node : Node) : Frame :=
  { ancestors := node.id :: frame.ancestors
    owner := some node.cell.bare
    cells := fun id =>
      if id = node.id ∨ 0 < Node.tally id node.children then none else context.cells[id]?
    roots := context.roots }

section Below

variable {context visited : Context} {frame : Frame} {site : Site} {node : Node}
  {progress later : Progress}

theorem Context.frameBelow_cells {id : NodeId} (other : id ≠ node.id)
    (outside : Node.tally id node.children = 0) :
    (context.frameBelow frame node).cells id = context.cells[id]? :=
  if_neg (not_or.2 ⟨other, by omega⟩)

theorem Context.hasSiblings_frameBelow :
    (context.frameBelow frame node).hasSiblings = node.isElement :=
  node.isElement_cell

theorem Context.Shows.descend (shows : context.Shows frame site progress)
    (focused : site.focus = some node) :
    Context.Owns { context with ancestors := context.ancestors ++ [node.id] }
      (context.frameBelow frame node) (node.children.map (·.id)) node.children progress := by
  have member : node ∈ site.nodes := by simp [Site.nodes, focused]
  have found := shows.stored member
  have once := shows.distinct node.id
  have own := Node.tally_singleton node.id node
  have least := Node.tally_le_of_mem node.id member
  rw [List.count_singleton_self] at own
  refine ⟨?_, ?_, ?_, fun _ => rfl, ?_, ?_, ?_, ?_, shows.progress_eq, shows.size_eq⟩
  · change context.ancestors ++ [node.id] = (node.id :: frame.ancestors).reverse
    rw [shows.ancestors_eq, List.reverse_cons]
  · exact congrArg (Option.map (·.children)) found
  · exact congrArg (Option.map Cell.bare) found
  · intro inner below
    refine shows.holds inner (Node.flatten_subset_flattenAll member inner ?_)
    rw [Node.flatten_eq]
    exact List.mem_cons_of_mem node below
  · exact fun number => Nat.le_trans (Node.tally_children_le number member) (shows.distinct number)
  · rintro parent ⟨⟩
    omega
  · intro id cell kept
    simp only [Context.frameBelow] at kept
    split at kept
    · cases kept
    · next outside =>
      rw [not_or] at outside
      refine ⟨kept, by omega, ?_⟩
      rintro ⟨⟩
      exact outside.1 rfl

theorem Context.Shows.ascend (shows : context.Shows frame site progress)
    (focused : site.focus = some node) {nodes : List Node}
    (owns : visited.Owns (context.frameBelow frame node) (nodes.map (·.id)) nodes later) :
    Context.Shows { visited with ancestors := visited.ancestors.dropLast, slot := context.slot } frame
      (site.replace { node with children := nodes }) later := by
  have own : visited.cells[node.id]? = some { node with children := nodes }.cell := by
    obtain ⟨cell, stored, same⟩ := Option.map_eq_some_iff.1 owns.listed
    have bare : (visited.cells[node.id]?).map Cell.bare = some node.cell.bare := owns.owner_eq
    obtain ⟨content, span, children⟩ := cell
    rw [stored, Option.map_some, Option.some.injEq, Cell.bare, Cell.mk.injEq] at bare
    obtain ⟨rfl, rfl, -⟩ := bare
    rw [stored]
    cases same
    rfl
  have stays (id : NodeId) (inside : id < context.cells.size) (other : id ≠ node.id)
      (outside : Node.tally id node.children = 0) :
      visited.cells[id]? = context.cells[id]? ∧ Node.tally id nodes = 0 := by
    have stored : context.cells[id]? = some context.cells[id] := Array.getElem?_eq_getElem inside
    obtain ⟨same, absent, -⟩ :=
      owns.kept id context.cells[id] ((context.frameBelow_cells other outside).trans stored)
    exact ⟨same.trans stored.symm, absent⟩
  have ancestors : visited.ancestors.dropLast = context.ancestors := by
    rw [owns.ancestors_eq, shows.ancestors_eq, frameBelow, List.reverse_cons, List.dropLast_concat]
  have whole := shows.toOwns
  rw [Site.nodes_of_focus focused] at whole
  have final := @Owns.withChildren _
    { visited with ancestors := visited.ancestors.dropLast, slot := context.slot } _ _ _ _ _ _ _ _
    whole (owns.roots_eq (by rintro ⟨⟩)) ancestors own stays (owns.apart node.id rfl) owns.holds
    owns.distinct owns.progress_eq owns.size_eq
  have listing : (site.replace { node with children := nodes }).nodes =
      site.before.reverse ++ { node with children := nodes } :: site.after :=
    Site.nodes_of_focus rfl
  refine ⟨?_, ?_, shows.around_eq, shows.siblings_eq⟩
  · rw [listing]
    rw [List.map_append, List.map_cons] at final ⊢
    exact final
  · refine shows.slot_eq.trans ?_
    rw [focused]
    rfl

end Below

section Walk

open Walking Visitors

variable {visitors : List Visitor} {passes : List Pass} {frame : Frame} {site : Site}
  {context : Context} {progress : Progress} {entered : Entered}

theorem visitSlot_gone (simulate : Simulate reader safe 0 visitors passes)
    (shows : context.Shows frame site progress) (sound : progress.Sound reader)
    (enters : enterAll 0 site progress passes = .ok entered) (gone : entered.site.focus = none) :
    entered.site.before = site.before ∧ ∃ after, Runs (visitSlot visitors) context () after ∧
      after.Shows frame entered.site entered.progress := by
  obtain ⟨before, answer, after, runs, shown, -⟩ :=
    enterVisitors_simulates simulate shows sound enters
  refine ⟨before, after, ?_, shown⟩
  rw [visitSlot]
  apply runs.bind
  cases answer with
  | none => exact runs_pure ()
  | some exits =>
    have current := shown.runs_current
    rw [gone] at current
    exact current.bind (runs_pure ())

/-- Visiting a node that stays: the visits below it come in between. -/
theorem visitSlot_left {node : Node} {nodes : List Node} {later : Progress}
    (simulate : Simulate reader safe 0 visitors passes)
    (shows : context.Shows frame site progress) (sound : progress.Sound reader)
    (enters : enterAll 0 site progress passes = .ok entered)
    (focused : entered.site.focus = some node)
    (inner : ∀ {around : Frame} {inside : Context},
      around.ancestors = node.id :: frame.ancestors → around.hasSiblings = node.isElement →
      inside.Owns around (node.children.map (·.id)) node.children entered.progress →
      ∃ after, Runs (visitChildren visitors around.parent? 0) inside () after ∧
        after.Owns around (nodes.map (·.id)) nodes later)
    (kept : later.Sound reader)
    (guard : ∀ exit left state, LeavesNode entered.site exit left state
      { node with children := nodes } later entered.exits → safe exit.1 left state) :
    entered.site.before = site.before ∧ ∃ after, Runs (visitSlot visitors) context () after ∧
      after.Shows frame
        (entered.site.replace
          (exitAll { node with children := nodes } entered.site later entered.exits).1)
        (exitAll { node with children := nodes } entered.site later entered.exits).2 := by
  obtain ⟨before, answer, opened, runs, shown, exits⟩ :=
    enterVisitors_simulates simulate shows sound enters
  have answered : answer = some (entered.exits.map (·.1)).reverse := exits (by rw [focused]; rfl)
  have current := shown.runs_current
  rw [focused] at current
  have pushes : Runs (push node.id) opened ()
      { opened with ancestors := opened.ancestors ++ [node.id] } :=
    runs_modify _
  obtain ⟨visited, visits, owns⟩ :=
    inner rfl Context.hasSiblings_frameBelow (shown.descend focused)
  have pops : Runs pop visited () { visited with ancestors := visited.ancestors.dropLast } :=
    runs_modify _
  have restores : Runs (moveTo opened.slot) { visited with ancestors := visited.ancestors.dropLast } ()
      { visited with ancestors := visited.ancestors.dropLast, slot := opened.slot } := runs_modify _
  have restored := shown.ascend focused owns
  have again := restored.runs_current
  have registered : ∀ exit ∈ entered.exits, passes[exit.1]? = some exit.2 := by
    intro exit member
    obtain ⟨place, same, found⟩ := enterAll_registered enters exit member
    rwa [same, Nat.zero_add]
  obtain ⟨-, after, leaves, last⟩ := exitVisitors_simulates simulate registered restored kept guard
  refine ⟨before, after, ?_, last⟩
  rw [visitSlot]
  apply runs.bind
  rw [answered]
  dsimp only
  rw [List.reverse_reverse]
  exact current.bind (runs_place.bind (pushes.bind (visits.bind (pops.bind (restores.bind
    (again.bind leaves))))))

theorem visitChildren_simulates (simulate : Simulate reader safe 0 visitors passes)
    {ancestors : List NodeId} {hasSiblings : Bool} {before todo : List Node} {progress : Progress}
    {frame : Frame} {context : Context} {visited : Visited} (path : frame.ancestors = ancestors)
    (kind : frame.hasSiblings = hasSiblings)
    (owns : context.Owns frame ((before.reverse ++ todo).map (·.id)) (before.reverse ++ todo) progress)
    (sound : progress.Sound reader)
    (guard : ∀ exit left state, Leaves passes exit left state ancestors hasSiblings before todo
      progress → safe exit.1 left state)
    (walked : visitAll passes ancestors hasSiblings before todo progress = .ok visited) :
    ∃ after, Runs (visitChildren visitors frame.parent? before.length) context () after ∧
      after.Owns frame (visited.nodes.map (·.id)) visited.nodes visited.progress := by
  have preserves := simulate.preserves
  have marks : ∀ {progress : Progress} (pass : Nat) (id : NodeId), progress.Sound reader →
      (progress.markEntered pass id).Sound reader :=
    fun _ _ sound => ⟨sound.reader_eq, sound.fault⟩
  -- The slot moves to the first node of those to be visited.
  have moved {before rest : List Node} {node : Node} {progress : Progress} {frame : Frame}
      {context : Context}
      (owns : context.Owns frame ((before.reverse ++ node :: rest).map (·.id))
        (before.reverse ++ node :: rest) progress) :
      Context.Shows { context with slot := { parent := frame.parent?, index := before.length } } frame
        ⟨frame.ancestors, frame.hasSiblings, before, some node, rest⟩ progress :=
    ⟨owns.of_eq rfl rfl rfl owns.progress_eq rfl, rfl, rfl, rfl⟩
  have first {before rest : List Node} {node : Node} :
      ((before.reverse ++ node :: rest).map (·.id))[before.length]? = some node.id := by
    simp
  fun_induction visitAll passes ancestors hasSiblings before todo progress
    generalizing frame context visited with
  | case1 ancestors hasSiblings before progress =>
    cases walked
    rw [List.append_nil] at owns
    refine ⟨context, ?_, owns⟩
    rw [visitChildren]
    refine (runs_slotAt owns.listed before.length).bind ?_
    have ended : (before.reverse.map (·.id))[before.length]? = none := by simp
    rw [ended]
    exact runs_pure ()
  | case2 => cases walked
  | case3 ancestors hasSiblings before progress node rest entered enters unfocused ih =>
    subst path kind
    obtain ⟨place, opened, runs, gone⟩ :=
      visitSlot_gone simulate (moved owns) sound enters unfocused
    have kept := (enterAll_preserves marks preserves sound enters).1
    have listing : entered.site.nodes = before.reverse ++ entered.site.after := by
      rw [Site.nodes, unfocused, place]
      rfl
    have onward := gone.toOwns
    rw [listing] at onward
    obtain ⟨after, later, last⟩ := ih rfl rfl onward kept
      (fun exit left state leaves => guard exit left state (.gone enters unfocused leaves)) walked
    have slot : opened.slot = { parent := frame.parent?, index := before.length, removed := true } := by
      rw [gone.slot_eq, Site.index, place, unfocused]
      rfl
    refine ⟨after, ?_, last⟩
    rw [visitChildren]
    refine (runs_slotAt owns.listed before.length).bind ?_
    rw [first]
    refine (runs_modify _).bind (runs.bind (runs_place.bind ?_))
    rw [slot]
    exact later
  | case4 => cases walked
  | case5 ancestors hasSiblings before progress node rest entered enters current focused below
      walkedBelow left ihBelow =>
    rename_i ihRest
    subst path kind
    have kept := (enterAll_preserves marks preserves sound enters).1
    have lower := visitAll_preserves marks preserves kept below walkedBelow
    obtain ⟨place, opened, runs, shown⟩ := visitSlot_left simulate (moved owns) sound enters focused
      (fun path kind inside => ihBelow path kind inside kept
        (fun exit left state leaves => guard exit left state (.inside enters focused leaves))
        walkedBelow)
      lower (fun exit left state leaves =>
        guard exit left state (.here enters focused walkedBelow leaves))
    have place : entered.site.before = before := place
    have final : left.2.Sound reader :=
      exitAll_preserves (enterAll_preserves marks preserves sound enters).2 entered.site lower
    have listing : (entered.site.replace left.1).nodes =
        (left.1 :: before).reverse ++ entered.site.after := by
      rw [Site.nodes_of_focus rfl, List.reverse_cons, List.append_assoc, List.singleton_append]
      exact congrArg (List.reverse · ++ left.1 :: entered.site.after) place
    have onward := shown.toOwns
    rw [listing] at onward
    obtain ⟨after, later, last⟩ := ihRest rfl rfl onward final
      (fun exit left state leaves =>
        guard exit left state (.later enters focused walkedBelow leaves)) walked
    have slot : opened.slot = { parent := frame.parent?, index := before.length } := by
      exact shown.slot_eq.trans (congrArg
        (fun nodes : List Node => Slot.mk frame.parent? nodes.length false) place)
    refine ⟨after, ?_, last⟩
    rw [visitChildren]
    refine (runs_slotAt owns.listed before.length).bind ?_
    rw [first]
    refine (runs_modify _).bind (runs.bind (runs_place.bind ?_))
    rw [slot]
    exact later

theorem exitRoots_simulates {ordinal : Nat} {roots : List Node} {progress : Progress}
    (simulate : Simulate reader safe ordinal visitors passes)
    (owns : context.Owns {} (roots.map (·.id)) roots progress) (sound : progress.Sound reader) :
    ∃ after, Runs (exitRoots ordinal visitors) context () after ∧
      after.Owns {} ((exitRootAll roots progress passes).1.map (·.id))
        (exitRootAll roots progress passes).1 (exitRootAll roots progress passes).2 := by
  induction simulate with
  | nil => exact ⟨context, runs_pure (), owns⟩
  | @cons ordinal visitor pass visitors passes first preserve others ih =>
    obtain ⟨middle, runs, held⟩ := ih
    have kept := exitRootAll_preserves others.preserves roots sound
    have final := preserve.exitRoot (exitRootAll roots progress passes).1 kept
    let recorded : Context := { middle with calls := middle.calls ++ [.exitRoot ordinal] }
    have records : Runs (record (.exitRoot ordinal)) middle () recorded := runs_modify _
    obtain ⟨after, leaves, last⟩ :=
      @Visitor.Simulates.exitRoot _ _ _ _ first recorded _ _
        (held.of_eq rfl rfl rfl held.progress_eq rfl) kept.fault final.fault
    exact ⟨after, runs.bind (records.bind leaves), last⟩

/-- The walk on stored nodes comes to its end whenever the walk over the tree does, and leaves the
nodes of the tree that is left then. -/
theorem walkStored_simulates {roots : List Node} {progress : Progress} {done : List Node × Progress}
    (simulate : Simulate reader safe 0 visitors passes)
    (owns : context.Owns {} (roots.map (·.id)) roots progress) (sound : progress.Sound reader)
    (guard : ∀ exit left state, Leaves passes exit left state [] true [] roots progress →
      safe exit.1 left state)
    (walked : walk passes roots progress = .ok done) :
    ∃ after, Runs (walkStored visitors) context () after ∧
      after.Owns {} (done.1.map (·.id)) done.1 done.2 := by
  obtain ⟨visited, visits, rfl⟩ := ok_of_map_eq_ok walked
  have kept := visitAll_preserves (fun _ _ sound => ⟨sound.reader_eq, sound.fault⟩)
    simulate.preserves sound visited visits
  obtain ⟨middle, runs, held⟩ :=
    @visitChildren_simulates _ _ _ _ simulate [] true [] roots _ {} _ _ rfl rfl owns sound guard
      visits
  obtain ⟨after, leaves, last⟩ := exitRoots_simulates simulate held kept
  exact ⟨after, runs.bind leaves, last⟩

end Walk

end TemplateCompiler
