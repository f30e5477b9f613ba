import TemplateCompiler.Proofs.StoredPasses

/-! Loops and conditionals among stored nodes. What is wrapped around nodes is stored behind all
others. A loop is left with its own frame on top; the alternatives that a conditional takes leave the
list of siblings one after another, with what stands between them. -/

namespace TemplateCompiler

open Walking

namespace Loops

variable {context : Context} {frame : Frame} {site : Site} {node : Node} {progress : Progress}

theorem misplacedKey?_bare (node : Node) :
    misplacedKey? { node.bare with children := node.children.map Node.bare } =
      misplacedKey? node := by
  simp only [misplacedKey?, List.findSome?_map]
  rfl

theorem degradeStored_simulates (shows : context.Shows frame site progress)
    (focused : site.focus = some node) (problem : Problem) :
    ∃ noted after, Runs (note (·.report [problem])) context () noted ∧
      Runs (degradeStored node.span) noted false after ∧
      after.Shows frame (degrade node site progress problem).site
        (degrade node site progress problem).progress := by
  obtain ⟨noted, notes, shown⟩ :=
    shows.note (·.report [problem]) (progress.report [problem]) rfl rfl
  let placeholder : Node := { id := progress.next, content := .comment "v-for", span := node.span }
  obtain ⟨middle, after, allocs, replaces, last⟩ :=
    @Context.Shows.exchange _ _ _ _ _ (degrade node site progress problem).progress shown focused
      placeholder rfl (List.nil_sublist _) rfl rfl
  exact ⟨noted, after, notes, allocs.bind (replaces.bind (runs_pure false)), last⟩

theorem checkKeys_simulates (shows : context.Shows frame site progress)
    (focused : site.focus = some node) :
    ∃ after, Runs (checkKeys node.bare (node.children.map (·.id))) context () after ∧
      after.Shows frame site (progress.report ((misplacedKey? node).toList.map fun place =>
        { kind := .forTemplateKey, span := place })) := by
  have nothing (misplaced : misplacedKey? node = none) :
      context.Shows frame site (progress.report ((misplacedKey? node).toList.map fun place =>
        { kind := .forTemplateKey, span := place })) := by
    refine shows.of_eq rfl rfl rfl rfl ?_ rfl
    rw [misplaced, shows.progress_eq]
    simp [Progress.report, Progress.bare]
  have member : node ∈ site.nodes := by simp [Site.nodes, focused]
  have looks := runs_mapM_look (shows.stored_children member)
  have same : node.bare.element? = node.element? := rfl
  unfold checkKeys
  rw [same]
  split
  · obtain ⟨after, notes, shown⟩ := shows.note
      (·.report ((misplacedKey? node).toList.map fun place =>
        { kind := .forTemplateKey, span := place }))
      (progress.report ((misplacedKey? node).toList.map fun place =>
        { kind := .forTemplateKey, span := place })) rfl rfl
    refine ⟨after, looks.bind ?_, shown⟩
    rw [misplacedKey?_bare]
    exact notes
  · next other =>
    refine ⟨context, runs_pure (), nothing ?_⟩
    unfold misplacedKey?
    split
    · next fragment => exact (other _ _ fragment).elim
    · rfl

theorem wrapStored_simulates {ordinal : Nat} {expression : LoopExpression} {span : Span}
    (shows : context.Shows frame (site.replace node) progress)
    (same : progress.inOnce (site.replace node) = progress.inOnce site)
    (kept : (wrap ordinal node site progress expression span).progress.fault? = none) :
    ∃ after, Runs (wrapStored ordinal node.id node.bare expression span) context true after ∧
      after.Shows frame (wrap ordinal node site progress expression span).site
        (wrap ordinal node site progress expression span).progress := by
  let loop : Loop :=
    { source := { content := { raw := expression.source }, span }
      value := expression.value
      key := expression.key
      index := expression.index }
  let wrapped : Node :=
    { id := progress.next, content := .loop loop, span := node.span, children := [node] }
  let reported := progress.report ((misplacedKey? node).toList.map fun place =>
    { kind := .forTemplateKey, span := place })
  let source := (progress.surroundings site).resolve expression.source span
  let bound := boundNames progress.reader loop
  have faults : ((reported.absorb source).absorb bound).fault? = none := kept
  have fits := Progress.fault?_of_absorb faults
  have resolved : (reported.absorb source).fault? = none := by
    unfold Progress.absorb at faults
    exact (Option.or_eq_none_iff.1 faults).1
  obtain ⟨checked, checks, shown⟩ := checkKeys_simulates shows rfl
  have surrounds : Runs surroundings checked (progress.surroundings site) checked := by
    have asks := shown.surroundings
    have around : reported.surroundings (site.replace node) = progress.surroundings site :=
      congrArg (Surroundings.mk progress.reader progress.scope progress.cacheHandlers) same
    rwa [around] at asks
  obtain ⟨taken, takes, absorbed⟩ := shown.take (Progress.fault?_of_absorb resolved)
  obtain ⟨middle, placed, allocs, replaces, exchanged⟩ :=
    @Context.Shows.exchange _ _ _ _ _ { reported.absorb source with next := progress.next + 1 }
      absorbed rfl wrapped rfl (List.Sublist.refl _) rfl rfl
  obtain ⟨named, names, bounded⟩ := exchanged.take fits
  obtain ⟨after, notes, last⟩ := bounded.note
    (fun later =>
      { later with
        scope := later.scope.addAll bound.value
        frames :=
          { pass := ordinal, loop := wrapped.id, source := source.value, aliases := bound.value } ::
            later.frames })
    (wrap ordinal node site progress expression span).progress rfl rfl
  have member : node ∈ (site.replace node).nodes := by simp [Site.nodes, Site.replace]
  have stored := shows.stored member
  refine ⟨after, ?_, last⟩
  refine (runs_stored stored).bind (checks.bind (surrounds.bind (takes.bind (allocs.bind
    (replaces.bind (runs_get.bind ?_))))))
  rw [exchanged.progress_eq]
  exact names.bind (notes.bind (runs_pure true))

theorem closeFrame_simulates {ordinal : Nat} {popped : LoopFrame} {others : List LoopFrame}
    (shows : context.Shows frame site progress) (top : progress.frames = popped :: others)
    (number : popped.pass = ordinal) (own : popped.loop = node.id) :
    ∃ after, Runs (closeFrame ordinal node.id) context (some popped) after ∧
      after.Shows frame site
        { progress with frames := others, scope := progress.scope.removeAll popped.aliases } := by
  have first : popFrame ordinal context.progress.frames = (some popped, others) := by
    rw [shows.progress_eq]
    simp [popFrame, Progress.bare, top, number]
  obtain ⟨after, notes, shown⟩ := shows.note
    (fun later =>
      { later with frames := others, scope := later.scope.removeAll popped.aliases })
    { progress with frames := others, scope := progress.scope.removeAll popped.aliases } rfl rfl
  refine ⟨after, runs_get.bind ?_, shown⟩
  simp only [first]
  exact (runs_assert (beq_iff_eq.2 own)).bind (notes.bind (runs_pure (some popped)))

theorem visitor_simulates {safe : Node → Progress → Prop}
    (topFrame : ∀ node progress, safe node progress → TopFrame node progress) :
    visitor.Simulates safe 2 Loops.pass where
  enter {frame context site node progress entrance} shows focused _ enters kept := by
    have looks := shows.look focused
    have same := Except.ok.inj enters
    simp only [Loops.enter] at same
    cases taken : (node.properties.takeDirective (· == "for")).1 with
    | none =>
      rw [taken] at same
      subst same
      refine ⟨rfl, context, looks.bind ?_, shows⟩
      simp only [Node.properties_bare, taken]
      exact runs_pure false
    | some directive =>
      rw [taken] at same
      dsimp only at same
      let rest := node.withProperties (node.properties.takeDirective (· == "for")).2
      have number : rest.id = node.id := Node.withProperties_id _ _
      have spans : rest.span = node.span := Node.withProperties_span _ _
      obtain ⟨changed, changes, shown⟩ :=
        shows.setProperties focused (node.properties.takeDirective (· == "for")).2
      -- The degraded node stands in the same place.
      have degraded (problem : Problem) :
          ∃ after, Runs (do note (·.report [problem]); degradeStored node.span) changed false after ∧
            after.Shows frame (degrade rest site progress problem).site
              (degrade rest site progress problem).progress := by
        obtain ⟨noted, after, notes, degrades, last⟩ := degradeStored_simulates shown rfl problem
        rw [spans] at degrades
        exact ⟨after, notes.bind degrades, last⟩
      cases empty : directive.emptyProblem? .forWithoutExpression with
      | some problem =>
        rw [empty] at same
        subst same
        obtain ⟨after, degrades, last⟩ := degraded problem
        refine ⟨rfl, after, looks.bind ?_, last⟩
        simp only [Node.properties_bare, taken, empty]
        exact changes.bind degrades
      | none =>
        cases given : directive.expression with
        | none => exact absurd given (Directive.expression_of_emptyProblem? empty)
        | some value =>
          rw [empty, given] at same
          dsimp only at same
          cases parsed : LoopExpression.parse? value.content.raw with
          | none =>
            rw [parsed] at same
            subst same
            obtain ⟨after, degrades, last⟩ := degraded { kind := .forMalformed, span := value.span }
            refine ⟨rfl, after, looks.bind ?_, last⟩
            simp only [Node.properties_bare, taken, empty, given, parsed]
            exact changes.bind degrades
          | some expression =>
            rw [parsed] at same
            subst same
            obtain ⟨after, wraps, last⟩ :=
              wrapStored_simulates shown (Progress.inOnce_replace focused number) kept
            refine ⟨rfl, after, looks.bind ?_, last⟩
            simp only [Node.properties_bare, taken, empty, given, parsed]
            rw [number, ← node.withProperties_bare] at wraps
            exact changes.bind wraps
  exit {frame context site node progress} shows _ _ reached := by
    obtain ⟨isLoop, popped, others, top, number, own⟩ := topFrame node progress reached
    obtain ⟨closed, closes, shown⟩ := closeFrame_simulates shows top number own
    have member : node ∈ (site.replace node).nodes := by simp [Site.nodes, Site.replace]
    have stored := runs_stored (shown.stored member)
    have below := shown.stored_children member
    have first : popFrame 2 progress.frames = (some popped, others) := by
      simp [popFrame, top, number]
    refine ⟨rfl, ?_⟩
    change ∃ after, _ ∧ Context.Shows after frame (site.replace node) (exit 2 node progress)
    obtain ⟨id, content, span, children⟩ := node
    simp only [exit, first]
    cases content with
    | loop loop =>
      cases children with
      | nil => exact ⟨closed, closes.bind (stored.bind (runs_pure ())), shown⟩
      | cons child rest =>
        have looks := runs_look (below child List.mem_cons_self)
        obtain ⟨after, notes, last⟩ := shown.note
          (write popped (Cell.node (Node.cell ⟨id, .loop loop, span, child :: rest⟩) id) child.bare loop)
          (write popped ⟨id, .loop loop, span, child :: rest⟩ child loop
            { progress with frames := others, scope := progress.scope.removeAll popped.aliases })
          rfl rfl
        exact ⟨after, closes.bind (stored.bind (looks.bind notes)), last⟩
    | comment | text | interpolation | conditional | element => cases isLoop
  exitRoot owns _ _ := ⟨_, runs_pure (), owns⟩

end Loops

namespace Conditional

section Bare

variable {node : Node} {name : String}

theorem takeCondition_bare (node : Node) (name : String) : takeCondition node.bare name =
    { takeCondition node name with node := (takeCondition node name).node.bare } := by
  have same : node.bare.withProperties (node.properties.takeDirective (· == name)).2 =
      (node.withProperties (node.properties.takeDirective (· == name)).2).bare :=
    node.withProperties_bare _
  simp only [takeCondition, Node.properties_bare, same]
  split
  · rfl
  · split
    · rfl
    · rfl

theorem id_takeCondition : (takeCondition node name).node.id = node.id := by
  rw [node_takeCondition, Node.withProperties_id]

theorem span_takeCondition : (takeCondition node name).node.span = node.span := by
  rw [node_takeCondition, Node.withProperties_span]

theorem repeatedKeys_bare (seen : SeenKeys) (nodes : List Node) :
    repeatedKeys seen (nodes.map Node.bare) = repeatedKeys seen nodes := by
  induction nodes generalizing seen with
  | nil => rfl
  | cons node rest ih => simp only [List.map_cons, repeatedKeys, Node.properties_bare, ih]

end Bare

section Lists

variable {context : Context} {frame : Frame} {list : List NodeId} {forest : List Node}
  {progress : Progress}

theorem takeStored_simulates {front back : List Node} {node : Node}
    (owns : context.Owns frame list (front ++ node :: back) progress) (name : String) :
    ∃ after, Runs (takeStored node.id name) context (takeCondition node name).condition after ∧
      after.Owns frame list (front ++ (takeCondition node name).node :: back)
        (progress.report (takeCondition node name).problems) ∧
      after.slot = context.slot := by
  have looks := runs_look (owns.stored (List.mem_append_right front List.mem_cons_self))
  have content : { node with content := (takeCondition node name).node.content } =
      (takeCondition node name).node := by
    rw [node_takeCondition, Node.content_withProperties]
  obtain ⟨changed, changes, held, place⟩ := owns.setContent (takeCondition node name).node.content
  rw [content] at held
  obtain ⟨after, notes, last, still⟩ := held.note (·.report (takeCondition node name).problems)
    (progress.report (takeCondition node name).problems) rfl rfl
  refine ⟨after, looks.bind ?_, last, still.trans place⟩
  rw [Node.node_cell, takeCondition_bare]
  exact changes.bind (notes.bind (runs_pure _))

/-- The siblings behind the slot leave the list. They may still be among the nodes. -/
theorem removeNexts_simulates {front gone rest : List NodeId} {id : NodeId}
    (owns : context.Owns frame (front ++ id :: (gone ++ rest)) forest progress)
    (several : frame.hasSiblings = true)
    (slot : context.slot = { parent := frame.parent?, index := front.length }) :
    ∃ after, Runs (removeNexts gone.length) context () after ∧
      after.Owns frame (front ++ id :: rest) forest progress ∧ after.slot = context.slot := by
  induction gone generalizing context with
  | nil => exact ⟨context, runs_pure (), owns, rfl⟩
  | cons next gone ih =>
    have siblings := owns.runs_siblings? (by rw [slot])
    rw [if_pos several] at siblings
    have fewer : (front ++ id :: (next :: gone ++ rest)).eraseIdx (front.length + 1) =
        front ++ id :: (gone ++ rest) := by
      rw [List.eraseIdx_append_of_length_le (Nat.le_add_right _ _), Nat.add_sub_cancel_left]
      rfl
    obtain ⟨middle, sets, held, place⟩ := owns.relist (front ++ id :: (gone ++ rest))
    obtain ⟨after, runs, last, still⟩ := ih held (place.trans slot)
    have removes : Runs (removeNext 1) context () middle := by
      refine runs_place.bind (siblings.bind ?_)
      rw [slot]
      dsimp only
      rw [fewer]
      exact sets
    exact ⟨after, removes.bind runs, last, still.trans place⟩

/-- The nodes behind the slot that were not skipped begin there. -/
theorem getElem?_behind (front : List NodeId) (id : NodeId) (skipped nodes : List Node) :
    (front ++ id :: (skipped ++ nodes).map (·.id))[front.length + 1 + skipped.length]? =
      (nodes.map (·.id))[0]? := by
  have same : front.length + 1 + skipped.length - front.length = skipped.length + 1 := by omega
  rw [List.getElem?_append_right (by omega), List.map_append, same, List.getElem?_cons_succ,
    List.getElem?_append_right (by simp)]
  simp

variable {front : List NodeId} {id : NodeId} {kept skipped nodes : List Node} {node : Node}

theorem runs_siblings_several (owns : context.Owns frame list forest progress)
    (several : frame.hasSiblings = true)
    (slot : context.slot = { parent := frame.parent?, index := front.length }) :
    Runs siblings context list context := by
  have runs := owns.runs_siblings (by rw [slot])
  rwa [if_pos several] at runs

/-- A node that is taken leaves the list with what was skipped. -/
theorem removeTaken_simulates
    (owns : context.Owns frame (front ++ id :: (skipped ++ node :: nodes).map (·.id))
      (kept ++ (skipped ++ node :: nodes)) progress)
    (several : frame.hasSiblings = true)
    (slot : context.slot = { parent := frame.parent?, index := front.length }) :
    ∃ after, Runs (removeNexts (skipped.length + 1)) context () after ∧
      after.Owns frame (front ++ id :: nodes.map (·.id)) (kept ++ node :: nodes) progress ∧
      after.slot = context.slot := by
  have listed : (skipped ++ node :: nodes).map (·.id) =
      (skipped ++ [node]).map (·.id) ++ nodes.map (·.id) := by simp
  rw [listed] at owns
  obtain ⟨after, runs, held, place⟩ := removeNexts_simulates owns several slot
  rw [List.length_map, List.length_append, List.length_singleton] at runs
  have fewer : (kept ++ node :: nodes).Sublist (kept ++ (skipped ++ node :: nodes)) :=
    (List.Sublist.refl kept).append (List.sublist_append_right skipped _)
  exact ⟨after, runs, held.forget (Node.sublist_flattenAll_of_sublist fewer).subset
    (Node.tally_le_of_sublist fewer), place⟩

variable {key : Nat} {taken : List (Branch × NodeId)}

theorem runs_alternativeStep_nil
    (owns : context.Owns frame (front ++ id :: skipped.map (·.id)) forest progress)
    (several : frame.hasSiblings = true)
    (slot : context.slot = { parent := frame.parent?, index := front.length }) :
    Runs (alternativeStep (taken, key, skipped.length)) context (.inr taken) context := by
  have ended := getElem?_behind front id skipped []
  rw [List.append_nil] at ended
  refine (runs_siblings_several owns several slot).bind (runs_place.bind ?_)
  rw [slot, ended]
  exact runs_pure _

theorem runs_alternativeStep {result : (List (Branch × NodeId) × Nat × Nat) ⊕ List (Branch × NodeId)}
    {after : Context}
    (owns : context.Owns frame (front ++ id :: (skipped ++ node :: nodes).map (·.id))
      (kept ++ (skipped ++ node :: nodes)) progress)
    (several : frame.hasSiblings = true)
    (slot : context.slot = { parent := frame.parent?, index := front.length })
    (runs : Runs (if node.isBlankText || node.isComment then
        return .inl (taken, key, skipped.length + 1)
      else if node.properties.hasDirective "else-if" then do
        removeNexts (skipped.length + 1)
        let condition ← takeStored node.id "else-if"
        return .inl (taken ++ [({ condition, key, span := node.span }, node.id)], key + 1, 0)
      else if node.properties.hasDirective "else" then do
        removeNexts (skipped.length + 1)
        setContent node.id (takeCondition node.bare "else").node.content
        return .inr (taken ++ [({ condition := none, key, span := node.span }, node.id)])
      else return .inr taken) context result after) :
    Runs (alternativeStep (taken, key, skipped.length)) context result after := by
  refine (runs_siblings_several owns several slot).bind (runs_place.bind ?_)
  rw [slot, getElem?_behind]
  exact (runs_look (owns.stored (by simp))).bind runs

/-- Taking the alternatives from the list takes those that are collected from the nodes behind. -/
theorem takeAlternatives_simulates (taken : List (Branch × NodeId))
    (owns : context.Owns frame (front ++ id :: (skipped ++ nodes).map (·.id))
      (kept ++ (skipped ++ nodes)) progress)
    (several : frame.hasSiblings = true)
    (slot : context.slot = { parent := frame.parent?, index := front.length }) :
    ∃ after, Runs (takeAlternatives taken key skipped.length) context
        (taken ++ (collect key skipped nodes).found.map fun found => (found.branch, found.node.id))
        after ∧
      after.Owns frame (front ++ id :: (collect key skipped nodes).rest.map (·.id))
        (kept ++ ((collect key skipped nodes).found.map (·.node) ++ (collect key skipped nodes).rest))
        (progress.report (collect key skipped nodes).problems) ∧
      after.slot = context.slot := by
  induction nodes generalizing key skipped kept progress context taken with
  | nil =>
    rw [List.append_nil] at owns
    simp only [collect, List.map_nil, List.append_nil, List.nil_append, Progress.report_nil]
    exact ⟨context, runs_repeatM_inr (runs_alternativeStep_nil owns several slot), owns, rfl⟩
  | cons node nodes ih =>
    rw [collect]
    split
    · next between =>
      have moved := owns
      rw [List.append_cons skipped node nodes] at moved
      obtain ⟨after, runs, last, place⟩ :=
        @ih context progress kept (skipped ++ [node]) key taken moved slot
      rw [List.length_append, List.length_singleton] at runs
      refine ⟨after, (run_repeatM_inl (runs_alternativeStep owns several slot ?_)).trans runs, last,
        place⟩
      rw [if_pos between]
      exact runs_pure _
    · next other =>
      split
      · next condition =>
        obtain ⟨removed, leaves, held, place⟩ := removeTaken_simulates owns several slot
        obtain ⟨changed, takes, noted, still⟩ := takeStored_simulates held "else-if"
        rw [List.append_cons kept] at noted
        let branch : Branch :=
          { condition := (takeCondition node "else-if").condition, key, span := node.span }
        obtain ⟨after, runs, last, stays⟩ :=
          @ih changed _ (kept ++ [(takeCondition node "else-if").node]) [] (key + 1)
            (taken ++ [(branch, node.id)]) noted (still.trans (place.trans slot))
        refine ⟨after, ?_, ?_, stays.trans (still.trans place)⟩
        · rw [List.append_assoc] at runs
          simp only [List.map_cons, alternativeOf, span_takeCondition, id_takeCondition]
          refine (run_repeatM_inl (runs_alternativeStep owns several slot ?_)).trans runs
          rw [if_neg other, if_pos condition]
          exact leaves.bind (takes.bind (runs_pure _))
        · rw [Progress.report_append, List.append_assoc] at last
          exact last
      · next noCondition =>
        split
        · next last =>
          obtain ⟨removed, leaves, held, place⟩ := removeTaken_simulates owns several slot
          obtain ⟨after, changes, changed, still⟩ :=
            held.setContent (takeCondition node "else").node.content
          refine ⟨after, runs_repeatM_inr (runs_alternativeStep owns several slot ?_), ?_,
            still.trans place⟩
          · rw [if_neg other, if_neg noCondition, if_pos last, takeCondition_bare]
            refine leaves.bind (changes.bind ?_)
            simp only [List.map_cons, alternativeOf, span_takeCondition, id_takeCondition]
            exact runs_pure _
          · have content : { node with content := (takeCondition node "else").node.content } =
                (takeCondition node "else").node := by
              rw [node_takeCondition, Node.content_withProperties]
            rw [content] at changed
            rw [Progress.report_nil]
            exact changed
        · next neither =>
          refine ⟨context, runs_repeatM_inr (runs_alternativeStep owns several slot ?_), ?_, rfl⟩
          · rw [if_neg other, if_neg noCondition, if_neg neither, List.map_nil, List.append_nil]
            exact runs_pure _
          · rw [Progress.report_nil]
            exact owns

end Lists

variable {context : Context} {frame : Frame} {site : Site} {node : Node} {progress : Progress}

theorem countBranches_simulates (shows : context.Shows frame site progress)
    (alone : site.hasSiblings = false → site.before = []) :
    Runs countBranches context (firstKey site) context := by
  have siblings := shows.runs_siblings (by rw [shows.slot_eq])
  refine siblings.bind (runs_place.bind ?_)
  rw [shows.slot_eq, ← shows.siblings_eq, firstKey]
  by_cases several : site.hasSiblings = true
  · have inside : ¬ (site.nodes.map (·.id)).length < site.index := by
      simp only [Site.nodes, Site.index, List.length_map, List.length_append, List.length_reverse]
      omega
    have front : (site.nodes.map (·.id)).take site.index = site.before.reverse.map (·.id) := by
      simp [Site.nodes, Site.index]
    have looks := @runs_mapM_look context site.before.reverse fun other member =>
      shows.stored (by simp_all [Site.nodes])
    have counted : (site.before.reverse.map Node.bare).foldl
        (fun count node => count + node.branchCount) 0 =
          site.before.foldl (fun count node => count + node.branchCount) 0 := by
      rw [List.foldl_map]
      exact (List.reverse_perm site.before).foldl_eq' (fun _ _ _ _ _ => Nat.add_right_comm _ _ _) 0
    rw [if_pos several, if_pos several]
    dsimp only
    rw [if_neg inside, front, ← counted]
    exact looks.bind (runs_pure _)
  · have empty := alone (by simpa using several)
    rw [if_neg several, if_neg several]
    simp only [Site.index, empty]
    exact runs_pure 0

theorem storeConditional_simulates {front rest : List Node} {id : NodeId} {conditional : Node}
    {branches : List (Branch × NodeId)} {later : Progress}
    (owns : context.Owns frame (front.map (·.id) ++ id :: rest.map (·.id))
      (front ++ (conditional.children ++ rest)) progress)
    (slot : context.slot = { parent := frame.parent?, index := front.length })
    (number : conditional.id = progress.next)
    (content : conditional.content = .conditional (branches.map (·.1)))
    (ids : conditional.children.map (·.id) = branches.map (·.2)) (next : later.next = progress.next + 1)
    (noted : later.bare = (progress.report (repeatedKeys {} conditional.children)).bare) :
    ∃ after, Runs (storeConditional conditional.span branches) context () after ∧
      after.Owns frame ((front ++ conditional :: rest).map (·.id)) (front ++ conditional :: rest) later ∧
      after.slot = context.slot := by
  have looks := runs_mapM_look fun child (member : child ∈ conditional.children) =>
    owns.stored (List.mem_append_right front (List.mem_append_left rest member))
  obtain ⟨keyed, notes, reported, stays⟩ := owns.note
    (·.report (repeatedKeys {} conditional.children))
    (progress.report (repeatedKeys {} conditional.children)) rfl rfl
  obtain ⟨middle, after, allocs, replaces, last, same⟩ :=
    reported.exchange (stays.trans slot) number (List.Sublist.refl _) next noted
  refine ⟨after, ?_, last, same.trans stays⟩
  have cell : conditional.cell =
      ⟨.conditional (branches.map (·.1)), conditional.span, branches.map (·.2)⟩ := by
    rw [Node.cell, content, ids]
  rw [storeConditional, ← cell, ← ids]
  refine looks.bind ?_
  rw [repeatedKeys_bare]
  exact notes.bind (allocs.bind replaces)

theorem groupStored_simulates (shows : context.Shows frame site progress)
    (focused : site.focus = some node) (alone : site.hasSiblings = false → site.before = []) :
    ∃ after, Runs (groupStored node.id) context () after ∧
      after.Shows frame (group node site progress).site (group node site progress).progress := by
  let first := takeCondition node "if"
  let conditional := grouped node site progress.next
  let branch : Branch × NodeId :=
    ({ condition := first.condition, key := firstKey site, span := node.span }, node.id)
  have owns := shows.toOwns
  rw [Site.nodes_of_focus focused] at owns
  have slot : context.slot = { parent := frame.parent?, index := site.before.length } := by
    rw [shows.slot_eq, focused]
    rfl
  obtain ⟨taken, takes, held, place⟩ := takeStored_simulates owns "if"
  rw [List.map_append, List.map_cons] at held
  -- What is taken from behind the node, if it has siblings.
  obtain ⟨chosen, alternatives, gathered, still⟩ :
      ∃ after, Runs (takeAlternatives [branch] (firstKey site + 1) 0) taken
          (branch :: (others site).found.map fun found => (found.branch, found.node.id)) after ∧
        after.Owns frame (site.before.reverse.map (·.id) ++ node.id :: (others site).rest.map (·.id))
          (site.before.reverse ++ [first.node] ++
            ((others site).found.map (·.node) ++ (others site).rest))
          ((progress.report first.problems).report (others site).problems) ∧
        after.slot = taken.slot := by
    have slot : taken.slot =
        { parent := frame.parent?, index := (site.before.reverse.map (·.id)).length } := by
      rw [place, slot, List.length_map, List.length_reverse]
    rw [List.append_cons site.before.reverse first.node] at held
    rw [others]
    by_cases several : site.hasSiblings = true
    · rw [if_pos several]
      exact @takeAlternatives_simulates _ _ _ _ _ _ [] site.after (firstKey site + 1) [branch] held
        (shows.siblings_eq ▸ several) slot
    · have siblings := held.runs_siblings (by rw [slot])
      rw [← shows.siblings_eq, if_neg several] at siblings
      rw [if_neg several, Progress.report_nil]
      exact ⟨taken, runs_repeatM_inr (siblings.bind (runs_place.bind (runs_pure _))), held, rfl⟩
  have forest : site.before.reverse ++ [first.node] ++
      ((others site).found.map (·.node) ++ (others site).rest) =
        site.before.reverse ++ (conditional.children ++ (others site).rest) := by
    simp [conditional, grouped, alternativeOf, first]
  rw [forest] at gathered
  obtain ⟨after, stores, last, same⟩ :=
    @storeConditional_simulates _ _ _ _ _ _ conditional
      (branch :: (others site).found.map fun found => (found.branch, found.node.id))
      (group node site progress).progress gathered
      (by rw [still, place, slot, List.length_reverse]) rfl
      (by simp [branch, first, conditional, grouped, alternativeOf, span_takeCondition])
      (by simp [branch, conditional, grouped, alternativeOf, id_takeCondition]) rfl
      (by rw [Progress.report_append, Progress.report_append, ← List.append_assoc]; rfl)
  have span : conditional.span = node.span.join ((((branch :: (others site).found.map fun found =>
      (found.branch, found.node.id)).getLast?).map (·.1.span)).getD node.span) := by
    rw [List.getLast?_cons, List.getLast?_map]
    cases last : (others site).found.getLast? with
    | none => simp [conditional, grouped, last, branch]
    | some found => simp [conditional, grouped, last]
  rw [span] at stores
  refine ⟨after, ?_, ⟨?_, ?_, shows.around_eq, shows.siblings_eq⟩⟩
  · exact (countBranches_simulates shows alone).bind ((shows.look focused).bind (takes.bind
      (alternatives.bind stores)))
  · have listing : (group node site progress).site.nodes =
        site.before.reverse ++ conditional :: (others site).rest := Site.nodes_of_focus rfl
    rw [listing]
    exact last
  · rw [same, still, place, slot]
    rfl

/-- An alternative that follows no condition leaves the list, if it is one of several siblings. -/
theorem removeNode_simulates {dropped : Progress} (shows : context.Shows frame site progress)
    (focused : site.focus = some node) (bare : dropped.bare = progress.bare)
    (next : dropped.next = progress.next) :
    ∃ after, Runs removeNode context () after ∧
      after.Shows frame site.remove (if site.hasSiblings then dropped else progress) := by
  have siblings := shows.runs_siblings? (by rw [shows.slot_eq])
  rw [← shows.siblings_eq] at siblings
  by_cases several : site.hasSiblings = true
  · have inside : site.index < (site.nodes.map (·.id)).length := by
      simp only [Site.nodes, Site.index, focused, Option.toList_some, List.length_map,
        List.length_append, List.length_reverse, List.length_singleton]
      omega
    have removed : site.remove.nodes = site.before.reverse ++ site.after := by
      simp [Site.remove, several, Site.nodes]
    have fewer : (site.nodes.map (·.id)).eraseIdx site.index = site.remove.nodes.map (·.id) := by
      rw [removed, Site.nodes_of_focus focused, List.map_append, List.map_append, Site.index,
        List.eraseIdx_append_of_length_le (by simp)]
      simp
    have sublist : site.remove.nodes.Sublist site.nodes := by
      rw [removed, Site.nodes_of_focus focused]
      exact (List.Sublist.refl _).append (List.sublist_cons_self node site.after)
    obtain ⟨erased, sets, held, place⟩ := shows.toOwns.relist (site.remove.nodes.map (·.id))
    have left := held.forget (Node.sublist_flattenAll_of_sublist sublist).subset
      (Node.tally_le_of_sublist sublist)
    rw [if_pos several] at siblings ⊢
    refine ⟨{ erased with slot := { parent := frame.parent?, index := site.index, removed := true } },
      ?_, left.of_eq rfl rfl rfl (left.progress_eq.trans bare.symm) next, ?_, ?_, ?_⟩
    · refine runs_place.bind (siblings.bind ?_)
      rw [shows.slot_eq]
      dsimp only
      rw [if_pos inside, fewer]
      exact sets.bind (runs_modify _)
    · simp [Site.remove, several, Site.index]
    · simp [Site.remove, several, shows.around_eq]
    · simp [Site.remove, several, ← shows.siblings_eq]
  · have same : site.remove = site := if_neg several
    rw [if_neg several] at siblings ⊢
    rw [same]
    exact ⟨context, runs_place.bind (siblings.bind (runs_pure ())), shows⟩

theorem links_bare (around : Surroundings) (pairs : List (Branch × Node)) :
    links around (pairs.map fun pair => (pair.1, pair.2.bare)) = links around pairs := by
  induction pairs with
  | nil => rfl
  | cons pair rest ih => 
    obtain ⟨branch, child⟩ := pair
    rw [List.map_cons, links, links, ih]
    rfl

theorem keyBranches_bare (pairs : List (Branch × Node)) (progress : Progress) :
    (pairs.map fun pair => (pair.1, pair.2.bare)).foldl
        (fun progress pair => keyBranch progress pair.1 pair.2) progress.bare =
      (pairs.foldl (fun progress pair => keyBranch progress pair.1 pair.2) progress).bare ∧
    (pairs.foldl (fun progress pair => keyBranch progress pair.1 pair.2) progress).next =
      progress.next := by
  induction pairs generalizing progress with
  | nil => exact ⟨rfl, rfl⟩
  | cons pair rest ih => exact ih (keyBranch progress pair.1 pair.2)

theorem visitor_simulates (safe : Node → Progress → Prop) (ordinal : Nat) :
    visitor.Simulates safe ordinal Conditional.pass where
  enter {frame context site node progress entrance} shows focused _ enters _ := by
    have looks := shows.look focused
    have entered : Conditional.enter node site progress = .ok entrance := enters
    unfold Conditional.enter at entered
    split at entered
    · next present =>
      split at entered
      · cases entered
      · next several =>
        cases entered
        have alone (none : site.hasSiblings = false) : site.before = [] := by simpa [none] using several
        obtain ⟨after, groups, last⟩ := groupStored_simulates shows focused alone
        refine ⟨rfl, after, looks.bind ?_, last⟩
        rw [Node.properties_bare, if_pos present]
        exact groups.bind (runs_pure true)
    · next absent =>
      split at entered
      · next alternative =>
        cases entered
        refine ⟨rfl, context, looks.bind ?_, shows⟩
        rw [Node.properties_bare, if_neg absent]
        simp only [alternative]
        exact runs_pure false
      · next directive alternative =>
        obtain ⟨noted, notes, shown⟩ := shows.note
          (·.report [{ kind := .elseWithoutIf, span := directive.span }])
          (progress.report [{ kind := .elseWithoutIf, span := directive.span }]) rfl rfl
        obtain ⟨after, removes, last⟩ := @removeNode_simulates _ _ _ _ _
          ((progress.report [{ kind := .elseWithoutIf, span := directive.span }]).drop [node]) shown
          focused rfl rfl
        have stays : site.remove.before = site.before := by
          unfold Site.remove
          split
          · rfl
          · rfl
        have opens : Runs (visitor.enter ordinal node.id) context false after := by
          refine looks.bind ?_
          rw [Node.properties_bare, if_neg absent]
          simp only [alternative]
          exact notes.bind (removes.bind (runs_pure false))
        split at entered
        · next several =>
          cases entered
          rw [if_pos several] at last
          exact ⟨stays, after, opens, last⟩
        · next several =>
          cases entered
          rw [if_neg several, Site.remove, if_neg several] at last
          exact ⟨rfl, after, opens, last⟩
  exit {frame context site node progress} shows _ kept _ := by
    have member : node ∈ (site.replace node).nodes := by simp [Site.nodes, Site.replace]
    have stored := runs_stored (shows.stored member)
    have looks := runs_mapM_look (shows.stored_children member)
    refine ⟨rfl, ?_⟩
    change ∃ after, _ ∧ Context.Shows after frame (site.replace node)
      (Conditional.exit node (site.replace node) progress)
    change (Conditional.exit node (site.replace node) progress).fault? = none at kept
    obtain ⟨id, content, span, children⟩ := node
    cases content with
    | conditional branches =>
      let pairs := branches.zip children
      let keyed := pairs.foldl (fun progress pair => keyBranch progress pair.1 pair.2) progress
      let written := links (keyed.surroundings
        (site.replace ⟨id, .conditional branches, span, children⟩)) pairs
      obtain ⟨bare, next⟩ := keyBranches_bare pairs progress
      obtain ⟨noted, notes, shown⟩ := shows.note
        (fun progress => (pairs.map fun pair => (pair.1, pair.2.bare)).foldl
          (fun progress pair => keyBranch progress pair.1 pair.2) progress) keyed bare next
      have zipped : branches.zip (children.map Node.bare) =
          pairs.map fun pair => (pair.1, pair.2.bare) := List.zip_map_right
      have left : Conditional.exit ⟨id, .conditional branches, span, children⟩
          (site.replace ⟨id, .conditional branches, span, children⟩) progress =
            if written.value.1.isEmpty then keyed.absorb written
            else (keyed.absorb written).setCode id
              (.conditional written.value.1 written.value.2) := rfl
      have fits : written.fault? = none := by
        rw [left] at kept
        split at kept
        · exact Progress.fault?_of_absorb kept
        · exact @Progress.fault?_of_absorb _ keyed _ kept
      obtain ⟨taken, takes, absorbed⟩ := shown.take fits
      have opens {after : Context} (rest : Runs (if written.value.1.isEmpty then return ()
          else note (·.setCode id (.conditional written.value.1 written.value.2))) taken () after) :
          Runs (visitor.exit ordinal id) context () after := by
        refine stored.bind (looks.bind ?_)
        rw [zipped]
        refine notes.bind (shown.surroundings.bind ?_)
        rw [links_bare]
        exact takes.bind rest
      rw [left]
      by_cases empty : written.value.1.isEmpty = true
      · rw [if_pos empty] at opens ⊢
        exact ⟨taken, opens (runs_pure ()), absorbed⟩
      · obtain ⟨after, writes, last⟩ := absorbed.note
          (·.setCode id (.conditional written.value.1 written.value.2))
          ((keyed.absorb written).setCode id (.conditional written.value.1 written.value.2)) rfl rfl
        rw [if_neg empty] at opens ⊢
        exact ⟨after, opens writes, last⟩
    | comment | text | interpolation | element | loop =>
      exact ⟨context, stored.bind (runs_pure ()), shows⟩
  exitRoot owns _ _ := ⟨_, runs_pure (), owns⟩

end Conditional

end TemplateCompiler
