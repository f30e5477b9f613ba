import Mathlib.Logic.Function.Iterate
import TemplateCompiler.Proofs.CellNumbering
import TemplateCompiler.Proofs.HoistRelocation

/-! Plans to which nothing is left to do. Cells are handed out once: a marked node that is wrapped
and a handler that has a number are passed over, and after one walk there are no others. So to hand
out cells again changes nothing, and a plan that was finished without constants can still be
hoisted. -/

namespace TemplateCompiler

namespace Expr

mutual

/-- Once its handlers have numbers an expression gets no more of them. -/
theorem assignCells_again (next other : Nat) : (expr : Expr) →
    (expr.assignCells next).1.assignCells other = ((expr.assignCells next).1, other)
  | handler body traits => by
    rw [assignCells]
    split
    · simp [assignCells]
    · next idle => rw [assignCells, if_neg idle]
  | props entries => by simp only [assignCells, assignCellsEntries_again next other entries]
  | call helper args => by simp only [assignCells, assignCellsAll_again next other args]
  | array items => by simp only [assignCells, assignCellsAll_again next other items]
  | compound parts => by simp only [assignCells, assignCellsAll_again next other parts]
  | source _ | number _ | literal _ | madeLiteral _ | simple _ _ | param _ | context _
  | symbol _ => by simp [assignCells]

theorem assignCellsAll_again (next other : Nat) : (exprs : List Expr) →
    assignCellsAll other (assignCellsAll next exprs).1 = ((assignCellsAll next exprs).1, other)
  | [] => rfl
  | expr :: rest => by
    simp only [assignCellsAll]
    rw [assignCells_again next other expr, assignCellsAll_again _ other rest]

theorem assignCellsEntries_again (next other : Nat) : (entries : List (Expr × Expr)) →
    assignCellsEntries other (assignCellsEntries next entries).1 =
      ((assignCellsEntries next entries).1, other)
  | [] => rfl
  | (key, value) :: rest => by
    simp only [assignCellsEntries]
    rw [assignCells_again next other value, assignCellsEntries_again _ other rest]

end

end Expr

/-- The code of a node asks for no cell: it is wrapped if the node is marked, and the handlers among
its properties have their numbers. -/
structure Code.Finished (marked : Bool) (code : Code) : Prop where
  wrapped : marked = true → code.cache ≠ none
  numbered : ∀ vnode props, code.body = .vnode vnode → vnode.props = some props →
    ∀ next, props.assignCells next = (props, next)

namespace Caching

variable {marks : NodeMap CacheMark} {dependencies : NodeMap Expr} {inLoop : Bool}
  {caching : Caching} {id : NodeId}

/-- The node asks for no cell. A node without code never does. -/
def Finished (marks : NodeMap CacheMark) (caching : Caching) (id : NodeId) : Prop :=
  ∀ code, caching.table.get? id = some code → code.Finished (marks.contains id)

/-- A node is wrapped after its mark was looked at. -/
theorem cache_wrapMarked {code : Code} (marked : marks.contains id = true)
    (found : (caching.wrapMarked marks dependencies inLoop id).table.get? id = some code) :
    code.cache ≠ none := by
  obtain ⟨mark, given⟩ := Option.isSome_iff_exists.1 marked
  simp only [wrapMarked, given, wrap] at found
  split at found
  · rw [Table.get?_set, if_pos rfl] at found
    cases found
    exact Option.some_ne_none _
  · next bare =>
    intro uncached
    obtain ⟨body, cache⟩ := code
    cases uncached
    exact bare body found

/-- Handing out numbers to the handlers of a node keeps its wrapper, and then all have one. -/
theorem finished_cacheHandlers
    (wrapped : ∀ code, caching.table.get? id = some code → marks.contains id = true →
      code.cache ≠ none) :
    (caching.cacheHandlers id).Finished marks id := by
  intro code found
  simp only [cacheHandlers] at found
  split at found
  · next vnode cache same =>
    split at found
    · next none =>
      cases same.symm.trans found
      refine ⟨wrapped _ same, fun call props isVNode given => ?_⟩
      cases isVNode
      cases none.symm.trans given
    · next props given =>
      rw [Table.get?_set, if_pos rfl] at found
      cases found
      have kept := wrapped _ same
      refine ⟨kept, fun call made isVNode again next => ?_⟩
      cases isVNode
      cases again
      exact Expr.assignCells_again _ next props
  · next other =>
    refine ⟨wrapped _ found, fun vnode props isVNode _ => ?_⟩
    obtain ⟨body, cache⟩ := code
    cases isVNode
    exact absurd found (other vnode cache)

/-- A node asks for nothing once the walk has come to it. -/
theorem finished_enter : (caching.enter marks dependencies inLoop id).Finished marks id :=
  finished_cacheHandlers fun _ found marked => cache_wrapMarked marked found

/-- Where nothing is asked for, nothing is done. -/
theorem Finished.enter_eq (finished : caching.Finished marks id) :
    caching.enter marks dependencies inLoop id = caching := by
  have same : caching.wrapMarked marks dependencies inLoop id = caching := by
    simp only [wrapMarked]
    split
    · next mark given =>
      have marked : marks.contains id = true := Option.isSome_iff_exists.2 ⟨mark, given⟩
      simp only [wrap]
      split
      · next found => exact absurd rfl ((finished _ found).wrapped marked)
      · rfl
    · rfl
  rw [enter, same, cacheHandlers]
  split
  · next vnode cache found =>
    split
    · rfl
    · next props given =>
      have numbered := (finished _ found).numbered vnode props rfl given
      have unchanged := Table.set_get? found
      simp only [numbered, Nat.sub_self, List.replicate_zero, List.append_nil]
      rw [← given, unchanged]
  · rfl

theorem Finished.enter {other : NodeId} (finished : caching.Finished marks id) :
    (caching.enter marks dependencies inLoop other).Finished marks id := by
  by_cases same : id = other
  · subst same
    exact finished_enter
  · intro code found
    rw [get?_enter_of_ne _ _ _ _ same] at found
    exact finished code found

mutual

/-- The walk undoes nothing. -/
theorem Finished.cacheNode {caching : Caching} (inLoop : Bool)
    (finished : caching.Finished marks id) : (node : Node) →
    (Plan.cacheNode marks dependencies inLoop caching node).Finished marks id
  | ⟨number, content, span, children⟩ => by
    rw [Plan.cacheNode_eq]
    exact Finished.cacheAll _ finished.enter children

theorem Finished.cacheAll {caching : Caching} (inLoop : Bool)
    (finished : caching.Finished marks id) : (nodes : List Node) →
    (Plan.cacheAll marks dependencies inLoop caching nodes).Finished marks id
  | [] => by
    rw [Plan.cacheAll]
    exact finished
  | node :: rest => by
    rw [Plan.cacheAll]
    exact Finished.cacheAll inLoop (Finished.cacheNode inLoop finished node) rest

end

end Caching

namespace Plan

variable {marks : NodeMap CacheMark} {dependencies : NodeMap Expr} {caching : Caching}

mutual

/-- The walk finishes every node it comes to. -/
theorem finished_cacheNode (inLoop : Bool) (caching : Caching) : (node : Node) →
    ∀ inner ∈ node.flatten,
      (cacheNode marks dependencies inLoop caching node).Finished marks inner.id
  | ⟨number, content, span, children⟩, inner, inside => by
    rw [cacheNode_eq]
    rw [Node.flatten_eq] at inside
    rcases List.mem_cons.1 inside with rfl | below
    · exact Caching.finished_enter.cacheAll _ children
    · exact finished_cacheAll _ _ children inner below

theorem finished_cacheAll (inLoop : Bool) (caching : Caching) : (nodes : List Node) →
    ∀ inner ∈ Node.flattenAll nodes,
      (cacheAll marks dependencies inLoop caching nodes).Finished marks inner.id
  | [], _, inside => nomatch inside
  | node :: rest, inner, inside => by
    rw [cacheAll]
    rcases List.mem_append.1 inside with first | later
    · exact (finished_cacheNode inLoop caching node inner first).cacheAll inLoop rest
    · exact finished_cacheAll inLoop _ rest inner later

end

mutual

/-- The walk over finished nodes does nothing. -/
theorem cacheNode_of_finished (inLoop : Bool) : (node : Node) →
    (∀ inner ∈ node.flatten, caching.Finished marks inner.id) →
    cacheNode marks dependencies inLoop caching node = caching
  | ⟨number, content, span, children⟩, finished => by
    rw [Node.flatten_eq] at finished
    obtain ⟨own, below⟩ := List.forall_mem_cons.1 finished
    rw [cacheNode_eq, own.enter_eq]
    exact cacheAll_of_finished _ children below

theorem cacheAll_of_finished (inLoop : Bool) : (nodes : List Node) →
    (∀ inner ∈ Node.flattenAll nodes, caching.Finished marks inner.id) →
    cacheAll marks dependencies inLoop caching nodes = caching
  | [], _ => by rw [cacheAll]
  | node :: rest, finished => by
    obtain ⟨first, later⟩ := List.forall_mem_append.1 finished
    rw [cacheAll, cacheNode_of_finished inLoop node first]
    exact cacheAll_of_finished inLoop rest later

end

/-- To hand out cells again changes nothing, whatever the plan. -/
theorem injectCache_injectCache (plan : Plan) :
    plan.injectCache.injectCache = plan.injectCache := by
  have finished := @finished_cacheAll plan.marks plan.memoDependencies false
    { table := plan.table, slots := plan.slots } plan.template.roots
  have unchanged := @cacheAll_of_finished plan.marks plan.memoDependencies _ false
    plan.template.roots finished
  simp only [injectCache]
  exact congrArg (fun caching : Caching => { plan with
    table := caching.table
    slots := caching.slots }) unchanged

end Plan

/-- Cells are handed out once and for all. To hand them out any number of times more adds no cell,
nests no wrapper, renumbers no handler and turns no node into a block or back. -/
theorem lowerWith_keepsCells {passes : List Pass} {option : LowerOption} {template : Template}
    {lowered : Lowered} (lowers : lowerWith passes option template = .ok lowered) (count : Nat) :
    Plan.injectCache^[count] lowered.plan = lowered.plan := by
  obtain ⟨_, _, _, _, rfl⟩ := walk_of_lowerWith lowers
  exact Function.iterate_fixed (Plan.injectCache_injectCache _) count

theorem lowerWith_keepsCells_mixed : ∃ template problems lowered,
    parse {} (scan {} cachedSource) = .ok (template, problems) ∧
      lowerWith defaultPasses { cacheHandlers := true } template = .ok lowered ∧
      lowered.plan.slots.map (·.kind) = [.handler, .once, .memo, .handler] ∧
      Plan.injectCache^[3] lowered.plan = lowered.plan := by
  have succeeds : ((parse {} (scan {} cachedSource)).bind fun parsed =>
      lower { cacheHandlers := true } parsed.1).toOption.any (fun lowered =>
        decide (lowered.plan.slots.map (·.kind) = [.handler, .once, .memo, .handler])) = true := by
    decide +kernel
  obtain ⟨template, problems, lowered, parsed, lowers, kinds⟩ := exists_lowered succeeds
  exact ⟨template, problems, lowered, parsed, lowers, of_decide_eq_true kinds,
    lowerWith_keepsCells lowers 3⟩

/-- Hoisting and handing out cells commute. Whether cells are handed out to the plan of the walk
before its static elements are moved or after that, the plan is the same; so to lower a numbered
template with constants is to lower it without them, cells included, and to hoist in the end. -/
theorem lower_hoistsLast {template : Template} {option : LowerOption} {lowered : Lowered}
    (numbered : template.Numbered) (lowers : lower option template = .ok lowered) :
    ∃ roots progress off on,
      walk defaultPasses template.roots
          (option.start template) = .ok (roots, progress) ∧
        lower { option with hoistStatic := false } template = .ok off ∧
        lower { option with hoistStatic := true } template = .ok on ∧
        off.plan = (planOf template roots progress).injectCache ∧
        on.plan = (planOf template roots progress).hoist.injectCache ∧
        on = { off with plan := off.plan.hoist } := by
  obtain ⟨off, without, both⟩ := exists_lowered_of_option numbered lowers
  obtain ⟨roots, progress, walked, _, rfl⟩ := walk_of_lowerWith without
  have distinct := (walk_walked numbered walked).distinct
  have commutes := (planOf template roots progress).injectCache_hoist distinct
  exact ⟨roots, progress, _, _, walked, without, both, rfl, commutes.symm, rfl⟩

theorem lower_hoistsLast_mixed : ∃ template problems lowered,
    parse {} (scan {} ("<u>g</u>" ++ cachedSource)) = .ok (template, problems) ∧
      lower { cacheHandlers := true } template = .ok lowered ∧
      (lowered.plan.hoists.length, lowered.plan.slots.length) = (1, 4) ∧
      ∃ off, lower { hoistStatic := false, cacheHandlers := true } template = .ok off ∧
        lowered.plan = off.plan.hoist := by
  have succeeds : ((parse {} (scan {} ("<u>g</u>" ++ cachedSource))).bind fun parsed =>
      lower { cacheHandlers := true } parsed.1).toOption.any (fun lowered =>
        decide ((lowered.plan.hoists.length, lowered.plan.slots.length) = (1, 4))) = true := by
    decide +kernel
  obtain ⟨template, problems, lowered, parsed, lowers, counts⟩ := exists_lowered succeeds
  obtain ⟨_, _, off, on, _, without, both, _, _, hoisted⟩ :=
    lower_hoistsLast (numbered_of_parse parsed) lowers
  cases lowers.symm.trans both
  exact ⟨template, problems, lowered, parsed, lowers, of_decide_eq_true counts, off, without,
    congrArg Lowered.plan hoisted⟩

end TemplateCompiler
