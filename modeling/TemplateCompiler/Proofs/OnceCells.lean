import TemplateCompiler.Proofs.OnceMarks
import TemplateCompiler.Proofs.SharedCells

/-! Cells below what is rendered once. What is kept as a whole needs no cells inside, so nothing
there has one: no node that is to be kept by itself, and no handler. Of a conditional this is so for
the first branch only, for only there it is known that something is rendered once. -/

namespace TemplateCompiler

def Expr.isCacheable : Expr → Bool
  | handler _ traits => traits.cacheable
  | _ => false

/-- No handler in the expression has a cell or may be given one. -/
def Expr.Cellless (expr : Expr) : Prop :=
  expr.Every fun part => part.cell? = none ∧ part.isCacheable = false

theorem Expr.cellless_assignCells (expr : Expr) (next : Nat)
    (own : expr.cell? = none ∧ expr.isCacheable = false) :
    (expr.assignCells next).1.cell? = none ∧ (expr.assignCells next).1.isCacheable = false := by
  cases expr with
  | handler body traits =>
    have kept : traits.cacheable = false := own.2
    rw [assignCells, kept, Bool.false_and, if_neg Bool.false_ne_true]
    exact own
  | _ => simp [assignCells, cell?, isCacheable]

theorem Expr.Cellless.uncached {expr : Expr} (cellless : expr.Cellless) : expr.Uncached :=
  cellless.imp fun _ => And.left

theorem Expr.Lowered.cellless {around : Surroundings} {expr : Expr} (lowered : expr.Lowered around)
    (once : around.inOnce = true) : expr.Cellless := by
  refine lowered.imp fun part fits => ?_
  cases part with
  | handler body traits =>
    refine ⟨fits.1, ?_⟩
    rw [isCacheable, fits.2, once, Bool.not_true, Bool.and_false]
  | _ => exact ⟨rfl, rfl⟩

/-- A value is no handler, wherever it is resolved. -/
theorem Surroundings.cellless_resolveValue (around : Surroundings) (value : Value) :
    (around.resolveValue value).value.Cellless :=
  Expr.Lowered.cellless (lowered_resolveValue { around with inOnce := true } value) rfl

theorem Conditional.cellless_links (around : Surroundings) (pairs : List (Branch × Node)) :
    ∀ link ∈ (links around pairs).value.1, link.test.Cellless :=
  forall_links around around.cellless_resolveValue pairs

/-- Only the handlers of an element may be given cells, and only outside of what is rendered
once. -/
theorem Settled.cellless {progress : Progress} {around : Surroundings} {role : Role} {node : Node}
    (settled : Settled progress around role node)
    (quiet : (around.own node.content).inOnce = true ∨ node.isElement = false) :
    ∃ body, progress.table.get? node.id = some { body } ∧
      ∀ expr ∈ body.expressions, expr.Cellless := by
  rcases quiet with once | other
  · obtain ⟨body, code, lowered⟩ := settled.lowered
    exact ⟨body, code, fun expr member => (lowered expr member).cellless once⟩
  · cases settled with
    | text _ _ _ _ _ code =>
      refine ⟨_, code, fun expr member => ?_⟩
      simp only [CodeBody.expressions, TextRun.call, Reported.value_mapM, List.mem_map] at member
      obtain ⟨part, _, rfl⟩ := member
      exact Expr.Lowered.cellless (TextRun.lowered_part { around with inOnce := true } part) rfl
    | comment _ code => exact ⟨_, code, List.forall_mem_nil _⟩
    | element => cases other
    | @conditional _ _ _ _ pairs _ _ _ code =>
      refine ⟨_, code, fun expr member => ?_⟩
      rw [Conditional.body, CodeBody.expressions] at member
      obtain ⟨link, listed, rfl⟩ := List.mem_map.1 member
      exact Conditional.cellless_links around pairs link listed
    | @loop _ _ _ _ loop _ _ code =>
      refine ⟨_, code, fun expr member => ?_⟩
      simp only [CodeBody.expressions, Loops.call, List.mem_singleton] at member
      rw [member]
      exact around.cellless_resolveValue loop.source

theorem Surroundings.inOnce_along (around : Surroundings) (above : List Node) :
    (around.along above).inOnce =
      (around.inOnce || above.any (·.properties.hasDirective "once")) := by
  induction above with
  | nil => exact (Bool.or_false _).symm
  | cons parent above ih =>
    obtain ⟨id, content, span, children⟩ := parent
    rw [List.any_cons, Bool.or_left_comm, ← ih, Bool.or_comm, along]
    cases content with
    | element => rfl
    | _ => exact (Bool.or_false _).symm

theorem Surroundings.inOnce_own (around : Surroundings) (node : Node) :
    (around.own node.content).inOnce =
      (around.inOnce || node.properties.hasDirective "once") := by
  obtain ⟨id, content, span, children⟩ := node
  cases content with
  | element => rfl
  | _ => exact (Bool.or_false _).symm

namespace Node

/-- A way below a node starts from one of its children. -/
theorem Lineage.descend {node inner : Node} {roots above between : List Node}
    (lineage : Lineage roots node above) (further : Lineage node.children inner between) :
    Lineage roots inner (between ++ node :: above) := by
  induction further with
  | root member => exact .child lineage member
  | child _ member ih => exact .child ih member

/-- The nodes that are known to be rendered once if the node is: of a conditional the first
branch. -/
def covered (node : Node) : List Node :=
  if node.isConditional then node.children.take 1 else node.children

end Node

theorem Table.sitesAll_eq_nil {table : Table} {nodes : List Node} :
    table.sitesAll nodes = [] ↔
      ∀ node above, Node.Lineage nodes node above → table.sitesAt node.id = [] := by
  rw [sitesAll, List.flatMap_eq_nil_iff]
  constructor
  · intro silent node above lineage
    exact silent node (Node.mem_flattenAll_iff.2 ⟨above, lineage⟩)
  · intro silent node member
    obtain ⟨above, lineage⟩ := Node.mem_flattenAll_iff.1 member
    exact silent node above lineage

/-- Only a mark gives a cell to a node. -/
theorem Plan.Recoded.cache_eq_none {marks : NodeMap CacheMark} {dependencies : NodeMap Expr}
    {id : NodeId} {body : CodeBody} {new : Code} (unmarked : marks.get? id = none)
    (recoded : Recoded marks dependencies id { body } new) : new.cache = none := by
  induction recoded with
  | refl => rfl
  | wrap _ _ marked => cases unmarked.symm.trans marked
  | handlers _ _ _ ih => exact ih

namespace Stages

variable {option : LowerOption} {template : Template} {roots : List Node} {progress : Progress}
  {plan : Plan} {node : Node} {above : List Node}

theorem handlerCells_eq_nil {code : Code} (stages : Stages option template roots progress plan)
    (lineage : Node.Lineage roots node above)
    (quiet : (node :: above).any (·.properties.hasDirective "once") = true ∨
      node.isElement = false)
    (found : plan.table.get? node.id = some code) : code.handlerCells = [] := by
  obtain ⟨role, settled⟩ := Settled.along stages.walked.settled lineage
  rw [List.any_cons, Bool.or_comm] at quiet
  obtain ⟨body, before, cellless⟩ := settled.cellless (by
    rwa [Surroundings.inOnce_own, Surroundings.inOnce_along, LowerOption.surroundings,
      Bool.false_or])
  rcases stages.code_cases before found with ⟨index, rfl⟩ | recoded
  · rfl
  · have needed : ((progress.memoDependencies.get? node.id).getD (.source "")).Cellless := by
      cases given : progress.memoDependencies.get? node.id with
      | none => exact Expr.Lowered.cellless (@Expr.lowered_source { reader := default, inOnce := true } "") rfl
      | some expr =>
        obtain ⟨value, rfl⟩ := settled.noted.dependencies expr given
        exact Surroundings.cellless_resolveValue _ value
    have final := recoded.every Expr.cellless_assignCells needed cellless
    exact Caching.handlerCells_of_uncached fun expr member =>
      Expr.Cellless.uncached (final expr member)

/-- Nothing on a node without a mark uses a cell if its handlers do not. -/
theorem sitesAt_eq_nil (stages : Stages option template roots progress plan)
    (lineage : Node.Lineage roots node above)
    (quiet : (node :: above).any (·.properties.hasDirective "once") = true ∨
      node.isElement = false)
    (unmarked : progress.marks.get? node.id = none) : plan.table.sitesAt node.id = [] := by
  cases found : plan.table.get? node.id with
  | none =>
    rw [Table.sitesAt, found]
    rfl
  | some code =>
    obtain ⟨role, settled⟩ := Settled.along stages.walked.settled lineage
    obtain ⟨body, before, -⟩ := settled.lowered
    have own : code.cache = none := by
      rcases stages.code_cases before found with ⟨index, rfl⟩ | recoded
      · rfl
      · exact recoded.cache_eq_none unmarked
    rw [Table.sitesAt, found, Option.toList_some, List.flatMap_singleton, Code.sites, own,
      stages.handlerCells_eq_nil lineage quiet found]
    rfl

/-- Inside of what is rendered once there are no marks. -/
theorem mark_eq_none (stages : Stages option template roots progress plan)
    (lineage : Node.Lineage roots node above)
    (within : above.any (·.properties.hasDirective "once") = true) :
    progress.marks.get? node.id = none := by
  obtain ⟨role, settled⟩ := Settled.along stages.walked.settled lineage
  refine settled.noted.mark ?_
  rw [Surroundings.inOnce_along, within, Bool.or_true]

/-- Nothing below an element that is rendered once uses a cell. -/
theorem sitesAll_of_directed (stages : Stages option template roots progress plan)
    (lineage : Node.Lineage roots node above)
    (directed : node.properties.hasDirective "once" = true) :
    plan.table.sitesAll node.children = [] := by
  refine Table.sitesAll_eq_nil.2 fun inner between further => ?_
  have place := lineage.descend further
  have within : (between ++ node :: above).any (·.properties.hasDirective "once") = true :=
    List.any_eq_true.2 ⟨node, List.mem_append_right between List.mem_cons_self, directed⟩
  refine stages.sitesAt_eq_nil place (.inl ?_) (stages.mark_eq_none place within)
  rw [List.any_cons, within, Bool.or_true]

end Stages

theorem Node.RepeatsOnce.quiet {node : Node} (repeats : node.RepeatsOnce) :
    node.properties.hasDirective "once" = true ∨ node.isElement = false := by
  cases repeats with
  | element directed => exact .inl directed
  | placeholder isComment =>
    obtain ⟨id, content, span, children⟩ := node
    cases content with
    | comment => exact .inr rfl
    | _ => cases isComment
  | loop => exact .inr rfl

theorem Node.RepeatsOnce.covered_eq {node : Node} (repeats : node.RepeatsOnce) :
    node.covered = node.children := by
  refine if_neg (Bool.not_eq_true _ ▸ ?_)
  obtain ⟨id, content, span, children⟩ := node
  cases content with
  | conditional =>
    cases repeats with
    | element directed => cases directed
    | placeholder isComment => cases isComment
  | _ => rfl

theorem Node.CarriesOnce.quiet {node : Node} (carries : node.CarriesOnce) :
    node.properties.hasDirective "once" = true ∨ node.isElement = false := by
  cases carries with
  | alone repeats => exact repeats.quiet
  | branch => exact .inr rfl

theorem OnceNoted.unmarked {progress : Progress} {node : Node} (noted : OnceNoted progress node)
    (apart : progress.marks.get? node.id ≠ some .once)
    (quiet : node.properties.hasDirective "once" = true ∨ node.isElement = false) :
    progress.marks.get? node.id = none := by
  cases marked : progress.marks.get? node.id with
  | none => rfl
  | some mark =>
    cases mark with
    | once => exact absurd marked apart
    | memo =>
      obtain ⟨element, plain⟩ := noted.memo marked
      rw [element, plain] at quiet
      exact absurd quiet (by decide)

namespace Stages

variable {option : LowerOption} {template : Template} {roots : List Node} {progress : Progress}
  {plan : Plan} {node : Node} {above : List Node}

theorem sitesAt_of_quiet (stages : Stages option template roots progress plan)
    (marked : OnceMarked progress roots) (lineage : Node.Lineage roots node above)
    (apart : progress.marks.get? node.id ≠ some .once)
    (quiet : node.properties.hasDirective "once" = true ∨ node.isElement = false) :
    plan.table.sitesAt node.id = [] := by
  have noted := marked node (Node.mem_flattenAll_iff.2 ⟨above, lineage⟩)
  refine stages.sitesAt_eq_nil lineage (quiet.imp_left fun directed => ?_)
    (noted.unmarked apart quiet)
  rw [List.any_cons, directed, Bool.true_or]

/-- Nothing below an element that is rendered once uses a cell, also if a loop repeats it. -/
theorem sitesAll_of_repeats (stages : Stages option template roots progress plan)
    (marked : OnceMarked progress roots) (lineage : Node.Lineage roots node above)
    (repeats : node.RepeatsOnce) : plan.table.sitesAll node.children = [] := by
  cases repeats with
  | element directed => exact stages.sitesAll_of_directed lineage directed
  | placeholder isComment =>
    obtain ⟨role, settled⟩ := Settled.along stages.walked.settled lineage
    cases settled with
    | text _ leaf =>
      rw [leaf]
      rfl
    | comment => rfl
    | _ => cases isComment
  | @loop id loop span child directed =>
    have item := lineage.child (List.mem_singleton_self child)
    have noted := marked _ (Node.mem_flattenAll_iff.2 ⟨above, lineage⟩)
    rw [Table.sitesAll_singleton, stages.sitesAll_of_directed item directed,
      stages.sitesAt_of_quiet marked item (noted.first rfl child rfl) (.inl directed)]
    rfl

theorem sitesAll_covered (stages : Stages option template roots progress plan)
    (marked : OnceMarked progress roots) (lineage : Node.Lineage roots node above)
    (carries : node.CarriesOnce) : plan.table.sitesAll node.covered = [] := by
  cases carries with
  | alone repeats =>
    rw [repeats.covered_eq]
    exact stages.sitesAll_of_repeats marked lineage repeats
  | @branch id branches span first others repeats =>
    have place := lineage.child (List.mem_cons_self (l := others) (a := first))
    have noted := marked _ (Node.mem_flattenAll_iff.2 ⟨above, lineage⟩)
    change plan.table.sitesAll [first] = []
    rw [Table.sitesAll_singleton, stages.sitesAll_of_repeats marked place repeats,
      stages.sitesAt_of_quiet marked place (noted.first rfl first rfl) repeats.quiet]
    rfl

end Stages

theorem Elements.marks_exitRoot (roots : List Node) (progress : Progress) :
    (Elements.exitRoot roots progress).marks = progress.marks := by
  simp only [Elements.exitRoot]
  split <;> rfl

theorem marks_exitRootAll (roots : List Node) (progress : Progress) :
    (exitRootAll roots progress defaultPasses).2.marks = progress.marks := by
  have writes := @TextRun.writes_foldl (progress.surroundings {})
    (true && (TextRun.runs roots).length = 1) progress (TextRun.runs roots)
  exact (Elements.marks_exitRoot _ _).trans writes.marks

/-- A walk over a parsed template marks what is rendered once, and nothing else so. -/
theorem walk_onceMarked {option : LowerOption} {template : Template} {roots : List Node}
    {progress : Progress} (numbered : template.Numbered)
    (walked : walk defaultPasses template.roots
      (option.start template) = .ok (roots, progress)) :
    OnceMarked progress roots := by
  obtain ⟨visited, visiting, left⟩ := ok_of_map_eq_ok walked
  obtain ⟨out, same, marked, -⟩ :=
    visitAll_onceMarked (numbered.ready option) (.inl rfl) visiting
  rw [List.reverse_nil, List.nil_append] at same
  have fewer := exitRootAll_subset visited.nodes visited.progress
  have marks := marks_exitRootAll visited.nodes visited.progress
  rw [left] at fewer marks
  rw [same] at fewer
  exact (marked.subset fewer).congr fun number _ => congrArg (NodeMap.get? · number) marks

/-- What is kept because it is rendered once uses no cells inside. -/
structure Plan.CoversOnce (plan : Plan) : Prop where
  /-- The node may have a cell, but its handlers have none. -/
  own : ∀ node ∈ Node.flattenAll plan.template.roots, plan.marks.get? node.id = some .once →
    ∀ code, plan.table.get? node.id = some code → code.handlerCells = []
  below : ∀ node ∈ Node.flattenAll plan.template.roots, plan.marks.get? node.id = some .once →
    plan.table.sitesAll node.covered = []

/-- Whatever was parsed, in a plan that lowering comes to nothing that is covered by a node that is
rendered once uses a cell. -/
theorem lower_coversOnce {parsing : ParseOption} {lowering : LowerOption} {reading : Scan}
    {template : Template} {problems : List Problem} {lowered : Lowered}
    (parsed : parse parsing reading = .ok (template, problems))
    (lowers : lower lowering template = .ok lowered) : lowered.plan.CoversOnce := by
  have numbered := numbered_of_parse parsed
  obtain ⟨roots, progress, walked, _, rfl⟩ := walk_of_lowerWith lowers
  have stages := stages_of_walked (walk_walked numbered walked)
  have marked := walk_onceMarked numbered walked
  constructor
  all_goals
    intro node member once
    rw [stages.roots_eq] at member
    rw [stages.marks_eq] at once
    obtain ⟨above, lineage⟩ := Node.mem_flattenAll_iff.1 member
    have carries := (marked node member).once once
  · intro code found
    refine stages.handlerCells_eq_nil lineage (carries.quiet.imp_left fun directed => ?_) found
    rw [List.any_cons, directed, Bool.true_or]
  · exact stages.sitesAll_covered marked lineage carries

/-- Handlers, an element that is rendered once, and one that is kept by its dependencies, in an
element, in a loop and in a conditional that are rendered once. -/
def coveredSource : String :=
  "<p v-once @click=\"a\"><i v-once @click=\"b\"/></p><q v-for=\"c in d\" v-once @click=\"e\"/>" ++
    "<u v-if=\"f\" v-once><s v-memo=\"[g]\"/></u><b @click=\"h\"/>"

theorem lower_coversOnce_nested : ∃ template problems lowered,
    parse {} (scan {} coveredSource) = .ok (template, problems) ∧
      lower { cacheHandlers := true } template = .ok lowered ∧
      lowered.plan.slots.map (·.kind) = [.once, .once, .once, .handler] ∧
      lowered.plan.CoversOnce := by
  have succeeds : ((parse {} (scan {} coveredSource)).bind fun parsed =>
      lower { cacheHandlers := true } parsed.1).toOption.any (fun lowered =>
        decide (lowered.plan.slots.map (·.kind) = [.once, .once, .once, .handler])) = true := by
    decide +kernel
  obtain ⟨template, problems, lowered, parsed, lowers, kinds⟩ := exists_lowered succeeds
  exact ⟨template, problems, lowered, parsed, lowers, of_decide_eq_true kinds,
    lower_coversOnce parsed lowers⟩

/-- A later branch that is rendered once has a cell inside of the conditional that is kept for the
first one. -/
theorem cell_in_later_branch : ∃ template problems lowered, ∃ node inner : Node,
    parse {} (scan {} "<p v-if=\"a\" v-once/><p v-else v-once/>") = .ok (template, problems) ∧
      lower {} template = .ok lowered ∧
      node ∈ Node.flattenAll lowered.plan.template.roots ∧
      lowered.plan.marks.get? node.id = some .once ∧
      inner ∈ Node.flattenAll node.children ∧
      (lowered.plan.table.cell? inner.id).isSome = true := by
  have succeeds : ((parse {} (scan {} "<p v-if=\"a\" v-once/><p v-else v-once/>")).bind
      fun parsed => lower {} parsed.1).toOption.any (fun lowered =>
        (Node.flattenAll lowered.plan.template.roots).any fun node =>
          lowered.plan.marks.get? node.id = some .once && (Node.flattenAll node.children).any
            fun inner => (lowered.plan.table.cell? inner.id).isSome) = true := by
    decide +kernel
  obtain ⟨template, problems, lowered, parsed, lowers, found⟩ := exists_lowered succeeds
  obtain ⟨node, inside, both⟩ := List.any_eq_true.1 found
  obtain ⟨marked, deeper⟩ := Bool.and_eq_true_iff.1 both
  obtain ⟨inner, below, cell⟩ := List.any_eq_true.1 deeper
  exact ⟨template, problems, lowered, node, inner, parsed, lowers, inside,
    of_decide_eq_true marked, below, cell⟩

end TemplateCompiler
