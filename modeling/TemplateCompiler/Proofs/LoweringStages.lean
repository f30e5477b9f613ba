import TemplateCompiler.Proofs.CacheCells
import TemplateCompiler.Proofs.StaticHoisting
import TemplateCompiler.Proofs.WalkSettling

/-! From a finished walk to the final plan. Hoisting and handing out cells leave the tree as it is,
and what they do to the code of a node is known for each node by itself. -/

namespace TemplateCompiler

/-- The elements that an option asks to move. -/
def hoistedIds (option : LowerOption) (roots : List Node) (progress : Progress) : List NodeId :=
  if option.hoistStatic then Plan.staticElementsAll progress.table progress.marks roots else []

/-- A plan is what hoisting and handing out cells make of a finished walk. -/
structure Stages (option : LowerOption) (template : Template) (roots : List Node)
    (progress : Progress) (plan : Plan) : Prop where
  walked : Walked option template roots progress
  rest : plan = { planOf template roots progress with
    table := plan.table, hoists := plan.hoists, slots := plan.slots }
  length : plan.hoists.length = (hoistedIds option roots progress).length
  kept : ∀ id, id ∉ hoistedIds option roots progress →
    Option.Rel (Plan.Recoded progress.marks progress.memoDependencies id) (progress.table.get? id)
      (plan.table.get? id)
  moved : ∀ index id, (hoistedIds option roots progress)[index]? = some id → ∃ vnode,
    progress.table.get? id = some { body := .vnode vnode } ∧
      plan.table.get? id = some { body := .hoisted index } ∧
      plan.hoists[index]? = some vnode.asConstant

theorem exists_lineage_of_hoisted {option : LowerOption} {roots : List Node} {progress : Progress}
    {id : NodeId} (hoisted : id ∈ hoistedIds option roots progress) :
    ∃ node above, Node.Lineage roots node above ∧ node.id = id := by
  unfold hoistedIds at hoisted
  split at hoisted
  · exact Plan.exists_lineage_of_moved hoisted
  · cases hoisted

namespace Walked

variable {option : LowerOption} {template : Template} {roots : List Node} {progress : Progress}

theorem distinct (walked : Walked option template roots progress) (number : NodeId) :
    Node.tally number roots ≤ 1 := by
  have := walked.tally number
  have := Node.count_range_cases number progress.next
  omega

theorem static_of_hoisted {node : Node} {above : List Node}
    (walked : Walked option template roots progress) (lineage : Node.Lineage roots node above)
    (hoisted : node.id ∈ hoistedIds option roots progress) :
    Plan.Static progress.table progress.marks node ∧
      (∀ outer ∈ node :: above, outer.isElement = true ∧ progress.marks.get? outer.id = none) ∧
      ∀ number, 0 < Node.tally number node.children →
        number ∉ hoistedIds option roots progress := by
  unfold hoistedIds at *
  split
  · next on =>
    rw [if_pos on] at hoisted
    exact Plan.static_of_moved walked.distinct lineage hoisted
  · next off =>
    rw [if_neg off] at hoisted
    cases hoisted

theorem unmarked_of_hoisted {id : NodeId} (walked : Walked option template roots progress)
    (hoisted : id ∈ hoistedIds option roots progress) : progress.marks.get? id = none := by
  obtain ⟨node, above, lineage, rfl⟩ := exists_lineage_of_hoisted hoisted
  exact ((walked.static_of_hoisted lineage hoisted).2.1 node List.mem_cons_self).2

theorem hoist_moved (walked : Walked option template roots progress) :
    Plan.Moved (planOf template roots progress) (hoistedIds option roots progress)
      (if option.hoistStatic then (planOf template roots progress).hoist
        else planOf template roots progress) := by
  unfold hoistedIds
  split
  · exact Plan.hoist_moved (planOf template roots progress) walked.distinct
  · exact ⟨rfl, rfl, fun _ _ => rfl, fun _ _ => rfl, fun _ _ found => nomatch found⟩

end Walked

/-- An entry that refers to a constant keeps its form, for what is moved has no mark. -/
theorem Plan.Recoded.hoisted {marks : NodeMap CacheMark} {dependencies : NodeMap Expr} {id : NodeId}
    {index : Nat} {new : Code} (unmarked : marks.get? id = none)
    (recoded : Recoded marks dependencies id { body := .hoisted index } new) :
    new = { body := .hoisted index } := by
  induction recoded with
  | refl => rfl
  | wrap _ _ marked => rw [unmarked] at marked; cases marked
  | handlers _ _ _ ih => cases ih

/-- What comes of a walk over a template, with the constants moved and the cells handed out. -/
theorem stages_of_walked {option : LowerOption} {template : Template} {roots : List Node}
    {progress : Progress} (walked : Walked option template roots progress) :
    Stages option template roots progress
      (if option.hoistStatic then (planOf template roots progress).hoist
        else planOf template roots progress).injectCache := by
  have moved := walked.hoist_moved
  generalize (if option.hoistStatic then (planOf template roots progress).hoist
    else planOf template roots progress) = middle at moved ⊢
  have recodes := Plan.injectCache_recodes middle
  have marks : middle.marks = progress.marks := congrArg Plan.marks moved.rest
  have dependencies : middle.memoDependencies = progress.memoDependencies :=
    congrArg Plan.memoDependencies moved.rest
  rw [marks, dependencies] at recodes
  have hoists : (planOf template roots progress).hoists = [] := rfl
  have length := moved.length
  rw [hoists, List.length_nil, Nat.zero_add] at length
  refine ⟨walked, ?_, length, fun id outside => ?_, fun index id listed => ?_⟩
  · exact congrArg (fun plan : Plan =>
      { plan with table := middle.injectCache.table, slots := middle.injectCache.slots }) moved.rest
  · rw [← show middle.table.get? id = progress.table.get? id from moved.kept id outside]
    exact recodes id
  · obtain ⟨vnode, before, after, constant⟩ := moved.moved index id listed
    rw [hoists, List.length_nil, Nat.zero_add] at after constant
    have unmarked := walked.unmarked_of_hoisted (List.mem_of_getElem? listed)
    have later := recodes id
    rw [after] at later
    generalize middle.injectCache.table.get? id = final at later
    cases later with
    | some recoded => exact ⟨vnode, before, congrArg some (recoded.hoisted unmarked), constant⟩

theorem lower_stages {option : LowerOption} {template : Template} {lowered : Lowered}
    (numbered : template.Numbered) (lowers : lower option template = .ok lowered) :
    ∃ roots progress, Stages option template roots progress lowered.plan := by
  obtain ⟨roots, progress, walked, final⟩ := lower_walked numbered lowers
  rw [final]
  exact ⟨roots, progress, stages_of_walked walked⟩

/-- Whether a text can be lowered, and what comes of it, is found out by lowering it. -/
theorem exists_lowered {parsing : ParseOption} {lowering : LowerOption} {reading : Scan}
    {test : Lowered → Bool} (succeeds : ((parse parsing reading).bind fun parsed =>
      lower lowering parsed.1).toOption.any test = true) :
    ∃ template problems lowered, parse parsing reading = .ok (template, problems) ∧
      lower lowering template = .ok lowered ∧ test lowered = true := by
  cases parsed : parse parsing reading with
  | error fault =>
    rw [parsed] at succeeds
    cases succeeds
  | ok result =>
    rw [parsed] at succeeds
    change (lower lowering result.1).toOption.any test = true at succeeds
    cases lowers : lower lowering result.1 with
    | error fault =>
      rw [lowers] at succeeds
      cases succeeds
    | ok lowered =>
      rw [lowers] at succeeds
      exact ⟨result.1, result.2, lowered, rfl, lowers, succeeds⟩

namespace Stages

variable {option : LowerOption} {template : Template} {roots : List Node} {progress : Progress}
  {plan : Plan}

theorem roots_eq (stages : Stages option template roots progress plan) :
    plan.template.roots = roots := by
  rw [stages.rest]
  rfl

theorem marks_eq (stages : Stages option template roots progress plan) :
    plan.marks = progress.marks := by
  rw [stages.rest]
  rfl

theorem stays {id : NodeId} {code : Code} (stages : Stages option template roots progress plan)
    (found : progress.table.get? id = some code) (outside : id ∉ hoistedIds option roots progress) :
    ∃ final, plan.table.get? id = some final ∧
      Plan.Recoded progress.marks progress.memoDependencies id code final := by
  have kept := stages.kept id outside
  rw [found] at kept
  generalize plan.table.get? id = final at kept
  cases kept with
  | some recoded => exact ⟨_, rfl, recoded⟩

theorem moves {id : NodeId} {code : Code} (stages : Stages option template roots progress plan)
    (found : progress.table.get? id = some code) (hoisted : id ∈ hoistedIds option roots progress) :
    ∃ index vnode, code = { body := .vnode vnode } ∧
      plan.table.get? id = some { body := .hoisted index } ∧
      plan.hoists[index]? = some vnode.asConstant := by
  obtain ⟨index, listed⟩ := List.mem_iff_getElem?.1 hoisted
  obtain ⟨vnode, before, after, constant⟩ := stages.moved index id listed
  exact ⟨index, vnode, Option.some.inj (found.symm.trans before), after, constant⟩

/-- In the end a node refers to a constant, or has its code with some cells. -/
theorem code_cases {id : NodeId} {code final : Code}
    (stages : Stages option template roots progress plan)
    (before : progress.table.get? id = some code) (after : plan.table.get? id = some final) :
    (∃ index, final = { body := .hoisted index }) ∨
      Plan.Recoded progress.marks progress.memoDependencies id code final := by
  by_cases hoisted : id ∈ hoistedIds option roots progress
  · obtain ⟨index, _, _, reference, _⟩ := stages.moves before hoisted
    exact .inl ⟨index, Option.some.inj (after.symm.trans reference)⟩
  · obtain ⟨_, found, recoded⟩ := stages.stays before hoisted
    cases after.symm.trans found
    exact .inr recoded

/-- Only the nodes of the tree have code. -/
theorem get?_of_absent {id : NodeId} (stages : Stages option template roots progress plan)
    (absent : Node.tally id roots = 0) : plan.table.get? id = none := by
  have outside : id ∉ hoistedIds option roots progress := by
    intro hoisted
    obtain ⟨node, above, lineage, rfl⟩ := exists_lineage_of_hoisted hoisted
    have := lineage.tally_le node.id
    have := Node.tally_self_pos node
    omega
  have final := stages.kept id outside
  rw [(stages.walked.silent id absent).table] at final
  generalize plan.table.get? id = entry at final ⊢
  cases final with
  | none => rfl

theorem exists_of_code {id : NodeId} {code : Code}
    (stages : Stages option template roots progress plan)
    (found : plan.table.get? id = some code) : ∃ node ∈ Node.flattenAll roots, node.id = id := by
  by_contra missing
  have absent : Node.tally id roots = 0 :=
    Nat.eq_zero_of_not_pos fun present => missing (Node.tally_pos_iff.1 present)
  rw [stages.get?_of_absent absent] at found
  cases found

/-- Each constant is the virtual node of an element, which refers to it. -/
theorem constant {index : Nat} {call : VNode} (stages : Stages option template roots progress plan)
    (found : plan.hoists[index]? = some call) :
    ∃ node above vnode, Node.Lineage roots node above ∧
      node.id ∈ hoistedIds option roots progress ∧
      progress.table.get? node.id = some { body := .vnode vnode } ∧
      plan.table.get? node.id = some { body := .hoisted index } ∧ call = vnode.asConstant := by
  have bound : index < (hoistedIds option roots progress).length := by
    rw [← stages.length]
    exact (List.getElem?_eq_some_iff.1 found).1
  have listed := List.getElem?_eq_getElem bound
  have hoisted := List.mem_of_getElem? listed
  obtain ⟨vnode, before, after, constant⟩ := stages.moved index _ listed
  obtain ⟨node, above, lineage, same⟩ := exists_lineage_of_hoisted hoisted
  rw [← same] at before after hoisted
  exact ⟨node, above, vnode, lineage, hoisted, before, after,
    Option.some.inj (found.symm.trans constant)⟩

end Stages

end TemplateCompiler
