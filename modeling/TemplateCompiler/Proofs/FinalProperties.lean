import TemplateCompiler.Proofs.KeptHandlers
import TemplateCompiler.Proofs.PlanConsistency

/-! The properties of an element in the final plan. Up to the cells of their handlers they are the
ones that were collected, fitted into the place of the element. -/

namespace TemplateCompiler

namespace Expr

mutual

/-- The expression before cells are handed out. Keys hold no handlers. -/
def withoutCells : Expr → Expr
  | handler body traits => handler body { traits with slot := none }
  | props entries => props (withoutCellsEntries entries)
  | call helper args => call helper (withoutCellsAll args)
  | array items => array (withoutCellsAll items)
  | compound parts => compound (withoutCellsAll parts)
  | other => other

def withoutCellsAll : List Expr → List Expr
  | [] => []
  | expr :: rest => expr.withoutCells :: withoutCellsAll rest

def withoutCellsEntries : List (Expr × Expr) → List (Expr × Expr)
  | [] => []
  | (key, value) :: rest => (key, value.withoutCells) :: withoutCellsEntries rest

end

theorem withoutCellsAll_eq (exprs : List Expr) :
    withoutCellsAll exprs = exprs.map withoutCells := by
  induction exprs with
  | nil => rfl
  | cons expr rest ih => rw [withoutCellsAll, ih, List.map_cons]

theorem withoutCellsEntries_eq (entries : List (Expr × Expr)) :
    withoutCellsEntries entries = entries.map fun entry => (entry.1, entry.2.withoutCells) := by
  induction entries with
  | nil => rfl
  | cons entry rest ih =>
    obtain ⟨key, value⟩ := entry
    rw [withoutCellsEntries, ih, List.map_cons]

mutual

/-- Handing out cells changes nothing but the cells. -/
theorem withoutCells_assignCells (next : Nat) : (expr : Expr) →
    (expr.assignCells next).1.withoutCells = expr.withoutCells
  | handler body traits => by
    rw [assignCells]
    split <;> rfl
  | compound parts => congrArg compound (withoutCells_assignCellsAll next parts)
  | array items => congrArg array (withoutCells_assignCellsAll next items)
  | call helper args => congrArg (call helper) (withoutCells_assignCellsAll next args)
  | props entries => congrArg props (withoutCells_assignCellsEntries next entries)
  | source _ | number _ | literal _ | madeLiteral _ | simple _ _ | param _ | context _
  | symbol _ => by rw [assignCells] <;> simp

theorem withoutCells_assignCellsAll (next : Nat) : (exprs : List Expr) →
    withoutCellsAll (assignCellsAll next exprs).1 = withoutCellsAll exprs
  | [] => rfl
  | expr :: rest => by
    rw [assignCellsAll, withoutCellsAll, withoutCellsAll, withoutCells_assignCells next expr,
      withoutCells_assignCellsAll _ rest]

theorem withoutCells_assignCellsEntries (next : Nat) : (entries : List (Expr × Expr)) →
    withoutCellsEntries (assignCellsEntries next entries).1 = withoutCellsEntries entries
  | [] => rfl
  | (key, value) :: rest => by
    rw [assignCellsEntries, withoutCellsEntries, withoutCellsEntries,
      withoutCells_assignCells next value, withoutCells_assignCellsEntries _ rest]

end

end Expr

/-- The properties of a virtual node stay the same up to cells. -/
theorem Plan.Recoded.props {marks : NodeMap CacheMark} {dependencies : NodeMap Expr}
    {id : NodeId} {vnode : VNode} {new : Code}
    (recoded : Recoded marks dependencies id { body := .vnode vnode } new) :
    ∃ call, new.body = .vnode call ∧
      call.props.map Expr.withoutCells = vnode.props.map Expr.withoutCells := by
  induction recoded with
  | refl => exact ⟨vnode, rfl, rfl⟩
  | @wrap body mark _ _ _ _ ih =>
    obtain ⟨call, rfl, equal⟩ := ih
    exact ⟨_, rfl, by rw [Caching.props_adjust, equal]⟩
  | @handlers call cache props next given _ ih =>
    obtain ⟨earlier, written, equal⟩ := ih
    cases written
    refine ⟨_, rfl, ?_⟩
    rw [← equal, given, Option.map_some, Option.map_some, Expr.withoutCells_assignCells]

namespace Stages

variable {option : LowerOption} {template : Template} {roots : List Node} {progress : Progress}
  {plan : Plan}

theorem props_unfolded {around : Surroundings} {role : Role} {node : Node} {element : Element}
    (stages : Stages option template roots progress plan)
    (settled : Settled progress around role node) (content : node.content = .element element) :
    ∃ call made, plan.unfolded? node.id = some (.vnode call) ∧
      made.props = (collectedProperties (around.inside element) element).expr? ∧
      call.props.map Expr.withoutCells =
        (role.finish element.properties made).props.map Expr.withoutCells := by
  obtain ⟨made, before, props⟩ : ∃ made, progress.table.get? node.id =
      some { body := .vnode (role.finish element.properties made) } ∧
      made.props = (collectedProperties (around.inside element) element).expr? := by
    cases settled with
    | element _ code =>
      cases content
      exact ⟨_, code, props_lowerElement ..⟩
    | text isText =>
      rw [Node.isTextLike, content] at isText
      cases isText
    | _ => cases content
  by_cases hoisted : node.id ∈ hoistedIds option roots progress
  · obtain ⟨index, call, equal, final, constant⟩ := stages.moves before hoisted
    cases equal
    refine ⟨(role.finish element.properties made).asConstant, made, ?_, props, rfl⟩
    simp only [Plan.unfolded?, final, constant, Option.map_some]
  · obtain ⟨code, final, recoded⟩ := stages.stays before hoisted
    obtain ⟨call, written, equal⟩ := recoded.props
    refine ⟨call, made, ?_, props, equal⟩
    obtain ⟨body, cache⟩ := code
    cases written
    simp only [Plan.unfolded?, final]

end Stages

end TemplateCompiler
