import Mathlib.Logic.Relation
import TemplateCompiler.Proofs.PlanConsistency

/-! Views without a bound. The code of a plan is unfolded as deep as its table is long. That is deep
enough whenever no code contains itself, so the view of a node is made of the views of the nodes
that its code refers to. All plans that lowering comes to are of this kind. -/

namespace TemplateCompiler.Plan

variable {plan : Plan} {outer inner id : NodeId}

/-- The code of the first node contains that of the second. -/
def Refers (plan : Plan) (outer inner : NodeId) : Prop :=
  ∃ code, plan.table.get? outer = some code ∧ inner ∈ code.references

theorem Refers.lt_size (refers : plan.Refers outer inner) : outer < plan.table.size := by
  obtain ⟨code, found, _⟩ := refers
  exact Table.lt_size_of_get? found

/-- No code contains itself, however deep. -/
def Acyclic (plan : Plan) : Prop :=
  ∀ id, ¬ Relation.TransGen plan.Refers id id

theorem acyclic_of_rank (rank : NodeId → Nat)
    (descends : ∀ outer inner, plan.Refers outer inner → rank inner < rank outer) :
    plan.Acyclic := by
  have further {outer inner : NodeId} (reached : Relation.TransGen plan.Refers outer inner) :
      rank inner < rank outer := by
    induction reached with
    | single refers => exact descends _ _ refers
    | tail _ refers ih => exact Nat.lt_trans (descends _ _ refers) ih
  exact fun id reached => Nat.lt_irrefl _ (further reached)

inductive Shallow (plan : Plan) : Nat → NodeId → Prop
  | intro {depth : Nat} {id : NodeId}
      (below : ∀ inner, plan.Refers id inner → Shallow plan depth inner) :
      Shallow plan (depth + 1) id

/-- The nodes on the way to a node are different and have code, so there are not more of them than
the table is long. -/
theorem Acyclic.shallow_behind (acyclic : plan.Acyclic) {depth : Nat} {way : List NodeId}
    (distinct : way.Nodup)
    (leads : ∀ outer ∈ way, outer < plan.table.size ∧ Relation.TransGen plan.Refers outer id)
    (deep : plan.table.size + 1 ≤ depth + way.length) : plan.Shallow depth id := by
  induction depth generalizing way id with
  | zero =>
    have inside : way ⊆ List.range plan.table.size := fun outer member =>
      List.mem_range.2 (leads outer member).1
    have bound := (List.subperm_of_subset distinct inside).length_le
    rw [List.length_range] at bound
    omega
  | succ depth ih =>
    refine .intro fun inner refers => ?_
    have fresh : id ∉ way := fun member => acyclic id (leads id member).2
    refine ih (List.nodup_cons.2 ⟨fresh, distinct⟩) ?_ (by rw [List.length_cons]; omega)
    refine List.forall_mem_cons.2 ⟨?_, fun outer member => ?_⟩
    · exact ⟨refers.lt_size, .single refers⟩
    · obtain ⟨small, reached⟩ := leads outer member
      exact ⟨small, reached.tail refers⟩

theorem Acyclic.shallow (acyclic : plan.Acyclic) (id : NodeId) :
    plan.Shallow (plan.table.size + 1) id :=
  acyclic.shallow_behind List.nodup_nil (List.forall_mem_nil _) (Nat.le_refl _)

/-- What holds of a node if it holds of all that its code refers to holds of all nodes. -/
theorem Acyclic.induct {motive : NodeId → Prop} (acyclic : plan.Acyclic)
    (step : ∀ id, (∀ inner, plan.Refers id inner → motive inner) → motive id) (id : NodeId) :
    motive id := by
  have shallow := acyclic.shallow id
  generalize plan.table.size + 1 = depth at shallow
  induction shallow with
  | intro below ih => exact step _ ih

theorem viewWithin_of_shallow (spans : Array Span) {depth : Nat} (shallow : plan.Shallow depth id)
    (more : Nat) :
    viewWithin plan.table spans (depth + more) id = viewWithin plan.table spans depth id := by
  induction shallow with
  | @intro depth id below ih =>
    rw [Nat.add_right_comm, viewWithin, viewWithin]
    simp only [View.node.injEq, true_and]
    cases found : plan.table.get? id with
    | none => rfl
    | some code => exact List.map_congr_left fun inner member => ih inner ⟨code, found, member⟩

theorem Acyclic.view_eq (acyclic : plan.Acyclic) (spans : Array Span) (id : NodeId) :
    plan.view spans id = .node ((spans[id]?).getD {}) (plan.table.get? id)
      (((plan.table.get? id).map Code.references).getD [] |>.map (plan.view spans)) := by
  rw [view, viewWithin]
  simp only [View.node.injEq, true_and]
  cases found : plan.table.get? id with
  | none => rfl
  | some code =>
    refine List.map_congr_left fun inner member => ?_
    cases acyclic.shallow id with
    | intro below => exact (viewWithin_of_shallow spans (below inner ⟨code, found, member⟩) 1).symm

end Plan

theorem Stages.acyclic {option : LowerOption} {template : Template} {roots : List Node}
    {progress : Progress} {plan : Plan} (stages : Stages option template roots progress plan) :
    plan.Acyclic := by
  have distinct : ((Node.flattenAll roots).map (·.id)).Nodup :=
    List.nodup_iff_count_le_one.2 stages.walked.distinct
  have same {node other : Node} (inside : node ∈ Node.flattenAll roots)
      (found : (Node.flattenAll roots).find? (·.id = node.id) = some other) : other = node := by
    have numbered := List.find?_some found
    exact List.inj_on_of_nodup_map distinct (List.mem_of_find?_eq_some found) inside
      (of_decide_eq_true numbered)
  have ranked {node : Node} (inside : node ∈ Node.flattenAll roots) :
      (((Node.flattenAll roots).find? (·.id = node.id)).map (·.flatten.length)).getD 0 =
        node.flatten.length := by
    cases found : (Node.flattenAll roots).find? (·.id = node.id) with
    | none =>
      have missing := List.find?_eq_none.1 found node inside
      simp at missing
    | some other => rw [same inside found, Option.map_some, Option.getD_some]
  -- the code of a node refers to its children only, and each has less below it
  refine Plan.acyclic_of_rank
    (fun id => (((Node.flattenAll roots).find? (·.id = id)).map (·.flatten.length)).getD 0) ?_
  rintro outer inner ⟨code, found, refers⟩
  obtain ⟨node, inside, rfl⟩ := stages.exists_of_code found
  obtain ⟨child, member, rfl⟩ : ∃ child ∈ node.children, child.id = inner := by
    rcases stages.entry inside with ⟨_, _, _, final, _⟩ | ⟨_, final, mirrors⟩
    · cases final.symm.trans found
      cases refers
    · cases final.symm.trans found
      rw [mirrors.references] at refers
      exact List.mem_map.1 refers
  have below : child ∈ Node.flattenAll roots := by
    obtain ⟨above, lineage⟩ := Node.mem_flattenAll_iff.1 inside
    exact Node.mem_flattenAll_iff.2 ⟨_, .child lineage member⟩
  have shorter := Node.length_flatten_le_of_mem member
  simp only [ranked inside, ranked below]
  rw [Node.flatten_eq node, List.length_cons]
  omega

/-- No code of a plan that lowering comes to contains itself. -/
theorem lower_acyclic {parsing : ParseOption} {lowering : LowerOption} {reading : Scan}
    {template : Template} {problems : List Problem} {lowered : Lowered}
    (parsed : parse parsing reading = .ok (template, problems))
    (lowers : lower lowering template = .ok lowered) : lowered.plan.Acyclic := by
  obtain ⟨roots, progress, stages⟩ := lower_stages (numbered_of_parse parsed) lowers
  exact stages.acyclic

theorem lower_acyclic_nested : ∃ template problems lowered,
    parse {} (scan {} nestedSource) = .ok (template, problems) ∧
      lower {} template = .ok lowered ∧ lowered.plan.cacheSize = 2 ∧ lowered.plan.Acyclic := by
  have succeeds : ((parse {} (scan {} nestedSource)).bind fun parsed =>
      lower {} parsed.1).toOption.any (fun lowered =>
        decide (lowered.plan.cacheSize = 2)) = true := by
    decide +kernel
  obtain ⟨template, problems, lowered, parsed, lowers, cells⟩ := exists_lowered succeeds
  exact ⟨template, problems, lowered, parsed, lowers, of_decide_eq_true cells,
    lower_acyclic parsed lowers⟩

end TemplateCompiler
