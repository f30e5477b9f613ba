import TemplateCompiler.Proofs.Settlement

/-! The nodes around a node. Where a node stands decides what its expressions mean, so what a walk
has settled is read off along the way from the root. -/

namespace TemplateCompiler

namespace Node

/-- The node is in the tree, below the nodes `above`, of which the innermost is the first. -/
inductive Lineage (roots : List Node) : Node → List Node → Prop
  | root {node : Node} (member : node ∈ roots) : Lineage roots node []
  | child {node parent : Node} {above : List Node} (outer : Lineage roots parent above)
      (member : node ∈ parent.children) : Lineage roots node (parent :: above)

variable {roots : List Node} {node : Node} {above : List Node}

mutual

private theorem lineage_of_mem_flatten {inner : Node} : {node : Node} → {above : List Node} →
    Lineage roots node above → inner ∈ node.flatten → ∃ further, Lineage roots inner further
  | ⟨id, content, span, children⟩, above, outer, member => by
    rw [flatten_eq] at member
    rcases List.mem_cons.1 member with rfl | below
    · exact ⟨above, outer⟩
    · exact lineage_of_mem_flattenAll (fun _ child => .child outer child) below

private theorem lineage_of_mem_flattenAll {inner : Node} : {nodes : List Node} →
    {above : List Node} → (∀ node ∈ nodes, Lineage roots node above) →
    inner ∈ flattenAll nodes → ∃ further, Lineage roots inner further
  | [], _, _, member => nomatch member
  | node :: rest, above, outer, member => by
    rcases List.mem_append.1 member with first | later
    · exact lineage_of_mem_flatten (outer node List.mem_cons_self) first
    · exact lineage_of_mem_flattenAll
        (fun other behind => outer other (List.mem_cons_of_mem node behind)) later

end

theorem flatten_subset_flattenAll {nodes : List Node} (member : node ∈ nodes) :
    ∀ inner ∈ node.flatten, inner ∈ flattenAll nodes := by
  intro inner below
  obtain ⟨front, back, rfl⟩ := List.append_of_mem member
  simp [flattenAll, below]

theorem length_flatten_le_of_mem {nodes : List Node} (member : node ∈ nodes) :
    node.flatten.length ≤ (flattenAll nodes).length := by
  obtain ⟨front, back, rfl⟩ := List.append_of_mem member
  simp only [flattenAll_append, flattenAll, List.length_append]
  omega

theorem Lineage.flatten_subset (lineage : Lineage roots node above) :
    ∀ inner ∈ node.flatten, inner ∈ flattenAll roots := by
  induction lineage with
  | root member => exact flatten_subset_flattenAll member
  | @child node parent above outer member ih =>
    intro inner below
    refine ih inner ?_
    rw [flatten_eq]
    exact List.mem_cons_of_mem parent (flatten_subset_flattenAll member inner below)

theorem mem_flattenAll_iff : node ∈ flattenAll roots ↔ ∃ above, Lineage roots node above := by
  constructor
  · exact lineage_of_mem_flattenAll fun _ member => .root member
  · intro found
    obtain ⟨above, lineage⟩ := found
    refine lineage.flatten_subset node ?_
    rw [flatten_eq]
    exact List.mem_cons_self

theorem Lineage.tally_le (lineage : Lineage roots node above) (number : NodeId) :
    tally number [node] ≤ tally number roots := by
  induction lineage with
  | root member => exact tally_le_of_mem number member
  | @child node parent above outer member ih =>
    have := tally_le_of_mem number member
    have := tally_singleton number parent
    omega

/-- The way to a node goes on below it. -/
theorem Lineage.append {inner : Node} {between : List Node} (lineage : Lineage roots node above)
    (further : Lineage [node] inner between) : Lineage roots inner (between ++ above) := by
  induction further with
  | root member =>
    cases List.mem_singleton.1 member
    exact lineage
  | child _ member ih => exact .child ih member

/-- Each of the nodes above has the next one on the way among its children. -/
theorem Lineage.exists_child {outer : Node} (lineage : Lineage roots node above)
    (member : outer ∈ above) :
    ∃ child ∈ node :: above, child ∈ outer.children ∧ ∃ further, Lineage roots outer further := by
  induction lineage with
  | root => cases member
  | @child node parent above place listed ih =>
    rcases List.mem_cons.1 member with rfl | behind
    · exact ⟨node, List.mem_cons_self, listed, above, place⟩
    · obtain ⟨child, between, found⟩ := ih behind
      exact ⟨child, List.mem_cons_of_mem node between, found⟩

theorem eq_of_tally_pos {nodes : List Node} {first second : Node} {number : NodeId}
    (once : tally number nodes ≤ 1) (one : first ∈ nodes) (other : second ∈ nodes)
    (inFirst : 0 < tally number [first]) (inSecond : 0 < tally number [second]) :
    first = second := by
  by_contra different
  have := tally_add_le_of_mem number one other different
  omega

end Node

namespace Surroundings

def below (around : Surroundings) : Content → Surroundings
  | .element element => around.inside element
  | .loop loop => around.within loop
  | .text _ | .interpolation _ | .comment _ | .conditional _ => around

/-- Below the nodes `above`, of which the innermost is the first. -/
def along (around : Surroundings) : List Node → Surroundings
  | [] => around
  | parent :: above => (around.along above).below parent.content

end Surroundings

theorem Settled.along {progress : Progress} {around : Surroundings} {place : Role}
    {roots : List Node} {node : Node} {above : List Node}
    (settled : ∀ root ∈ roots, Settled progress around place root)
    (lineage : Node.Lineage roots node above) :
    ∃ role, Settled progress (around.along above) role node := by
  induction lineage with
  | root member => exact ⟨place, settled _ member⟩
  | child outer member ih =>
    obtain ⟨role, parent⟩ := ih
    cases parent with
    | text _ leaf => rw [leaf] at member; cases member
    | comment => cases member
    | element _ _ below => exact ⟨_, below _ member⟩
    | conditional _ _ _ _ below =>
      obtain ⟨pair, listed, rfl⟩ := List.mem_map.1 member
      exact ⟨_, below pair listed⟩
    | loop _ _ below =>
      cases List.mem_singleton.1 member
      exact ⟨_, below⟩

end TemplateCompiler
