import TemplateCompiler.Proofs.WalkEntering

/-! Invariants of a walk. What is said of the state alone holds at the end of a walk if it holds at
its start and no pass breaks it where it enters or leaves a single node. -/

namespace TemplateCompiler

variable {holds : Progress → Prop}

/-- The pass never breaks the invariant. -/
structure Pass.Preserves (holds : Progress → Prop) (pass : Pass) : Prop where
  enter : ∀ {ordinal node site progress entrance}, holds progress →
    pass.enter ordinal node site progress = .ok entrance → holds entrance.progress
  exit : ∀ ordinal node site {progress}, holds progress →
    holds (pass.exit ordinal node site progress).2
  exitRoot : ∀ roots {progress}, holds progress → holds (pass.exitRoot roots progress).2

section Walks

variable (marks : ∀ {progress : Progress} (pass : Nat) (id : NodeId),
  holds progress → holds (progress.markEntered pass id))

include marks

theorem enterAll_preserves {passes : List Pass} (preserve : ∀ pass ∈ passes, pass.Preserves holds)
    {ordinal : Nat} {site : Site} {progress : Progress} {entered : Entered}
    (sound : holds progress) (enters : enterAll ordinal site progress passes = .ok entered) :
    holds entered.progress ∧ ∀ exiting ∈ entered.exits, exiting.2.Preserves holds := by
  induction passes generalizing ordinal site progress entered with
  | nil =>
    cases enters
    exact ⟨sound, List.forall_mem_nil _⟩
  | cons pass rest ih =>
    obtain ⟨own, others⟩ := List.forall_mem_cons.mp preserve
    unfold enterAll at enters
    split at enters
    · cases enters
      exact ⟨sound, List.forall_mem_nil _⟩
    · next node focused =>
      split at enters
      · exact ih others sound enters
      · split at enters
        · cases enters
        · next entrance succeeded =>
          have kept := own.enter (marks ordinal node.id sound) succeeded
          obtain ⟨final, later, rfl⟩ := ok_of_map_eq_ok enters
          obtain ⟨last, exits⟩ := ih others kept later
          split
          · refine ⟨last, List.forall_mem_append.mpr ⟨exits, ?_⟩⟩
            exact List.forall_mem_singleton.mpr own
          · exact ⟨last, exits⟩

omit marks in
theorem exitAll_preserves {exits : List (Nat × Pass)}
    (preserve : ∀ exiting ∈ exits, exiting.2.Preserves holds) {node : Node} (site : Site)
    {progress : Progress} (sound : holds progress) :
    holds (exitAll node site progress exits).2 := by
  induction exits generalizing node progress with
  | nil => exact sound
  | cons exiting rest ih =>
    obtain ⟨own, others⟩ := List.forall_mem_cons.mp preserve
    exact ih others (own.exit exiting.1 node (site.replace node) sound)

omit marks in
theorem exitRootAll_preserves {passes : List Pass}
    (preserve : ∀ pass ∈ passes, pass.Preserves holds) (roots : List Node) {progress : Progress}
    (sound : holds progress) : holds (exitRootAll roots progress passes).2 := by
  induction passes with
  | nil => exact sound
  | cons pass rest ih =>
    obtain ⟨own, others⟩ := List.forall_mem_cons.mp preserve
    exact own.exitRoot _ (ih others)

theorem visitAll_preserves {passes : List Pass} (preserve : ∀ pass ∈ passes, pass.Preserves holds)
    {ancestors : List NodeId} {hasSiblings : Bool} {before todo : List Node} {progress : Progress}
    (sound : holds progress) :
    ∀ visited, visitAll passes ancestors hasSiblings before todo progress = .ok visited →
      holds visited.progress := by
  fun_induction visitAll passes ancestors hasSiblings before todo progress with
  | case1 =>
    rintro visited ⟨⟩
    exact sound
  | case2 => rintro visited ⟨⟩
  | case3 ancestors hasSiblings before progress node rest entered enters unfocused ih =>
    exact ih (enterAll_preserves marks preserve sound enters).1
  | case4 => rintro visited ⟨⟩
  | case5 ancestors hasSiblings before progress node rest entered enters current focused below
      walked left ihBelow ih =>
    obtain ⟨kept, exits⟩ := enterAll_preserves marks preserve sound enters
    have lower := ihBelow kept below walked
    exact ih (exitAll_preserves exits entered.site lower)

/-- What no pass breaks is never broken. -/
theorem walk_preserves {passes : List Pass} (preserve : ∀ pass ∈ passes, pass.Preserves holds)
    {roots : List Node} {progress : Progress} {done : List Node × Progress}
    (sound : holds progress) (walks : walk passes roots progress = .ok done) : holds done.2 := by
  obtain ⟨visited, visits, rfl⟩ := ok_of_map_eq_ok walks
  have kept := visitAll_preserves marks preserve sound visited visits
  exact exitRootAll_preserves preserve visited.nodes kept

end Walks

end TemplateCompiler
