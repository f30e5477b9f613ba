import TemplateCompiler.Proofs.LoweredProblems
import TemplateCompiler.Proofs.WalkEntering

/-! Places during a walk. All that a walk has and makes lies in the source, and siblings begin in
order, if this holds whenever a single pass enters or leaves a single node. -/

namespace TemplateCompiler

open Reported

variable {source : String}

namespace Node

variable {node other : Node} {nodes front back : List Node}

theorem Placed.content (placed : node.Placed source) : node.content.Lies source := by
  cases placed
  assumption

theorem Placed.span (placed : node.Placed source) : node.span.Lies source := by
  cases placed
  assumption

theorem Placed.children (placed : node.Placed source) : AllPlaced source node.children := by
  cases placed with
  | intro _ _ sorted below => exact ⟨below, sorted⟩

theorem Placed.properties (placed : node.Placed source) :
    ∀ property ∈ node.properties, property.Lies source := by
  have lies := placed.content
  obtain ⟨id, content, span, children⟩ := node
  cases content with
  | element given => exact lies
  | _ => exact List.forall_mem_nil _

theorem Placed.withProperties (placed : node.Placed source) {properties : Properties}
    (fewer : ∀ property ∈ properties, property ∈ node.properties) :
    (node.withProperties properties).Placed source := by
  obtain ⟨below, sorted⟩ := placed.children
  have lie := placed.properties
  have lies := placed.span
  obtain ⟨id, content, span, children⟩ := node
  cases content with
  | element given =>
    exact .intro (fun property member => lie property (fewer property member)) lies sorted below
  | _ => exact placed

theorem Placed.withoutDirective (placed : node.Placed source) (names : String → Bool) :
    (node.withProperties (node.properties.takeDirective names).2).Placed source :=
  placed.withProperties fun _ member => List.eraseP_subset member

theorem Placed.directive (placed : node.Placed source) {names : String → Bool}
    {directive : Directive} (found : node.properties.findDirective? names = some directive) :
    directive.Lies source := by
  obtain ⟨property, first, same⟩ := Option.bind_eq_some_iff.mp found
  have lies := placed.properties property (List.mem_of_find?_eq_some first)
  cases property with
  | attr given => cases same
  | dir given =>
    cases same
    exact lies

namespace AllPlaced

theorem sublist {few : List Node} (placed : AllPlaced source nodes) (fewer : few.Sublist nodes) :
    AllPlaced source few :=
  ⟨fun node member => placed.each node (fewer.subset member), placed.sorted.sublist fewer⟩

theorem allLie (placed : AllPlaced source nodes) : AllLie source nodes :=
  allLie_of_each fun node member => (placed.each node member).allLie

/-- Another node may come in place of one that begins where it does. -/
theorem exchange (placed : AllPlaced source (front ++ node :: back)) (own : other.Placed source)
    (start : other.span.start = node.span.start) : AllPlaced source (front ++ other :: back) := by
  obtain ⟨each, sorted⟩ := placed
  constructor
  · obtain ⟨early, here⟩ := List.forall_mem_append.mp each
    exact List.forall_mem_append.mpr
      ⟨early, List.forall_mem_cons.mpr ⟨own, (List.forall_mem_cons.mp here).2⟩⟩
  · rw [Sorted, List.map_append, List.map_cons] at sorted ⊢
    rwa [start]

end AllPlaced

theorem Placed.withChildren {children : List Node} (placed : node.Placed source)
    (below : AllPlaced source children) : { node with children }.Placed source :=
  .intro placed.content placed.span below.sorted below.each

end Node

namespace Site

/-- The site `later` is in the same list, of which the finished part is as it was. -/
structure LeadsTo (source : String) (site later : Site) : Prop where
  placed : Node.AllPlaced source later.nodes
  before : later.before = site.before

variable {site : Site} {node : Node}

theorem placed_focus (placed : Node.AllPlaced source site.nodes) (focused : site.focus = some node) :
    node.Placed source := by
  rw [nodes_of_focus focused] at placed
  exact placed.each node (by simp)

theorem leadsTo_self (placed : Node.AllPlaced source site.nodes) : site.LeadsTo source site :=
  ⟨placed, rfl⟩

theorem LeadsTo.trans {middle later : Site} (first : site.LeadsTo source middle)
    (second : middle.LeadsTo source later) : site.LeadsTo source later :=
  ⟨second.placed, second.before.trans first.before⟩

theorem leadsTo_replace {other : Node} (placed : Node.AllPlaced source site.nodes)
    (focused : site.focus = some node) (own : other.Placed source)
    (start : other.span.start = node.span.start) : site.LeadsTo source (site.replace other) := by
  refine ⟨?_, rfl⟩
  rw [nodes_of_focus focused] at placed
  exact placed.exchange own start

theorem leadsTo_remove (placed : Node.AllPlaced source site.nodes) :
    site.LeadsTo source site.remove := by
  unfold remove
  split
  · refine ⟨placed.sublist ?_, rfl⟩
    exact (List.Sublist.refl _).append (List.sublist_append_right _ _)
  · exact leadsTo_self placed

end Site

/-- What the passes have reported and what they took away lies in the source. -/
structure Progress.Placed (source : String) (progress : Progress) : Prop where
  problems : ProblemsLie source progress.problems
  dropped : Node.AllLie source progress.dropped

namespace Progress.Placed

variable {progress : Progress}

theorem report (placed : progress.Placed source) {problems : List Problem}
    (lie : ProblemsLie source problems) : (progress.report problems).Placed source :=
  ⟨problemsLie_append.mpr ⟨placed.problems, lie⟩, placed.dropped⟩

theorem absorb {α : Type} (placed : progress.Placed source) {reported : Reported α}
    (lies : reported.Lies source) : (progress.absorb reported).Placed source :=
  ⟨(placed.report lies).problems, placed.dropped⟩

theorem drop (placed : progress.Placed source) {nodes : List Node}
    (lie : Node.AllLie source nodes) : (progress.drop nodes).Placed source :=
  ⟨placed.problems, Node.every_append.mpr ⟨placed.dropped, lie⟩⟩

theorem setCode (placed : progress.Placed source) (id : NodeId) (body : CodeBody) :
    (progress.setCode id body).Placed source :=
  ⟨placed.problems, placed.dropped⟩

end Progress.Placed

/-- The pass leaves everything in its place. -/
structure Pass.Places (source : String) (pass : Pass) : Prop where
  enter : ∀ {ordinal node site progress entrance}, site.focus = some node →
    Node.AllPlaced source site.nodes → progress.Placed source →
    pass.enter ordinal node site progress = .ok entrance →
    site.LeadsTo source entrance.site ∧ entrance.progress.Placed source
  exit : ∀ ordinal {node} site {progress}, node.Placed source → progress.Placed source →
    ((pass.exit ordinal node site progress).1.Placed source ∧
      (pass.exit ordinal node site progress).1.span = node.span) ∧
      (pass.exit ordinal node site progress).2.Placed source
  exitRoot : ∀ {roots progress}, Node.AllPlaced source roots → progress.Placed source →
    Node.AllPlaced source (pass.exitRoot roots progress).1 ∧
      (pass.exitRoot roots progress).2.Placed source

theorem enterAll_places {passes : List Pass} (places : ∀ pass ∈ passes, pass.Places source)
    {ordinal : Nat} {site : Site} {progress : Progress} {entered : Entered}
    (enters : enterAll ordinal site progress passes = .ok entered)
    (placed : Node.AllPlaced source site.nodes) (sound : progress.Placed source) :
    site.LeadsTo source entered.site ∧ entered.progress.Placed source ∧
      ∀ exiting ∈ entered.exits, exiting.2.Places source := by
  induction passes generalizing ordinal site progress entered with
  | nil =>
    cases enters
    exact ⟨Site.leadsTo_self placed, sound, List.forall_mem_nil _⟩
  | cons pass rest ih =>
    obtain ⟨own, others⟩ := List.forall_mem_cons.mp places
    unfold enterAll at enters
    split at enters
    · cases enters
      exact ⟨Site.leadsTo_self placed, sound, List.forall_mem_nil _⟩
    · next node focused =>
      split at enters
      · exact ih others enters placed sound
      · split at enters
        · cases enters
        · next entrance succeeded =>
          have marked : (progress.markEntered ordinal node.id).Placed source :=
            ⟨sound.problems, sound.dropped⟩
          obtain ⟨leads, kept⟩ := own.enter focused placed marked succeeded
          obtain ⟨final, later, rfl⟩ := ok_of_map_eq_ok enters
          obtain ⟨further, last, exits⟩ := ih others later leads.placed kept
          split
          · refine ⟨leads.trans further, last, List.forall_mem_append.mpr ⟨exits, ?_⟩⟩
            exact List.forall_mem_singleton.mpr own
          · exact ⟨leads.trans further, last, exits⟩

theorem exitAll_places {exits : List (Nat × Pass)} (places : ∀ exiting ∈ exits, exiting.2.Places source)
    {node : Node} (site : Site) {progress : Progress} (placed : node.Placed source)
    (sound : progress.Placed source) :
    ((exitAll node site progress exits).1.Placed source ∧
      (exitAll node site progress exits).1.span = node.span) ∧
      (exitAll node site progress exits).2.Placed source := by
  induction exits generalizing node progress with
  | nil => exact ⟨⟨placed, rfl⟩, sound⟩
  | cons exiting rest ih =>
    obtain ⟨own, others⟩ := List.forall_mem_cons.mp places
    obtain ⟨⟨made, span⟩, kept⟩ := own.exit exiting.1 (site.replace node) placed sound
    obtain ⟨⟨final, same⟩, last⟩ := ih others made kept
    exact ⟨⟨final, same.trans span⟩, last⟩

theorem exitRootAll_places {passes : List Pass} (places : ∀ pass ∈ passes, pass.Places source)
    {roots : List Node} {progress : Progress} (placed : Node.AllPlaced source roots)
    (sound : progress.Placed source) :
    Node.AllPlaced source (exitRootAll roots progress passes).1 ∧
      (exitRootAll roots progress passes).2.Placed source := by
  induction passes with
  | nil => exact ⟨placed, sound⟩
  | cons pass rest ih =>
    obtain ⟨own, others⟩ := List.forall_mem_cons.mp places
    obtain ⟨made, kept⟩ := ih others
    exact own.exitRoot made kept

/-- A walk leaves everything in its place if all passes do. -/
theorem visitAll_places {passes : List Pass} (places : ∀ pass ∈ passes, pass.Places source)
    {ancestors : List NodeId} {hasSiblings : Bool} {before todo : List Node} {progress : Progress}
    (placed : Node.AllPlaced source (before.reverse ++ todo)) (sound : progress.Placed source) :
    ∀ visited, visitAll passes ancestors hasSiblings before todo progress = .ok visited →
      Node.AllPlaced source visited.nodes ∧ visited.progress.Placed source := by
  fun_induction visitAll passes ancestors hasSiblings before todo progress with
  | case1 =>
    rintro visited ⟨⟩
    exact ⟨by simpa using placed, sound⟩
  | case2 => rintro visited ⟨⟩
  | case3 ancestors hasSiblings before progress node rest entered enters unfocused ih =>
    obtain ⟨leads, kept, -⟩ := enterAll_places places enters placed sound
    have onward := leads.placed
    rw [Site.nodes, unfocused, leads.before] at onward
    exact ih onward kept
  | case4 => rintro visited ⟨⟩
  | case5 ancestors hasSiblings before progress node rest entered enters current focused below
      walked left ihBelow ih =>
    obtain ⟨leads, kept, exits⟩ := enterAll_places places enters placed sound
    have own := Site.placed_focus leads.placed focused
    obtain ⟨children, lower⟩ := ihBelow own.children kept below walked
    obtain ⟨⟨final, span⟩, last⟩ :=
      exitAll_places exits entered.site (own.withChildren children) lower
    have onward := leads.placed
    rw [Site.nodes_of_focus focused, leads.before] at onward
    have moved := onward.exchange final (congrArg Span.start span)
    refine ih ?_ last
    simpa using moved

theorem walk_places {passes : List Pass} (places : ∀ pass ∈ passes, pass.Places source)
    {roots : List Node} {progress : Progress} {done : List Node × Progress}
    (placed : Node.AllPlaced source roots) (sound : progress.Placed source)
    (walks : walk passes roots progress = .ok done) :
    Node.AllPlaced source done.1 ∧ done.2.Placed source := by
  obtain ⟨visited, visits, rfl⟩ := ok_of_map_eq_ok walks
  have start : Node.AllPlaced source ([].reverse ++ roots) := placed
  obtain ⟨nodes, kept⟩ := visitAll_places places start sound visited visits
  exact exitRootAll_places places nodes kept

end TemplateCompiler
