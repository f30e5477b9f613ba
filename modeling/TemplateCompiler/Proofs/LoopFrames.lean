import TemplateCompiler.Proofs.WalkSettling
import TemplateCompiler.Proofs.WalkTotality

/-! Loops are left in the order in which they were entered. While the children of a loop are visited
its frame stays on top of those that were there before, so what leaving the loop takes off is its own
frame. Every loop of the finished tree is left in this way. -/

namespace TemplateCompiler

inductive LeavesNode (site : Site) (exit : Nat × Pass) (left : Node) (state : Progress) :
    Node → Progress → List (Nat × Pass) → Prop where
  | here {rest : List (Nat × Pass)} : LeavesNode site exit left state left state (exit :: rest)
  | later {node : Node} {progress : Progress} {ordinal : Nat} {pass : Pass}
      {rest : List (Nat × Pass)}
      (leaves : LeavesNode site exit left state
        (pass.exit ordinal node (site.replace node) progress).1
        (pass.exit ordinal node (site.replace node) progress).2 rest) :
      LeavesNode site exit left state node progress ((ordinal, pass) :: rest)

inductive Leaves (passes : List Pass) (exit : Nat × Pass) (left : Node) (state : Progress) :
    List NodeId → Bool → List Node → List Node → Progress → Prop where
  | gone {ancestors : List NodeId} {hasSiblings : Bool} {before rest : List Node} {node : Node}
      {progress : Progress} {entered : Entered}
      (enters : enterAll 0 ⟨ancestors, hasSiblings, before, some node, rest⟩ progress passes =
        .ok entered)
      (unfocused : entered.site.focus = none)
      (leaves : Leaves passes exit left state ancestors hasSiblings before entered.site.after
        entered.progress) :
      Leaves passes exit left state ancestors hasSiblings before (node :: rest) progress
  | inside {ancestors : List NodeId} {hasSiblings : Bool} {before rest : List Node}
      {node current : Node} {progress : Progress} {entered : Entered}
      (enters : enterAll 0 ⟨ancestors, hasSiblings, before, some node, rest⟩ progress passes =
        .ok entered)
      (focused : entered.site.focus = some current)
      (leaves : Leaves passes exit left state (current.id :: ancestors) current.isElement []
        current.children entered.progress) :
      Leaves passes exit left state ancestors hasSiblings before (node :: rest) progress
  | here {ancestors : List NodeId} {hasSiblings : Bool} {before rest : List Node}
      {node current : Node} {progress : Progress} {entered : Entered} {visited : Visited}
      (enters : enterAll 0 ⟨ancestors, hasSiblings, before, some node, rest⟩ progress passes =
        .ok entered)
      (focused : entered.site.focus = some current)
      (walked : visitAll passes (current.id :: ancestors) current.isElement [] current.children
        entered.progress = .ok visited)
      (leaves : LeavesNode entered.site exit left state
        { current with children := visited.nodes } visited.progress entered.exits) :
      Leaves passes exit left state ancestors hasSiblings before (node :: rest) progress
  | later {ancestors : List NodeId} {hasSiblings : Bool} {before rest : List Node}
      {node current : Node} {progress : Progress} {entered : Entered} {visited : Visited}
      (enters : enterAll 0 ⟨ancestors, hasSiblings, before, some node, rest⟩ progress passes =
        .ok entered)
      (focused : entered.site.focus = some current)
      (walked : visitAll passes (current.id :: ancestors) current.isElement [] current.children
        entered.progress = .ok visited)
      (leaves : Leaves passes exit left state ancestors hasSiblings
        ((exitAll { current with children := visited.nodes } entered.site visited.progress
          entered.exits).1 :: before)
        entered.site.after
        (exitAll { current with children := visited.nodes } entered.site visited.progress
          entered.exits).2) :
      Leaves passes exit left state ancestors hasSiblings before (node :: rest) progress

theorem LeavesNode.mem {site : Site} {exit : Nat × Pass} {node left : Node}
    {progress state : Progress} {exits : List (Nat × Pass)}
    (leaves : LeavesNode site exit left state node progress exits) : exit ∈ exits := by
  induction leaves with
  | here => exact List.mem_cons_self
  | later _ ih => exact List.mem_cons_of_mem _ ih

theorem OnceExits.ordinal {around : Surroundings} {once : List (Nat × Pass)} {exit : Nat × Pass}
    (exits : OnceExits around once) (member : exit ∈ once) : exit.1 = 0 := by
  rcases exits with rfl | ⟨rfl, -⟩
  · cases member
  · rw [List.mem_singleton.mp member]

variable {around : Surroundings} {ancestors : List NodeId} {hasSiblings : Bool} {stage : Nat}
  {node current : Node} {before rest : List Node} {progress : Progress} {entered : Entered}

theorem visits_left {visited : Visited}
    (ready : progress.Ready around ancestors stage (node :: rest))
    (staged : stage = 0 ∨ stage = 2 ∨ stage = 3)
    (enters : enterAll 0 ⟨ancestors, hasSiblings, before, some node, rest⟩ progress defaultPasses =
      .ok entered)
    (focused : entered.site.focus = some current)
    (walked : visitAll defaultPasses (current.id :: ancestors) current.isElement [] current.children
      entered.progress = .ok visited) :
    Visits around hasSiblings (node :: rest) progress
      [(exitAll { current with children := visited.nodes } entered.site visited.progress
        entered.exits).1] entered.site.after
      (exitAll { current with children := visited.nodes } entered.site visited.progress
        entered.exits).2 := by
  obtain ⟨once, exits, outcome⟩ := enterAll_outcome ready staged enters
  refine outcome.leave exits ready focused ?_ ?_
  · intro leaf
    rw [leaf, visitAll] at walked
    exact (Except.ok.inj walked).symm
  · intro within depth staged inner
    obtain ⟨out, same, visits⟩ := visitAll_visits inner staged walked
    rw [List.reverse_nil, List.nil_append] at same
    rwa [same]

def TopFrame (left : Node) (state : Progress) : Prop :=
  left.isLoop = true ∧ ∃ frame others, state.frames = frame :: others ∧ frame.pass = 2 ∧
    frame.loop = left.id

theorem Outcome.topFrame {todo : List Node} {once : List (Nat × Pass)} {visited : Visited}
    {left : Node} {state : Progress}
    (outcome : Outcome around ancestors hasSiblings todo progress once entered)
    (exits : OnceExits around once) (focused : entered.site.focus = some current)
    (walked : visitAll defaultPasses (current.id :: ancestors) current.isElement [] current.children
      entered.progress = .ok visited)
    (leaves : LeavesNode entered.site (2, Loops.pass) left state
      { current with children := visited.nodes } visited.progress entered.exits) :
    TopFrame left state := by
  have never (member : (2, Loops.pass) ∈ once) : TopFrame left state :=
    absurd (exits.ordinal member) (by decide)
  cases outcome with
  | gone unfocused => cases unfocused.symm.trans focused
  | leaf => exact never leaves.mem
  | element =>
    rcases List.mem_append.mp leaves.mem with member | member
    · simp [elementExits] at member
    · exact never member
  | conditional =>
    rcases List.mem_cons.mp leaves.mem with same | member
    · simp at same
    · exact never member
  | @loop site opened id loop span child same place moves frames noted below element =>
    cases same.symm.trans focused
    obtain ⟨out, -, visits, -⟩ := visitAll_visits below (.inr (.inr rfl)) walked
    cases leaves with
    | here => exact ⟨rfl, _, _, visits.frames.trans frames, rfl, rfl⟩
    | later leaves => exact never leaves.mem

theorem Leaves.topFrame {todo : List Node} {left : Node} {state : Progress}
    (leaves : Leaves defaultPasses (2, Loops.pass) left state ancestors hasSiblings before todo
      progress)
    (ready : progress.Ready around ancestors stage todo)
    (staged : stage = 0 ∨ stage = 2 ∨ stage = 3) : TopFrame left state := by
  induction leaves generalizing around stage with
  | gone enters unfocused _ ih =>
    obtain ⟨once, -, outcome⟩ := enterAll_outcome ready staged enters
    cases outcome with
    | gone _ visits => exact ih (visits.ready ready) (.inl rfl)
    | leaf focused | element focused | conditional focused | loop focused =>
      cases focused.symm.trans unfocused
  | @inside _ _ _ _ _ current _ _ enters focused leaves ih =>
    obtain ⟨once, -, outcome⟩ := enterAll_outcome ready staged enters
    have inside : current.children ≠ [] := by
      intro empty
      rw [empty] at leaves
      cases leaves
    obtain ⟨depth, staged, inner⟩ := outcome.inner focused inside
    exact ih inner staged
  | here enters focused walked leaves =>
    obtain ⟨once, exits, outcome⟩ := enterAll_outcome ready staged enters
    exact outcome.topFrame exits focused walked leaves
  | later enters focused walked _ ih =>
    exact ih ((visits_left ready staged enters focused walked).ready ready) (.inl rfl)

theorem Loops.frames_exit {ordinal : Nat} {frame : LoopFrame} {others : List LoopFrame}
    (top : progress.frames = frame :: others) (own : frame.pass = ordinal) :
    (Loops.exit ordinal node progress).frames = others := by
  have found : popFrame ordinal progress.frames = (some frame, others) := by
    simp [popFrame, top, own]
  unfold Loops.exit
  simp only [found]
  split
  · rfl
  · rfl

/-- A pass that leaves a node keeps what the node is, and of its children those that stay. -/
def Pass.Trims (pass : Pass) : Prop :=
  ∀ (ordinal : Nat) (node : Node) (site : Site) (progress : Progress),
    (pass.exit ordinal node site progress).1.id = node.id ∧
      (pass.exit ordinal node site progress).1.content = node.content ∧
      (pass.exit ordinal node site progress).1.children ⊆ node.children

theorem TextRun.merge_subset (around : Surroundings) (takesText : Bool) (children : List Node)
    (progress : Progress) : (merge around takesText children progress).1 ⊆ children := by
  intro node member
  obtain ⟨run, listed, rfl⟩ := List.mem_map.mp member
  rw [← flatMap_runs children]
  exact List.mem_flatMap.mpr ⟨run, listed, List.mem_cons_self⟩

theorem TextRun.trims : TextRun.pass.Trims := by
  rintro ordinal ⟨id, content, span, children⟩ site progress
  cases content with
  | element element =>
    exact ⟨rfl, rfl, merge_subset (progress.surroundings site) (element.kind = .plain) children
      progress⟩
  | _ => exact ⟨rfl, rfl, List.Subset.refl children⟩

theorem defaultPasses_trims : ∀ pass ∈ defaultPasses, pass.Trims := by
  simp only [defaultPasses, List.forall_mem_cons]
  refine ⟨?_, ?_, ?_, ?_, ?_, TextRun.trims, by simp⟩
  all_goals exact fun _ node _ _ => ⟨rfl, rfl, List.Subset.refl node.children⟩

theorem enterAll_exits {passes : List Pass} {ordinal : Nat} {site : Site}
    (enters : enterAll ordinal site progress passes = .ok entered) :
    ∀ exit ∈ entered.exits, exit.2 ∈ passes := by
  induction passes generalizing ordinal site progress entered with
  | nil =>
    cases enters
    exact List.forall_mem_nil _
  | cons pass rest ih =>
    simp only [enterAll] at enters
    split at enters
    · cases enters
      exact List.forall_mem_nil _
    · split at enters
      · exact fun exit member => List.mem_cons_of_mem pass (ih enters exit member)
      · split at enters
        · cases enters
        · obtain ⟨final, later, rfl⟩ := ok_of_map_eq_ok enters
          intro exit member
          split at member
          · rcases List.mem_append.mp member with others | own
            · exact List.mem_cons_of_mem pass (ih later exit others)
            · rw [List.mem_singleton.mp own]
              exact List.mem_cons_self
          · exact List.mem_cons_of_mem pass (ih later exit member)

theorem exitAll_trims {exits : List (Nat × Pass)} (trims : ∀ exit ∈ exits, exit.2.Trims)
    (node : Node) (site : Site) (progress : Progress) :
    (exitAll node site progress exits).1.id = node.id ∧
      (exitAll node site progress exits).1.content = node.content ∧
      (exitAll node site progress exits).1.children ⊆ node.children := by
  induction exits generalizing node progress with
  | nil => exact ⟨rfl, rfl, List.Subset.refl _⟩
  | cons exit rest ih =>
    obtain ⟨own, others⟩ := List.forall_mem_cons.mp trims
    obtain ⟨number, content, children⟩ := own exit.1 node (site.replace node) progress
    obtain ⟨same, kind, fewer⟩ := ih others
      (exit.2.exit exit.1 node (site.replace node) progress).1
      (exit.2.exit exit.1 node (site.replace node) progress).2
    exact ⟨same.trans number, kind.trans content, List.Subset.trans fewer children⟩

theorem Node.isTextLike_of_isLoop {node : Node} (isLoop : node.isLoop = true) :
    node.isTextLike = false := by
  obtain ⟨id, content, span, children⟩ := node
  cases content with
  | loop => rfl
  | _ => cases isLoop

/-- A loop is left by the pass for loops, before it is left as one that is rendered once. -/
theorem Outcome.exits_of_loop {todo : List Node} {once : List (Nat × Pass)}
    (outcome : Outcome around ancestors hasSiblings todo progress once entered)
    (focused : entered.site.focus = some current) (isLoop : current.isLoop = true) :
    entered.exits = (2, Loops.pass) :: once := by
  cases outcome with
  | gone unfocused => cases unfocused.symm.trans focused
  | leaf same bare visits =>
    cases same.symm.trans focused
    have noText := Node.isTextLike_of_isLoop isLoop
    -- A finished loop has a child.
    rcases visits.finished current List.mem_cons_self with ⟨isText, _⟩ | ⟨_, settled⟩
    · cases noText.symm.trans isText
    · cases settled with
      | loop => cases bare
      | text isText => cases noText.symm.trans isText
      | _ => cases isLoop
  | element same | conditional same =>
    cases same.symm.trans focused
    cases isLoop
  | loop => rfl

theorem exists_leaves {todo : List Node} {visited : Visited}
    (ready : progress.Ready around ancestors stage todo)
    (staged : stage = 0 ∨ stage = 2 ∨ stage = 3)
    (walked : visitAll defaultPasses ancestors hasSiblings before todo progress = .ok visited) :
    ∀ loop ∈ Node.flattenAll visited.nodes, loop.isLoop = true →
      loop ∈ Node.flattenAll before.reverse ∨
        ∃ left state, left.id = loop.id ∧ Leaves defaultPasses (2, Loops.pass) left state ancestors
          hasSiblings before todo progress := by
  fun_induction visitAll defaultPasses ancestors hasSiblings before todo progress
    generalizing around stage visited with
  | case1 =>
    cases walked
    exact fun loop member _ => .inl member
  | case2 => cases walked
  | case3 ancestors hasSiblings before progress node rest entered enters unfocused ih =>
    obtain ⟨once, -, outcome⟩ := enterAll_outcome ready staged enters
    cases outcome with
    | gone _ visits =>
      intro loop member isLoop
      rcases ih (visits.ready ready) (.inl rfl) walked loop member isLoop with
        early | ⟨left, state, same, leaves⟩
      · exact .inl early
      · exact .inr ⟨left, state, same, .gone enters unfocused leaves⟩
    | leaf focused | element focused | conditional focused | loop focused =>
      cases focused.symm.trans unfocused
  | case4 => cases walked
  | case5 ancestors hasSiblings before progress node rest entered enters current focused below
      walkedBelow left ihBelow =>
    rename_i ihRest
    obtain ⟨once, exits, outcome⟩ := enterAll_outcome ready staged enters
    have visits := visits_left ready staged enters focused walkedBelow
    obtain ⟨number, content, fewer⟩ : left.1.id = current.id ∧ left.1.content = current.content ∧
        left.1.children ⊆ below.nodes :=
      exitAll_trims (fun exit member => defaultPasses_trims _ (enterAll_exits enters exit member))
        { current with children := below.nodes } entered.site below.progress
    intro loop member isLoop
    rcases ihRest (visits.ready ready) (.inl rfl) walked loop member isLoop with
      early | ⟨other, state, same, leaves⟩
    · rw [List.reverse_cons, Node.flattenAll_append, List.mem_append] at early
      rcases early with early | own
      · exact .inl early
      · right
        rw [Node.flattenAll, Node.flattenAll, List.append_nil, Node.flatten_eq] at own
        rcases List.mem_cons.mp own with rfl | deeper
        · have itself : current.isLoop = true := by rwa [Node.isLoop, content] at isLoop
          have first := outcome.exits_of_loop focused itself
          refine ⟨{ current with children := below.nodes }, below.progress, number.symm, ?_⟩
          refine .here enters focused walkedBelow ?_
          rw [first]
          exact .here
        · obtain ⟨child, listed, inside⟩ := Node.exists_of_mem_flattenAll deeper
          have found := Node.flatten_subset_flattenAll (fewer listed) loop inside
          have some : current.children ≠ [] := by
            intro empty
            rw [empty, visitAll] at walkedBelow
            cases walkedBelow
            cases found
          obtain ⟨depth, staged, inner⟩ := outcome.inner focused some
          rcases ihBelow inner staged walkedBelow loop found isLoop with
            none | ⟨other, state, same, leaves⟩
          · cases none
          · exact ⟨other, state, same, .inside enters focused leaves⟩
    · exact .inr ⟨other, state, same, .later enters focused walkedBelow leaves⟩

end TemplateCompiler
