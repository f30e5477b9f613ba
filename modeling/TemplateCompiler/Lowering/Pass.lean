import TemplateCompiler.Lowering.Progress

/-! One walk over the template runs all passes. On each node the passes enter in order; those that
ask for it leave it in reverse order, once its children are done. A pass that enters may replace or
remove the node, so the node that is left is the one that is there then. -/

namespace TemplateCompiler

structure Entrance where
  site : Site
  progress : Progress
  /-- The pass wants to leave the node later. -/
  exits : Bool := false

structure Pass where
  name : String
  /-- Enter the node in focus. The pass gets its place in the order of passes. -/
  enter : Nat → Node → Site → Progress → Except Fault Entrance
  /-- Leave a node whose children are done. -/
  exit : Nat → Node → Site → Progress → Node × Progress := fun _ node _ progress => (node, progress)
  /-- Leave the root, given its children. -/
  exitRoot : List Node → Progress → List Node × Progress := fun roots progress => (roots, progress)
  /-- Entering never makes more of what is left to do. -/
  enter_weight_le : ∀ {ordinal node site progress entrance}, site.focus = some node →
    enter ordinal node site progress = .ok entrance → entrance.site.weight ≤ site.weight

/-- All passes have entered a node; those that want to leave it are listed, the last one first. -/
structure Entered where
  site : Site
  progress : Progress
  exits : List (Nat × Pass) := []

/-- Let the passes from the place `ordinal` on enter the node in focus. No pass enters a node
twice, and none enters when the node is gone. -/
def enterAll (ordinal : Nat) (site : Site) (progress : Progress) :
    List Pass → Except Fault Entered
  | [] => .ok { site, progress }
  | pass :: rest =>
    match site.focus with
    | none => .ok { site, progress }
    | some node =>
      if progress.hasEntered ordinal node.id then enterAll (ordinal + 1) site progress rest
      else
        match pass.enter ordinal node site (progress.markEntered ordinal node.id) with
        | .error fault => .error fault
        | .ok entrance =>
          (enterAll (ordinal + 1) entrance.site entrance.progress rest).map fun entered =>
            if entrance.exits then { entered with exits := entered.exits ++ [(ordinal, pass)] }
            else entered

theorem enterAll_weight_le {passes : List Pass} {ordinal : Nat} {site : Site} {progress : Progress}
    {entered : Entered} (done : enterAll ordinal site progress passes = .ok entered) :
    entered.site.weight ≤ site.weight := by
  induction passes generalizing ordinal site progress entered with
  | nil =>
    cases done
    exact Nat.le_refl _
  | cons pass rest ih =>
    simp only [enterAll] at done
    split at done
    · cases done
      exact Nat.le_refl _
    · next node focused =>
      split at done
      · exact ih done
      · split at done
        · cases done
        · next entrance ok =>
          cases later : enterAll (ordinal + 1) entrance.site entrance.progress rest with
          | error fault => simp [later, Except.map] at done
          | ok final =>
            rw [later] at done
            have same : entered.site = final.site := by
              simp only [Except.map] at done
              cases done
              split <;> rfl
            rw [same]
            exact Nat.le_trans (ih later) (pass.enter_weight_le focused ok)

def exitAll (node : Node) (site : Site) (progress : Progress) :
    List (Nat × Pass) → Node × Progress
  | [] => (node, progress)
  | (ordinal, pass) :: rest =>
    let left := pass.exit ordinal node (site.replace node) progress
    exitAll left.1 site left.2 rest

def exitRootAll (roots : List Node) (progress : Progress) : List Pass → List Node × Progress
  | [] => (roots, progress)
  | pass :: rest =>
    let later := exitRootAll roots progress rest
    pass.exitRoot later.1 later.2

/-- What a walk over a list of nodes leaves. -/
structure Visited where
  nodes : List Node
  progress : Progress

/-- Walk over the nodes `todo` that follow the finished nodes `before`. -/
def visitAll (passes : List Pass) (ancestors : List NodeId) (hasSiblings : Bool)
    (before todo : List Node) (progress : Progress) : Except Fault Visited :=
  match todo with
  | [] => .ok { nodes := before.reverse, progress }
  | node :: rest =>
    match _entered : enterAll 0
        { ancestors, hasSiblings, before, focus := some node, after := rest } progress passes with
    | .error fault => .error fault
    | .ok entered =>
      match _focused : entered.site.focus with
      | none => visitAll passes ancestors hasSiblings before entered.site.after entered.progress
      | some current =>
        match visitAll passes (current.id :: ancestors) current.isElement [] current.children
            entered.progress with
        | .error fault => .error fault
        | .ok below =>
          let left := exitAll { current with children := below.nodes } entered.site below.progress
            entered.exits
          visitAll passes ancestors hasSiblings (left.1 :: before) entered.site.after left.2
termination_by Node.weightAll todo
decreasing_by
  all_goals
    have bound := enterAll_weight_le _entered
    have rest := entered.site.weightAll_after_lt
    simp only [Site.weight, Option.map_some, Option.getD_some] at bound rest
    simp only [Node.weightAll]
  · omega
  · have := Node.weight_eq current
    simp only [_focused, Option.map_some, Option.getD_some] at bound
    omega
  · omega

def walk (passes : List Pass) (roots : List Node) (progress : Progress) :
    Except Fault (List Node × Progress) :=
  (visitAll passes [] true [] roots progress).map fun visited =>
    exitRootAll visited.nodes visited.progress passes

end TemplateCompiler
