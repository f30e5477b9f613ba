import TemplateCompiler.Lowering.Pass

/-! Subtrees that are rendered once. The mark goes to the node that is there in the end, so a
conditional or a loop on the same element is kept as a whole. -/

namespace TemplateCompiler.Once

/-- Inside of a subtree that is rendered once there is nothing more to mark. -/
def enter (node : Node) (site : Site) (progress : Progress) : Entrance :=
  if node.properties.hasDirective "once" && !progress.inOnce site then
    { site
      progress := { progress with onceNodes := node.id :: progress.onceNodes }
      exits := true }
  else { site, progress }

def exit (node : Node) (progress : Progress) : Progress :=
  { progress with marks := progress.marks.insert node.id .once }

def pass : Pass where
  name := "v_once"
  enter _ node site progress := .ok (enter node site progress)
  exit _ node _ progress := (node, exit node progress)
  enter_weight_le _ done := by
    cases done
    simp only [enter]
    split <;> exact Nat.le_refl _

end TemplateCompiler.Once
