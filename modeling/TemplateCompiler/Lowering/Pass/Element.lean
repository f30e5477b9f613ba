import TemplateCompiler.Lowering.Element
import TemplateCompiler.Lowering.Pass

/-! The code of comments and elements, and what the render function returns. An element is written
once everything below it is. -/

namespace TemplateCompiler.Elements

def enter (node : Node) (site : Site) (progress : Progress) : Entrance :=
  match node.content with
  | .comment source => { site, progress := progress.setCode node.id (.comment source) }
  | .element _ => { site, progress, exits := true }
  | _ => { site, progress }

/-- Resolve the component and the directives that an element uses. -/
def addAssets (element : Element) (progress : Progress) : Progress :=
  { progress with
      components := (componentToResolve? element).toList.foldl addName progress.components
      directives :=
        ((runtimeDirectives element.properties).map (·.name)).foldl addName progress.directives }

def exit (node : Node) (site : Site) (progress : Progress) : Progress :=
  match node.content with
  | .element element =>
    let lowered := lowerElement (progress.surroundings site) progress.table element
      (node.children.map (·.id))
    ((addAssets element progress).absorb lowered).setCode node.id (.vnode lowered.value)
  | _ => progress

/-- Several roots make a fragment; a single one is a block. -/
def exitRoot (roots : List Node) (progress : Progress) : Progress :=
  match roots with
  | [] => { progress with root := .empty }
  | [only] =>
    { progress.modifyVNode only.id fun vnode => { vnode with isBlock := true } with
        root := .single only.id }
  | several =>
    { progress with
        root := .fragment
          { tag := .symbol .fragment
            children := several.map (·.id)
            patchFlag := .stableFragment
            isBlock := true } }

def pass : Pass where
  name := "transform_element"
  enter _ node site progress := .ok (enter node site progress)
  exit _ node site progress := (node, exit node site progress)
  exitRoot roots progress := (roots, exitRoot roots progress)
  enter_weight_le _ done := by
    cases done
    simp only [enter]
    split <;> exact Nat.le_refl _

end TemplateCompiler.Elements
