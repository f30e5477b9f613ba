import TemplateCompiler.Template.Node

/-! A place in a list of children, where passes look around and change the node in focus. -/

namespace TemplateCompiler

structure Site where
  /-- The nodes around the place, the innermost first. -/
  ancestors : List NodeId := []
  /-- The list is one of siblings: children of the root or of an element. The children of a
  conditional or of a loop stand for themselves. -/
  hasSiblings : Bool := true
  /-- The finished nodes in front, the nearest first. -/
  before : List Node := []
  /-- Nothing is in focus once the node is gone. -/
  focus : Option Node := none
  after : List Node := []
deriving Inhabited, Repr

namespace Site

def parent? (site : Site) : Option NodeId :=
  site.ancestors.head?

def index (site : Site) : Nat :=
  site.before.length

def siblings (site : Site) : List Node :=
  if site.hasSiblings then site.before.reverse ++ site.focus.toList ++ site.after else []

/-- What is left to do here: the node in focus, or the step away from an empty place, and the nodes
behind it. -/
def weight (site : Site) : Nat :=
  (site.focus.map Node.weight).getD 1 + Node.weightAll site.after

def replace (site : Site) (node : Node) : Site :=
  { site with focus := some node }

/-- Remove the node in focus, if it is one of several siblings. -/
def remove (site : Site) : Site :=
  if site.hasSiblings then { site with focus := none } else site

theorem weight_replace_le {site : Site} {old new : Node} (focused : site.focus = some old)
    (lighter : new.weight ≤ old.weight) : (site.replace new).weight ≤ site.weight := by
  simp only [weight, replace, focused, Option.map_some, Option.getD_some]
  omega

theorem weight_remove_le {site : Site} {node : Node} (focused : site.focus = some node) :
    site.remove.weight ≤ site.weight := by
  have := node.weight_pos
  simp only [weight, remove]
  split
  · simp only [focused, Option.map_none, Option.map_some, Option.getD_none, Option.getD_some]
    omega
  · exact Nat.le_refl _

theorem weightAll_after_lt (site : Site) : Node.weightAll site.after < site.weight := by
  simp only [weight]
  cases site.focus with
  | none => simp
  | some node =>
    have := node.weight_pos
    simp; omega

end Site

end TemplateCompiler
