import TemplateCompiler.Lowering.Pass

/-! Passes that watch a walk, or change the tree in simple ways, and keep a journal of it. -/

namespace TemplateCompiler

inductive ProbeAction where
  /-- Write down where each node is entered and left, and which of the names are aliases there. -/
  | record (watch : List String)
  | remove
  /-- Remove the sibling so many places on; the node itself is no places on. -/
  | removeNext (offset : Nat)
  /-- Mark the node as rendered once. -/
  | once
  /-- Put a comment in place of the node. -/
  | replace
deriving DecidableEq, Inhabited, Repr

structure Probe where
  name : String
  action : ProbeAction
  /-- The description of the nodes to act on; a record is kept of all nodes. -/
  node : Option String := none
deriving DecidableEq, Inhabited, Repr

namespace Node

/-- A short description: the tag of an element, or the kind of node. -/
def describe (node : Node) : String :=
  match node.content with
  | .element e => "<" ++ e.tag ++ ">"
  | .text _ => "text"
  | .interpolation _ => "interpolation"
  | .comment _ => "comment"
  | .conditional _ => "if"
  | .loop _ => "for"

end Node

namespace Probe

def sighting (watch : List String) (node : Node) (site : Site) (progress : Progress) :
    Sighting :=
  { id := node.id
    node := node.describe
    current := site.focus.map (·.id)
    parent := site.parent?
    ancestors := site.ancestors.reverse
    index := site.index
    siblings := site.siblings.map (·.id)
    inOnce := progress.inOnce site
    hasAliases := !progress.scope.isEmpty
    aliases := watch.filter progress.scope.contains }

def write (progress : Progress) (event : Event) : Progress :=
  { progress with journal := progress.journal ++ [event] }

/-- The sibling so many places on, and the place without it. -/
def takeNext (site : Site) : Nat → Option Node × Site
  | 0 =>
    if site.hasSiblings then
      (site.focus, { site with focus := site.after.head?, after := site.after.tail })
    else (none, site)
  | offset + 1 =>
    if site.hasSiblings then
      (site.after[offset]?, { site with after := site.after.eraseIdx offset })
    else (none, site)

def act (probe : Probe) (node : Node) (site : Site) (progress : Progress) : Entrance :=
  match probe.action with
  | .record _ => { site, progress }
  | .remove =>
    if site.hasSiblings then { site := site.remove, progress := progress.drop [node] }
    else { site, progress }
  | .removeNext offset =>
    let taken := takeNext site offset
    { site := taken.2
      progress :=
        write (progress.drop taken.1.toList) (.removedNext probe.name (taken.1.map (·.id))) }
  | .once => { site, progress := { progress with onceNodes := node.id :: progress.onceNodes } }
  | .replace =>
    let comment : Node := { id := progress.next, content := .comment "replaced", span := node.span }
    { site := site.replace comment
      progress := { progress with next := progress.next + 1 }.drop [node] }

def enter (probe : Probe) (node : Node) (site : Site) (progress : Progress) : Entrance :=
  match probe.action with
  | .record watch =>
    { site
      progress := write progress (.entered probe.name (sighting watch node site progress))
      exits := true }
  | _ =>
    if probe.node == some node.describe then probe.act node site progress else { site, progress }

def exit (probe : Probe) (node : Node) (site : Site) (progress : Progress) : Progress :=
  match probe.action with
  | .record watch => write progress (.left probe.name (sighting watch node site progress))
  | _ => progress

theorem weightAll_eraseIdx_le (nodes : List Node) (index : Nat) :
    Node.weightAll (nodes.eraseIdx index) ≤ Node.weightAll nodes := by
  induction nodes generalizing index with
  | nil => simp
  | cons node rest ih =>
    cases index with
    | zero => simp [Node.weightAll]
    | succ index =>
      have := ih index
      simp only [List.eraseIdx_cons_succ, Node.weightAll]
      omega

theorem weight_takeNext_le {node : Node} {site : Site} (focused : site.focus = some node)
    (offset : Nat) : (takeNext site offset).2.weight ≤ site.weight := by
  have := node.weight_pos
  cases offset with
  | zero =>
    simp only [takeNext]
    split
    · cases rest : site.after with
      | nil => simp [Site.weight, focused, rest, Node.weightAll]; omega
      | cons next more => simp [Site.weight, focused, rest, Node.weightAll]
    · exact Nat.le_refl _
  | succ offset =>
    simp only [takeNext]
    split
    · have := weightAll_eraseIdx_le site.after offset
      simp only [Site.weight]
      omega
    · exact Nat.le_refl _

theorem weight_act_le {probe : Probe} {node : Node} {site : Site} {progress : Progress}
    (focused : site.focus = some node) :
    (probe.act node site progress).site.weight ≤ site.weight := by
  simp only [act]
  split
  · exact Nat.le_refl _
  · split
    · exact Site.weight_remove_le focused
    · exact Nat.le_refl _
  · exact weight_takeNext_le focused _
  · exact Nat.le_refl _
  · apply Site.weight_replace_le focused
    have := node.weight_pos
    simp only [Node.weight, Node.weightAll]
    omega

def pass (probe : Probe) : Pass where
  name := probe.name
  enter _ node site progress := .ok (probe.enter node site progress)
  exit _ node site progress := (node, probe.exit node site progress)
  exitRoot roots progress := (roots, write progress (.leftRoot probe.name roots.length))
  enter_weight_le focused done := by
    cases done
    simp only [enter]
    split
    · exact Nat.le_refl _
    · split
      · exact weight_act_le focused
      · exact Nat.le_refl _

end Probe

end TemplateCompiler
