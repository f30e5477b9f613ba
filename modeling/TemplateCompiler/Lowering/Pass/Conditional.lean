import TemplateCompiler.Lowering.Expression
import TemplateCompiler.Lowering.Pass

/-! Conditionals. An element with a condition takes the alternatives among its next siblings with
it; blank text and comments between them go away. The tests are written once all branches are
done. -/

namespace TemplateCompiler.Conditional

structure Conditioned where
  node : Node
  condition : Option Value
  problems : List Problem

/-- Take the condition that the directive `name` gives. An empty one always holds. -/
def takeCondition (node : Node) (name : String) : Conditioned :=
  let taken := node.properties.takeDirective (· == name)
  let rest := node.withProperties taken.2
  match taken.1 with
  | none => { node := rest, condition := none, problems := [] }
  | some directive =>
    match directive.emptyProblem? .ifWithoutExpression with
    | some problem =>
      { node := rest
        condition := some { content := { raw := "true" }, span := problem.span }
        problems := [problem] }
    | none => { node := rest, condition := directive.expression, problems := [] }

structure Alternative where
  branch : Branch
  node : Node

/-- The alternatives that follow an element with a condition. -/
structure Alternatives where
  found : List Alternative := []
  /-- What stood between them. -/
  dropped : List Node := []
  rest : List Node
  problems : List Problem := []

def alternativeOf (conditioned : Conditioned) (key : Nat) : Alternative :=
  { branch := { condition := conditioned.condition, key, span := conditioned.node.span }
    node := conditioned.node }

/-- Collect the alternatives in front of `nodes`; `skipped` stands in front of them and goes away
only if an alternative follows. -/
def collect (key : Nat) (skipped : List Node) : List Node → Alternatives
  | [] => { rest := skipped }
  | node :: nodes =>
    if node.isBlankText || node.isComment then collect key (skipped ++ [node]) nodes
    else if node.properties.hasDirective "else-if" then
      let conditioned := takeCondition node "else-if"
      let more := collect (key + 1) [] nodes
      { found := alternativeOf conditioned key :: more.found
        dropped := skipped ++ more.dropped
        rest := more.rest
        problems := conditioned.problems ++ more.problems }
    else if node.properties.hasDirective "else" then
      let conditioned := takeCondition node "else"
      { found := [alternativeOf { conditioned with condition := none } key]
        dropped := skipped
        rest := nodes }
    else { rest := skipped ++ node :: nodes }

/-- The keys that branches give themselves: attributes and bound ones are told apart. -/
structure SeenKeys where
  fixed : List String := []
  bound : List String := []

/-- Report each branch that has the key of an earlier one. -/
def repeatedKeys (seen : SeenKeys) : List Node → List Problem
  | [] => []
  | node :: rest =>
    match node.properties.setter? "key" with
    | some (.attr { value := some value, .. }) =>
      let later := { seen with fixed := value.content.raw :: seen.fixed }
      report (seen.fixed.contains value.content.raw) value ++ repeatedKeys later rest
    | some (.dir { expression := some value, .. }) =>
      let later := { seen with bound := value.content.raw :: seen.bound }
      report (seen.bound.contains value.content.raw) value ++ repeatedKeys later rest
    | _ => repeatedKeys seen rest
where
  report (isRepeated : Bool) (value : Value) : List Problem :=
    if isRepeated then [{ kind := .ifSameKey, span := value.span }] else []

/-- The key of the first branch: the branches of earlier conditionals among the siblings come
first. -/
def firstKey (site : Site) : Nat :=
  if site.hasSiblings then site.before.foldl (fun count node => count + node.branchCount) 0 else 0

/-- Make a conditional of the node in focus and its alternatives. -/
def group (node : Node) (site : Site) (progress : Progress) : Entrance :=
  let key := firstKey site
  let first := takeCondition node "if"
  let others : Alternatives :=
    if site.hasSiblings then collect (key + 1) [] site.after else { rest := site.after }
  let alternatives := alternativeOf first key :: others.found
  let nodes := alternatives.map (·.node)
  let conditional : Node :=
    { id := progress.next
      content := .conditional (alternatives.map (·.branch))
      span := node.span.join ((others.found.getLast?.map (·.branch.span)).getD node.span)
      children := nodes }
  { site := { site with focus := some conditional, after := others.rest }
    progress :=
      { progress with next := progress.next + 1 }.drop others.dropped
        |>.report (first.problems ++ others.problems ++ repeatedKeys {} nodes)
    exits := true }

/-- An alternative that follows no condition is reported and removed. -/
def enter (node : Node) (site : Site) (progress : Progress) : Except Fault Entrance :=
  if node.properties.hasDirective "if" then
    if !site.hasSiblings && !site.before.isEmpty then .error .branchWithoutSiblings
    else .ok (group node site progress)
  else
    match node.properties.findDirective? (["else-if", "else"].contains ·) with
    | none => .ok { site, progress }
    | some directive =>
      let reported := progress.report [{ kind := .elseWithoutIf, span := directive.span }]
      if site.hasSiblings then .ok { site := site.remove, progress := reported.drop [node] }
      else .ok { site, progress := reported }

def addKey (key : Nat) (props : Option Expr) : Expr :=
  let entry : Expr × Expr := (.string "key", .number key)
  match props with
  | none => .props [entry]
  | some (.props entries) => .props (entry :: entries)
  | some (.call .mergeProps (.props entries :: args)) =>
    .call .mergeProps (.props (entry :: entries) :: args)
  | some (.call .mergeProps args) => .call .mergeProps (.props [entry] :: args)
  | some other => .call .mergeProps [.props [entry], other]

/-- A branch is a block, and has a key of its own or gets one. -/
def keyBranch (progress : Progress) (branch : Branch) (child : Node) : Progress :=
  progress.modifyVNode child.id fun vnode =>
    { vnode with
        isBlock := true
        props :=
          if (child.properties.setter? "key").isSome then vnode.props
          else some (addKey branch.key vnode.props) }

/-- The branches as links, the last resort apart. The last test is read first. -/
def links (surroundings : Surroundings) :
    List (Branch × Node) → Reported (List Link × Option NodeId)
  | [] => pure ([], none)
  | (branch, child) :: rest => do
    let (later, otherwise) ← links surroundings rest
    match branch.condition with
    | none => return ([], some child.id)
    | some condition =>
      let test ← surroundings.resolveValue condition
      return ({ test, consequent := child.id } :: later, otherwise)

def exit (node : Node) (site : Site) (progress : Progress) : Progress :=
  match node.content with
  | .conditional branches =>
    let pairs := branches.zip node.children
    let keyed := pairs.foldl (fun progress pair => keyBranch progress pair.1 pair.2) progress
    let written := links (keyed.surroundings site) pairs
    let reported := keyed.absorb written
    if written.value.1.isEmpty then reported
    else reported.setCode node.id (.conditional written.value.1 written.value.2)
  | _ => progress

theorem node_takeCondition (node : Node) (name : String) :
    (takeCondition node name).node =
      node.withProperties (node.properties.takeDirective (· == name)).2 := by
  simp only [takeCondition]
  split
  · rfl
  · split <;> rfl

theorem weight_takeCondition_le (node : Node) (name : String) :
    (takeCondition node name).node.weight ≤ node.weight := by
  have bound : (node.properties.eraseP (·.directs (· == name))).length ≤ node.properties.length :=
    List.length_eraseP_le
  rw [node_takeCondition]
  exact Node.weight_withProperties_le bound

theorem weight_takeCondition_lt {node : Node} {name : String}
    (present : node.properties.hasDirective name = true) :
    (takeCondition node name).node.weight < node.weight := by
  rw [node_takeCondition]
  exact Node.weight_withProperties_lt (Properties.length_takeDirective_lt present)

theorem weight_collect_le (key : Nat) (skipped nodes : List Node) :
    Node.weightAll ((collect key skipped nodes).found.map (·.node)) +
      Node.weightAll (collect key skipped nodes).rest ≤
      Node.weightAll skipped + Node.weightAll nodes := by
  induction nodes generalizing key skipped with
  | nil => simp [collect, Node.weightAll]
  | cons node nodes ih =>
    simp only [collect]
    split
    · have := ih key (skipped ++ [node])
      simp only [Node.weightAll_append, Node.weightAll] at this ⊢
      omega
    · split
      · have := ih (key + 1) []
        have := weight_takeCondition_le node "else-if"
        simp only [List.map_cons, alternativeOf, Node.weightAll] at *
        omega
      · split
        · have := weight_takeCondition_le node "else"
          simp only [List.map_cons, List.map_nil, alternativeOf, Node.weightAll]
          omega
        · simp [Node.weightAll]

theorem weight_group_le {node : Node} {site : Site} {progress : Progress}
    (focused : site.focus = some node) (present : node.properties.hasDirective "if" = true) :
    (group node site progress).site.weight ≤ site.weight := by
  have first := weight_takeCondition_lt present
  simp only [group, Site.weight, focused, Option.map_some, Option.getD_some, Node.weight,
    List.map_cons, alternativeOf, Node.weightAll]
  split
  · have := weight_collect_le (firstKey site + 1) [] site.after
    simp only [Node.weightAll] at this
    omega
  · simp only [List.map_nil, Node.weightAll]
    omega

def pass : Pass where
  name := "v_if"
  enter _ node site progress := enter node site progress
  exit _ node site progress := (node, exit node site progress)
  enter_weight_le focused done := by
    simp only [enter] at done
    split at done
    · next present =>
      split at done
      · cases done
      · cases done
        exact weight_group_le focused present
    · split at done
      · cases done
        exact Nat.le_refl _
      · split at done <;> cases done
        · exact Site.weight_remove_le focused
        · exact Nat.le_refl _

end TemplateCompiler.Conditional
