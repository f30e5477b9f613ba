import TemplateCompiler.Lowering.Expression
import TemplateCompiler.Lowering.LoopExpression
import TemplateCompiler.Lowering.Pass

/-! Loops. The element that is repeated is wrapped in a loop, and the aliases of the loop are in
scope below it. The source of the loop is outside of that scope. -/

namespace TemplateCompiler.Loops

/-- The place of the first key that is set on a child, where the repeated `template` tag should
have it. -/
def misplacedKey? (node : Node) : Option Span :=
  match node.element? with
  | some { kind := .fragment, .. } =>
    node.children.findSome? fun child => (child.properties.setter? "key").map Property.span
  | _ => none

/-- A placeholder in place of an element whose loop cannot be read. -/
def degrade (node : Node) (site : Site) (progress : Progress) (problem : Problem) : Entrance :=
  let placeholder : Node := { id := progress.next, content := .comment "v-for", span := node.span }
  { site := site.replace placeholder
    progress := ({ progress with next := progress.next + 1 }.drop [node]).report [problem] }

def boundNames (reader : ScriptReader) (loop : Loop) : Reported (List String) := do
  return (← loop.aliases.mapM (LoopExpression.boundNames reader)).flatten

@[simp]
theorem problems_boundNames (reader : ScriptReader) (loop : Loop) :
    (boundNames reader loop).problems = [] := by
  simp [boundNames, Reported.problems_mapM]

def wrap (ordinal : Nat) (node : Node) (site : Site) (progress : Progress)
    (expression : LoopExpression) (span : Span) : Entrance :=
  let misplaced := (misplacedKey? node).toList.map fun place =>
    { kind := .forTemplateKey, span := place : Problem }
  let source := (progress.surroundings site).resolve expression.source span
  let loop : Loop :=
    { source := { content := { raw := expression.source }, span }
      value := expression.value
      key := expression.key
      index := expression.index }
  let bound := boundNames progress.reader loop
  let wrapped : Node :=
    { id := progress.next, content := .loop loop, span := node.span, children := [node] }
  { site := site.replace wrapped
    progress :=
      { ((progress.report misplaced).absorb source).absorb bound with
          next := progress.next + 1
          scope := progress.scope.addAll bound.value
          frames :=
            { pass := ordinal
              loop := wrapped.id
              source := source.value
              aliases := bound.value } :: progress.frames }
    exits := true }

def enter (ordinal : Nat) (node : Node) (site : Site) (progress : Progress) : Entrance :=
  let taken := node.properties.takeDirective (· == "for")
  match taken.1 with
  | none => { site, progress }
  | some directive =>
    let rest := node.withProperties taken.2
    match directive.emptyProblem? .forWithoutExpression, directive.expression with
    | some problem, _ => degrade rest site progress problem
    | none, none => { site, progress }
    | none, some value =>
      match LoopExpression.parse? value.content.raw with
      | some expression => wrap ordinal rest site progress expression value.span
      | none => degrade rest site progress { kind := .forMalformed, span := value.span }

/-- The innermost loop that a pass is in, and the others. -/
def popFrame (ordinal : Nat) (frames : List LoopFrame) : Option LoopFrame × List LoopFrame :=
  (frames.find? (·.pass = ordinal), frames.eraseP (·.pass = ordinal))

def fragmentFlag (isStable hasKey : Bool) : PatchFlag :=
  if isStable then .stableFragment else if hasKey then .keyedFragment else .unkeyedFragment

def write (frame : LoopFrame) (node child : Node) (loop : Loop) (progress : Progress) :
    Progress :=
  let isStable := frame.source.level.isStatic
  let hasKey := (child.properties.setter? "key").isSome
  (progress.modifyVNode child.id fun vnode => { vnode with isBlock := !isStable }).setCode node.id
    (.loop
      { source := frame.source
        value := loop.value.map Expr.param
        key := loop.key.map Expr.param
        index := loop.index.map Expr.param
        body := child.id
        isStable
        flag := fragmentFlag isStable hasKey })

def exit (ordinal : Nat) (node : Node) (progress : Progress) : Progress :=
  let popped := popFrame ordinal progress.frames
  match popped.1 with
  | none => progress
  | some frame =>
    let outside :=
      { progress with
          frames := popped.2
          scope := progress.scope.removeAll frame.aliases }
    match node.content, node.children with
    | .loop loop, child :: _ => write frame node child loop outside
    | _, _ => outside

theorem weight_degrade_le {node old : Node} {site : Site} {progress : Progress}
    {problem : Problem} (focused : site.focus = some old) :
    (degrade node site progress problem).site.weight ≤ site.weight := by
  apply Site.weight_replace_le focused
  have := old.weight_pos
  simp only [Node.weight, Node.weightAll]
  omega

theorem weight_wrap_le {ordinal : Nat} {node old : Node} {site : Site} {progress : Progress}
    {expression : LoopExpression} {span : Span} (focused : site.focus = some old)
    (lighter : node.weight < old.weight) :
    (wrap ordinal node site progress expression span).site.weight ≤ site.weight := by
  apply Site.weight_replace_le focused
  simp only [Node.weight, Node.weightAll]
  omega

def pass : Pass where
  name := "v_for"
  enter ordinal node site progress := .ok (enter ordinal node site progress)
  exit ordinal node _ progress := (node, exit ordinal node progress)
  enter_weight_le focused done := by
    cases done
    simp only [enter]
    split
    · exact Nat.le_refl _
    · next directive found =>
      split
      · exact weight_degrade_le focused
      · exact Nat.le_refl _
      · split
        · apply weight_wrap_le focused
          apply Node.weight_withProperties_lt
          apply Properties.length_takeDirective_lt
          simp only [Properties.takeDirective] at found
          simp [Properties.hasDirective, found]
        · exact weight_degrade_le focused

end TemplateCompiler.Loops
