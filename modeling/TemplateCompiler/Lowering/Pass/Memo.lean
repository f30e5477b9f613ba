import TemplateCompiler.Lowering.Expression
import TemplateCompiler.Lowering.Pass

/-! Nodes that are kept as long as their dependencies are the same. -/

namespace TemplateCompiler.Memo

def keep (node : Node) (site : Site) (progress : Progress) (value : Value) : Progress :=
  let dependencies := (progress.surroundings site).resolveValue value
  { progress.absorb dependencies with
      memoDependencies := progress.memoDependencies.insert node.id dependencies.value
      marks := progress.marks.insertNew node.id .memo }

/-- What is rendered once has no use for dependencies. -/
def enter (node : Node) (site : Site) (progress : Progress) : Entrance :=
  let taken := node.properties.takeDirective (· == "memo")
  match taken.1 with
  | none => { site, progress }
  | some directive =>
    let rest := node.withProperties taken.2
    let changed := site.replace rest
    match directive.emptyProblem? .memoWithoutExpression, directive.expression with
    | some problem, _ => { site := changed, progress := progress.report [problem] }
    | none, none => { site := changed, progress }
    | none, some value =>
      if progress.inOnce site then { site := changed, progress }
      else { site := changed, progress := keep rest changed progress value }

def pass : Pass where
  name := "v_memo"
  enter _ node site progress := .ok (enter node site progress)
  enter_weight_le {_ node _ _ _} focused done := by
    cases done
    have lighter := Site.weight_replace_le focused (Node.weight_withProperties_le
      (Properties.length_takeDirective_le node.properties (· == "memo")))
    simp only [enter]
    split
    · exact Nat.le_refl _
    · split
      · exact lighter
      · exact lighter
      · split <;> exact lighter

end TemplateCompiler.Memo
