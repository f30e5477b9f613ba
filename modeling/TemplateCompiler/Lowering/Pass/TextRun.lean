import TemplateCompiler.Lowering.Expression
import TemplateCompiler.Lowering.Pass

/-! Runs of text. Neighbouring texts and interpolations become one; the first node of a run stands
for all of it. -/

namespace TemplateCompiler.TextRun

/-- What becomes of a list of children: the nodes that stay, each with the rest of its run. -/
structure Run where
  first : Node
  rest : List Node := []

def runs : List Node → List Run
  | [] => []
  | node :: nodes =>
    match runs nodes with
    | [] => [{ first := node }]
    | run :: others =>
      if node.isTextLike && run.first.isTextLike then
        { first := node, rest := run.first :: run.rest } :: others
      else { first := node } :: run :: others

def part (surroundings : Surroundings) (node : Node) : Reported Expr :=
  match node.content with
  | .text text => pure (.literal text)
  | .interpolation source =>
    if (Text.trim source).isEmpty then pure (.string "")
    else do
      return .call .toDisplayString [← surroundings.resolve source node.span]
  | _ => pure (.string "")

def write (surroundings : Surroundings) (fastPath : Bool) (progress : Progress) (run : Run) :
    Progress :=
  if run.first.isTextLike then
    let parts := (run.first :: run.rest).mapM (part surroundings)
    let needPatch := parts.value.any fun expr => !expr.level.isStatic
    (progress.absorb parts).setCode run.first.id
      (.text { fastPath, needPatch, parts := parts.value })
  else progress

/-- Merge the texts among the children of an element or of the root. A text that is the only child
needs no node of its own if the parent takes plain text. -/
def merge (surroundings : Surroundings) (takesText : Bool) (children : List Node)
    (progress : Progress) : List Node × Progress :=
  let found := runs children
  let fastPath := takesText && found.length = 1
  let written := found.foldl (write surroundings fastPath) progress
  (found.map (·.first), written.drop (found.flatMap (·.rest)))

def exit (node : Node) (site : Site) (progress : Progress) : Node × Progress :=
  match node.content with
  | .element element =>
    let merged := merge (progress.surroundings site) (element.kind = .plain) node.children progress
    ({ node with children := merged.1 }, merged.2)
  | _ => (node, progress)

def exitRoot (roots : List Node) (progress : Progress) : List Node × Progress :=
  merge (progress.surroundings {}) true roots progress

def pass : Pass where
  name := "transform_text"
  enter _ node site progress := .ok { site, progress, exits := node.isElement }
  exit _ node site progress := exit node site progress
  exitRoot := exitRoot
  enter_weight_le _ done := by
    cases done
    exact Nat.le_refl _

end TemplateCompiler.TextRun
