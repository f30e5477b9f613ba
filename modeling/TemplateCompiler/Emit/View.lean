import TemplateCompiler.Render.Plan

/-! A plan unfolded into a tree. Code refers to other nodes by number; a view has their views in
place of the numbers. -/

namespace TemplateCompiler

namespace Code

/-- The nodes whose code this code contains, in the order of writing. -/
def references (code : Code) : List NodeId :=
  match code.body with
  | .vnode call => call.children
  | .conditional links otherwise => links.map (·.consequent) ++ otherwise.toList
  | .loop call => [call.body]
  | .text _ | .comment _ | .hoisted _ => []

end Code

/-- A node with its place in the template, its code if it has some, and the views of the nodes that
the code refers to. -/
inductive View where
  | node (span : Span) (code : Option Code) (references : List View)
deriving Inhabited

namespace Plan

def spans (plan : Plan) : Array Span :=
  (plan.template.nodes.map (·.span)).toArray

/-- The view of a node, unfolded so many levels deep. -/
def viewWithin (table : Table) (spans : Array Span) : Nat → NodeId → View
  | 0, id => .node ((spans[id]?).getD {}) none []
  | depth + 1, id =>
    let code := table.get? id
    .node ((spans[id]?).getD {}) code
      (((code.map Code.references).getD []).map (viewWithin table spans depth))

/-- The view of a node. No code refers back to a node around it, so a tree is no deeper than the
table is long. -/
def view (plan : Plan) (spans : Array Span) (id : NodeId) : View :=
  viewWithin plan.table spans (plan.table.size + 1) id

end Plan

end TemplateCompiler
