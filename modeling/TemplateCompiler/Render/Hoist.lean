import TemplateCompiler.Render.Plan

/-! Moving what never changes out of the render function. The largest subtrees that are static are
made once; conditionals, loops and nodes that are kept in the render cache are never entered. -/

namespace TemplateCompiler.Plan

mutual

/-- How far the code of a node is fixed. -/
def levelOf (table : Table) (marks : NodeMap CacheMark) : Node → Level
  | ⟨id, content, _, children⟩ =>
    if marks.contains id then .notStatic
    else
      match content, table.get? id with
      | .element element, some { body := .vnode vnode, cache := none } =>
        let isPlain := element.kind = .plain && !vnode.isComponent
        let isFixed := vnode.patchFlag.isEmpty && vnode.directives.isEmpty
        if isPlain && isFixed && vnode.children = children.map (·.id) then
          ((vnode.props.map Expr.level).getD .canStringify).meet (levelOfAll table marks children)
        else .notStatic
      | .text _, some { body := .text call, cache := none } => Expr.levelAll call.parts
      | .interpolation _, some { body := .text call, cache := none } => Expr.levelAll call.parts
      | .comment _, _ => .canStringify
      | _, _ => .notStatic

def levelOfAll (table : Table) (marks : NodeMap CacheMark) : List Node → Level
  | [] => .canStringify
  | node :: rest => (levelOf table marks node).meet (levelOfAll table marks rest)

end

mutual

def staticElements (table : Table) (marks : NodeMap CacheMark) : Node → List NodeId
  | ⟨id, content, span, children⟩ =>
    match content with
    | .element _ =>
      if marks.contains id then []
      else if (levelOf table marks ⟨id, content, span, children⟩).isStatic then [id]
      else staticElementsAll table marks children
    | _ => []

def staticElementsAll (table : Table) (marks : NodeMap CacheMark) : List Node → List NodeId
  | [] => []
  | node :: rest => staticElements table marks node ++ staticElementsAll table marks rest

end

def hoistNode (plan : Plan) (id : NodeId) : Plan :=
  match plan.table.get? id with
  | some { body := .vnode vnode, cache := none } =>
    { plan with
        hoists := plan.hoists ++ [{ vnode with patchFlag := .hoisted, isBlock := false }]
        table := plan.table.set id { body := .hoisted plan.hoists.length } }
  | _ => plan

/-- Move every static subtree out of the render function. -/
def hoist (plan : Plan) : Plan :=
  (staticElementsAll plan.table plan.marks plan.template.roots).foldl hoistNode plan

end TemplateCompiler.Plan
