import TemplateCompiler.Lowering.Scope
import TemplateCompiler.Problem.Reported
import TemplateCompiler.Render.Expr
import TemplateCompiler.Script.Expression
import TemplateCompiler.Template.Property

/-! Resolving the names of an expression. A name is a local of the code around it, an alias of a
loop, a word of the language, a global object, or else it is looked up on the render context. -/

namespace TemplateCompiler

def resolveName (scope : Scope) (locals : List String) (name : String) : Expr :=
  if locals.contains name then .simple { raw := name } .canStringify
  else if scope.contains name then .param name
  else if Name.isLiteralWord name then .simple { raw := name } .canStringify
  else if Name.isGlobal name then .simple { raw := name } .canHoist
  else .context name

/-- The text of an expression with its names resolved up to the character `last`. -/
structure Resolving where
  level : Level := .canStringify
  parts : List Expr := []
  last : Nat := 0

namespace Resolving

/-- Resolve one more reference, unless the expression binds its name. One that is written as it
stands only counts for the level; a shorthand property gets its name as key. -/
def step (text : List Char) (scope : Scope) (bound locals : List String) (state : Resolving)
    (reference : Script.Occurrence) : Reported Resolving := do
  let name ← Reported.slice text reference.start reference.stop
  if bound.contains name then return state
  else
    match resolveName scope locals name with
    | .simple _ level => return { state with level := state.level.meet level }
    | resolved =>
      let gap ← Reported.slice text state.last reference.start
      let key : List Expr := if reference.isShorthand then [.source name, .source ": "] else []
      return {
        level := .notStatic
        parts := state.parts ++ .source gap :: key ++ [resolved]
        last := reference.stop }

/-- The expression that is left when all references are resolved. -/
def finish (text : String) (done : Resolving) : Reported Expr := do
  if done.parts.isEmpty then return .simple { raw := text } done.level
  else
    let chars := text.toList
    let rest ← Reported.slice chars done.last chars.length
    let parts := done.parts ++ [Expr.source rest]
    return .compound (parts.filter fun part => !part.isEmptySource)

end Resolving

/-- The expression with its names resolved; names it binds itself are left alone everywhere. -/
def resolveIn (scope : Scope) (locals : List String) (text : String)
    (parsed : Script.Expression) : Reported Expr := do
  let chars := text.toList
  let bound ← parsed.bindings.mapM fun binding => Reported.slice chars binding.start binding.stop
  (← parsed.references.foldlM (Resolving.step chars scope bound locals) {}).finish text

/-- An expression of the template with its names resolved. `locals` are names that the generated
code around it binds. -/
def resolve (scope : Scope) (locals : List String) (raw : String) (span : Span)
    (reader : ScriptReader := .standard) : Reported Expr :=
  let text := Text.trim raw
  if text.isEmpty then pure (.simple { raw := text } .canStringify)
  else if Name.isSimpleIdentifier text then pure (resolveName scope locals text)
  else
    match reader.parse? text with
    | some parsed => resolveIn scope locals text parsed
    | none => do
      Reported.report { kind := .invalidExpression, detail := some text, span }
      return .simple { raw := text } .notStatic

namespace Surroundings

def resolve (surroundings : Surroundings) (raw : String) (span : Span) : Reported Expr :=
  TemplateCompiler.resolve surroundings.scope [] raw span surroundings.reader

def resolveValue (surroundings : Surroundings) (value : Value) : Reported Expr :=
  surroundings.resolve value.content.raw value.span

end Surroundings

end TemplateCompiler
