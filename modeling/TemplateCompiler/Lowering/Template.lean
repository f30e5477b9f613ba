import TemplateCompiler.Lowering.Pass.Conditional
import TemplateCompiler.Lowering.Pass.Element
import TemplateCompiler.Lowering.Pass.Loop
import TemplateCompiler.Lowering.Pass.Memo
import TemplateCompiler.Lowering.Pass.Once
import TemplateCompiler.Lowering.Pass.TextRun
import TemplateCompiler.Render.Cache
import TemplateCompiler.Render.Hoist

/-! From a template to the plan of its render function. -/

namespace TemplateCompiler

structure LowerOption where
  /-- Move what never changes out of the render function. -/
  hoistStatic : Bool := true
  /-- Keep handlers in the render cache. -/
  cacheHandlers : Bool := false
  /-- Reads the expressions of the template. -/
  reader : ScriptReader := .standard
deriving Inhabited

namespace LowerOption

/-- Around the roots of a template. -/
def surroundings (option : LowerOption) : Surroundings :=
  { reader := option.reader, cacheHandlers := option.cacheHandlers }

def start (option : LowerOption) (template : Template) : Progress :=
  { reader := option.reader, cacheHandlers := option.cacheHandlers, next := template.size }

end LowerOption

def defaultPasses : List Pass :=
  [Once.pass, Conditional.pass, Loops.pass, Memo.pass, Elements.pass, TextRun.pass]

structure Lowered where
  plan : Plan
  problems : List Problem
  journal : List Event

/-- The plan that a finished walk describes. -/
def planOf (template : Template) (roots : List Node) (progress : Progress) : Plan :=
  { template :=
      { roots
        dropped := template.dropped ++ progress.dropped
        size := progress.next
        span := template.span }
    table := progress.table
    root := progress.root
    components := progress.components
    directives := progress.directives
    marks := progress.marks
    memoDependencies := progress.memoDependencies }

/-- Run the given passes over a template, then hoist and hand out cells. -/
def lowerWith (passes : List Pass) (option : LowerOption) (template : Template) :
    Except Fault Lowered :=
  (walk passes template.roots (option.start template)).bind fun done =>
    match done.2.fault? with
    | some fault => .error fault
    | none =>
      let plan := planOf template done.1 done.2
      let hoisted := if option.hoistStatic then plan.hoist else plan
      .ok { plan := hoisted.injectCache, problems := done.2.problems, journal := done.2.journal }

def lower (option : LowerOption) (template : Template) : Except Fault Lowered :=
  lowerWith defaultPasses option template

end TemplateCompiler
