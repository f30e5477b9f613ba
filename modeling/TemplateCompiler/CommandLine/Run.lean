import TemplateCompiler.CommandLine.Arguments
import TemplateCompiler.Report.Render
import TemplateCompiler.Report.Yaml

/-! What the command prints. The stages that were asked for are shown in front of the code, and the
mappings behind it. -/

namespace TemplateCompiler.CommandLine

structure Outcome where
  exitCode : Nat := 0
  output : String := ""
  /-- The problems to report, in order. -/
  problems : List Problem := []
deriving Inhabited, Repr

def usageFailure : Outcome :=
  { exitCode := 2 }

def inputFailure : Outcome :=
  { exitCode := 1 }

/-- Printing that ends early with an exit code. -/
abbrev Printing := ExceptT Nat (StateM String)

namespace Printing

def print (text : String) : Printing Unit :=
  modify (· ++ text)

/-- Show a document under a title; one that cannot be written ends the run. -/
def dump (title : String) (document : Document) : Printing Unit := do
  print ("============== " ++ title ++ " ==============\n")
  match Yaml.render document with
  | some text => print text
  | none => throw 1
  print ("=========== End of " ++ title ++ " ===========\n")

def orAbort {α : Type} : Except Fault α → Printing α
  | .ok value => pure value
  | .error _ => throw 101

end Printing

open Printing Document in
def printTemplate (arguments : Arguments) (option : CompileOption) (source : String) :
    Printing (List Problem) := do
  let scan := option.scan source
  if arguments.has .dumpScan then
    let _ ← orAbort scan.ending
    dump "Tokens" (listOf Token.document scan.tokens)
  let (template, found) ← orAbort (parse option.parsing scan)
  if arguments.has .dumpParse then dump "AST" template.document
  let lowered ← orAbort (lower option.lowering template)
  if arguments.has .dumpTransform then dump "IR" lowered.plan.document
  let generated := option.generatePlan lowered.plan
  print generated.code
  match generated.mappings with
  | some mappings => dump "Source Map" (listOf Mapping.document mappings)
  | none => pure ()
  return found ++ lowered.problems

/-- Run the command on an input; it is missing if it could not be read. -/
def runWith (arguments : Arguments) (input : Option (List UInt8)) : Outcome :=
  match arguments.compileOption?, input with
  | none, _ | _, none => inputFailure
  | some option, some bytes =>
    match Encoding.decode bytes with
    | .error fault => { inputFailure with problems := [fault.problem] }
    | .ok source =>
      match ((printTemplate arguments option source).run.run "" : Id _) with
      | (.ok problems, output) => { output, problems }
      | (.error exitCode, output) => { exitCode, output }

end TemplateCompiler.CommandLine
