import TemplateCompiler.CommandLine.Path
import TemplateCompiler.CommandLine.Run

/-! The command: it compiles a file or the standard input, prints the render function, and reports
problems on the standard error. -/

open TemplateCompiler

def readBytes? (name : String) : IO (Option (List UInt8)) := do
  let here := (← IO.currentDir).toString
  try
    return some (← IO.FS.readBinFile (CommandLine.absolutePath here name)).toList
  catch _ => return none

def readInput (arguments : CommandLine.Arguments) : IO (Option (List UInt8)) := do
  match arguments.file with
  | some name => readBytes? name
  | none => return some (← (← IO.getStdin).readBinToEnd).toList

def reportProblem (name : String) (problem : Problem) : IO Unit :=
  IO.eprintln (problem.severity.name ++ ": " ++ problem.message ++ " (" ++ name ++ ":" ++
    toString problem.span.start.line ++ ":" ++ toString problem.span.start.column ++ ")")

def main (args : List String) : IO UInt32 := do
  match CommandLine.read? args with
  | none =>
    IO.eprintln "The arguments are not understood."
    return (UInt32.ofNat CommandLine.usageFailure.exitCode)
  | some arguments =>
    let outcome := CommandLine.runWith arguments (← readInput arguments)
    for problem in outcome.problems do
      reportProblem (arguments.file.getD "<stdin>") problem
    IO.print outcome.output
    if outcome.exitCode ≠ 0 then IO.eprintln "The template was not compiled."
    return (UInt32.ofNat outcome.exitCode)
