import TemplateCompiler.Emit.Function
import TemplateCompiler.Lowering.Template
import TemplateCompiler.Source.Encoding
import TemplateCompiler.Template.Builder
import TemplateCompiler.Token.Lexer

/-! Compiling templates to render functions. The problems of all stages are collected in the order
in which they are met. -/

namespace TemplateCompiler

inductive ScriptKind where
  | module
  | function
deriving DecidableEq, Inhabited, Repr

structure CompileOption where
  kind : ScriptKind := .module
  hoistStatic : Bool := true
  cacheHandlers : Bool := false
  delimiters : Delimiters := .standard
  isCustomElement : String → Bool := fun _ => false
  onContext : String := "_ctx."
  preserveComments : Bool := false
  whitespace : Whitespace := .condense
  sourceMap : Bool := false
  /-- The module that helpers are imported from. -/
  runtimeModule : String := "vue"
  /-- The global object that has the helpers. -/
  runtimeGlobal : String := "Vue"
  /-- Reads the expressions of templates. -/
  reader : ScriptReader := .standard

namespace CompileOption

def scanning (option : CompileOption) : ScanOption :=
  { delimiters := option.delimiters }

def parsing (option : CompileOption) : ParseOption :=
  { whitespace := option.whitespace
    preserveComments := option.preserveComments
    isCustomElement := option.isCustomElement }

def lowering (option : CompileOption) : LowerOption :=
  { hoistStatic := option.hoistStatic
    cacheHandlers := option.cacheHandlers
    reader := option.reader }

def emitting (option : CompileOption) : EmitOption :=
  { mode :=
      match option.kind with
      | .module => .module option.runtimeModule
      | .function => .function option.runtimeGlobal
    onContext := option.onContext
    sourceMap := option.sourceMap }

end CompileOption

/-- Work that collects problems, and may not be able to go on at all. -/
abbrev Compiling := StateT (List Problem) (Except Fault)

namespace Compiling

def report (problems : List Problem) : Compiling Unit :=
  modify (· ++ problems)

/-- The problems collected so far, which are then forgotten. -/
def drain : Compiling (List Problem) := do
  let problems ← get
  set ([] : List Problem)
  return problems

end Compiling

structure Compilation where
  code : String
  mappings : Option (List Mapping)
  problems : List Problem
deriving Inhabited, Repr

namespace CompileOption

variable (option : CompileOption)

def scan (source : String) : Scan :=
  TemplateCompiler.scan option.scanning source

def readTokens (scan : Scan) : Compiling (List Token) := do
  let _ ← (scan.ending : Except Fault (List Problem))
  Compiling.report scan.problems
  return scan.tokens

/-- The template of a scan, each token being read when it is needed. -/
def parseScan (scan : Scan) : Compiling Template := do
  let (template, problems) ← (parse option.parsing scan : Except Fault (Template × List Problem))
  Compiling.report problems
  return template

def parseTokens (tokens : List Token) : Compiling Template := do
  let (template, problems) := buildTemplate option.parsing tokens
  Compiling.report problems
  return template

def lowerTemplate (template : Template) : Compiling Plan := do
  let lowered ← (lower option.lowering template : Except Fault Lowered)
  Compiling.report lowered.problems
  return lowered.plan

def planSource (source : String) : Compiling Plan := do
  option.lowerTemplate (← option.parseScan (option.scan source))

def generatePlan (plan : Plan) : Generated :=
  generate option.emitting plan

/-- Compile a template. The result has all problems that were not asked for before. -/
def compileSource (source : String) : Compiling Compilation := do
  let plan ← option.planSource source
  let generated := option.generatePlan plan
  return { code := generated.code, mappings := generated.mappings, problems := ← Compiling.drain }

end CompileOption

def compile (option : CompileOption) (source : String) : Except Fault Compilation :=
  (option.compileSource source).run' []

/-- The problem of an input that is no text. -/
def EncodingFault.problem (fault : EncodingFault) : Problem :=
  { kind := .invalidEncoding
    detail := some (" Invalid byte at offset " ++ toString fault.offset ++ ".")
    span := ⟨{ offset := fault.offset }, { offset := fault.offset + fault.length }⟩ }

/-- Compile a template that is given by its bytes, unless they are no UTF-8. -/
def compileBytes (option : CompileOption) (bytes : List UInt8) :
    Except Problem (Except Fault Compilation) :=
  match Encoding.decode bytes with
  | .ok source => .ok (compile option source)
  | .error fault => .error fault.problem

end TemplateCompiler
