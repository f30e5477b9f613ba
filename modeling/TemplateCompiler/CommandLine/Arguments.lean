import TemplateCompiler.CommandLine.Delimiters
import TemplateCompiler.Compiler

/-! The arguments of the command: options by their long or short names, and one file at most. An
option stands alone or takes a value, and none may be given twice. -/

namespace TemplateCompiler.CommandLine

inductive Setting where
  | delimiters
  | mode
  | contextText
deriving DecidableEq, Inhabited, Repr

inductive Switch where
  | noHoist
  | cacheHandlers
  | preserveComments
  | preserveWhitespace
  | sourceMap
  | dumpScan
  | dumpParse
  | dumpTransform
deriving DecidableEq, Inhabited, Repr

def settingOf? (name : String) : Option Setting :=
  List.lookup name [("delimiters", .delimiters), ("mode", .mode), ("prefix", .contextText)]

def switchOf? (name : String) : Option Switch :=
  List.lookup name
    [("no-hoist", .noHoist), ("cache-handlers", .cacheHandlers),
     ("preserve-comments", .preserveComments), ("preserve-whitespace", .preserveWhitespace),
     ("source-map", .sourceMap), ("dump-scan", .dumpScan), ("dump-parse", .dumpParse),
     ("dump-transform", .dumpTransform)]

def shortSettingOf? (letter : Char) : Option Setting :=
  List.lookup letter [('d', .delimiters), ('m', .mode)]

structure Arguments where
  file : Option String := none
  settings : List (Setting × String) := []
  switches : List Switch := []
deriving DecidableEq, Inhabited, Repr

namespace Arguments

def setting? (arguments : Arguments) (setting : Setting) : Option String :=
  List.lookup setting arguments.settings

def has (arguments : Arguments) (switch : Switch) : Bool :=
  arguments.switches.contains switch

/-- Add a value; a mode has to be one of the two. -/
def addSetting? (arguments : Arguments) (setting : Setting) (value : String) :
    Option Arguments :=
  let isValid := setting ≠ .mode || value == "module" || value == "function"
  if isValid && (arguments.setting? setting).isNone then
    some { arguments with settings := (setting, value) :: arguments.settings }
  else none

def addSwitch? (arguments : Arguments) (switch : Switch) : Option Arguments :=
  if arguments.has switch then none
  else some { arguments with switches := switch :: arguments.switches }

def addFile? (arguments : Arguments) (name : String) : Option Arguments :=
  if arguments.file.isSome then none else some { arguments with file := some name }

end Arguments

inductive Spelling where
  /-- What follows is no option. -/
  | separator
  | long (name : String) (attached : Option String)
  /-- A letter, and what is written right behind it. -/
  | short (letter : Char) (attached : Option String)
  | plain
deriving DecidableEq, Inhabited, Repr

def spellingOf (argument : String) : Spelling :=
  match argument.toList with
  | ['-', '-'] => .separator
  | '-' :: '-' :: rest =>
    match Text.cut? ['='] rest with
    | some (name, value) => .long (String.ofList name) (some (String.ofList value))
    | none => .long (String.ofList rest) none
  | '-' :: letter :: rest =>
    match rest with
    | [] => .short letter none
    | '=' :: value => .short letter (some (String.ofList value))
    | value => .short letter (some (String.ofList value))
  | _ => .plain

def addFiles? (arguments : Arguments) (names : List String) : Option Arguments :=
  names.foldlM Arguments.addFile? arguments

/-- Read the arguments behind an option that may still await its value. The value is attached to the
option, or is the next argument if that is no option. There is no result if they are used
wrongly. -/
def readFrom? (arguments : Arguments) (awaiting : Option Setting) :
    List String → Option Arguments
  | [] => if awaiting.isSome then none else some arguments
  | argument :: rest =>
    match awaiting, spellingOf argument with
    | some setting, .plain => do
      readFrom? (← arguments.addSetting? setting argument) none rest
    | some _, _ => none
    | none, .separator => addFiles? arguments rest
    | none, .plain => do
      readFrom? (← arguments.addFile? argument) none rest
    | none, .long name attached =>
      match settingOf? name, switchOf? name, attached with
      | some setting, _, none => readFrom? arguments (some setting) rest
      | some setting, _, some value => do
        readFrom? (← arguments.addSetting? setting value) none rest
      | none, some switch, none => do
        readFrom? (← arguments.addSwitch? switch) none rest
      | none, _, _ => none
    | none, .short letter attached =>
      match shortSettingOf? letter, attached with
      | some setting, none => readFrom? arguments (some setting) rest
      | some setting, some value => do
        readFrom? (← arguments.addSetting? setting value) none rest
      | none, _ => none

def read? (arguments : List String) : Option Arguments :=
  readFrom? {} none arguments

namespace Arguments

/-- The options of the compilation, unless the delimiters are no pair. -/
def compileOption? (arguments : Arguments) : Option CompileOption := do
  let standard : CompileOption := {}
  let (opening, closing) ←
    match arguments.setting? .delimiters with
    | some text => delimiterPair? text
    | none => some (standard.delimiters.opening, standard.delimiters.closing)
  return {
    kind := if arguments.setting? .mode == some "function" then .function else .module
    hoistStatic := !arguments.has .noHoist
    cacheHandlers := arguments.has .cacheHandlers
    delimiters := .ofPair opening closing
    onContext := (arguments.setting? .contextText).getD standard.onContext
    preserveComments := arguments.has .preserveComments
    whitespace := if arguments.has .preserveWhitespace then .preserve else .condense
    sourceMap := arguments.has .sourceMap }

end Arguments

end TemplateCompiler.CommandLine
