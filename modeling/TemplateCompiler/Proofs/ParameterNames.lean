import Mathlib.Data.Option.Basic
import TemplateCompiler.Proofs.LoopAliases

/-! Names as parameters. What is written between the parentheses of a function with an arrow is
accepted if it is a name that is not reserved, or one of the few reserved words that may be bound. -/

namespace TemplateCompiler

namespace Name

variable {c : Char}

end Name

namespace Script

open Name

variable {c : Char}

section Lexemes

variable {state : LexState} {broken : Bool} {start length : Nat} {text : List Char}

end Lexemes

abbrev opening : Lexeme := ⟨.mark, "(", 0, 1, false⟩

abbrev closing (place : Nat) : Lexeme := ⟨.mark, ")", place, place + 1, false⟩

namespace Reader

variable {α β : Type} {reader : Reader α} {next : α → Reader β} {stream rest : Stream}
  {namings : List Naming}

end Reader

open Reader

section Readers

variable {grammar : Grammar} {setting : Setting} {lexemes : List Lexeme} {labels : List String}

section Operands

variable {first : Lexeme} {shape : Shape} {namings : List Naming}

end Operands

section Names

variable {name : String}

end Names

end Readers

section Whole

variable {name : String}

end Whole

end Script

namespace ScriptReader

/-- The pattern can be written as the parameter of a function with an arrow. -/
def Accepts (reader : ScriptReader) (pattern : String) : Prop :=
  reader.isValid ("(" ++ pattern ++ ") => 0") = true

/-- A name that is not reserved can be a parameter. -/
def TakesNames (reader : ScriptReader) : Prop :=
  ∀ name, Name.isSimpleIdentifier name = true → Script.isReservedWord name = false →
    reader.Accepts name

end ScriptReader

end TemplateCompiler
