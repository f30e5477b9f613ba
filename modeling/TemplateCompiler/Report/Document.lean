/-! A neutral form in which tokens, trees and render code are shown: records, lists, named variants
and plain values. Printers of concrete formats work on it. -/

namespace TemplateCompiler

inductive Document where
  | null
  | bool (value : Bool)
  | number (value : Nat)
  | text (value : String)
  | list (items : List Document)
  /-- Named fields in order. -/
  | record (fields : List (String × Document))
  /-- A case with a value. -/
  | variant (name : String) (value : Document)
deriving Inhabited, Repr

namespace Document

def option (show' : α → Document) : Option α → Document
  | none => null
  | some value => show' value

def listOf (show' : α → Document) (items : List α) : Document :=
  list (items.map show')

def texts (items : List String) : Document :=
  listOf text items

end Document

end TemplateCompiler
