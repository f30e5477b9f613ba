import TemplateCompiler.Markup.Name
import TemplateCompiler.Text.Alphanumeric
import TemplateCompiler.Text.Search
import TemplateCompiler.Text.Quoted
import TemplateCompiler.Text.Reference
import TemplateCompiler.Text.UpperCase

/-! A stretch of the template with edits that are still to be done. The edits have a fixed
order, so `foo-bar` marked as camel case and as a handler key is written `onFooBar`, in whatever
order the marks were made. -/

namespace TemplateCompiler

namespace Text

def squeeze : List Char → List Char
  | [] => []
  | c :: rest =>
    if isBlank c then
      match rest with
      | [] => [' ']
      | next :: _ => if isBlank next then squeeze rest else ' ' :: squeeze rest
    else c :: squeeze rest

/-- `foo-bar` becomes `fooBar`; a dash that no ASCII letter or digit follows is kept. -/
def camelCase : List Char → List Char
  | '-' :: next :: rest =>
    if next.isAlphanum then next.toUpper :: camelCase rest else '-' :: camelCase (next :: rest)
  | c :: rest => c :: camelCase rest
  | [] => []

def capitalize : List Char → List Char
  | [] => []
  | c :: rest => upperCase c ++ rest

/-- `my-comp` becomes `_component_my_comp` for the kind `component`; a character that no
identifier has becomes its code point. -/
def assetName (kind : String) (name : List Char) : List Char :=
  '_' :: kind.toList ++ '_' :: name.flatMap fun c =>
    if c = '-' then ['_']
    else if isAlphanumeric c || c = '$' || c = '_' then [c]
    else (toString c.toNat).toList

end Text

/-- The edits still to be done on a phrase, in the order they are done. -/
structure Edits where
  squeeze : Bool := false
  decode : Bool := false
  camelCase : Bool := false
  capitalize : Bool := false
  handlerKey : Bool := false
  component : Bool := false
  directive : Bool := false
  quote : Bool := false
  /-- Character references follow the rules of attribute values. -/
  inAttribute : Bool := false
deriving DecidableEq, Inhabited, Repr

namespace Edits

def bits (edits : Edits) : Nat :=
  let bit (value : Bool) (weight : Nat) := if value then weight else 0
  bit edits.squeeze 1 + bit edits.decode 2 + bit edits.camelCase 4 +
    bit edits.capitalize 8 + bit edits.handlerKey 16 + bit edits.component 32 +
    bit edits.directive 64 + bit edits.quote 128 + bit edits.inAttribute 256

def applyIf (pending : Bool) (edit : List Char → List Char) (text : List Char) : List Char :=
  if pending then edit text else text

def apply (edits : Edits) (text : List Char) : List Char :=
  applyIf edits.quote Text.quotedChars
    (applyIf edits.directive (Text.assetName "directive")
      (applyIf edits.component (Text.assetName "component")
        (applyIf edits.handlerKey (fun name => 'o' :: 'n' :: Text.capitalize name)
          (applyIf edits.capitalize Text.capitalize
            (applyIf edits.camelCase Text.camelCase
              (applyIf edits.decode (Text.decodeReferences edits.inAttribute)
                (applyIf edits.squeeze Text.squeeze text)))))))

end Edits

structure Phrase where
  raw : String
  edits : Edits := {}
deriving DecidableEq, Inhabited, Repr

namespace Phrase

/-- The text with all edits done. -/
def text (phrase : Phrase) : String :=
  String.ofList (phrase.edits.apply phrase.raw.toList)

def squeezed (phrase : Phrase) : Phrase :=
  { phrase with edits.squeeze := true }

/-- Character references are to be decoded, by the rules of attribute values or of text. -/
def decoded (phrase : Phrase) (inAttribute : Bool) : Phrase :=
  { phrase with edits.decode := true, edits.inAttribute := inAttribute }

def camelCased (phrase : Phrase) : Phrase :=
  { phrase with edits.camelCase := true }

def capitalized (phrase : Phrase) : Phrase :=
  { phrase with edits.capitalize := true }

/-- `click` is to be written `onClick`. -/
def asHandlerKey (phrase : Phrase) : Phrase :=
  { phrase with edits.handlerKey := true }

def asComponent (phrase : Phrase) : Phrase :=
  { phrase with edits.component := true }

def asDirective (phrase : Phrase) : Phrase :=
  { phrase with edits.directive := true }

def asLiteral (phrase : Phrase) : Phrase :=
  { phrase with edits.quote := true }

/-- The key of an event handler, by its spelling or because it is to become one. -/
def isHandler (phrase : Phrase) : Bool :=
  phrase.edits.handlerKey || Name.isEventKey phrase.raw

def isBlank (phrase : Phrase) : Bool :=
  Text.allBlank phrase.raw

/-- The raw text is empty once trimmed. -/
def isVoid (phrase : Phrase) : Bool :=
  phrase.raw.toList.all Text.isSpace

@[simp]
theorem text_raw (raw : String) : (Phrase.mk raw {}).text = raw := by
  simp [text, Edits.apply, Edits.applyIf]

end Phrase

end TemplateCompiler
