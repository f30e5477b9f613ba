/-! Names with a meaning of their own: property names that events, the runtime or merging treat
apart, and the words of expressions that are never looked up on the render context. -/

namespace TemplateCompiler.Name

/-- `on` followed by anything but a lower case ASCII letter. -/
def isEventKey (name : String) : Bool :=
  match name.toList with
  | 'o' :: 'n' :: c :: _ => !c.isLower
  | _ => false

/-- Properties whose values are merged instead of overwritten. -/
def isMergeable (name : String) : Bool :=
  name == "class" || name == "style" || isEventKey name

/-- Properties that the runtime keeps for itself. -/
def isReserved (name : String) : Bool :=
  ["key", "ref", "onVnodeMounted", "onVnodeUpdated", "onVnodeUnmounted", "onVnodeBeforeMount",
   "onVnodeBeforeUpdate", "onVnodeBeforeUnmount"].contains name

def isSimpleChar (c : Char) : Bool :=
  c = '$' || c = '_' || c.isAlphanum

/-- An identifier of ASCII letters, digits, `$` and `_`, keywords included. -/
def isSimpleIdentifier (text : String) : Bool :=
  match text.toList with
  | [] => false
  | c :: rest => isSimpleChar c && !c.isDigit && rest.all isSimpleChar

/-- Global objects that expressions may use. -/
def globals : List String :=
  ["Infinity", "undefined", "NaN", "isFinite", "isNaN", "parseFloat", "parseInt", "decodeURI",
   "decodeURIComponent", "encodeURI", "encodeURIComponent", "Math", "Number", "Date", "Array",
   "Object", "Boolean", "String", "RegExp", "Map", "Set", "JSON", "Intl", "BigInt"]

def isGlobal (name : String) : Bool :=
  globals.contains name

def isLiteralWord (name : String) : Bool :=
  ["true", "false", "null", "this"].contains name

end TemplateCompiler.Name
