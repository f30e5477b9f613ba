import TemplateCompiler.Template.Builder
import TemplateCompiler.Token.Lexer

/-! Markup as it is written by hand: a forest of elements, texts and interpolations, and the
template that spells it. Markup is plain if nothing in it can be mistaken for something else, so
that it can be read back from its spelling. -/

namespace TemplateCompiler

/-- An attribute with its value as it is written, if it has one. -/
structure MarkupAttribute where
  name : String
  value : Option String := none
deriving DecidableEq, Repr

inductive Markup where
  | element (tag : String) (attributes : List MarkupAttribute) (children : List Markup)
  | text (words : String)
  | interpolation (source : String)

namespace MarkupAttribute

def print (given : MarkupAttribute) : List Char :=
  ' ' :: given.name.toList ++
    match given.value with
    | none => []
    | some value => '=' :: '"' :: value.toList ++ ['"']

/-- The tokens that spell the attribute. -/
def kinds (given : MarkupAttribute) : List TokenKind :=
  .attrName given.name ::
    (given.value.map fun value => .attrValue ((Phrase.mk value {}).decoded true)).toList

def isNameChar (c : Char) : Bool :=
  Lexer.isNameChar c && c != '=' && c != '<' && c != '"' && c != '\''

/-- The name is not empty, no directive, and has no character with a meaning of its own. -/
def isPlain (given : MarkupAttribute) : Bool :=
  !given.name.isEmpty && !DirectiveName.isDirective given.name &&
    given.name.toList.all isNameChar &&
    given.value.all fun value => !value.toList.contains '"'

end MarkupAttribute

namespace Markup

def isText : Markup → Bool
  | text _ => true
  | _ => false

def tag? : Markup → Option String
  | element tag _ _ => some tag
  | _ => none

/-- A tag that begins with an ASCII letter, goes on with characters of names, and whose element
has ordinary content. -/
def isPlainTag (tag : String) : Bool :=
  tag.toList.head?.any Char.isAlpha && tag.toList.all Lexer.isNameChar && !Tag.isVoid tag &&
    !Tag.isPreformatted tag && Tag.textMode tag == .data

def isPlainText (words : String) : Bool :=
  !words.isEmpty && words.toList.all fun c => c != '<' && c != '\x7b' && c != '\x00'

mutual

/-- The template that spells the markup. -/
def print : Markup → List Char
  | element tag attributes children =>
    '<' :: tag.toList ++ attributes.flatMap MarkupAttribute.print ++ '>' :: printAll children ++
      '<' :: '/' :: tag.toList ++ ['>']
  | text words => words.toList
  | interpolation source => '\x7b' :: '\x7b' :: source.toList ++ ['\x7d', '\x7d']

def printAll : List Markup → List Char
  | [] => []
  | markup :: rest => markup.print ++ printAll rest

end

mutual

/-- The tokens that spell the markup. -/
def kinds : Markup → List TokenKind
  | element tag attributes children =>
    .tagOpen tag :: attributes.flatMap MarkupAttribute.kinds ++ .tagEnd false ::
      kindsAll children ++ [.tagClose tag]
  | text words => [.text ((Phrase.mk words {}).decoded false)]
  | interpolation source => [.interpolation source]

def kindsAll : List Markup → List TokenKind
  | [] => []
  | markup :: rest => markup.kinds ++ kindsAll rest

end

mutual

/-- The markup can be read back from its spelling. The start tag of a child must not imply the end
of its parent, and neighbouring texts would be one. -/
def isPlain : Markup → Bool
  | element tag attributes children =>
    isPlainTag tag && attributes.all MarkupAttribute.isPlain &&
      decide (attributes.map MarkupAttribute.name).Nodup &&
      (children.filterMap tag?).all (fun child => !Tag.closesImplicitly tag child) &&
      isPlainAll children
  | text words => isPlainText words
  | interpolation source => !source.toList.contains '\x7d'

def isPlainAll : List Markup → Bool
  | [] => true
  | markup :: rest =>
    markup.isPlain && !(markup.isText && rest.head?.any isText) && isPlainAll rest

end

end Markup

def Property.markup? : Property → Option MarkupAttribute
  | .dir _ => none
  | .attr given =>
    if given.value.all fun value => value.content == (Phrase.mk value.content.raw {}).decoded true
    then some { name := given.name, value := given.value.map (·.content.raw) }
    else none

mutual

/-- The markup that a tree spells: its places and numbers are forgotten. -/
def Node.markup? : Node → Option Markup
  | ⟨_, content, _, children⟩ =>
    match content with
    | .element e =>
      match e.properties.mapM Property.markup?, markupAll? children with
      | some attributes, some below => some (.element e.tag attributes below)
      | _, _ => none
    | .text t =>
      if t == (Phrase.mk t.raw {}).decoded false && children.isEmpty then some (.text t.raw)
      else none
    | .interpolation source => if children.isEmpty then some (.interpolation source) else none
    | _ => none

def Node.markupAll? : List Node → Option (List Markup)
  | [] => some []
  | node :: rest =>
    match node.markup?, markupAll? rest with
    | some markup, some others => some (markup :: others)
    | _, _ => none

end

end TemplateCompiler
