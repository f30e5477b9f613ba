import TemplateCompiler.Source.Position

/-! The problems a compilation reports. A problem in the template never stops the compilation; only
an input that is no text at all is fatal. The wording of each kind is fixed in one place. -/

namespace TemplateCompiler

inductive Severity where
  | warning
  | error
  | fatal
deriving DecidableEq, Inhabited, Repr

namespace Severity

def name : Severity → String
  | warning => "Warning"
  | error => "Error"
  | fatal => "Fatal"

end Severity

/-- What is wrong: with the markup first, then with a directive's name, then with what a directive
asks for, and last with the input as a whole. -/
inductive ProblemKind where
  | abruptClosingOfEmptyComment
  | cdataInHtmlContent
  | duplicateAttribute
  | endTagWithAttributes
  | endTagWithTrailingSolidus
  | eofBeforeTagName
  | eofInComment
  | eofInTag
  | incorrectlyClosedComment
  | incorrectlyOpenedComment
  | invalidFirstCharacterOfTagName
  | missingAttributeValue
  | missingEndTagName
  | missingWhitespaceBetweenAttributes
  | nestedComment
  | unexpectedEqualsSignBeforeAttributeName
  | unexpectedCharacterInAttributeName
  | unexpectedCharacterInUnquotedAttributeValue
  | unexpectedNullCharacter
  | unexpectedQuestionMarkInsteadOfTagName
  | unexpectedSolidusInTag
  | invalidEndTag
  | missingEndTag
  | missingInterpolationEnd
  | missingDynamicDirectiveArgumentEnd
  | unexpectedContentAfterDynamicDirective
  | missingDirectiveName
  | missingDirectiveArg
  | missingDirectiveMod
  | ifWithoutExpression
  | ifSameKey
  | elseWithoutIf
  | forWithoutExpression
  | forMalformed
  | forTemplateKey
  | bindWithoutExpression
  | onWithoutExpression
  | modelWithoutExpression
  | modelMalformed
  | modelOnAlias
  | modelOnInvalidElement
  | modelArgumentOnElement
  | modelOnFileInput
  | memoWithoutExpression
  | slotUnsupported
  | invalidExpression
  | invalidEncoding
deriving DecidableEq, Inhabited, Repr

namespace ProblemKind

def all : List ProblemKind :=
  [.abruptClosingOfEmptyComment, .cdataInHtmlContent, .duplicateAttribute, .endTagWithAttributes,
   .endTagWithTrailingSolidus, .eofBeforeTagName, .eofInComment, .eofInTag,
   .incorrectlyClosedComment, .incorrectlyOpenedComment, .invalidFirstCharacterOfTagName,
   .missingAttributeValue, .missingEndTagName, .missingWhitespaceBetweenAttributes,
   .nestedComment, .unexpectedEqualsSignBeforeAttributeName, .unexpectedCharacterInAttributeName,
   .unexpectedCharacterInUnquotedAttributeValue, .unexpectedNullCharacter,
   .unexpectedQuestionMarkInsteadOfTagName, .unexpectedSolidusInTag, .invalidEndTag,
   .missingEndTag, .missingInterpolationEnd, .missingDynamicDirectiveArgumentEnd,
   .unexpectedContentAfterDynamicDirective, .missingDirectiveName, .missingDirectiveArg,
   .missingDirectiveMod, .ifWithoutExpression, .ifSameKey, .elseWithoutIf, .forWithoutExpression,
   .forMalformed, .forTemplateKey, .bindWithoutExpression, .onWithoutExpression,
   .modelWithoutExpression, .modelMalformed, .modelOnAlias, .modelOnInvalidElement,
   .modelArgumentOnElement, .modelOnFileInput, .memoWithoutExpression, .slotUnsupported,
   .invalidExpression, .invalidEncoding]

def name : ProblemKind → String
  | abruptClosingOfEmptyComment => "AbruptClosingOfEmptyComment"
  | cdataInHtmlContent => "CDataInHtmlContent"
  | duplicateAttribute => "DuplicateAttribute"
  | endTagWithAttributes => "EndTagWithAttributes"
  | endTagWithTrailingSolidus => "EndTagWithTrailingSolidus"
  | eofBeforeTagName => "EofBeforeTagName"
  | eofInComment => "EofInComment"
  | eofInTag => "EofInTag"
  | incorrectlyClosedComment => "IncorrectlyClosedComment"
  | incorrectlyOpenedComment => "IncorrectlyOpenedComment"
  | invalidFirstCharacterOfTagName => "InvalidFirstCharacterOfTagName"
  | missingAttributeValue => "MissingAttributeValue"
  | missingEndTagName => "MissingEndTagName"
  | missingWhitespaceBetweenAttributes => "MissingWhitespaceBetweenAttributes"
  | nestedComment => "NestedComment"
  | unexpectedEqualsSignBeforeAttributeName => "UnexpectedEqualsSignBeforeAttributeName"
  | unexpectedCharacterInAttributeName => "UnexpectedCharacterInAttributeName"
  | unexpectedCharacterInUnquotedAttributeValue => "UnexpectedCharacterInUnquotedAttributeValue"
  | unexpectedNullCharacter => "UnexpectedNullCharacter"
  | unexpectedQuestionMarkInsteadOfTagName => "UnexpectedQuestionMarkInsteadOfTagName"
  | unexpectedSolidusInTag => "UnexpectedSolidusInTag"
  | invalidEndTag => "InvalidEndTag"
  | missingEndTag => "MissingEndTag"
  | missingInterpolationEnd => "MissingInterpolationEnd"
  | missingDynamicDirectiveArgumentEnd => "MissingDynamicDirectiveArgumentEnd"
  | unexpectedContentAfterDynamicDirective => "UnexpectedContentAfterDynamicDirective"
  | missingDirectiveName => "MissingDirectiveName"
  | missingDirectiveArg => "MissingDirectiveArg"
  | missingDirectiveMod => "MissingDirectiveMod"
  | ifWithoutExpression => "VIfNoExpression"
  | ifSameKey => "VIfSameKey"
  | elseWithoutIf => "VElseNoAdjacentIf"
  | forWithoutExpression => "VForNoExpression"
  | forMalformed => "VForMalformedExpression"
  | forTemplateKey => "VForTemplateKeyPlacement"
  | bindWithoutExpression => "VBindNoExpression"
  | onWithoutExpression => "VOnNoExpression"
  | modelWithoutExpression => "VModelNoExpression"
  | modelMalformed => "VModelMalformedExpression"
  | modelOnAlias => "VModelOnScopeVariable"
  | modelOnInvalidElement => "VModelOnInvalidElement"
  | modelArgumentOnElement => "VModelArgOnElement"
  | modelOnFileInput => "VModelOnFileInputElement"
  | memoWithoutExpression => "VMemoNoExpression"
  | slotUnsupported => "VSlotUnsupported"
  | invalidExpression => "InvalidExpression"
  | invalidEncoding => "InvalidEncoding"

def ofName? (name : String) : Option ProblemKind :=
  all.find? fun kind => kind.name == name

def severity : ProblemKind → Severity
  | invalidEncoding => .fatal
  | ifWithoutExpression | ifSameKey | elseWithoutIf
  | forWithoutExpression | forMalformed | forTemplateKey
  | bindWithoutExpression | onWithoutExpression | modelWithoutExpression
  | modelMalformed | modelOnAlias | modelOnInvalidElement
  | modelArgumentOnElement | modelOnFileInput | memoWithoutExpression
  | slotUnsupported => .error
  | _ => .warning

def wording : ProblemKind → String
  | abruptClosingOfEmptyComment => "Illegal comment."
  | cdataInHtmlContent => "CDATA section is allowed only in XML context."
  | duplicateAttribute => "Duplicate attribute."
  | endTagWithAttributes => "End tag cannot have attributes."
  | endTagWithTrailingSolidus => "Illegal \"/\" in tags."
  | eofBeforeTagName => "Unexpected EOF in tag."
  | eofInComment => "Unexpected EOF in comment."
  | eofInTag => "Unexpected EOF in tag."
  | incorrectlyClosedComment => "Incorrectly closed comment."
  | incorrectlyOpenedComment => "Incorrectly opened comment."
  | invalidFirstCharacterOfTagName => "Illegal tag name. Use '&lt;' to print '<'."
  | missingAttributeValue => "Attribute value was expected."
  | missingEndTagName => "End tag name was expected."
  | missingWhitespaceBetweenAttributes => "Whitespace was expected."
  | nestedComment => "Unexpected '<!--' in comment."
  | unexpectedEqualsSignBeforeAttributeName => "Attribute name was expected before '='."
  | unexpectedCharacterInAttributeName =>
    "Attribute name cannot contain U+0022 (\"), U+0027 ('), and U+003C (<)."
  | unexpectedCharacterInUnquotedAttributeValue =>
    "Unquoted attribute value cannot contain U+0022 (\"), U+0027 ('), U+003C (<), U+003D (=), and U+0060 (`)."
  | unexpectedNullCharacter => "Unexpected null character."
  | unexpectedQuestionMarkInsteadOfTagName => "'<?' is allowed only in XML context."
  | unexpectedSolidusInTag => "Illegal '/' in tags."
  | invalidEndTag => "Invalid end tag."
  | missingEndTag => "Element is missing end tag."
  | missingInterpolationEnd => "Interpolation end sign was not found."
  | missingDynamicDirectiveArgumentEnd =>
    "End bracket for dynamic directive argument was not found. Note that dynamic directive argument cannot contain spaces."
  | unexpectedContentAfterDynamicDirective =>
    "Unexpected content was found after a closed dynamic argument. Add a dot as separator if it is a modifier."
  | missingDirectiveName => "Legal directive name was expected."
  | missingDirectiveArg => "Directive argument was expected."
  | missingDirectiveMod => "Directive modifier was expected."
  | ifWithoutExpression => "v-if/v-else-if is missing expression."
  | ifSameKey => "v-if/else branches must use unique keys."
  | elseWithoutIf => "v-else/v-else-if has no adjacent v-if."
  | forWithoutExpression => "v-for is missing expression."
  | forMalformed => "v-for has invalid expression."
  | forTemplateKey => "<template v-for> key should be placed on the <template> tag."
  | bindWithoutExpression => "v-bind is missing expression."
  | onWithoutExpression => "v-on is missing expression."
  | modelWithoutExpression => "v-model is missing expression."
  | modelMalformed => "v-model value must be a valid JavaScript member expression."
  | modelOnAlias =>
    "v-model cannot be used on v-for scope variables because they are not writable."
  | modelOnInvalidElement =>
    "v-model can only be used on <input>, <textarea>, <select> and components."
  | modelArgumentOnElement => "v-model argument is not supported on plain elements."
  | modelOnFileInput =>
    "v-model cannot be used on file inputs since they are read-only. Use a v-on:change listener instead."
  | memoWithoutExpression => "v-memo is missing expression."
  | slotUnsupported => "v-slot is not supported by this compiler."
  | invalidExpression => "Error parsing JavaScript expression: "
  | invalidEncoding => "Template source is not valid UTF-8."

end ProblemKind

structure Problem where
  kind : ProblemKind
  detail : Option String := none
  span : Span := {}
deriving DecidableEq, Inhabited, Repr

namespace Problem

def severity (problem : Problem) : Severity :=
  problem.kind.severity

def message (problem : Problem) : String :=
  problem.kind.wording ++ problem.detail.getD ""

end Problem

/-- Where a stage cannot go on at all. -/
inductive Fault where
  /-- A slice begins or ends inside of a character. -/
  | splitCharacter
  /-- A conditional begins at a later branch of another one, which has no siblings to count. -/
  | branchWithoutSiblings
  /-- A slice or an index is out of range. -/
  | sliceOutOfRange
  | assertionFailed
deriving DecidableEq, Inhabited, Repr

end TemplateCompiler
