import TemplateCompiler.Markup.Tag

/-! The helpers of the runtime that generated code imports. The order of declaration is the order of
import. -/

namespace TemplateCompiler

inductive Helper where
  | fragment
  | teleport
  | suspense
  | keepAlive
  | baseTransition
  | openBlock
  | createBlock
  | createElementBlock
  | createVNode
  | createElementVNode
  | createComment
  | createText
  | resolveComponent
  | resolveDynamicComponent
  | resolveDirective
  | withDirectives
  | renderList
  | toDisplayString
  | mergeProps
  | toHandlers
  | camelize
  | toHandlerKey
  | setBlockTracking
  | withCtx
  | withMemo
  | isMemoSame
  | looseEqual
  | looseToNumber
  | withModifiers
  | withKeys
deriving DecidableEq, Inhabited, Repr

namespace Helper

def all : List Helper :=
  [.fragment, .teleport, .suspense, .keepAlive, .baseTransition, .openBlock, .createBlock,
   .createElementBlock, .createVNode, .createElementVNode, .createComment, .createText,
   .resolveComponent, .resolveDynamicComponent, .resolveDirective, .withDirectives, .renderList,
   .toDisplayString, .mergeProps, .toHandlers, .camelize, .toHandlerKey, .setBlockTracking,
   .withCtx, .withMemo, .isMemoSame, .looseEqual, .looseToNumber, .withModifiers, .withKeys]

def index (helper : Helper) : Nat :=
  helper.ctorIdx

def name : Helper → String
  | fragment => "Fragment"
  | teleport => "Teleport"
  | suspense => "Suspense"
  | keepAlive => "KeepAlive"
  | baseTransition => "BaseTransition"
  | openBlock => "OpenBlock"
  | createBlock => "CreateBlock"
  | createElementBlock => "CreateElementBlock"
  | createVNode => "CreateVNode"
  | createElementVNode => "CreateElementVNode"
  | createComment => "CreateComment"
  | createText => "CreateText"
  | resolveComponent => "ResolveComponent"
  | resolveDynamicComponent => "ResolveDynamicComponent"
  | resolveDirective => "ResolveDirective"
  | withDirectives => "WithDirectives"
  | renderList => "RenderList"
  | toDisplayString => "ToDisplayString"
  | mergeProps => "MergeProps"
  | toHandlers => "ToHandlers"
  | camelize => "Camelize"
  | toHandlerKey => "ToHandlerKey"
  | setBlockTracking => "SetBlockTracking"
  | withCtx => "WithCtx"
  | withMemo => "WithMemo"
  | isMemoSame => "IsMemoSame"
  | looseEqual => "LooseEqual"
  | looseToNumber => "LooseToNumber"
  | withModifiers => "WithModifiers"
  | withKeys => "WithKeys"

def ofName? (name : String) : Option Helper :=
  all.find? fun helper => helper.name == name

def runtimeName : Helper → String
  | fragment => "Fragment"
  | teleport => "Teleport"
  | suspense => "Suspense"
  | keepAlive => "KeepAlive"
  | baseTransition => "BaseTransition"
  | openBlock => "openBlock"
  | createBlock => "createBlock"
  | createElementBlock => "createElementBlock"
  | createVNode => "createVNode"
  | createElementVNode => "createElementVNode"
  | createComment => "createCommentVNode"
  | createText => "createTextVNode"
  | resolveComponent => "resolveComponent"
  | resolveDynamicComponent => "resolveDynamicComponent"
  | resolveDirective => "resolveDirective"
  | withDirectives => "withDirectives"
  | renderList => "renderList"
  | toDisplayString => "toDisplayString"
  | mergeProps => "mergeProps"
  | toHandlers => "toHandlers"
  | camelize => "camelize"
  | toHandlerKey => "toHandlerKey"
  | setBlockTracking => "setBlockTracking"
  | withCtx => "withCtx"
  | withMemo => "withMemo"
  | isMemoSame => "isMemoSame"
  | looseEqual => "looseEqual"
  | looseToNumber => "looseToNumber"
  | withModifiers => "withModifiers"
  | withKeys => "withKeys"

def ofCore : Tag.CoreComponent → Helper
  | .teleport => teleport
  | .suspense => suspense
  | .keepAlive => keepAlive
  | .baseTransition => baseTransition

end Helper

/-- A set of helpers, one bit for each. -/
structure HelperSet where
  mask : BitVec 64 := 0
deriving DecidableEq, Inhabited, Repr

namespace HelperSet

def empty : HelperSet := {}

def isEmpty (set : HelperSet) : Bool :=
  set.mask == 0

def insert (set : HelperSet) (helper : Helper) : HelperSet :=
  ⟨set.mask ||| BitVec.twoPow 64 helper.index⟩

def contains (set : HelperSet) (helper : Helper) : Bool :=
  set.mask.getLsbD helper.index

def union (first second : HelperSet) : HelperSet :=
  ⟨first.mask ||| second.mask⟩

def difference (first second : HelperSet) : HelperSet :=
  ⟨first.mask &&& ~~~second.mask⟩

def toList (set : HelperSet) : List Helper :=
  Helper.all.filter set.contains

def size (set : HelperSet) : Nat :=
  set.toList.length

def ofList (helpers : List Helper) : HelperSet :=
  helpers.foldl insert empty

end HelperSet

end TemplateCompiler
