import Mathlib.Logic.Relation
import TemplateCompiler.Proofs.NodeNumbering

/-! What a builder does with a token, as a chain of small steps. Whatever holds of a builder and is
kept by each step holds of every tree that is built, so an invariant has to look at one small step
only. At most one node is made for a token, in the last step. -/

namespace TemplateCompiler

def PendingTag.element (option : ParseOption) (tag : PendingTag) : Element :=
  { tag := tag.name
    kind := Builder.elementKind option tag.name (Builder.readProperties [] tag.attributes.reverse).1
    properties := (Builder.readProperties [] tag.attributes.reverse).1 }

/-- What may be left of a text: white space was condensed in it, or a first line break cut off. -/
def Phrase.Remains (text kept : Phrase) : Prop :=
  kept.edits = text.edits ∨ kept.edits = text.squeezed.edits ∨ kept = { raw := " " }

namespace Node

def Every (property : NodeId → Content → Span → Prop) (nodes : List Node) : Prop :=
  ∀ node ∈ flattenAll nodes, property node.id node.content node.span

variable {property : NodeId → Content → Span → Prop} {first second nodes : List Node}

theorem every_nil : Every property [] :=
  fun _ member => nomatch member

theorem every_append :
    Every property (first ++ second) ↔ Every property first ∧ Every property second := by
  simp only [Every, flattenAll_append, List.forall_mem_append]

theorem every_cons {node : Node} {rest : List Node} :
    Every property (node :: rest) ↔
      (property node.id node.content node.span ∧ Every property node.children) ∧
        Every property rest := by
  simp only [Every, flattenAll, flatten_eq, List.cons_append, List.forall_mem_cons,
    List.forall_mem_append, and_assoc]

theorem Every.reverse (every : Every property nodes) : Every property nodes.reverse := by
  induction nodes with
  | nil => exact every_nil
  | cons node rest ih =>
    obtain ⟨own, others⟩ := every_cons.mp every
    rw [List.reverse_cons, every_append]
    exact ⟨ih others, every_cons.mpr ⟨own, every_nil⟩⟩

/-- The property does not mind what becomes of white space. -/
def Tolerates (property : NodeId → Content → Span → Prop) : Prop :=
  ∀ id text kept span, Phrase.Remains text kept → property id (.text text) span →
    property id (.text kept) span

theorem Every.condense (every : Every property nodes) (tolerates : Tolerates property)
    (previous : Option Node) : Every property (Template.condense previous nodes).1 ∧
      Every property (Template.condense previous nodes).2 := by
  induction nodes generalizing previous with
  | nil => exact ⟨every_nil, every_nil⟩
  | cons node rest ih =>
    obtain ⟨⟨own, below⟩, others⟩ := every_cons.mp every
    obtain ⟨kept, gone⟩ := ih others (some node)
    obtain ⟨id, content, span, children⟩ := node
    simp only [Template.condense]
    cases content with
    | text text =>
      simp only
      split
      · exact ⟨every_cons.mpr ⟨⟨tolerates _ _ _ _ (.inr (.inl rfl)) own, below⟩, kept⟩, gone⟩
      · split
        · exact ⟨kept, every_cons.mpr ⟨⟨own, below⟩, gone⟩⟩
        · exact ⟨every_cons.mpr ⟨⟨tolerates _ _ _ _ (.inr (.inr rfl)) own, below⟩, kept⟩, gone⟩
    | _ => exact ⟨every_cons.mpr ⟨⟨own, below⟩, kept⟩, gone⟩

theorem Every.trimFirstBreak (every : Every property nodes) (tolerates : Tolerates property) :
    Every property (Template.trimFirstBreak nodes) := by
  cases nodes with
  | nil => exact every_nil
  | cons node rest =>
    obtain ⟨⟨own, below⟩, others⟩ := every_cons.mp every
    obtain ⟨id, content, span, children⟩ := node
    cases content with
    | text text => exact every_cons.mpr ⟨⟨tolerates _ text _ _ (.inl rfl) own, below⟩, others⟩
    | _ => exact every_cons.mpr ⟨⟨own, below⟩, others⟩

end Node

namespace Builder

variable {option : ParseOption} {builder before after : Builder} {token : Token}

inductive Closing (option : ParseOption) (stop : Position) : Builder → Builder → Prop
  | unclosed {builder : Builder} : Closing option stop builder builder.reportUnclosed
  | close {builder : Builder} : Closing option stop builder (builder.close option stop)

/-- One step in handling a token, short of making a node for it. -/
inductive Step (option : ParseOption) (token : Token) : Builder → Builder → Prop
  | read {builder : Builder} : Step option token builder { builder with stop := token.span.stop }
  | closing {before after : Builder} {stop : Position}
      (place : stop = token.span.start ∨ stop = token.span.stop)
      (closes : Closing option stop before after) : Step option token before after
  | begin {builder : Builder} {name : String} (kind : token.kind = .tagOpen name) :
      Step option token builder { builder with pending := some { name, start := token.span.start } }
  | name {builder : Builder} {tag : PendingTag} {name : String} (kind : token.kind = .attrName name)
      (pending : builder.pending = some tag) :
      Step option token builder { builder with
        pending := some { tag with
          attributes := { name, value := none, nameSpan := token.span, span := token.span } ::
            tag.attributes } }
  | value {builder : Builder} {content : Phrase} (kind : token.kind = .attrValue content) :
      Step option token builder (builder.updateAttribute fun last =>
        { last with
            value := some ⟨content, token.span⟩
            span := ⟨last.span.start, token.span.stop⟩ })
  | stray {builder : Builder} {name : String} (kind : token.kind = .tagClose name) :
      Step option token builder (builder.report [{ kind := .invalidEndTag, span := token.span }])

inductive LeafOf (option : ParseOption) : TokenKind → Content → Prop
  | text {text : Phrase} : LeafOf option (.text text) (.text text)
  | interpolation {source : String} : LeafOf option (.interpolation source) (.interpolation source)
  | comment {source : String} (kept : option.preserveComments = true) :
      LeafOf option (.comment source) (.comment source)

/-- The builder behind a start tag, before its element is put in place. -/
def withoutTag (builder : Builder) (tag : PendingTag) : Builder :=
  { builder with pending := none }.report (readProperties [] tag.attributes.reverse).2

/-- The step that makes a node for a token. -/
inductive Make (option : ParseOption) (token : Token) : Builder → Builder → Prop
  | leaf {builder : Builder} {content : Content} (own : LeafOf option token.kind content) :
      Make option token builder (builder.leaf content token.span)
  | empty {builder : Builder} {tag : PendingTag} {selfClosing : Bool}
      (kind : token.kind = .tagEnd selfClosing) (pending : builder.pending = some tag) :
      Make option token builder
        ((builder.withoutTag tag).leaf (.element (tag.element option))
          ⟨tag.start, token.span.stop⟩)
  | opened {builder : Builder} {tag : PendingTag} {selfClosing : Bool}
      (kind : token.kind = .tagEnd selfClosing) (pending : builder.pending = some tag) :
      Make option token builder { builder.withoutTag tag with
        next := builder.next + 1
        preDepth :=
          if option.isPreformatted tag.name then builder.preDepth + 1 else builder.preDepth
        stack :=
          { id := builder.next
            element := tag.element option
            span := ⟨tag.start, token.span.stop⟩ } :: builder.stack }

abbrev Steps (option : ParseOption) (token : Token) : Builder → Builder → Prop :=
  Relation.ReflTransGen (Step option token)

/-- Whether a node is made for the token, with a start tag pending or not. -/
def makes (option : ParseOption) (pending : Bool) : TokenKind → Bool
  | .tagEnd _ => pending
  | .text _ | .interpolation _ => true
  | .comment _ => option.preserveComments
  | _ => false

theorem closeUnclosed_closing (stop : Position) (count : Nat) :
    Relation.ReflTransGen (Closing option stop) builder
      (builder.closeUnclosed option stop count) := by
  induction count generalizing builder with
  | zero => exact .refl
  | succ count ih => exact .head .unclosed (.head .close ih)

/-- What holds and is kept in closing elements holds once they are closed. -/
theorem closeUnclosed_keeps {holds : Builder → Prop} {stop : Position} (start : holds builder)
    (keeps : ∀ {before after}, Closing option stop before after → holds before → holds after)
    (count : Nat) : holds (builder.closeUnclosed option stop count) := by
  induction count generalizing builder with
  | zero => exact start
  | succ count ih => exact ih (keeps .close (keeps .unclosed start))

theorem stack_closeAll (option : ParseOption) (builder : Builder) (stop : Position) :
    (builder.closeUnclosed option stop builder.stack.length).stack = [] := by
  have empty := stack_closeUnclosed option builder stop builder.stack.length
  rwa [Nat.sub_self, List.length_eq_zero_iff] at empty

theorem closeImplied_closing (name : String) (stop : Position) (count : Nat) :
    Relation.ReflTransGen (Closing option stop) builder
      (builder.closeImplied option name stop count) := by
  induction count generalizing builder with
  | zero => exact .refl
  | succ count ih =>
    simp only [closeImplied]
    split
    · exact .refl
    · split
      · exact .head .close ih
      · exact .refl

theorem steps_of_closing {stop : Position} (place : stop = token.span.start ∨ stop = token.span.stop)
    (closes : Relation.ReflTransGen (Closing option stop) before after) :
    Steps option token before after :=
  Relation.ReflTransGen.mono (fun _ _ closing => .closing place closing) _ _ closes

theorem closeTag_steps {name : String} (kind : token.kind = .tagClose name) :
    Steps option token builder (builder.closeTag option name token.span) := by
  simp only [closeTag]
  split
  · exact .single (.stray kind)
  · exact (steps_of_closing (.inl rfl) (closeUnclosed_closing _ _)).tail (.closing (.inr rfl) .close)

theorem finishStartTag_make {tag : PendingTag} {selfClosing : Bool}
    (kind : token.kind = .tagEnd selfClosing) (pending : builder.pending = some tag) :
    Make option token builder (builder.finishStartTag option selfClosing token.span) := by
  simp only [finishStartTag, pending]
  split
  · exact .empty kind pending
  · exact .opened kind pending

theorem handle_cases (option : ParseOption) (builder : Builder) (token : Token) :
    ∃ middle, Steps option token builder middle ∧
      (makes option builder.pending.isSome token.kind = true ∧
          Make option token middle (builder.handle option token) ∨
        makes option builder.pending.isSome token.kind = false ∧
          builder.handle option token = middle) := by
  obtain ⟨kind, span⟩ := token
  have read : Steps option ⟨kind, span⟩ builder { builder with stop := span.stop } := .single .read
  cases kind with
  | tagOpen name =>
    have closed := read.trans
      (steps_of_closing (.inl rfl) (closeImplied_closing name span.start builder.stack.length))
    exact ⟨_, closed.tail (.begin rfl), .inr ⟨rfl, rfl⟩⟩
  | attrName name =>
    cases pending : builder.pending with
    | none => exact ⟨_, read, .inr ⟨rfl, by simp only [handle, pending]⟩⟩
    | some tag => exact ⟨_, read.tail (.name rfl pending), .inr ⟨rfl, by simp only [handle, pending]⟩⟩
  | attrValue content => exact ⟨_, read.tail (.value rfl), .inr ⟨rfl, rfl⟩⟩
  | tagEnd selfClosing =>
    cases pending : builder.pending with
    | none => exact ⟨_, read, .inr ⟨rfl, by simp only [handle, finishStartTag, pending]⟩⟩
    | some tag => exact ⟨_, read, .inl ⟨rfl, finishStartTag_make rfl pending⟩⟩
  | tagClose name => exact ⟨_, read.trans (closeTag_steps rfl), .inr ⟨rfl, rfl⟩⟩
  | text text => exact ⟨_, read, .inl ⟨rfl, .leaf .text⟩⟩
  | interpolation source => exact ⟨_, read, .inl ⟨rfl, .leaf .interpolation⟩⟩
  | comment source =>
    simp only [makes, handle]
    cases kept : option.preserveComments with
    | true => exact ⟨_, read, .inl ⟨rfl, .leaf (.comment kept)⟩⟩
    | false => exact ⟨_, read, .inr ⟨rfl, rfl⟩⟩

/-- The trees of two builders are the same. -/
structure SameTree (before after : Builder) : Prop where
  roots : after.roots = before.roots
  stack : after.stack = before.stack
  dropped : after.dropped = before.dropped
  next : after.next = before.next
  preDepth : after.preDepth = before.preDepth

theorem sameTree_reportUnclosed (builder : Builder) : SameTree builder builder.reportUnclosed := by
  simp only [reportUnclosed]
  split
  · exact ⟨rfl, rfl, rfl, rfl, rfl⟩
  · split <;> exact ⟨rfl, rfl, rfl, rfl, rfl⟩

theorem sameTree_updateAttribute (builder : Builder) (change : Attribute → Attribute) :
    SameTree builder (builder.updateAttribute change) := by
  simp only [updateAttribute]
  split <;> exact ⟨rfl, rfl, rfl, rfl, rfl⟩

/-- A step that closes no element leaves the tree alone. -/
theorem Step.tree_cases (step : Step option token before after) :
    SameTree before after ∨ ∃ stop, (stop = token.span.start ∨ stop = token.span.stop) ∧
      after = before.close option stop := by
  cases step with
  | read | begin | name | stray => exact .inl ⟨rfl, rfl, rfl, rfl, rfl⟩
  | value => exact .inl (sameTree_updateAttribute before _)
  | closing place closes =>
    cases closes with
    | unclosed => exact .inl (sameTree_reportUnclosed before)
    | close => exact .inr ⟨_, place, rfl⟩

@[simp]
theorem next_append (builder : Builder) (node : Node) : (builder.append node).next = builder.next := by
  simp only [append]
  split <;> rfl

@[simp]
theorem dropped_append (builder : Builder) (node : Node) :
    (builder.append node).dropped = builder.dropped := by
  simp only [append]
  split <;> rfl

@[simp]
theorem pending_append (builder : Builder) (node : Node) :
    (builder.append node).pending = builder.pending := by
  simp only [append]
  split <;> rfl

@[simp]
theorem pending_leaf (builder : Builder) (content : Content) (span : Span) :
    (builder.leaf content span).pending = builder.pending := by
  simp [leaf]

theorem next_close (builder : Builder) (stop : Position) :
    (builder.close option stop).next = builder.next := by
  simp only [close]
  split
  · rfl
  · simp

def pends (pending : Bool) : TokenKind → Bool
  | .tagOpen _ => true
  | .tagEnd _ => false
  | _ => pending

theorem pending_close (stop : Position) : (builder.close option stop).pending = builder.pending := by
  simp only [close]
  split
  · rfl
  · simp

theorem Step.pending_eq (step : Step option token before after) :
    after.pending.isSome = before.pending.isSome ∨ ∃ name, token.kind = .tagOpen name := by
  cases step with
  | read | stray => exact .inl rfl
  | begin kind => exact .inr ⟨_, kind⟩
  | name _ pending => exact .inl (by rw [pending]; rfl)
  | value =>
    simp only [updateAttribute]
    split
    · next pending => exact .inl (by rw [pending]; rfl)
    · exact .inl rfl
  | closing _ closes =>
    cases closes with
    | unclosed =>
      simp only [reportUnclosed]
      split
      · exact .inl rfl
      · split <;> exact .inl rfl
    | close => exact .inl (by rw [pending_close])

theorem Make.pending_eq (make : Make option token before after) :
    after.pending.isSome = pends before.pending.isSome token.kind := by
  cases make with
  | leaf own =>
    rw [pending_leaf]
    generalize token.kind = kind at own ⊢
    cases own <;> rfl
  | empty kind pending =>
    rw [pending_leaf, kind]
    rfl
  | opened kind pending =>
    rw [kind]
    rfl

theorem Steps.pending_eq (steps : Steps option token before after)
    (other : ∀ name, token.kind ≠ .tagOpen name) :
    after.pending.isSome = before.pending.isSome := by
  induction steps with
  | refl => rfl
  | tail _ step ih =>
    rcases step.pending_eq with same | ⟨name, kind⟩
    · exact same.trans ih
    · exact absurd kind (other name)

theorem pending_handle (option : ParseOption) (builder : Builder) (token : Token) :
    (builder.handle option token).pending.isSome = pends builder.pending.isSome token.kind := by
  by_cases opens : ∃ name, token.kind = .tagOpen name
  · obtain ⟨name, kind⟩ := opens
    simp only [handle, kind, pends, Option.isSome_some]
  · have other (name : String) : token.kind ≠ .tagOpen name := fun kind => opens ⟨name, kind⟩
    obtain ⟨middle, steps, ⟨-, make⟩ | ⟨idle, same⟩⟩ := handle_cases option builder token
    · rw [make.pending_eq, Steps.pending_eq steps other]
    · rw [same, Steps.pending_eq steps other]
      generalize token.kind = kind at idle opens
      cases kind with
      | tagOpen name => exact absurd ⟨name, rfl⟩ opens
      | tagEnd => exact idle
      | _ => rfl

/-- What becomes of the children when the element in front of the stack `rest` is closed. -/
def settleOpen (option : ParseOption) (builder : Builder) (top : OpenElement) :
    List Node × List Node :=
  if option.isPreformatted top.element.tag then
    (Template.trimFirstBreak top.children.reverse, [])
  else if builder.preDepth = 0 then settle option top.children.reverse
  else (top.children.reverse, [])

def OpenElement.closed (top : OpenElement) (stop : Position) (children : List Node) : Node :=
  { id := top.id
    content := .element top.element
    span := ⟨top.span.start, stop⟩
    children }

theorem close_nil {stop : Position} (empty : builder.stack = []) :
    builder.close option stop = builder := by
  simp only [close, empty]

theorem close_cons {stop : Position} {top : OpenElement} {rest : List OpenElement}
    (stack : builder.stack = top :: rest) :
    builder.close option stop =
      { builder with
          stack := rest
          dropped := builder.dropped ++ (settleOpen option builder top).2
          preDepth :=
            if option.isPreformatted top.element.tag then builder.preDepth - 1
            else builder.preDepth }.append
        (OpenElement.closed top stop (settleOpen option builder top).1) := by
  simp only [close, stack]
  rfl

variable {property : NodeId → Content → Span → Prop} {unfinished : NodeId → Element → Span → Prop}

structure Holds (property : NodeId → Content → Span → Prop)
    (unfinished : NodeId → Element → Span → Prop) (builder : Builder) : Prop where
  roots : Node.Every property builder.roots
  dropped : Node.Every property builder.dropped
  stack : ∀ opened ∈ builder.stack, unfinished opened.id opened.element opened.span ∧
    Node.Every property opened.children

namespace Holds

theorem mono {stronger : NodeId → Content → Span → Prop} {further : NodeId → Element → Span → Prop}
    (holds : builder.Holds stronger further)
    (nodes : ∀ id content span, stronger id content span → property id content span)
    (opened : ∀ id element span, further id element span → unfinished id element span) :
    builder.Holds property unfinished := by
  obtain ⟨roots, dropped, stack⟩ := holds
  refine ⟨fun node member => nodes _ _ _ (roots node member),
    fun node member => nodes _ _ _ (dropped node member), fun top member => ?_⟩
  exact ⟨opened _ _ _ (stack top member).1,
    fun node inside => nodes _ _ _ ((stack top member).2 node inside)⟩

theorem transfer (holds : before.Holds property unfinished) (same : SameTree before after) :
    after.Holds property unfinished := by
  constructor
  · rw [same.roots]
    exact holds.roots
  · rw [same.dropped]
    exact holds.dropped
  · rw [same.stack]
    exact holds.stack

theorem append {node : Node} (holds : builder.Holds property unfinished)
    (own : Node.Every property [node]) : (builder.append node).Holds property unfinished := by
  obtain ⟨roots, dropped, stack⟩ := holds
  simp only [Builder.append]
  split
  · exact ⟨Node.every_append.mpr ⟨own, roots⟩, dropped, stack⟩
  · next top rest same =>
    rw [same] at stack
    obtain ⟨⟨first, inner⟩, others⟩ := List.forall_mem_cons.mp stack
    refine ⟨roots, dropped, List.forall_mem_cons.mpr ⟨⟨first, ?_⟩, others⟩⟩
    exact Node.every_append.mpr ⟨own, inner⟩

theorem leaf (holds : builder.Holds property unfinished) {content : Content} {span : Span}
    (own : property builder.next content span) :
    (builder.leaf content span).Holds property unfinished := by
  refine append ⟨holds.roots, holds.dropped, holds.stack⟩ ?_
  exact Node.every_cons.mpr ⟨⟨own, Node.every_nil⟩, Node.every_nil⟩

theorem settleOpen {top : OpenElement} (every : Node.Every property top.children)
    (tolerates : Node.Tolerates property) :
    Node.Every property (settleOpen option builder top).1 ∧
      Node.Every property (settleOpen option builder top).2 := by
  unfold Builder.settleOpen
  split
  · exact ⟨every.reverse.trimFirstBreak tolerates, Node.every_nil⟩
  · split
    · unfold settle
      split
      · exact ⟨every.reverse, Node.every_nil⟩
      · exact every.reverse.condense tolerates none
    · exact ⟨every.reverse, Node.every_nil⟩

theorem close (holds : builder.Holds property unfinished) (tolerates : Node.Tolerates property)
    {stop : Position} (finishes : ∀ id element span, unfinished id element span →
      property id (.element element) ⟨span.start, stop⟩) :
    (builder.close option stop).Holds property unfinished := by
  cases stack : builder.stack with
  | nil => rwa [close_nil stack]
  | cons top rest =>
    obtain ⟨roots, dropped, opened⟩ := holds
    rw [stack] at opened
    obtain ⟨⟨first, inner⟩, others⟩ := List.forall_mem_cons.mp opened
    obtain ⟨kept, gone⟩ := @settleOpen option builder property top inner tolerates
    rw [close_cons stack]
    refine append ⟨roots, Node.every_append.mpr ⟨dropped, gone⟩, others⟩ ?_
    exact Node.every_cons.mpr ⟨⟨finishes _ _ _ first, kept⟩, Node.every_nil⟩

theorem closing (holds : before.Holds property unfinished) (tolerates : Node.Tolerates property)
    {stop : Position} (finishes : ∀ id element span, unfinished id element span →
      property id (.element element) ⟨span.start, stop⟩)
    (closes : Closing option stop before after) : after.Holds property unfinished := by
  cases closes with
  | unclosed => exact holds.transfer (sameTree_reportUnclosed before)
  | close => exact holds.close tolerates finishes

theorem step (holds : before.Holds property unfinished) (tolerates : Node.Tolerates property)
    (finishes : ∀ stop, stop = token.span.start ∨ stop = token.span.stop →
      ∀ id element span, unfinished id element span →
        property id (.element element) ⟨span.start, stop⟩)
    (step : Step option token before after) : after.Holds property unfinished := by
  rcases step.tree_cases with same | ⟨stop, place, rfl⟩
  · exact holds.transfer same
  · exact holds.close tolerates (finishes stop place)

theorem make (holds : before.Holds property unfinished)
    (leaves : ∀ content, LeafOf option token.kind content →
      property before.next content token.span)
    (elements : ∀ tag selfClosing, token.kind = .tagEnd selfClosing → before.pending = some tag →
      property before.next (.element (tag.element option)) ⟨tag.start, token.span.stop⟩ ∧
        unfinished before.next (tag.element option) ⟨tag.start, token.span.stop⟩)
    (make : Make option token before after) : after.Holds property unfinished := by
  obtain ⟨roots, dropped, stack⟩ := holds
  cases make with
  | leaf own => exact leaf ⟨roots, dropped, stack⟩ (leaves _ own)
  | @empty tag _ kind pending =>
    have bare : (before.withoutTag tag).Holds property unfinished := ⟨roots, dropped, stack⟩
    exact bare.leaf (elements tag _ kind pending).1
  | opened kind pending =>
    refine ⟨roots, dropped, List.forall_mem_cons.mpr ⟨⟨(elements _ _ kind pending).2, ?_⟩, stack⟩⟩
    exact Node.every_nil

/-- What holds of the nodes of a builder holds of those of the template, the ones that left the
tree included. -/
theorem finish (holds : builder.Holds property unfinished) (tolerates : Node.Tolerates property)
    (finishes : ∀ id element span, unfinished id element span →
      property id (.element element) ⟨span.start, builder.stop⟩) :
    Node.Every property (builder.finish option).1.roots ∧
      Node.Every property (builder.finish option).1.dropped := by
  have closed : (builder.closeUnclosed option builder.stop builder.stack.length).Holds property
      unfinished :=
    closeUnclosed_keeps holds (fun closes held => held.closing tolerates finishes closes) _
  obtain ⟨roots, dropped, -⟩ := closed
  simp only [Builder.finish, settle, Node.every_append]
  split
  · exact ⟨roots.reverse, dropped, Node.every_nil⟩
  · obtain ⟨kept, gone⟩ := roots.reverse.condense tolerates none
    exact ⟨kept, dropped, gone⟩

end Holds

end Builder

end TemplateCompiler
