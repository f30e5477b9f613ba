import TemplateCompiler.Proofs.BuilderSteps

/-! Condensing white space while a tree is built comes to the same as building the tree with all its
white space and condensing it afterwards, from the leaves to the root. The two builders go side by
side: at every moment one is the condensed form of the other. -/

namespace TemplateCompiler

namespace Node

variable (isPre : String → Bool)

mutual

/-- The node with the white space below it condensed. Preformatted text is left alone. -/
def condensed : Node → Node
  | ⟨id, .element element, span, children⟩ =>
    { id
      content := .element element
      span
      children :=
        if isPre element.tag then children
        else (Template.condense none (condensedAll children)).1 }
  | ⟨id, content, span, children⟩ => ⟨id, content, span, children⟩

def condensedAll : List Node → List Node
  | [] => []
  | node :: rest => condensed node :: condensedAll rest

end

mutual

def removed : Node → List Node
  | ⟨_, .element element, _, children⟩ =>
    if isPre element.tag then []
    else removedAll children ++ (Template.condense none (condensedAll isPre children)).2
  | _ => []

def removedAll : List Node → List Node
  | [] => []
  | node :: rest => removed node ++ removedAll rest

end

variable {isPre}

theorem condensedAll_append (first second : List Node) :
    condensedAll isPre (first ++ second) = condensedAll isPre first ++ condensedAll isPre second := by
  induction first with
  | nil => rfl
  | cons node rest ih => simp [condensedAll, ih]

theorem condensedAll_reverse (nodes : List Node) :
    condensedAll isPre nodes.reverse = (condensedAll isPre nodes).reverse := by
  induction nodes with
  | nil => rfl
  | cons node rest ih => simp [condensedAll, condensedAll_append, ih]

theorem removedAll_append (first second : List Node) :
    removedAll isPre (first ++ second) = removedAll isPre first ++ removedAll isPre second := by
  induction first with
  | nil => rfl
  | cons node rest ih => simp [removedAll, ih]

theorem condensed_leaf (id : NodeId) (content : Content) (span : Span) :
    condensed isPre { id, content, span } = { id, content, span } := by
  cases content <;> simp [condensed, condensedAll, Template.condense]

theorem removed_leaf (id : NodeId) (content : Content) (span : Span) :
    removed isPre { id, content, span } = [] := by
  cases content <;> simp [removed, removedAll, condensedAll, Template.condense]

end Node

/-- The options, with white space kept as it is. -/
def ParseOption.preserving (option : ParseOption) : ParseOption :=
  { option with whitespace := .preserve }

/-- The options, with white space condensed. -/
def ParseOption.condensing (option : ParseOption) : ParseOption :=
  { option with whitespace := .condense }

/-- The template with all its white space condensed. -/
def Template.condensed (isPre : String → Bool) (template : Template) : Template :=
  { template with
      roots := (condense none (Node.condensedAll isPre template.roots)).1
      dropped := Node.removedAll isPre template.roots ++
        (condense none (Node.condensedAll isPre template.roots)).2 }

namespace Builder

def inPre (isPre : String → Bool) (stack : List OpenElement) : Bool :=
  stack.any fun opened => isPre opened.element.tag

theorem inPre_cons (isPre : String → Bool) (top : OpenElement) (rest : List OpenElement) :
    inPre isPre (top :: rest) = (isPre top.element.tag || inPre isPre rest) :=
  rfl

def condensedStack (isPre : String → Bool) : List OpenElement → List OpenElement
  | [] => []
  | top :: rest =>
    { top with
        children :=
          if inPre isPre (top :: rest) then top.children else Node.condensedAll isPre top.children } ::
      condensedStack isPre rest

def removedStack (isPre : String → Bool) : List OpenElement → List Node
  | [] => []
  | top :: rest =>
    removedStack isPre rest ++
      if inPre isPre (top :: rest) then [] else Node.removedAll isPre top.children.reverse

/-- The builder with its finished nodes condensed; the lists that still grow are left as they
are. -/
def condensed (isPre : String → Bool) (builder : Builder) : Builder :=
  { builder with
      roots := Node.condensedAll isPre builder.roots
      stack := condensedStack isPre builder.stack
      dropped := Node.removedAll isPre builder.roots.reverse ++ removedStack isPre builder.stack }

variable {option : ParseOption} {isPre : String → Bool} {builder before after : Builder}
  {token : Token}

theorem length_condensedStack (stack : List OpenElement) :
    (condensedStack isPre stack).length = stack.length := by
  induction stack with
  | nil => rfl
  | cons top rest ih => simp [condensedStack, ih]

theorem condensedStack_cons {opened : OpenElement} {rest : List OpenElement}
    (bare : opened.children = []) :
    condensedStack isPre (opened :: rest) = opened :: condensedStack isPre rest := by
  obtain ⟨id, element, span, children⟩ := opened
  cases bare
  simp [condensedStack, Node.condensedAll]

theorem removedStack_cons {opened : OpenElement} {rest : List OpenElement}
    (bare : opened.children = []) :
    removedStack isPre (opened :: rest) = removedStack isPre rest := by
  simp [removedStack, bare, Node.removedAll]

theorem findIdx?_condensedStack (stack : List OpenElement) (p : Element → Bool) :
    (condensedStack isPre stack).findIdx? (fun top => p top.element) =
      stack.findIdx? fun top => p top.element := by
  induction stack with
  | nil => rfl
  | cons top rest ih => simp [condensedStack, List.findIdx?_cons, ih]

/-- A node goes in among preformatted text as it is, and elsewhere in its condensed form. -/
theorem condensed_append (builder : Builder) (node : Node) :
    (builder.append node).condensed isPre =
      { (builder.condensed isPre).append
          (if inPre isPre builder.stack then node else node.condensed isPre) with
        dropped := (builder.condensed isPre).dropped ++
          if inPre isPre builder.stack then [] else node.removed isPre } := by
  cases stack : builder.stack with
  | nil =>
    simp [append, condensed, condensedStack, removedStack, stack, inPre, Node.condensedAll,
      Node.removedAll_append, Node.removedAll]
  | cons top rest =>
    cases pre : inPre isPre (top :: rest) with
    | true =>
      have same (children : List Node) : inPre isPre ({ top with children } :: rest) = true := pre
      simp [append, condensed, condensedStack, removedStack, stack, pre, same]
    | false =>
      have same (children : List Node) : inPre isPre ({ top with children } :: rest) = false := pre
      simp [append, condensed, condensedStack, removedStack, stack, pre, same, Node.condensedAll,
        Node.removedAll_append, Node.removedAll]

theorem condensed_leaf (builder : Builder) (content : Content) (span : Span) :
    (builder.leaf content span).condensed isPre = (builder.condensed isPre).leaf content span := by
  simp only [leaf, condensed_append, Node.condensed_leaf, Node.removed_leaf, ite_self,
    List.append_nil]
  simp only [append, condensed]
  split <;> rfl

/-- The depth is the number of open elements that hold preformatted text. -/
def Deep (isPre : String → Bool) (builder : Builder) : Prop :=
  builder.preDepth = builder.stack.countP fun opened => isPre opened.element.tag

namespace Deep

theorem inPre_iff (deep : builder.Deep isPre) :
    builder.preDepth = 0 ↔ inPre isPre builder.stack = false := by
  rw [show builder.preDepth = _ from deep, List.countP_eq_zero, inPre, List.any_eq_false]

theorem transfer (deep : before.Deep isPre) (same : SameTree before after) :
    after.Deep isPre := by
  rw [Deep, same.preDepth, same.stack]
  exact deep

theorem append (deep : builder.Deep isPre) (node : Node) : (builder.append node).Deep isPre := by
  simp only [Deep, Builder.append] at deep ⊢
  split
  · exact deep
  · next stack =>
    rw [stack] at deep
    exact deep

theorem leaf (deep : builder.Deep isPre) (content : Content) (span : Span) :
    (builder.leaf content span).Deep isPre := by
  have counted : { builder with next := builder.next + 1 }.Deep isPre := deep
  exact counted.append _

theorem close (deep : builder.Deep option.isPreformatted) (stop : Position) :
    (builder.close option stop).Deep option.isPreformatted := by
  cases stack : builder.stack with
  | nil => rwa [close_nil stack]
  | cons top rest =>
    rw [close_cons stack]
    apply append
    simp only [Deep, stack, List.countP_cons] at deep ⊢
    split
    · next pre =>
      rw [if_pos pre] at deep
      omega
    · next plain =>
      rw [if_neg plain] at deep
      exact deep

theorem closing (deep : before.Deep option.isPreformatted) {stop : Position}
    (closes : Closing option stop before after) : after.Deep option.isPreformatted := by
  cases closes with
  | unclosed => exact deep.transfer (sameTree_reportUnclosed before)
  | close => exact deep.close stop

theorem closeUnclosed (deep : builder.Deep option.isPreformatted) (stop : Position) (count : Nat) :
    (builder.closeUnclosed option stop count).Deep option.isPreformatted :=
  closeUnclosed_keeps deep (fun closes deep => deep.closing closes) count

theorem step (deep : before.Deep option.isPreformatted) (step : Step option token before after) :
    after.Deep option.isPreformatted := by
  rcases step.tree_cases with same | ⟨stop, -, rfl⟩
  · exact deep.transfer same
  · exact deep.close stop

theorem make (deep : before.Deep option.isPreformatted) (make : Make option token before after) :
    after.Deep option.isPreformatted := by
  cases make with
  | leaf => exact deep.leaf _ _
  | @empty tag =>
    have bare : (before.withoutTag tag).Deep option.isPreformatted := deep
    exact bare.leaf _ _
  | @opened tag =>
    have tag_eq : (tag.element option).tag = tag.name := rfl
    simp only [Deep, List.countP_cons, tag_eq] at deep ⊢
    split
    · rw [deep]
    · exact deep

theorem handle (deep : builder.Deep option.isPreformatted) (token : Token) :
    (builder.handle option token).Deep option.isPreformatted := by
  obtain ⟨middle, steps, made⟩ := handle_cases option builder token
  have reached : middle.Deep option.isPreformatted := by
    clear made
    induction steps with
    | refl => exact deep
    | tail _ step ih => exact ih.step step
  rcases made with ⟨-, make⟩ | ⟨-, same⟩
  · exact reached.make make
  · rwa [same]

end Deep

theorem append_withDropped (builder : Builder) (node : Node) (dropped : List Node) :
    { builder.append node with dropped } = { builder with dropped }.append node := by
  simp only [append]
  split <;> rfl

/-- Closing an element condenses its children in the one builder and not in the other. -/
theorem close_condensed (deep : builder.Deep option.isPreformatted) (stop : Position) :
    (builder.close option.preserving stop).condensed option.isPreformatted =
      (builder.condensed option.isPreformatted).close option.condensing stop := by
  cases stack : builder.stack with
  | nil =>
    have empty : (builder.condensed option.isPreformatted).stack = [] := by
      simp [condensed, stack, condensedStack]
    rw [close_nil stack, close_nil empty]
  | cons top rest =>
    have same : (builder.condensed option.isPreformatted).stack =
        condensedStack option.isPreformatted (top :: rest) := by
      rw [condensed, stack]
    rw [condensedStack] at same
    rw [close_cons stack, close_cons same, condensed_append, append_withDropped]
    have flat := deep.inPre_iff
    rw [stack, inPre_cons] at flat
    cases pre : option.isPreformatted top.element.tag with
    | true =>
      simp [settleOpen, ParseOption.preserving, ParseOption.condensing, pre, inPre_cons, condensed,
        OpenElement.closed, Node.condensed, Node.removed, stack, removedStack]
    | false =>
      rw [pre, Bool.false_or] at flat
      cases outside : inPre option.isPreformatted rest with
      | true =>
        have deeper : builder.preDepth ≠ 0 := fun zero => by simp [flat.mp zero] at outside
        simp [settleOpen, ParseOption.preserving, ParseOption.condensing, pre, inPre_cons, condensed,
          OpenElement.closed, stack, removedStack, outside, deeper]
      | false =>
        simp [settleOpen, settle, ParseOption.preserving, ParseOption.condensing, pre, inPre_cons,
          condensed, OpenElement.closed, Node.condensed, Node.removed, stack, removedStack, outside,
          flat.mpr outside, Node.condensedAll_reverse]

theorem reportUnclosed_condensed (builder : Builder) :
    builder.reportUnclosed.condensed isPre = (builder.condensed isPre).reportUnclosed := by
  cases stack : builder.stack with
  | nil => simp [reportUnclosed, condensed, stack, condensedStack]
  | cons top rest =>
    simp only [reportUnclosed, condensed, stack, condensedStack]
    split
    · simp only [stack, condensedStack]
    · simp only [report, stack, condensedStack]

theorem closeUnclosed_condensed (deep : builder.Deep option.isPreformatted) (stop : Position)
    (count : Nat) :
    (builder.closeUnclosed option.preserving stop count).condensed option.isPreformatted =
      (builder.condensed option.isPreformatted).closeUnclosed option.condensing stop count := by
  induction count generalizing builder with
  | zero => rfl
  | succ count ih =>
    have reported := deep.transfer (sameTree_reportUnclosed builder)
    have closed : (builder.reportUnclosed.close option.preserving stop).Deep option.isPreformatted :=
      @Deep.close option.preserving _ reported stop
    rw [closeUnclosed, ih closed, close_condensed reported, reportUnclosed_condensed, closeUnclosed]

theorem closeImplied_condensed (deep : builder.Deep option.isPreformatted) (name : String)
    (stop : Position) (count : Nat) :
    (builder.closeImplied option.preserving name stop count).condensed option.isPreformatted =
      (builder.condensed option.isPreformatted).closeImplied option.condensing name stop count := by
  induction count generalizing builder with
  | zero => rfl
  | succ count ih =>
    have closed : (builder.close option.preserving stop).Deep option.isPreformatted :=
      @Deep.close option.preserving _ deep stop
    cases stack : builder.stack with
    | nil => simp only [closeImplied, stack, condensed, condensedStack]
    | cons top rest =>
      have same : (builder.condensed option.isPreformatted).stack =
          condensedStack option.isPreformatted (top :: rest) := by
        rw [condensed, stack]
      rw [condensedStack] at same
      simp only [closeImplied, stack, same]
      split
      · rw [ih closed, close_condensed deep]
      · rfl

theorem closeTag_condensed (deep : builder.Deep option.isPreformatted) (name : String)
    (span : Span) :
    (builder.closeTag option.preserving name span).condensed option.isPreformatted =
      (builder.condensed option.isPreformatted).closeTag option.condensing name span := by
  have found : (builder.condensed option.isPreformatted).stack.findIdx?
      (fun top => Text.sameIgnoringCase top.element.tag name) =
      builder.stack.findIdx? fun top => Text.sameIgnoringCase top.element.tag name :=
    findIdx?_condensedStack builder.stack fun element => Text.sameIgnoringCase element.tag name
  simp only [closeTag, found]
  split
  · rfl
  · next depth _ =>
    have closed : (builder.closeUnclosed option.preserving span.start depth).Deep
        option.isPreformatted := @Deep.closeUnclosed option.preserving _ deep span.start depth
    rw [close_condensed closed, closeUnclosed_condensed deep]

theorem finishStartTag_condensed (builder : Builder) (selfClosing : Bool) (span : Span) :
    (builder.finishStartTag option.preserving selfClosing span).condensed option.isPreformatted =
      (builder.condensed option.isPreformatted).finishStartTag option.condensing selfClosing
        span := by
  have same : (builder.condensed option.isPreformatted).pending = builder.pending := rfl
  have kinds : elementKind option.preserving = elementKind option.condensing := rfl
  have voids : option.preserving.isVoid = option.condensing.isVoid := rfl
  simp only [finishStartTag, same, kinds, voids]
  split
  · rfl
  · split
    · rw [condensed_leaf]
      rfl
    · simp only [report, condensed]
      rw [condensedStack_cons rfl, removedStack_cons rfl]
      rfl

theorem updateAttribute_condensed (builder : Builder) (change : Attribute → Attribute) :
    (builder.updateAttribute change).condensed isPre =
      (builder.condensed isPre).updateAttribute change := by
  have same : (builder.condensed isPre).pending = builder.pending := rfl
  simp only [updateAttribute, same]
  split <;> rfl

theorem handle_condensed (deep : builder.Deep option.isPreformatted) (token : Token) :
    (builder.handle option.preserving token).condensed option.isPreformatted =
      (builder.condensed option.isPreformatted).handle option.condensing token := by
  have read : { builder with stop := token.span.stop }.Deep option.isPreformatted := deep
  have count : (builder.condensed option.isPreformatted).stack.length = builder.stack.length :=
    length_condensedStack builder.stack
  obtain ⟨kind, span⟩ := token
  cases kind with
  | tagOpen name =>
    have closed := closeImplied_condensed read name span.start builder.stack.length
    simp only [handle, count]
    exact congrArg (fun builder : Builder =>
      { builder with pending := some { name, start := span.start } }) closed
  | attrName name =>
    have same : (builder.condensed option.isPreformatted).pending = builder.pending := rfl
    simp only [handle, same]
    split <;> rfl
  | attrValue content => exact updateAttribute_condensed _ _
  | tagEnd selfClosing => exact finishStartTag_condensed _ _ _
  | tagClose name => exact closeTag_condensed read _ _
  | text => exact condensed_leaf _ _ _
  | interpolation => exact condensed_leaf _ _ _
  | comment source =>
    have comments : option.preserving.preserveComments = option.condensing.preserveComments := rfl
    simp only [handle, comments]
    split
    · exact condensed_leaf _ _ _
    · rfl

theorem handlePull_condensed (deep : builder.Deep option.isPreformatted) (pull : Pull) :
    (builder.handlePull option.preserving pull).condensed option.isPreformatted =
      (builder.condensed option.isPreformatted).handlePull option.condensing pull :=
  have reported : (builder.report pull.problems).Deep option.isPreformatted := deep
  handle_condensed reported pull.token

theorem foldl_condensed (deep : builder.Deep option.isPreformatted) (pulls : List Pull) :
    (pulls.foldl (handlePull option.preserving) builder).Deep option.isPreformatted ∧
      (pulls.foldl (handlePull option.preserving) builder).condensed option.isPreformatted =
        pulls.foldl (handlePull option.condensing) (builder.condensed option.isPreformatted) := by
  induction pulls generalizing builder with
  | nil => exact ⟨deep, rfl⟩
  | cons pull rest ih =>
    have reported : (builder.report pull.problems).Deep option.isPreformatted := deep
    have handled : (builder.handlePull option.preserving pull).Deep option.isPreformatted :=
      @Deep.handle option.preserving _ reported pull.token
    rw [List.foldl_cons, List.foldl_cons, ← handlePull_condensed deep pull]
    exact ih handled

theorem finish_condensed (deep : builder.Deep option.isPreformatted) :
    (builder.condensed option.isPreformatted).finish option.condensing =
      ((builder.finish option.preserving).1.condensed option.isPreformatted,
        (builder.finish option.preserving).2) := by
  have count : (builder.condensed option.isPreformatted).stack.length = builder.stack.length :=
    length_condensedStack builder.stack
  have stop : (builder.condensed option.isPreformatted).stop = builder.stop := rfl
  have closed := closeUnclosed_condensed deep builder.stop builder.stack.length
  have empty := stack_closeAll option.preserving builder builder.stop
  simp only [finish, count, stop, ← closed]
  generalize builder.closeUnclosed option.preserving builder.stop builder.stack.length = last
    at empty
  simp [settle, ParseOption.preserving, ParseOption.condensing, Template.condensed, condensed,
    empty, removedStack, Node.condensedAll_reverse]

end Builder

/-- With white space condensed, the template is the condensed form of what it is with all white
space, and the problems are the same. -/
theorem parse_condensing (option : ParseOption) (scan : Scan) :
    parse option.condensing scan = (parse option.preserving scan).map fun outcome =>
      (outcome.1.condensed option.isPreformatted, outcome.2) := by
  cases ended : scan.ending with
  | error fault => simp only [parse, ended, Except.map]
  | ok problems =>
    have start : ({} : Builder).Deep option.isPreformatted := rfl
    obtain ⟨deep, same⟩ := Builder.foldl_condensed start scan.pulls
    have blank : Builder.condensed option.isPreformatted {} = {} := rfl
    rw [blank] at same
    have reported : ((scan.pulls.foldl (Builder.handlePull option.preserving) {}).report
        problems).Deep option.isPreformatted := deep
    simp only [parse, ended, Except.map, ← same]
    exact congrArg Except.ok (Builder.finish_condensed reported)

end TemplateCompiler
