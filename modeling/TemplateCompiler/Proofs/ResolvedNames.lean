import TemplateCompiler.Proofs.CollectedProperties
import TemplateCompiler.Proofs.PlacedNames
import TemplateCompiler.Proofs.Settlement
import TemplateCompiler.Proofs.Subexpressions

/-! The names and handlers in lowered expressions. Whatever an expression is made into, a name in it
is an alias only if the scope has it, and is looked up on the render context only if the scope lacks
it; a handler in it has no cell of the render cache yet. -/

namespace TemplateCompiler

namespace Expr

def Resolves (scope : Scope) : Expr → Prop
  | param name => scope.contains name = true
  | context name => scope.contains name = false
  | _ => True

/-- All names in the expression are resolved by the scope. -/
def Scoped (scope : Scope) (expr : Expr) : Prop :=
  expr.Every (Resolves scope)

def Fits (around : Surroundings) : Expr → Prop
  | handler body traits => traits.slot = none ∧
      traits.cacheable = (around.cacheHandlers && !body.refersToScope && !around.inOnce)
  | expr => expr.Resolves around.scope

/-- All that is in the expression is as lowering leaves it. -/
def Lowered (around : Surroundings) (expr : Expr) : Prop :=
  expr.Every (Fits around)

theorem Lowered.scoped {around : Surroundings} {expr : Expr} (lowered : expr.Lowered around) :
    expr.Scoped around.scope := by
  refine lowered.imp fun part fits => ?_
  cases part with
  | handler => trivial
  | _ => exact fits

variable {around : Surroundings}

theorem lowered_iff (expr : Expr) (own : Fits around expr) :
    expr.Lowered around ↔ ∀ nested ∈ expr.inner, nested.Lowered around := by
  rw [Lowered, every_iff]
  exact ⟨fun both => both.2, fun parts => ⟨own, parts⟩⟩

@[simp]
theorem lowered_source (text : String) : (source text).Lowered around :=
  (lowered_iff (source text) trivial).2 (List.forall_mem_nil _)

@[simp]
theorem lowered_number (value : Nat) : (number value).Lowered around :=
  (lowered_iff (number value) trivial).2 (List.forall_mem_nil _)

@[simp]
theorem lowered_literal (text : Phrase) : (literal text).Lowered around :=
  (lowered_iff (literal text) trivial).2 (List.forall_mem_nil _)

@[simp]
theorem lowered_string (text : String) : (string text).Lowered around :=
  lowered_literal _

@[simp]
theorem lowered_madeLiteral (text : String) : (madeLiteral text).Lowered around :=
  (lowered_iff (madeLiteral text) trivial).2 (List.forall_mem_nil _)

@[simp]
theorem lowered_simple (text : Phrase) (level : Level) : (simple text level).Lowered around :=
  (lowered_iff (simple text level) trivial).2 (List.forall_mem_nil _)

@[simp]
theorem lowered_symbol (helper : Helper) : (symbol helper).Lowered around :=
  (lowered_iff (symbol helper) trivial).2 (List.forall_mem_nil _)

@[simp]
theorem lowered_param (name : String) :
    (param name).Lowered around ↔ around.scope.contains name = true := by
  rw [Lowered, every_iff]
  simp [Fits, Resolves, inner]

@[simp]
theorem lowered_context (name : String) :
    (context name).Lowered around ↔ around.scope.contains name = false := by
  rw [Lowered, every_iff]
  simp [Fits, Resolves, inner]

@[simp]
theorem lowered_compound (parts : List Expr) :
    (compound parts).Lowered around ↔ ∀ part ∈ parts, part.Lowered around :=
  lowered_iff (compound parts) trivial

@[simp]
theorem lowered_array (items : List Expr) :
    (array items).Lowered around ↔ ∀ item ∈ items, item.Lowered around :=
  lowered_iff (array items) trivial

@[simp]
theorem lowered_call (helper : Helper) (args : List Expr) :
    (call helper args).Lowered around ↔ ∀ arg ∈ args, arg.Lowered around :=
  lowered_iff (call helper args) trivial

@[simp]
theorem lowered_props (entries : List (Expr × Expr)) :
    (props entries).Lowered around ↔
      ∀ entry ∈ entries, entry.1.Lowered around ∧ entry.2.Lowered around := by
  rw [lowered_iff (props entries) trivial]
  constructor
  · intro parts entry member
    exact ⟨parts _ (mem_inner_props member).1, parts _ (mem_inner_props member).2⟩
  · intro both nested part
    obtain ⟨entry, member, part⟩ := List.mem_flatMap.1 part
    simp only [List.mem_cons, List.not_mem_nil, or_false] at part
    rcases part with rfl | rfl
    · exact (both entry member).1
    · exact (both entry member).2

@[simp]
theorem lowered_handler (body : Expr) (traits : HandlerTraits) :
    (handler body traits).Lowered around ↔ (handler body traits).Fits around ∧
      body.Lowered around := by
  rw [Lowered, every_iff]
  exact and_congr_right fun _ => List.forall_mem_singleton

end Expr

variable {around : Surroundings}

theorem lowered_resolveName (locals : List String) (name : String) :
    (resolveName around.scope locals name).Lowered around := by
  simp only [resolveName]
  split
  · simp
  · split
    · next bound => simpa using bound
    · next free =>
      split
      · simp
      · split
        · simp
        · simpa using free

section Resolving

variable {scope : Scope} {locals : List String} {kind : Expr → Prop}

theorem Resolving.forall_parts_step (sources : ∀ raw, kind (.source raw))
    (names : ∀ locals name, kind (resolveName scope locals name)) {text : List Char}
    {bound : List String} {state : Resolving} (reference : Script.Occurrence)
    (parts : ∀ part ∈ state.parts, kind part) :
    ∀ part ∈ (state.step text scope bound locals reference).value.parts, kind part := by
  have resolved := names (bound ++ locals) (reference.name text)
  rw [value_step]
  split
  · exact parts
  · intro part member
    simp only [List.mem_append, List.mem_cons, List.not_mem_nil, or_false] at member
    rcases member with (old | rfl | key) | rfl
    · exact parts part old
    · exact sources _
    · split at key
      · simp only [List.mem_cons, List.not_mem_nil, or_false] at key
        rcases key with rfl | rfl
        · exact sources _
        · exact sources _
      · cases key
    · exact resolved

/-- An expression is written as it stands, or put together from its text and what its names are
resolved to. -/
theorem resolveIn_simple_or_compound (sources : ∀ raw, kind (.source raw))
    (names : ∀ locals name, kind (resolveName scope locals name)) (text : String)
    (parsed : Script.Expression) :
    (∃ level, (resolveIn scope locals text parsed).value = .simple { raw := text } level) ∨
      ∃ parts, (resolveIn scope locals text parsed).value = .compound parts ∧
        ∀ part ∈ parts, kind part := by
  have written (references : List Script.Occurrence) (state : Resolving)
      (parts : ∀ part ∈ state.parts, kind part) :
      ∀ part ∈ (references.foldlM
        (Resolving.step text.toList scope (parsed.boundIn text) locals) state).value.parts,
        kind part := by
    induction references generalizing state with
    | nil => exact parts
    | cons reference rest ih =>
      exact ih _ (Resolving.forall_parts_step sources names reference parts)
  rw [value_resolveIn, Resolving.finish]
  split
  · exact .inl ⟨_, rfl⟩
  · refine .inr ⟨_, rfl, fun part member => ?_⟩
    rcases List.mem_append.1 (List.mem_filter.1 member).1 with old | last
    · exact written _ {} (List.forall_mem_nil _) part old
    · rw [List.mem_singleton.1 last]
      exact sources _

end Resolving

theorem lowered_resolveIn (locals : List String) (text : String) (parsed : Script.Expression) :
    (resolveIn around.scope locals text parsed).value.Lowered around := by
  have names := @lowered_resolveName around
  rcases resolveIn_simple_or_compound Expr.lowered_source names text parsed with
    ⟨level, same⟩ | ⟨parts, same, lowered⟩
  · rw [same]
    simp
  · rw [same, Expr.lowered_compound]
    exact lowered

theorem lowered_resolve (locals : List String) (raw : String) (span : Span)
    (reader : ScriptReader) :
    (resolve around.scope locals raw span reader).value.Lowered around := by
  simp only [resolve]
  split
  · simp
  · split
    · exact lowered_resolveName locals _
    · split
      · exact lowered_resolveIn locals _ _
      · simp

variable (around)

@[simp]
theorem Surroundings.lowered_resolve (raw : String) (span : Span) :
    (around.resolve raw span).value.Lowered around :=
  TemplateCompiler.lowered_resolve [] raw span around.reader

@[simp]
theorem Surroundings.lowered_resolveValue (value : Value) :
    (around.resolveValue value).value.Lowered around :=
  around.lowered_resolve value.content.raw value.span

namespace Handler

@[simp]
theorem lowered_make (body : Expr) (kind : HandlerKind) :
    (make around body kind).Lowered around ↔ body.Lowered around :=
  (Expr.lowered_handler body _).trans (and_iff_right ⟨rfl, rfl⟩)

theorem lowered_joinStatements (span : Span) (statements : List String) :
    ∀ part ∈ (joinStatements around span statements).value, part.Lowered around := by
  fun_induction joinStatements around span statements with
  | case1 => exact List.forall_mem_nil _
  | case2 last =>
    simpa using TemplateCompiler.lowered_resolve eventLocals last span around.reader
  | case3 first rest _ ih =>
    simpa using ⟨TemplateCompiler.lowered_resolve eventLocals first span around.reader, ih⟩

theorem lowered_ofValue (value : Value) :
    (ofValue around value).value.Lowered around := by
  simp only [ofValue]
  split
  · simp
  · simp
  · split
    · simpa using lowered_joinStatements around value.span _
    · simpa using TemplateCompiler.lowered_resolve eventLocals _ value.span around.reader

end Handler

@[simp]
theorem ListenerModifiers.lowered_guard (modifiers : ListenerModifiers) (event : Option String)
    (handler : Expr) : (modifiers.guard event handler).Lowered around ↔ handler.Lowered around := by
  cases handler <;> simp [guard, Expr.Fits]

namespace Contribution

def Lowered (around : Surroundings) : Contribution → Prop
  | .fixed _ value => value.Lowered around
  | .entries added => ∀ entry ∈ added, entry.1.Lowered around ∧ entry.2.Lowered around
  | .spread value => value.Lowered around
  | .nothing => True

theorem lowered_ofAttribute (tag : String) (given : Attribute) :
    (ofAttribute tag given).Lowered around := by
  simp only [ofAttribute]
  split <;> simp [Lowered]

@[simp]
theorem lowered_boundKey (directive : Directive) (argument : Argument) :
    (boundKey around directive argument).value.Lowered around := by
  simp only [boundKey]
  split
  · split <;> simp
  · simp only [Reported.value_bind, Reported.value_pure, Expr.lowered_compound, List.mem_cons,
      List.mem_append, Option.mem_toList, Option.map_eq_some_iff, List.not_mem_nil, or_false]
    rintro part ((rfl | ⟨mark, _, rfl⟩) | rfl | rfl)
    · simp
    · simp
    · split <;> simp
    · simp

theorem lowered_ofBind (directive : Directive) :
    (ofBind around directive).value.Lowered around := by
  simp only [ofBind]
  split
  · simp only [Reported.value_bind]
    split <;> simp [Lowered]
  · simp only [Reported.value_bind]
    split <;> simp [Lowered]
  · simp [Lowered]

@[simp]
theorem lowered_listenerKey (directive : Directive) (modifiers : ListenerModifiers)
    (argument : Argument) :
    (listenerKey around directive modifiers argument).value.Lowered around := by
  cases argument with
  | static name =>
    simp only [listenerKey, Reported.value_pure]
    split <;> simp
  | dynamic expression =>
    simp only [listenerKey, Reported.value_bind, Reported.value_pure]
    split <;> simp

theorem lowered_listener (directive : Directive) (argument : Argument) :
    (listener around directive argument).value.Lowered around := by
  have handler (value : Value) := Handler.lowered_ofValue around value
  simp only [listener, Reported.value_bind]
  split
  · split <;> simp [Lowered, listener.idle, handler]
  · simp [Lowered, listener.idle]

theorem lowered_ofListener (directive : Directive) :
    (ofListener around directive).value.Lowered around := by
  simp only [ofListener]
  split
  · split <;> simp [Lowered]
  · next argument _ =>
    have listened := lowered_listener around directive argument
    split
    · split <;> exact listened
    · exact listened

@[simp]
theorem lowered_assign (model value : Expr) : (assign around model value).Lowered around ↔
    model.Lowered around ∧ value.Lowered around := by
  simp [assign]

@[simp]
theorem lowered_modifiersObject (modifiers : List String) :
    (modifiersObject modifiers).Lowered around := by
  simp [modifiersObject]

@[simp]
theorem lowered_numbered (directive : Directive) (value : Expr) :
    (numbered directive value).Lowered around ↔ value.Lowered around := by
  simp only [numbered]
  split <;> simp

@[simp]
theorem lowered_selectedValues (directive : Directive) :
    (selectedValues directive).Lowered around := by
  simp [selectedValues]

theorem lowered_modelKeys (directive : Directive) :
    (modelKeys around directive).value.value.Lowered around ∧
      (modelKeys around directive).value.event.Lowered around ∧
      (modelKeys around directive).value.modifiers.Lowered around := by
  simp only [modelKeys]
  split <;> simp

variable {around} {model : Expr}

theorem lowered_componentModel (directive : Directive) (resolved : model.Lowered around) :
    (Contribution.entries (componentModel around directive model).value).Lowered around := by
  obtain ⟨value, event, modifiers⟩ := lowered_modelKeys around directive
  simp only [componentModel, Reported.value_bind, Reported.value_pure]
  split <;> simp [Lowered, value, event, modifiers, resolved]

theorem lowered_textModel (directive : Directive) (resolved : model.Lowered around) :
    (Contribution.entries (textModel around directive model)).Lowered around := by
  simp [Lowered, textModel, resolved]

theorem lowered_selectModel (properties : Properties) (directive : Directive)
    (resolved : model.Lowered around) :
    (Contribution.entries (selectModel around properties directive model)).Lowered around := by
  simp only [selectModel]
  split <;> simp [Lowered, resolved]

theorem lowered_setValue (properties : Properties) (name : String) :
    ∀ value, (setValue? around properties name).value = some value → value.Lowered around := by
  simp only [setValue?]
  split
  · intro value none
    cases none
  · next given _ =>
    simp only [Reported.value_pure, Option.some.injEq]
    intro value given
    subst given
    cases given.value <;> simp
  · split
    · intro value none
      cases none
    · simp only [Reported.value_bind, Reported.value_pure, Option.some.injEq]
      intro value given
      subst given
      simp

theorem lowered_inputModel (properties : Properties) (directive : Directive)
    (resolved : model.Lowered around) :
    ∀ found, (inputModel around properties directive model).value = some found →
      (Contribution.entries found).Lowered around := by
  simp only [inputModel]
  split
  · intro found none
    cases none
  · split
    · intro found given
      cases given
      simp [Lowered, resolved]
    · split
      · have value :
            ((setValue? around properties "value").value.getD (.source "undefined")).Lowered around := by
          cases given : (setValue? around properties "value").value with
          | none => simp
          | some value => exact lowered_setValue properties "value" value given
        intro found given
        cases given
        simp [Lowered, resolved, value]
      · intro found given
        cases given
        exact lowered_textModel directive resolved

theorem lowered_elementModel (element : Element) (directive : Directive)
    (resolved : model.Lowered around) :
    ∀ found, (elementModel around element directive model).value = some found →
      (Contribution.entries found).Lowered around := by
  simp only [elementModel]
  split
  · exact lowered_inputModel element.properties directive resolved
  · split
    · intro found given
      cases given
      exact lowered_textModel directive resolved
    · split
      · intro found given
        cases given
        exact lowered_selectModel element.properties directive resolved
      · intro found none
        cases none

variable (around)

theorem lowered_ofModel (element : Element) (directive : Directive) :
    (ofModel around element directive).value.Lowered around := by
  simp only [ofModel]
  split
  · simp [Lowered]
  · simp [Lowered]
  · next value _ _ =>
    have resolved := around.lowered_resolve (Text.trim value.content.raw) value.span
    split
    · simp [Lowered]
    · simp only [Reported.value_bind]
      split
      · exact lowered_componentModel directive resolved
      · split
        · simp [Lowered]
        · simp only [Reported.value_bind]
          split
          · next found given => exact lowered_elementModel element directive resolved found given
          · simp [Lowered]

end Contribution

variable {around}

theorem lowered_mergeValues {existing incoming : Expr} (old : existing.Lowered around)
    (new : incoming.Lowered around) : (mergeValues existing incoming).Lowered around := by
  simp only [mergeValues]
  split
  · next items =>
    rw [Expr.lowered_array] at old
    simp only [Expr.lowered_array, List.mem_append, List.mem_singleton]
    rintro item (early | rfl)
    · exact old item early
    · exact new
  · simp [old, new]

theorem lowered_dedupe {entries : List Entry}
    (given : ∀ entry ∈ entries, entry.1.Lowered around ∧ entry.2.Lowered around) :
    (Expr.props (dedupe entries)).Lowered around := by
  refine (Expr.lowered_props _).2 (forall_dedupe ?_ given)
  intro old new name _ _ first second
  exact ⟨first.1, lowered_mergeValues first.2 second.2⟩

structure Collection.Lowered (around : Surroundings) (collection : Collection) : Prop where
  pending : ∀ entry ∈ collection.pending, entry.1.Lowered around ∧ entry.2.Lowered around
  merged : ∀ expr ∈ collection.merged, expr.Lowered around

namespace Collection

variable {collection : Collection}

theorem Lowered.flush (resolved : collection.Lowered around) : collection.flush.Lowered around := by
  simp only [Collection.flush]
  split
  · exact resolved
  · refine ⟨List.forall_mem_nil _, fun expr member => ?_⟩
    rcases List.mem_append.1 member with early | late
    · exact resolved.merged expr early
    · cases List.mem_singleton.1 late
      exact lowered_dedupe resolved.pending

theorem Lowered.add (isComponent : Bool) {contribution : Contribution}
    (resolved : collection.Lowered around) (new : contribution.Lowered around) :
    (collection.add isComponent contribution).Lowered around := by
  cases contribution with
  | nothing => exact resolved
  | fixed name value =>
    refine ⟨fun entry member => ?_, resolved.merged⟩
    rcases List.mem_append.1 member with early | late
    · exact resolved.pending entry early
    · cases List.mem_singleton.1 late
      exact ⟨Expr.lowered_string name, new⟩
  | entries added =>
    refine ⟨fun entry member => ?_, resolved.merged⟩
    rcases List.mem_append.1 member with early | late
    · exact resolved.pending entry early
    · exact new entry late
  | spread value =>
    refine ⟨resolved.flush.pending, fun expr member => ?_⟩
    rcases List.mem_append.1 member with early | late
    · exact resolved.flush.merged expr early
    · cases List.mem_singleton.1 late
      exact new

theorem Lowered.expr (resolved : collection.Lowered around) :
    ∀ props ∈ collection.expr?, props.Lowered around := by
  have merged := resolved.flush.merged
  simp only [expr?]
  split
  · intro props none
    cases none
  · next only same =>
    intro props given
    cases given
    exact merged only (by simp [same])
  · intro props given
    cases given
    exact (Expr.lowered_call _ _).2 merged

end Collection

variable (around)

theorem lowered_plainContribution (element : Element) (property : Property) :
    (plainContribution around element property).value.Lowered around := by
  cases property with
  | attr given => exact Contribution.lowered_ofAttribute around element.tag given
  | dir directive =>
    simp only [plainContribution]
    split
    · trivial
    · split
      · trivial
      · exact Contribution.lowered_ofBind around directive

def RuntimeDirective.expressions (directive : RuntimeDirective) : List Expr :=
  directive.name :: directive.value.toList ++ directive.argument.toList ++
    directive.modifiers.toList

theorem RuntimeDirective.lowered_expressions (name : Phrase) {value argument : Option Expr}
    (modifiers : List String) (resolved : ∀ expr ∈ value, expr.Lowered around)
    (named : ∀ expr ∈ argument, expr.Lowered around) :
    ∀ expr ∈ RuntimeDirective.expressions
        { name := .simple name .notStatic, value, argument,
          modifiers :=
            if modifiers.isEmpty then none else some (Contribution.modifiersObject modifiers) },
      expr.Lowered around := by
  intro expr member
  simp only [expressions, List.mem_append, List.mem_cons, Option.mem_toList] at member
  rcases member with ((rfl | given) | given) | given
  · exact Expr.lowered_simple _ _
  · exact resolved expr given
  · exact named expr given
  · split at given
    · cases given
    · cases given
      exact Contribution.lowered_modifiersObject around modifiers

theorem lowered_lowerDirective (directive : Directive) :
    ∀ expr ∈ (lowerDirective around directive).value.expressions, expr.Lowered around := by
  simp only [lowerDirective]
  split
  · split
    all_goals split <;> exact RuntimeDirective.lowered_expressions around _ _ (by simp) (by simp)
  · split <;> exact RuntimeDirective.lowered_expressions around _ _ (by simp) (by simp)

theorem lowered_lowerRuntime (directive : Directive) :
    ∀ applied ∈ (lowerRuntime around directive).value, ∀ expr ∈ applied.expressions,
      expr.Lowered around := by
  simp only [lowerRuntime]
  split
  · intro applied none
    cases none
  · split
    · intro applied none
      cases none
    · intro applied given
      cases given
      exact lowered_lowerDirective around directive

theorem lowered_lowerProperties (element : Element) :
    (∀ props ∈ (lowerProperties around element).value.props, props.Lowered around) ∧
      (∀ directive ∈ (lowerProperties around element).value.directives,
        ∀ expr ∈ directive.expressions, expr.Lowered around) ∧
      ∀ expr ∈ (lowerProperties around element).value.dynamicProps, expr.Lowered around := by
  have collected : (collectedProperties around element).Lowered around := by
    refine collectedProperties_of ⟨List.forall_mem_nil _, List.forall_mem_nil _⟩
      (fun resolved new => resolved.add _ new) ?_ ?_ ?_
    · exact lowered_plainContribution around element
    · exact Contribution.lowered_ofListener around
    · exact Contribution.lowered_ofModel around element
  rw [value_lowerProperties]
  refine ⟨collected.expr, fun directive member => ?_, fun expr member => ?_⟩
  · obtain ⟨written, _, given⟩ := List.mem_filterMap.1 member
    exact lowered_lowerRuntime around written directive given
  · obtain ⟨name, _, rfl⟩ := List.mem_map.1 member
    exact Expr.lowered_madeLiteral name

/-- The expressions of the call that makes a virtual node. -/
def VNode.expressions (vnode : VNode) : List Expr :=
  vnode.tag :: vnode.props.toList ++ vnode.dynamicProps ++
    vnode.directives.flatMap RuntimeDirective.expressions

theorem VNode.forall_expressions {vnode : VNode} {kind : Expr → Prop} :
    (∀ expr ∈ vnode.expressions, kind expr) ↔
      kind vnode.tag ∧ (∀ props ∈ vnode.props, kind props) ∧
        (∀ name ∈ vnode.dynamicProps, kind name) ∧
        ∀ directive ∈ vnode.directives, ∀ expr ∈ directive.expressions, kind expr := by
  simp only [expressions, List.mem_append, List.mem_cons, Option.mem_toList, List.mem_flatMap]
  constructor
  · intro all
    exact ⟨all _ (.inl (.inl (.inl rfl))), fun props given => all _ (.inl (.inl (.inr given))),
      fun name listed => all _ (.inl (.inr listed)),
      fun directive listed expr inside => all _ (.inr ⟨directive, listed, inside⟩)⟩
  · rintro ⟨tag, props, names, directives⟩ expr
      (((rfl | given) | listed) | ⟨directive, listed, inside⟩)
    · exact tag
    · exact props expr given
    · exact names expr listed
    · exact directives directive listed expr inside

theorem TagForm.lowered_lower (tag : String) (form : TagForm) :
    (form.lower around tag).value.Lowered around := by
  cases form <;> simp [lower]

theorem lowered_lowerElement (table : Table) (element : Element) (children : List NodeId) :
    ∀ expr ∈ (lowerElement around table element children).value.expressions,
      expr.Lowered around := by
  obtain ⟨props, directives, names⟩ := lowered_lowerProperties around element
  rw [VNode.forall_expressions]
  unfold lowerElement
  split
  · exact ⟨Expr.lowered_symbol _, props, List.forall_mem_nil _, List.forall_mem_nil _⟩
  · exact ⟨TagForm.lowered_lower around element.tag _, props, names, directives⟩

variable {around}

theorem Conditional.lowered_addKey (key : Nat) {props : Option Expr}
    (resolved : ∀ given ∈ props, given.Lowered around) : (addKey key props).Lowered around := by
  cases props with
  | none => simp [addKey]
  | some given =>
    have whole := resolved given rfl
    simp only [addKey]
    split
    · next none => cases none
    · next entries same =>
      cases same
      simpa using whole
    · next entries args same =>
      cases same
      simpa using whole
    · next args _ same =>
      cases same
      simpa using whole
    · next same =>
      cases same
      simpa using whole

theorem Role.lowered_finish (role : Role) (properties : Properties) {vnode : VNode}
    (resolved : ∀ expr ∈ vnode.expressions, expr.Lowered around) :
    ∀ expr ∈ (role.finish properties vnode).expressions, expr.Lowered around := by
  cases role with
  | child => exact resolved
  | item => exact resolved
  | root => exact resolved
  | branch key =>
    rw [VNode.forall_expressions] at resolved ⊢
    obtain ⟨tag, props, names, directives⟩ := resolved
    refine ⟨tag, ?_, names, directives⟩
    simp only [finish]
    split
    · exact props
    · intro keyed given
      cases given
      exact Conditional.lowered_addKey key props

variable (around)

theorem TextRun.lowered_part (node : Node) : (part around node).value.Lowered around := by
  simp only [part]
  split
  · simp
  · split <;> simp
  · simp

theorem Conditional.forall_links {kind : Expr → Prop}
    (values : ∀ value, kind (around.resolveValue value).value) (pairs : List (Branch × Node)) :
    ∀ link ∈ (links around pairs).value.1, kind link.test := by
  induction pairs with
  | nil => exact List.forall_mem_nil _
  | cons pair rest ih =>
    obtain ⟨branch, child⟩ := pair
    simp only [links, Reported.value_bind]
    split
    · exact List.forall_mem_nil _
    · next condition _ =>
      simp only [Reported.value_bind, Reported.value_pure, List.forall_mem_cons]
      exact ⟨values condition, ih⟩

theorem Conditional.lowered_links (pairs : List (Branch × Node)) :
    ∀ link ∈ (links around pairs).value.1, link.test.Lowered around :=
  forall_links around around.lowered_resolveValue pairs

end TemplateCompiler
