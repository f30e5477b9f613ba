import TemplateCompiler.Proofs.ResolvedNames

/-! Where handlers are in lowered properties. A handler is the value of an entry or an item of one
that was merged, under a key that begins with `on` if the key is known; there is none in a key, and
none in the body of another handler. -/

namespace TemplateCompiler

namespace Expr

def isHandler : Expr → Bool
  | handler _ _ => true
  | _ => false

def HandlerFree (expr : Expr) : Prop :=
  expr.Every fun part => part.isHandler = false

theorem handlerFree_iff (expr : Expr) (own : expr.isHandler = false) :
    expr.HandlerFree ↔ ∀ nested ∈ expr.inner, nested.HandlerFree := by
  rw [HandlerFree, every_iff]
  exact ⟨fun both => both.2, fun parts => ⟨own, parts⟩⟩

@[simp]
theorem handlerFree_source (text : String) : (source text).HandlerFree :=
  (handlerFree_iff (source text) rfl).2 (List.forall_mem_nil _)

@[simp]
theorem handlerFree_number (value : Nat) : (number value).HandlerFree :=
  (handlerFree_iff (number value) rfl).2 (List.forall_mem_nil _)

@[simp]
theorem handlerFree_literal (text : Phrase) : (literal text).HandlerFree :=
  (handlerFree_iff (literal text) rfl).2 (List.forall_mem_nil _)

@[simp]
theorem handlerFree_string (text : String) : (string text).HandlerFree :=
  handlerFree_literal _

@[simp]
theorem handlerFree_madeLiteral (text : String) : (madeLiteral text).HandlerFree :=
  (handlerFree_iff (madeLiteral text) rfl).2 (List.forall_mem_nil _)

@[simp]
theorem handlerFree_simple (text : Phrase) (level : Level) : (simple text level).HandlerFree :=
  (handlerFree_iff (simple text level) rfl).2 (List.forall_mem_nil _)

@[simp]
theorem handlerFree_symbol (helper : Helper) : (symbol helper).HandlerFree :=
  (handlerFree_iff (symbol helper) rfl).2 (List.forall_mem_nil _)

@[simp]
theorem handlerFree_param (name : String) : (param name).HandlerFree :=
  (handlerFree_iff (param name) rfl).2 (List.forall_mem_nil _)

@[simp]
theorem handlerFree_context (name : String) : (context name).HandlerFree :=
  (handlerFree_iff (context name) rfl).2 (List.forall_mem_nil _)

@[simp]
theorem handlerFree_compound (parts : List Expr) :
    (compound parts).HandlerFree ↔ ∀ part ∈ parts, part.HandlerFree :=
  handlerFree_iff (compound parts) rfl

@[simp]
theorem handlerFree_array (items : List Expr) :
    (array items).HandlerFree ↔ ∀ item ∈ items, item.HandlerFree :=
  handlerFree_iff (array items) rfl

@[simp]
theorem handlerFree_call (helper : Helper) (args : List Expr) :
    (call helper args).HandlerFree ↔ ∀ arg ∈ args, arg.HandlerFree :=
  handlerFree_iff (call helper args) rfl

theorem forall_inner_props {kind : Expr → Prop} (entries : List Entry) :
    (∀ nested ∈ (props entries).inner, kind nested) ↔
      ∀ entry ∈ entries, kind entry.1 ∧ kind entry.2 := by
  simp only [inner, List.mem_flatMap, List.mem_cons, List.not_mem_nil, or_false]
  constructor
  · intro all entry member
    exact ⟨all _ ⟨entry, member, .inl rfl⟩, all _ ⟨entry, member, .inr rfl⟩⟩
  · rintro all nested ⟨entry, member, rfl | rfl⟩
    · exact (all entry member).1
    · exact (all entry member).2

@[simp]
theorem handlerFree_props (entries : List Entry) :
    (props entries).HandlerFree ↔
      ∀ entry ∈ entries, entry.1.HandlerFree ∧ entry.2.HandlerFree :=
  (handlerFree_iff (props entries) rfl).trans (forall_inner_props entries)

def IsEventKey (key : Expr) : Prop :=
  ∀ name, key.staticKey? = some name → "on".toList <+: name.toList

theorem isEventKey_of_unknown {key : Expr} (unknown : key.staticKey? = none) :
    key.IsEventKey := by
  intro name known
  rw [unknown] at known
  cases known

theorem isEventKey_literal {text : Phrase} (begins : "on".toList <+: text.text.toList) :
    (literal text).IsEventKey := by
  intro name known
  rwa [← Option.some.inj known]

theorem isEventKey_madeLiteral {text : String} (begins : "on".toList <+: text.toList) :
    (madeLiteral text).IsEventKey := by
  intro name known
  rwa [← Option.some.inj known]

theorem isEventKey_string {name : String} (begins : "on".toList <+: name.toList) :
    (string name).IsEventKey :=
  isEventKey_literal (by rwa [Phrase.text_raw])

def Places : Expr → Prop
  | handler body _ => body.HandlerFree
  | props entries => ∀ entry ∈ entries,
      entry.1.HandlerFree ∧ (entry.2.HandlerFree ∨ entry.1.IsEventKey)
  | _ => True

/-- All handlers in the expression are in their places. -/
def Orderly (expr : Expr) : Prop :=
  expr.Every Places

theorem HandlerFree.orderly {expr : Expr} (free : expr.HandlerFree) : expr.Orderly := by
  intro part occurs
  have inside := free.of_occurs occurs
  cases part with
  | handler body traits => cases inside _ .self
  | props entries =>
    intro entry member
    have both := (handlerFree_props entries).1 inside entry member
    exact ⟨both.1, .inl both.2⟩
  | _ => trivial

end Expr

/-- The entry has handlers in its value only, and only under the key of an event. -/
structure Entry.Orderly (entry : Entry) : Prop where
  key : entry.1.HandlerFree
  value : entry.2.Orderly
  named : entry.2.HandlerFree ∨ entry.1.IsEventKey

namespace Expr

@[simp]
theorem orderly_handler (body : Expr) (traits : HandlerTraits) :
    (handler body traits).Orderly ↔ body.HandlerFree := by
  rw [Orderly, every_iff]
  exact ⟨And.left, fun free => ⟨free, List.forall_mem_singleton.2 free.orderly⟩⟩

@[simp]
theorem orderly_array (items : List Expr) :
    (array items).Orderly ↔ ∀ item ∈ items, item.Orderly := by
  rw [Orderly, every_iff]
  exact ⟨And.right, fun all => ⟨trivial, all⟩⟩

@[simp]
theorem orderly_call (helper : Helper) (args : List Expr) :
    (call helper args).Orderly ↔ ∀ arg ∈ args, arg.Orderly := by
  rw [Orderly, every_iff]
  exact ⟨And.right, fun all => ⟨trivial, all⟩⟩

@[simp]
theorem orderly_props (entries : List Entry) :
    (props entries).Orderly ↔ ∀ entry ∈ entries, Entry.Orderly entry := by
  rw [Orderly, every_iff, forall_inner_props]
  constructor
  · rintro ⟨own, parts⟩ entry member
    exact ⟨(own entry member).1, (parts entry member).2, (own entry member).2⟩
  · intro all
    exact ⟨fun entry member => ⟨(all entry member).key, (all entry member).named⟩,
      fun entry member => ⟨(all entry member).key.orderly, (all entry member).value⟩⟩

end Expr

theorem Entry.orderly_of_handlerFree {entry : Entry} (key : entry.1.HandlerFree)
    (value : entry.2.HandlerFree) : entry.Orderly :=
  ⟨key, value.orderly, .inl value⟩

theorem handlerFree_resolveName (scope : Scope) (locals : List String) (name : String) :
    (resolveName scope locals name).HandlerFree := by
  simp only [resolveName]
  repeat' split
  all_goals simp

theorem handlerFree_resolveIn (scope : Scope) (locals : List String) (text : String)
    (parsed : Script.Expression) :
    (resolveIn scope locals text parsed).value.HandlerFree := by
  rcases resolveIn_simple_or_compound Expr.handlerFree_source
    (handlerFree_resolveName scope) text parsed with ⟨level, same⟩ | ⟨parts, same, free⟩
  · rw [same]
    simp
  · rw [same, Expr.handlerFree_compound]
    exact free

@[simp]
theorem handlerFree_resolve (scope : Scope) (locals : List String) (raw : String) (span : Span)
    (reader : ScriptReader) : (resolve scope locals raw span reader).value.HandlerFree := by
  simp only [resolve]
  split
  · simp
  · split
    · exact handlerFree_resolveName scope locals _
    · split
      · exact handlerFree_resolveIn scope locals _ _
      · simp

namespace Surroundings

variable (around : Surroundings)

@[simp]
theorem handlerFree_resolve (raw : String) (span : Span) :
    (around.resolve raw span).value.HandlerFree :=
  TemplateCompiler.handlerFree_resolve around.scope [] raw span around.reader

@[simp]
theorem handlerFree_resolveValue (value : Value) : (around.resolveValue value).value.HandlerFree :=
  around.handlerFree_resolve value.content.raw value.span

end Surroundings

namespace Handler

@[simp]
theorem orderly_make (around : Surroundings) (body : Expr) (kind : HandlerKind) :
    (make around body kind).Orderly ↔ body.HandlerFree :=
  Expr.orderly_handler body _

theorem handlerFree_joinStatements (around : Surroundings) (span : Span)
    (statements : List String) :
    ∀ part ∈ (joinStatements around span statements).value, part.HandlerFree := by
  fun_induction joinStatements around span statements with
  | case1 => exact List.forall_mem_nil _
  | case2 last => simp
  | case3 first rest _ ih => simpa using ih

theorem orderly_ofValue (around : Surroundings) (value : Value) :
    (ofValue around value).value.Orderly := by
  simp only [ofValue]
  split
  · simp
  · simp
  · split
    · simpa using handlerFree_joinStatements around value.span _
    · simp

end Handler

theorem ListenerModifiers.orderly_guard (modifiers : ListenerModifiers) (event : Option String)
    {handler : Expr} (orderly : handler.Orderly) : (modifiers.guard event handler).Orderly := by
  cases handler with
  | handler body traits => simpa [guard] using orderly
  | _ => exact orderly

namespace Contribution

def Orderly : Contribution → Prop
  | .fixed _ value => value.HandlerFree
  | .entries added => ∀ entry ∈ added, Entry.Orderly entry
  | .spread value => value.HandlerFree
  | .nothing => True

variable (around : Surroundings)

theorem orderly_ofAttribute (tag : String) (given : Attribute) :
    (ofAttribute tag given).Orderly := by
  simp only [ofAttribute]
  split <;> simp [Orderly]

@[simp]
theorem handlerFree_boundKey (directive : Directive) (argument : Argument) :
    (boundKey around directive argument).value.HandlerFree := by
  simp only [boundKey]
  split
  · split <;> simp
  · simp only [Reported.value_bind, Reported.value_pure, Expr.handlerFree_compound, List.mem_cons,
      List.mem_append, Option.mem_toList, Option.map_eq_some_iff, List.not_mem_nil, or_false]
    rintro part ((rfl | ⟨mark, _, rfl⟩) | rfl | rfl)
    · simp
    · simp
    · split <;> simp
    · simp

theorem orderly_ofBind (directive : Directive) : (ofBind around directive).value.Orderly := by
  have bound (argument : Argument) (value : Expr) (free : value.HandlerFree) :
      (entries [((boundKey around directive argument).value, value)]).Orderly :=
    List.forall_mem_singleton.2
      (Entry.orderly_of_handlerFree (handlerFree_boundKey around directive argument) free)
  simp only [ofBind]
  split
  · simp only [Reported.value_bind]
    split
    · trivial
    · exact bound _ _ (Expr.handlerFree_string "")
  · simp only [Reported.value_bind]
    split
    · exact around.handlerFree_resolveValue _
    · exact bound _ _ (around.handlerFree_resolveValue _)
  · trivial

theorem listenerKey_isEventKey (directive : Directive) (modifiers : ListenerModifiers)
    (argument : Argument) :
    (listenerKey around directive modifiers argument).value.HandlerFree ∧
      (listenerKey around directive modifiers argument).value.IsEventKey := by
  cases argument with
  | static name =>
    have begins (raw : String) : "on".toList <+:
        (({ raw } : Phrase).asHandlerKey.camelCased).text.toList := by
      simp [Phrase.text, Phrase.asHandlerKey, Phrase.camelCased, Edits.apply, Edits.applyIf]
    simp only [listenerKey, Reported.value_pure]
    split
    · exact ⟨Expr.handlerFree_literal _, Expr.isEventKey_literal (begins _)⟩
    · refine ⟨Expr.handlerFree_madeLiteral _, Expr.isEventKey_madeLiteral ?_⟩
      rw [String.toList_append]
      exact (begins _).trans (List.prefix_append _ _)
  | dynamic expression =>
    simp only [listenerKey, Reported.value_bind, Reported.value_pure]
    split
    · exact ⟨by simp, Expr.isEventKey_of_unknown rfl⟩
    · exact ⟨by simp, Expr.isEventKey_of_unknown rfl⟩

theorem orderly_listener (directive : Directive) (argument : Argument) :
    (listener around directive argument).value.Orderly := by
  obtain ⟨key, named⟩ := listenerKey_isEventKey around directive
    (.ofList argument.staticName? directive.modifiers) argument
  have guarded {handler : Expr} (orderly : handler.Orderly) :
      (entries [((listenerKey around directive
          (.ofList argument.staticName? directive.modifiers) argument).value,
        (ListenerModifiers.ofList argument.staticName? directive.modifiers).guard
          argument.staticName? handler)]).Orderly :=
    List.forall_mem_singleton.2 ⟨key, ListenerModifiers.orderly_guard _ _ orderly, .inr named⟩
  have idle : (listener.idle around).Orderly := by simp [listener.idle]
  simp only [listener, Reported.value_bind]
  split
  · split
    · exact guarded idle
    · exact guarded (Handler.orderly_ofValue around _)
  · exact guarded idle

theorem orderly_ofListener (directive : Directive) :
    (ofListener around directive).value.Orderly := by
  simp only [ofListener]
  split
  · split <;> simp [Orderly]
  · next argument _ =>
    have listened := orderly_listener around directive argument
    split
    · split <;> exact listened
    · exact listened

@[simp]
theorem handlerFree_modifiersObject (modifiers : List String) :
    (modifiersObject modifiers).HandlerFree := by
  simp [modifiersObject]

@[simp]
theorem handlerFree_numbered (directive : Directive) (value : Expr) :
    (numbered directive value).HandlerFree ↔ value.HandlerFree := by
  simp only [numbered]
  split <;> simp

@[simp]
theorem handlerFree_selectedValues (directive : Directive) :
    (selectedValues directive).HandlerFree := by
  simp [selectedValues]

variable {around} {model : Expr}

theorem orderly_assign {key value : Expr} (free : model.HandlerFree) (given : value.HandlerFree)
    (named : key.HandlerFree) (event : key.IsEventKey) :
    Entry.Orderly (key, assign around model value) := by
  refine ⟨named, ?_, .inr event⟩
  simp [assign, free, given]

theorem modelKeys_isEventKey (directive : Directive) :
    (modelKeys around directive).value.value.HandlerFree ∧
      (modelKeys around directive).value.event.HandlerFree ∧
      (modelKeys around directive).value.event.IsEventKey ∧
      (modelKeys around directive).value.modifiers.HandlerFree := by
  simp only [modelKeys]
  split
  · exact ⟨by simp, by simp, Expr.isEventKey_string (by decide), by simp⟩
  · refine ⟨by simp, by simp, Expr.isEventKey_madeLiteral ?_, by simp⟩
    rw [String.toList_append]
    exact List.IsPrefix.trans (by decide) (List.prefix_append _ _)
  · exact ⟨by simp, by simp, Expr.isEventKey_of_unknown rfl, by simp⟩

theorem orderly_componentModel (directive : Directive) (free : model.HandlerFree) :
    (Contribution.entries (componentModel around directive model).value).Orderly := by
  obtain ⟨value, event, named, modifiers⟩ := @modelKeys_isEventKey around directive
  have assigned : Entry.Orderly ((modelKeys around directive).value.event,
      assign around model (.source "$event")) :=
    orderly_assign free (Expr.handlerFree_source "$event") event named
  simp only [componentModel, Reported.value_bind, Reported.value_pure, Orderly,
    List.forall_mem_cons]
  refine ⟨Entry.orderly_of_handlerFree value free, assigned, ?_⟩
  split
  · exact List.forall_mem_nil _
  · exact List.forall_mem_singleton.2
      (Entry.orderly_of_handlerFree modifiers (handlerFree_modifiersObject _))

theorem orderly_pair {property event : String} {shown value : Expr} (free : model.HandlerFree)
    (plain : shown.HandlerFree) (given : value.HandlerFree)
    (begins : "on".toList <+: event.toList) :
    (Contribution.entries
      [(.string property, shown), (.string event, assign around model value)]).Orderly := by
  simp only [Orderly, List.forall_mem_cons]
  exact ⟨Entry.orderly_of_handlerFree (Expr.handlerFree_string _) plain,
    orderly_assign free given (Expr.handlerFree_string _) (Expr.isEventKey_string begins),
    List.forall_mem_nil _⟩

theorem orderly_textModel (directive : Directive) (free : model.HandlerFree) :
    (Contribution.entries (textModel around directive model)).Orderly := by
  refine orderly_pair free free (by simp) ?_
  split <;> decide

theorem orderly_selectModel (properties : Properties) (directive : Directive)
    (free : model.HandlerFree) :
    (Contribution.entries (selectModel around properties directive model)).Orderly := by
  refine orderly_pair free free ?_ (by decide)
  split <;> simp

theorem handlerFree_setValue (properties : Properties) (name : String) :
    ∀ value, (setValue? around properties name).value = some value → value.HandlerFree := by
  simp only [setValue?]
  split
  · rintro value ⟨⟩
  · next given _ =>
    simp only [Reported.value_pure, Option.some.injEq, forall_eq']
    cases given.value <;> simp
  · split
    · rintro value ⟨⟩
    · simp

theorem handlerFree_radioValue (properties : Properties) :
    ((setValue? around properties "value").value.getD (.source "undefined")).HandlerFree := by
  cases given : (setValue? around properties "value").value with
  | none => simp
  | some value => exact handlerFree_setValue properties "value" value given

theorem orderly_inputModel (properties : Properties) (directive : Directive)
    (free : model.HandlerFree) :
    ∀ found, (inputModel around properties directive model).value = some found →
      (Contribution.entries found).Orderly := by
  simp only [inputModel]
  split
  · rintro found ⟨⟩
  · split
    · rintro found ⟨⟩
      exact orderly_pair free free (by simp) (by decide)
    · split
      · have value := @handlerFree_radioValue around properties
        simp only [Reported.value_bind, Reported.value_pure, Option.some.injEq, forall_eq']
        exact orderly_pair free (by simp [free, value]) (by simp [value]) (by decide)
      · rintro found ⟨⟩
        exact orderly_textModel directive free

theorem orderly_elementModel (element : Element) (directive : Directive)
    (free : model.HandlerFree) :
    ∀ found, (elementModel around element directive model).value = some found →
      (Contribution.entries found).Orderly := by
  simp only [elementModel]
  split
  · exact orderly_inputModel element.properties directive free
  · split
    · rintro found ⟨⟩
      exact orderly_textModel directive free
    · split
      · rintro found ⟨⟩
        exact orderly_selectModel element.properties directive free
      · rintro found ⟨⟩

variable (around)

theorem orderly_ofModel (element : Element) (directive : Directive) :
    (ofModel around element directive).value.Orderly := by
  simp only [ofModel]
  split
  · trivial
  · trivial
  · next value _ _ =>
    have free := around.handlerFree_resolve (Text.trim value.content.raw) value.span
    split
    · trivial
    · simp only [Reported.value_bind]
      split
      · exact orderly_componentModel directive free
      · split
        · trivial
        · simp only [Reported.value_bind]
          split
          · next found given => exact orderly_elementModel element directive free found given
          · trivial

end Contribution

theorem orderly_plainContribution (around : Surroundings) (element : Element)
    (property : Property) : (plainContribution around element property).value.Orderly := by
  cases property with
  | attr given => exact Contribution.orderly_ofAttribute element.tag given
  | dir directive =>
    simp only [plainContribution]
    split
    · trivial
    · split
      · trivial
      · exact Contribution.orderly_ofBind around directive

theorem handlerFree_mergeValues {existing incoming : Expr} (old : existing.HandlerFree)
    (new : incoming.HandlerFree) : (mergeValues existing incoming).HandlerFree := by
  simp only [mergeValues]
  split
  · next items =>
    rw [Expr.handlerFree_array] at old ⊢
    exact List.forall_mem_append.2 ⟨old, List.forall_mem_singleton.2 new⟩
  · simp [old, new]

theorem orderly_mergeValues {existing incoming : Expr} (old : existing.Orderly)
    (new : incoming.Orderly) : (mergeValues existing incoming).Orderly := by
  simp only [mergeValues]
  split
  · next items =>
    rw [Expr.orderly_array] at old ⊢
    exact List.forall_mem_append.2 ⟨old, List.forall_mem_singleton.2 new⟩
  · simp [old, new]

theorem orderly_dedupe {entries : List Entry} (given : ∀ entry ∈ entries, Entry.Orderly entry) :
    (Expr.props (dedupe entries)).Orderly := by
  refine (Expr.orderly_props _).2 (forall_dedupe ?_ given)
  intro old new name named again first second
  refine ⟨first.key, orderly_mergeValues first.value second.value, ?_⟩
  rcases first.named with oldFree | event
  · rcases second.named with newFree | event
    · exact .inl (handlerFree_mergeValues oldFree newFree)
    · refine .inr fun other known => ?_
      cases named.symm.trans known
      exact event name again
  · exact .inr event

/-- All handlers in the properties collected so far are in their places. -/
structure Collection.Orderly (collection : Collection) : Prop where
  pending : ∀ entry ∈ collection.pending, Entry.Orderly entry
  merged : ∀ expr ∈ collection.merged, expr.Orderly

namespace Collection

variable {collection : Collection}

theorem Orderly.flush (orderly : collection.Orderly) : collection.flush.Orderly := by
  simp only [Collection.flush]
  split
  · exact orderly
  · exact ⟨List.forall_mem_nil _, List.forall_mem_append.2
      ⟨orderly.merged, List.forall_mem_singleton.2 (orderly_dedupe orderly.pending)⟩⟩

theorem Orderly.add (isComponent : Bool) {contribution : Contribution}
    (orderly : collection.Orderly) (new : contribution.Orderly) :
    (collection.add isComponent contribution).Orderly := by
  cases contribution with
  | nothing => exact orderly
  | fixed name value =>
    exact ⟨List.forall_mem_append.2 ⟨orderly.pending, List.forall_mem_singleton.2
      (Entry.orderly_of_handlerFree (Expr.handlerFree_string name) new)⟩, orderly.merged⟩
  | entries added =>
    exact ⟨List.forall_mem_append.2 ⟨orderly.pending, new⟩, orderly.merged⟩
  | spread value =>
    exact ⟨orderly.flush.pending, List.forall_mem_append.2
      ⟨orderly.flush.merged, List.forall_mem_singleton.2 (Expr.HandlerFree.orderly new)⟩⟩

theorem Orderly.expr (orderly : collection.Orderly) : ∀ props ∈ collection.expr?, props.Orderly := by
  have merged := orderly.flush.merged
  simp only [expr?]
  split
  · rintro props ⟨⟩
  · next only same =>
    rintro props ⟨⟩
    exact merged only (by simp [same])
  · rintro props ⟨⟩
    exact (Expr.orderly_call _ _).2 merged

end Collection

theorem props_lowerElement (around : Surroundings) (table : Table) (element : Element)
    (children : List NodeId) : (lowerElement around table element children).value.props =
      (collectedProperties around element).expr? := by
  rw [lowerElement]
  split
  · exact congrArg LoweredProperties.props (value_lowerProperties around element)
  · exact congrArg LoweredProperties.props (value_lowerProperties around element)

theorem orderly_lowerElement (around : Surroundings) (table : Table) (element : Element)
    (children : List NodeId) :
    ∀ props ∈ (lowerElement around table element children).value.props, props.Orderly := by
  have collected : (collectedProperties around element).Orderly := by
    refine collectedProperties_of ⟨List.forall_mem_nil _, List.forall_mem_nil _⟩
      (fun orderly new => orderly.add _ new) ?_ ?_ ?_
    · exact orderly_plainContribution around element
    · exact Contribution.orderly_ofListener around
    · exact Contribution.orderly_ofModel around element
  rw [props_lowerElement]
  exact collected.expr

theorem Conditional.orderly_addKey (key : Nat) {props : Option Expr}
    (orderly : ∀ given ∈ props, given.Orderly) : (addKey key props).Orderly := by
  have keyed : Entry.Orderly (.string "key", .number key) :=
    Entry.orderly_of_handlerFree (Expr.handlerFree_string _) (Expr.handlerFree_number _)
  cases props with
  | none => simpa [addKey] using keyed
  | some given =>
    have whole := orderly given rfl
    simp only [addKey]
    split
    · next none => cases none
    · next entries same =>
      cases same
      exact (Expr.orderly_props _).2
        (List.forall_mem_cons.2 ⟨keyed, (Expr.orderly_props entries).1 whole⟩)
    · next entries args same =>
      cases same
      simpa [keyed] using whole
    · next args _ same =>
      cases same
      simpa [keyed] using whole
    · next same =>
      cases same
      simpa [keyed] using whole

theorem Role.orderly_finish (role : Role) (properties : Properties) {vnode : VNode}
    (orderly : ∀ props ∈ vnode.props, props.Orderly) :
    ∀ props ∈ (role.finish properties vnode).props, props.Orderly := by
  cases role with
  | child | item | root => exact orderly
  | branch key =>
    simp only [finish]
    split
    · exact orderly
    · rintro props ⟨⟩
      exact Conditional.orderly_addKey key orderly

namespace Expr

theorem isHandler_assignCells (expr : Expr) (next : Nat) (own : expr.isHandler = false) :
    (expr.assignCells next).1.isHandler = false := by
  cases expr with
  | handler => cases own
  | _ => simp [assignCells, isHandler]

theorem HandlerFree.assignCells {expr : Expr} (free : expr.HandlerFree) (next : Nat) :
    (expr.assignCells next).1.HandlerFree :=
  every_assignCells isHandler_assignCells next free

theorem places_assignCellsEntries (next : Nat) (entries : List Entry)
    (own : (props entries).Places) : (props (assignCellsEntries next entries).1).Places := by
  induction entries generalizing next with
  | nil => exact own
  | cons entry rest ih =>
    obtain ⟨⟨key, named⟩, others⟩ := List.forall_mem_cons.1 own
    exact List.forall_mem_cons.2
      ⟨⟨key, named.imp_left fun free => free.assignCells next⟩, ih _ others⟩

theorem places_assignCells (expr : Expr) (next : Nat) (own : expr.Places) :
    (expr.assignCells next).1.Places := by
  cases expr with
  | handler body traits =>
    rw [assignCells]
    split <;> exact own
  | props entries => exact places_assignCellsEntries next entries own
  | _ => simp [assignCells, Places]

/-- Handing out cells moves no handler. -/
theorem Orderly.assignCells {expr : Expr} (orderly : expr.Orderly) (next : Nat) :
    (expr.assignCells next).1.Orderly :=
  every_assignCells places_assignCells next orderly

end Expr

end TemplateCompiler
