import TemplateCompiler.Proofs.HandlerPlaces
import TemplateCompiler.Proofs.MergedEntries
import TemplateCompiler.Proofs.NamedArguments

/-! The entries that are contributed to properties. None of their values is a list, and handlers are
under keys whose values are merged: whatever an event is called, `on` and its name with a capital is
the key of an event. -/

namespace TemplateCompiler

namespace Text

theorem isLower_iff (c : Char) : c.isLower = true ↔ 97 ≤ c.toNat ∧ c.toNat ≤ 122 := by
  unfold Char.isLower
  simp only [Bool.and_eq_true, decide_eq_true_eq, ge_iff_le, UInt32.le_iff_toNat_le]
  exact Iff.rfl

theorem not_isLower_ofNat {code : Nat} (outside : code < 97 ∨ 122 < code) :
    (Char.ofNat code).isLower = false := by
  rw [← Bool.not_eq_true, isLower_iff]
  unfold Char.ofNat
  by_cases valid : code.isValidChar
  · have same : (Char.ofNatAux code valid).toNat = code := rfl
    rw [dif_pos valid]
    omega
  · rw [dif_neg valid]
    decide

theorem not_isLower_toUpper {c : Char} (ascii : c.toNat < 0x80) : c.toUpper.isLower = false := by
  have all : ∀ code < 0x80, (Char.ofNat code).toUpper.isLower = false := by decide
  rw [← Char.ofNat_toNat c]
  exact all c.toNat ascii

theorem caseExpansions_apart : caseExpansions.all (fun expansion =>
    expansion.2.head?.any fun first => first < 97 || 122 < first) = true := by
  decide +kernel

theorem caseRuns_apart : caseRuns.all (fun run =>
    122 < run.upper || run.upper + (run.last - run.first) < 97) = true := by
  decide +kernel

/-- The upper case form of a character begins with no lower case ASCII letter. -/
theorem upperCase_cases (c : Char) : ∃ first rest, upperCase c = first :: rest ∧
    first.isLower = false := by
  unfold upperCase
  split
  · next ascii => exact ⟨_, _, rfl, not_isLower_toUpper ascii⟩
  · next beyond =>
    split
    · next codes found =>
      obtain ⟨front, back, listed, -⟩ := List.lookup_eq_some_iff.1 found
      have member : (c.toNat, codes) ∈ caseExpansions := by simp [listed]
      have apart := List.all_eq_true.1 caseExpansions_apart _ member
      cases codes with
      | nil => cases apart
      | cons first rest =>
        exact ⟨_, _, rfl, not_isLower_ofNat (by simpa using apart)⟩
    · split
      · next run found =>
        have apart := List.all_eq_true.1 caseRuns_apart _ (List.mem_of_find?_eq_some found)
        have covers := List.find?_some found
        simp only [CaseRun.covers, Bool.and_eq_true, Bool.or_eq_true, decide_eq_true_eq] at covers apart
        exact ⟨_, _, rfl, not_isLower_ofNat (by omega)⟩
      · refine ⟨c, [], rfl, ?_⟩
        rw [← Bool.not_eq_true, isLower_iff]
        omega

theorem capitalize_cases {text : List Char} (present : text ≠ []) :
    ∃ first rest, capitalize text = first :: rest ∧ first.isLower = false := by
  cases text with
  | nil => exact absurd rfl present
  | cons c rest =>
    obtain ⟨first, more, same, apart⟩ := upperCase_cases c
    exact ⟨first, more ++ rest, by rw [capitalize, same]; rfl, apart⟩

theorem camelCase_ne_nil {text : List Char} (present : text ≠ []) : camelCase text ≠ [] := by
  fun_cases camelCase text with
  | case4 => exact absurd rfl present
  | _ => simp

end Text

theorem Name.isEventKey_of_chars {name : String} {first : Char} {rest : List Char}
    (chars : name.toList = 'o' :: 'n' :: first :: rest) (apart : first.isLower = false) :
    Name.isEventKey name = true := by
  rw [isEventKey, chars]
  simpa using apart

def Expr.Merges (key : Expr) : Prop :=
  ∀ name, key.staticKey? = some name → Name.isMergeable name = true

namespace Expr

theorem merges_of_unknown {key : Expr} (unknown : key.staticKey? = none) : key.Merges := by
  intro name known
  rw [unknown] at known
  cases known

theorem merges_of_event {key : Expr} {name : String} (known : key.staticKey? = some name)
    (event : Name.isEventKey name = true) : key.Merges := by
  intro other same
  cases known.symm.trans same
  simp [Name.isMergeable, event]

end Expr

/-- Merging loses nothing of an entry: its value is no list, and if there is a handler in it, the
values under its key are merged. -/
structure Entry.Merges (entry : Entry) : Prop where
  single : entry.2.isArray = false
  merged : entry.2.HandlerFree ∨ entry.1.Merges

namespace Expr

/-- Neither a list nor an object nor a call. -/
def isTerm : Expr → Bool
  | array _ | props _ | call _ _ => false
  | _ => true

theorem isArray_of_isTerm {expr : Expr} (term : expr.isTerm = true) : expr.isArray = false := by
  cases expr with
  | array => cases term
  | _ => rfl

theorem isTerm_resolve (scope : Scope) (locals : List String) (raw : String) (span : Span)
    (reader : ScriptReader) : (resolve scope locals raw span reader).value.isTerm = true := by
  have named (name : String) : (resolveName scope locals name).isTerm = true := by
    simp only [resolveName]
    repeat' split
    all_goals rfl
  simp only [resolve]
  split
  · rfl
  · split
    · exact named _
    · split
      · rw [value_resolveIn]
        unfold Resolving.finish
        split
        · rfl
        · rfl
      · rfl

theorem isTerm_resolveValue (around : Surroundings) (value : Value) :
    (around.resolveValue value).value.isTerm = true :=
  isTerm_resolve around.scope [] value.content.raw value.span around.reader

end Expr

namespace Contribution

def added : Contribution → List Entry
  | .fixed name value => [(.string name, value)]
  | .entries given => given
  | .spread _ | .nothing => []

structure Merges (contribution : Contribution) : Prop where
  entries : ∀ entry ∈ contribution.added, entry.1.HandlerFree ∧ Entry.Merges entry
  spread : ∀ value, contribution = .spread value → value.HandlerFree

/-- Of entries with their handlers in place only values and the keys of handlers are in question. -/
theorem merges_of_orderly {contribution : Contribution} (orderly : contribution.Orderly)
    (merged : ∀ entry ∈ contribution.added, Entry.Merges entry) : contribution.Merges := by
  refine ⟨fun entry member => ⟨?_, merged entry member⟩, ?_⟩
  · cases contribution with
    | fixed name value =>
      cases List.mem_singleton.1 member
      exact Expr.handlerFree_string name
    | entries listed => exact (orderly entry member).key
    | _ => cases member
  · rintro value rfl
    exact orderly

variable (around : Surroundings)

theorem plain_ofAttribute (tag : String) (given : Attribute) :
    ∀ entry ∈ (ofAttribute tag given).added,
      entry.2.HandlerFree ∧ entry.2.isArray = false := by
  simp only [ofAttribute]
  split
  · exact List.forall_mem_nil _
  · exact List.forall_mem_singleton.2 ⟨Expr.handlerFree_literal _, rfl⟩

theorem plain_ofBind (directive : Directive) :
    ∀ entry ∈ (ofBind around directive).value.added,
      entry.2.HandlerFree ∧ entry.2.isArray = false := by
  simp only [ofBind]
  split
  · simp only [Reported.value_bind]
    split
    · exact List.forall_mem_nil _
    · exact List.forall_mem_singleton.2 ⟨Expr.handlerFree_string "", rfl⟩
  · next value _ _ =>
    simp only [Reported.value_bind]
    split
    · exact List.forall_mem_nil _
    · refine List.forall_mem_singleton.2 ?_
      dsimp only
      exact ⟨around.handlerFree_resolveValue value,
        Expr.isArray_of_isTerm (Expr.isTerm_resolveValue around value)⟩
  · exact List.forall_mem_nil _

theorem eventName_ne_nil (modifiers : ListenerModifiers) {name : String} (present : name ≠ "") :
    (modifiers.eventName name).toList ≠ [] := by
  simp only [ListenerModifiers.eventName]
  repeat' split
  · simpa using present
  · decide
  · decide
  · simpa using present

theorem merges_listenerKey (directive : Directive) (modifiers : ListenerModifiers)
    {argument : Argument} (named : argument ≠ .static "") :
    (listenerKey around directive modifiers argument).value.Merges := by
  cases argument with
  | static name =>
    have present : name ≠ "" := fun same => named (congrArg Argument.static same)
    obtain ⟨first, rest, chars, apart⟩ := Text.capitalize_cases
      (Text.camelCase_ne_nil (eventName_ne_nil modifiers present))
    have key : (({ raw := modifiers.eventName name } : Phrase).asHandlerKey.camelCased).text.toList =
        'o' :: 'n' :: first :: rest := by
      simp [Phrase.text, Phrase.asHandlerKey, Phrase.camelCased, Edits.apply, Edits.applyIf, chars]
    simp only [listenerKey, Reported.value_pure]
    split
    · exact Expr.merges_of_event rfl (Name.isEventKey_of_chars key apart)
    · refine Expr.merges_of_event rfl
        (@Name.isEventKey_of_chars _ first (rest ++ modifiers.suffix.toList) ?_ apart)
      rw [String.toList_append, key]
      rfl
  | dynamic expression =>
    simp only [listenerKey, Reported.value_bind, Reported.value_pure]
    split <;> exact Expr.merges_of_unknown rfl

theorem isArray_guard (modifiers : ListenerModifiers) (event : Option String) {handler : Expr}
    (single : handler.isArray = false) : (modifiers.guard event handler).isArray = false := by
  cases handler with
  | array => cases single
  | _ => rfl

theorem isArray_ofValue (value : Value) : (Handler.ofValue around value).value.isArray = false := by
  simp only [Handler.ofValue]
  split
  · rfl
  · rfl
  · split <;> rfl

theorem merges_ofListener {directive : Directive} (named : directive.Named) :
    (ofListener around directive).value.Merges := by
  refine merges_of_orderly (orderly_ofListener around directive) ?_
  have listened (argument : Argument) (given : directive.argument = some argument) :
      ∀ entry ∈ (listener around directive argument).value.added, Entry.Merges entry := by
    have key := merges_listenerKey around directive
      (.ofList argument.staticName? directive.modifiers) fun same => named (same ▸ given)
    have idle : (listener.idle around).isArray = false := rfl
    simp only [listener, Reported.value_bind]
    split
    · split
      · exact List.forall_mem_singleton.2 ⟨isArray_guard _ _ idle, .inr key⟩
      · refine List.forall_mem_singleton.2 ⟨?_, .inr key⟩
        dsimp only
        exact isArray_guard _ _ (isArray_ofValue around _)
    · exact List.forall_mem_singleton.2 ⟨isArray_guard _ _ idle, .inr key⟩
  simp only [ofListener]
  split
  · split <;> exact List.forall_mem_nil _
  · next argument given =>
    split
    · split <;> exact listened argument given
    · exact listened argument given

variable {around} {model : Expr}

theorem merges_componentModel (directive : Directive) (free : model.HandlerFree)
    (single : model.isArray = false) :
    ∀ entry ∈ (componentModel around directive model).value, Entry.Merges entry := by
  have event : (modelKeys around directive).value.event.Merges := by
    simp only [modelKeys]
    split
    · exact Expr.merges_of_event rfl (by decide)
    · next name _ =>
      refine Expr.merges_of_event rfl (@Name.isEventKey_of_chars _ 'U' ("pdate:" ++ name).toList ?_
        (by decide))
      simp
    · exact Expr.merges_of_unknown rfl
  simp only [componentModel, Reported.value_bind, Reported.value_pure, List.forall_mem_cons]
  refine ⟨⟨single, .inl free⟩, ⟨rfl, .inr event⟩, ?_⟩
  split
  · exact List.forall_mem_nil _
  · exact List.forall_mem_singleton.2 ⟨rfl, .inl (handlerFree_modifiersObject _)⟩

theorem merges_pair {property event : String} {shown value : Expr} (plain : shown.HandlerFree)
    (single : shown.isArray = false) (isEvent : Name.isEventKey event = true) :
    ∀ entry ∈ [((.string property, shown) : Entry), (.string event, assign around model value)],
      Entry.Merges entry := by
  have key : (Expr.string event).Merges :=
    Expr.merges_of_event (Option.some_inj.2 (Phrase.text_raw event)) isEvent
  simp only [List.forall_mem_cons]
  exact ⟨⟨single, .inl plain⟩, ⟨rfl, .inr key⟩, List.forall_mem_nil _⟩

theorem merges_textModel (directive : Directive) (free : model.HandlerFree)
    (single : model.isArray = false) :
    ∀ entry ∈ textModel around directive model, Entry.Merges entry := by
  refine merges_pair free single ?_
  split <;> decide

theorem merges_inputModel (properties : Properties) (directive : Directive)
    (free : model.HandlerFree) (single : model.isArray = false) :
    ∀ found, (inputModel around properties directive model).value = some found →
      ∀ entry ∈ found, Entry.Merges entry := by
  simp only [inputModel]
  split
  · rintro found ⟨⟩
  · split
    · rintro found ⟨⟩
      exact merges_pair free single (by decide)
    · split
      · have value := @handlerFree_radioValue around properties
        simp only [Reported.value_bind, Reported.value_pure, Option.some.injEq, forall_eq']
        exact merges_pair (by simp [free, value]) rfl (by decide)
      · rintro found ⟨⟩
        exact merges_textModel directive free single

theorem merges_elementModel (element : Element) (directive : Directive)
    (free : model.HandlerFree) (single : model.isArray = false) :
    ∀ found, (elementModel around element directive model).value = some found →
      ∀ entry ∈ found, Entry.Merges entry := by
  simp only [elementModel]
  split
  · exact merges_inputModel element.properties directive free single
  · split
    · rintro found ⟨⟩
      exact merges_textModel directive free single
    · split
      · rintro found ⟨⟩
        exact merges_pair free single (by decide)
      · rintro found ⟨⟩

variable (around)

theorem merges_ofModel (element : Element) (directive : Directive) :
    (ofModel around element directive).value.Merges := by
  refine merges_of_orderly (orderly_ofModel around element directive) ?_
  simp only [ofModel]
  split
  · exact List.forall_mem_nil _
  · exact List.forall_mem_nil _
  · next value _ _ =>
    have free := around.handlerFree_resolve (Text.trim value.content.raw) value.span
    have single := Expr.isArray_of_isTerm
      (Expr.isTerm_resolve around.scope [] (Text.trim value.content.raw) value.span around.reader)
    split
    · exact List.forall_mem_nil _
    · simp only [Reported.value_bind]
      split
      · exact merges_componentModel directive free single
      · split
        · exact List.forall_mem_nil _
        · simp only [Reported.value_bind]
          split
          · next found given => exact merges_elementModel element directive free single found given
          · exact List.forall_mem_nil _

end Contribution

theorem plain_plainContribution (around : Surroundings) (element : Element) (property : Property) :
    ∀ entry ∈ (plainContribution around element property).value.added,
      entry.2.HandlerFree ∧ entry.2.isArray = false := by
  cases property with
  | attr given => exact Contribution.plain_ofAttribute element.tag given
  | dir directive =>
    simp only [plainContribution]
    split
    · exact List.forall_mem_nil _
    · split
      · exact List.forall_mem_nil _
      · exact Contribution.plain_ofBind around directive

/-- Merging loses no handler of an element. -/
theorem merges_contributions (around : Surroundings) {element : Element}
    (named : (Content.element element).Named) :
    ∀ contribution ∈ contributions around element, contribution.Merges := by
  intro contribution member
  simp only [contributions, List.mem_append, List.mem_map] at member
  rcases member with (⟨property, _, rfl⟩ | ⟨directive, listed, rfl⟩) | ⟨directive, _, rfl⟩
  · refine Contribution.merges_of_orderly (orderly_plainContribution around element property) ?_
    intro entry inside
    have plain := plain_plainContribution around element property entry inside
    exact ⟨plain.2, .inl plain.1⟩
  · refine Contribution.merges_ofListener around (named directive ?_)
    obtain ⟨property, given, same⟩ := List.mem_filterMap.1 (List.mem_filter.1 listed).1
    cases property with
    | attr => cases same
    | dir other =>
      cases same
      exact given
  · exact Contribution.merges_ofModel around element directive

end TemplateCompiler
