import TemplateCompiler.Proofs.MergedObjects

/-! The names in the objects of an element, told by what its properties contribute. For the name `key`
this is compared with what the directives of the element say: both agree unless a key is marked, is
missing its value, or is that of a model. -/

namespace TemplateCompiler

/-- The names in each of the objects that properties are merged from, as far as it is written out. -/
def objectNames (props : Option Expr) : List (Option (List String)) :=
  (Expr.objects props).map fun object => object.entries?.map staticNames

theorem staticNames_withoutCells (entries : List Entry) :
    staticNames (Expr.withoutCellsEntries entries) = staticNames entries := by
  rw [Expr.withoutCellsEntries_eq, staticNames, List.filterMap_map]
  rfl

theorem objectNames_congr {first second : Option Expr}
    (same : first.map Expr.withoutCells = second.map Expr.withoutCells) :
    objectNames first = objectNames second := by
  have erased (props : Option Expr) :
      objectNames (props.map Expr.withoutCells) = objectNames props := by
    rw [objectNames, Expr.objects_withoutCells, List.map_map]
    refine List.map_congr_left fun object _ => ?_
    rw [Function.comp_apply, Expr.entries?_withoutCells, Option.map_map]
    exact Option.map_congr fun entries _ => staticNames_withoutCells entries
  rw [← erased first, same, erased]

/-- Merging entries loses no name and adds none. -/
theorem mem_staticNames_dedupe {name : String} {entries : List Entry} :
    name ∈ staticNames (dedupe entries) ↔ name ∈ staticNames entries := by
  have added (done : List Entry) (entry : Entry) : name ∈ staticNames (addEntry done entry) ↔
      name ∈ staticNames done ∨ name ∈ staticNames [entry] := by
    rcases addEntry_cases done entry with ⟨-, same⟩ | ⟨other, named, known, ⟨-, same⟩ | ⟨-, same⟩⟩
    · rw [same, staticNames_append, List.mem_append]
    · rw [same, staticNames_mergedUnder, staticNames_cons named]
      simp only [staticNames, List.filterMap_nil, List.mem_singleton]
      exact ⟨.inl, fun either => either.elim id fun equal => equal ▸ known⟩
    · rw [same, staticNames_cons named]
      simp only [staticNames, List.filterMap_nil, List.mem_singleton]
      exact ⟨.inl, fun either => either.elim id fun equal => equal ▸ known⟩
  suffices collected : ∀ done, name ∈ staticNames (entries.foldl addEntry done) ↔
      name ∈ staticNames done ∨ name ∈ staticNames entries from
    (collected []).trans (or_iff_right List.not_mem_nil)
  induction entries with
  | nil => simp [staticNames]
  | cons entry rest ih =>
    intro done
    have split : staticNames (entry :: rest) = staticNames [entry] ++ staticNames rest :=
      @staticNames_append [entry] rest
    rw [List.foldl_cons, ih, added, split, List.mem_append, or_assoc]

def contributedNames (around : Surroundings) (element : Element) : List String :=
  (contributions around element).flatMap fun contribution => staticNames contribution.added

/-- The names of the entries in front of the first object that is spread. -/
def leadingNames (around : Surroundings) (element : Element) : List String :=
  ((contributions around element).takeWhile (·.spread?.isNone)).flatMap fun contribution =>
    staticNames contribution.added

namespace Collection

variable {collection : Collection} {contribution : Contribution} {name : String}

/-- The name is in an object that is written out, or is going to be. -/
def Knows (collection : Collection) (name : String) : Prop :=
  (∃ object ∈ collection.merged, ∃ entries ∈ object.entries?, name ∈ staticNames entries) ∨
    name ∈ staticNames collection.pending

theorem knows_flush : collection.flush.Knows name ↔ collection.Knows name := by
  unfold flush
  split
  · rfl
  · have written : name ∉ staticNames [] := List.not_mem_nil
    simp only [Knows, written, or_false, List.mem_append, List.mem_singleton]
    constructor
    · rintro ⟨object, early | rfl, entries, given, known⟩
      · exact .inl ⟨object, early, entries, given, known⟩
      · cases given
        exact .inr (mem_staticNames_dedupe.1 known)
    · rintro (⟨object, early, entries, given, known⟩ | pending)
      · exact ⟨object, .inl early, entries, given, known⟩
      · exact ⟨_, .inr rfl, _, rfl, mem_staticNames_dedupe.2 pending⟩

theorem knows_iff : collection.Knows name ↔ ∃ object ∈ collection.flush.merged,
    ∃ entries ∈ object.entries?, name ∈ staticNames entries := by
  rw [← knows_flush, Knows, pending_flush]
  exact or_iff_left List.not_mem_nil

theorem knows_add (isComponent : Bool) (new : ∀ value ∈ contribution.spread?,
    value.entries? = none) : (collection.add isComponent contribution).Knows name ↔
      collection.Knows name ∨ name ∈ staticNames contribution.added := by
  cases contribution with
  | spread value =>
    have unwritten := new value rfl
    have absent : name ∉ staticNames [] := List.not_mem_nil
    rw [Contribution.added, ← @knows_flush collection]
    simp only [Knows, add, absent, or_false, List.mem_append, List.mem_singleton]
    constructor
    · rintro (⟨object, early | rfl, entries, given, known⟩ | pending)
      · exact .inl ⟨object, early, entries, given, known⟩
      · rw [unwritten] at given
        cases given
      · exact .inr pending
    · rintro (⟨object, early, entries, given, known⟩ | pending)
      · exact .inl ⟨object, .inl early, entries, given, known⟩
      · exact .inr pending
  | nothing => exact (or_iff_left List.not_mem_nil).symm
  | fixed | entries =>
    simp only [Knows, add, Contribution.added, staticNames_append, List.mem_append, or_assoc]

theorem knows_foldl (isComponent : Bool) {contributions : List Contribution}
    (new : ∀ contribution ∈ contributions, ∀ value ∈ contribution.spread?,
      value.entries? = none) : (contributions.foldl (add isComponent) collection).Knows name ↔
      collection.Knows name ∨
        name ∈ contributions.flatMap fun contribution => staticNames contribution.added := by
  induction contributions generalizing collection with
  | nil => simp
  | cons contribution rest ih =>
    obtain ⟨own, others⟩ := List.forall_mem_cons.1 new
    rw [List.foldl_cons, ih others, knows_add isComponent own, List.flatMap_cons, List.mem_append,
      or_assoc]

/-- Objects that are merged stay in front. -/
theorem prefix_foldl (isComponent : Bool) (contributions : List Contribution) :
    collection.merged <+: (contributions.foldl (add isComponent) collection).flush.merged := by
  have flushed (collection : Collection) : collection.merged <+: collection.flush.merged := by
    rcases @merged_flush collection with same | same
    · exact ⟨[], by rw [same, List.append_nil]⟩
    · exact ⟨_, same.symm⟩
  induction contributions generalizing collection with
  | nil => exact flushed collection
  | cons contribution rest ih =>
    refine List.IsPrefix.trans ?_ ih
    cases contribution with
    | spread => exact (flushed collection).trans (List.prefix_append _ _)
    | _ => exact List.prefix_refl _

/-- The entries of the first object, if it is written out. -/
def leading? (collection : Collection) : Option (List Entry) :=
  collection.flush.merged.head?.bind Expr.entries?

theorem leading?_of_bare (bare : collection.merged = []) : collection.leading? =
    if collection.pending.isEmpty then none else some (dedupe collection.pending) := by
  rw [leading?, flush]
  split
  · rw [bare]
    rfl
  · rw [bare]
    rfl

/-- The first object is written out just if entries come in front of all that is spread. -/
theorem leading?_foldl (isComponent : Bool) {contributions : List Contribution}
    (new : ∀ contribution ∈ contributions, ∀ value ∈ contribution.spread?, value.entries? = none)
    (bare : collection.merged = []) {entries : List Entry}
    (given : collection.pending ++
      (contributions.takeWhile (·.spread?.isNone)).flatMap Contribution.added = entries) :
    (contributions.foldl (add isComponent) collection).leading? =
      if entries.isEmpty then none else some (dedupe entries) := by
  induction contributions generalizing collection with
  | nil =>
    rw [List.takeWhile_nil, List.flatMap_nil, List.append_nil] at given
    rw [← given]
    exact leading?_of_bare bare
  | cons contribution rest ih =>
    obtain ⟨own, others⟩ := List.forall_mem_cons.1 new
    cases contribution with
    | spread value =>
      rw [List.takeWhile_cons_of_neg (by simp [Contribution.spread?]), List.flatMap_nil,
        List.append_nil] at given
      rw [← given, ← leading?_of_bare bare]
      obtain ⟨later, same⟩ := @prefix_foldl (collection.add isComponent (.spread value)) isComponent rest
      rw [leading?, List.foldl_cons, ← same, leading?, add]
      cases collection.flush.merged with
      | nil => exact own value rfl
      | cons => rfl
    | _ =>
      rw [List.takeWhile_cons_of_pos (by simp [Contribution.spread?]), List.flatMap_cons,
        ← List.append_assoc] at given
      refine @ih (collection.add isComponent _) others bare ?_
      simpa [add, Contribution.added] using given

end Collection

section Elements

variable (around : Surroundings) (element : Element)

/-- What is spread is not written out. -/
theorem unwritten_contributions : ∀ contribution ∈ contributions around element,
    ∀ value ∈ contribution.spread?, value.entries? = none := by
  intro contribution member value spread
  rcases spread?_contributions around element contribution member value spread with
    term | ⟨given, rfl⟩
  · exact Expr.entries?_of_isTerm term
  · rfl

theorem mem_contributedNames {name : String} : name ∈ contributedNames around element ↔
    ∃ names, some names ∈ objectNames (collectedProperties around element).expr? ∧ name ∈ names := by
  have known := @Collection.knows_foldl {} name (element.kind = .component) _
    (unwritten_contributions around element)
  have empty : ¬ ({} : Collection).Knows name := by simp [Collection.Knows, staticNames]
  have shaped := (collectedProperties_objects around element).1
  rw [or_iff_right empty] at known
  refine known.symm.trans (Collection.knows_iff.trans ?_)
  change (∃ object ∈ (collectedProperties around element).flush.merged, _) ↔ _
  rw [← Collection.objects_expr? shaped, objectNames]
  constructor
  · rintro ⟨object, member, entries, given, listed⟩
    refine ⟨staticNames entries, List.mem_map.2 ⟨object, member, ?_⟩, listed⟩
    rw [Option.mem_def.1 given, Option.map_some]
  · rintro ⟨names, member, listed⟩
    obtain ⟨object, inside, same⟩ := List.mem_map.1 member
    obtain ⟨entries, given, rfl⟩ := Option.map_eq_some_iff.1 same
    exact ⟨object, inside, entries, given, listed⟩

/-- A name is in the first object just if an entry with it is in front of all that is spread. -/
theorem mem_leadingNames {name : String} : name ∈ leadingNames around element ↔
    ∃ names, (objectNames (collectedProperties around element).expr?).head? = some (some names) ∧
      name ∈ names := by
  have shaped := (collectedProperties_objects around element).1
  have leading := @Collection.leading?_foldl {} (element.kind = .component) _
    (unwritten_contributions around element) rfl _ rfl
  have names : leadingNames around element = staticNames
      (((contributions around element).takeWhile (·.spread?.isNone)).flatMap Contribution.added) := by
    rw [leadingNames, staticNames, List.filterMap_flatMap]
    rfl
  have first : (objectNames (collectedProperties around element).expr?).head?.join =
      ((collectedProperties around element).leading?).map staticNames := by
    rw [objectNames, Collection.objects_expr? shaped, Collection.leading?, List.head?_map]
    cases (collectedProperties around element).flush.merged.head? <;> rfl
  simp only [← Option.join_eq_some_iff]
  rw [names, first, collectedProperties, leading, List.nil_append]
  generalize ((contributions around element).takeWhile (·.spread?.isNone)).flatMap
    Contribution.added = entries
  split
  · next empty => simp [List.isEmpty_iff.1 empty, staticNames]
  · simp [mem_staticNames_dedupe]

/-- In no object is a name twice. -/
theorem nodup_objectNames : ∀ names, some names ∈
    objectNames (collectedProperties around element).expr? → names.Nodup := by
  have shaped := (collectedProperties_objects around element).1
  intro names member
  rw [objectNames, Collection.objects_expr? shaped] at member
  obtain ⟨object, inside, same⟩ := List.mem_map.1 member
  obtain ⟨entries, given, rfl⟩ := Option.map_eq_some_iff.1 same
  exact shaped.flush.distinct object inside entries given

end Elements

def Property.isMarked : Property → Bool
  | .attr _ => false
  | .dir directive => (Contribution.keyMark? directive).isSome

section Setters

variable (around : Surroundings) {element : Element}

theorem ofBind_entry {directive : Directive} {argument : Argument}
    (given : directive.argument = some argument) : ∃ value,
    (Contribution.ofBind around directive).value =
      .entries [((Contribution.boundKey around directive argument).value, value)] := by
  simp only [Contribution.ofBind]
  split
  · simp only [given, Reported.value_bind, Reported.value_pure]
    exact ⟨_, rfl⟩
  · simp only [given, Reported.value_bind, Reported.value_pure]
    exact ⟨_, rfl⟩
  · next empty missing =>
    rw [Directive.emptyProblem?, Directive.isEmpty, missing] at empty
    cases empty

theorem staticKey?_boundKey (directive : Directive) (name : String) :
    (Contribution.boundKey around directive (.static name)).value.staticKey? =
      some ((Contribution.keyMark? directive).getD "" ++
        (if directive.hasModifier "camel" then ({ raw := name } : Phrase).camelCased
          else { raw := name }).text) := by
  simp only [Contribution.boundKey]
  split <;> next mark same => simp [same, Expr.staticKey?]

/-- Camel case makes capitals, so it leaves a name of small letters alone. -/
theorem camelCase_eq_of_lower {text : List Char}
    (lower : ∀ c ∈ Text.camelCase text, c.isLower = true) : Text.camelCase text = text := by
  fun_induction Text.camelCase text with
  | case1 next rest alphanumeric ih =>
    have ascii : next.toNat < 0x80 := by
      unfold Char.isAlphanum Char.isAlpha Char.isUpper Char.isLower Char.isDigit at alphanumeric
      simp only [Bool.or_eq_true, Bool.and_eq_true, decide_eq_true_eq, ge_iff_le, UInt32.le_iff_toNat_le]
        at alphanumeric
      have same : next.val.toNat = next.toNat := rfl
      simp at alphanumeric
      omega
    have capital := lower next.toUpper List.mem_cons_self
    rw [Text.not_isLower_toUpper ascii] at capital
    cases capital
  | case2 next rest other ih => exact congrArg _ (ih (List.forall_mem_cons.1 lower).2)
  | case3 c rest apart ih => exact congrArg _ (ih (List.forall_mem_cons.1 lower).2)
  | case4 => rfl

/-- Just a name that is `key` itself is made `key`. -/
theorem boundKey_eq_key {directive : Directive} {name : String}
    (same : (Contribution.boundKey around directive (.static name)).value.staticKey? = some "key") :
    name = "key" ∧ Contribution.keyMark? directive = none := by
  rw [staticKey?_boundKey] at same
  have text := Option.some.inj same
  cases mark : Contribution.keyMark? directive with
  | some given =>
    rw [mark, Option.getD_some] at text
    have first := congrArg (·.toList.head?) text
    unfold Contribution.keyMark? at mark
    repeat' split at mark
    all_goals cases mark
    all_goals simp at first
  | none =>
    rw [mark, Option.getD_none, String.empty_append] at text
    refine ⟨?_, rfl⟩
    split at text
    · have chars : Text.camelCase name.toList = "key".toList := by
        rw [← text]
        simp [Phrase.text, Phrase.camelCased, Edits.apply, Edits.applyIf]
      have lower : ∀ c ∈ Text.camelCase name.toList, c.isLower = true := by
        rw [chars]
        exact List.all_eq_true.1 (by decide)
      exact String.toList_injective ((camelCase_eq_of_lower lower).symm.trans chars)
    · rwa [Phrase.text_raw] at text

theorem contributes_of_setter {property : Property}
    (sets : element.properties.setter? "key" = some property) (plain : property.isMarked = false) :
    "key" ∈ contributedNames around element := by
  have member := List.mem_of_find?_eq_some sets
  have found : property.sets (· == "key") = true := List.find?_some sets
  have listed : (plainContribution around element property).value ∈ contributions around element := by
    simp only [contributions, List.mem_append, List.mem_map]
    exact .inl (.inl ⟨property, member, rfl⟩)
  refine List.mem_flatMap.2 ⟨_, listed, ?_⟩
  cases property with
  | attr given =>
    have name : given.name = "key" := eq_of_beq found
    have fixed : (plainContribution around element (.attr given)).value =
        .fixed given.name (.literal ((given.value.map (·.content)).getD { raw := "" })) := by
      simp [plainContribution, Contribution.ofAttribute, name]
    rw [fixed, name]
    exact List.mem_singleton.2 rfl
  | dir directive =>
    simp only [Property.sets, Bool.and_eq_true, beq_iff_eq, Option.any_eq_true] at found
    obtain ⟨⟨bind, name, named, rfl⟩, -⟩ := found
    obtain ⟨argument, given, static⟩ := Option.bind_eq_some_iff.1 named
    cases argument with
    | dynamic => cases static
    | static name =>
      cases static
      obtain ⟨value, entry⟩ := ofBind_entry around given
      have bound : (plainContribution around element (.dir directive)).value =
          (Contribution.ofBind around directive).value := by
        simp [plainContribution, bind, Argument.isNamed, given, Argument.staticName?]
      have unmarked : Contribution.keyMark? directive = none := by
        simpa [Property.isMarked] using plain
      rw [bound, entry, Contribution.added, staticNames_singleton, staticKey?_boundKey, unmarked]
      refine List.mem_singleton.2 ?_
      split <;> decide +kernel

inductive Directive.KeysAnyway (element : Element) (directive : Directive) : Prop
  /-- A bound key without a value. -/
  | blank (bound : directive.name = "bind") (named : directive.argument = some (.static "key"))
      (empty : directive.isEmpty = true)
  /-- A model of a component that is called `key`. -/
  | model (models : directive.name = "model") (named : directive.argument = some (.static "key"))
      (component : element.kind = .component)

theorem keyless_ofListener (directive : Directive) :
    "key" ∉ staticNames (Contribution.ofListener around directive).value.added := by
  cases given : directive.argument with
  | none =>
    simp only [Contribution.ofListener, given]
    split <;> exact List.not_mem_nil
  | some argument =>
    obtain ⟨body, traits, entry⟩ := Contribution.listener_entry around directive argument
    rw [Contribution.ofListener_of_argument around given, entry, Contribution.added,
      staticNames_singleton]
    intro member
    have event := (Contribution.listenerKey_isEventKey around directive _ argument).2 "key"
      (Option.mem_toList.1 member)
    exact absurd event (by decide)

theorem keyless_elementModel (directive : Directive) (model : Expr) :
    ∀ found, (Contribution.elementModel around element directive model).value = some found →
      "key" ∉ staticNames found := by
  have keyless {first last : String} (shown value : Expr) (apart : "key" ∉ [first, last]) :
      "key" ∉ staticNames [(.string first, shown), (.string last, value)] := by
    simpa [staticNames, Expr.string, Expr.staticKey?] using apart
  have typed : "key" ∉ staticNames (Contribution.textModel around directive model) := by
    refine keyless _ _ ?_
    split <;> decide
  simp only [Contribution.elementModel]
  split
  · simp only [Contribution.inputModel]
    split
    · rintro found ⟨⟩
    · split
      · rintro found ⟨⟩
        exact keyless _ _ (by decide)
      · split
        · simp only [Reported.value_bind, Reported.value_pure, Option.some.injEq, forall_eq']
          exact keyless _ _ (by decide)
        · rintro found ⟨⟩
          exact typed
  · split
    · rintro found ⟨⟩
      exact typed
    · split
      · rintro found ⟨⟩
        exact keyless _ _ (by decide)
      · rintro found ⟨⟩

theorem keyed_componentModel {directive : Directive} {model : Expr}
    (member : "key" ∈ staticNames (Contribution.componentModel around directive model).value) :
    directive.argument = some (.static "key") := by
  have longer (name : String) : name ++ "Modifiers" ≠ "key" := by
    intro same
    have := congrArg String.length same
    simp only [String.length_append] at this
    have long : "Modifiers".length = 9 := rfl
    have short : "key".length = 3 := rfl
    omega
  have event (name : String) : "onUpdate:" ++ name ≠ "key" := by
    intro same
    have first := congrArg (·.toList.head?) same
    simp at first
  have three (keys : Contribution.ModelKeys) (value shown : Expr) (modifiers : List String)
      (member : "key" ∈ staticNames ((keys.value, shown) :: (keys.event, value) ::
        (if modifiers.isEmpty then []
          else [(keys.modifiers, Contribution.modifiersObject modifiers)]))) :
      keys.value.staticKey? = some "key" ∨ keys.event.staticKey? = some "key" ∨
        keys.modifiers.staticKey? = some "key" := by
    obtain ⟨entry, listed, named⟩ := mem_staticNames.1 member
    rcases List.mem_cons.1 listed with rfl | later
    · exact .inl named
    · rcases List.mem_cons.1 later with rfl | last
      · exact .inr (.inl named)
      · split at last
        · cases last
        · cases List.mem_singleton.1 last
          exact .inr (.inr named)
  simp only [Contribution.componentModel, Reported.value_bind, Reported.value_pure] at member
  have known := three _ _ _ _ member
  unfold Contribution.modelKeys at known
  cases given : directive.argument with
  | none =>
    rw [given] at known
    simp [Expr.string, Expr.staticKey?] at known
  | some argument =>
    rw [given] at known
    cases argument with
    | static name =>
      simp only [Reported.value_pure, Expr.string, Expr.staticKey?, Phrase.text_raw,
        Option.some.injEq, event, longer, or_false] at known
      rw [known]
    | dynamic =>
      simp [Expr.staticKey?] at known

theorem keyed_ofModel {directive : Directive}
    (member : "key" ∈ staticNames (Contribution.ofModel around element directive).value.added) :
    directive.argument = some (.static "key") ∧ element.kind = .component := by
  revert member
  simp only [Contribution.ofModel]
  split
  · exact fun member => nomatch member
  · exact fun member => nomatch member
  · split
    · exact fun member => nomatch member
    · simp only [Reported.value_bind]
      split
      · next component => exact fun member => ⟨keyed_componentModel around member, component⟩
      · split
        · exact fun member => nomatch member
        · simp only [Reported.value_bind]
          split
          · next found given =>
            exact fun member => absurd member (keyless_elementModel around directive _ found given)
          · exact fun member => nomatch member

theorem keysAnyway_of_contributed (unset : element.properties.setter? "key" = none)
    (contributed : "key" ∈ contributedNames around element) :
    ∃ directive, .dir directive ∈ element.properties ∧ directive.KeysAnyway element := by
  obtain ⟨contribution, listed, member⟩ := List.mem_flatMap.1 contributed
  simp only [contributions, List.mem_append, List.mem_map] at listed
  rcases listed with (⟨property, inside, rfl⟩ | ⟨directive, -, rfl⟩) | ⟨directive, inside, rfl⟩
  · have unset := List.find?_eq_none.1 unset property inside
    cases property with
    | attr given =>
      refine absurd ?_ unset
      simp only [plainContribution, Contribution.ofAttribute, Reported.value_pure] at member
      split at member
      · cases member
      · rw [Contribution.added, staticNames_singleton, Expr.string, Expr.staticKey?,
          Phrase.text_raw, Option.toList_some, List.mem_singleton] at member
        exact beq_iff_eq.2 member.symm
    | dir directive =>
      simp only [plainContribution] at member
      split at member
      · cases member
      · next bound =>
        split at member
        · cases member
        · cases given : directive.argument with
          | none =>
            simp only [Contribution.ofBind, given] at member
            split at member <;> cases member
          | some argument =>
            obtain ⟨value, entry⟩ := ofBind_entry around given
            rw [entry, Contribution.added, staticNames_singleton, Option.mem_toList] at member
            cases argument with
            | dynamic => simp [Contribution.boundKey, Expr.staticKey?] at member
            | static name =>
              obtain ⟨rfl, -⟩ := boundKey_eq_key around member
              have bind : directive.name = "bind" := by simpa using bound
              refine ⟨directive, inside, .blank bind given ?_⟩
              simpa [Property.sets, bind, given, Argument.staticName?] using unset
  · exact absurd member (keyless_ofListener around directive)
  · obtain ⟨named, component⟩ := keyed_ofModel around member
    obtain ⟨given, models⟩ := List.mem_filter.1 inside
    obtain ⟨property, present, same⟩ := List.mem_filterMap.1 given
    cases property with
    | attr => cases same
    | dir =>
      cases same
      exact ⟨directive, present, .model (eq_of_beq models) named component⟩

end Setters

end TemplateCompiler
