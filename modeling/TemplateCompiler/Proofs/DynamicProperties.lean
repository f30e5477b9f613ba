import TemplateCompiler.Proofs.CollectedProperties
import TemplateCompiler.Proofs.HoistRelocation

/-! Properties that can change. Each entry with a value that can change is noted while the
properties are collected, under the name of its key. Merging, the keys of branches and cells come
later, and none of them brings in a change that was not noted. -/

namespace TemplateCompiler

namespace Expr

mutual

/-- The value may differ from one rendering to the next: it is not fixed and not a handler that can
be kept. A list does so if one of its items does. -/
def isDynamic : Expr → Bool
  | handler _ traits => !traits.cacheable
  | array items => isDynamicAny items
  | value => !value.level.isStatic

def isDynamicAny : List Expr → Bool
  | [] => false
  | item :: rest => item.isDynamic || isDynamicAny rest

end

theorem isDynamicAny_append (first second : List Expr) :
    isDynamicAny (first ++ second) = (isDynamicAny first || isDynamicAny second) := by
  induction first with
  | nil => rfl
  | cons item rest ih => rw [List.cons_append, isDynamicAny, isDynamicAny, ih, Bool.or_assoc]

mutual

theorem isStatic_of_isDynamic : {expr : Expr} → expr.isDynamic = true →
    expr.level.isStatic = false
  | handler _ _, _ => rfl
  | array items, dynamic => isStatic_of_isDynamicAny dynamic
  | source _, dynamic | number _, dynamic | literal _, dynamic | madeLiteral _, dynamic
  | simple _ _, dynamic | param _, dynamic | context _, dynamic | compound _, dynamic
  | props _, dynamic | call _ _, dynamic | symbol _, dynamic => by
    simpa [isDynamic] using dynamic

theorem isStatic_of_isDynamicAny : {items : List Expr} → isDynamicAny items = true →
    (levelAll items).isStatic = false
  | item :: rest, dynamic => by
    rw [levelAll, Level.isStatic_meet, Bool.and_eq_false_iff]
    rw [isDynamicAny, Bool.or_eq_true] at dynamic
    rcases dynamic with first | later
    · exact .inl (isStatic_of_isDynamic first)
    · exact .inr (isStatic_of_isDynamicAny later)

end

theorem isConstant_of_isDynamic {expr : Expr} (dynamic : expr.isDynamic = true) :
    PropertyTraits.isConstant expr = false := by
  cases expr with
  | handler body traits => simpa [isDynamic, PropertyTraits.isConstant] using dynamic
  | _ => exact isStatic_of_isDynamic dynamic

mutual

/-- A handler that gets a cell is one that can be kept. -/
theorem isDynamic_assignCells (next : Nat) : (expr : Expr) →
    (expr.assignCells next).1.isDynamic = expr.isDynamic
  | handler body traits => by
    rw [assignCells]
    split <;> rfl
  | array items => isDynamicAny_assignCells next items
  | compound parts => by
    have same := level_assignCells next (compound parts)
    simp only [assignCells, isDynamic] at same ⊢
    rw [same]
  | call helper args => by
    have same := level_assignCells next (call helper args)
    simp only [assignCells, isDynamic] at same ⊢
    rw [same]
  | props entries => by
    have same := level_assignCells next (props entries)
    simp only [assignCells, isDynamic] at same ⊢
    rw [same]
  | source _ | number _ | literal _ | madeLiteral _ | simple _ _ | param _ | context _
  | symbol _ => by simp [assignCells]

theorem isDynamicAny_assignCells (next : Nat) : (items : List Expr) →
    isDynamicAny (assignCellsAll next items).1 = isDynamicAny items
  | [] => rfl
  | item :: rest => by
    rw [assignCellsAll, isDynamicAny, isDynamicAny, isDynamic_assignCells next item,
      isDynamicAny_assignCells _ rest]

end

end Expr

theorem isDynamic_mergeValues (existing incoming : Expr) :
    (mergeValues existing incoming).isDynamic = (existing.isDynamic || incoming.isDynamic) := by
  cases existing with
  | array items => simp [mergeValues, Expr.isDynamic, Expr.isDynamicAny_append, Expr.isDynamicAny]
  | _ => simp [mergeValues, Expr.isDynamic, Expr.isDynamicAny]

/-- The key of the entry is known, and it is one of those that are watched if the value can
change. -/
def Entry.Covered (watched : String → Prop) (entry : Entry) : Prop :=
  ∃ name, entry.1.staticKey? = some name ∧ (entry.2.isDynamic = true → watched name)

/-- There are no properties, or there is one object and each of its entries is covered. -/
def Expr.Covers (watched : String → Prop) (props : Option Expr) : Prop :=
  props = none ∨ ∃ entries, props = some (.props entries) ∧
    ∀ entry ∈ entries, Entry.Covered watched entry

section Entries

variable {watched : String → Prop}

theorem Entry.Covered.imp {other : String → Prop} {entry : Entry} (covered : Covered watched entry)
    (implies : ∀ name, watched name → other name) : Covered other entry := by
  obtain ⟨name, known, listed⟩ := covered
  exact ⟨name, known, fun dynamic => implies name (listed dynamic)⟩

theorem Expr.Covers.imp {other : String → Prop} {props : Option Expr}
    (covers : Covers watched props) (implies : ∀ name, watched name → other name) :
    Covers other props := by
  rcases covers with none | ⟨entries, given, covered⟩
  · exact .inl none
  · exact .inr ⟨entries, given, fun entry member => (covered entry member).imp implies⟩

theorem covered_dedupe {entries : List Entry}
    (given : ∀ entry ∈ entries, Entry.Covered watched entry) :
    ∀ entry ∈ dedupe entries, Entry.Covered watched entry := by
  refine forall_dedupe ?_ given
  -- The merged value can change only if one of the two could, and both have this name.
  rintro old new name named again ⟨first, own, noted⟩ ⟨second, other, listed⟩
  cases own.symm.trans named
  cases other.symm.trans again
  refine ⟨name, named, fun dynamic => ?_⟩
  rw [isDynamic_mergeValues, Bool.or_eq_true] at dynamic
  rcases dynamic with before | after
  · exact noted before
  · exact listed after

/-- The key of a branch is a number that never changes. -/
theorem Conditional.covers_addKey (key : Nat) {props : Option Expr}
    (covers : Expr.Covers watched props) : Expr.Covers watched (some (addKey key props)) := by
  have keyed : Entry.Covered watched (.string "key", .number key) := ⟨_, rfl, nofun⟩
  rcases covers with rfl | ⟨entries, rfl, covered⟩
  · exact .inr ⟨_, rfl, List.forall_mem_singleton.2 keyed⟩
  · exact .inr ⟨_, rfl, List.forall_mem_cons.2 ⟨keyed, covered⟩⟩

theorem Expr.covered_assignCellsEntries (next : Nat) {entries : List Entry}
    (covered : ∀ entry ∈ entries, Entry.Covered watched entry) :
    ∀ entry ∈ (assignCellsEntries next entries).1, Entry.Covered watched entry := by
  induction entries generalizing next with
  | nil => exact covered
  | cons entry rest ih =>
    obtain ⟨⟨name, known, listed⟩, others⟩ := List.forall_mem_cons.1 covered
    rw [assignCellsEntries]
    refine List.forall_mem_cons.2 ⟨⟨name, known, fun dynamic => listed ?_⟩, ih _ others⟩
    rwa [isDynamic_assignCells] at dynamic

theorem Expr.covers_assignCells (next : Nat) {props : Expr} (covers : Covers watched (some props)) :
    Covers watched (some (props.assignCells next).1) := by
  rcases covers with none | ⟨entries, given, covered⟩
  · cases none
  · cases given
    exact .inr ⟨_, rfl, covered_assignCellsEntries next covered⟩

end Entries

namespace PropertyTraits

inductive Remembers (isComponent : Bool) (traits : PropertyTraits) : String → Prop
  | key : Remembers isComponent traits "key"
  | ref (noted : traits.hasRef = true) : Remembers isComponent traits "ref"
  | classes (plain : isComponent = false) (noted : traits.hasClass = true) :
      Remembers isComponent traits "class"
  | styles (plain : isComponent = false) (noted : traits.hasStyle = true) :
      Remembers isComponent traits "style"
  | listed {name : String} (member : name ∈ traits.dynamicNames) : Remembers isComponent traits name

/-- Nothing that was noted is forgotten. -/
structure Grows (before after : PropertyTraits) : Prop where
  ref : before.hasRef = true → after.hasRef = true
  classes : before.hasClass = true → after.hasClass = true
  styles : before.hasStyle = true → after.hasStyle = true
  keys : before.hasDynamicKeys = true → after.hasDynamicKeys = true
  names : before.dynamicNames ⊆ after.dynamicNames

variable {isComponent : Bool} {before middle after : PropertyTraits}

theorem Grows.refl (traits : PropertyTraits) : Grows traits traits :=
  ⟨id, id, id, id, List.Subset.refl _⟩

theorem Grows.trans (first : Grows before middle) (last : Grows middle after) :
    Grows before after :=
  ⟨last.ref ∘ first.ref, last.classes ∘ first.classes, last.styles ∘ first.styles,
    last.keys ∘ first.keys, List.Subset.trans first.names last.names⟩

theorem Grows.known (grows : Grows before after) (known : after.hasDynamicKeys = false) :
    before.hasDynamicKeys = false := by
  by_contra unknown
  rw [grows.keys (eq_true_of_ne_false unknown)] at known
  cases known

theorem Remembers.grow {name : String} (remembers : before.Remembers isComponent name)
    (grows : Grows before after) : after.Remembers isComponent name := by
  cases remembers with
  | key => exact .key
  | ref noted => exact .ref (grows.ref noted)
  | classes plain noted => exact .classes plain (grows.classes noted)
  | styles plain noted => exact .styles plain (grows.styles noted)
  | listed member => exact .listed (grows.names member)

theorem subset_addName (names : List String) (name : String) : names ⊆ addName names name := by
  unfold addName
  split
  · exact List.Subset.refl names
  · exact List.subset_append_left names [name]

theorem mem_addName (names : List String) (name : String) : name ∈ addName names name := by
  unfold addName
  split
  · next there => exact List.contains_iff_mem.1 there
  · exact List.mem_append_right names (List.mem_singleton_self name)

theorem grows_noteDynamic (isComponent : Bool) (traits : PropertyTraits) (name : String) :
    Grows traits (traits.noteDynamic isComponent name) := by
  have listed := subset_addName traits.dynamicNames name
  simp only [noteDynamic]
  split
  · exact ⟨fun _ => rfl, id, id, id, List.Subset.refl _⟩
  split
  · cases isComponent
    · exact ⟨id, fun _ => rfl, id, id, List.Subset.refl _⟩
    · exact ⟨id, fun _ => rfl, id, id, listed⟩
  split
  · cases isComponent
    · exact ⟨id, id, fun _ => rfl, id, List.Subset.refl _⟩
    · exact ⟨id, id, fun _ => rfl, id, listed⟩
  split
  · exact .refl traits
  · exact ⟨id, id, id, id, listed⟩

theorem remembers_noteDynamic (isComponent : Bool) (traits : PropertyTraits) (name : String) :
    (traits.noteDynamic isComponent name).Remembers isComponent name := by
  have listed := mem_addName traits.dynamicNames name
  simp only [noteDynamic]
  split
  · next same =>
    cases eq_of_beq same
    exact .ref rfl
  split
  · next same =>
    cases eq_of_beq same
    cases isComponent
    · exact .classes rfl rfl
    · exact .listed listed
  split
  · next same =>
    cases eq_of_beq same
    cases isComponent
    · exact .styles rfl rfl
    · exact .listed listed
  split
  · next same =>
    cases eq_of_beq same
    exact .key
  · exact .listed listed

theorem grows_noteEntry (isComponent : Bool) (traits : PropertyTraits) (entry : Entry) :
    Grows traits (traits.noteEntry isComponent entry) := by
  simp only [noteEntry]
  split
  · exact ⟨id, id, id, fun _ => rfl, List.Subset.refl _⟩
  split
  · exact ⟨id, id, id, id, List.Subset.refl _⟩
  · refine .trans ?_ (grows_noteDynamic isComponent _ _)
    exact ⟨id, id, id, id, List.Subset.refl _⟩

theorem covered_noteEntry {traits : PropertyTraits} {entry : Entry}
    (known : (traits.noteEntry isComponent entry).hasDynamicKeys = false) :
    Entry.Covered ((traits.noteEntry isComponent entry).Remembers isComponent) entry := by
  simp only [noteEntry] at known ⊢
  split at known
  · cases known
  · next name named =>
    refine ⟨name, named, fun dynamic => ?_⟩
    rw [Expr.isConstant_of_isDynamic dynamic]
    exact remembers_noteDynamic isComponent _ name

theorem grows_foldl_noteEntry (isComponent : Bool) (traits : PropertyTraits)
    (entries : List Entry) : Grows traits (entries.foldl (noteEntry isComponent) traits) := by
  induction entries generalizing traits with
  | nil => exact .refl traits
  | cons entry rest ih => exact (grows_noteEntry isComponent traits entry).trans (ih _)

theorem covered_foldl_noteEntry {traits : PropertyTraits} {entries : List Entry}
    (known : (entries.foldl (noteEntry isComponent) traits).hasDynamicKeys = false) :
    ∀ entry ∈ entries, Entry.Covered
      ((entries.foldl (noteEntry isComponent) traits).Remembers isComponent) entry := by
  induction entries generalizing traits with
  | nil => exact List.forall_mem_nil _
  | cons entry rest ih =>
    have later := grows_foldl_noteEntry isComponent (traits.noteEntry isComponent entry) rest
    refine List.forall_mem_cons.2 ⟨?_, ih known⟩
    exact (covered_noteEntry (later.known known)).imp fun _ remembers => remembers.grow later

end PropertyTraits

/-- An attribute never changes. -/
def Contribution.Steady : Contribution → Prop
  | fixed _ value => value.isDynamic = false
  | entries _ | spread _ | nothing => True

namespace Contribution

variable (around : Surroundings)

theorem steady_ofAttribute (tag : String) (given : Attribute) :
    (ofAttribute tag given).Steady := by
  simp only [ofAttribute]
  split
  · trivial
  · rfl

theorem steady_ofBind (directive : Directive) : (ofBind around directive).value.Steady := by
  simp only [ofBind]
  split
  · simp only [Reported.value_bind]
    split <;> trivial
  · simp only [Reported.value_bind]
    split <;> trivial
  · trivial

theorem steady_ofListener (directive : Directive) :
    (ofListener around directive).value.Steady := by
  simp only [ofListener]
  split
  · split <;> trivial
  · next argument _ =>
    have listened : (listener around directive argument).value.Steady := by
      simp only [listener, Reported.value_bind]
      split
      · split <;> trivial
      · trivial
    split
    · split <;> exact listened
    · exact listened

theorem steady_ofModel (element : Element) (directive : Directive) :
    (ofModel around element directive).value.Steady := by
  simp only [ofModel]
  split
  · trivial
  · trivial
  · split
    · trivial
    · simp only [Reported.value_bind]
      split
      · trivial
      · split
        · trivial
        · simp only [Reported.value_bind]
          split <;> trivial

end Contribution

theorem steady_plainContribution (around : Surroundings) (element : Element)
    (property : Property) : (plainContribution around element property).value.Steady := by
  cases property with
  | attr given => exact Contribution.steady_ofAttribute element.tag given
  | dir directive =>
    simp only [plainContribution]
    split
    · trivial
    · split
      · trivial
      · exact Contribution.steady_ofBind around directive

namespace Collection

/-- As long as every key is known, there is nothing but one object, and the traits cover it. -/
structure Tracked (isComponent : Bool) (collection : Collection) : Prop where
  merged : collection.traits.hasDynamicKeys = false → collection.merged = []
  pending : collection.traits.hasDynamicKeys = false → ∀ entry ∈ collection.pending,
    Entry.Covered (collection.traits.Remembers isComponent) entry

variable {isComponent : Bool} {collection : Collection}

theorem Tracked.add {contribution : Contribution} (tracked : collection.Tracked isComponent)
    (steady : contribution.Steady) : (collection.add isComponent contribution).Tracked isComponent := by
  cases contribution with
  | nothing => exact tracked
  | fixed name value =>
    refine ⟨tracked.merged, fun known entry member => ?_⟩
    rcases List.mem_append.1 member with early | late
    · have grows : collection.traits.Grows (collection.add isComponent (.fixed name value)).traits :=
        ⟨fun noted => Bool.or_eq_true_iff.2 (.inl noted), id, id, id, List.Subset.refl _⟩
      exact (tracked.pending known entry early).imp fun _ remembers => remembers.grow grows
    · cases List.mem_singleton.1 late
      refine ⟨_, rfl, fun dynamic => ?_⟩
      cases dynamic.symm.trans steady
  | entries added =>
    have grows := PropertyTraits.grows_foldl_noteEntry isComponent collection.traits added
    refine ⟨fun known => tracked.merged (grows.known known), fun known entry member => ?_⟩
    rcases List.mem_append.1 member with early | late
    · exact (tracked.pending (grows.known known) entry early).imp fun _ remembers =>
        remembers.grow grows
    · exact PropertyTraits.covered_foldl_noteEntry known entry late
  | spread value => exact ⟨nofun, nofun⟩

theorem Tracked.covers (tracked : collection.Tracked isComponent)
    (known : collection.traits.hasDynamicKeys = false) :
    Expr.Covers (collection.traits.Remembers isComponent) collection.expr? := by
  by_cases none : collection.pending.isEmpty
  · have flushed : collection.flush.merged = [] := by
      rw [flush, if_pos none, tracked.merged known]
    simp only [expr?, flushed]
    exact .inl rfl
  · have flushed : collection.flush.merged = [.props (dedupe collection.pending)] := by
      rw [flush, if_neg none, tracked.merged known, List.nil_append]
    simp only [expr?, flushed]
    exact .inr ⟨_, rfl, covered_dedupe (tracked.pending known)⟩

end Collection

end TemplateCompiler
