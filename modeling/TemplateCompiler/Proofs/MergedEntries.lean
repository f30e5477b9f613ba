import Mathlib.Data.List.Induction
import TemplateCompiler.Proofs.CollectedProperties

/-! What becomes of entries that share a name. Each entry stays where its name was seen first; under
a name whose values are merged it has all of them, under any other name the first one. -/

namespace TemplateCompiler

def staticNames (entries : List Entry) : List String :=
  entries.filterMap (·.1.staticKey?)

def valuesNamed (name : String) (entries : List Entry) : List Expr :=
  (entries.filter (·.1.staticKey? == some name)).map (·.2)

def firstEntries (seen : List String) : List Entry → List Entry
  | [] => []
  | entry :: rest =>
    match entry.1.staticKey? with
    | none => entry :: firstEntries seen rest
    | some name =>
      if seen.contains name then firstEntries seen rest
      else entry :: firstEntries (name :: seen) rest

/-- A single value stands for itself, several ones make a list. -/
def combined : List Expr → Expr
  | [only] => only
  | several => .array several

def Expr.isArray : Expr → Bool
  | .array _ => true
  | _ => false

/-- The entries `made` are what merging is to make of the entries `given`. -/
structure Gathers (given made : List Entry) : Prop where
  /-- Keys come in the order in which they were seen first. -/
  keys : made.map (·.1) = (firstEntries [] given).map (·.1)
  unnamed : made.filter (·.1.staticKey?.isNone) = given.filter (·.1.staticKey?.isNone)
  distinct : (staticNames made).Nodup
  complete : ∀ name, name ∈ staticNames made ↔ name ∈ staticNames given
  merged : ∀ entry ∈ made, ∀ name, entry.1.staticKey? = some name →
    Name.isMergeable name = true → entry.2 = combined (valuesNamed name given)
  first : ∀ entry ∈ made, ∀ name, entry.1.staticKey? = some name →
    Name.isMergeable name = false → (valuesNamed name given).head? = some entry.2

section Lists

variable {entries front back : List Entry} {entry : Entry} {name : String}

@[simp]
theorem staticNames_append :
    staticNames (front ++ back) = staticNames front ++ staticNames back :=
  List.filterMap_append

theorem mem_staticNames :
    name ∈ staticNames entries ↔ ∃ entry ∈ entries, entry.1.staticKey? = some name :=
  List.mem_filterMap

theorem staticNames_cons (named : entry.1.staticKey? = some name) :
    staticNames (entry :: entries) = name :: staticNames entries :=
  List.filterMap_cons_some named

theorem staticNames_cons_of_unknown (unknown : entry.1.staticKey? = none) :
    staticNames (entry :: entries) = staticNames entries :=
  List.filterMap_cons_none unknown

@[simp]
theorem staticNames_singleton : staticNames [entry] = entry.1.staticKey?.toList := by
  cases key : entry.1.staticKey? with
  | none => exact staticNames_cons_of_unknown key
  | some name => exact staticNames_cons key

theorem any_named : entries.any (·.1.staticKey? == some name) = true ↔
    name ∈ staticNames entries := by
  simp [mem_staticNames]

@[simp]
theorem valuesNamed_append :
    valuesNamed name (front ++ back) = valuesNamed name front ++ valuesNamed name back := by
  simp [valuesNamed]

theorem valuesNamed_singleton (named : entry.1.staticKey? = some name) :
    valuesNamed name [entry] = [entry.2] := by
  simp [valuesNamed, named]

theorem valuesNamed_singleton_of_ne (other : entry.1.staticKey? ≠ some name) :
    valuesNamed name [entry] = [] := by
  simp [valuesNamed, other]

theorem forall_valuesNamed {holds : Expr → Prop} (all : ∀ entry ∈ entries, holds entry.2) :
    ∀ value ∈ valuesNamed name entries, holds value := by
  intro value member
  obtain ⟨entry, listed, rfl⟩ := List.mem_map.1 member
  exact all entry (List.mem_filter.1 listed).1

theorem valuesNamed_eq_nil_iff : valuesNamed name entries = [] ↔ name ∉ staticNames entries := by
  simp [valuesNamed, mem_staticNames]

theorem mem_of_mem_firstEntries {seen : List String} (member : entry ∈ firstEntries seen entries) :
    entry ∈ entries := by
  fun_induction firstEntries seen entries with
  | case1 => cases member
  | case2 seen first rest unknown ih =>
    rcases List.mem_cons.1 member with rfl | later
    · exact List.mem_cons_self
    · exact List.mem_cons_of_mem first (ih later)
  | case3 seen first rest name named known ih => exact List.mem_cons_of_mem first (ih member)
  | case4 seen first rest name named new ih =>
    rcases List.mem_cons.1 member with rfl | later
    · exact List.mem_cons_self
    · exact List.mem_cons_of_mem first (ih later)

theorem firstEntries_concat_of_new {seen : List String} (new : ∀ name,
    entry.1.staticKey? = some name → name ∉ seen ∧ name ∉ staticNames entries) :
    firstEntries seen (entries ++ [entry]) = firstEntries seen entries ++ [entry] := by
  fun_induction firstEntries seen entries with
  | case1 seen =>
    cases key : entry.1.staticKey? with
    | none => simp [firstEntries, key]
    | some name => simp [firstEntries, key, (new name key).1]
  | case2 seen first rest unknown ih =>
    rw [staticNames_cons_of_unknown unknown] at new
    simp [firstEntries, unknown, ih new]
  | case3 seen first rest name named known ih =>
    rw [staticNames_cons named] at new
    have later := ih fun other same =>
      ⟨(new other same).1, fun behind => (new other same).2 (List.mem_cons_of_mem name behind)⟩
    simp only [List.cons_append, firstEntries, named, known, if_true, later]
  | case4 seen first rest name named unseen ih =>
    rw [staticNames_cons named] at new
    have later := ih fun other same => by
      have apart := new other same
      rw [List.mem_cons, not_or] at apart ⊢
      exact ⟨⟨apart.2.1, apart.1⟩, apart.2.2⟩
    simp only [List.cons_append, firstEntries, named, unseen, Bool.false_eq_true, if_false, later]

theorem firstEntries_concat_of_known {seen : List String} (named : entry.1.staticKey? = some name)
    (known : name ∈ seen ∨ name ∈ staticNames entries) :
    firstEntries seen (entries ++ [entry]) = firstEntries seen entries := by
  fun_induction firstEntries seen entries with
  | case1 seen =>
    have early : name ∈ seen := known.resolve_right List.not_mem_nil
    simp [firstEntries, named, early]
  | case2 seen first rest unknown ih =>
    rw [staticNames_cons_of_unknown unknown] at known
    simp [firstEntries, unknown, ih known]
  | case3 seen first rest other same before ih =>
    rw [staticNames_cons same, List.mem_cons] at known
    have later := ih (by
      rcases known with early | rfl | late
      · exact .inl early
      · exact .inl (List.contains_iff_mem.1 before)
      · exact .inr late)
    simp only [List.cons_append, firstEntries, same, before, if_true, later]
  | case4 seen first rest other same unseen ih =>
    rw [staticNames_cons same, List.mem_cons] at known
    have later := ih (by
      rcases known with early | rfl | late
      · exact .inl (List.mem_cons_of_mem other early)
      · exact .inl List.mem_cons_self
      · exact .inr late)
    simp only [List.cons_append, firstEntries, same, unseen, Bool.false_eq_true, if_false, later]

/-- One more entry at the end is new or has a name that is known. -/
theorem firstEntries_concat_cases (entries : List Entry) (entry : Entry) :
    ((∀ name, entry.1.staticKey? = some name → name ∉ staticNames entries) ∧
      firstEntries [] (entries ++ [entry]) = firstEntries [] entries ++ [entry]) ∨
    ∃ name, entry.1.staticKey? = some name ∧ name ∈ staticNames entries ∧
      firstEntries [] (entries ++ [entry]) = firstEntries [] entries := by
  by_cases known : ∃ name, entry.1.staticKey? = some name ∧ name ∈ staticNames entries
  · obtain ⟨name, named, member⟩ := known
    exact .inr ⟨name, named, member, firstEntries_concat_of_known named (.inr member)⟩
  · have new : ∀ name, entry.1.staticKey? = some name → name ∉ staticNames entries :=
      fun name named member => known ⟨name, named, member⟩
    exact .inl ⟨new, firstEntries_concat_of_new fun name named =>
      ⟨List.not_mem_nil, new name named⟩⟩

theorem nodup_staticNames_concat (distinct : (staticNames entries).Nodup)
    (new : ∀ name, entry.1.staticKey? = some name → name ∉ staticNames entries) :
    (staticNames (entries ++ [entry])).Nodup := by
  rw [staticNames_append, staticNames_singleton]
  cases key : entry.1.staticKey? with
  | none => simpa using distinct
  | some name =>
    refine List.nodup_append.2 ⟨distinct, by simp, fun other member last inside => ?_⟩
    rw [List.mem_singleton.1 inside]
    exact ne_of_mem_of_not_mem member (new name key)

theorem staticNames_firstEntries (entries : List Entry) :
    (staticNames (firstEntries [] entries)).Nodup ∧
      ∀ name, name ∈ staticNames (firstEntries [] entries) ↔ name ∈ staticNames entries := by
  induction entries using List.reverseRecOn with
  | nil => exact ⟨List.nodup_nil, fun _ => Iff.rfl⟩
  | append_singleton front entry ih =>
    obtain ⟨distinct, complete⟩ := ih
    rcases firstEntries_concat_cases front entry with ⟨new, same⟩ | ⟨name, named, known, same⟩
    · rw [same]
      refine ⟨nodup_staticNames_concat distinct fun name named member =>
        new name named ((complete name).1 member), fun name => ?_⟩
      simp only [staticNames_append, List.mem_append, complete]
    · rw [same]
      refine ⟨distinct, fun other => ?_⟩
      rw [complete, staticNames_append, staticNames_singleton, named, List.mem_append]
      refine ⟨.inl, fun member => member.elim id fun last => ?_⟩
      rwa [List.mem_singleton.1 last]

theorem head?_valuesNamed (member : entry ∈ firstEntries [] entries)
    (named : entry.1.staticKey? = some name) :
    (valuesNamed name entries).head? = some entry.2 := by
  induction entries using List.reverseRecOn with
  | nil => cases member
  | append_singleton front last ih =>
    rw [valuesNamed_append, List.head?_append]
    rcases firstEntries_concat_cases front last with ⟨new, same⟩ | ⟨_, _, _, same⟩
    · rw [same] at member
      rcases List.mem_append.1 member with early | late
      · rw [ih early]
        rfl
      · obtain rfl := List.mem_singleton.1 late
        rw [valuesNamed_eq_nil_iff.2 (new name named), valuesNamed_singleton named]
        rfl
    · rw [same] at member
      rw [ih member]
      rfl

theorem filter_unknown_firstEntries (seen : List String) (entries : List Entry) :
    (firstEntries seen entries).filter (·.1.staticKey?.isNone) =
      entries.filter (·.1.staticKey?.isNone) := by
  fun_induction firstEntries seen entries with
  | case1 => rfl
  | case2 seen first rest unknown ih => simp [unknown, ih]
  | case3 seen first rest name named known ih => simp [named, ih]
  | case4 seen first rest name named new ih => simp [named, ih]

end Lists

def mergedUnder (name : String) (value : Expr) (entries : List Entry) : List Entry :=
  entries.map fun other =>
    if other.1.staticKey? == some name then (other.1, mergeValues other.2 value) else other

section Adding

variable {entries : List Entry} {entry : Entry} {name : String}

theorem addEntry_of_new (new : ∀ name, entry.1.staticKey? = some name →
    name ∉ staticNames entries) : addEntry entries entry = entries ++ [entry] := by
  unfold addEntry
  split
  · rfl
  · next name named =>
    rw [if_neg fun present => new name named (any_named.1 present)]

theorem addEntry_of_merged (named : entry.1.staticKey? = some name)
    (known : name ∈ staticNames entries) (merges : Name.isMergeable name = true) :
    addEntry entries entry = mergedUnder name entry.2 entries := by
  simp only [addEntry, named, any_named.2 known, merges, if_true, mergedUnder]

theorem addEntry_of_kept (named : entry.1.staticKey? = some name)
    (known : name ∈ staticNames entries) (keeps : Name.isMergeable name = false) :
    addEntry entries entry = entries := by
  simp only [addEntry, named, any_named.2 known, keeps, if_true, Bool.false_eq_true, if_false]

theorem addEntry_cases (entries : List Entry) (entry : Entry) :
    ((∀ name, entry.1.staticKey? = some name → name ∉ staticNames entries) ∧
      addEntry entries entry = entries ++ [entry]) ∨
    ∃ name, entry.1.staticKey? = some name ∧ name ∈ staticNames entries ∧
      ((Name.isMergeable name = true ∧ addEntry entries entry = mergedUnder name entry.2 entries) ∨
        Name.isMergeable name = false ∧ addEntry entries entry = entries) := by
  by_cases known : ∃ name, entry.1.staticKey? = some name ∧ name ∈ staticNames entries
  · obtain ⟨name, named, member⟩ := known
    refine .inr ⟨name, named, member, ?_⟩
    cases merges : Name.isMergeable name with
    | true => exact .inl ⟨rfl, addEntry_of_merged named member merges⟩
    | false => exact .inr ⟨rfl, addEntry_of_kept named member merges⟩
  · have new : ∀ name, entry.1.staticKey? = some name → name ∉ staticNames entries :=
      fun name named member => known ⟨name, named, member⟩
    exact .inl ⟨new, addEntry_of_new new⟩

theorem mergedUnder_of_absent (absent : name ∉ staticNames entries) (value : Expr) :
    mergedUnder name value entries = entries := by
  refine (List.map_congr_left fun other member => ?_).trans (List.map_id _)
  rw [if_neg fun named => absent (mem_staticNames.2 ⟨other, member, eq_of_beq named⟩)]
  rfl

theorem staticNames_mergedUnder (name : String) (value : Expr) (entries : List Entry) :
    staticNames (mergedUnder name value entries) = staticNames entries := by
  have key (other : Entry) : (if other.1.staticKey? == some name then
      (other.1, mergeValues other.2 value) else other).1 = other.1 := by
    split <;> rfl
  simp only [staticNames, mergedUnder, List.filterMap_map, Function.comp_def, key]

theorem nodup_addEntry (distinct : (staticNames entries).Nodup) (entry : Entry) :
    (staticNames (addEntry entries entry)).Nodup := by
  rcases addEntry_cases entries entry with ⟨new, same⟩ | ⟨name, -, -, ⟨-, same⟩ | ⟨-, same⟩⟩
  · rw [same]
    exact nodup_staticNames_concat distinct new
  · rwa [same, staticNames_mergedUnder]
  · rwa [same]

end Adding

def gathered (entries : List Entry) (entry : Entry) : Entry :=
  match entry.1.staticKey? with
  | none => entry
  | some name =>
    if Name.isMergeable name then (entry.1, combined (valuesNamed name entries)) else entry

theorem gathered_key (entries : List Entry) (entry : Entry) :
    (gathered entries entry).1 = entry.1 := by
  unfold gathered
  repeat' split
  all_goals rfl

section Merging

variable {entries front : List Entry} {entry other : Entry} {name : String}

theorem gathered_named (named : entry.1.staticKey? = some name)
    (merges : Name.isMergeable name = true) :
    gathered entries entry = (entry.1, combined (valuesNamed name entries)) := by
  simp only [gathered, named, merges, if_true]

theorem gathered_kept (named : entry.1.staticKey? = some name)
    (keeps : Name.isMergeable name = false) : gathered entries entry = entry := by
  simp only [gathered, named, keeps, Bool.false_eq_true, if_false]

theorem gathered_unknown (unknown : entry.1.staticKey? = none) :
    gathered entries entry = entry := by
  simp only [gathered, unknown]

/-- An entry of another name, or of a name that is not merged, makes no difference. -/
theorem gathered_concat_of_apart (apart : ∀ name, entry.1.staticKey? = some name →
    other.1.staticKey? = some name → Name.isMergeable name = false) :
    gathered (entries ++ [entry]) other = gathered entries other := by
  unfold gathered
  split
  · rfl
  · next name named =>
    split
    · next merges =>
      have different : entry.1.staticKey? ≠ some name := fun same => by
        rw [apart name same named] at merges
        cases merges
      rw [valuesNamed_append, valuesNamed_singleton_of_ne different, List.append_nil]
    · rfl

theorem staticNames_map_gathered (others : List Entry) :
    staticNames (others.map (gathered entries)) = staticNames others := by
  have same : (fun entry : Entry => entry.1.staticKey?) ∘ gathered entries =
      fun entry => entry.1.staticKey? := by
    funext entry
    rw [Function.comp_apply, gathered_key]
  rw [staticNames, List.filterMap_map, same, staticNames]

theorem gathered_new (new : ∀ name, entry.1.staticKey? = some name → name ∉ staticNames entries) :
    gathered (entries ++ [entry]) entry = entry := by
  unfold gathered
  split
  · rfl
  · next name named =>
    split
    · rw [valuesNamed_append, valuesNamed_eq_nil_iff.2 (new name named), valuesNamed_singleton named]
      rfl
    · rfl

theorem mergeValues_combined {values : List Expr} {value : Expr} (present : values ≠ [])
    (single : ∀ given ∈ values, given.isArray = false) :
    mergeValues (combined values) value = combined (values ++ [value]) := by
  match values, present, single with
  | [only], _, single =>
    have plain := single only List.mem_cons_self
    cases only with
    | array items => cases plain
    | _ => rfl
  | first :: second :: rest, _, _ => rfl

/-- Merging gathers the values of each entry that comes first. -/
theorem dedupe_eq (single : ∀ entry ∈ entries, entry.2.isArray = false) :
    dedupe entries = (firstEntries [] entries).map (gathered entries) := by
  induction entries using List.reverseRecOn with
  | nil => rfl
  | append_singleton front entry ih =>
    obtain ⟨early, last⟩ := List.forall_mem_append.1 single
    have merged := ih early
    have step : dedupe (front ++ [entry]) = addEntry (dedupe front) entry := by
      rw [dedupe, List.foldl_append]
      rfl
    have complete (name : String) : name ∈ staticNames (dedupe front) ↔ name ∈ staticNames front := by
      rw [merged, staticNames_map_gathered]
      exact (staticNames_firstEntries front).2 name
    rw [step]
    rcases firstEntries_concat_cases front entry with ⟨new, same⟩ | ⟨name, named, known, same⟩
    · rw [same, List.map_append, List.map_singleton, gathered_new new,
        addEntry_of_new fun name named member => new name named ((complete name).1 member), merged]
      congr 1
      refine List.map_congr_left fun other member =>
        (gathered_concat_of_apart fun name named has => ?_).symm
      exact absurd (mem_staticNames.2 ⟨other, mem_of_mem_firstEntries member, has⟩) (new name named)
    · rw [same]
      cases merges : Name.isMergeable name with
      | false =>
        rw [addEntry_of_kept named ((complete name).2 known) merges, merged]
        refine List.map_congr_left fun other member =>
          (gathered_concat_of_apart fun shared has _ => ?_).symm
        cases named.symm.trans has
        exact merges
      | true =>
        rw [addEntry_of_merged named ((complete name).2 known) merges, merged, mergedUnder,
          List.map_map]
        refine List.map_congr_left fun other member => ?_
        rw [Function.comp_apply, gathered_key]
        split
        · next has =>
          have present : valuesNamed name front ≠ [] := fun none =>
            valuesNamed_eq_nil_iff.1 none known
          rw [gathered_named (eq_of_beq has) merges, gathered_named (eq_of_beq has) merges,
            mergeValues_combined present (forall_valuesNamed early),
            valuesNamed_append, valuesNamed_singleton named]
        · next apart =>
          refine (gathered_concat_of_apart fun shared has other => ?_).symm
          cases named.symm.trans has
          exact absurd (beq_iff_eq.2 other) apart

/-- Merging loses no name and no value that is to be kept. -/
theorem gathers_dedupe (single : ∀ entry ∈ entries, entry.2.isArray = false) :
    Gathers entries (dedupe entries) := by
  obtain ⟨distinct, complete⟩ := staticNames_firstEntries entries
  rw [dedupe_eq single]
  refine ⟨?_, ?_, ?_, ?_, ?_, ?_⟩
  · simp [Function.comp_def, gathered_key]
  · rw [List.filter_map, ← filter_unknown_firstEntries []]
    simp only [Function.comp_def, gathered_key]
    refine (List.map_congr_left fun entry member => ?_).trans (List.map_id _)
    exact gathered_unknown (Option.isNone_iff_eq_none.1 (List.mem_filter.1 member).2)
  · rwa [staticNames_map_gathered]
  · rwa [staticNames_map_gathered]
  · intro made member name named merges
    obtain ⟨entry, listed, rfl⟩ := List.mem_map.1 member
    rw [gathered_key] at named
    rw [gathered_named named merges]
  · intro made member name named keeps
    obtain ⟨entry, listed, rfl⟩ := List.mem_map.1 member
    rw [gathered_key] at named
    rw [gathered_kept named keeps]
    exact head?_valuesNamed listed named

end Merging

end TemplateCompiler
