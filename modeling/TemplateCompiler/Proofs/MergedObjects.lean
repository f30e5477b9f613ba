import TemplateCompiler.Proofs.FinalProperties
import TemplateCompiler.Proofs.ListenerKeys

/-! The objects that the properties of an element are merged from. Entries are written out in
objects of their own; what is spread stands between these, in order. -/

namespace TemplateCompiler

namespace Expr

def helper? : Expr → Option Helper
  | call helper _ => some helper
  | _ => none

def entries? : Expr → Option (List Entry)
  | props entries => some entries
  | _ => none

def objects : Option Expr → List Expr
  | none => []
  | some (call .mergeProps objects) => objects
  | some other => [other]

/-- Properties without calls around their objects. -/
theorem objects_some {props : Expr} (single : props.helper? ≠ some .mergeProps) :
    objects (some props) = [props] := by
  unfold objects
  split
  · next none => cases none
  · next same =>
    cases same
    exact absurd rfl single
  · next same =>
    cases same
    rfl

theorem helper?_withoutCells (expr : Expr) : expr.withoutCells.helper? = expr.helper? := by
  cases expr <;> rfl

theorem entries?_withoutCells (expr : Expr) :
    expr.withoutCells.entries? = expr.entries?.map withoutCellsEntries := by
  cases expr <;> rfl

theorem objects_withoutCells (props : Option Expr) :
    objects (props.map withoutCells) = (objects props).map withoutCells := by
  fun_cases objects props with
  | case1 => rfl
  | case2 objects => exact withoutCellsAll_eq objects
  | case3 other single =>
    refine (objects_some fun same => ?_)
    rw [helper?_withoutCells] at same
    cases other with
    | call helper args =>
      cases same
      exact single args rfl
    | _ => cases same

theorem entries?_of_isTerm {expr : Expr} (term : expr.isTerm = true) : expr.entries? = none := by
  cases expr with
  | props => cases term
  | _ => rfl

theorem helper?_of_isTerm {expr : Expr} (term : expr.isTerm = true) : expr.helper? = none := by
  cases expr with
  | call => cases term
  | _ => rfl

end Expr

namespace Contribution

/-- The object that is merged in. -/
def spread? : Contribution → Option Expr
  | .spread value => some value
  | .fixed _ _ | .entries _ | .nothing => none

variable (around : Surroundings)

theorem spread?_ofAttribute (tag : String) (given : Attribute) :
    (ofAttribute tag given).spread? = none := by
  simp only [ofAttribute]
  split <;> rfl

theorem spread?_ofBind (directive : Directive) :
    ∀ value ∈ (ofBind around directive).value.spread?, value.isTerm = true := by
  simp only [ofBind]
  split
  · simp only [Reported.value_bind]
    split <;> rintro value ⟨⟩
  · next given _ _ =>
    simp only [Reported.value_bind]
    split
    · intro value member
      rw [← Option.some.inj member]
      exact Expr.isTerm_resolveValue around given
    · rintro value ⟨⟩
  · rintro value ⟨⟩

theorem listener_entry (directive : Directive) (argument : Argument) : ∃ body traits,
    (listener around directive argument).value =
      .entries [((listenerKey around directive
        (.ofList argument.staticName? directive.modifiers) argument).value, .handler body traits)] := by
  have given (value : Value) : ∃ body traits,
      (Handler.ofValue around value).value = .handler body traits := by
    simp only [Handler.ofValue]
    split
    · exact ⟨_, _, rfl⟩
    · exact ⟨_, _, rfl⟩
    · split <;> exact ⟨_, _, rfl⟩
  simp only [listener, Reported.value_bind]
  split
  · next value _ =>
    split
    · exact ⟨_, _, rfl⟩
    · obtain ⟨body, traits, same⟩ := given value
      simp only [Reported.value_bind, Reported.value_pure, same]
      exact ⟨_, _, rfl⟩
  · exact ⟨_, _, rfl⟩

theorem ofListener_of_argument {directive : Directive} {argument : Argument}
    (given : directive.argument = some argument) :
    (ofListener around directive).value = (listener around directive argument).value := by
  simp only [ofListener, given]
  split
  · split <;> rfl
  · rfl

theorem spread?_ofListener (directive : Directive) :
    ∀ value ∈ (ofListener around directive).value.spread?,
      ∃ given, value = .call .toHandlers [given] := by
  cases given : directive.argument with
  | none =>
    simp only [ofListener, given]
    split
    · rintro value ⟨⟩
    · rintro value ⟨⟩
      exact ⟨_, rfl⟩
    · rintro value ⟨⟩
  | some argument =>
    obtain ⟨body, traits, entry⟩ := listener_entry around directive argument
    rw [ofListener_of_argument around given, entry]
    rintro value ⟨⟩

theorem spread?_ofModel (element : Element) (directive : Directive) :
    (ofModel around element directive).value.spread? = none := by
  simp only [ofModel]
  split
  · rfl
  · rfl
  · split
    · rfl
    · simp only [Reported.value_bind]
      split
      · rfl
      · split
        · rfl
        · simp only [Reported.value_bind]
          split <;> rfl

end Contribution

theorem spread?_plainContribution (around : Surroundings) (element : Element) (property : Property) :
    ∀ value ∈ (plainContribution around element property).value.spread?, value.isTerm = true := by
  cases property with
  | attr given =>
    intro value member
    cases (Contribution.spread?_ofAttribute element.tag given).symm.trans member
  | dir directive =>
    simp only [plainContribution]
    split
    · rintro value ⟨⟩
    · split
      · rintro value ⟨⟩
      · exact Contribution.spread?_ofBind around directive

/-- What is spread is an expression of the template or the listeners from one. -/
theorem spread?_contributions (around : Surroundings) (element : Element) :
    ∀ contribution ∈ contributions around element, ∀ value ∈ contribution.spread?,
      value.isTerm = true ∨ ∃ given, value = .call .toHandlers [given] := by
  intro contribution member value spread
  simp only [contributions, List.mem_append, List.mem_map] at member
  rcases member with (⟨property, -, rfl⟩ | ⟨directive, -, rfl⟩) | ⟨directive, -, rfl⟩
  · exact .inl (spread?_plainContribution around element property value spread)
  · exact .inr (Contribution.spread?_ofListener around directive value spread)
  · cases (Contribution.spread?_ofModel around element directive).symm.trans spread

namespace Collection

variable {collection : Collection} {contribution : Contribution}

theorem pending_flush : collection.flush.pending = [] := by
  unfold flush
  split
  · next empty => exact List.isEmpty_iff.1 empty
  · rfl

theorem merged_flush : collection.flush.merged = collection.merged ∨
    collection.flush.merged = collection.merged ++ [.props (dedupe collection.pending)] := by
  unfold flush
  split
  · exact .inl rfl
  · exact .inr rfl

/-- Of the objects that are merged so far none is a call that merges, and names are distinct in each
that is written out. -/
structure Shaped (collection : Collection) : Prop where
  single : ∀ object ∈ collection.merged, object.helper? ≠ some .mergeProps
  distinct : ∀ object ∈ collection.merged, ∀ entries ∈ object.entries?,
    (staticNames entries).Nodup

theorem nodup_dedupe (entries : List Entry) : (staticNames (dedupe entries)).Nodup := by
  suffices kept : ∀ done, (staticNames done).Nodup →
      (staticNames (entries.foldl addEntry done)).Nodup from kept [] List.nodup_nil
  induction entries with
  | nil => exact fun done distinct => distinct
  | cons entry rest ih => exact fun done distinct => ih _ (nodup_addEntry distinct entry)

theorem Shaped.flush (shaped : collection.Shaped) : collection.flush.Shaped := by
  rcases @merged_flush collection with same | same
  · exact ⟨by rw [same]; exact shaped.single, by rw [same]; exact shaped.distinct⟩
  · constructor
    · rw [same]
      exact List.forall_mem_append.2 ⟨shaped.single, List.forall_mem_singleton.2 nofun⟩
    · rw [same]
      refine List.forall_mem_append.2 ⟨shaped.distinct, List.forall_mem_singleton.2 ?_⟩
      rintro entries ⟨⟩
      exact nodup_dedupe collection.pending

theorem Shaped.add (isComponent : Bool) (shaped : collection.Shaped)
    (new : ∀ value ∈ contribution.spread?,
      value.helper? ≠ some .mergeProps ∧ value.entries? = none) :
    (collection.add isComponent contribution).Shaped := by
  cases contribution with
  | spread value =>
    obtain ⟨single, unwritten⟩ := new value rfl
    refine ⟨List.forall_mem_append.2 ⟨shaped.flush.single, List.forall_mem_singleton.2 single⟩,
      List.forall_mem_append.2 ⟨shaped.flush.distinct, List.forall_mem_singleton.2 ?_⟩⟩
    rw [unwritten]
    rintro entries ⟨⟩
  | _ => exact ⟨shaped.single, shaped.distinct⟩

/-- The objects that are not written out, in order. -/
def spreads (collection : Collection) : List Expr :=
  collection.merged.filter (·.entries?.isNone)

theorem spreads_flush : collection.flush.spreads = collection.spreads := by
  rcases @merged_flush collection with same | same <;> simp [spreads, same, Expr.entries?]

theorem spreads_add (isComponent : Bool) (new : ∀ value ∈ contribution.spread?,
    value.entries? = none) : (collection.add isComponent contribution).spreads =
      collection.spreads ++ contribution.spread?.toList := by
  cases contribution with
  | spread value =>
    have merged : (collection.add isComponent (.spread value)).spreads =
        collection.flush.spreads ++ [value] := by
      simp [spreads, add, new value rfl]
    rw [merged, spreads_flush]
    rfl
  | _ => exact (List.append_nil _).symm

theorem objects_expr? (shaped : collection.Shaped) :
    Expr.objects collection.expr? = collection.flush.merged := by
  unfold expr?
  split
  · next none => rw [none]; rfl
  · next only one =>
    rw [one]
    exact Expr.objects_some (shaped.flush.single only (by simp [one]))
  · rfl

end Collection

theorem collectedProperties_objects (around : Surroundings) (element : Element) :
    (collectedProperties around element).Shaped ∧
      (Expr.objects (collectedProperties around element).expr?).filter (·.entries?.isNone) =
        (contributions around element).filterMap Contribution.spread? := by
  have known : ∀ contribution ∈ contributions around element, ∀ value ∈ contribution.spread?,
      value.helper? ≠ some .mergeProps ∧ value.entries? = none := by
    intro contribution member value spread
    rcases spread?_contributions around element contribution member value spread with
      term | ⟨given, rfl⟩
    · exact ⟨by simp [Expr.helper?_of_isTerm term], Expr.entries?_of_isTerm term⟩
    · exact ⟨nofun, rfl⟩
  suffices folded : ∀ start : Collection, start.Shaped →
      ((contributions around element).foldl (Collection.add (element.kind = .component))
          start).Shaped ∧
        ((contributions around element).foldl (Collection.add (element.kind = .component))
          start).spreads =
          start.spreads ++ (contributions around element).filterMap Contribution.spread? by
    obtain ⟨shaped, spreads⟩ := folded {} ⟨List.forall_mem_nil _, List.forall_mem_nil _⟩
    refine ⟨shaped, (congrArg _ (Collection.objects_expr? shaped)).trans ?_⟩
    exact Collection.spreads_flush.trans spreads
  generalize contributions around element = list at known
  induction list with
  | nil => exact fun start shaped => ⟨shaped, by simp⟩
  | cons contribution rest ih =>
    obtain ⟨own, others⟩ := List.forall_mem_cons.1 known
    intro start shaped
    obtain ⟨last, spreads⟩ := ih others _ (shaped.add (element.kind = .component) own)
    refine ⟨last, spreads.trans ?_⟩
    rw [Collection.spreads_add _ fun value member => (own value member).2, List.append_assoc]
    cases contribution <;> rfl

def keyedObjects (key : Nat) : List Expr → List Expr
  | .props entries :: rest => .props ((.string "key", .number key) :: entries) :: rest
  | objects => .props [(.string "key", .number key)] :: objects

theorem objects_addKey (key : Nat) (props : Option Expr) :
    Expr.objects (some (Conditional.addKey key props)) = keyedObjects key (Expr.objects props) := by
  rcases props with - | props
  · rfl
  · cases props with
    | call helper args =>
      cases helper
      case mergeProps => rcases args with - | ⟨⟨⟩, rest⟩ <;> rfl
      all_goals rfl
    | _ => rfl

end TemplateCompiler
