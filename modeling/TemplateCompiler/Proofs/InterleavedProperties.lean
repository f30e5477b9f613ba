import Mathlib.Data.List.Basic
import Mathlib.Data.List.Perm.Basic
import Mathlib.Data.List.Rotate
import TemplateCompiler.Lowering.Pass.Element
import TemplateCompiler.Proofs.CollectedProperties
import TemplateCompiler.Template.Builder
import TemplateCompiler.Token.Lexer

/-! How the properties of an element interleave. Each part of the lowering reads properties of one
class only, and passes over the others without a trace; so an element is lowered alike whenever
every class comes in the same order. -/

namespace TemplateCompiler

/-- The classes in which the properties of an element are collected. -/
inductive PropertyClass where
  /-- Attributes and bound properties. -/
  | plain
  | listener
  | model
  | other
deriving DecidableEq, Repr

def Property.collectedAs : Property → PropertyClass
  | .attr _ => .plain
  | .dir directive =>
    if directive.name = "bind" then .plain
    else if directive.name = "on" then .listener
    else if directive.name = "model" then .model
    else .other

/-- Both hold the same properties, and those of each class in the same order. -/
def Properties.Interleaves (first second : Properties) : Prop :=
  ∀ kind, first.filter (·.collectedAs = kind) = second.filter (·.collectedAs = kind)

instance (first second : Properties) : Decidable (first.Interleaves second) :=
  decidable_of_iff (∀ kind ∈ [PropertyClass.plain, .listener, .model, .other],
      first.filter (·.collectedAs = kind) = second.filter (·.collectedAs = kind))
    ⟨fun same kind => same kind (by cases kind <;> decide), fun same kind _ => same kind⟩

/-- Items that a step passes over may as well be left out. -/
theorem foldl_filter_of_silent {α σ : Type} {keep : α → Bool} {step : σ → α → σ}
    (silent : ∀ state item, keep item = false → step state item = state) (list : List α)
    (start : σ) : (list.filter keep).foldl step start = list.foldl step start := by
  rw [List.foldl_filter]
  congr
  funext state item
  split
  · rfl
  · next dropped => exact (silent state item (Bool.eq_false_iff.2 dropped)).symm

theorem flatMap_filter_of_silent {α β : Type} {keep : α → Bool} {read : α → List β}
    (silent : ∀ item, keep item = false → read item = []) (list : List α) :
    (list.filter keep).flatMap read = list.flatMap read := by
  have unread (found : List β) (item : α) (dropped : keep item = false) :
      found ++ read item = found := by
    rw [silent item dropped, List.append_nil]
  rw [List.flatMap_eq_foldl, List.flatMap_eq_foldl, foldl_filter_of_silent unread]

theorem findSome?_filter_of_silent {α β : Type} {keep : α → Bool} {read : α → Option β}
    (silent : ∀ item, keep item = false → read item = none) (list : List α) :
    (list.filter keep).findSome? read = list.findSome? read := by
  induction list with
  | nil => rfl
  | cons item rest ih =>
    cases kept : keep item with
    | false => rw [List.filter_cons_of_neg (by simp [kept]), ih, List.findSome?_cons, silent item kept]
    | true => rw [List.filter_cons_of_pos kept, List.findSome?_cons, List.findSome?_cons, ih]

namespace Reported

variable {α β : Type}

theorem eq_of {first second : Reported α} (value : first.value = second.value)
    (problems : first.problems = second.problems) (fault : first.fault? = second.fault?) :
    first = second := by
  cases first
  cases second
  simp only at value problems fault
  rw [value, problems, fault]

theorem filterMapM_filter_of_silent {keep : α → Bool} {work : α → Reported (Option β)}
    (silent : ∀ item, keep item = false → work item = pure none) (list : List α) :
    (list.filter keep).filterMapM work = list.filterMapM work := by
  apply eq_of
  · rw [value_filterMapM, value_filterMapM, List.filterMap_filter]
    refine List.filterMap_congr fun item _ => ?_
    cases kept : keep item with
    | false => rw [silent item kept]; rfl
    | true => rfl
  · rw [problems_filterMapM, problems_filterMapM]
    exact flatMap_filter_of_silent (fun item dropped => congrArg problems (silent item dropped))
      list
  · rw [fault?_filterMapM, fault?_filterMapM]
    exact findSome?_filter_of_silent (fun item dropped => congrArg fault? (silent item dropped))
      list

end Reported

namespace Properties.Interleaves

variable {first second : Properties} {kind : PropertyClass}

theorem filter_eq {keep : Property → Bool} (same : Interleaves first second)
    (within : ∀ property, keep property = true → property.collectedAs = kind) :
    first.filter keep = second.filter keep := by
  have narrowed (list : Properties) :
      list.filter keep = (list.filter (·.collectedAs = kind)).filter keep := by
    rw [List.filter_filter]
    refine List.filter_congr fun property _ => ?_
    cases kept : keep property with
    | false => rfl
    | true => exact (decide_eq_true (within property kept)).symm
  rw [narrowed first, narrowed second, same kind]

theorem foldl_eq {σ : Type} {step : σ → Property → σ} (same : Interleaves first second)
    (silent : ∀ state property, property.collectedAs ≠ kind → step state property = state)
    (start : σ) : first.foldl step start = second.foldl step start := by
  have narrowed (list : Properties) :
      (list.filter (·.collectedAs = kind)).foldl step start = list.foldl step start :=
    foldl_filter_of_silent
      (fun state property other => silent state property (of_decide_eq_false other)) list start
  rw [← narrowed first, same kind, narrowed second]

theorem flatMap_eq {β : Type} {read : Property → List β} (same : Interleaves first second)
    (silent : ∀ property, property.collectedAs ≠ kind → read property = []) :
    first.flatMap read = second.flatMap read := by
  have narrowed (list : Properties) :
      (list.filter (·.collectedAs = kind)).flatMap read = list.flatMap read :=
    flatMap_filter_of_silent (fun property other => silent property (of_decide_eq_false other))
      list
  rw [← narrowed first, same kind, narrowed second]

theorem findSome?_eq {β : Type} {read : Property → Option β} (same : Interleaves first second)
    (silent : ∀ property, property.collectedAs ≠ kind → read property = none) :
    first.findSome? read = second.findSome? read := by
  have narrowed (list : Properties) :
      (list.filter (·.collectedAs = kind)).findSome? read = list.findSome? read :=
    findSome?_filter_of_silent (fun property other => silent property (of_decide_eq_false other))
      list
  rw [← narrowed first, same kind, narrowed second]

theorem setter?_eq (same : Interleaves first second) (name : String) :
    first.setter? name = second.setter? name := by
  have within (property : Property) (sets : property.sets (· == name) = true) :
      property.collectedAs = .plain := by
    cases property with
    | attr given => rfl
    | dir directive =>
      simp only [Property.sets, Bool.and_eq_true, beq_iff_eq] at sets
      simp only [Property.collectedAs, sets.1.1, if_true]
  simp only [Properties.setter?, Properties.findSetter?, ← List.head?_filter,
    same.filter_eq within]

theorem directives_eq {keep : Directive → Bool} (same : Interleaves first second)
    (kind : PropertyClass)
    (within : ∀ directive, keep directive = true → (Property.dir directive).collectedAs = kind) :
    (first.filterMap Property.directive?).filter keep =
      (second.filterMap Property.directive?).filter keep := by
  have narrowed (list : Properties) : (list.filterMap Property.directive?).filter keep =
      (list.filter fun property => property.directive?.any keep).filterMap Property.directive? := by
    rw [List.filter_filterMap, List.filterMap_filter]
    refine List.filterMap_congr fun property _ => ?_
    cases property with
    | attr given => rfl
    | dir directive => rfl
  have among (property : Property) (kept : property.directive?.any keep = true) :
      property.collectedAs = kind := by
    cases property with
    | attr given => cases kept
    | dir directive => exact within directive kept
  rw [narrowed first, narrowed second, same.filter_eq among]

theorem directivesNamed_eq (same : Interleaves first second) (name : String) :
    directivesNamed first name = directivesNamed second name := by
  refine same.directives_eq (Property.dir { (default : Directive) with name }).collectedAs
    fun directive named => ?_
  simp only [Property.collectedAs, eq_of_beq named]

theorem isBuiltIn_of_ne_other {directive : Directive}
    (outside : (Property.dir directive).collectedAs ≠ .other) :
    isBuiltIn directive.name = true := by
  simp only [Property.collectedAs] at outside
  split at outside
  · next bind => simp [isBuiltIn, bind]
  · split at outside
    · next listener => simp [isBuiltIn, listener]
    · split at outside
      · next model => simp [isBuiltIn, model]
      · exact absurd rfl outside

theorem runtimeDirectives_eq (same : Interleaves first second) :
    runtimeDirectives first = runtimeDirectives second := by
  refine same.directives_eq .other fun directive kept => ?_
  by_contra outside
  simp [isBuiltIn_of_ne_other outside] at kept

end Properties.Interleaves

section Element

variable {element : Element} {reordered : Properties} (around : Surroundings)

theorem dynamic?_of_interleaves (same : element.properties.Interleaves reordered) :
    TagForm.dynamic? { element with properties := reordered } = TagForm.dynamic? element := by
  simp only [TagForm.dynamic?, same.setter?_eq]

theorem tagForm_of_interleaves (same : element.properties.Interleaves reordered) :
    TagForm.of { element with properties := reordered } = TagForm.of element := by
  simp only [TagForm.of, dynamic?_of_interleaves same]

theorem isBlock_of_interleaves (same : element.properties.Interleaves reordered) (form : TagForm)
    (hasChildren : Bool) :
    form.isBlock { element with properties := reordered } hasChildren =
      form.isBlock element hasChildren := by
  cases form <;> simp only [TagForm.isBlock, same.setter?_eq]

theorem elementModel_of_interleaves (same : element.properties.Interleaves reordered) :
    Contribution.elementModel around { element with properties := reordered } =
      Contribution.elementModel around element := by
  funext directive model
  simp only [Contribution.elementModel, Contribution.inputModel, Contribution.inputType?,
    Contribution.setValue?, Contribution.selectModel, same.setter?_eq]
  rfl

theorem ofModel_of_interleaves (same : element.properties.Interleaves reordered) :
    Contribution.ofModel around { element with properties := reordered } =
      Contribution.ofModel around element := by
  funext directive
  simp only [Contribution.ofModel, elementModel_of_interleaves around same]

theorem plainContribution_of_ne_plain {property : Property}
    (outside : property.collectedAs ≠ .plain) :
    plainContribution around element property = pure .nothing := by
  cases property with
  | attr given => exact absurd rfl outside
  | dir directive =>
    have named : directive.name ≠ "bind" := fun bind =>
      outside (by simp only [Property.collectedAs, bind, if_true])
    simp only [plainContribution, bne_iff_ne.2 named, if_true]

theorem lowerRuntime_of_ne_other {directive : Directive}
    (outside : (Property.dir directive).collectedAs ≠ .other) :
    lowerRuntime around directive = pure none := by
  simp only [lowerRuntime, Properties.Interleaves.isBuiltIn_of_ne_other outside, if_true]

theorem collectedProperties_of_interleaves (same : element.properties.Interleaves reordered) :
    collectedProperties around { element with properties := reordered } =
      collectedProperties around element := by
  have silent (collection : Collection) (property : Property)
      (outside : property.collectedAs ≠ .plain) :
      collection.add (element.kind = .component) (plainContribution around element property).value =
        collection := by
    rw [plainContribution_of_ne_plain around outside]
    rfl
  -- The three lists are folded over one after the other, so each may be replaced by itself.
  simp only [collectedProperties, contributions, List.foldl_append, List.foldl_map,
    same.directivesNamed_eq, ofModel_of_interleaves around same, same.foldl_eq silent]
  rfl

/-- Only directives of the last class are lowered for the runtime; the others leave no trace. -/
theorem filterMapM_lowerRuntime (same : element.properties.Interleaves reordered) :
    (reordered.filterMap Property.directive?).filterMapM (lowerRuntime around) =
      (element.properties.filterMap Property.directive?).filterMapM (lowerRuntime around) := by
  have narrowed (list : List Directive) :
      (list.filter fun directive => (Property.dir directive).collectedAs = .other).filterMapM
        (lowerRuntime around) = list.filterMapM (lowerRuntime around) :=
    Reported.filterMapM_filter_of_silent
      (fun directive outside => lowerRuntime_of_ne_other around (of_decide_eq_false outside)) list
  rw [← narrowed (reordered.filterMap _), ← narrowed (element.properties.filterMap _),
    same.directives_eq .other fun directive kept => of_decide_eq_true kept]

theorem problems_lowerProperties : (lowerProperties around element).problems =
    (element.properties.flatMap fun property =>
        (plainContribution around element property).problems)
      ++ ((directivesNamed element.properties "on").mapM
            (Contribution.ofListener around)).problems
      ++ ((directivesNamed element.properties "model").mapM
            (Contribution.ofModel around element)).problems
      ++ ((element.properties.filterMap Property.directive?).filterMapM
            (lowerRuntime around)).problems := by
  simp only [lowerProperties, Reported.problems_bind, Reported.problems_pure, List.append_nil,
    Reported.problems_mapM, List.append_assoc]

theorem fault?_lowerProperties : (lowerProperties around element).fault? =
    (element.properties.findSome? fun property =>
      (plainContribution around element property).fault?).or
        ((((directivesNamed element.properties "on").mapM
            (Contribution.ofListener around)).fault?).or
          ((((directivesNamed element.properties "model").mapM
              (Contribution.ofModel around element)).fault?).or
            ((element.properties.filterMap Property.directive?).filterMapM
              (lowerRuntime around)).fault?)) := by
  simp only [lowerProperties, Reported.fault?_bind, Reported.fault?_pure, Option.or_none,
    Reported.fault?_mapM]

theorem lowerProperties_of_interleaves (same : element.properties.Interleaves reordered) :
    lowerProperties around { element with properties := reordered } =
      lowerProperties around element := by
  have silent (property : Property) (outside : property.collectedAs ≠ .plain) :
      plainContribution around element property = pure .nothing :=
    plainContribution_of_ne_plain around outside
  have directives := filterMapM_lowerRuntime around same
  apply Reported.eq_of
  · have applied : appliedDirectives around { element with properties := reordered } =
        appliedDirectives around element := by
      simpa only [appliedDirectives, Reported.value_filterMapM] using
        congrArg Reported.value directives
    simp only [value_lowerProperties, collectedProperties_of_interleaves around same, applied]
  · have plain := same.flatMap_eq fun property outside =>
      congrArg Reported.problems (silent property outside)
    simp only [problems_lowerProperties, plain, same.directivesNamed_eq,
      ofModel_of_interleaves around same, directives]
    rfl
  · have plain := same.findSome?_eq fun property outside =>
      congrArg Reported.fault? (silent property outside)
    simp only [fault?_lowerProperties, plain, same.directivesNamed_eq,
      ofModel_of_interleaves around same, directives]
    rfl

end Element

/-- Two elements come to the same code, with the same problems and assets, wherever they stand. -/
structure Element.ConvertsAs (first second : Element) : Prop where
  lowered : ∀ around table children,
    lowerElement around table first children = lowerElement around table second children
  component : componentToResolve? first = componentToResolve? second
  directives : runtimeDirectives first.properties = runtimeDirectives second.properties
  /-- The state that the pass leaves behind an element. -/
  left : ∀ (node : Node) (site : Site) (progress : Progress),
    Elements.exit { node with content := .element first }
        (site.replace { node with content := .element first }) progress =
      Elements.exit { node with content := .element second }
        (site.replace { node with content := .element second }) progress

/-- However the classes of properties interleave, an element is converted alike. -/
theorem convertsAs_of_interleaves {element : Element} {reordered : Properties}
    (same : element.properties.Interleaves reordered) :
    Element.ConvertsAs { element with properties := reordered } element := by
  have lowered (around : Surroundings) (table : Table) (children : List NodeId) :
      lowerElement around table { element with properties := reordered } children =
        lowerElement around table element children := by
    simp only [lowerElement, lowerFragment, lowerProperties_of_interleaves around same,
      tagForm_of_interleaves same, isBlock_of_interleaves same]
  have component : componentToResolve? { element with properties := reordered } =
      componentToResolve? element := by
    simp only [componentToResolve?, tagForm_of_interleaves same]
  have directives : runtimeDirectives reordered = runtimeDirectives element.properties :=
    same.runtimeDirectives_eq.symm
  refine ⟨lowered, component, directives, ?_⟩
  intro node site progress
  have assets : Elements.addAssets { element with properties := reordered } progress =
      Elements.addAssets element progress := by
    simp only [Elements.addAssets, component, directives]
  simp only [Elements.exit, lowered, assets]
  rfl

/-- A model behind a listener and a directive of the runtime, but in front of the value and the type
that it looks at; the listener and the last property lack their expressions. -/
def radioInput? : Option Element :=
  (parse {} (scan {}
    "<input @change v-focus=\"a\" v-model=\"b\" :value=\"c\" type=\"radio\" :d>")).toOption.bind
    fun parsed => parsed.1.roots.head?.bind Node.element?

theorem convertsAs_of_interleaves_rotated : ∃ element, radioInput? = some element ∧
    element.properties ≠ element.properties.rotate 3 ∧
    element.properties.Interleaves (element.properties.rotate 3) ∧
    (lowerElement default {} element []).problems.map (·.kind) =
      [.bindWithoutExpression, .onWithoutExpression] ∧
    Element.ConvertsAs { element with properties := element.properties.rotate 3 } element := by
  have checked : radioInput?.any (fun element => decide (
      element.properties ≠ element.properties.rotate 3 ∧
      element.properties.Interleaves (element.properties.rotate 3) ∧
      (lowerElement default {} element []).problems.map (·.kind) =
        [.bindWithoutExpression, .onWithoutExpression])) = true := by
    decide +kernel
  cases read : radioInput? with
  | none =>
    rw [read] at checked
    cases checked
  | some element =>
    rw [read] at checked
    obtain ⟨moved, same, kinds⟩ := of_decide_eq_true checked
    exact ⟨element, rfl, moved, same, kinds, convertsAs_of_interleaves same⟩

end TemplateCompiler
