import TemplateCompiler.Proofs.CollectedProperties
import TemplateCompiler.Proofs.ParsedPlaces
import TemplateCompiler.Proofs.PlacedNames

/-! Where lowering reports problems. An expression is reported where it stands, a directive without
one at its head, so that all problems of an element lie in the source if its properties do. -/

namespace TemplateCompiler

variable {source : String}

namespace Reported

variable {α β : Type}

/-- All problems met on the way to the value lie in the source. -/
def Lies (source : String) (reported : Reported α) : Prop :=
  ProblemsLie source reported.problems

theorem lies_pure (value : α) : (pure value : Reported α).Lies source :=
  List.forall_mem_nil _

theorem lies_report {problem : Problem} (lies : problem.span.Lies source) :
    (report problem).Lies source :=
  problemsLie_singleton.mpr lies

theorem Lies.bind {first : Reported α} {next : α → Reported β} (lies : first.Lies source)
    (later : ∀ value, (next value).Lies source) : (first >>= next).Lies source :=
  problemsLie_append.mpr ⟨lies, later first.value⟩

theorem Lies.map {first : Reported α} (lies : first.Lies source) (change : α → β) :
    (first >>= fun value => pure (change value)).Lies source :=
  lies.bind fun _ => lies_pure _

theorem lies_mapM {work : α → Reported β} {list : List α}
    (lie : ∀ item ∈ list, (work item).Lies source) : (list.mapM work).Lies source := by
  suffices looped : ∀ done : List β, (List.mapM.loop work list done).Lies source from looped []
  induction list with
  | nil => exact fun done => lies_pure _
  | cons item rest ih =>
    obtain ⟨own, others⟩ := List.forall_mem_cons.mp lie
    exact fun done => own.bind fun made => ih others (made :: done)

theorem lies_filterMapM {work : α → Reported (Option β)} {list : List α}
    (lie : ∀ item ∈ list, (work item).Lies source) : (list.filterMapM work).Lies source := by
  suffices looped : ∀ done : List β, (List.filterMapM.loop work list done).Lies source
    from looped []
  induction list with
  | nil => exact fun done => lies_pure _
  | cons item rest ih =>
    obtain ⟨own, others⟩ := List.forall_mem_cons.mp lie
    refine fun done => own.bind fun made => ?_
    cases made with
    | none => exact ih others done
    | some value => exact ih others (value :: done)

end Reported

open Reported

theorem lies_resolve {span : Span} (lies : span.Lies source) (scope : Scope) (locals : List String)
    (raw : String) (reader : ScriptReader) :
    (resolve scope locals raw span reader).Lies source := by
  unfold resolve
  simp only
  split
  · exact lies_pure _
  · split
    · exact lies_pure _
    · split
      · rw [Reported.Lies, problems_resolveIn]
        exact lies_pure ()
      · exact (lies_report lies).map _

namespace Surroundings

theorem lies_resolve {span : Span} (lies : span.Lies source) (around : Surroundings) (raw : String) :
    (around.resolve raw span).Lies source :=
  TemplateCompiler.lies_resolve lies around.scope [] raw around.reader

theorem lies_resolveValue {value : Value} (lies : value.span.Lies source) (around : Surroundings) :
    (around.resolveValue value).Lies source :=
  around.lies_resolve lies value.content.raw

end Surroundings

namespace Handler

theorem lies_joinStatements {span : Span} (lies : span.Lies source) (around : Surroundings)
    (statements : List String) : (joinStatements around span statements).Lies source := by
  induction statements with
  | nil => exact lies_pure _
  | cons first rest ih =>
    have resolved := lies_resolve lies around.scope eventLocals first around.reader
    cases rest with
    | nil => exact resolved.map _
    | cons second others => exact resolved.bind fun _ => ih.map _

theorem lies_ofValue {value : Value} (lies : value.span.Lies source) (around : Surroundings) :
    (ofValue around value).Lies source := by
  unfold ofValue
  simp only
  split
  · exact (around.lies_resolve lies _).map _
  · exact (around.lies_resolve lies _).map _
  · split
    · exact (lies_joinStatements lies around _).bind fun _ => (lies_pure _).map _
    · exact (lies_resolve lies _ _ _ around.reader).map _

end Handler

theorem Directive.Lies.emptyProblem? {directive : Directive} (lies : directive.Lies source)
    {kind : ProblemKind} {problem : Problem} (found : directive.emptyProblem? kind = some problem) :
    problem.span.Lies source := by
  unfold Directive.emptyProblem? at found
  split at found
  · cases found
    cases given : directive.expression with
    | none => exact lies.head
    | some value => exact lies.expression value given
  · cases found

namespace Contribution

variable {directive : Directive}

theorem lies_boundKey (lies : directive.Lies source) (around : Surroundings) (argument : Argument) :
    (boundKey around directive argument).Lies source := by
  unfold boundKey
  simp only
  split
  · split
    · exact lies_pure _
    · exact lies_pure _
  · exact (around.lies_resolve lies.head _).map _

theorem lies_ofBind (lies : directive.Lies source) (around : Surroundings) :
    (ofBind around directive).Lies source := by
  unfold ofBind
  split
  · next found =>
    refine (lies_report (lies.emptyProblem? found)).bind fun _ => ?_
    split
    · exact lies_pure _
    · exact (lies_boundKey lies around _).map _
  · next value _ given =>
    refine (around.lies_resolveValue (lies.expression value given)).bind fun _ => ?_
    split
    · exact lies_pure _
    · exact (lies_boundKey lies around _).map _
  · exact lies_pure _

theorem lies_listenerKey (lies : directive.Lies source) (around : Surroundings)
    (modifiers : ListenerModifiers) (argument : Argument) :
    (listenerKey around directive modifiers argument).Lies source := by
  cases argument with
  | static name => exact lies_pure _
  | dynamic expression => exact (around.lies_resolve lies.head _).map _

theorem lies_listener (lies : directive.Lies source) (around : Surroundings) (argument : Argument) :
    (listener around directive argument).Lies source := by
  unfold listener
  simp only
  refine (lies_listenerKey lies around _ argument).bind fun _ => ?_
  split
  · next value given =>
    split
    · exact (lies_pure _).map _
    · exact (Handler.lies_ofValue (lies.expression value given) around).map _
  · exact (lies_pure _).map _

theorem lies_ofListener (lies : directive.Lies source) (around : Surroundings) :
    (ofListener around directive).Lies source := by
  unfold ofListener
  split
  · split
    · next found => exact (lies_report (lies.emptyProblem? found)).map _
    · next value _ given => exact (around.lies_resolveValue (lies.expression value given)).map _
    · exact lies_pure _
  · next argument _ =>
    have listened := lies_listener lies around argument
    split
    · next found =>
      split
      · exact (lies_report (lies.emptyProblem? found)).bind fun _ => listened
      · exact listened
    · exact listened

theorem lies_modelKeys (lies : directive.Lies source) (around : Surroundings) :
    (modelKeys around directive).Lies source := by
  unfold modelKeys
  split
  · exact lies_pure _
  · exact lies_pure _
  · exact (around.lies_resolve lies.head _).map _

theorem lies_setValue? {properties : Properties} (lie : ∀ property ∈ properties, property.Lies source)
    (around : Surroundings) (name : String) : (setValue? around properties name).Lies source := by
  unfold setValue?
  split
  · exact lies_pure _
  · exact lies_pure _
  · next directive found =>
    have own : directive.Lies source := lie _ (List.mem_of_find?_eq_some found)
    split
    · exact lies_pure _
    · next value given => exact (around.lies_resolveValue (own.expression value given)).map _

theorem lies_inputModel {properties : Properties}
    (lie : ∀ property ∈ properties, property.Lies source) (lies : directive.Lies source)
    (around : Surroundings) (model : Expr) :
    (inputModel around properties directive model).Lies source := by
  unfold inputModel
  simp only
  split
  · exact (lies_report lies.span).map _
  · split
    · exact lies_pure _
    · split
      · exact (lies_setValue? lie around _).map _
      · exact lies_pure _

theorem lies_elementModel {element : Element}
    (lie : ∀ property ∈ element.properties, property.Lies source) (lies : directive.Lies source)
    (around : Surroundings) (model : Expr) :
    (elementModel around element directive model).Lies source := by
  unfold elementModel
  split
  · exact lies_inputModel lie lies around model
  · split
    · exact lies_pure _
    · split
      · exact lies_pure _
      · exact (lies_report lies.span).map _

theorem lies_ofModel {element : Element}
    (lie : ∀ property ∈ element.properties, property.Lies source) (lies : directive.Lies source)
    (around : Surroundings) : (ofModel around element directive).Lies source := by
  unfold ofModel
  split
  · next found => exact (lies_report (lies.emptyProblem? found)).map _
  · exact lies_pure _
  · next value _ given =>
    have inside := lies.expression value given
    simp only
    split
    · exact (lies_report inside).map _
    · refine (around.lies_resolve inside _).bind fun model => ?_
      split
      · exact ((lies_modelKeys lies around).map _).map _
      · split
        · exact (lies_report lies.head).map _
        · refine (lies_elementModel lie lies around model).bind fun found => ?_
          split
          · exact lies_pure _
          · exact lies_pure _

end Contribution

theorem lies_plainContribution {property : Property} (lies : property.Lies source)
    (around : Surroundings) (element : Element) :
    (plainContribution around element property).Lies source := by
  cases property with
  | attr given => exact lies_pure _
  | dir directive =>
    simp only [plainContribution]
    split
    · exact lies_pure _
    · split
      · exact lies_pure _
      · exact Contribution.lies_ofBind lies around

theorem lies_lowerDirective {directive : Directive} (lies : directive.Lies source)
    (around : Surroundings) : (lowerDirective around directive).Lies source := by
  unfold lowerDirective
  extract_lets name modifiers argued
  have lies_argued (value : Option Expr) : (argued value).Lies source := by
    simp only [argued]
    split
    · exact (lies_pure _).map _
    · exact (lies_pure _).map _
    · exact (around.lies_resolve lies.head _).bind fun _ => (lies_pure _).map _
  split
  · next value given =>
    split
    · exact (lies_pure _).bind lies_argued
    · refine (around.lies_resolveValue (lies.expression value given)).bind fun _ => ?_
      exact (lies_pure _).bind lies_argued
  · exact (lies_pure _).bind lies_argued

theorem lies_lowerRuntime {directive : Directive} (lies : directive.Lies source)
    (around : Surroundings) : (lowerRuntime around directive).Lies source := by
  unfold lowerRuntime
  split
  · exact lies_pure _
  · split
    · exact (lies_report lies.span).map _
    · exact (lies_lowerDirective lies around).map _

section Elements

variable {element : Element} (lie : ∀ property ∈ element.properties, property.Lies source)

include lie

theorem lies_of_directive {directive : Directive}
    (member : directive ∈ element.properties.filterMap Property.directive?) :
    directive.Lies source := by
  obtain ⟨property, inside, same⟩ := List.mem_filterMap.mp member
  cases property with
  | attr given => cases same
  | dir given =>
    cases same
    exact lie _ inside

theorem lies_lowerProperties (around : Surroundings) :
    (lowerProperties around element).Lies source := by
  have named {name : String} {directive : Directive}
      (member : directive ∈ directivesNamed element.properties name) : directive.Lies source :=
    lies_of_directive lie (List.mem_of_mem_filter member)
  unfold lowerProperties
  refine (lies_mapM fun property member => lies_plainContribution (lie property member) around
    element).bind fun _ => ?_
  refine (lies_mapM fun directive member =>
    Contribution.lies_ofListener (named member) around).bind fun _ => ?_
  refine (lies_mapM fun directive member =>
    Contribution.lies_ofModel lie (named member) around).bind fun _ => ?_
  exact (lies_filterMapM fun directive member =>
    lies_lowerRuntime (lies_of_directive lie member) around).map _

theorem lies_computed {value : Value} (form : TagForm.of element = .computed value) :
    value.span.Lies source := by
  unfold TagForm.of at form
  split at form
  · cases form
  · split at form
    · next dynamic =>
      subst form
      unfold TagForm.dynamic? at dynamic
      split at dynamic
      · cases dynamic
      · split at dynamic
        · next given _ => cases found : given.value <;> simp [found] at dynamic
        · next directive set =>
          obtain ⟨given, found, same⟩ := Option.map_eq_some_iff.mp dynamic
          cases same
          have own : directive.Lies source := lie _ (List.mem_of_find?_eq_some set)
          exact own.expression value found
        · cases dynamic
    · cases form
    · cases form

theorem lies_lowerTag (around : Surroundings) :
    ((TagForm.of element).lower around element.tag).Lies source := by
  cases form : TagForm.of element with
  | computed value => exact (around.lies_resolveValue (lies_computed lie form)).map _
  | native | named | core | user => exact lies_pure _

theorem lies_lowerElement (around : Surroundings) (table : Table) (children : List NodeId) :
    (lowerElement around table element children).Lies source := by
  unfold lowerElement
  split
  · exact (lies_lowerProperties lie around).map _
  · exact (lies_lowerTag lie around).bind fun _ => (lies_lowerProperties lie around).map _

end Elements

end TemplateCompiler
