import TemplateCompiler.Proofs.CollectedProperties
import TemplateCompiler.Proofs.SubstitutedNames
import TemplateCompiler.Proofs.WalkInvariants

/-! What lowering meets on the way to an element. Of all that it reports, only entering an
alternative among siblings or in a branch comes with an alternative without a condition;
expressions, directives and elements never do. And the slices that are taken of their texts are in
range, if the reader of scripts places the names of an expression inside of it. -/

namespace TemplateCompiler

namespace Reported

variable {α β : Type} {reader : ScriptReader}

/-- None of the problems is an alternative without a condition, and the reader is to blame if a slice
was out of range. -/
structure Regular (reader : ScriptReader) (reported : Reported α) : Prop where
  other : ∀ problem ∈ reported.problems, problem.kind ≠ .elseWithoutIf
  sound : reader.Places → reported.fault? = none

theorem regular_pure (value : α) : (pure value : Reported α).Regular reader :=
  ⟨List.forall_mem_nil _, fun _ => rfl⟩

theorem regular_report {problem : Problem} (other : problem.kind ≠ .elseWithoutIf) :
    (report problem).Regular reader :=
  ⟨List.forall_mem_singleton.mpr other, fun _ => rfl⟩

theorem Regular.bind {first : Reported α} {next : α → Reported β} (regular : first.Regular reader)
    (later : ∀ value, (next value).Regular reader) : (first >>= next).Regular reader := by
  refine ⟨List.forall_mem_append.mpr ⟨regular.other, (later first.value).other⟩, fun places => ?_⟩
  rw [fault?_bind, regular.sound places, (later first.value).sound places]
  rfl

theorem Regular.map {first : Reported α} (regular : first.Regular reader) (change : α → β) :
    (first >>= fun value => pure (change value)).Regular reader :=
  regular.bind fun _ => regular_pure _

theorem regular_mapM {work : α → Reported β} (each : ∀ item, (work item).Regular reader)
    (list : List α) :
    (list.mapM work).Regular reader := by
  suffices looped : ∀ done : List β, (List.mapM.loop work list done).Regular reader from looped []
  induction list with
  | nil => exact fun done => regular_pure _
  | cons item rest ih => exact fun done => (each item).bind fun made => ih (made :: done)

theorem regular_filterMapM {work : α → Reported (Option β)} (each : ∀ item, (work item).Regular reader)
    (list : List α) : (list.filterMapM work).Regular reader := by
  suffices looped : ∀ done : List β, (List.filterMapM.loop work list done).Regular reader from looped []
  induction list with
  | nil => exact fun done => regular_pure _
  | cons item rest ih =>
    refine fun done => (each item).bind fun made => ?_
    cases made with
    | none => exact ih done
    | some value => exact ih (value :: done)

end Reported

open Reported

theorem regular_resolve (scope : Scope) (locals : List String) (raw : String) (span : Span)
    (reader : ScriptReader) : (resolve scope locals raw span reader).Regular reader := by
  refine ⟨?_, fun places => fault?_resolve places scope locals raw span⟩
  unfold resolve
  simp only
  split
  · exact List.forall_mem_nil _
  · split
    · exact List.forall_mem_nil _
    · split
      · rw [problems_resolveIn]
        exact List.forall_mem_nil _
      · exact List.forall_mem_singleton.mpr (by simp)

theorem Surroundings.regular_resolve (around : Surroundings) (raw : String) (span : Span) :
    (around.resolve raw span).Regular around.reader :=
  TemplateCompiler.regular_resolve around.scope [] raw span around.reader

theorem Surroundings.regular_resolveValue (around : Surroundings) (value : Value) :
    (around.resolveValue value).Regular around.reader :=
  around.regular_resolve value.content.raw value.span

namespace Handler

theorem regular_joinStatements (around : Surroundings) (span : Span) (statements : List String) :
    (joinStatements around span statements).Regular around.reader := by
  induction statements with
  | nil => exact regular_pure _
  | cons first rest ih =>
    have resolved := regular_resolve around.scope eventLocals first span around.reader
    cases rest with
    | nil => exact resolved.map _
    | cons second others => exact resolved.bind fun _ => ih.map _

theorem regular_ofValue (around : Surroundings) (value : Value) :
    (ofValue around value).Regular around.reader := by
  unfold ofValue
  simp only
  split
  · exact (around.regular_resolve ..).map _
  · exact (around.regular_resolve ..).map _
  · split
    · exact (regular_joinStatements ..).bind fun _ => (regular_pure _).map _
    · exact (regular_resolve ..).map _

end Handler

theorem Directive.kind_emptyProblem? {directive : Directive} {kind : ProblemKind} {problem : Problem}
    (found : directive.emptyProblem? kind = some problem) : problem.kind = kind := by
  unfold Directive.emptyProblem? at found
  split at found
  · cases found
    rfl
  · cases found

theorem Directive.regular_emptyProblem? {reader : ScriptReader} {directive : Directive}
    {kind : ProblemKind}
    {problem : Problem} (found : directive.emptyProblem? kind = some problem)
    (other : kind ≠ .elseWithoutIf) : (report problem).Regular reader :=
  regular_report (by rwa [directive.kind_emptyProblem? found])

namespace Contribution

variable (around : Surroundings) (element : Element) (directive : Directive)

theorem regular_boundKey (argument : Argument) :
    (boundKey around directive argument).Regular around.reader := by
  unfold boundKey
  simp only
  split
  · split
    · exact regular_pure _
    · exact regular_pure _
  · exact (around.regular_resolve ..).map _

theorem regular_ofBind : (ofBind around directive).Regular around.reader := by
  unfold ofBind
  split
  · next found =>
    refine (directive.regular_emptyProblem? found (by decide)).bind fun _ => ?_
    split
    · exact regular_pure _
    · exact (regular_boundKey ..).map _
  · refine (around.regular_resolveValue _).bind fun _ => ?_
    split
    · exact regular_pure _
    · exact (regular_boundKey ..).map _
  · exact regular_pure _

theorem regular_listenerKey (modifiers : ListenerModifiers) (argument : Argument) :
    (listenerKey around directive modifiers argument).Regular around.reader := by
  cases argument with
  | static name => exact regular_pure _
  | dynamic expression => exact (around.regular_resolve ..).map _

theorem regular_listener (argument : Argument) :
    (listener around directive argument).Regular around.reader := by
  unfold listener
  simp only
  refine (regular_listenerKey ..).bind fun _ => ?_
  split
  · split
    · exact (regular_pure _).map _
    · exact (Handler.regular_ofValue around _).map _
  · exact (regular_pure _).map _

theorem regular_ofListener : (ofListener around directive).Regular around.reader := by
  unfold ofListener
  split
  · split
    · next found => exact (directive.regular_emptyProblem? found (by decide)).map _
    · exact (around.regular_resolveValue _).map _
    · exact regular_pure _
  · next argument _ =>
    have listened := regular_listener around directive argument
    split
    · next found =>
      split
      · exact (directive.regular_emptyProblem? found (by decide)).bind fun _ => listened
      · exact listened
    · exact listened

theorem regular_modelKeys : (modelKeys around directive).Regular around.reader := by
  unfold modelKeys
  split
  · exact regular_pure _
  · exact regular_pure _
  · exact (around.regular_resolve ..).map _

theorem regular_setValue? (properties : Properties) (name : String) :
    (setValue? around properties name).Regular around.reader := by
  unfold setValue?
  split
  · exact regular_pure _
  · exact regular_pure _
  · split
    · exact regular_pure _
    · exact (around.regular_resolveValue _).map _

theorem regular_inputModel (properties : Properties) (model : Expr) :
    (inputModel around properties directive model).Regular around.reader := by
  unfold inputModel
  simp only
  split
  · exact (regular_report (by simp)).map _
  · split
    · exact regular_pure _
    · split
      · exact (regular_setValue? ..).map _
      · exact regular_pure _

theorem regular_elementModel (model : Expr) :
    (elementModel around element directive model).Regular around.reader := by
  unfold elementModel
  split
  · exact regular_inputModel ..
  · split
    · exact regular_pure _
    · split
      · exact regular_pure _
      · exact (regular_report (by simp)).map _

theorem ne_of_modelProblem? {around : Surroundings} {text : String} {kind : ProblemKind}
    (found : modelProblem? around text = some kind) : kind ≠ .elseWithoutIf := by
  unfold modelProblem? at found
  split at found
  · cases found
    decide
  · split at found
    · cases found
      decide
    · cases found

theorem regular_ofModel : (ofModel around element directive).Regular around.reader := by
  unfold ofModel
  split
  · next found => exact (directive.regular_emptyProblem? found (by decide)).map _
  · exact regular_pure _
  · simp only
    split
    · next found => exact (regular_report (ne_of_modelProblem? found)).map _
    · refine (around.regular_resolve ..).bind fun model => ?_
      split
      · exact ((regular_modelKeys ..).map _).map _
      · split
        · exact (regular_report (by simp)).map _
        · refine (regular_elementModel ..).bind fun found => ?_
          split
          · exact regular_pure _
          · exact regular_pure _

end Contribution

theorem regular_plainContribution (around : Surroundings) (element : Element) (property : Property) :
    (plainContribution around element property).Regular around.reader := by
  cases property with
  | attr given => exact regular_pure _
  | dir directive =>
    simp only [plainContribution]
    split
    · exact regular_pure _
    · split
      · exact regular_pure _
      · exact Contribution.regular_ofBind ..

theorem regular_lowerDirective (around : Surroundings) (directive : Directive) :
    (lowerDirective around directive).Regular around.reader := by
  unfold lowerDirective
  extract_lets name modifiers argued
  have regular_argued (value : Option Expr) : (argued value).Regular around.reader := by
    simp only [argued]
    split
    · exact (regular_pure _).map _
    · exact (regular_pure _).map _
    · exact (around.regular_resolve ..).bind fun _ => (regular_pure _).map _
  split
  · split
    · exact (regular_pure _).bind regular_argued
    · exact (around.regular_resolveValue _).bind fun _ => (regular_pure _).bind regular_argued
  · exact (regular_pure _).bind regular_argued

theorem regular_lowerRuntime (around : Surroundings) (directive : Directive) :
    (lowerRuntime around directive).Regular around.reader := by
  unfold lowerRuntime
  split
  · exact regular_pure _
  · split
    · exact (regular_report (by simp)).map _
    · exact (regular_lowerDirective ..).map _

theorem regular_lowerProperties (around : Surroundings) (element : Element) :
    (lowerProperties around element).Regular around.reader := by
  unfold lowerProperties
  refine (regular_mapM (regular_plainContribution around element) _).bind fun _ => ?_
  refine (regular_mapM (Contribution.regular_ofListener around) _).bind fun _ => ?_
  refine (regular_mapM (Contribution.regular_ofModel around element) _).bind fun _ => ?_
  exact (regular_filterMapM (regular_lowerRuntime around) _).map _

theorem regular_lowerTag (around : Surroundings) (element : Element) :
    ((TagForm.of element).lower around element.tag).Regular around.reader := by
  cases TagForm.of element with
  | computed value => exact (around.regular_resolveValue value).map _
  | native | named | core | user => exact regular_pure _

theorem regular_lowerElement (around : Surroundings) (table : Table) (element : Element)
    (children : List NodeId) : (lowerElement around table element children).Regular around.reader := by
  unfold lowerElement
  split
  · exact (regular_lowerProperties ..).map _
  · exact (regular_lowerTag ..).bind fun _ => (regular_lowerProperties ..).map _

theorem TextRun.regular_part (around : Surroundings) (node : Node) :
    (part around node).Regular around.reader := by
  unfold part
  split
  · exact regular_pure _
  · split
    · exact regular_pure _
    · exact (around.regular_resolve ..).map _
  · exact regular_pure _

theorem Conditional.regular_links (around : Surroundings) (pairs : List (Branch × Node)) :
    (links around pairs).Regular around.reader := by
  induction pairs with
  | nil => exact regular_pure _
  | cons pair rest ih =>
    obtain ⟨branch, child⟩ := pair
    unfold links
    refine ih.bind fun later => ?_
    cases branch.condition with
    | none => exact regular_pure _
    | some condition => exact (around.regular_resolveValue condition).map _

end TemplateCompiler
