import TemplateCompiler.Proofs.FinalProperties
import TemplateCompiler.Proofs.ParameterNames
import TemplateCompiler.Proofs.WalkContents

/-! The parameters of loops. They are the aliases that a directive gives, as they were written; a
loop whose expression cannot be cut in two is reported, and a comment stands in for it. Whether an
alias can be a parameter is never asked. It can be if it binds a name that is not reserved, for then
it was read as a parameter; what cannot be one binds nothing, or is a reserved word. -/

namespace TemplateCompiler

/-- The alias is a name that is not reserved, or a pattern that binds some name. -/
def ScriptReader.Binds (reader : ScriptReader) (pattern : String) : Prop :=
  if Name.isSimpleIdentifier pattern then Script.isReservedWord pattern = false
  else (LoopExpression.boundNames reader pattern).value ≠ []

/-- What becomes of an alias that is written as a parameter. -/
structure ScriptReader.Judges (reader : ScriptReader) (pattern : String) : Prop where
  accepts : reader.Binds pattern → reader.Accepts pattern
  /-- A reserved word is bound as it is. -/
  refuses : ¬ reader.Accepts pattern →
    Script.isReservedWord pattern = true ∧
        (LoopExpression.boundNames reader pattern).value = [pattern] ∨
      Name.isSimpleIdentifier pattern = false ∧
        (LoopExpression.boundNames reader pattern).value = []

theorem ScriptReader.TakesNames.accepts {reader : ScriptReader} {pattern : String}
    (takes : reader.TakesNames) (binds : reader.Binds pattern) : reader.Accepts pattern := by
  unfold ScriptReader.Binds at binds
  split at binds
  · next simple => exact takes pattern simple binds
  · next complex =>
    unfold LoopExpression.boundNames at binds
    rw [if_neg complex] at binds
    rw [ScriptReader.Accepts, ScriptReader.isValid]
    split at binds
    · exact absurd rfl binds
    · next read => rw [read, Option.isSome_some]

/-- The directive asks for a loop around one of the elements. -/
def Template.Repeats (template : Template) (directive : Directive) : Prop :=
  ∃ node ∈ Node.flattenAll template.roots,
    .dir directive ∈ node.properties ∧ directive.name = "for"

theorem Node.Lineage.parsed {roots : List Node} {node : Node} {above : List Node}
    (lineage : Lineage roots node above) (parsed : ∀ root ∈ roots, root.Parsed) : node.Parsed := by
  induction lineage with
  | root member => exact parsed _ member
  | child _ member ih =>
    cases ih with
    | element below => exact below _ member
    | _ => cases member

/-- Handing out cells makes no loop and changes none. -/
theorem Plan.Recoded.loop {marks : NodeMap CacheMark} {dependencies : NodeMap Expr} {id : NodeId}
    {old new : Code} {call : LoopCall} (recoded : Recoded marks dependencies id old new)
    (loop : new.body = .loop call) : old.body = .loop call := by
  induction recoded with
  | refl => exact loop
  | @wrap body _ _ _ _ _ ih =>
    cases body with
    | vnode => cases loop
    | _ => exact ih loop
  | handlers => cases loop

theorem Plan.exists_of_unfolded?_loop {plan : Plan} {id : NodeId} {call : LoopCall}
    (unfolded : plan.unfolded? id = some (.loop call)) :
    ∃ code, plan.table.get? id = some code ∧ code.body = .loop call := by
  unfold unfolded? at unfolded
  split at unfolded
  · cases unfolded
  · obtain ⟨vnode, -, other⟩ := Option.map_eq_some_iff.1 unfolded
    cases other
  · next body _ found =>
    cases unfolded
    exact ⟨_, found, rfl⟩

def LoopCall.ReadFrom (call : LoopCall) (directive : Directive) : Prop :=
  ∃ loop, directive.loop? = some loop ∧ call.value = loop.value.map .param ∧
    call.key = loop.key.map .param ∧ call.index = loop.index.map .param

def LoopCall.parameters (call : LoopCall) : List Expr :=
  call.value.toList ++ call.key.toList ++ call.index.toList

def Directive.aliases (directive : Directive) : List String :=
  directive.loop?.toList.flatMap fun loop =>
    loop.value.toList ++ loop.key.toList ++ loop.index.toList

theorem LoopCall.ReadFrom.parameters {call : LoopCall} {directive : Directive}
    (read : call.ReadFrom directive) : call.parameters = directive.aliases.map .param := by
  obtain ⟨loop, found, value, key, index⟩ := read
  simp [LoopCall.parameters, Directive.aliases, found, value, key, index,
    Option.toList_map]

namespace Stages

variable {option : LowerOption} {template : Template} {roots : List Node} {progress : Progress}
  {plan : Plan}

theorem exists_loop (stages : Stages option template roots progress plan) {id : NodeId}
    {call : LoopCall} (unfolded : plan.unfolded? id = some (.loop call)) :
    ∃ node ∈ Node.flattenAll roots, ∃ loop, node.content = .loop loop ∧
      call.value = loop.value.map .param ∧ call.key = loop.key.map .param ∧
      call.index = loop.index.map .param := by
  obtain ⟨code, final, body⟩ := Plan.exists_of_unfolded?_loop unfolded
  obtain ⟨node, member, rfl⟩ := stages.exists_of_code final
  obtain ⟨above, lineage⟩ := Node.mem_flattenAll_iff.1 member
  obtain ⟨role, settled⟩ := Settled.along stages.walked.settled lineage
  have same {before : CodeBody} (found : progress.table.get? node.id = some { body := before }) :
      before = .loop call := by
    rcases stages.code_cases found final with ⟨index, moved⟩ | recoded
    · rw [moved] at body
      cases body
    · exact recoded.loop body
  cases settled with
  | text _ _ _ _ _ code => cases same code
  | comment _ code => cases same code
  | element _ code => cases same code
  | conditional _ _ _ code => cases same code
  | loop _ code =>
    rw [← CodeBody.loop.inj (same code)]
    exact ⟨_, member, _, rfl, rfl, rfl, rfl⟩

end Stages

def Plan.patterns (plan : Plan) : List (List String) :=
  plan.table.entries.toList.filterMap fun
    | some { body := .loop call, .. } =>
      some (call.parameters.filterMap fun
        | .param pattern => some pattern
        | _ => none)
    | _ => none

end TemplateCompiler
