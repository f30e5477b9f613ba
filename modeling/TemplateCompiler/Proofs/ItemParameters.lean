import Mathlib.Data.List.ReduceOption
import TemplateCompiler.Proofs.LoopParameters
import TemplateCompiler.Proofs.VisitedNodes

/-! The parameters of the functions that render the items of loops. Each alias stands in its own
place, and underscores stand for those that are passed over. They are made up without a look at the
aliases, so the names are different just if no alias is one of the fillers that are needed. -/

namespace TemplateCompiler

/-- The name of a parameter that is passed over, after so many others that were. -/
def filler (passed : Nat) : String :=
  String.ofList (List.replicate (passed + 1) '_')

def passedOver : List (Option String) → Nat
  | [] => 0
  | some _ :: rest => passedOver rest
  | none :: rest => if rest.any Option.isSome then passedOver rest + 1 else 0

def parameterNames (passed : Nat) : List (Option String) → List String
  | [] => []
  | some given :: rest => given :: parameterNames passed rest
  | none :: rest =>
    if rest.any Option.isSome then filler passed :: parameterNames (passed + 1) rest else []

variable {params : List (Option String)} {name : String} {passed : Nat}

theorem filler_injective : Function.Injective filler := by
  intro first second same
  have lengths := congrArg String.length same
  simpa [filler] using lengths

theorem filler_ne_cached (passed : Nat) : filler passed ≠ "_cached" := by
  intro same
  have underscore : ∀ c ∈ "_cached".toList, c = '_' := by
    rw [← same, filler, String.toList_ofList]
    intro c member
    exact List.eq_of_mem_replicate member
  exact absurd (underscore 'c' (by decide)) (by decide)

theorem parameterPieces_eq (passed : Nat) (params : List (Option String)) :
    parameterPieces passed (params.map (Option.map fun name => [.text name])) =
      (parameterNames passed params).map fun name => [.text name] := by
  induction params generalizing passed with
  | nil => rfl
  | cons param rest ih =>
    cases param with
    | some given =>
      simp only [List.map_cons, Option.map_some, parameterPieces, parameterNames, ih]
    | none =>
      have more : (rest.map (Option.map fun name => [Piece.text name])).any Option.isSome =
          rest.any Option.isSome := by
        rw [List.any_map]
        congr 1
        funext param
        exact Option.isSome_map
      simp only [List.map_cons, Option.map_none, parameterPieces, parameterNames, more, ih]
      split
      · rfl
      · rfl

/-- What is given stands in its own place. -/
theorem getElem?_parameterNames {position : Nat}
    (given : params[position]? = some (some name)) :
    (parameterNames passed params)[position]? = some name := by
  induction params generalizing passed position with
  | nil => cases given
  | cons param rest ih =>
    cases param with
    | some first =>
      cases position with
      | zero =>
        cases given
        rfl
      | succ position => exact ih given
    | none =>
      cases position with
      | zero => cases given
      | succ position =>
        have more : rest.any Option.isSome = true :=
          List.any_eq_true.2 ⟨_, List.mem_of_getElem? given, rfl⟩
        rw [parameterNames, if_pos more]
        exact ih given

/-- Besides those that are given there are the fillers. -/
theorem parameterNames_perm (passed : Nat) (params : List (Option String)) :
    (parameterNames passed params).Perm
      (params.reduceOption ++ (List.range' passed (passedOver params)).map filler) := by
  induction params generalizing passed with
  | nil => exact .refl _
  | cons param rest ih =>
    cases param with
    | some given =>
      rw [parameterNames, List.reduceOption_cons_of_some]
      exact (ih passed).cons given
    | none =>
      rw [parameterNames, List.reduceOption_cons_of_none, passedOver]
      split
      · rw [List.range'_succ, List.map_cons]
        exact ((ih (passed + 1)).cons (filler passed)).trans List.perm_middle.symm
      · next last =>
        have nothing : rest.reduceOption = [] := by
          apply List.eq_nil_iff_forall_not_mem.2
          intro name member
          exact last (List.any_eq_true.2 ⟨_, List.reduceOption_mem_iff.1 member, rfl⟩)
        rw [nothing]
        exact .refl _

def fillers (params : List (Option String)) : List String :=
  (List.range (passedOver params)).map filler

theorem parameterNames_perm_fillers (params : List (Option String)) :
    (parameterNames 0 params).Perm (params.reduceOption ++ fillers params) := by
  rw [fillers, List.range_eq_range']
  exact parameterNames_perm 0 params

theorem nodup_fillers (params : List (Option String)) : (fillers params).Nodup :=
  List.nodup_range.map filler_injective

theorem nodup_parameterNames_iff : (parameterNames 0 params).Nodup ↔
    params.reduceOption.Nodup ∧ params.reduceOption.Disjoint (fillers params) := by
  rw [(parameterNames_perm_fillers params).nodup_iff, List.nodup_append']
  exact and_congr_right fun _ => and_iff_right (nodup_fillers params)

/-- The parameters of the function for the items, with the item that was kept behind the aliases if
the loop keeps its items. -/
def itemParameters (aliases : List (Option String)) (keeps : Bool) : List (Option String) :=
  aliases ++ if keeps then [some "_cached"] else []

def writtenParameters (names : List String) : Pieces :=
  .text "(" :: Pieces.join ", " (names.map fun name => [.text name]) ++ [.text ")"]

/-- What is written of a loop in front of the function for its items. -/
def LoopCall.opening (onContext : String) (call : LoopCall) : Pieces :=
  [.text "(", .helper .openBlock, .text (if !call.isStable then "(true), " else "(), "),
    .helper .createElementBlock, .text "(", .helper .fragment, .text ", null, ",
    .helper .renderList, .text "("] ++ call.source.pieces onContext ++ [.text ", "]

theorem parameterList_eq (params : List (Option String)) :
    parameterList (params.map (Option.map fun name => [.text name])) =
      writtenParameters (parameterNames 0 params) := by
  rw [parameterList, parameterPieces_eq]
  rfl

namespace Plan

variable {plan : Plan} {onContext : String} {id : NodeId} {call : LoopCall}
  {aliases : List (Option String)}

theorem prefix_itemFunction (params : List (Option Pieces)) (body : Written) :
    parameterList params ++ [.text " => \x7b"] <+: itemFunction params body := by
  unfold itemFunction
  simp only [List.append_assoc, List.prefix_append_right_inj]
  exact ⟨_, rfl⟩

theorem prefix_memoFunction (params : List (Option Pieces)) (dependencies : Expr)
    (key : Option Expr) (slot : Nat) (body : Written) :
    parameterList (params ++ [some [.text "_cached"]]) ++ [.text " => \x7b"] <+:
      memoFunction onContext params dependencies key slot body := by
  unfold memoFunction
  simp only [List.append_assoc, List.prefix_append_right_inj]
  exact ⟨_, rfl⟩

theorem prefix_renderListPieces (body : Written)
    (params : [call.value, call.key, call.index].map (Option.map (Expr.pieces onContext)) =
      aliases.map (Option.map fun name => [.text name])) {keeps : Bool}
    (kept : keeps = true ↔ ∃ slot dependencies key,
      body.code.bind (·.cache) = some { slot, kind := .memoInLoop dependencies key }) :
    .helper .renderList :: .text "(" :: call.source.pieces onContext ++
        .text ", " :: (writtenParameters (parameterNames 0 (itemParameters aliases keeps)) ++
          [.text " => \x7b"]) <+: renderListPieces onContext call body := by
  rw [renderListPieces, params]
  simp only [List.cons_append, List.prefix_cons_inj, List.prefix_append_right_inj]
  split
  · next slot dependencies key cached =>
    have list : aliases.map (Option.map fun name => [Piece.text name]) ++
        [some [Piece.text "_cached"]] =
        (itemParameters aliases true).map (Option.map fun name => [Piece.text name]) := by
      simp [itemParameters]
    rw [kept.2 ⟨slot, dependencies, key, cached⟩, ← parameterList_eq, ← list]
    exact prefix_memoFunction ..
  · next other =>
    have unkept : keeps = false := by
      apply eq_false_of_ne_true
      intro keeps
      obtain ⟨slot, dependencies, key, cached⟩ := kept.1 keeps
      exact other slot dependencies key cached
    have list : itemParameters aliases false = aliases := List.append_nil aliases
    rw [unkept, list, ← parameterList_eq]
    exact prefix_itemFunction ..

/-- The code of a loop begins with the parameters of the function for its items. -/
theorem prefix_written_loop (acyclic : plan.Acyclic) (loop : plan.unfolded? id = some (.loop call))
    (given : [call.value, call.key, call.index] = aliases.map (Option.map .param)) :
    call.opening onContext ++
        writtenParameters (parameterNames 0 (itemParameters aliases (plan.keepsItems call.body))) ++
          [.text " => \x7b"] <+: (plan.written onContext id).bare := by
  have params : [call.value, call.key, call.index].map (Option.map (Expr.pieces onContext)) =
      aliases.map (Option.map fun name => [.text name]) := by
    rw [given, List.map_map]
    congr 1
    funext param
    cases param <;> rfl
  obtain ⟨code, found, body⟩ := exists_of_unfolded?_loop loop
  have kept : plan.keepsItems call.body = true ↔ ∃ slot dependencies key,
      (plan.written onContext call.body).code.bind (·.cache) =
        some { slot, kind := .memoInLoop dependencies key } := by
    rw [code_written acyclic]
    exact keepsItems_iff
  have written : (plan.written onContext id).bare =
      loopPieces onContext call [plan.written onContext call.body] := by
    rw [acyclic.written_eq, found]
    simp only [writeCode, Option.map_some, Option.getD_some, Code.references, body, bodyPieces,
      List.map_cons, List.map_nil]
  obtain ⟨rest, list⟩ := prefix_renderListPieces (plan.written onContext call.body) params kept
  rw [written, loopPieces, List.flatMap_singleton, openBlock, ← list]
  exact ⟨rest ++ [.text (", " ++ call.flag.render ++ ")"), .text ")"], by simp [LoopCall.opening]⟩

end Plan

/-- The aliases of the value, the key and the index. -/
def LoopCall.aliases (call : LoopCall) : List (Option String) :=
  [call.value, call.key, call.index].map fun param =>
    param.bind fun
      | .param name => some name
      | _ => none

structure Plan.TakesAliases (plan : Plan) (onContext : String) (id : NodeId) (call : LoopCall)
    (names : List String) : Prop where
  /-- The loop has no parameters but its aliases. -/
  aliases : [call.value, call.key, call.index] = call.aliases.map (Option.map .param)
  written : call.opening onContext ++ writtenParameters names ++ [.text " => \x7b"] <+:
    (plan.written onContext id).bare
  /-- The value is first, the key second and the index third. -/
  places : ∀ (position : Nat) (name : String), call.aliases[position]? = some (some name) →
    names[position]? = some name
  /-- The item that was kept comes behind all three of them. -/
  kept : plan.keepsItems call.body = true → names.length = 4 ∧ names[3]? = some "_cached"
  /-- All other names are the fillers that are needed. -/
  only : names.Perm ((itemParameters call.aliases (plan.keepsItems call.body)).reduceOption ++
    fillers (itemParameters call.aliases (plan.keepsItems call.body)))
  distinct : call.aliases.reduceOption.Nodup → "_cached" ∉ call.aliases.reduceOption →
    (names.Nodup ↔ call.aliases.reduceOption.Disjoint
      (fillers (itemParameters call.aliases (plan.keepsItems call.body))))

theorem length_parameterNames_of_last (passed : Nat) (params : List (Option String)) (last : String) :
    (parameterNames passed (params ++ [some last])).length = params.length + 1 := by
  induction params generalizing passed with
  | nil => rfl
  | cons param rest ih =>
    cases param with
    | some given => exact congrArg (· + 1) (ih passed)
    | none =>
      have more : (rest ++ [some last]).any Option.isSome = true := by simp
      rw [List.cons_append, parameterNames, if_pos more]
      exact congrArg (· + 1) (ih (passed + 1))

theorem nodup_itemParameters_iff {aliases : List (Option String)} (keeps : Bool)
    (distinct : aliases.reduceOption.Nodup) (uncached : "_cached" ∉ aliases.reduceOption) :
    (parameterNames 0 (itemParameters aliases keeps)).Nodup ↔
      aliases.reduceOption.Disjoint (fillers (itemParameters aliases keeps)) := by
  rw [nodup_parameterNames_iff]
  generalize made : fillers (itemParameters aliases keeps) = fills
  have unmade : "_cached" ∉ fills := by
    rw [← made, fillers, List.mem_map]
    rintro ⟨passed, -, same⟩
    exact filler_ne_cached passed same
  cases keeps with
  | false => simp [itemParameters, distinct]
  | true =>
    have given : (itemParameters aliases true).reduceOption = aliases.reduceOption ++ ["_cached"] := by
      rw [itemParameters, if_pos rfl, List.reduceOption_append]
      rfl
    rw [given, List.nodup_append', List.disjoint_append_left]
    simp [distinct, uncached, unmade]

theorem Plan.takesAliases {plan : Plan} (acyclic : plan.Acyclic) (onContext : String) {id : NodeId}
    {call : LoopCall} (loop : plan.unfolded? id = some (.loop call))
    (given : [call.value, call.key, call.index] = call.aliases.map (Option.map .param)) :
    plan.TakesAliases onContext id call
      (parameterNames 0 (itemParameters call.aliases (plan.keepsItems call.body))) := by
  refine ⟨given, prefix_written_loop acyclic loop given, ?_, ?_, ?_, nodup_itemParameters_iff _⟩
  · intro position name listed
    apply getElem?_parameterNames
    have inside : position < call.aliases.length := (List.getElem?_eq_some_iff.1 listed).1
    rw [itemParameters, List.getElem?_append_left inside]
    exact listed
  · intro keeps
    rw [keeps, itemParameters, if_pos rfl]
    constructor
    · exact length_parameterNames_of_last 0 call.aliases "_cached"
    · exact getElem?_parameterNames rfl
  · exact parameterNames_perm_fillers _

theorem aliases_of_loop {parsing : ParseOption} {lowering : LowerOption} {reading : Scan}
    {template : Template} {problems : List Problem} {lowered : Lowered}
    (parsed : parse parsing reading = .ok (template, problems))
    (lowers : lower lowering template = .ok lowered) {id : NodeId} {call : LoopCall}
    (loop : lowered.plan.unfolded? id = some (.loop call)) :
    [call.value, call.key, call.index] = call.aliases.map (Option.map .param) := by
  obtain ⟨roots, progress, stages⟩ := lower_stages (numbered_of_parse parsed) lowers
  obtain ⟨node, -, written, -, value, key, index⟩ := stages.exists_loop loop
  have named (given : Option String) : given.map Expr.param = ((given.map Expr.param).bind fun
      | .param name => some name
      | _ => none).map Expr.param := by
    cases given <;> rfl
  rw [LoopCall.aliases, value, key, index]
  simp only [List.map_cons, List.map_nil, ← named]

/-- Whatever was parsed, the functions for the items of its loops take the aliases in their places,
and what is made up for those that are passed over is different from all other parameters just if it
is none of the aliases. -/
theorem lower_takesAliases {parsing : ParseOption} {lowering : LowerOption} {reading : Scan}
    {template : Template} {problems : List Problem} {lowered : Lowered}
    (parsed : parse parsing reading = .ok (template, problems))
    (lowers : lower lowering template = .ok lowered) (onContext : String) {id : NodeId}
    {call : LoopCall} (loop : lowered.plan.unfolded? id = some (.loop call)) :
    ∃ names, lowered.plan.TakesAliases onContext id call names := by
  refine ⟨_, Plan.takesAliases (lower_acyclic parsed lowers) onContext loop ?_⟩
  exact aliases_of_loop parsed lowers loop

def Plan.hasLoop (plan : Plan) (id : NodeId) (aliases : List (Option String)) (keeps : Bool) : Bool :=
  match plan.unfolded? id with
  | some (.loop call) => call.aliases = aliases && plan.keepsItems call.body == keeps
  | _ => false

theorem Plan.exists_of_hasLoop {plan : Plan} {id : NodeId} {aliases : List (Option String)}
    {keeps : Bool} (found : plan.hasLoop id aliases keeps = true) :
    ∃ call, plan.unfolded? id = some (.loop call) ∧ call.aliases = aliases ∧
      plan.keepsItems call.body = keeps := by
  unfold hasLoop at found
  split at found
  · next call loop =>
    rw [Bool.and_eq_true, decide_eq_true_eq, beq_iff_eq] at found
    exact ⟨call, loop, found⟩
  · cases found

theorem exists_lowered_loop {source : String} {id : NodeId} {aliases : List (Option String)}
    {keeps : Bool} (succeeds : ((parse {} (scan {} source)).bind fun parsed =>
      lower {} parsed.1).toOption.any (fun lowered => lowered.plan.hasLoop id aliases keeps) = true) :
    ∃ template problems lowered call,
      parse {} (scan {} source) = .ok (template, problems) ∧ lower {} template = .ok lowered ∧
        lowered.plan.unfolded? id = some (.loop call) ∧ call.aliases = aliases ∧
          lowered.plan.keepsItems call.body = keeps := by
  obtain ⟨template, problems, lowered, parsed, lowers, found⟩ := exists_lowered succeeds
  obtain ⟨call, loop, listed, kept⟩ := Plan.exists_of_hasLoop found
  exact ⟨template, problems, lowered, call, parsed, lowers, loop, listed, kept⟩

/-- A loop without a key, the items of which are kept. -/
theorem lower_takesAliases_skipped : ∃ template problems lowered call names,
    parse {} (scan {} "<p v-for=\"(a, , i) in l\" v-memo=\"[a]\"/>") = .ok (template, problems) ∧
      lower {} template = .ok lowered ∧ lowered.plan.unfolded? 1 = some (.loop call) ∧
        call.aliases = [some "a", none, some "i"] ∧
          lowered.plan.TakesAliases "_ctx." 1 call names ∧ names.Nodup := by
  obtain ⟨template, problems, lowered, call, parsed, lowers, loop, listed, kept⟩ :=
    @exists_lowered_loop "<p v-for=\"(a, , i) in l\" v-memo=\"[a]\"/>" 1
      [some "a", none, some "i"] true (by decide +kernel)
  obtain ⟨names, takes⟩ := lower_takesAliases parsed lowers "_ctx." loop
  have distinct := takes.distinct
  rw [listed, kept] at distinct
  refine ⟨template, problems, lowered, call, names, parsed, lowers, loop, listed, takes, ?_⟩
  apply (distinct (by decide) (by decide)).2
  rw [List.disjoint_left]
  decide

/-- An underscore is taken for a filler once more, though the aliases are different. -/
theorem underscore_taken_twice : ∃ template problems lowered call,
    parse {} (scan {} "<p v-for=\"_ in l\" v-memo=\"[m]\"/>") = .ok (template, problems) ∧
      lower {} template = .ok lowered ∧ lowered.plan.unfolded? 1 = some (.loop call) ∧
        call.aliases = [some "_", none, none] ∧
          (Name.isSimpleIdentifier "_" = true ∧ "_" ≠ "_cached") ∧
            call.opening "_ctx." ++ writtenParameters ["_", "_", "__", "_cached"] ++
              [.text " => \x7b"] <+: (lowered.plan.written "_ctx." 1).bare ∧
              ¬ ["_", "_", "__", "_cached"].Nodup := by
  obtain ⟨template, problems, lowered, call, parsed, lowers, loop, listed, kept⟩ :=
    @exists_lowered_loop "<p v-for=\"_ in l\" v-memo=\"[m]\"/>" 1 [some "_", none, none] true
      (by decide +kernel)
  have given := aliases_of_loop parsed lowers loop
  have written := @Plan.prefix_written_loop _ "_ctx." _ _ _ (lower_acyclic parsed lowers) loop given
  rw [listed, kept] at written
  exact ⟨template, problems, lowered, call, parsed, lowers, loop, listed, by decide, written,
    by decide⟩

end TemplateCompiler
