import TemplateCompiler.Lowering.Expression

/-! Where a reader of scripts finds the names of an expression. Resolving cuts the text at its names
and relies on them to stand one behind another, and on all of them to be inside of the text. -/

namespace TemplateCompiler

namespace Script

def Occurrence.name (occurrence : Occurrence) (text : List Char) : String :=
  String.ofList ((text.take occurrence.stop).drop occurrence.start)

/-- The names stand one behind another in a text that begins at the character `place`. -/
inductive Placed : Nat → List Occurrence → List Char → Prop where
  | done (place : Nat) (text : List Char) : Placed place [] text
  | next {place : Nat} {gap name rest : List Char} {occurrence : Occurrence}
      {others : List Occurrence}
      (starts : occurrence.start = place + gap.length)
      (stops : occurrence.stop = occurrence.start + name.length)
      (later : Placed occurrence.stop others rest) :
      Placed place (occurrence :: others) (gap ++ name ++ rest)

theorem Occurrence.name_eq {occurrence : Occurrence} {front gap name rest : List Char}
    (starts : occurrence.start = front.length + gap.length)
    (stops : occurrence.stop = occurrence.start + name.length) :
    occurrence.name (front ++ gap ++ name ++ rest) = String.ofList name := by
  have before : occurrence.start = (front ++ gap).length := by rw [starts, List.length_append]
  have through : occurrence.stop = (front ++ gap ++ name).length := by
    rw [stops, before, @List.length_append _ (front ++ gap) name]
  rw [Occurrence.name, through, List.take_left, before, List.drop_left]

namespace Placed

variable {place : Nat} {text : List Char} {occurrences others : List Occurrence}

theorem skip {front : List Char} (placed : Placed (place + front.length) occurrences text) :
    Placed place occurrences (front ++ text) := by
  cases placed with
  | done => exact .done _ _
  | next starts stops later =>
    rw [List.append_assoc, ← List.append_assoc, ← List.append_assoc]
    refine .next ?_ stops later
    rw [List.length_append]
    omega

theorem sublist (placed : Placed place occurrences text) (fewer : others.Sublist occurrences) :
    Placed place others text := by
  induction placed generalizing others with
  | done place text =>
    rw [List.sublist_nil.1 fewer]
    exact .done place text
  | @next place gap name rest occurrence found starts stops later ih =>
    cases fewer with
    | cons _ fewer =>
      apply skip
      rw [List.length_append, ← Nat.add_assoc, ← starts, ← stops]
      exact ih fewer
    | cons_cons _ fewer => exact .next starts stops (ih fewer)

theorem inside (placed : Placed place occurrences text) : ∀ occurrence ∈ occurrences,
    occurrence.start ≤ occurrence.stop ∧ occurrence.stop ≤ place + text.length := by
  induction placed with
  | done => exact List.forall_mem_nil _
  | next starts stops later ih =>
    simp only [List.length_append]
    refine List.forall_mem_cons.2 ⟨by omega, fun occurrence member => ?_⟩
    have := ih occurrence member
    omega

end Placed

theorem placed_lexFrom {choose : Lexeme → Option Occurrence}
    (kept : ∀ lexeme occurrence, choose lexeme = some occurrence →
      occurrence.start = lexeme.start ∧ occurrence.stop = lexeme.stop)
    {state : LexState} {broken : Bool} {start : Nat} {text : List Char} {lexemes : List Lexeme}
    (read : lexFrom state broken start text = some lexemes) :
    Placed start (lexemes.filterMap choose) text := by
  fun_induction lexFrom state broken start text generalizing lexemes with
  | case1 state broken start text empty =>
    cases read
    exact .done _ _
  | case2 => cases read
  | case3 state broken start text more length newBreak moves stepped _ rest =>
    rename_i ih
    have front : (text.take length).length = length := List.length_take_of_le moves.2
    have later := ih read
    rw [← front] at later
    rw [← List.take_append_drop length text]
    exact later.skip
  | case4 state broken start text more kind length moves lexeme stepped _ rest =>
    rename_i ih
    have front : (text.take length).length = length := List.length_take_of_le moves.2
    obtain ⟨others, further, rfl⟩ := Option.map_eq_some_iff.1 read
    have later := ih further
    rw [← List.take_append_drop length text, List.filterMap_cons]
    split
    · rw [← front] at later
      exact later.skip
    · next occurrence chosen =>
      obtain ⟨starts, stops⟩ := kept lexeme occurrence chosen
      have long : occurrence.stop = occurrence.start + (text.take length).length := by
        rw [front, starts, stops]
      exact @Placed.next start [] (text.take length) rest occurrence _ starts long (stops ▸ later)
  | case5 => cases read

theorem placed_occurrences {text : String} {parsed : Expression}
    (accepted : parse? text = some parsed) : Placed 0 parsed.occurrences text.toList := by
  obtain ⟨_, _, balanced⟩ := Option.bind_eq_some_iff.1 accepted
  obtain ⟨lexemes, read, cut⟩ := Option.bind_eq_some_iff.1 balanced
  obtain ⟨_, _, filled⟩ := Option.bind_eq_some_iff.1 cut
  obtain ⟨reading, _, parsed⟩ := Option.bind_eq_some_iff.1 filled
  obtain ⟨_, _, result⟩ := Option.bind_eq_some_iff.1 parsed
  cases result
  apply placed_lexFrom _ read
  intro lexeme occurrence chosen
  obtain ⟨naming, _, rfl⟩ := Option.map_eq_some_iff.1 chosen
  exact ⟨rfl, rfl⟩

end Script

/-- The references of an expression stand one behind another in its text, and the names that it
binds are inside of it. -/
structure ScriptReader.Places (reader : ScriptReader) : Prop where
  references : ∀ text parsed, reader.parse? text = some parsed →
    Script.Placed 0 parsed.references text.toList
  bindings : ∀ text parsed, reader.parse? text = some parsed →
    ∀ binding ∈ parsed.bindings, binding.start ≤ binding.stop ∧ binding.stop ≤ text.length

theorem ScriptReader.places_standard : standard.Places := by
  constructor
  · intro text parsed accepted
    have placed := Script.placed_occurrences accepted
    unfold Script.Expression.references
    split
    · exact .done _ _
    · exact placed.sublist List.filter_sublist
  · intro text parsed accepted binding member
    have inside := (Script.placed_occurrences accepted).inside binding (List.mem_filter.1 member).1
    rwa [Nat.zero_add, String.length_toList] at inside

namespace Resolving

variable {scope : Scope} {bound locals : List String} {state : Resolving} {text : List Char}
  {reference : Script.Occurrence}

/-- A name that the expression binds is as good as a local of the code around it. -/
theorem value_step : (step text scope bound locals state reference).value =
    match resolveName scope (bound ++ locals) (reference.name text) with
    | .simple _ level => { state with level := state.level.meet level }
    | resolved =>
      let gap := String.ofList ((text.take reference.start).drop state.last)
      let key : List Expr :=
        if reference.isShorthand then [.source (reference.name text), .source ": "] else []
      { level := .notStatic
        parts := state.parts ++ .source gap :: key ++ [resolved]
        last := reference.stop } := by
  have called : (Reported.slice text reference.start reference.stop).value = reference.name text :=
    rfl
  simp only [step, Reported.value_bind, called]
  by_cases member : reference.name text ∈ bound
  · have left : resolveName scope (bound ++ locals) (reference.name text) =
        .simple { raw := reference.name text } .canStringify :=
      if_pos (by simp [member])
    rw [left, if_pos (by simpa using member)]
    simp
  · have other : resolveName scope (bound ++ locals) (reference.name text) =
        resolveName scope locals (reference.name text) := by
      simp [resolveName, member]
    rw [other, if_neg (by simpa using member)]
    cases resolveName scope locals (reference.name text) with
    | simple => rfl
    | _ => rfl

theorem problems_step : (step text scope bound locals state reference).problems = [] := by
  simp only [step, Reported.problems_bind, Reported.problems_slice, List.nil_append]
  split
  · rfl
  · split
    · rfl
    · rfl

theorem fault?_step (inside : reference.start ≤ reference.stop ∧ reference.stop ≤ text.length)
    (behind : state.last ≤ reference.start) :
    (step text scope bound locals state reference).fault? = none := by
  have own := Reported.fault?_slice inside.1 inside.2
  have before := Reported.fault?_slice behind (Nat.le_trans inside.1 inside.2)
  simp only [step, Reported.fault?_bind, own, Option.none_or]
  split
  · rfl
  · split
    · rfl
    · rw [Reported.fault?_bind, before]
      rfl

theorem problems_finish (text : String) : (state.finish text).problems = [] := by
  unfold finish
  split
  · rfl
  · rfl

end Resolving

def Script.Expression.boundIn (parsed : Script.Expression) (text : String) : List String :=
  parsed.bindings.map (·.name text.toList)

theorem value_resolveIn (scope : Scope) (locals : List String) (text : String)
    (parsed : Script.Expression) :
    (resolveIn scope locals text parsed).value =
      ((parsed.references.foldlM
        (Resolving.step text.toList scope (parsed.boundIn text) locals) {}).value.finish text).value := by
  simp only [resolveIn, Reported.value_bind, Reported.value_mapM]
  rfl

/-- Cutting and resolving is not reported; only a text that cannot be read is. -/
theorem problems_resolveIn (scope : Scope) (locals : List String) (text : String)
    (parsed : Script.Expression) : (resolveIn scope locals text parsed).problems = [] := by
  have resolved (bound : List String) (references : List Script.Occurrence) (state : Resolving) :
      (references.foldlM (Resolving.step text.toList scope bound locals) state).problems = [] := by
    induction references generalizing state with
    | nil => rfl
    | cons reference others ih =>
      rw [List.foldlM_cons, Reported.problems_bind, Resolving.problems_step, ih]
      rfl
  rw [resolveIn, Reported.problems_bind, Reported.problems_bind, resolved, Resolving.problems_finish,
    Reported.problems_mapM]
  simp

end TemplateCompiler
