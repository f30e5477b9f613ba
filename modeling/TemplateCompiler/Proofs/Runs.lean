import TemplateCompiler.Problem.Reported

/-! How an action on a state ends. What is said of the parts of an action is put together along its
binds. -/

namespace TemplateCompiler

variable {σ α β : Type} {state after last : σ} {action : Acting σ α} {next : α → Acting σ β}
  {value : α} {fault : Fault}

def Runs (action : Acting σ α) (state : σ) (value : α) (after : σ) : Prop :=
  action.run state = pure (value, after)

def Fails (action : Acting σ α) (state : σ) (fault : Fault) : Prop :=
  action.run state = throw fault

theorem run_bind_of_runs (runs : Runs action state value after) (next : α → Acting σ β) :
    (action >>= next).run state = (next value).run after := by
  rw [StateT.run_bind, runs]
  rfl

theorem run_bind_congr {other : Acting σ α} (same : action.run state = other.run after)
    (next : α → Acting σ β) : (action >>= next).run state = (other >>= next).run after := by
  rw [StateT.run_bind, StateT.run_bind, same]

theorem Runs.bind {result : β} (first : Runs action state value after)
    (second : Runs (next value) after result last) : Runs (action >>= next) state result last :=
  (run_bind_of_runs first next).trans second

theorem Runs.fails (runs : Runs action state value after) (fails : Fails (next value) after fault) :
    Fails (action >>= next) state fault :=
  (run_bind_of_runs runs next).trans fails

theorem Fails.bind (fails : Fails action state fault) (next : α → Acting σ β) :
    Fails (action >>= next) state fault := by
  rw [Fails, StateT.run_bind, fails]
  rfl

theorem runs_pure (value : α) : Runs (pure value) state value state :=
  rfl

theorem runs_get : Runs get state state state :=
  rfl

theorem runs_modify (f : σ → σ) : Runs (modify f) state () (f state) :=
  rfl

theorem runs_set (other : σ) : Runs (set other) state () other :=
  rfl

theorem runs_fallible {result : Except Fault α} (succeeds : result = .ok value) :
    Runs (fallible result) state value state := by
  rw [succeeds]
  rfl

theorem runs_assert {holds : Bool} (true : holds = true) :
    Runs (assert holds) state () state := by
  rw [true]
  rfl

theorem Runs.discard (runs : Runs action state value after) :
    Runs (discard action) state () after := by
  rw [Runs] at runs
  rw [Runs, Functor.discard, LawfulFunctor.map_const, Function.comp_apply, StateT.run_map, runs]
  rfl

section Loops

variable [Nonempty β] {round : α → Acting σ (α ⊕ β)} {start onward : α} {result : β}

theorem run_repeatM (round : α → Acting σ (α ⊕ β)) (start : α) (state : σ) :
    (repeatM round start).run state = (repeatM.body round (repeatM round) start).run state := by
  have : Nonempty σ := ⟨state⟩
  rw [repeatM_eq_of_monadTail]

/-- A loop goes on as it does from where one round of it leads. -/
theorem run_repeatM_inl (runs : Runs (round start) state (.inl onward) after) :
    (repeatM round start).run state = (repeatM round onward).run after :=
  (run_repeatM round start state).trans (run_bind_of_runs runs _)

theorem runs_repeatM_inr (runs : Runs (round start) state (.inr result) after) :
    Runs (repeatM round start) state result after :=
  (run_repeatM round start state).trans (runs.bind (runs_pure result))

theorem fails_repeatM (fails : Fails (round start) state fault) :
    Fails (repeatM round start) state fault :=
  (run_repeatM round start state).trans (fails.bind _)

end Loops

/-- An action ends in one way only. -/
theorem Runs.unique {other : α} (runs : Runs action state value after)
    (again : Runs action state other last) : value = other ∧ after = last := by
  have same : some (Except.ok (value, after) : Except Fault (α × σ)) = some (.ok (other, last)) :=
    runs.symm.trans again
  cases same
  exact ⟨rfl, rfl⟩

theorem Runs.not_fails (runs : Runs action state value after) (fails : Fails action state fault) :
    False := by
  have same : some (Except.ok (value, after)) = some (.error fault) := runs.symm.trans fails
  cases same

theorem Runs.result (runs : Runs action state value after) :
    (action.run' state).run = some (.ok value) := by
  show (Prod.fst <$> action.run state).run = _
  rw [runs]
  rfl

theorem Fails.result (fails : Fails action state fault) :
    (action.run' state).run = some (.error fault) := by
  show (Prod.fst <$> action.run state).run = _
  rw [fails]
  rfl

end TemplateCompiler
