import TemplateCompiler.Compiler
import TemplateCompiler.Proofs.AssembledCode
import TemplateCompiler.Proofs.LoweredPlaces
import TemplateCompiler.Proofs.LoweringStages

/-! Every place that a compilation shows is right: tokens, problems of all stages, the template
before and after lowering with all that its nodes have, and mappings. -/

namespace TemplateCompiler

variable {source : String}

/-- All places of a template lie in the source: its own, those of the nodes, also of those that left
the tree, and those inside of nodes. -/
structure Template.Lies (source : String) (template : Template) : Prop where
  nodes : ∀ node ∈ template.nodes, node.content.Lies source ∧ node.span.Lies source
  span : template.span.Lies source

theorem Template.Placed.lies {template : Template} (placed : template.Placed source) :
    template.Lies source := by
  refine ⟨fun node member => ?_, placed.span⟩
  have every := Node.every_append.mpr ⟨placed.roots.allLie, placed.dropped⟩
  exact every node (List.mem_mergeSort.mp member)

theorem Lexer.Tiled.lie {delimiters : Delimiters} {tokens : List Token}
    (tiled : Tiled delimiters false {} tokens source.toList) :
    ∀ token ∈ tokens, token.span.Lies source := by
  intro token member
  obtain ⟨before, body, later, whole, covered, -⟩ := tiled.slice token member
  rw [covered]
  refine Span.lies_of_ordered (Position.lies_after ?_) (Position.lies_after ?_) ?_
  · exact ⟨body ++ later, by simp [whole]⟩
  · exact ⟨later, whole.symm⟩
  · simp

structure StagesLie (source : String) (reading : Scan) (template : Template)
    (problems : List Problem) (lowered : Lowered) (generated : Generated) : Prop where
  tokens : ∀ token ∈ reading.tokens, token.span.Lies source
  read : ProblemsLie source reading.problems
  template : template.Lies source
  parsed : ProblemsLie source problems
  plan : lowered.plan.template.Lies source
  lowered : ProblemsLie source lowered.problems
  mapped : ∀ mappings ∈ generated.mappings, ∀ mapping ∈ mappings, mapping.source.Lies source

theorem stagesLie_of_lower {scanning : ScanOption} {parsing : ParseOption} {lowering : LowerOption}
    {template : Template} {problems : List Problem} {lowered : Lowered}
    (parsed : parse parsing (scan scanning source) = .ok (template, problems))
    (lowers : lower lowering template = .ok lowered) (emitting : EmitOption) :
    StagesLie source (scan scanning source) template problems lowered
      (generate emitting lowered.plan) := by
  obtain ⟨placed, reported⟩ := parse_placed parsed
  obtain ⟨moved, found⟩ := lower_placed placed lowers
  have final := moved.lies
  cases ended : (scan scanning source).ending with
  | error fault => simp [parse, ended, Except.map] at parsed
  | ok last =>
    obtain ⟨read, ending⟩ := Lexer.read_scanFrom (Cursor.reaches_refl _) (Lexer.reported_nil _)
    refine ⟨(Lexer.tiled_scanFrom ended).lie, ?_, placed.lies, reported, final, found, ?_⟩
    · rw [Scan.problems, ended]
      refine problemsLie_append.mpr ⟨fun problem member => ?_, (ending last ended).lie⟩
      obtain ⟨pull, inside, listed⟩ := List.mem_flatMap.mp member
      exact (read pull inside).problems.lie problem listed
    · exact lowered.plan.allowed_of_mem_mappings emitting
        (fun node member => (final.nodes node member).2) (Span.lies_default source)

namespace CompileOption

variable (option : CompileOption)

theorem run_parseScan (reading : Scan) (before : List Problem) :
    (option.parseScan reading).run before =
      (parse option.parsing reading).map fun parsed => (parsed.1, before ++ parsed.2) := by
  unfold parseScan
  cases parse option.parsing reading with
  | error fault => rfl
  | ok parsed => rfl

theorem run_lowerTemplate (template : Template) (before : List Problem) :
    (option.lowerTemplate template).run before =
      (lower option.lowering template).map fun lowered =>
        (lowered.plan, before ++ lowered.problems) := by
  unfold lowerTemplate
  cases lower option.lowering template with
  | error fault => rfl
  | ok lowered => rfl

theorem run_planSource (source : String) :
    (option.planSource source).run' [] =
      (parse option.parsing (option.scan source)).bind fun parsed =>
        (lower option.lowering parsed.1).map (·.plan) := by
  simp only [planSource, StateT.run'_eq, StateT.run_bind, run_parseScan, run_lowerTemplate]
  cases parse option.parsing (option.scan source) with
  | error fault => rfl
  | ok parsed =>
    simp only [Except.map, bind, Except.bind]
    cases lower option.lowering parsed.1 with
    | error fault => rfl
    | ok lowered => rfl

end CompileOption

/-- A compilation is what its stages give. -/
theorem compile_eq (option : CompileOption) (source : String) :
    compile option source = (parse option.parsing (option.scan source)).bind fun parsed =>
      (lower option.lowering parsed.1).map fun lowered =>
        { code := (option.generatePlan lowered.plan).code
          mappings := (option.generatePlan lowered.plan).mappings
          problems := parsed.2 ++ lowered.problems } := by
  simp only [compile, CompileOption.compileSource, CompileOption.planSource, StateT.run'_eq,
    StateT.run_bind, CompileOption.run_parseScan, CompileOption.run_lowerTemplate]
  cases parse option.parsing (option.scan source) with
  | error fault => rfl
  | ok parsed =>
    simp only [Except.map, bind, Except.bind]
    cases lower option.lowering parsed.1 with
    | error fault => rfl
    | ok lowered => rfl

theorem exists_stages_of_compile {option : CompileOption} {compilation : Compilation}
    (compiles : compile option source = .ok compilation) :
    ∃ template problems lowered,
      parse option.parsing (option.scan source) = .ok (template, problems) ∧
      lower option.lowering template = .ok lowered ∧
      compilation =
        { code := (option.generatePlan lowered.plan).code
          mappings := (option.generatePlan lowered.plan).mappings
          problems := problems ++ lowered.problems } := by
  rw [compile_eq] at compiles
  cases parsed : parse option.parsing (option.scan source) with
  | error fault =>
    rw [parsed] at compiles
    cases compiles
  | ok result =>
    rw [parsed] at compiles
    obtain ⟨lowered, lowers, rfl⟩ := ok_of_map_eq_ok compiles
    exact ⟨result.1, result.2, lowered, rfl, lowers, rfl⟩

theorem exists_of_compile {option : CompileOption} {compilation : Compilation}
    (compiles : compile option source = .ok compilation) :
    ∃ template problems lowered,
      parse option.parsing (option.scan source) = .ok (template, problems) ∧
      lower option.lowering template = .ok lowered ∧
      compilation.problems = problems ++ lowered.problems ∧
      compilation.mappings = (option.generatePlan lowered.plan).mappings := by
  obtain ⟨template, problems, lowered, parsed, lowers, rfl⟩ := exists_stages_of_compile compiles
  exact ⟨template, problems, lowered, parsed, lowers, rfl, rfl⟩

/-- Whether a text can be compiled, and what comes of it, is found out by compiling it. -/
theorem exists_compilation {option : CompileOption} {test : Compilation → Bool}
    (succeeds : (compile option source).toOption.any test = true) :
    ∃ compilation, compile option source = .ok compilation ∧ test compilation = true := by
  cases compiles : compile option source with
  | error fault =>
    rw [compiles] at succeeds
    cases succeeds
  | ok compilation =>
    rw [compiles] at succeeds
    exact ⟨compilation, rfl, succeeds⟩

/-- Whatever the options, the stages show no place outside of the source and no wrong line or column,
and neither does a compilation as a whole. -/
theorem compile_places_lie (source : String) :
    (∀ scanning parsing lowering emitting template problems lowered,
      parse parsing (scan scanning source) = .ok (template, problems) →
      lower lowering template = .ok lowered →
      StagesLie source (scan scanning source) template problems lowered
        (generate emitting lowered.plan)) ∧
    ∀ option compilation, compile option source = .ok compilation →
      ProblemsLie source compilation.problems ∧
        ∀ mappings ∈ compilation.mappings, ∀ mapping ∈ mappings, mapping.source.Lies source := by
  constructor
  · intro scanning parsing lowering emitting template problems lowered parsed lowers
    exact stagesLie_of_lower parsed lowers emitting
  · intro option compilation compiles
    obtain ⟨template, problems, lowered, parsed, lowers, reported, mapped⟩ :=
      exists_of_compile compiles
    have stages := stagesLie_of_lower parsed lowers option.emitting
    rw [reported, mapped]
    exact ⟨problemsLie_append.mpr ⟨stages.parsed, stages.lowered⟩, stages.mapped⟩

/-- A text, a conditional with both branches, an element whose loop cannot be read, and one without
an end tag. -/
def scatteredSource : String :=
  "é\n<p v-if='a'>x</p>\n<p v-else/><i v-for='x'/><b>"

/-- Both stages report a problem, and a compilation has mappings. -/
theorem compile_places_lie_scattered :
    (∃ template problems lowered,
      parse {} (scan {} scatteredSource) = .ok (template, problems) ∧
      lower {} template = .ok lowered ∧ lowered.problems.length = 1 ∧
      StagesLie scatteredSource (scan {} scatteredSource) template problems lowered
        (generate { sourceMap := true } lowered.plan)) ∧
    ∃ compilation, compile { sourceMap := true } scatteredSource = .ok compilation ∧
      compilation.problems.length = 2 ∧ ProblemsLie scatteredSource compilation.problems := by
  constructor
  · obtain ⟨template, problems, lowered, parsed, lowers, test⟩ := @exists_lowered {} {}
      (scan {} scatteredSource) (fun lowered => lowered.problems.length = 1) (by decide +kernel)
    refine ⟨template, problems, lowered, parsed, lowers, of_decide_eq_true test, ?_⟩
    exact (compile_places_lie scatteredSource).1 {} {} {} { sourceMap := true } template problems
      lowered parsed lowers
  · have succeeds : (compile { sourceMap := true } scatteredSource).toOption.any
        (fun compilation => compilation.problems.length = 2) = true := by decide +kernel
    generalize compiles : compile { sourceMap := true } scatteredSource = outcome at succeeds
    cases outcome with
    | error fault => cases succeeds
    | ok compilation =>
      refine ⟨compilation, rfl, of_decide_eq_true succeeds, ?_⟩
      exact ((compile_places_lie scatteredSource).2 _ compilation compiles).1

end TemplateCompiler
