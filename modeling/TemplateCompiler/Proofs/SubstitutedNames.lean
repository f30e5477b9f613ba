import Mathlib.Data.Option.Basic
import TemplateCompiler.Lowering.Expression
import TemplateCompiler.Proofs.PlacedNames
import TemplateCompiler.Proofs.SectionedCode
import TemplateCompiler.Proofs.Subexpressions

/-! Resolving an expression is a substitution. It is written as its own text, in which the names
that are looked up on the render context are written behind the context, properties in shorthand are
written out where they need it, and nothing else is changed. -/

namespace TemplateCompiler

namespace Script

def substitute (write : Occurrence → List Char) : Nat → List Occurrence → List Char → List Char
  | _, [], text => text
  | place, occurrence :: others, text =>
    text.take (occurrence.start - place) ++ write occurrence ++
      substitute write occurrence.stop others (text.drop (occurrence.stop - place))

theorem substitute_next {write : Occurrence → List Char} {place : Nat}
    {gap name rest : List Char} {occurrence : Occurrence} {others : List Occurrence}
    (starts : occurrence.start = place + gap.length)
    (stops : occurrence.stop = occurrence.start + name.length) :
    substitute write place (occurrence :: others) (gap ++ name ++ rest) =
      gap ++ write occurrence ++ substitute write occurrence.stop others rest := by
  have before : occurrence.start - place = gap.length := by omega
  have through : occurrence.stop - place = (gap ++ name).length := by
    rw [List.length_append]
    omega
  rw [substitute, before, through, List.drop_left, List.append_assoc gap, List.take_left]

end Script

/-- Nothing around the name gives it a meaning: it is looked up on the render context. -/
def LooksUp (scope : Scope) (known : List String) (name : String) : Prop :=
  name ∉ known ∧ name ∉ scope.aliases ∧ Name.isLiteralWord name = false ∧ Name.isGlobal name = false

def IsAlias (scope : Scope) (known : List String) (name : String) : Prop :=
  name ∉ known ∧ name ∈ scope.aliases

instance (scope : Scope) (known : List String) (name : String) :
    Decidable (LooksUp scope known name) :=
  inferInstanceAs (Decidable (_ ∧ _))

instance (scope : Scope) (known : List String) (name : String) :
    Decidable (IsAlias scope known name) :=
  inferInstanceAs (Decidable (_ ∧ _))

/-- How a reference in `text` is written. `known` are the names that the expression or the code
around it binds. -/
def replacement (onContext : String) (scope : Scope) (known : List String) (text : List Char)
    (reference : Script.Occurrence) : List Char :=
  let name := reference.name text
  let key := if reference.isShorthand then name.toList ++ ": ".toList else []
  if LooksUp scope known name then key ++ onContext.toList ++ name.toList
  else if IsAlias scope known name then key ++ name.toList
  else name.toList

inductive Meaning (scope : Scope) (locals : List String) (name : String) : Prop where
  | lookedUp (free : LooksUp scope locals name)
      (resolved : resolveName scope locals name = .context name)
  | aliased (inside : IsAlias scope locals name) (unfree : ¬ LooksUp scope locals name)
      (resolved : resolveName scope locals name = .param name)
  | kept (unfree : ¬ LooksUp scope locals name) (outside : ¬ IsAlias scope locals name)
      (level : Level) (static : level.isStatic = true)
      (resolved : resolveName scope locals name = .simple { raw := name } level)

theorem meaning (scope : Scope) (locals : List String) (name : String) :
    Meaning scope locals name := by
  by_cases inLocals : name ∈ locals
  · refine .kept (fun free => free.1 inLocals) (fun inside => inside.1 inLocals) _ ?_
      (if_pos (by simpa using inLocals))
    rfl
  · by_cases inScope : name ∈ scope.aliases
    · refine .aliased ⟨inLocals, inScope⟩ (fun free => free.2.1 inScope) ?_
      simp [resolveName, inLocals, Scope.contains, inScope]
    · have outside : ¬ IsAlias scope locals name := fun inside => inScope inside.2
      cases word : Name.isLiteralWord name with
      | true =>
        refine .kept (fun free => by simp [word, LooksUp] at free) outside .canStringify rfl ?_
        simp [resolveName, inLocals, Scope.contains, inScope, word]
      | false =>
        cases global : Name.isGlobal name with
        | true =>
          refine .kept (fun free => by simp [global, LooksUp] at free) outside .canHoist rfl ?_
          simp [resolveName, inLocals, Scope.contains, inScope, word, global]
        | false =>
          refine .lookedUp ⟨inLocals, inScope, word, global⟩ ?_
          simp [resolveName, inLocals, Scope.contains, inScope, word, global]

namespace Expr

variable {onContext : String}

/-- The code of an expression that stands alone. -/
def written (onContext : String) (expr : Expr) : List Char :=
  (Writer.ofPieces (expr.pieces onContext)).out.code.toList

/-- The expression is written as one text. -/
def IsText (onContext : String) (expr : Expr) : Prop :=
  ∃ text, expr.pieces onContext = [.text text]

theorem written_eq_spell (expr : Expr) :
    expr.written onContext = (expr.pieces onContext).spell 0 := by
  rw [written, Writer.code_ofPieces, String.toList_ofList]

@[simp]
theorem written_source (text : String) : (source text).written onContext = text.toList := by
  simp [written_eq_spell, pieces, Pieces.spell, Piece.spell]

@[simp]
theorem written_param (name : String) : (param name).written onContext = name.toList := by
  simp [written_eq_spell, pieces, Pieces.spell, Piece.spell]

@[simp]
theorem written_context (name : String) :
    (context name).written onContext = onContext.toList ++ name.toList := by
  simp [written_eq_spell, pieces, Pieces.spell, Piece.spell]

@[simp]
theorem written_simple (text : String) (level : Level) :
    (simple { raw := text } level).written onContext = text.toList := by
  simp [written_eq_spell, pieces, Pieces.spell, Piece.spell]

theorem written_compound {parts : List Expr} (texts : ∀ part ∈ parts, part.IsText onContext) :
    (compound parts).written onContext = parts.flatMap (·.written onContext) := by
  rw [written_eq_spell, pieces]
  induction parts with
  | nil => rfl
  | cons part rest ih =>
    obtain ⟨first, others⟩ := List.forall_mem_cons.1 texts
    obtain ⟨text, single⟩ := first
    rw [piecesAll, List.flatten_cons, Pieces.spell_append, List.flatMap_cons, written_eq_spell,
      ← ih others, single]
    rfl

end Expr

namespace Resolving

variable {onContext : String} {scope : Scope} {bound locals : List String} {state : Resolving}
  {text front gap name rest out : List Char} {reference : Script.Occurrence}

/-- Up to the end of `front` the expression is written as `out`. -/
structure Upto (onContext : String) (front out : List Char) (state : Resolving) : Prop where
  written : state.parts.flatMap (·.written onContext) ++ front.drop state.last = out
  behind : state.last ≤ front.length
  texts : ∀ part ∈ state.parts, part.IsText onContext

/-- What is left as it stands is not written yet. -/
theorem Upto.keep (upto : state.Upto onContext front out) (level : Level) (more : List Char) :
    Upto onContext (front ++ more) (out ++ more) { state with level } := by
  refine ⟨?_, ?_, upto.texts⟩
  · rw [List.drop_append_of_le_length upto.behind, ← List.append_assoc, upto.written]
  · rw [List.length_append]
    exact Nat.le_add_right_of_le upto.behind

theorem isText_source (text : String) : (Expr.source text).IsText onContext :=
  ⟨text, rfl⟩

theorem Upto.write (upto : state.Upto onContext front out) {resolved : Expr}
    (single : resolved.IsText onContext)
    (starts : reference.start = front.length + gap.length)
    (stops : reference.stop = reference.start + name.length) :
    let text := front ++ gap ++ name ++ rest
    let key : List Expr :=
      if reference.isShorthand then [.source (String.ofList name), .source ": "] else []
    Upto onContext (front ++ gap ++ name)
      (out ++ gap ++ (if reference.isShorthand then name ++ ": ".toList else []) ++
        resolved.written onContext)
      { level := .notStatic
        parts := state.parts ++
          .source (String.ofList ((text.take reference.start).drop state.last)) :: key ++ [resolved]
        last := reference.stop } := by
  intro text key
  have before : (text.take reference.start).drop state.last = front.drop state.last ++ gap := by
    rw [starts, ← List.length_append, show text = front ++ gap ++ (name ++ rest) by simp [text],
      List.take_left, List.drop_append_of_le_length upto.behind]
  have through : (front ++ gap ++ name).length = reference.stop := by
    simp only [List.length_append]
    omega
  have keyed : key.flatMap (·.written onContext) =
      if reference.isShorthand then name ++ ": ".toList else [] := by
    simp only [key]
    split
    · simp
    · rfl
  refine ⟨?_, Nat.le_of_eq through.symm, ?_⟩
  · rw [List.drop_of_length_le (Nat.le_of_eq through), List.append_nil, ← upto.written]
    simp only [List.flatMap_append, List.flatMap_cons, List.flatMap_nil, keyed,
      Expr.written_source, String.toList_ofList, before]
    simp only [List.append_assoc, List.append_nil]
  · intro part member
    simp only [List.mem_append, List.mem_cons, List.not_mem_nil, or_false] at member
    rcases member with (earlier | rfl | shorthand) | rfl
    · exact upto.texts part earlier
    · exact isText_source _
    · simp only [key] at shorthand
      split at shorthand
      · simp only [List.mem_cons, List.not_mem_nil, or_false] at shorthand
        rcases shorthand with rfl | rfl
        · exact isText_source _
        · exact isText_source _
      · cases shorthand
    · exact single

theorem Upto.step (upto : state.Upto onContext front out)
    (starts : reference.start = front.length + gap.length)
    (stops : reference.stop = reference.start + name.length) :
    let text := front ++ gap ++ name ++ rest
    let stepped := Resolving.step text scope bound locals state reference
    Upto onContext (front ++ gap ++ name)
        (out ++ gap ++ replacement onContext scope (bound ++ locals) text reference)
        stepped.value ∧
      stepped.fault? = none := by
  intro text stepped
  have called : reference.name text = String.ofList name :=
    Script.Occurrence.name_eq starts stops
  have behind := upto.behind
  refine ⟨?_, fault?_step ⟨by omega, ?_⟩ (by omega)⟩
  · unfold stepped replacement
    rw [value_step, called]
    cases meaning scope (bound ++ locals) (String.ofList name) with
    | lookedUp free resolved =>
      have single : (Expr.context (String.ofList name)).IsText onContext := ⟨_, rfl⟩
      have written := @Upto.write _ _ _ _ _ rest _ _ upto _ single starts stops
      simpa [resolved, free, called, text] using written
    | aliased inside unfree resolved =>
      have single : (Expr.param (String.ofList name)).IsText onContext := ⟨_, rfl⟩
      have written := @Upto.write _ _ _ _ _ rest _ _ upto _ single starts stops
      simpa [resolved, unfree, inside, called, text] using written
    | kept unfree outside level static resolved =>
      simpa [resolved, unfree, outside] using upto.keep (state.level.meet level) (gap ++ name)
  · simp only [text, List.length_append]
    omega

/-- The references that are resolved, up to the end of the text. -/
theorem Upto.run {place : Nat} {references : List Script.Occurrence}
    (upto : state.Upto onContext front out) (begins : front.length = place)
    (placed : Script.Placed place references rest) :
    let done := references.foldlM (Resolving.step (front ++ rest) scope bound locals) state
    Upto onContext (front ++ rest)
        (out ++ Script.substitute
          (replacement onContext scope (bound ++ locals) (front ++ rest)) place references rest)
        done.value ∧
      done.fault? = none := by
  induction placed generalizing front out state with
  | done place text => exact ⟨upto.keep state.level text, rfl⟩
  | @next place gap name rest reference others starts stops later ih =>
    have ends : (front ++ gap ++ name).length = reference.stop := by
      simp only [List.length_append]
      omega
    rw [Script.substitute_next starts stops]
    simp only [← List.append_assoc] at ih ⊢
    rw [← begins] at starts
    obtain ⟨first, sound⟩ := @Upto.step onContext scope bound locals state _ _ _ rest _ _ upto starts
      stops
    rw [List.foldlM_cons, Reported.value_bind, Reported.fault?_bind, sound, Option.none_or]
    exact ih first ends

structure IsPlain (state : Resolving) : Prop where
  parts : state.parts = []
  last : state.last = 0
  level : state.level.isStatic = true

def HasName (state : Resolving) : Prop :=
  ∃ part ∈ state.parts, part.level.isStatic = false

theorem IsPlain.step (plain : state.IsPlain)
    (unfree : ¬ LooksUp scope (bound ++ locals) (reference.name text))
    (outside : ¬ IsAlias scope (bound ++ locals) (reference.name text)) :
    (step text scope bound locals state reference).value.IsPlain := by
  rw [value_step]
  cases meaning scope (bound ++ locals) (reference.name text) with
  | lookedUp free => exact absurd free unfree
  | aliased inside => exact absurd inside outside
  | kept _ _ level static resolved =>
    rw [resolved]
    refine ⟨plain.parts, plain.last, ?_⟩
    rw [Level.isStatic_meet, plain.level, static]
    rfl

theorem hasName_step (named : state.HasName ∨
    LooksUp scope (bound ++ locals) (reference.name text) ∨
      IsAlias scope (bound ++ locals) (reference.name text)) :
    (step text scope bound locals state reference).value.HasName := by
  rw [value_step]
  cases meaning scope (bound ++ locals) (reference.name text) with
  | lookedUp free resolved =>
    rw [resolved]
    exact ⟨.context (reference.name text), by simp, rfl⟩
  | aliased inside _ resolved =>
    rw [resolved]
    exact ⟨.param (reference.name text), by simp, rfl⟩
  | kept unfree outside level _ resolved =>
    rw [resolved]
    rcases named with earlier | free | inside
    · exact earlier
    · exact absurd free unfree
    · exact absurd inside outside

variable {references : List Script.Occurrence}

theorem IsPlain.run (plain : state.IsPlain)
    (none : ∀ reference ∈ references, ¬ LooksUp scope (bound ++ locals) (reference.name text) ∧
      ¬ IsAlias scope (bound ++ locals) (reference.name text)) :
    (references.foldlM (Resolving.step text scope bound locals) state).value.IsPlain := by
  induction references generalizing state with
  | nil => exact plain
  | cons reference others ih =>
    obtain ⟨⟨unfree, outside⟩, none⟩ := List.forall_mem_cons.1 none
    exact ih (plain.step unfree outside) none

theorem hasName_run (named : state.HasName ∨ ∃ reference ∈ references,
    LooksUp scope (bound ++ locals) (reference.name text) ∨
      IsAlias scope (bound ++ locals) (reference.name text)) :
    (references.foldlM (step text scope bound locals) state).value.HasName := by
  induction references generalizing state with
  | nil => simpa using named
  | cons reference others ih =>
    rw [List.exists_mem_cons_iff, ← or_assoc] at named
    exact ih (named.imp_left hasName_step)

/-- Parts without text are left out. -/
theorem flatMap_written_filter (parts : List Expr) :
    (parts.filter fun part => !part.isEmptySource).flatMap (·.written onContext) =
      parts.flatMap (·.written onContext) := by
  induction parts with
  | nil => rfl
  | cons part rest ih =>
    cases empty : part.isEmptySource with
    | false => rw [List.filter_cons_of_pos (by simp [empty]), List.flatMap_cons, ih, List.flatMap_cons]
    | true =>
      have blank : part.written onContext = [] := by
        cases part with
        | source text => simpa [Expr.isEmptySource] using empty
        | _ => cases empty
      rw [List.filter_cons_of_neg (by simp [empty]), ih, List.flatMap_cons, blank, List.nil_append]

theorem IsPlain.finish_eq (plain : state.IsPlain) (text : String) :
    state.finish text = pure (.simple { raw := text } state.level) := by
  simp [finish, plain.parts]

theorem HasName.value_finish (named : state.HasName) (text : String) :
    (state.finish text).value =
      .compound ((state.parts ++
        [Expr.source (String.ofList (text.toList.drop state.last))]).filter
          fun part => !part.isEmptySource) := by
  obtain ⟨part, member, -⟩ := named
  simp [finish, List.ne_nil_of_mem member]

theorem HasName.isStatic_finish (named : state.HasName) (text : String) :
    (state.finish text).value.level.isStatic = false := by
  obtain ⟨part, member, varying⟩ := id named
  rw [named.value_finish text, Expr.level, Bool.eq_false_iff, ne_eq, Expr.isStatic_levelAll]
  intro static
  have solid : part.isEmptySource = false := by
    cases part with
    | source text => cases varying
    | _ => rfl
  rw [static part (by simp [member, solid])] at varying
  cases varying

theorem Upto.written_finish {text : String} (upto : state.Upto onContext text.toList out)
    (outcome : state.IsPlain ∨ state.HasName) :
    (state.finish text).value.written onContext = out := by
  rcases outcome with plain | named
  · rw [plain.finish_eq, Reported.value_pure, Expr.written_simple, ← upto.written, plain.parts,
      plain.last]
    rfl
  · have texts : ∀ part ∈ (state.parts ++
        [Expr.source (String.ofList (text.toList.drop state.last))]).filter
          fun part => !part.isEmptySource, part.IsText onContext := by
      intro part member
      rcases List.mem_append.1 (List.mem_filter.1 member).1 with earlier | last
      · exact upto.texts part earlier
      · rw [List.mem_singleton.1 last]
        exact isText_source _
    rw [named.value_finish, Expr.written_compound texts, flatMap_written_filter, ← upto.written]
    simp

theorem Upto.fault?_finish {text : String} (upto : state.Upto onContext text.toList out) :
    (state.finish text).fault? = none := by
  have behind := Reported.fault?_slice upto.behind (Nat.le_refl _)
  unfold finish
  split
  · rfl
  · rw [Reported.fault?_bind, behind]
    rfl

end Resolving

structure Substitutes (scope : Scope) (known : List String) (references : List Script.Occurrence)
    (text : String) (value : Expr) : Prop where
  written : ∀ onContext, value.written onContext =
    Script.substitute (replacement onContext scope known text.toList) 0 references text.toList
  level : value.level.isStatic = true ↔ ∀ reference ∈ references,
    ¬ LooksUp scope known (reference.name text.toList) ∧
      ¬ IsAlias scope known (reference.name text.toList)

def Script.whole (text : String) : Script.Occurrence :=
  ⟨0, text.toList.length, .reference⟩

theorem Script.name_whole (text : String) : (whole text).name text.toList = text := by
  simp [Occurrence.name, whole]

theorem substitutes_resolveName (scope : Scope) (locals : List String) (name : String) :
    Substitutes scope locals [Script.whole name] name (resolveName scope locals name) := by
  have whole (onContext : String) :
      Script.substitute (replacement onContext scope locals name.toList) 0 [Script.whole name]
        name.toList = replacement onContext scope locals name.toList (Script.whole name) := by
    simp [Script.substitute, Script.whole]
  have plain : (Script.whole name).isShorthand = false := rfl
  simp only [replacement, plain, Script.name_whole] at whole
  cases meaning scope locals name with
  | lookedUp free resolved =>
    rw [resolved]
    exact ⟨fun onContext => by simp [whole, free],
      by simp [Script.name_whole, Expr.level, Level.isStatic, free]⟩
  | aliased inside unfree resolved =>
    rw [resolved]
    exact ⟨fun onContext => by simp [whole, unfree, inside],
      by simp [Script.name_whole, Expr.level, Level.isStatic, inside]⟩
  | kept unfree outside level static resolved =>
    rw [resolved]
    exact ⟨fun onContext => by simp [whole, unfree, outside],
      by simp [Script.name_whole, Expr.level, static, unfree, outside]⟩

theorem substitutes_resolveIn (scope : Scope) (locals : List String) {text : String}
    {parsed : Script.Expression} (placed : Script.Placed 0 parsed.references text.toList) :
    Substitutes scope (parsed.boundIn text ++ locals) parsed.references text
      (resolveIn scope locals text parsed).value := by
  have upto (onContext : String) := (@Resolving.Upto.run onContext scope (parsed.boundIn text) locals
    {} [] _ [] 0 _ ⟨rfl, Nat.le_refl _, List.forall_mem_nil _⟩ rfl placed).1
  rw [value_resolveIn]
  by_cases none : ∀ reference ∈ parsed.references,
      ¬ LooksUp scope (parsed.boundIn text ++ locals) (reference.name text.toList) ∧
        ¬ IsAlias scope (parsed.boundIn text ++ locals) (reference.name text.toList)
  · have plain := @Resolving.IsPlain.run scope (parsed.boundIn text) locals {} text.toList _
      ⟨rfl, rfl, rfl⟩ none
    refine ⟨fun onContext => (upto onContext).written_finish (.inl plain), iff_of_true ?_ none⟩
    rw [plain.finish_eq]
    exact plain.level
  · have some := none
    simp only [not_forall, not_and_or, not_not, exists_prop] at some
    have named := @Resolving.hasName_run scope (parsed.boundIn text) locals {} text.toList _
      (.inr some)
    refine ⟨fun onContext => (upto onContext).written_finish (.inr named), iff_of_false ?_ none⟩
    rw [named.isStatic_finish]
    exact Bool.false_ne_true

/-- What resolving does with the trimmed `text` of an expression. -/
structure ResolvesNames (reader : ScriptReader) (scope : Scope) (locals : List String) (span : Span)
    (text : String) (result : Reported Expr) : Prop where
  /-- All slices of the text are in range. -/
  sound : result.fault? = none
  /-- A simple identifier is one reference to itself. -/
  identifier : Name.isSimpleIdentifier text = true →
    result.problems = [] ∧ Substitutes scope locals [Script.whole text] text result.value
  accepted : Name.isSimpleIdentifier text = false → ∀ parsed, reader.parse? text = some parsed →
    result.problems = [] ∧ Script.Placed 0 parsed.references text.toList ∧
      Substitutes scope (parsed.boundIn text ++ locals) parsed.references text result.value
  rejected : Name.isSimpleIdentifier text = false → reader.parse? text = none →
    result.value = .simple { raw := text } .notStatic ∧
      result.problems = [{ kind := .invalidExpression, detail := some text, span }]

theorem fault?_resolveIn {reader : ScriptReader} (places : reader.Places) (scope : Scope)
    (locals : List String) {text : String} {parsed : Script.Expression}
    (accepted : reader.parse? text = some parsed) :
    (resolveIn scope locals text parsed).fault? = none := by
  have bound : (parsed.bindings.mapM fun binding =>
      Reported.slice text.toList binding.start binding.stop).fault? = none := by
    rw [Reported.fault?_mapM, List.findSome?_eq_none_iff]
    intro binding member
    obtain ⟨ordered, inside⟩ := places.bindings text parsed accepted binding member
    exact Reported.fault?_slice ordered (by rwa [String.length_toList])
  obtain ⟨upto, sound⟩ := @Resolving.Upto.run "" scope (parsed.boundIn text) locals {} [] _ [] 0 _
    ⟨rfl, Nat.le_refl _, List.forall_mem_nil _⟩ rfl (places.references text parsed accepted)
  have names : parsed.bindings.map (fun binding =>
      (Reported.slice text.toList binding.start binding.stop).value) = parsed.boundIn text := rfl
  rw [List.nil_append] at sound upto
  rw [resolveIn, Reported.fault?_bind, bound, Reported.value_mapM, names, Reported.fault?_bind, sound]
  exact upto.fault?_finish

theorem fault?_resolve {reader : ScriptReader} (places : reader.Places) (scope : Scope)
    (locals : List String) (raw : String) (span : Span) :
    (resolve scope locals raw span reader).fault? = none := by
  unfold resolve
  dsimp only
  split
  · rfl
  · split
    · rfl
    · split
      · next accepted => exact fault?_resolveIn places scope locals accepted
      · rfl

/-- Each expression that is not blank is one of the three. The references of one that is accepted
are where their names stand; wherever else a reader of scripts finds the references of a text, they
are substituted as well. -/
theorem resolve_resolvesNames {reader : ScriptReader} (places : reader.Places) (scope : Scope)
    (locals : List String) (raw : String) (span : Span) (solid : Text.trim raw ≠ "") :
    ResolvesNames reader scope locals span (Text.trim raw) (resolve scope locals raw span reader) ∧
      ∀ parsed : Script.Expression,
        Script.Placed 0 parsed.references (Text.trim raw).toList →
        Substitutes scope (parsed.boundIn (Text.trim raw) ++ locals) parsed.references
          (Text.trim raw) (resolveIn scope locals (Text.trim raw) parsed).value := by
  have more : (Text.trim raw).isEmpty = false := by simpa using solid
  refine ⟨⟨?_, ?_, ?_, ?_⟩, fun parsed => substitutes_resolveIn scope locals⟩
  · exact fault?_resolve places scope locals raw span
  · intro simple
    simp only [resolve, more, simple, if_true]
    exact ⟨rfl, substitutes_resolveName scope locals _⟩
  · intro compound parsed accepted
    have placed := places.references _ _ accepted
    simp only [resolve, more, compound, accepted]
    exact ⟨problems_resolveIn .., placed, substitutes_resolveIn scope locals placed⟩
  · intro compound refused
    simp only [resolve, more, compound, refused]
    exact ⟨rfl, rfl⟩

/-- An object with two properties in shorthand and a function with a parameter. -/
def mixedExpression : String :=
  " \x7b a, item, f: x => Math.max(x, b) \x7d "

theorem resolve_resolvesNames_mixed :
    (resolve ⟨["item"]⟩ [] mixedExpression {}).value.written "_ctx." =
      "\x7b a: _ctx.a, item: item, f: x => Math.max(x, _ctx.b) \x7d".toList := by
  obtain ⟨names, -⟩ := resolve_resolvesNames ScriptReader.places_standard ⟨["item"]⟩ []
    mixedExpression {} (by decide)
  have found : (Script.parse? (Text.trim mixedExpression)).any (fun parsed =>
      Script.substitute (replacement "_ctx." ⟨["item"]⟩
          (parsed.boundIn (Text.trim mixedExpression) ++ []) (Text.trim mixedExpression).toList) 0
        parsed.references (Text.trim mixedExpression).toList =
      "\x7b a: _ctx.a, item: item, f: x => Math.max(x, _ctx.b) \x7d".toList) = true := by
    decide +kernel
  obtain ⟨parsed, accepted, substituted⟩ := (Option.any_eq_true _ _).1 found
  obtain ⟨-, -, substitutes⟩ := names.accepted (by decide) parsed accepted
  rw [substitutes.written]
  simpa using substituted

end TemplateCompiler
