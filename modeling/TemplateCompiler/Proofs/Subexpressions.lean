import TemplateCompiler.Render.Cache

/-! What occurs in an expression. A statement about every part of an expression, however deep, is
one about the expression itself and its immediate parts. -/

namespace TemplateCompiler.Expr

def inner : Expr → List Expr
  | compound parts => parts
  | array items => items
  | call _ args => args
  | props entries => entries.flatMap fun entry => [entry.1, entry.2]
  | handler body _ => [body]
  | source _ | number _ | literal _ | madeLiteral _ | simple _ _ | param _ | context _ | symbol _ =>
    []

inductive Occurs (part : Expr) : Expr → Prop
  | self : Occurs part part
  | inside {outer nested : Expr} (member : nested ∈ outer.inner) (deeper : Occurs part nested) :
      Occurs part outer

/-- All that occurs in the expression is of one kind. -/
def Every (kind : Expr → Prop) (expr : Expr) : Prop :=
  ∀ part, Occurs part expr → kind part

variable {kind : Expr → Prop} {expr : Expr}

theorem every_iff : expr.Every kind ↔ kind expr ∧ ∀ nested ∈ expr.inner, nested.Every kind := by
  constructor
  · intro every
    exact ⟨every expr .self, fun nested member part deeper => every part (.inside member deeper)⟩
  · rintro ⟨own, below⟩ part occurs
    cases occurs with
    | self => exact own
    | inside member deeper => exact below _ member part deeper

/-- What an expression hands on to its immediate parts holds of all that occurs in it. -/
theorem every_of_inherited (holds : kind expr)
    (inherited : ∀ outer, kind outer → ∀ nested ∈ outer.inner, kind nested) : expr.Every kind := by
  intro part occurs
  induction occurs with
  | self => exact holds
  | inside member deeper ih => exact ih (inherited _ holds _ member)

theorem Every.imp {other : Expr → Prop} (every : expr.Every kind)
    (implies : ∀ part, kind part → other part) : expr.Every other :=
  fun part occurs => implies part (every part occurs)

theorem Occurs.trans {part middle : Expr} (inside : Occurs part middle)
    (deeper : Occurs middle expr) : Occurs part expr := by
  induction deeper with
  | self => exact inside
  | inside member _ ih => exact .inside member ih

theorem Every.of_occurs {part : Expr} (every : expr.Every kind) (occurs : Occurs part expr) :
    part.Every kind :=
  fun _ inside => every _ (inside.trans occurs)

/-- The expression by itself may change from one rendering to the next. -/
def varies : Expr → Bool
  | param _ | context _ | handler _ _ => true
  | simple _ level => level = .notStatic
  | _ => false

theorem isStatic_levelAll {exprs : List Expr} : (levelAll exprs).isStatic = true ↔
    ∀ expr ∈ exprs, expr.level.isStatic = true := by
  induction exprs with
  | nil => simp [levelAll, Level.isStatic]
  | cons expr rest ih =>
    rw [levelAll, Level.isStatic_meet, Bool.and_eq_true, ih, List.forall_mem_cons]

theorem isStatic_levelEntries {entries : List (Expr × Expr)} :
    (levelEntries entries).isStatic = true ↔
      ∀ entry ∈ entries, entry.1.level.isStatic = true ∧ entry.2.level.isStatic = true := by
  induction entries with
  | nil => simp [levelEntries, Level.isStatic]
  | cons entry rest ih =>
    rw [levelEntries, Level.isStatic_meet, Level.isStatic_meet, Bool.and_eq_true,
      Bool.and_eq_true, ih, List.forall_mem_cons]

theorem isStatic_of_mem_inner {nested : Expr} (static : expr.level.isStatic = true)
    (member : nested ∈ expr.inner) : nested.level.isStatic = true := by
  cases expr with
  | compound parts => exact isStatic_levelAll.1 static nested member
  | array items => exact isStatic_levelAll.1 static nested member
  | call helper args => exact isStatic_levelAll.1 static nested member
  | props entries =>
    obtain ⟨entry, listed, part⟩ := List.mem_flatMap.1 member
    have both := isStatic_levelEntries.1 static entry listed
    simp only [List.mem_cons, List.not_mem_nil, or_false] at part
    rcases part with rfl | rfl
    · exact both.1
    · exact both.2
  | handler => cases static
  | _ => cases member

theorem varies_of_isStatic (static : expr.level.isStatic = true) : expr.varies = false := by
  cases expr with
  | simple text fixed =>
    rw [level, Level.isStatic, decide_eq_true_eq] at static
    exact decide_eq_false static
  | param | context | handler => cases static
  | _ => rfl

theorem every_of_isStatic (static : expr.level.isStatic = true) :
    expr.Every fun part => part.varies = false :=
  (every_of_inherited static fun _ outer _ member => isStatic_of_mem_inner outer member).imp
    fun _ => varies_of_isStatic

theorem mem_inner_props {entries : List (Expr × Expr)} {entry : Expr × Expr}
    (member : entry ∈ entries) :
    entry.1 ∈ (props entries).inner ∧ entry.2 ∈ (props entries).inner := by
  constructor <;> exact List.mem_flatMap.2 ⟨entry, member, by simp⟩

mutual

theorem assignCells_of_fixed (next : Nat) : {expr : Expr} →
    (expr.Every fun part => part.varies = false) → expr.assignCells next = (expr, next)
  | compound parts, fixed => by
    rw [assignCells, @assignCellsAll_of_fixed next parts (every_iff.1 fixed).2]
  | array items, fixed => by
    rw [assignCells, @assignCellsAll_of_fixed next items (every_iff.1 fixed).2]
  | call helper args, fixed => by
    rw [assignCells, @assignCellsAll_of_fixed next args (every_iff.1 fixed).2]
  | props entries, fixed => by
    rw [assignCells, assignCellsEntries_of_fixed next fun entry member =>
      (every_iff.1 fixed).2 entry.2 (mem_inner_props member).2]
  | handler _ _, fixed => nomatch fixed _ .self
  | source _, _ | number _, _ | literal _, _ | madeLiteral _, _ | simple _ _, _ | param _, _
  | context _, _ | symbol _, _ => by rw [assignCells] <;> simp

theorem assignCellsAll_of_fixed (next : Nat) : {exprs : List Expr} →
    (∀ expr ∈ exprs, expr.Every fun part => part.varies = false) →
    assignCellsAll next exprs = (exprs, next)
  | [], _ => rfl
  | expr :: rest, fixed => by
    obtain ⟨own, others⟩ := List.forall_mem_cons.1 fixed
    rw [assignCellsAll, assignCells_of_fixed next own, assignCellsAll_of_fixed next others]

theorem assignCellsEntries_of_fixed (next : Nat) : {entries : List (Expr × Expr)} →
    (∀ entry ∈ entries, entry.2.Every fun part => part.varies = false) →
    assignCellsEntries next entries = (entries, next)
  | [], _ => rfl
  | (key, value) :: rest, fixed => by
    obtain ⟨own, others⟩ := List.forall_mem_cons.1 fixed
    rw [assignCellsEntries, assignCells_of_fixed next own, assignCellsEntries_of_fixed next others]

end

mutual

/-- What holds of an expression by itself without regard to cells is not lost with new cells. -/
theorem every_assignCells (keeps : ∀ expr next, kind expr → kind (expr.assignCells next).1)
    (next : Nat) : {expr : Expr} → expr.Every kind → (expr.assignCells next).1.Every kind
  | compound parts, every => by
    have own := keeps _ next (every_iff.1 every).1
    rw [assignCells] at own ⊢
    exact every_iff.2 ⟨own, every_assignCellsAll keeps next (every_iff.1 every).2⟩
  | array items, every => by
    have own := keeps _ next (every_iff.1 every).1
    rw [assignCells] at own ⊢
    exact every_iff.2 ⟨own, every_assignCellsAll keeps next (every_iff.1 every).2⟩
  | call helper args, every => by
    have own := keeps _ next (every_iff.1 every).1
    rw [assignCells] at own ⊢
    exact every_iff.2 ⟨own, every_assignCellsAll keeps next (every_iff.1 every).2⟩
  | props entries, every => by
    have own := keeps _ next (every_iff.1 every).1
    have parts := (every_iff.1 every).2
    rw [assignCells] at own ⊢
    refine every_iff.2 ⟨own, fun nested member => ?_⟩
    obtain ⟨entry, listed, part⟩ := List.mem_flatMap.1 member
    have both := every_assignCellsEntries keeps next
      (fun entry inside => ⟨parts _ (mem_inner_props inside).1, parts _ (mem_inner_props inside).2⟩)
      entry listed
    simp only [List.mem_cons, List.not_mem_nil, or_false] at part
    rcases part with rfl | rfl
    · exact both.1
    · exact both.2
  | handler body traits, every => by
    have own := keeps _ next (every_iff.1 every).1
    rw [assignCells] at own ⊢
    split at own <;> rename_i free <;> simp only [free] <;>
      exact every_iff.2 ⟨own, (every_iff.1 every).2⟩
  | source _, every | number _, every | literal _, every | madeLiteral _, every
  | simple _ _, every | param _, every | context _, every | symbol _, every => by
    rw [assignCells] <;> simp [every]

theorem every_assignCellsAll (keeps : ∀ expr next, kind expr → kind (expr.assignCells next).1)
    (next : Nat) : {exprs : List Expr} → (∀ expr ∈ exprs, expr.Every kind) →
    ∀ expr ∈ (assignCellsAll next exprs).1, expr.Every kind
  | [], _ => List.forall_mem_nil _
  | expr :: rest, every => by
    obtain ⟨own, others⟩ := List.forall_mem_cons.1 every
    exact List.forall_mem_cons.2
      ⟨every_assignCells keeps next own, every_assignCellsAll keeps _ others⟩

theorem every_assignCellsEntries (keeps : ∀ expr next, kind expr → kind (expr.assignCells next).1)
    (next : Nat) : {entries : List (Expr × Expr)} →
    (∀ entry ∈ entries, entry.1.Every kind ∧ entry.2.Every kind) →
    ∀ entry ∈ (assignCellsEntries next entries).1, entry.1.Every kind ∧ entry.2.Every kind
  | [], _ => List.forall_mem_nil _
  | (key, value) :: rest, every => by
    obtain ⟨⟨name, own⟩, others⟩ := List.forall_mem_cons.1 every
    exact List.forall_mem_cons.2
      ⟨⟨name, every_assignCells keeps next own⟩, every_assignCellsEntries keeps _ others⟩

end

theorem mem_keyEntry {value : Expr} {entries : List (Expr × Expr)}
    (found : keyEntry? entries = some value) : ∃ entry ∈ entries, entry.2 = value := by
  induction entries with
  | nil => cases found
  | cons entry rest ih =>
    rw [ keyEntry?] at found
    split at found
    · exact ⟨entry, List.mem_cons_self, Option.some.inj found⟩
    · obtain ⟨other, member, same⟩ := ih found
      exact ⟨other, List.mem_cons_of_mem entry member, same⟩

mutual

theorem occurs_keyValue {value : Expr} : {expr : Expr} → expr.keyValue? = some value →
    Occurs value expr
  | props entries, found => by
    rw [keyValue?] at found
    obtain ⟨entry, member, same⟩ := mem_keyEntry found
    exact .inside (mem_inner_props member).2 (same ▸ .self)
  | call helper args, found => by
    cases helper with
    | mergeProps =>
      rw [keyValue?] at found
      obtain ⟨arg, member, occurs⟩ := occurs_keyValueAny found
      exact .inside member occurs
    | _ => simp [keyValue?] at found
  | compound _, found | array _, found | handler _ _, found | source _, found | number _, found
  | literal _, found | madeLiteral _, found | simple _ _, found | param _, found
  | context _, found | symbol _, found => by
    simp [keyValue?] at found

theorem occurs_keyValueAny {value : Expr} : {exprs : List Expr} → keyValueAny? exprs = some value →
    ∃ expr ∈ exprs, Occurs value expr
  | [], found => nomatch found
  | expr :: rest, found => by
    rw [keyValueAny?] at found
    split at found
    · next own =>
      cases found
      exact ⟨expr, List.mem_cons_self, occurs_keyValue own⟩
    · obtain ⟨other, member, occurs⟩ := occurs_keyValueAny found
      exact ⟨other, List.mem_cons_of_mem expr member, occurs⟩

end

end TemplateCompiler.Expr
