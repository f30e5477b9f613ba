import TemplateCompiler.Proofs.SpelledCode
import TemplateCompiler.Proofs.VisitedNodes

/-! Levels of indentation. Whatever is written for an expression or a node leads back to the level
that it begins at, and never beyond the outermost one on the way. -/

namespace TemplateCompiler

namespace Piece

def leadsBack : Piece → Bool
  | .dedent | .outdent => true
  | _ => false

/-- The level behind a piece, unless it leads back from the outermost one. -/
def levelAfter? (level : Nat) (piece : Piece) : Option Nat :=
  if piece.leadsBack && level == 0 then none else some (piece.levelAfter level)

variable {level : Nat}

@[simp]
theorem levelAfter?_text (text : String) : levelAfter? level (.text text) = some level :=
  rfl

@[simp]
theorem levelAfter?_helper (helper : Helper) : levelAfter? level (.helper helper) = some level :=
  rfl

@[simp]
theorem levelAfter?_newline : levelAfter? level .newline = some level :=
  rfl

@[simp]
theorem levelAfter?_mark (span : Span) : levelAfter? level (.mark span) = some level :=
  rfl

@[simp]
theorem levelAfter?_indent : levelAfter? level .indent = some (level + 1) :=
  rfl

@[simp]
theorem levelAfter?_dedent : levelAfter? (level + 1) .dedent = some level :=
  rfl

@[simp]
theorem levelAfter?_outdent : levelAfter? (level + 1) .outdent = some level :=
  rfl

end Piece

namespace Pieces

def levelAfter? (level : Nat) (pieces : Pieces) : Option Nat :=
  pieces.foldlM Piece.levelAfter? level

/-- Written at any level, the pieces lead back to it. -/
def Returns (pieces : Pieces) : Prop :=
  ∀ level, levelAfter? level pieces = some level

@[simp]
theorem levelAfter?_nil (level : Nat) : levelAfter? level [] = some level :=
  rfl

@[simp]
theorem levelAfter?_cons (level : Nat) (piece : Piece) (rest : Pieces) :
    levelAfter? level (piece :: rest) = (piece.levelAfter? level).bind (levelAfter? · rest) :=
  List.foldlM_cons

@[simp]
theorem levelAfter?_append (level : Nat) (first second : Pieces) :
    levelAfter? level (first ++ second) = (levelAfter? level first).bind (levelAfter? · second) :=
  List.foldlM_append

theorem Returns.eq_some {pieces : Pieces} (returns : Returns pieces) (level : Nat) :
    levelAfter? level pieces = some level :=
  returns level

variable {first second : Pieces} {parts : List Pieces}

theorem returns_nil : Returns [] :=
  fun _ => rfl

theorem returns_text (text : String) : Returns [.text text] :=
  fun _ => rfl

theorem Returns.append (former : Returns first) (latter : Returns second) :
    Returns (first ++ second) := by
  intro level
  rw [levelAfter?_append, former level]
  exact latter level

theorem returns_flatten (each : ∀ part ∈ parts, Returns part) : Returns parts.flatten := by
  induction parts with
  | nil => exact returns_nil
  | cons part rest ih =>
    obtain ⟨own, others⟩ := List.forall_mem_cons.1 each
    exact own.append (ih others)

theorem returns_flatMap {α : Type} {list : List α} {write : α → Pieces}
    (each : ∀ item ∈ list, Returns (write item)) : Returns (list.flatMap write) := by
  apply returns_flatten
  exact List.forall_mem_map.2 each

theorem returns_intersperse {separator : Pieces} (between : Returns separator)
    (each : ∀ part ∈ parts, Returns part) : Returns (parts.intersperse separator).flatten := by
  induction parts with
  | nil => exact returns_nil
  | cons part rest ih =>
    obtain ⟨own, others⟩ := List.forall_mem_cons.1 each
    cases rest with
    | nil => exact returns_flatten (List.forall_mem_singleton.2 own)
    | cons next more =>
      rw [List.intersperse_cons_cons]
      exact own.append (between.append (ih others))

theorem returns_join (separator : String) (each : ∀ part ∈ parts, Returns part) :
    Returns (join separator parts) :=
  returns_intersperse (returns_text separator) each

theorem returns_arguments {filler : String} {parts : List (Option Pieces)}
    (each : ∀ part ∈ parts, ∀ given ∈ part, Returns given) : Returns (arguments filler parts) := by
  refine returns_join ", " (List.forall_mem_map.2 fun part member => ?_)
  have inside : part ∈ parts :=
    List.mem_reverse.1 ((List.dropWhile_sublist _).subset (List.mem_reverse.1 member))
  cases part with
  | none => exact returns_text filler
  | some given => exact each _ inside given rfl

/-- A call of a helper with what stands between its parentheses. -/
theorem Returns.called {inner : Pieces} (returns : Returns inner) (helper : Helper)
    (opens closes : String) : Returns (.helper helper :: .text opens :: inner ++ [.text closes]) := by
  intro level
  simp [returns.eq_some]

end Pieces

open Pieces

theorem returns_guarded {helper : Helper} {guards : List String} {body : Pieces}
    (returns : Returns body) : Returns (guarded helper guards body) := by
  unfold guarded
  split
  · exact returns
  · exact returns.called helper "(" _

theorem returns_handlerFunction {traits : HandlerTraits} {body : Pieces} (returns : Returns body) :
    Returns (handlerFunction traits body) := by
  unfold handlerFunction
  split
  · exact returns
  · split
    · intro level
      simp [returns.eq_some]
    · exact returns
  · intro level
    simp [returns.eq_some]

theorem returns_handlerPieces {traits : HandlerTraits} {body : Pieces} (returns : Returns body) :
    Returns (handlerPieces traits body) := by
  have guarded : Returns (guarded .withKeys traits.keyModifiers
      (guarded .withModifiers traits.modifiers (handlerFunction traits body))) :=
    returns_guarded (returns_guarded (returns_handlerFunction returns))
  unfold handlerPieces
  dsimp only
  split
  · exact guarded
  · intro level
    simp [guarded.eq_some]

theorem returns_objectPieces {entries : List Pieces} (each : ∀ entry ∈ entries, Returns entry) :
    Returns (objectPieces entries) := by
  have joined := returns_join ", " each
  unfold objectPieces
  split
  · exact returns_text _
  · intro level
    simp [joined.eq_some]

namespace Expr

variable (onContext : String)

mutual

theorem returns_pieces : (expr : Expr) → Returns (pieces onContext expr)
  | source _ | param _ | number _ | literal _ | madeLiteral _ | simple _ _ | context _ => by
    rw [pieces]
    exact returns_text _
  | symbol helper => by
    rw [pieces]
    exact fun _ => rfl
  | props entries => by
    rw [pieces]
    exact returns_objectPieces (returns_piecesEntries entries)
  | compound parts => by
    rw [pieces]
    exact returns_flatten (returns_piecesAll parts)
  | array items => by
    have joined := returns_join ", " (returns_piecesAll items)
    intro level
    simp [pieces, joined.eq_some]
  | call helper args => by
    rw [pieces]
    exact (returns_join ", " (returns_piecesAll args)).called helper "(" ")"
  | handler body traits => by
    rw [pieces]
    exact returns_handlerPieces (returns_pieces body)

theorem returns_piecesAll : (exprs : List Expr) → ∀ part ∈ piecesAll onContext exprs, Returns part
  | [] => List.forall_mem_nil _
  | expr :: rest => List.forall_mem_cons.2 ⟨returns_pieces expr, returns_piecesAll rest⟩

theorem returns_piecesEntries : (entries : List (Expr × Expr)) →
    ∀ part ∈ piecesEntries onContext entries, Returns part
  | [] => List.forall_mem_nil _
  | (key, value) :: rest => by
    refine List.forall_mem_cons.2 ⟨Returns.append ?_ ?_, returns_piecesEntries rest⟩
    · split
      · exact returns_text _
      · exact returns_pieces key
    · exact (returns_text ": ").append (returns_pieces value)

end

end Expr

/-- The code of a node leads back to its level, in its cell as well as without it. -/
structure Written.Returns (written : Written) : Prop where
  bare : Pieces.Returns written.bare
  full : Pieces.Returns written.full

theorem Written.Returns.pieces {written : Written} (returns : written.Returns) :
    Pieces.Returns written.pieces := by
  intro level
  exact returns.full level

section Nodes

variable {onContext : String} {children : List Written}

theorem returns_textPieces (call : TextCall) : Returns (textPieces onContext call) := by
  have joined : Returns (join " + " (Expr.piecesAll onContext call.parts)) :=
    returns_join " + " (Expr.returns_piecesAll onContext call.parts)
  unfold textPieces
  dsimp only
  split
  · exact joined
  · intro level
    split
    · simp [joined.eq_some]
    · simp [joined.eq_some]

theorem returns_childList (each : ∀ child ∈ children, child.Returns) :
    Returns (childList children) := by
  have inner : Returns ((children.map Written.pieces).intersperse [.text ",", .newline]).flatten := by
    apply returns_intersperse
    · exact fun _ => rfl
    · exact List.forall_mem_map.2 fun child member => (each child member).pieces
  intro level
  simp [childList, inner.eq_some]

theorem returns_defaultSlot (flag : PatchFlag) (each : ∀ child ∈ children, child.Returns) :
    Returns (defaultSlot flag children) := by
  have listed := returns_childList each
  intro level
  simp [defaultSlot, listed.eq_some]

theorem returns_childrenPieces (call : VNode) (each : ∀ child ∈ children, child.Returns) :
    Returns (childrenPieces call children) := by
  have listed := returns_childList each
  unfold childrenPieces
  split
  · exact returns_defaultSlot _ each
  · split
    · split
      · exact (List.forall_mem_singleton.1 each).pieces
      · exact listed
    · exact listed

theorem returns_creationPieces (call : VNode) (each : ∀ child ∈ children, child.Returns) :
    Returns (creationPieces onContext call children) := by
  have listed := returns_childrenPieces call each
  have names : Returns (join ", " (Expr.piecesAll onContext call.dynamicProps)) :=
    returns_join ", " (Expr.returns_piecesAll onContext call.dynamicProps)
  have dynamic : Returns (.text "[" :: join ", " (Expr.piecesAll onContext call.dynamicProps) ++
      [.text "]"]) := by
    intro level
    simp [names.eq_some]
  have chosen {present : Bool} {pieces : Pieces} (returns : Returns pieces) :
      ∀ given ∈ (if present then some pieces else none), Returns given := by
    intro given found
    split at found
    · cases found
      exact returns
    · cases found
  refine Returns.called (returns_arguments ?_) call.creator "(" ")"
  simp only [List.forall_mem_cons]
  refine ⟨?_, ?_, chosen listed, chosen (returns_text _), chosen dynamic, List.forall_mem_nil _⟩
  · rintro _ ⟨⟩
    exact Expr.returns_pieces onContext call.tag
  · intro given found
    obtain ⟨props, -, rfl⟩ := Option.map_eq_some_iff.1 found
    exact Expr.returns_pieces onContext props

theorem returns_directivePieces (directive : RuntimeDirective) :
    Returns (directivePieces onContext directive) := by
  have args : Returns (arguments "void 0"
      ([some directive.name, directive.value, directive.argument, directive.modifiers].map
        fun part => part.map (Expr.pieces onContext))) := by
    refine returns_arguments (List.forall_mem_map.2 fun part member given found => ?_)
    obtain ⟨expr, -, rfl⟩ := Option.map_eq_some_iff.1 found
    exact Expr.returns_pieces onContext expr
  intro level
  simp only [directivePieces, levelAfter?_cons, levelAfter?_append, Piece.levelAfter?_text,
    Option.bind_some, args.eq_some, levelAfter?_nil]

theorem returns_openBlock (untracked : Bool) {inner : Pieces} (returns : Returns inner) :
    Returns (openBlock untracked inner) := by
  intro level
  simp [openBlock, returns.eq_some]

theorem returns_vnodePieces (call : VNode) (each : ∀ child ∈ children, child.Returns) :
    Returns (vnodePieces onContext call children) := by
  have creation : Returns (creationPieces onContext call children) :=
    returns_creationPieces call each
  have block : Returns (if call.isBlock then
      openBlock false (creationPieces onContext call children)
      else creationPieces onContext call children) := by
    split
    · exact returns_openBlock false creation
    · exact creation
  have directives : Returns (join ", " (call.directives.map (directivePieces onContext))) :=
    returns_join ", " (List.forall_mem_map.2 fun directive _ => returns_directivePieces directive)
  unfold vnodePieces
  dsimp only
  split
  · exact block
  · intro level
    simp [block.eq_some, directives.eq_some]

/-- Each branch goes one level deeper without a line break at its end. -/
theorem returns_conditionalPieces (links : List Link) {written : List Written}
    (each : ∀ branch ∈ written, branch.Returns) :
    Returns (conditionalPieces onContext links written) := by
  induction links generalizing written with
  | nil =>
    cases written with
    | nil => exact fun _ => rfl
    | cons last rest => exact (each last List.mem_cons_self).pieces
  | cons link links ih =>
    have test := Expr.returns_pieces onContext link.test
    have taken : Returns ((written.take 1).flatMap Written.pieces) :=
      returns_flatMap fun branch member => (each branch (List.mem_of_mem_take member)).pieces
    have later : Returns (conditionalPieces onContext links (written.drop 1)) :=
      ih fun branch member => each branch (List.mem_of_mem_drop member)
    intro level
    simp only [conditionalPieces, List.cons_append, levelAfter?_cons, levelAfter?_append,
      Piece.levelAfter?_text, Piece.levelAfter?_indent, Piece.levelAfter?_newline,
      Piece.levelAfter?_outdent, levelAfter?_nil, Option.bind_some, test.eq_some, taken.eq_some,
      later.eq_some]

theorem returns_parameterList {params : List (Option Pieces)}
    (each : ∀ param ∈ params, ∀ given ∈ param, Returns given) : Returns (parameterList params) := by
  have listed (passed : Nat) : ∀ part ∈ parameterPieces passed params, Returns part := by
    induction params generalizing passed with
    | nil => exact List.forall_mem_nil _
    | cons param rest ih =>
      obtain ⟨own, others⟩ := List.forall_mem_cons.1 each
      cases param with
      | some given => exact List.forall_mem_cons.2 ⟨own given rfl, ih others passed⟩
      | none =>
        rw [parameterPieces]
        split
        · exact List.forall_mem_cons.2 ⟨returns_text _, ih others (passed + 1)⟩
        · exact List.forall_mem_nil _
  have joined := returns_join ", " (listed 0)
  intro level
  simp [parameterList, joined.eq_some]

theorem returns_itemFunction {params : List (Option Pieces)}
    (each : ∀ param ∈ params, ∀ given ∈ param, Returns given) {body : Written}
    (returns : body.Returns) : Returns (itemFunction params body) := by
  have list := returns_parameterList each
  intro level
  simp [itemFunction, list.eq_some, returns.pieces.eq_some]

theorem returns_memoFunction {params : List (Option Pieces)}
    (each : ∀ param ∈ params, ∀ given ∈ param, Returns given) (dependencies : Expr)
    (key : Option Expr) (slot : Nat) {body : Written} (returns : body.Returns) :
    Returns (memoFunction onContext params dependencies key slot body) := by
  have list : Returns (parameterList (params ++ [some [.text "_cached"]])) := by
    apply returns_parameterList
    refine List.forall_mem_append.2 ⟨each, List.forall_mem_singleton.2 ?_⟩
    rintro _ ⟨⟩
    exact returns_text _
  have kept := Expr.returns_pieces onContext dependencies
  intro level
  cases key with
  | none => simp [memoFunction, list.eq_some, kept.eq_some, returns.bare.eq_some]
  | some key =>
    have same := Expr.returns_pieces onContext key
    simp [memoFunction, list.eq_some, kept.eq_some, same.eq_some, returns.bare.eq_some]

theorem returns_renderListPieces (call : LoopCall) {body : Written} (returns : body.Returns) :
    Returns (renderListPieces onContext call body) := by
  have params : ∀ param ∈ [call.value, call.key, call.index].map fun param =>
      param.map (Expr.pieces onContext), ∀ given ∈ param, Returns given := by
    refine List.forall_mem_map.2 fun param _ given found => ?_
    obtain ⟨expr, -, rfl⟩ := Option.map_eq_some_iff.1 found
    exact Expr.returns_pieces onContext expr
  have source := Expr.returns_pieces onContext call.source
  have rendered {function : Pieces} (item : Returns function) :
      Returns (.helper .renderList :: .text "(" :: call.source.pieces onContext ++
        .text ", " :: function) := by
    intro level
    simp [source.eq_some, item.eq_some]
  rw [renderListPieces]
  apply rendered
  split
  · exact returns_memoFunction params _ _ _ returns
  · exact returns_itemFunction params returns

theorem returns_loopPieces (call : LoopCall) {bodies : List Written}
    (each : ∀ body ∈ bodies, body.Returns) : Returns (loopPieces onContext call bodies) := by
  have items : Returns (bodies.flatMap (renderListPieces onContext call)) :=
    returns_flatMap fun body member => returns_renderListPieces call (each body member)
  apply returns_openBlock
  intro level
  simp [items.eq_some]

theorem returns_cachePieces (cell : CacheCell) {inner : Pieces} (returns : Returns inner) :
    Returns (cachePieces onContext cell inner) := by
  have memo (dependencies : Expr) : Returns (.helper .withMemo :: .text "(" ::
      dependencies.pieces onContext ++ .text ", () => " :: inner ++
        [.text (", _cache, " ++ toString cell.slot ++ ")")]) := by
    have kept := Expr.returns_pieces onContext dependencies
    intro level
    simp [kept.eq_some, returns.eq_some]
  unfold cachePieces
  dsimp only
  split
  · intro level
    simp [returns.eq_some]
  · exact memo _
  · exact memo _

theorem returns_bodyPieces (body : CodeBody) {references : List Written}
    (each : ∀ written ∈ references, written.Returns) :
    Returns (bodyPieces onContext references body) := by
  cases body with
  | vnode call => exact returns_vnodePieces call each
  | text call => exact returns_textPieces call
  | comment text => exact fun _ => rfl
  | conditional links otherwise => exact returns_conditionalPieces links each
  | loop call => exact returns_loopPieces call each
  | hoisted index => exact returns_text _

theorem returns_writeCode (span : Span) {references : List Written}
    (each : ∀ written ∈ references, written.Returns) (code : Option Code) :
    (writeCode onContext span references code).Returns := by
  cases code with
  | none => exact ⟨returns_text _, returns_text _⟩
  | some code =>
    have bare : Returns (bodyPieces onContext references code.body) := returns_bodyPieces _ each
    refine ⟨bare, ?_⟩
    simp only [writeCode]
    split
    · exact bare
    · exact returns_cachePieces _ bare

end Nodes

namespace View

variable (onContext : String)

mutual

theorem returns_write : (view : View) → (view.write onContext).Returns
  | .node span code references => returns_writeCode span (returns_writeAll references) code

theorem returns_writeAll : (views : List View) →
    ∀ written ∈ writeAll onContext views, written.Returns
  | [] => List.forall_mem_nil _
  | view :: rest => List.forall_mem_cons.2 ⟨returns_write view, returns_writeAll rest⟩

end

end View

namespace Pieces

variable {level after : Nat} {piece : Piece} {front back : Pieces}

/-- As long as nothing leads back from the outermost level, no level is cut off. -/
theorem levelAfter_eq {pieces : Pieces} (found : levelAfter? level pieces = some after) :
    levelAfter level pieces = after := by
  induction pieces generalizing level with
  | nil => exact Option.some_inj.1 found
  | cons piece rest ih =>
    rw [levelAfter?_cons] at found
    obtain ⟨next, step, later⟩ := Option.bind_eq_some_iff.1 found
    have same : piece.levelAfter level = next := by
      unfold Piece.levelAfter? at step
      split at step
      · cases step
      · exact Option.some_inj.1 step
    rw [← same] at later
    exact ih later

theorem levelAfter_pos (found : levelAfter? level (front ++ piece :: back) = some after)
    (leads : piece.leadsBack = true) : 0 < levelAfter level front := by
  rw [levelAfter?_append] at found
  obtain ⟨middle, before, later⟩ := Option.bind_eq_some_iff.1 found
  rw [levelAfter_eq before]
  rw [levelAfter?_cons] at later
  obtain ⟨next, step, -⟩ := Option.bind_eq_some_iff.1 later
  apply Nat.pos_of_ne_zero
  rintro rfl
  simp [Piece.levelAfter?, leads] at step

end Pieces

end TemplateCompiler
