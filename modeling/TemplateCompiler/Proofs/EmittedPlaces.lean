import TemplateCompiler.Proofs.SpelledCode

/-! The places that generated code refers to. All marks in it are those of the nodes it renders, as
expressions have none, so whatever holds of the places of all nodes holds of all mappings. -/

namespace TemplateCompiler

variable {allowed : Span → Prop}

@[simp]
def Piece.Within (allowed : Span → Prop) : Piece → Prop
  | .mark span => allowed span
  | _ => True

namespace Pieces

/-- All marks have allowed places. -/
def Within (allowed : Span → Prop) (pieces : Pieces) : Prop :=
  ∀ piece ∈ pieces, piece.Within allowed

@[simp]
theorem within_nil : Within allowed [] :=
  List.forall_mem_nil _

@[simp]
theorem within_cons {piece : Piece} {rest : Pieces} :
    Within allowed (piece :: rest) ↔ piece.Within allowed ∧ Within allowed rest :=
  List.forall_mem_cons

@[simp]
theorem within_append {first second : Pieces} :
    Within allowed (first ++ second) ↔ Within allowed first ∧ Within allowed second :=
  List.forall_mem_append

theorem within_flatten {parts : List Pieces} (within : ∀ part ∈ parts, Within allowed part) :
    Within allowed parts.flatten := by
  intro piece member
  obtain ⟨part, inside, found⟩ := List.mem_flatten.mp member
  exact within part inside piece found

theorem within_flatMap {α : Type} {list : List α} {write : α → Pieces}
    (within : ∀ item ∈ list, Within allowed (write item)) : Within allowed (list.flatMap write) := by
  intro piece member
  obtain ⟨item, inside, found⟩ := List.mem_flatMap.mp member
  exact within item inside piece found

theorem within_intersperse {parts : List Pieces} {separator : Pieces}
    (plain : Within allowed separator) (within : ∀ part ∈ parts, Within allowed part) :
    Within allowed (parts.intersperse separator).flatten := by
  refine within_flatten fun part member => ?_
  induction parts with
  | nil => cases member
  | cons first rest ih =>
    obtain ⟨own, others⟩ := List.forall_mem_cons.mp within
    cases rest with
    | nil =>
      rw [List.mem_singleton.mp member]
      exact own
    | cons second more =>
      rcases List.mem_cons.mp member with rfl | member
      · exact own
      · rcases List.mem_cons.mp member with rfl | member
        · exact plain
        · exact ih others member

theorem within_join {separator : String} {parts : List Pieces}
    (within : ∀ part ∈ parts, Within allowed part) : Within allowed (join separator parts) :=
  within_intersperse (by simp) within

theorem within_arguments {filler : String} {parts : List (Option Pieces)}
    (within : ∀ part ∈ parts, ∀ given ∈ part, Within allowed given) :
    Within allowed (arguments filler parts) := by
  refine within_join (List.forall_mem_map.mpr fun part member => ?_)
  have inside : part ∈ parts :=
    List.mem_reverse.mp ((List.dropWhile_sublist _).subset (List.mem_reverse.mp member))
  cases part with
  | none => simp
  | some given => exact within _ inside given rfl

end Pieces

open Pieces

theorem within_guarded {helper : Helper} {guards : List String} {body : Pieces}
    (within : Within allowed body) : Within allowed (guarded helper guards body) := by
  unfold guarded
  split
  · exact within
  · simp [within]

theorem within_handlerPieces {traits : HandlerTraits} {body : Pieces}
    (within : Within allowed body) : Within allowed (handlerPieces traits body) := by
  have called : Within allowed (handlerFunction traits body) := by
    unfold handlerFunction
    split
    · exact within
    · split
      · simp [within]
      · exact within
    · simp [within]
  have guarded := @within_guarded allowed .withKeys traits.keyModifiers _
    (@within_guarded allowed .withModifiers traits.modifiers _ called)
  unfold handlerPieces
  simp only
  split
  · exact guarded
  · simp [guarded]

namespace Expr

variable (onContext : String)

mutual

theorem within_pieces : (expr : Expr) → Within allowed (pieces onContext expr)
  | source _ | param _ | number _ | literal _ | madeLiteral _ | simple _ _ | context _ | symbol _ => by
    simp [pieces]
  | props entries => by
    rw [pieces, objectPieces]
    split
    · simp
    · simp [within_join (within_piecesEntries entries)]
  | compound parts => by
    rw [pieces]
    exact within_flatten (within_piecesAll parts)
  | array items => by
    simp [pieces, within_join (within_piecesAll items)]
  | call helper args => by
    simp [pieces, within_join (within_piecesAll args)]
  | handler body traits => by
    rw [pieces]
    exact within_handlerPieces (within_pieces body)

theorem within_piecesAll : (exprs : List Expr) →
    ∀ part ∈ piecesAll onContext exprs, Within allowed part
  | [] => List.forall_mem_nil _
  | expr :: rest => List.forall_mem_cons.mpr ⟨within_pieces expr, within_piecesAll rest⟩

theorem within_piecesEntries : (entries : List (Expr × Expr)) →
    ∀ part ∈ piecesEntries onContext entries, Within allowed part
  | [] => List.forall_mem_nil _
  | (key, value) :: rest => by
    refine List.forall_mem_cons.mpr ⟨?_, within_piecesEntries rest⟩
    refine within_append.mpr ⟨?_, by simp [within_pieces value]⟩
    split
    · simp
    · exact within_pieces key

end

end Expr

/-- The place of a node and the marks in its code are allowed. -/
structure Written.Within (allowed : Span → Prop) (written : Written) : Prop where
  span : allowed written.span
  bare : Pieces.Within allowed written.bare
  full : Pieces.Within allowed written.full

theorem Written.Within.pieces {written : Written} (within : written.Within allowed) :
    Pieces.Within allowed written.pieces :=
  within_cons.mpr ⟨within.span, within.full⟩

section Nodes

variable {onContext : String} {children : List Written}

theorem within_textPieces (call : TextCall) : Within allowed (textPieces onContext call) := by
  have joined : Within allowed (join " + " (Expr.piecesAll onContext call.parts)) :=
    within_join (Expr.within_piecesAll onContext call.parts)
  unfold textPieces
  simp only
  split
  · exact joined
  · split
    · simp [joined]
    · simp [joined]

theorem within_childList (within : ∀ child ∈ children, child.Within allowed) :
    Within allowed (childList children) := by
  have inner : Within allowed
      ((children.map Written.pieces).intersperse [.text ",", .newline]).flatten :=
    within_intersperse (by simp)
      (List.forall_mem_map.mpr fun child member => (within child member).pieces)
  simp [childList, inner]

theorem within_childrenPieces (call : VNode) (within : ∀ child ∈ children, child.Within allowed) :
    Within allowed (childrenPieces call children) := by
  have listed := within_childList within
  unfold childrenPieces
  split
  · simp [defaultSlot, listed]
  · split
    · split
      · exact (List.forall_mem_singleton.mp within).pieces
      · exact listed
    · exact listed

theorem within_creationPieces (call : VNode) (within : ∀ child ∈ children, child.Within allowed) :
    Within allowed (creationPieces onContext call children) := by
  have listed := within_childrenPieces call within
  have dynamic : Within allowed (join ", " (Expr.piecesAll onContext call.dynamicProps)) :=
    within_join (Expr.within_piecesAll onContext call.dynamicProps)
  simp only [creationPieces, within_cons, within_append, Piece.Within, within_nil, true_and, and_true]
  refine within_arguments ?_
  simp only [List.forall_mem_cons]
  refine ⟨?_, ?_, ?_, ?_, ?_, List.forall_mem_nil _⟩
  · rintro _ ⟨⟩
    exact Expr.within_pieces onContext call.tag
  · intro given found
    obtain ⟨props, -, rfl⟩ := Option.map_eq_some_iff.mp found
    exact Expr.within_pieces onContext props
  all_goals
    intro given found
    split at found
    · cases found
      simp [listed, dynamic]
    · cases found

theorem within_directivePieces (directive : RuntimeDirective) :
    Within allowed (directivePieces onContext directive) := by
  simp only [directivePieces, within_cons, within_append, Piece.Within, within_nil, true_and, and_true]
  refine within_arguments (List.forall_mem_map.mpr fun part member given found => ?_)
  obtain ⟨expr, -, rfl⟩ := Option.map_eq_some_iff.mp found
  exact Expr.within_pieces onContext expr

theorem within_openBlock (untracked : Bool) {body : Pieces} (within : Within allowed body) :
    Within allowed (openBlock untracked body) := by
  simp [openBlock, within]

theorem within_vnodePieces (call : VNode) (within : ∀ child ∈ children, child.Within allowed) :
    Within allowed (vnodePieces onContext call children) := by
  have creation : Within allowed (creationPieces onContext call children) :=
    within_creationPieces call within
  have block : Within allowed (if call.isBlock then
      openBlock false (creationPieces onContext call children)
      else creationPieces onContext call children) := by
    split
    · exact within_openBlock false creation
    · exact creation
  have directives : Within allowed
      (join ", " (call.directives.map (directivePieces onContext))) :=
    within_join (List.forall_mem_map.mpr fun directive _ => within_directivePieces directive)
  unfold vnodePieces
  simp only
  split
  · exact block
  · simp [block, directives]

theorem within_conditionalPieces (links : List Link) {written : List Written}
    (within : ∀ child ∈ written, child.Within allowed) :
    Within allowed (conditionalPieces onContext links written) := by
  induction links generalizing written with
  | nil =>
    cases written with
    | nil => simp [conditionalPieces]
    | cons last rest => exact (within last List.mem_cons_self).pieces
  | cons link rest ih =>
    have taken : Within allowed ((written.take 1).flatMap Written.pieces) :=
      within_flatMap fun child member => (within child (List.mem_of_mem_take member)).pieces
    have later := @ih (written.drop 1) fun child member =>
      within child (List.mem_of_mem_drop member)
    simpa [conditionalPieces, Expr.within_pieces, taken] using later

theorem within_parameterList {params : List (Option Pieces)}
    (within : ∀ param ∈ params, ∀ given ∈ param, Within allowed given) :
    Within allowed (parameterList params) := by
  have each (skipped : Nat) : ∀ part ∈ parameterPieces skipped params, Within allowed part := by
    induction params generalizing skipped with
    | nil => exact List.forall_mem_nil _
    | cons param rest ih =>
      obtain ⟨own, others⟩ := List.forall_mem_cons.mp within
      cases param with
      | some given => exact List.forall_mem_cons.mpr ⟨own given rfl, ih others skipped⟩
      | none =>
        simp only [parameterPieces]
        split
        · exact List.forall_mem_cons.mpr ⟨by simp, ih others (skipped + 1)⟩
        · exact List.forall_mem_nil _
  simp [parameterList, within_join (each 0)]

theorem within_itemFunction {params : List (Option Pieces)}
    (given : ∀ param ∈ params, ∀ pieces ∈ param, Within allowed pieces) {body : Written}
    (within : body.Within allowed) : Within allowed (itemFunction params body) := by
  simp [itemFunction, within_parameterList given, within.pieces]

theorem within_memoFunction {params : List (Option Pieces)}
    (given : ∀ param ∈ params, ∀ pieces ∈ param, Within allowed pieces) (dependencies : Expr)
    (key : Option Expr) (slot : Nat) {body : Written} (within : body.Within allowed) :
    Within allowed (memoFunction onContext params dependencies key slot body) := by
  have cached : ∀ param ∈ params ++ [some [.text "_cached"]], ∀ pieces ∈ param,
      Within allowed pieces := by
    refine List.forall_mem_append.mpr ⟨given, List.forall_mem_singleton.mpr ?_⟩
    rintro _ ⟨⟩
    simp
  cases key with
  | none =>
    simp [memoFunction, within_parameterList cached, Expr.within_pieces, within.span, within.bare]
  | some key =>
    simp [memoFunction, within_parameterList cached, Expr.within_pieces, within.span, within.bare]

theorem within_renderListPieces (call : LoopCall) {body : Written} (within : body.Within allowed) :
    Within allowed (renderListPieces onContext call body) := by
  have params : ∀ param ∈ [call.value, call.key, call.index].map fun param =>
      param.map (Expr.pieces onContext), ∀ given ∈ param, Within allowed given := by
    refine List.forall_mem_map.mpr fun param _ given found => ?_
    obtain ⟨expr, -, rfl⟩ := Option.map_eq_some_iff.mp found
    exact Expr.within_pieces onContext expr
  simp only [renderListPieces, within_cons, within_append, Piece.Within, Expr.within_pieces, true_and]
  split
  · exact within_memoFunction params _ _ _ within
  · exact within_itemFunction params within

theorem within_loopPieces (call : LoopCall) {body : List Written}
    (within : ∀ written ∈ body, written.Within allowed) :
    Within allowed (loopPieces onContext call body) := by
  have items : Within allowed (body.flatMap (renderListPieces onContext call)) :=
    within_flatMap fun written member => within_renderListPieces call (within written member)
  refine within_openBlock _ ?_
  simp [items]

theorem within_cachePieces (cell : CacheCell) {inner : Pieces} (within : Within allowed inner) :
    Within allowed (cachePieces onContext cell inner) := by
  unfold cachePieces
  simp only
  split <;> simp [within, Expr.within_pieces]

theorem within_bodyPieces (body : CodeBody) {references : List Written}
    (within : ∀ written ∈ references, written.Within allowed) :
    Within allowed (bodyPieces onContext references body) := by
  cases body with
  | vnode call => exact within_vnodePieces call within
  | text call => exact within_textPieces call
  | comment text => simp [bodyPieces]
  | conditional links otherwise => exact within_conditionalPieces links within
  | loop call => exact within_loopPieces call within
  | hoisted index => simp [bodyPieces]

theorem within_writeCode {span : Span} (place : allowed span) {references : List Written}
    (within : ∀ written ∈ references, written.Within allowed) (code : Option Code) :
    (writeCode onContext span references code).Within allowed := by
  cases code with
  | none => exact ⟨place, by simp [writeCode], by simp [writeCode]⟩
  | some code =>
    have bare : Within allowed (bodyPieces onContext references code.body) :=
      within_bodyPieces code.body within
    refine ⟨place, bare, ?_⟩
    simp only [writeCode]
    split
    · exact bare
    · exact within_cachePieces _ bare

end Nodes

inductive View.Within (allowed : Span → Prop) : View → Prop
  | node {span : Span} {code : Option Code} {references : List View} (place : allowed span)
      (below : ∀ view ∈ references, view.Within allowed) :
      View.Within allowed (.node span code references)

namespace View

theorem writeAll_eq_map (onContext : String) (views : List View) :
    writeAll onContext views = views.map (write onContext) := by
  induction views with
  | nil => rfl
  | cons view rest ih => rw [writeAll, ih, List.map_cons]

theorem Within.write {view : View} (within : view.Within allowed) (onContext : String) :
    (view.write onContext).Within allowed := by
  induction within with
  | node place below ih =>
    rw [View.write, writeAll_eq_map]
    exact within_writeCode place (List.forall_mem_map.mpr ih) _

end View

namespace Plan

variable {spans : Array Span}

theorem within_viewWithin (table : Table) (places : ∀ span ∈ spans, allowed span)
    (origin : allowed {}) (depth : Nat) (id : NodeId) :
    (viewWithin table spans depth id).Within allowed := by
  have own (id : NodeId) : allowed ((spans[id]?).getD {}) := by
    cases found : spans[id]? with
    | none => exact origin
    | some span => exact places span (Array.mem_of_getElem? found)
  induction depth generalizing id with
  | zero => exact .node (own id) (List.forall_mem_nil _)
  | succ depth ih => exact .node (own id) (List.forall_mem_map.mpr fun reference _ => ih reference)

section Function

variable (plan : Plan) (option : EmitOption) (places : ∀ span ∈ spans, allowed span)
  (origin : allowed {})

include places origin

theorem within_vnodeCode (call : VNode) : Within allowed (plan.vnodeCode option spans call) := by
  refine within_vnodePieces call ?_
  rw [View.writeAll_eq_map, List.map_map]
  refine List.forall_mem_map.mpr fun child _ => ?_
  exact (within_viewWithin plan.table places origin _ child).write option.onContext

theorem within_hoistPieces : Within allowed (plan.hoistPieces option spans) := by
  unfold hoistPieces
  split
  · exact within_nil
  · refine within_append.mpr ⟨within_flatMap fun hoisted _ => ?_, by simp⟩
    simp [within_vnodeCode plan option places origin]

theorem within_returnedPieces : Within allowed (plan.returnedPieces option spans) := by
  unfold returnedPieces
  split
  · simp
  · exact ((within_viewWithin plan.table places origin _ _).write option.onContext).pieces
  · exact within_vnodeCode plan option places origin _

omit places origin in
theorem within_assetsPieces : Within allowed plan.assetsPieces := by
  have asset (name : Phrase) (resolver : Helper) : Within allowed (assetPieces name resolver) := by
    simp [assetPieces]
  unfold assetsPieces
  simp only
  split
  · exact within_nil
  · refine within_append.mpr ⟨within_intersperse (by simp) (List.forall_mem_append.mpr ⟨?_, ?_⟩),
      by simp⟩
    · exact List.forall_mem_map.mpr fun _ _ => asset _ _
    · exact List.forall_mem_map.mpr fun _ _ => asset _ _

/-- All marks in the code of a plan are the places of its nodes. -/
theorem within_functionPieces : Within allowed (plan.functionPieces option spans) := by
  have imports (helpers : HelperSet) : Within allowed (importPieces option.mode helpers) := by
    unfold importPieces
    split
    · exact within_nil
    · split <;> simp
  have scope : Within allowed (scopePieces option) := by
    unfold scopePieces
    split <;> simp
  have closing : Within allowed (closingPieces option) := by
    unfold closingPieces
    split <;> simp
  simp [functionPieces, imports, scope, closing, signaturePieces, within_assetsPieces,
    within_hoistPieces plan option places origin, within_returnedPieces plan option places origin]

end Function

end Plan

end TemplateCompiler
