import TemplateCompiler.Proofs.IndentLevels
import TemplateCompiler.Proofs.SectionedCode

/-! The render function put together. Its sections are written at the levels at which they stand in
the end, so what comes out is the whole code as if it were written from its beginning to its end.
Constants are written at the outermost level, the returned code within the brackets that the head of
the function opens, and just these are closed behind it. -/

namespace TemplateCompiler

open Pieces

/-- Brackets are opened behind these heads, each one level deeper. -/
def openBrackets (heads : List String) : Pieces :=
  heads.flatMap fun head => [.text (head ++ "\x7b"), .indent]

def closeBrackets (heads : List String) : Pieces :=
  heads.flatMap fun _ => [.dedent, .text "\x7d"]

theorem levelAfter?_openBrackets (level : Nat) (heads : List String) :
    Pieces.levelAfter? level (openBrackets heads) = some (level + heads.length) := by
  induction heads generalizing level with
  | nil => rfl
  | cons head rest ih =>
    have later := ih (level + 1)
    rw [Nat.add_right_comm] at later
    exact later

theorem levelAfter?_closeBrackets (level : Nat) (heads : List String) :
    Pieces.levelAfter? (level + heads.length) (closeBrackets heads) = some level := by
  induction heads with
  | nil => rfl
  | cons head rest ih => exact ih

theorem returns_importPieces (mode : ScriptMode) (helpers : HelperSet) :
    Returns (importPieces mode helpers) := by
  unfold importPieces
  split
  · exact returns_nil
  · split
    · exact returns_text _
    · exact returns_text _

namespace Plan

variable (plan : Plan) (option : EmitOption)

theorem returns_written (onContext : String) (id : NodeId) : (plan.written onContext id).Returns :=
  View.returns_write onContext _

theorem returns_vnodeCode (call : VNode) : Returns (plan.vnodeCode option plan.spans call) := by
  rw [vnodeCode_eq]
  exact returns_vnodePieces call
    (List.forall_mem_map.2 fun child _ => plan.returns_written option.onContext child)

theorem returns_hoistPieces : Returns (plan.hoistPieces option plan.spans) := by
  unfold hoistPieces
  split
  · exact returns_nil
  · apply Returns.append _ (returns_text "\n")
    apply returns_flatMap
    rintro ⟨call, index⟩ -
    have code := plan.returns_vnodeCode option call
    exact (returns_text _).append (code.append (returns_text "\n"))

theorem returns_assetPieces (name : Phrase) (resolver : Helper) :
    Returns (assetPieces name resolver) :=
  fun _ => rfl

theorem returns_assetsPieces : Returns plan.assetsPieces := by
  unfold assetsPieces
  dsimp only
  split
  · exact returns_nil
  · apply Returns.append
    · apply returns_intersperse
      · exact fun _ => rfl
      · refine List.forall_mem_append.2 ⟨?_, ?_⟩
        · exact List.forall_mem_map.2 fun _ _ => returns_assetPieces _ _
        · exact List.forall_mem_map.2 fun _ _ => returns_assetPieces _ _
    · exact fun _ => rfl

theorem returns_returnedPieces : Returns (plan.returnedPieces option plan.spans) := by
  unfold returnedPieces
  split
  · exact returns_text "null"
  · exact (plan.returns_written option.onContext _).pieces
  · exact plan.returns_vnodeCode option _

/-- What stands in front of the brackets of the function: its signature, and its scope if it has
one. -/
def heads : List String :=
  let keyword := match option.mode with
    | .module _ => "export"
    | .function _ => "return"
  let cache :=
    if plan.cacheSize = 0 then "" else " = Array(" ++ toString plan.cacheSize ++ ")"
  (keyword ++ " function render(_ctx, _cache" ++ cache ++ ") ") ::
    if option.usesScope then ["with (_ctx) "] else []

theorem openBrackets_heads :
    openBrackets (plan.heads option) = plan.signaturePieces option ++ scopePieces option := by
  have bracket : ") " ++ "\x7b" = ") \x7b" := by decide
  simp only [heads, signaturePieces, scopePieces, openBrackets, List.flatMap_cons,
    String.append_assoc, bracket]
  cases option.usesScope <;> rfl

theorem closingPieces_eq :
    closingPieces option = closeBrackets (plan.heads option) ++ [.text "\n"] := by
  unfold closingPieces heads
  split <;> rfl

/-- What one of the writers writes for an expression, for nodes of the plan, or for the plan. -/
inductive Writes : Pieces → Prop
  | expression (expr : Expr) : Writes (expr.pieces option.onContext)
  | handler (traits : HandlerTraits) (body : Expr) :
      Writes (handlerPieces traits (body.pieces option.onContext))
  | handlerFunction (traits : HandlerTraits) (body : Expr) :
      Writes (handlerFunction traits (body.pieces option.onContext))
  | guarded (helper : Helper) (guards : List String) {inner : Pieces} (within : Writes inner) :
      Writes (guarded helper guards inner)
  | list (separator : String) (exprs : List Expr) :
      Writes (join separator (Expr.piecesAll option.onContext exprs))
  | object (entries : List (Expr × Expr)) :
      Writes (objectPieces (Expr.piecesEntries option.onContext entries))
  | entry (entries : List (Expr × Expr)) {pieces : Pieces}
      (member : pieces ∈ Expr.piecesEntries option.onContext entries) : Writes pieces
  | text (call : TextCall) : Writes (textPieces option.onContext call)
  | childList (ids : List NodeId) : Writes (childList (ids.map (plan.written option.onContext)))
  | slot (flag : PatchFlag) (ids : List NodeId) :
      Writes (defaultSlot flag (ids.map (plan.written option.onContext)))
  | children (call : VNode) :
      Writes (childrenPieces call (call.children.map (plan.written option.onContext)))
  | creation (call : VNode) :
      Writes (creationPieces option.onContext call
        (call.children.map (plan.written option.onContext)))
  | block (untracked : Bool) {inner : Pieces} (within : Writes inner) :
      Writes (openBlock untracked inner)
  | directive (directive : RuntimeDirective) :
      Writes (directivePieces option.onContext directive)
  | vnode (call : VNode) :
      Writes (vnodePieces option.onContext call
        (call.children.map (plan.written option.onContext)))
  | conditional (links : List Link) (otherwise : Option NodeId) :
      Writes (conditionalPieces option.onContext links
        ((links.map (·.consequent) ++ otherwise.toList).map (plan.written option.onContext)))
  | parameters (params : List (Option Expr)) :
      Writes (parameterList (params.map (Option.map (Expr.pieces option.onContext))))
  | renderList (call : LoopCall) :
      Writes (renderListPieces option.onContext call (plan.written option.onContext call.body))
  | loop (call : LoopCall) :
      Writes (loopPieces option.onContext call [plan.written option.onContext call.body])
  | cache (cell : CacheCell) {inner : Pieces} (within : Writes inner) :
      Writes (cachePieces option.onContext cell inner)
  | code (code : Code) :
      Writes (bodyPieces option.onContext
        (code.references.map (plan.written option.onContext)) code.body)
  | node (id : NodeId) : Writes (plan.written option.onContext id).pieces
  | imports (mode : ScriptMode) (helpers : HelperSet) : Writes (importPieces mode helpers)
  | hoists : Writes (plan.hoistPieces option plan.spans)
  | asset (name : Phrase) (resolver : Helper) : Writes (assetPieces name resolver)
  | assets : Writes plan.assetsPieces
  | returned : Writes (plan.returnedPieces option plan.spans)

theorem Writes.returns {pieces : Pieces} (writes : plan.Writes option pieces) :
    Returns pieces := by
  have nodes (ids : List NodeId) :
      ∀ written ∈ ids.map (plan.written option.onContext), written.Returns :=
    List.forall_mem_map.2 fun id _ => plan.returns_written option.onContext id
  induction writes with
  | expression expr => exact expr.returns_pieces option.onContext
  | handler traits body => exact returns_handlerPieces (body.returns_pieces option.onContext)
  | handlerFunction traits body =>
    exact returns_handlerFunction (body.returns_pieces option.onContext)
  | guarded helper guards _ inner => exact returns_guarded inner
  | list separator exprs =>
    exact returns_join separator (Expr.returns_piecesAll option.onContext exprs)
  | object entries => exact returns_objectPieces (Expr.returns_piecesEntries _ entries)
  | entry entries member => exact Expr.returns_piecesEntries _ entries _ member
  | text call => exact returns_textPieces call
  | childList ids => exact returns_childList (nodes ids)
  | slot flag ids => exact returns_defaultSlot flag (nodes ids)
  | children call => exact returns_childrenPieces call (nodes call.children)
  | creation call => exact returns_creationPieces call (nodes call.children)
  | block untracked _ inner => exact returns_openBlock untracked inner
  | directive directive => exact returns_directivePieces directive
  | vnode call => exact returns_vnodePieces call (nodes call.children)
  | conditional links otherwise => exact returns_conditionalPieces links (nodes _)
  | parameters params =>
    refine returns_parameterList (List.forall_mem_map.2 fun param _ given found => ?_)
    obtain ⟨expr, -, rfl⟩ := Option.map_eq_some_iff.1 found
    exact expr.returns_pieces option.onContext
  | renderList call => exact returns_renderListPieces call (plan.returns_written _ call.body)
  | loop call => exact returns_loopPieces call (nodes [call.body])
  | cache cell _ inner => exact returns_cachePieces cell inner
  | code code => exact returns_bodyPieces code.body (nodes code.references)
  | node id => exact (plan.returns_written option.onContext id).pieces
  | imports mode helpers => exact returns_importPieces mode helpers
  | hoists => exact plan.returns_hoistPieces option
  | asset name resolver => exact returns_assetPieces name resolver
  | assets => exact plan.returns_assetsPieces
  | returned => exact plan.returns_returnedPieces option

/-- The levels at which the parts of the whole code are written. -/
structure Indents (preamble : Pieces) (heads : List String) : Prop where
  code : plan.functionPieces option plan.spans =
    preamble ++ plan.hoistPieces option plan.spans ++ openBrackets heads ++ plan.assetsPieces ++
      .text "return " :: plan.returnedPieces option plan.spans ++ closeBrackets heads ++
        [.text "\n"]
  /-- The function and its scope, if it has one. -/
  brackets : heads.length = if option.usesScope then 2 else 1
  preamble : preamble.levelAfter? 0 = some 0
  hoists : (plan.hoistPieces option plan.spans).levelAfter? 0 = some 0
  opening : (openBrackets heads).levelAfter? 0 = some heads.length
  assets : plan.assetsPieces.levelAfter? heads.length = some heads.length
  returned : (plan.returnedPieces option plan.spans).levelAfter? heads.length = some heads.length
  closing : (closeBrackets heads).levelAfter? heads.length = some 0
  /-- Wherever one of the writers begins, it leads back to the level there. -/
  writers : ∀ pieces, plan.Writes option pieces → pieces.Returns
  /-- Nothing leads back from the outermost level. -/
  positive : ∀ front piece back, plan.functionPieces option plan.spans = front ++ piece :: back →
    piece.leadsBack = true → 0 < (Writer.ofPieces front).level
  ends : (Writer.ofPieces (plan.functionPieces option plan.spans)).level = 0
  /-- The writer of the whole code comes to its end there, too, and has opened these brackets. -/
  assembled : (plan.assemble option).level = 0
  opened : (plan.assemble option).brackets = heads.length
  /-- A list of children is not written unless there are some. -/
  childless : ∀ call : VNode, call.children = [] → ∀ written,
    creationPieces option.onContext call written = creationPieces option.onContext call []

theorem exists_preamble : ∃ preamble, Returns preamble ∧ plan.functionPieces option plan.spans =
    preamble ++ plan.hoistPieces option plan.spans ++ openBrackets (plan.heads option) ++
      plan.assetsPieces ++ .text "return " :: plan.returnedPieces option plan.spans ++
        closeBrackets (plan.heads option) ++ [.text "\n"] := by
  have imports := returns_importPieces option.mode (Pieces.helpers
    (plan.hoistPieces option plan.spans ++ plan.assetsPieces ++ plan.returnedPieces option plan.spans))
  refine ⟨_, imports, ?_⟩
  simp only [functionPieces, openBrackets_heads, plan.closingPieces_eq option, List.append_assoc,
    List.cons_append]

theorem returns_functionPieces : Returns (plan.functionPieces option plan.spans) := by
  obtain ⟨preamble, imports, code⟩ := plan.exists_preamble option
  have hoists := plan.returns_hoistPieces option
  have assets := plan.returns_assetsPieces
  have returned := plan.returns_returnedPieces option
  intro level
  simp only [code, levelAfter?_append, levelAfter?_cons, levelAfter?_nil, Piece.levelAfter?_text,
    Option.bind_some, imports.eq_some, hoists.eq_some, levelAfter?_openBrackets, assets.eq_some,
    returned.eq_some, levelAfter?_closeBrackets]

theorem wrote_openFunction {writer : Writer} {level : Nat} {pieces : Pieces}
    (wrote : writer.Wrote level pieces) :
    (plan.openFunction option writer).Wrote level (pieces ++ openBrackets (plan.heads option)) := by
  have signed := wrote.openBracket (plan.signaturePieces option)
  rw [openBrackets_heads, ← List.append_assoc]
  unfold openFunction
  dsimp only
  split
  · exact signed.openBracket (scopePieces option)
  · next unscoped =>
    rw [scopePieces, if_neg unscoped, List.append_nil]
    exact signed

theorem length_heads : (plan.heads option).length = if option.usesScope then 2 else 1 := by
  rw [heads, List.length_cons]
  cases option.usesScope <;> rfl

@[simp]
theorem sourceMap_openFunction (writer : Writer) :
    (plan.openFunction option writer).sourceMap = writer.sourceMap := by
  unfold openFunction
  dsimp only
  split
  · simp
  · simp

@[simp]
theorem brackets_openFunction (writer : Writer) :
    (plan.openFunction option writer).brackets = writer.brackets + (plan.heads option).length := by
  rw [length_heads]
  unfold openFunction
  dsimp only
  split
  · simp
  · simp

theorem closeBrackets_eq (heads : List String) :
    closeBrackets heads = (List.replicate heads.length [.dedent, .text "\x7d"]).flatten := by
  rw [closeBrackets, List.flatMap, List.map_const']

/-- Sections that hold the parts of the function are put together as the whole code. -/
theorem wrote_joinSections {writer : Writer} (start : writer.Wrote 0 [])
    (unopened : writer.brackets = 0) {hoists assets returned : Section}
    (constants : hoists.Holds writer.sourceMap 0 (plan.hoistPieces option plan.spans))
    (resolved : assets.Holds writer.sourceMap (plan.heads option).length plan.assetsPieces)
    (body : returned.Holds writer.sourceMap (plan.heads option).length
      (plan.returnedPieces option plan.spans)) :
    (plan.joinSections option writer hoists assets returned).Wrote 0
      (plan.functionPieces option plan.spans) := by
  have used : (hoists.helpers.union assets.helpers).union returned.helpers =
      Pieces.helpers (plan.hoistPieces option plan.spans ++ plan.assetsPieces ++
        plan.returnedPieces option plan.spans) := by
    rw [helpers_append, helpers_append, constants.helpers, resolved.helpers, body.helpers]
  have returnsImports := returns_importPieces option.mode (Pieces.helpers
    (plan.hoistPieces option plan.spans ++ plan.assetsPieces ++ plan.returnedPieces option plan.spans))
  unfold joinSections functionPieces
  rw [used]
  dsimp only
  generalize importPieces option.mode _ = imports at returnsImports ⊢
  have imported := start.addAll imports
  have outermost : (writer.addAll imports).level = 0 := by
    rw [imported.level]
    exact levelAfter_eq (returnsImports 0)
  have hoisted := imported.append outermost (by rwa [Writer.sourceMap_addAll])
    (levelAfter_eq (plan.returns_hoistPieces option 0))
  have opened := plan.wrote_openFunction option hoisted
  have inside : (plan.openFunction option ((writer.addAll imports).append hoists)).level =
      (plan.heads option).length := by
    have deeper := levelAfter?_openBrackets 0 (plan.heads option)
    rw [Nat.zero_add] at deeper
    rw [opened.level]
    apply levelAfter_eq
    simp only [levelAfter?_append, levelAfter?_nil, Option.bind_some, returnsImports.eq_some,
      (plan.returns_hoistPieces option).eq_some, deeper]
  have asked : (plan.openFunction option ((writer.addAll imports).append hoists)).sourceMap =
      writer.sourceMap := by
    simp
  have counted : (plan.openFunction option ((writer.addAll imports).append hoists)).brackets =
      (plan.heads option).length := by
    simp [unopened]
  generalize plan.openFunction option _ = within at opened inside asked counted ⊢
  have declared := opened.append inside (by rwa [asked])
    (levelAfter_eq (plan.returns_assetsPieces (plan.heads option).length))
  have returning := declared.add (.text "return ")
  have whole := (returning.append inside (by rwa [Writer.sourceMap_add, Writer.sourceMap_append, asked])
    (levelAfter_eq (plan.returns_returnedPieces option (plan.heads option).length))).close
  simp only [Writer.brackets_append, Writer.brackets_add, counted, List.nil_append] at whole
  rw [closingPieces_eq, closeBrackets_eq]
  rw [openBrackets_heads] at whole
  simpa only [List.append_assoc, List.cons_append, List.nil_append] using whole

/-- The sections are written at the levels that they come to stand at. -/
theorem exists_assemble : ∃ (writer : Writer) (hoists assets returned : Section),
    plan.assemble option = plan.joinSections option writer hoists assets returned ∧
      writer.sourceMap = option.sourceMap ∧ writer.brackets = 0 ∧ writer.Wrote 0 [] ∧
      hoists.Holds option.sourceMap 0 (plan.hoistPieces option plan.spans) ∧
      assets.Holds option.sourceMap (plan.heads option).length plan.assetsPieces ∧
      returned.Holds option.sourceMap (plan.heads option).length
        (plan.returnedPieces option plan.spans) := by
  have hoists := levelAfter_eq (plan.returns_hoistPieces option 0)
  have assets (level : Nat) := levelAfter_eq (plan.returns_assetsPieces level)
  have returned (level : Nat) := levelAfter_eq (plan.returns_returnedPieces option level)
  obtain ⟨first, constants, asideFirst⟩ :=
    Writer.exists_aside { sourceMap := option.sourceMap } hoists
  obtain ⟨second, resolved, asideSecond⟩ := Writer.exists_aside
    { level := (plan.heads option).length, sourceMap := option.sourceMap } (assets _)
  obtain ⟨third, body, asideThird⟩ := Writer.exists_aside
    { level := (plan.heads option).length, sourceMap := option.sourceMap } (returned _)
  refine ⟨{ sourceMap := option.sourceMap }, first, second, third, ?_, rfl, rfl,
    Writer.wrote_empty { sourceMap := option.sourceMap }, constants, resolved, body⟩
  rw [assemble, asideFirst, ← length_heads]
  dsimp only
  rw [asideSecond]
  dsimp only
  rw [asideThird]

theorem wrote_assemble :
    (plan.assemble option).Wrote 0 (plan.functionPieces option plan.spans) := by
  obtain ⟨writer, hoists, assets, returned, same, asked, unopened, start, constants, resolved,
    body⟩ := plan.exists_assemble option
  rw [← asked] at constants resolved body
  rw [same]
  exact plan.wrote_joinSections option start unopened constants resolved body

theorem assemble_counts : (plan.assemble option).sourceMap = option.sourceMap ∧
    (plan.assemble option).brackets = (plan.heads option).length := by
  obtain ⟨writer, hoists, assets, returned, same, asked, unopened, -⟩ := plan.exists_assemble option
  rw [same, joinSections]
  simp [asked, unopened]

theorem code_generate : (generate option plan).code =
    String.ofList ((plan.functionPieces option plan.spans).spell 0) := by
  rw [← String.toList_inj, String.toList_ofList]
  exact (plan.wrote_assemble option).out.code

/-- Each mark is mapped to the place behind all that is spelled before it. -/
theorem mappings_generate : (generate option plan).mappings =
    if option.sourceMap then some ((plan.functionPieces option plan.spans).marks.map fun marked =>
      .behind (marked.front.spell 0) marked.span) else none := by
  have recorded := (plan.wrote_assemble option).out.mappings
  rw [(plan.assemble_counts option).1] at recorded
  rw [generate]
  dsimp only
  split
  · next asked =>
    rw [if_pos asked] at recorded
    exact congrArg some recorded
  · rfl

theorem allowed_of_mem_mappings {allowed : Span → Prop}
    (places : ∀ node ∈ plan.template.nodes, allowed node.span) (origin : allowed {}) :
    ∀ mappings ∈ (generate option plan).mappings, ∀ mapping ∈ mappings, allowed mapping.source := by
  have listed : ∀ span ∈ plan.spans, allowed span := by
    intro span member
    obtain ⟨node, inside, rfl⟩ := List.mem_map.mp (List.mem_toArray.mp member)
    exact places node inside
  have within := plan.within_functionPieces option listed origin
  intro mappings found
  rw [mappings_generate] at found
  split at found
  · rw [Option.mem_some_iff] at found
    subst found
    refine List.forall_mem_map.mpr fun marked member => within (.mark marked.span) ?_
    rw [Pieces.eq_of_mem_marks marked member]
    simp
  · cases found

/-- Every writer leads back to the level it begins at, whatever the plan, and the brackets of the
function are those that are closed behind it. -/
theorem functionPieces_indents : ∃ preamble heads, plan.Indents option preamble heads := by
  obtain ⟨preamble, imports, code⟩ := plan.exists_preamble option
  have whole := plan.returns_functionPieces option 0
  have opening := levelAfter?_openBrackets 0 (plan.heads option)
  have closing := levelAfter?_closeBrackets 0 (plan.heads option)
  rw [Nat.zero_add] at opening closing
  refine ⟨preamble, plan.heads option, code, plan.length_heads option, imports 0,
    plan.returns_hoistPieces option 0, opening, plan.returns_assetsPieces _,
    plan.returns_returnedPieces option _, closing, ?_, ?_, ?_, ?_, (plan.assemble_counts option).2,
    ?_⟩
  · intro pieces writes
    exact writes.returns
  · intro front piece back split leads
    rw [split] at whole
    rw [Writer.level_ofPieces]
    exact levelAfter_pos whole leads
  · rw [Writer.level_ofPieces]
    exact levelAfter_eq whole
  · rw [(plan.wrote_assemble option).level]
    exact levelAfter_eq whole
  · intro call none written
    simp [creationPieces, none]

end Plan

end TemplateCompiler
