import TemplateCompiler.Proofs.AssembledCode
import TemplateCompiler.Proofs.NamedHelpers

/-! The helpers that generated code imports. They are those that the code behind the imports names,
and what these are is known from the plan. -/

namespace TemplateCompiler

variable {helper : Helper}

/-- What is needed to write a node, apart from the nodes inside of it. -/
def Plan.Needs (plan : Plan) (visit : Visit) (helper : Helper) : Prop :=
  ∃ code ∈ plan.table.get? visit.id,
    code.body.Needs helper ∨ ∃ cell ∈ code.cache, cell.kind.Needs visit.asItem helper

namespace Plan

variable {plan : Plan}

/-- Writing a node takes the helper, for the node itself or inside of it. -/
def Takes (plan : Plan) (onContext : String) (visit : Visit) (helper : Helper) : Prop :=
  .helper helper ∈ plan.pieces onContext visit ∨
    visit.asItem = true ∧ ∃ code ∈ plan.table.get? visit.id, ∃ cell ∈ code.cache,
      cell.kind.Needs true helper

theorem takes_whole {onContext : String} {id : NodeId} :
    plan.Takes onContext (.whole id) helper ↔
      .helper helper ∈ (plan.written onContext id).pieces := by
  simp [Takes, Visit.whole, pieces, Written.pieces]

theorem helper_mem_bodyPieces (acyclic : plan.Acyclic) (onContext : String) {id : NodeId}
    {code : Code} (found : plan.table.get? id = some code) :
    .helper helper ∈ bodyPieces onContext (code.references.map (plan.written onContext)) code.body ↔
      code.body.Needs helper ∨ ∃ visit ∈ plan.inside id, plan.Takes onContext visit helper := by
  have whole (other : ∀ call, code.body ≠ .loop call) :
      (∃ visit ∈ plan.inside id, plan.Takes onContext visit helper) ↔
        ∃ inner ∈ code.references, .helper helper ∈ (plan.written onContext inner).pieces := by
    simp [inside_of_other found other, takes_whole]
  obtain ⟨body, cache⟩ := code
  cases body with
  | vnode call =>
    rw [whole (by simp), bodyPieces, helper_mem_vnodePieces call (by simp [Code.references])]
    simp [CodeBody.Needs, Code.references]
  | text call =>
    rw [whole (by simp), bodyPieces, helper_mem_textPieces]
    simp [Code.references]
  | comment text =>
    rw [whole (by simp)]
    simp [bodyPieces, CodeBody.Needs, Code.references]
  | conditional links otherwise =>
    rw [whole (by simp), bodyPieces]
    exact helper_mem_conditionalPieces (plan.written onContext) links otherwise
  | hoisted index =>
    rw [whole (by simp)]
    simp [bodyPieces, CodeBody.Needs, Code.references]
  | loop call =>
    rw [inside_of_loop found, bodyPieces, Code.references, List.map_singleton]
    simp only [List.mem_singleton, exists_eq_left]
    by_cases kept : plan.keepsItems call.body = true
    · obtain ⟨slot, dependencies, key, cached⟩ := keepsItems_iff.1 kept
      obtain ⟨item, given, cell⟩ := Option.bind_eq_some_iff.1 cached
      rw [← code_written acyclic onContext] at cached
      rw [helper_mem_loopPieces_kept cached, kept]
      simp [Takes, pieces, given, cell, or_comm]
    · have other (slot : Nat) (dependencies : Expr) (key : Option Expr) :
          ((plan.written onContext call.body).code.bind (·.cache)) ≠
            some { slot, kind := .memoInLoop dependencies key } := by
        rw [code_written acyclic onContext]
        exact fun cached => kept (keepsItems_iff.2 ⟨slot, dependencies, key, cached⟩)
      rw [helper_mem_loopPieces other, eq_false_of_ne_true kept, ← takes_whole, Visit.whole]

/-- What a node takes is needed for itself, or taken by one of the nodes right inside of it. -/
theorem takes_iff (acyclic : plan.Acyclic) (onContext : String) (visit : Visit) :
    plan.Takes onContext visit helper ↔
      plan.Needs visit helper ∨
        ∃ inner ∈ plan.inside visit.id, plan.Takes onContext inner helper := by
  obtain ⟨id, asItem⟩ := visit
  have written := acyclic.written_eq onContext id
  cases found : plan.table.get? id with
  | none =>
    rw [found] at written
    simp [Takes, Needs, inside, pieces, found, written, writeCode]
  | some code =>
    have body := @helper_mem_bodyPieces helper _ acyclic onContext _ _ found
    rw [found] at written
    cases cached : code.cache with
    | none => simp [Takes, Needs, pieces, found, written, writeCode, cached, body]
    | some cell =>
      cases asItem with
      | false =>
        simp [Takes, Needs, pieces, found, written, writeCode, cached, body, helper_mem_cachePieces,
          or_left_comm, or_assoc]
      | true =>
        simp [Takes, Needs, pieces, found, written, writeCode, cached, body, or_comm, or_assoc]

/-- What nodes take is what all nodes need that are written for them. -/
theorem Order.takes_iff (acyclic : plan.Acyclic) (onContext : String) {visits order : List Visit}
    (within : plan.Order visits order) :
    (∃ visit ∈ visits, plan.Takes onContext visit helper) ↔
      ∃ visit ∈ order, plan.Needs visit helper := by
  induction within with
  | nil => simp
  | cons _ _ inner after =>
    rw [List.exists_mem_cons_iff, after, List.exists_mem_cons_iff, Plan.takes_iff acyclic, inner]
    simp only [List.mem_append, or_and_right, exists_or, or_assoc]

def behindImports (plan : Plan) (option : EmitOption) : Pieces :=
  plan.hoistPieces option plan.spans ++ plan.signaturePieces option ++ scopePieces option ++
    plan.assetsPieces ++ .text "return " :: plan.returnedPieces option plan.spans ++
      closingPieces option

/-- The helper is needed for a constant, a component or directive that is resolved, the fragment
that is returned, or a node that is written. -/
def Uses (plan : Plan) (helper : Helper) : Prop :=
  (∃ call ∈ plan.hoists, call.Needs helper) ∨
    (helper = .resolveComponent ∧ plan.components ≠ []) ∨
    (helper = .resolveDirective ∧ plan.directives ≠ []) ∨
    (∃ call, plan.root = .fragment call ∧ call.Needs helper) ∨
    ∃ order, plan.Order plan.starts order ∧ ∃ visit ∈ order, plan.Needs visit helper

section Function

variable (option : EmitOption)

theorem helper_mem_vnodeCode (call : VNode) :
    .helper helper ∈ plan.vnodeCode option plan.spans call ↔
      call.Needs helper ∨ ∃ id ∈ call.children, plan.Takes option.onContext (.whole id) helper := by
  rw [vnodeCode_eq, helper_mem_vnodePieces call (by simp)]
  simp [takes_whole]

theorem helper_mem_hoistPieces :
    .helper helper ∈ plan.hoistPieces option plan.spans ↔
      ∃ call ∈ plan.hoists, call.Needs helper ∨
        ∃ id ∈ call.children, plan.Takes option.onContext (.whole id) helper := by
  have hoisted : .helper helper ∈ plan.hoistPieces option plan.spans ↔
      ∃ entry ∈ plan.hoists.zipIdx, .helper helper ∈ plan.vnodeCode option plan.spans entry.1 := by
    unfold hoistPieces
    split
    · next none => simp [List.isEmpty_iff.1 none]
    · simp
  rw [hoisted]
  simp only [helper_mem_vnodeCode]
  constructor
  · rintro ⟨entry, member, taken⟩
    exact ⟨entry.1, List.fst_mem_of_mem_zipIdx member, taken⟩
  · rintro ⟨call, member, taken⟩
    obtain ⟨index, found⟩ := List.mem_iff_getElem?.1 member
    exact ⟨(call, index), List.mem_zipIdx_iff_getElem?.2 found, taken⟩

theorem helper_mem_assetsPieces :
    .helper helper ∈ plan.assetsPieces ↔
      (helper = .resolveComponent ∧ plan.components ≠ []) ∨
        (helper = .resolveDirective ∧ plan.directives ≠ []) := by
  have resolved (names : List String) (asset : Phrase → Phrase) (resolver : Helper) :
      (∃ part ∈ names.map fun name => assetPieces (asset { raw := name }) resolver,
        .helper helper ∈ part) ↔ helper = resolver ∧ names ≠ [] := by
    simp only [List.mem_map, exists_exists_and_eq_and, assetPieces]
    cases names <;> simp
  have all (parts : List Pieces) : .helper helper ∈ (if parts.isEmpty then [] else
      (parts.intersperse [.newline]).flatten ++ [.text "\n", .newline] : Pieces) ↔
      ∃ part ∈ parts, .helper helper ∈ part := by
    split
    · next none => simp [List.isEmpty_iff.1 none]
    · rw [List.mem_append, Pieces.helper_mem_intersperse (by simp)]
      simp
  rw [← resolved plan.components Phrase.asComponent, ← resolved plan.directives Phrase.asDirective]
  refine (all _).trans ?_
  simp only [List.mem_append, or_and_right, exists_or]

theorem helper_mem_returnedPieces :
    .helper helper ∈ plan.returnedPieces option plan.spans ↔
      (∃ call, plan.root = .fragment call ∧ call.Needs helper) ∨
        ∃ id ∈ plan.root.ids, plan.Takes option.onContext (.whole id) helper := by
  unfold returnedPieces
  split
  · next root => simp [root, RootCode.ids]
  · next id root =>
    simp only [root, RootCode.ids, List.mem_singleton, exists_eq_left, takes_whole]
    simp [written]
  · next call root =>
    simp [root, RootCode.ids, helper_mem_vnodeCode]

theorem exists_starts {holds : Visit → Prop} :
    (∃ visit ∈ plan.starts, holds visit) ↔
      (∃ call ∈ plan.hoists, ∃ id ∈ call.children, holds (.whole id)) ∨
        ∃ id ∈ plan.root.ids, holds (.whole id) := by
  simp only [starts, List.mem_map, exists_exists_and_eq_and, List.mem_append, List.mem_flatMap,
    or_and_right, exists_or]
  refine or_congr_left ⟨?_, ?_⟩
  · rintro ⟨id, ⟨call, listed, child⟩, held⟩
    exact ⟨call, listed, id, child, held⟩
  · rintro ⟨call, listed, id, child, held⟩
    exact ⟨id, ⟨call, listed, child⟩, held⟩

theorem helper_mem_behindImports_iff :
    .helper helper ∈ plan.behindImports option ↔
      .helper helper ∈ plan.hoistPieces option plan.spans ++ plan.assetsPieces ++
        plan.returnedPieces option plan.spans := by
  have signature : .helper helper ∉ plan.signaturePieces option := by simp [signaturePieces]
  have scope : .helper helper ∉ scopePieces option := by
    unfold scopePieces
    split <;> simp
  have closing : .helper helper ∉ closingPieces option := by
    unfold closingPieces
    split <;> simp
  simp [behindImports, signature, scope, closing]

theorem helper_mem_behindImports (acyclic : plan.Acyclic) :
    .helper helper ∈ plan.behindImports option ↔ plan.Uses helper := by
  have written :
      (∃ order, plan.Order plan.starts order ∧ ∃ visit ∈ order, plan.Needs visit helper) ↔
      ∃ visit ∈ plan.starts, plan.Takes option.onContext visit helper := by
    constructor
    · rintro ⟨order, within, needed⟩
      exact (within.takes_iff acyclic option.onContext).2 needed
    · intro taken
      obtain ⟨order, within⟩ := acyclic.exists_order plan.starts
      exact ⟨order, within, (within.takes_iff acyclic option.onContext).1 taken⟩
  rw [helper_mem_behindImports_iff, Uses, written, exists_starts]
  simp only [List.mem_append, helper_mem_hoistPieces, helper_mem_assetsPieces,
    helper_mem_returnedPieces, and_or_left, exists_or, or_assoc, or_left_comm]

end Function

end Plan

/-- What is written to import helpers, which is nothing if there are none. -/
def preamble (mode : ScriptMode) (helpers : List Helper) : String :=
  let names (between : String) : String :=
    ", ".intercalate (helpers.map fun helper =>
      helper.runtimeName ++ between ++ "_" ++ helper.runtimeName)
  if helpers.isEmpty then ""
  else
    match mode with
    | .module name => "import \x7b " ++ names " as " ++ " \x7d from " ++ Text.quoted name ++ "\n\n"
    | .function name => "const \x7b " ++ names ": " ++ " \x7d = " ++ name ++ "\n\n"

theorem preamble_eq_empty (mode : ScriptMode) (helpers : List Helper) :
    preamble mode helpers = "" ↔ helpers = [] := by
  constructor
  · intro empty
    unfold preamble at empty
    simp only at empty
    split at empty
    · next none => exact List.isEmpty_iff.1 none
    · split at empty <;> simp at empty
  · rintro rfl
    rfl

/-- The code imports just what it needs, in the order of declaration and under different names. -/
structure Plan.Imports (plan : Plan) (option : EmitOption) (imported : List Helper) : Prop where
  code : (generate option plan).code =
    preamble option.mode imported ++ String.ofList ((plan.behindImports option).spell 0)
  ordered : imported.Pairwise fun first second => first.index < second.index
  distinct : (imported.map (·.runtimeName)).Nodup
  written : ∀ helper, helper ∈ imported ↔ .helper helper ∈ plan.behindImports option
  needed : ∀ helper, helper ∈ imported ↔ plan.Uses helper
  absent : preamble option.mode imported = "" ↔ ∀ helper, .helper helper ∉ plan.behindImports option

theorem spell_importPieces (mode : ScriptMode) {set : HelperSet}
    (listed : set.toList.isEmpty = set.isEmpty) (level : Nat) :
    (importPieces mode set).spell level = (preamble mode set.toList).toList ∧
      (importPieces mode set).levelAfter level = level := by
  unfold importPieces preamble
  simp only [listed]
  by_cases none : set.isEmpty = true
  · simp [none, Pieces.spell, Pieces.levelAfter]
  · cases mode <;>
      simp [none, Pieces.spell, Pieces.levelAfter, Piece.spell, Piece.levelAfter]

theorem generate_imports (option : EmitOption) {plan : Plan} (acyclic : plan.Acyclic) :
    ∃ imported, plan.Imports option imported := by
  let pieces := plan.hoistPieces option plan.spans ++ plan.assetsPieces ++
    plan.returnedPieces option plan.spans
  let set := pieces.helpers
  have written (helper : Helper) :
      helper ∈ set.toList ↔ .helper helper ∈ plan.behindImports option := by
    rw [Plan.helper_mem_behindImports_iff, HelperSet.mem_toList]
    exact pieces.contains_helpers
  refine ⟨set.toList, ?_, set.toList_sorted, ?_, written, ?_, ?_⟩
  · have parts : plan.functionPieces option plan.spans =
        importPieces option.mode set ++ plan.behindImports option := by
      simp [Plan.functionPieces, Plan.behindImports, set, pieces]
    have listed : set.toList.isEmpty = set.isEmpty := HelperSet.isEmpty_toList _
    obtain ⟨spelled, level⟩ := spell_importPieces option.mode listed 0
    rw [Plan.code_generate, parts, Pieces.spell_append, spelled, level]
    simp
  · exact Helper.names_distinct.sublist (List.filter_sublist.map _)
  · intro helper
    rw [written, Plan.helper_mem_behindImports option acyclic]
  · rw [preamble_eq_empty, List.eq_nil_iff_forall_not_mem]
    exact forall_congr' fun helper => not_congr (written helper)

theorem generate_imports_nested : ∃ template problems lowered,
    parse {} (scan {} nestedSource) = .ok (template, problems) ∧
      lower {} template = .ok lowered ∧ lowered.plan.Acyclic ∧
        ∃ imported, lowered.plan.Imports {} imported := by
  obtain ⟨template, problems, lowered, parsed, lowers, _, acyclic⟩ := lower_acyclic_nested
  exact ⟨template, problems, lowered, parsed, lowers, acyclic, generate_imports {} acyclic⟩

end TemplateCompiler
