import Mathlib.Data.List.Nodup
import TemplateCompiler.Emit.Node
import TemplateCompiler.Proofs.ResolvedNames

/-! The helpers that written code names. Each kind of code calls helpers of its own, and expressions
name others; what is written for a node names these, those of its cell and those of the nodes that
are written inside of it. -/

namespace TemplateCompiler

variable {helper : Helper}

namespace Helper

theorem mem_all (helper : Helper) : helper ∈ all := by
  cases helper <;> decide

theorem index_lt (helper : Helper) : helper.index < 64 := by
  cases helper <;> decide

/-- Helpers are declared in the order of their numbers. -/
theorem all_sorted : all.Pairwise fun first second => first.index < second.index := by
  decide

theorem eq_of_index_eq {first second : Helper} (same : first.index = second.index) :
    first = second := by
  have distinct : (all.map index).Nodup := by decide
  exact List.inj_on_of_nodup_map distinct first.mem_all second.mem_all same

theorem names_distinct : (all.map runtimeName).Nodup := by
  decide

end Helper

namespace HelperSet

theorem contains_insert (set : HelperSet) (added : Helper) :
    (set.insert added).contains helper = true ↔ helper = added ∨ set.contains helper = true := by
  have bit : (BitVec.twoPow 64 added.index).getLsbD helper.index = decide (helper = added) := by
    rw [BitVec.getLsbD_twoPow, decide_eq_true added.index_lt, Bool.true_and]
    exact decide_eq_decide.2 ⟨fun same => Helper.eq_of_index_eq same.symm, fun same => by rw [same]⟩
  rw [contains, insert, BitVec.getLsbD_or, bit, Bool.or_eq_true, decide_eq_true_eq, or_comm]
  rfl

theorem contains_ofList (helpers : List Helper) :
    (ofList helpers).contains helper = true ↔ helper ∈ helpers := by
  have added (set : HelperSet) :
      (helpers.foldl insert set).contains helper = true ↔
        set.contains helper = true ∨ helper ∈ helpers := by
    induction helpers generalizing set with
    | nil => simp
    | cons first rest ih => rw [List.foldl_cons, ih, contains_insert, List.mem_cons]; tauto
  rw [ofList, added]
  simp [contains, empty]

theorem mem_toList (set : HelperSet) : helper ∈ set.toList ↔ set.contains helper = true := by
  rw [toList, List.mem_filter]
  exact and_iff_right helper.mem_all

theorem toList_sorted (set : HelperSet) :
    set.toList.Pairwise fun first second => first.index < second.index :=
  Helper.all_sorted.filter _

theorem isEmpty_toList (helpers : List Helper) :
    (ofList helpers).toList.isEmpty = (ofList helpers).isEmpty := by
  cases helpers with
  | nil => rfl
  | cons first rest =>
    have found := (contains_ofList (first :: rest)).2 List.mem_cons_self
    have listed : (ofList (first :: rest)).toList.isEmpty = false :=
      List.isEmpty_eq_false_iff.2 (List.ne_nil_of_mem ((mem_toList _).2 found))
    rw [listed]
    refine (beq_eq_false_iff_ne.2 fun empty => ?_).symm
    rw [contains, empty] at found
    simp at found

end HelperSet

def Expr.helpers : Expr → List Helper
  | call callee _ => [callee]
  | symbol named => [named]
  | handler _ traits =>
    (if traits.keyModifiers.isEmpty then [] else [.withKeys]) ++
      if traits.modifiers.isEmpty then [] else [.withModifiers]
  | _ => []

def Expr.Names (helper : Helper) (expr : Expr) : Prop :=
  ∃ part, Occurs part expr ∧ helper ∈ part.helpers

def VNode.helpers (call : VNode) : List Helper :=
  call.creator :: (if call.isBlock then [Helper.openBlock] else []) ++
    (if call.directives.isEmpty then [] else [Helper.withDirectives]) ++
      if call.isComponent && !call.rawChildren && !call.children.isEmpty then [Helper.withCtx]
      else []

def VNode.Needs (call : VNode) (helper : Helper) : Prop :=
  helper ∈ call.helpers ∨ ∃ expr ∈ call.expressions, expr.Names helper

/-- The expressions that are written for a loop. Its aliases may be patterns with defaults. -/
def LoopCall.expressions (call : LoopCall) : List Expr :=
  call.source :: (call.value.toList ++ call.key.toList ++ call.index.toList)

def CodeBody.Needs (helper : Helper) : CodeBody → Prop
  | .vnode call => call.Needs helper
  | .text call =>
    (helper = .createText ∧ call.fastPath = false) ∨ ∃ expr ∈ call.parts, expr.Names helper
  | .comment _ => helper = .createComment
  | .conditional links otherwise =>
    (helper = .createComment ∧ otherwise = none) ∨ ∃ link ∈ links, link.test.Names helper
  | .loop call =>
    helper ∈ [.openBlock, .createElementBlock, .fragment, .renderList] ∨
      ∃ expr ∈ call.expressions, expr.Names helper
  | .hoisted _ => False

/-- What a cell needs. Items that are kept are compared by the loop itself. -/
def CacheKind.Needs (asItem : Bool) (helper : Helper) : CacheKind → Prop
  | .once => helper = .setBlockTracking
  | .memo dependencies => helper = .withMemo ∨ dependencies.Names helper
  | .memoInLoop dependencies key =>
    if asItem then
      dependencies.Names helper ∨ (∃ expr ∈ key, expr.Names helper) ∨ helper = .isMemoSame
    else helper = .withMemo ∨ dependencies.Names helper

namespace Pieces

theorem helper_mem_intersperse {separator : Pieces} (plain : .helper helper ∉ separator)
    (parts : List Pieces) :
    .helper helper ∈ (parts.intersperse separator).flatten ↔
      ∃ part ∈ parts, .helper helper ∈ part := by
  induction parts with
  | nil => simp
  | cons first rest ih =>
    cases rest with
    | nil => simp
    | cons second more =>
      rw [List.intersperse_cons_cons, List.flatten_cons, List.flatten_cons, List.mem_append,
        List.mem_append, ih, or_iff_right plain]
      simp

theorem contains_helpers (pieces : Pieces) :
    (helpers pieces).contains helper = true ↔ .helper helper ∈ pieces := by
  rw [helpers, HelperSet.contains_ofList, List.mem_filterMap]
  constructor
  · rintro ⟨piece, member, named⟩
    cases piece <;> cases named
    exact member
  · exact fun member => ⟨_, member, rfl⟩

@[simp]
theorem helper_mem_join (separator : String) (parts : List Pieces) :
    .helper helper ∈ join separator parts ↔ ∃ part ∈ parts, .helper helper ∈ part :=
  helper_mem_intersperse (by simp) parts

@[simp]
theorem helper_mem_arguments (filler : String) (parts : List (Option Pieces)) :
    .helper helper ∈ arguments filler parts ↔
      ∃ part ∈ parts, ∃ given ∈ part, .helper helper ∈ given := by
  have present (given : Pieces) :
      some given ∈ (parts.reverse.dropWhile Option.isNone).reverse ↔ some given ∈ parts := by
    have apart : some given ∈ parts.reverse ↔ some given ∈ parts.reverse.takeWhile Option.isNone ∨
        some given ∈ parts.reverse.dropWhile Option.isNone := by
      rw [← List.mem_append, List.takeWhile_append_dropWhile]
    rw [List.mem_reverse] at apart
    rw [List.mem_reverse, apart, or_iff_right]
    intro dropped
    cases List.all_eq_true.1 List.all_takeWhile _ dropped
  simp only [arguments, helper_mem_join, List.mem_map, exists_exists_and_eq_and]
  constructor
  · rintro ⟨part, member, found⟩
    cases part with
    | none => simp at found
    | some given => exact ⟨_, (present given).1 member, given, rfl, found⟩
  · rintro ⟨_, member, given, rfl, found⟩
    exact ⟨some given, (present given).2 member, found⟩

end Pieces

namespace Expr

theorem names_iff {expr : Expr} :
    expr.Names helper ↔ helper ∈ expr.helpers ∨ ∃ nested ∈ expr.inner, nested.Names helper := by
  constructor
  · rintro ⟨part, occurs, named⟩
    cases occurs with
    | self => exact .inl named
    | inside member deeper => exact .inr ⟨_, member, part, deeper, named⟩
  · rintro (named | ⟨nested, member, part, deeper, named⟩)
    · exact ⟨expr, .self, named⟩
    · exact ⟨part, .inside member deeper, named⟩

theorem exists_names_props {entries : List (Expr × Expr)} :
    (∃ nested ∈ (props entries).inner, nested.Names helper) ↔
      ∃ entry ∈ entries, entry.1.Names helper ∨ entry.2.Names helper := by
  constructor
  · rintro ⟨nested, member, named⟩
    obtain ⟨entry, listed, part⟩ := List.mem_flatMap.1 member
    rcases List.mem_pair.1 part with rfl | rfl
    · exact ⟨entry, listed, .inl named⟩
    · exact ⟨entry, listed, .inr named⟩
  · rintro ⟨entry, listed, named | named⟩
    · exact ⟨_, (mem_inner_props listed).1, named⟩
    · exact ⟨_, (mem_inner_props listed).2, named⟩

theorem not_names_of_bareKey {key : Expr} {name : String} (given : key.bareKey? = some name) :
    ¬ key.Names helper := by
  rw [names_iff]
  cases key with
  | literal | madeLiteral => simp [helpers, inner]
  | _ => simp [bareKey?] at given

theorem helper_mem_guarded (guard : Helper) (guards : List String) (body : Pieces) :
    .helper helper ∈ guarded guard guards body ↔
      (helper = guard ∧ guards.isEmpty = false) ∨ .helper helper ∈ body := by
  unfold guarded
  split
  · next free => simp [free]
  · next some => simp [some]

theorem helper_mem_handlerPieces (traits : HandlerTraits) (body : Pieces) :
    .helper helper ∈ handlerPieces traits body ↔
      helper ∈ (handler default traits).helpers ∨ .helper helper ∈ body := by
  have function : .helper helper ∈ handlerFunction traits body ↔ .helper helper ∈ body := by
    unfold handlerFunction
    split
    · rfl
    · split <;> simp
    · simp
  have guards : .helper helper ∈ guarded .withKeys traits.keyModifiers
      (guarded .withModifiers traits.modifiers (handlerFunction traits body)) ↔
      helper ∈ (handler default traits).helpers ∨ .helper helper ∈ body := by
    rw [helper_mem_guarded, helper_mem_guarded, function, helpers]
    cases traits.keyModifiers.isEmpty <;> cases traits.modifiers.isEmpty <;> simp [or_assoc]
  unfold handlerPieces
  simp only
  split
  · exact guards
  · simp [guards]

variable (onContext : String)

mutual

@[simp]
theorem helper_mem_pieces : (expr : Expr) →
    (.helper helper ∈ expr.pieces onContext ↔ expr.Names helper)
  | compound parts => by
    have below := helper_mem_piecesAll parts
    rw [names_iff]
    simpa [pieces, helpers, inner] using below
  | array items => by
    have below := helper_mem_piecesAll items
    rw [names_iff]
    simpa [pieces, helpers, inner] using below
  | call callee args => by
    have below := helper_mem_piecesAll args
    rw [names_iff]
    simp [pieces, helpers, inner, below]
  | props entries => by
    have below := helper_mem_piecesEntries entries
    rw [names_iff]
    unfold pieces objectPieces
    split
    · next none =>
      cases entries with
      | nil => simp [helpers, inner]
      | cons entry rest => simp [piecesEntries] at none
    · rw [exists_names_props, ← below]
      simp [helpers]
  | handler body traits => by
    have below := helper_mem_pieces body
    rw [names_iff, pieces, helper_mem_handlerPieces, below]
    simp [helpers, inner]
  | source _ | number _ | literal _ | madeLiteral _ | simple _ _ | param _ | context _
  | symbol _ => by
    rw [names_iff]
    simp [pieces, helpers, inner]

theorem helper_mem_piecesAll : (exprs : List Expr) →
    ((∃ part ∈ piecesAll onContext exprs, .helper helper ∈ part) ↔
      ∃ expr ∈ exprs, expr.Names helper)
  | [] => by simp [piecesAll]
  | expr :: rest => by
    have own := helper_mem_pieces expr
    have others := helper_mem_piecesAll rest
    simp [piecesAll, own, others]

theorem helper_mem_piecesEntries : (entries : List (Expr × Expr)) →
    ((∃ part ∈ piecesEntries onContext entries, .helper helper ∈ part) ↔
      ∃ entry ∈ entries, entry.1.Names helper ∨ entry.2.Names helper)
  | [] => by simp [piecesEntries]
  | (key, value) :: rest => by
    have name := helper_mem_pieces key
    have own := helper_mem_pieces value
    have others := helper_mem_piecesEntries rest
    simp only [piecesEntries]
    split
    · next given =>
      have silent := @not_names_of_bareKey helper _ _ given
      simp [own, others, silent]
    · simp [name, own, others]

end

end Expr

section Nodes

variable {onContext : String} {children : List Written}

open TemplateCompiler.Expr (helper_mem_piecesAll helper_mem_pieces)

theorem helper_mem_textPieces (call : TextCall) :
    .helper helper ∈ textPieces onContext call ↔ (CodeBody.text call).Needs helper := by
  have joined := @helper_mem_piecesAll helper onContext call.parts
  unfold textPieces
  simp only
  split
  · next bare => simp [CodeBody.Needs, joined, bare]
  · next wrapped => split <;> simp [CodeBody.Needs, joined, wrapped]

theorem helper_mem_childList :
    .helper helper ∈ childList children ↔ ∃ child ∈ children, .helper helper ∈ child.pieces := by
  have listed := @Pieces.helper_mem_intersperse helper [.text ",", .newline] (by simp)
    (children.map Written.pieces)
  simp only [childList, List.mem_cons, List.mem_append, listed]
  simp

theorem helper_mem_childrenPieces (call : VNode) :
    .helper helper ∈ childrenPieces call children ↔
      (helper = .withCtx ∧ (call.isComponent && !call.rawChildren) = true) ∨
        ∃ child ∈ children, .helper helper ∈ child.pieces := by
  unfold childrenPieces
  split
  · next slot => simp [defaultSlot, helper_mem_childList, slot]
  · next plain =>
    split
    · split <;> simp [helper_mem_childList, plain]
    · simp [helper_mem_childList, plain]

theorem helper_mem_directivePieces (directive : RuntimeDirective) :
    .helper helper ∈ directivePieces onContext directive ↔
      ∃ expr ∈ directive.expressions, expr.Names helper := by
  obtain ⟨name, value, argument, modifiers⟩ := directive
  cases value <;> cases argument <;> cases modifiers <;>
    simp [directivePieces, RuntimeDirective.expressions]

theorem helper_mem_openBlock (untracked : Bool) (body : Pieces) :
    .helper helper ∈ openBlock untracked body ↔ helper = .openBlock ∨ .helper helper ∈ body := by
  simp [openBlock]

theorem helper_mem_creationPieces (call : VNode) (counted : call.children = [] ↔ children = []) :
    .helper helper ∈ creationPieces onContext call children ↔
      (helper = call.creator ∨
        helper = .withCtx ∧
          (call.isComponent && !call.rawChildren && !call.children.isEmpty) = true) ∨
        (∃ child ∈ children, .helper helper ∈ child.pieces) ∨
        ∃ expr ∈ call.tag :: (call.props.toList ++ call.dynamicProps), expr.Names helper := by
  have listed : (∃ given ∈
        (if !call.children.isEmpty then some (childrenPieces call children) else none),
      Piece.helper helper ∈ given) ↔
        (helper = .withCtx ∧
          (call.isComponent && !call.rawChildren && !call.children.isEmpty) = true) ∨
          ∃ child ∈ children, .helper helper ∈ child.pieces := by
    by_cases empty : call.children = []
    · simp [empty, counted.1 empty]
    · simp [empty, helper_mem_childrenPieces]
  have changing : (∃ given ∈ (if !call.dynamicProps.isEmpty then
      some (Piece.text "[" :: Pieces.join ", " (Expr.piecesAll onContext call.dynamicProps) ++
        [Piece.text "]"]) else none), Piece.helper helper ∈ given) ↔
      ∃ name ∈ call.dynamicProps, name.Names helper := by
    by_cases empty : call.dynamicProps = []
    · simp [empty]
    · simp [empty, helper_mem_piecesAll]
  have flagged : ¬ ∃ given ∈
      (if !call.patchFlag.isEmpty then some [Piece.text call.patchFlag.render] else none),
      Piece.helper helper ∈ given := by
    split <;> simp
  have called (args : Pieces) :
      .helper helper ∈ Piece.helper call.creator :: Piece.text "(" :: args ++ [Piece.text ")"] ↔
        helper = call.creator ∨ .helper helper ∈ args := by
    simp
  rw [creationPieces, called, Pieces.helper_mem_arguments]
  simp only [List.exists_mem_cons_iff, listed, changing, flagged]
  clear listed changing flagged called
  cases call.props with
  | none => simp [or_assoc, or_left_comm]
  | some props => simp [or_assoc, or_left_comm]

theorem VNode.mem_helpers (call : VNode) :
    helper ∈ call.helpers ↔
      (helper = call.creator ∨
        helper = .withCtx ∧
          (call.isComponent && !call.rawChildren && !call.children.isEmpty) = true) ∨
        (helper = .openBlock ∧ call.isBlock = true) ∨
          (helper = .withDirectives ∧ call.directives.isEmpty = false) := by
  simp [helpers]
  tauto

theorem VNode.exists_expressions (call : VNode) :
    (∃ expr ∈ call.expressions, expr.Names helper) ↔
      (∃ expr ∈ call.tag :: (call.props.toList ++ call.dynamicProps), expr.Names helper) ∨
        ∃ directive ∈ call.directives, ∃ expr ∈ directive.expressions, expr.Names helper := by
  have parts : call.expressions = (call.tag :: (call.props.toList ++ call.dynamicProps)) ++
      call.directives.flatMap RuntimeDirective.expressions := rfl
  rw [parts]
  constructor
  · rintro ⟨expr, member, named⟩
    rcases List.mem_append.1 member with own | applied
    · exact .inl ⟨expr, own, named⟩
    · obtain ⟨directive, listed, given⟩ := List.mem_flatMap.1 applied
      exact .inr ⟨directive, listed, expr, given, named⟩
  · rintro (⟨expr, own, named⟩ | ⟨directive, listed, expr, given, named⟩)
    · exact ⟨expr, List.mem_append_left _ own, named⟩
    · exact ⟨expr, List.mem_append_right _ (List.mem_flatMap.2 ⟨directive, listed, given⟩), named⟩

theorem helper_mem_vnodePieces (call : VNode) (counted : call.children = [] ↔ children = []) :
    .helper helper ∈ vnodePieces onContext call children ↔
      call.Needs helper ∨ ∃ child ∈ children, .helper helper ∈ child.pieces := by
  have block : .helper helper ∈ (if call.isBlock then
      openBlock false (creationPieces onContext call children)
      else creationPieces onContext call children) ↔
      (helper = .openBlock ∧ call.isBlock = true) ∨
        .helper helper ∈ creationPieces onContext call children := by
    split
    · next opened => simp [helper_mem_openBlock, opened]
    · next closed => simp [closed]
  rw [helper_mem_creationPieces call counted] at block
  rw [VNode.Needs, VNode.mem_helpers, VNode.exists_expressions]
  unfold vnodePieces
  simp only
  split
  · next none =>
    rw [List.isEmpty_iff] at none
    rw [block, none]
    simp [or_assoc, or_left_comm, or_comm]
  · next some =>
    simp only [List.mem_cons, List.mem_append, block, Pieces.helper_mem_join, List.mem_map,
      exists_exists_and_eq_and, helper_mem_directivePieces, some, Piece.helper.injEq, reduceCtorEq]
    simp only [List.not_mem_nil, and_true, false_or, or_false]
    grind

theorem helper_mem_conditionalPieces (written : NodeId → Written) (links : List Link)
    (otherwise : Option NodeId) :
    .helper helper ∈ conditionalPieces onContext links
        ((links.map (·.consequent) ++ otherwise.toList).map written) ↔
      (CodeBody.conditional links otherwise).Needs helper ∨
        ∃ id ∈ links.map (·.consequent) ++ otherwise.toList,
          .helper helper ∈ (written id).pieces := by
  induction links with
  | nil => cases otherwise <;> simp [conditionalPieces, CodeBody.Needs]
  | cons link rest ih =>
    have written : .helper helper ∈ conditionalPieces onContext (link :: rest)
        (((link :: rest).map (·.consequent) ++ otherwise.toList).map written) ↔
        link.test.Names helper ∨ .helper helper ∈ (written link.consequent).pieces ∨
          .helper helper ∈ conditionalPieces onContext rest
            ((rest.map (·.consequent) ++ otherwise.toList).map written) := by
      simp [conditionalPieces]
    rw [written, ih]
    simp only [CodeBody.Needs, List.map_cons, List.cons_append, List.exists_mem_cons_iff, or_assoc,
      or_left_comm]

theorem helper_mem_parameterList (params : List (Option Pieces)) :
    .helper helper ∈ parameterList params ↔
      ∃ param ∈ params, ∃ given ∈ param, Piece.helper helper ∈ given := by
  have each (skipped : Nat) : (∃ part ∈ parameterPieces skipped params, .helper helper ∈ part) ↔
      ∃ param ∈ params, ∃ given ∈ param, Piece.helper helper ∈ given := by
    induction params generalizing skipped with
    | nil => simp [parameterPieces]
    | cons param rest ih =>
      cases param with
      | some given => simp [parameterPieces, ih]
      | none =>
        rw [parameterPieces]
        split
        · simp [ih]
        · next missing =>
          -- nothing is given behind the last parameter that is written
          simp only [List.any_eq_true, not_exists, not_and] at missing
          constructor
          · rintro ⟨_, found, _⟩
            cases found
          rintro ⟨param, member, given, rfl, _⟩
          rcases List.mem_cons.1 member with absent | later
          · cases absent
          · exact absurd rfl (missing _ later)
  simp [parameterList, each]

theorem helper_mem_itemFunction (params : List (Option Pieces)) (body : Written) :
    .helper helper ∈ itemFunction params body ↔
      (∃ param ∈ params, ∃ given ∈ param, Piece.helper helper ∈ given) ∨
        .helper helper ∈ body.pieces := by
  simp [itemFunction, helper_mem_parameterList]

theorem helper_mem_memoFunction (params : List (Option Pieces)) (dependencies : Expr)
    (key : Option Expr) (slot : Nat) (body : Written) :
    .helper helper ∈ memoFunction onContext params dependencies key slot body ↔
      (∃ param ∈ params, ∃ given ∈ param, Piece.helper helper ∈ given) ∨
        (CacheKind.memoInLoop dependencies key).Needs true helper ∨ .helper helper ∈ body.bare := by
  have cached : .helper helper ∈ parameterList (params ++ [some [Piece.text "_cached"]]) ↔
      ∃ param ∈ params, ∃ given ∈ param, Piece.helper helper ∈ given := by
    rw [helper_mem_parameterList]
    simp [or_and_right, exists_or]
  cases key with
  | none => simp [memoFunction, cached, CacheKind.Needs, or_assoc]
  | some key => simp [memoFunction, cached, CacheKind.Needs, or_assoc]

theorem helper_mem_loopPieces_of_item {call : LoopCall} {body : Written} {item : Prop}
    {function : Pieces} (rendered : renderListPieces onContext call body =
      .helper .renderList :: .text "(" :: call.source.pieces onContext ++ .text ", " :: function)
    (taken : .helper helper ∈ function ↔
      (∃ param ∈ [call.value, call.key, call.index].map fun param =>
        param.map (Expr.pieces onContext), ∃ given ∈ param, Piece.helper helper ∈ given) ∨ item) :
    .helper helper ∈ loopPieces onContext call [body] ↔
      (CodeBody.loop call).Needs helper ∨ item := by
  have aliases : (∃ param ∈ [call.value, call.key, call.index].map fun param =>
      param.map (Expr.pieces onContext), ∃ given ∈ param, Piece.helper helper ∈ given) ↔
      ∃ expr ∈ call.value.toList ++ call.key.toList ++ call.index.toList, expr.Names helper := by
    cases call.value <;> cases call.key <;> cases call.index <;> simp
  have called : .helper helper ∈ loopPieces onContext call [body] ↔
      helper ∈ [.openBlock, .createElementBlock, .fragment, .renderList] ∨
        call.source.Names helper ∨ .helper helper ∈ function := by
    simp [loopPieces, openBlock, rendered, or_assoc]
  rw [called, taken, aliases, CodeBody.Needs, LoopCall.expressions, List.exists_mem_cons_iff,
    or_assoc, or_assoc]

theorem helper_mem_loopPieces_kept {call : LoopCall} {body : Written} {slot : Nat}
    {dependencies : Expr} {key : Option Expr}
    (kept : body.code.bind (·.cache) = some { slot, kind := .memoInLoop dependencies key }) :
    .helper helper ∈ loopPieces onContext call [body] ↔
      (CodeBody.loop call).Needs helper ∨
        (CacheKind.memoInLoop dependencies key).Needs true helper ∨ .helper helper ∈ body.bare := by
  have taken := @helper_mem_memoFunction helper onContext ([call.value, call.key, call.index].map
    fun param => param.map (Expr.pieces onContext)) dependencies key slot body
  refine helper_mem_loopPieces_of_item ?_ taken
  rw [renderListPieces, kept]

theorem helper_mem_loopPieces {call : LoopCall} {body : Written}
    (other : ∀ slot dependencies key,
      body.code.bind (·.cache) ≠ some { slot, kind := .memoInLoop dependencies key }) :
    .helper helper ∈ loopPieces onContext call [body] ↔
      (CodeBody.loop call).Needs helper ∨ .helper helper ∈ body.pieces := by
  refine helper_mem_loopPieces_of_item ?_ (helper_mem_itemFunction _ body)
  unfold renderListPieces
  split
  · next kept => exact absurd kept (other _ _ _)
  · rfl

theorem helper_mem_cachePieces (cell : CacheCell) (body : Pieces) :
    .helper helper ∈ cachePieces onContext cell body ↔
      cell.kind.Needs false helper ∨ .helper helper ∈ body := by
  obtain ⟨slot, kind⟩ := cell
  cases kind with
  | once =>
    simp [cachePieces, CacheKind.Needs]
    tauto
  | memo | memoInLoop => simp [cachePieces, CacheKind.Needs, or_assoc]

end Nodes

end TemplateCompiler
