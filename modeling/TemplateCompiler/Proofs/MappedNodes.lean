import Mathlib.Data.List.Forall2
import TemplateCompiler.Proofs.AssembledCode

/-! Where the code of nodes begins. Each node that is written leaves a mark with its place in the
template, and its code stands right behind the mark. So the mappings of generated code are those of
the nodes in the order of writing, and each leads to the first character of the code of its node. -/

namespace TemplateCompiler.Plan

variable {plan : Plan} {onContext : String} {order first second : List Visit}
  {pieces others : Pieces}

/-- The marks are those of the nodes, and the code of each node stands behind its mark. -/
def Shows (plan : Plan) (onContext : String) (order : List Visit) (pieces : Pieces) : Prop :=
  List.Forall₂ (fun visit marked =>
    marked.span = plan.place visit.id ∧ plan.pieces onContext visit <+: marked.back) order
    pieces.marks

/-- The code of a node with the mark in front of it. -/
def marked (plan : Plan) (onContext : String) (visit : Visit) : Pieces :=
  .mark (plan.place visit.id) :: plan.pieces onContext visit

def Plain (pieces : Pieces) : Prop :=
  pieces.Within fun _ => False

theorem Plain.shows (plain : Plain pieces) : plan.Shows onContext [] pieces := by
  have unmarked : pieces.marks = [] := Pieces.marks_eq_nil fun span member => plain _ member
  rw [Shows, unmarked]
  exact .nil

theorem Shows.append (front : plan.Shows onContext first pieces)
    (back : plan.Shows onContext second others) :
    plan.Shows onContext (first ++ second) (pieces ++ others) := by
  rw [Shows, Pieces.marks_append]
  apply List.rel_append
  · apply List.forall₂_map_right_iff.2
    exact front.imp fun visit marked shown =>
      ⟨shown.1, shown.2.trans (List.prefix_append marked.back others)⟩
  · exact List.forall₂_map_right_iff.2 back

theorem Shows.between (shows : plan.Shows onContext order pieces) (front back : Pieces)
    (opens : Plain front) (closes : Plain back) :
    plan.Shows onContext order (front ++ pieces ++ back) := by
  have whole := (opens.shows.append shows).append (@Plain.shows plan onContext _ closes)
  rwa [List.nil_append, List.append_nil] at whole

theorem Shows.mark {visit : Visit}
    (shows : plan.Shows onContext order (plan.pieces onContext visit)) :
    plan.Shows onContext (visit :: order) (plan.marked onContext visit) := by
  refine .cons ⟨rfl, List.prefix_rfl⟩ ?_
  exact List.forall₂_map_right_iff.2 shows

theorem shows_flatten {orders : List (List Visit)} {parts : List Pieces}
    (each : List.Forall₂ (plan.Shows onContext) orders parts) :
    plan.Shows onContext orders.flatten parts.flatten := by
  induction each with
  | nil => exact Plain.shows Pieces.within_nil
  | cons own _ ih => exact own.append ih

theorem shows_intersperse {orders : List (List Visit)} {parts : List Pieces} {separator : Pieces}
    (plain : Plain separator) (each : List.Forall₂ (plan.Shows onContext) orders parts) :
    plan.Shows onContext orders.flatten (parts.intersperse separator).flatten := by
  induction each with
  | nil => exact Plain.shows Pieces.within_nil
  | @cons _ part _ rest own others ih =>
    cases rest with
    | nil =>
      cases others
      simpa using own
    | cons second more =>
      rw [List.intersperse_cons_cons, List.flatten_cons, List.flatten_cons]
      exact own.append (plain.shows.append ih)

theorem Shows.eq_nil (shows : plan.Shows onContext order []) : order = [] := by
  cases shows
  rfl

theorem shows_arguments {orders : List (List Visit)} {parts : List (Option Pieces)}
    (filler : String)
    (each :
      List.Forall₂ (fun order part => plan.Shows onContext order (part.getD [])) orders parts) :
    plan.Shows onContext orders.flatten (Pieces.arguments filler parts) := by
  let kept := (parts.reverse.dropWhile Option.isNone).reverse
  let dropped := (parts.reverse.takeWhile Option.isNone).reverse
  have split : parts = kept ++ dropped := by
    rw [← List.reverse_append, List.takeWhile_append_dropWhile, List.reverse_reverse]
  rw [split] at each
  have front := List.forall₂_take_append orders kept dropped each
  have back := List.forall₂_drop_append orders kept dropped each
  -- the arguments that are left out show nothing
  have silent : (orders.drop kept.length).flatten = [] := by
    have missing : (dropped.map (·.getD [])).flatten = [] := by
      apply List.flatten_eq_nil_iff.2
      refine List.forall_mem_map.2 fun part member => ?_
      have none := List.all_eq_true.1 List.all_takeWhile part (List.mem_reverse.1 member)
      rw [Option.isNone_iff_eq_none.1 none]
      rfl
    have shows := shows_flatten (List.forall₂_map_right_iff.2 back)
    rw [missing] at shows
    exact shows.eq_nil
  have whole : orders.flatten = (orders.take kept.length).flatten := by
    rw [← List.take_append_drop kept.length orders, List.flatten_append, silent, List.append_nil]
    simp
  rw [whole]
  apply shows_intersperse (by simp [Plain])
  apply List.forall₂_map_right_iff.2
  apply front.imp
  intro order part shows
  cases part with
  | none =>
    cases shows.eq_nil
    exact Plain.shows (by simp [Plain])
  | some given => exact shows

section Nodes

variable {children : List Written} {orders : List (List Visit)}
  (each : List.Forall₂ (plan.Shows onContext) orders (children.map Written.pieces))

include each

theorem shows_childList : plan.Shows onContext orders.flatten (childList children) := by
  have listed := @shows_intersperse _ _ _ _ [.text ",", .newline] (by simp [Plain]) each
  exact listed.between [.text "[", .indent] [.dedent, .text "]"] (by simp [Plain]) (by simp [Plain])

theorem shows_childrenPieces (call : VNode) :
    plan.Shows onContext orders.flatten (childrenPieces call children) := by
  have listed := shows_childList each
  unfold childrenPieces
  split
  · exact listed.between
      [.text "\x7b", .indent, .text "default: ", .helper .withCtx, .text "(() => "] _
      (by simp [Plain]) (by simp [Plain])
  · split
    · split
      · have shows := shows_flatten each
        simpa using shows
      · exact listed
    · exact listed

theorem shows_creationPieces (call : VNode) (counted : call.children = [] ↔ children = []) :
    plan.Shows onContext orders.flatten (creationPieces onContext call children) := by
  have expression (expr : Expr) : Plain (expr.pieces onContext) := Expr.within_pieces onContext expr
  have when {order : List Visit} {pieces : Pieces} (present : Bool)
      (shows : plan.Shows onContext order pieces) (absent : present = false → order = []) :
      plan.Shows onContext order ((if present then some pieces else none).getD []) := by
    cases present with
    | true => exact shows
    | false =>
      cases absent rfl
      exact Plain.shows Pieces.within_nil
  have listed : (!call.children.isEmpty) = false → orders.flatten = [] := by
    intro empty
    rw [Bool.not_eq_false', List.isEmpty_iff] at empty
    rw [counted.1 empty] at each
    cases each
    rfl
  have flagged : Plain [.text call.patchFlag.render] := by simp [Plain]
  have names : Plain (Pieces.join ", " (Expr.piecesAll onContext call.dynamicProps)) :=
    Pieces.within_join (Expr.within_piecesAll onContext call.dynamicProps)
  have changing : Plain (.text "[" ::
      Pieces.join ", " (Expr.piecesAll onContext call.dynamicProps) ++ [.text "]"]) := by
    rw [Plain] at names
    simp [Plain, names]
  have given : Plain ((call.props.map (Expr.pieces onContext)).getD []) := by
    cases call.props with
    | none => exact Pieces.within_nil
    | some props => exact expression props
  have third : orders.flatten = [[], [], orders.flatten, [], []].flatten := by simp
  unfold creationPieces
  refine Shows.between ?_ [.helper call.creator, .text "("] [.text ")"] (by simp [Plain])
    (by simp [Plain])
  rw [third]
  apply shows_arguments
  refine .cons (expression call.tag).shows (.cons given.shows (.cons ?_ (.cons ?_ (.cons ?_ .nil))))
  · exact when _ (shows_childrenPieces each call) listed
  · exact when _ flagged.shows fun _ => rfl
  · exact when _ changing.shows fun _ => rfl

theorem shows_vnodePieces (call : VNode) (counted : call.children = [] ↔ children = []) :
    plan.Shows onContext orders.flatten (vnodePieces onContext call children) := by
  have creation := @shows_creationPieces _ onContext _ _ each call counted
  have block : plan.Shows onContext orders.flatten (if call.isBlock then
      openBlock false (creationPieces onContext call children)
      else creationPieces onContext call children) := by
    split
    · exact creation.between [.text "(", .helper .openBlock, .text "(), "] [.text ")"]
        (by simp [Plain]) (by simp [Plain])
    · exact creation
  have applied : Plain (Pieces.join ", " (call.directives.map (directivePieces onContext))) :=
    Pieces.within_join (List.forall_mem_map.mpr fun directive _ => within_directivePieces directive)
  unfold vnodePieces
  simp only
  split
  · exact block
  · have opened := block.between [.helper .withDirectives, .text "("]
      (.text ", [" :: Pieces.join ", " (call.directives.map (directivePieces onContext)))
      (by simp [Plain]) (Pieces.within_cons.2 ⟨trivial, applied⟩)
    exact opened.between [] [.text "])"] Pieces.within_nil (by simp [Plain])

theorem shows_conditionalPieces {links : List Link} (few : children.length ≤ links.length + 1) :
    plan.Shows onContext orders.flatten (conditionalPieces onContext links children) := by
  induction links generalizing children orders with
  | nil =>
    have shows := shows_flatten each
    cases children with
    | nil =>
      cases each
      exact Plain.shows (by simp [Plain, conditionalPieces])
    | cons only others =>
      have alone : others = [] := by simpa using few
      simpa [conditionalPieces, alone] using shows
  | cons link rest ih =>
    have test : Plain
        (.text "(" :: link.test.pieces onContext ++ [.text ")", .indent, .text "? "]) := by
      simp [Plain, Expr.within_pieces]
    have middle : Plain [.newline, .text ": "] := by simp [Plain]
    have last : Plain [.outdent] := by simp [Plain]
    cases children with
    | nil =>
      have later := ih each (by simp)
      have whole := ((test.shows.append middle.shows).append later).append last.shows
      simpa [conditionalPieces] using whole
    | cons child others =>
      cases each with
      | cons shows remaining =>
        have later := ih remaining (by simpa using few)
        have whole :=
          (((test.shows.append shows).append middle.shows).append later).append last.shows
        simpa [conditionalPieces] using whole

end Nodes

section Loops

variable {call : LoopCall} {body : Written}

theorem shows_itemFunction {params : List (Option Pieces)}
    (given : ∀ param ∈ params, ∀ pieces ∈ param, Plain pieces)
    (shows : plan.Shows onContext order body.pieces) :
    plan.Shows onContext order (itemFunction params body) := by
  have list : Plain (parameterList params) := within_parameterList given
  refine shows.between
    (parameterList params ++ [Piece.text " => \x7b", Piece.indent, Piece.text "return "])
    [.dedent, .text "\x7d)"] ?_ (by simp [Plain])
  rw [Plain] at list
  simp [Plain, list]

theorem shows_memoFunction {params : List (Option Pieces)}
    (given : ∀ param ∈ params, ∀ pieces ∈ param, Plain pieces) (dependencies : Expr)
    (key : Option Expr) (slot : Nat)
    (shows : plan.Shows onContext order (.mark body.span :: body.bare)) :
    plan.Shows onContext order (memoFunction onContext params dependencies key slot body) := by
  have cached : Plain (parameterList (params ++ [some [Piece.text "_cached"]])) := by
    apply within_parameterList
    refine List.forall_mem_append.2 ⟨given, List.forall_mem_singleton.2 ?_⟩
    rintro _ ⟨⟩
    simp
  let sameKey : Pieces :=
    key.elim [] fun key => .text " && _cached.key === " :: key.pieces onContext
  have keyed : Plain sameKey := by
    cases key with
    | none => exact Pieces.within_nil
    | some key => simp [Plain, sameKey, Expr.within_pieces]
  have whole := shows.between
    (parameterList (params ++ [some [Piece.text "_cached"]]) ++
      [Piece.text " => \x7b", Piece.indent, Piece.text "const _memo = ("] ++
      dependencies.pieces onContext ++
      [Piece.text ")", Piece.newline, Piece.text "if (_cached"] ++ sameKey ++
      [Piece.text " && ", Piece.helper .isMemoSame, Piece.text "(_cached, _memo)) return _cached",
       Piece.newline, Piece.text "const _item = "])
    [.newline, .text "_item.memo = _memo", .newline, .text "return _item", .dedent,
     .text ("\x7d, _cache, " ++ toString slot ++ ")")]
    (by rw [Plain] at *; simp [cached, keyed, Expr.within_pieces]) (by simp [Plain])
  cases key <;> simpa [memoFunction, sameKey] using whole

theorem plain_aliases : ∀ param ∈ [call.value, call.key, call.index].map fun param =>
    param.map (Expr.pieces onContext), ∀ given ∈ param, Plain given := by
  refine List.forall_mem_map.2 fun param _ given written => ?_
  obtain ⟨expr, -, rfl⟩ := Option.map_eq_some_iff.1 written
  exact Expr.within_pieces onContext expr

theorem shows_renderListPieces_of_function {function : Pieces}
    (rendered : renderListPieces onContext call body =
      .helper .renderList :: .text "(" :: call.source.pieces onContext ++ .text ", " :: function)
    (shows : plan.Shows onContext order function) :
    plan.Shows onContext order (renderListPieces onContext call body) := by
  have source : Plain (.helper .renderList :: .text "(" :: call.source.pieces onContext ++
      [.text ", "]) := by
    simp [Plain, Expr.within_pieces]
  have whole := source.shows.append shows
  rw [rendered]
  simpa using whole

theorem shows_renderListPieces_kept {slot : Nat} {dependencies : Expr} {key : Option Expr}
    (kept : body.code.bind (·.cache) = some { slot, kind := .memoInLoop dependencies key })
    (shows : plan.Shows onContext order (.mark body.span :: body.bare)) :
    plan.Shows onContext order (renderListPieces onContext call body) := by
  have function := shows_memoFunction (@plain_aliases onContext call) dependencies key slot shows
  apply shows_renderListPieces_of_function _ function
  rw [renderListPieces, kept]

theorem shows_renderListPieces (other : ∀ slot dependencies key,
      body.code.bind (·.cache) ≠ some { slot, kind := .memoInLoop dependencies key })
    (shows : plan.Shows onContext order body.pieces) :
    plan.Shows onContext order (renderListPieces onContext call body) := by
  have function := shows_itemFunction (@plain_aliases onContext call) shows
  apply shows_renderListPieces_of_function _ function
  unfold renderListPieces
  split
  · next kept => exact absurd kept (other _ _ _)
  · rfl

theorem shows_loopPieces
    (shows : plan.Shows onContext order (renderListPieces onContext call body)) :
    plan.Shows onContext order (loopPieces onContext call [body]) := by
  have whole := shows.between [.text "(", .helper .openBlock,
      .text (if !call.isStable then "(true), " else "(), "), .helper .createElementBlock, .text "(",
      .helper .fragment, .text ", null, "]
    [.text (", " ++ call.flag.render ++ ")"), .text ")"] (by simp [Plain]) (by simp [Plain])
  simpa [loopPieces, openBlock] using whole

end Loops

theorem shows_cachePieces (cell : CacheCell) (shows : plan.Shows onContext order pieces) :
    plan.Shows onContext order (cachePieces onContext cell pieces) := by
  obtain ⟨slot, kind⟩ := cell
  have memo (dependencies : Expr) : plan.Shows onContext order
      (.helper .withMemo :: .text "(" :: dependencies.pieces onContext ++
        .text ", () => " :: pieces ++ [.text (", _cache, " ++ toString slot ++ ")")]) := by
    have whole := shows.between
      (.helper .withMemo :: .text "(" :: dependencies.pieces onContext ++ [.text ", () => "])
      [.text (", _cache, " ++ toString slot ++ ")")] (by simp [Plain, Expr.within_pieces])
      (by simp [Plain])
    simpa using whole
  cases kind with
  | once =>
    let place := "_cache[" ++ toString slot ++ "]"
    exact shows.between
      [.text (place ++ " || ("), .indent, .helper .setBlockTracking, .text "(-1),", .newline,
       .text (place ++ " = ")]
      [.text ",", .newline, .helper .setBlockTracking, .text "(1),", .newline, .text place, .dedent,
       .text ")"] (by simp [Plain]) (by simp [Plain])
  | memo dependencies => exact memo dependencies
  | memoInLoop dependencies key => exact memo dependencies

theorem marked_whole (acyclic : plan.Acyclic) (onContext : String) (id : NodeId) :
    plan.marked onContext (.whole id) = (plan.written onContext id).pieces := by
  rw [marked, Written.pieces, span_written acyclic]
  rfl

theorem shows_bodyPieces (acyclic : plan.Acyclic) {id : NodeId} {code : Code}
    (found : plan.table.get? id = some code) {orders : List (List Visit)}
    (each : List.Forall₂ (plan.Shows onContext) orders
      ((plan.inside id).map (plan.marked onContext))) :
    plan.Shows onContext orders.flatten
      (bodyPieces onContext (code.references.map (plan.written onContext)) code.body) := by
  have whole (other : ∀ call, code.body ≠ .loop call) : List.Forall₂ (plan.Shows onContext) orders
      ((code.references.map (plan.written onContext)).map Written.pieces) := by
    rw [inside_of_other found other, List.map_map] at each
    rw [List.map_map]
    have same : plan.marked onContext ∘ Visit.whole = Written.pieces ∘ plan.written onContext :=
      funext fun id => marked_whole acyclic onContext id
    rwa [same] at each
  obtain ⟨body, cache⟩ := code
  cases body with
  | vnode call => exact shows_vnodePieces (whole (by simp)) call (by simp [Code.references])
  | text call =>
    cases whole (by simp)
    exact Plain.shows (within_textPieces call)
  | comment text =>
    cases whole (by simp)
    exact Plain.shows (by simp [Plain, bodyPieces])
  | conditional links otherwise =>
    apply shows_conditionalPieces (whole (by simp))
    cases otherwise <;> simp [Code.references]
  | hoisted index =>
    cases whole (by simp)
    exact Plain.shows (by simp [Plain, bodyPieces])
  | loop call =>
    rw [inside_of_loop found] at each
    rw [bodyPieces, Code.references, List.map_singleton]
    apply shows_loopPieces
    have item := shows_flatten each
    by_cases kept : plan.keepsItems call.body = true
    · obtain ⟨slot, dependencies, key, cached⟩ := keepsItems_iff.1 kept
      rw [← code_written acyclic onContext] at cached
      apply shows_renderListPieces_kept cached
      simpa [marked, Plan.pieces, kept, span_written acyclic] using item
    · apply shows_renderListPieces
      · intro slot dependencies key
        rw [code_written acyclic onContext]
        exact fun cached => kept (keepsItems_iff.2 ⟨slot, dependencies, key, cached⟩)
      · rw [← marked_whole acyclic, Visit.whole]
        simpa [eq_false_of_ne_true kept] using item

/-- The code of a node shows the nodes inside of it, in its cell as well as without it. -/
theorem shows_written (acyclic : plan.Acyclic) {id : NodeId} {orders : List (List Visit)}
    (each : List.Forall₂ (plan.Shows onContext) orders
      ((plan.inside id).map (plan.marked onContext))) :
    plan.Shows onContext orders.flatten (plan.written onContext id).bare ∧
      plan.Shows onContext orders.flatten (plan.written onContext id).full := by
  have written := acyclic.written_eq onContext id
  cases found : plan.table.get? id with
  | none =>
    rw [inside, found] at each
    cases each
    rw [written, found]
    exact ⟨Plain.shows (by simp [Plain, writeCode]), Plain.shows (by simp [Plain, writeCode])⟩
  | some code =>
    have bare := shows_bodyPieces acyclic found each
    rw [written, found]
    cases cached : code.cache with
    | none => simpa [writeCode, cached] using bare
    | some cell =>
      have full := shows_cachePieces cell bare
      simpa [writeCode, cached] using ⟨bare, full⟩

theorem shows_marked (acyclic : plan.Acyclic) (onContext : String) {visit : Visit}
    (within : plan.Order [visit] order) :
    plan.Shows onContext order (plan.marked onContext visit) := by
  obtain ⟨id, asItem⟩ := visit
  induction id using acyclic.induct generalizing asItem order with
  | step id ih =>
    obtain ⟨below, rfl, inner⟩ := within.singleton
    obtain ⟨orders, rfl, each⟩ := inner.split
    have below : List.Forall₂ (plan.Shows onContext) orders
        ((plan.inside id).map (plan.marked onContext)) := by
      apply List.forall₂_map_right_iff.2
      apply List.Forall₂.flip
      have refers : ∀ visit ∈ plan.inside id, plan.Refers id visit.id :=
        fun visit member => refers_of_mem_inside member
      apply ((List.forall₂_and_left _ _).2 ⟨refers, each⟩).imp
      intro visit order inner
      exact ih visit.id inner.1 visit.asItem inner.2
    have written := shows_written acyclic below
    apply Shows.mark
    cases asItem with
    | true => exact written.1
    | false => exact written.2

section Function

variable (option : EmitOption)

theorem shows_vnodeCode (acyclic : plan.Acyclic) (call : VNode)
    (within : plan.Order (call.children.map .whole) order) :
    plan.Shows option.onContext order (plan.vnodeCode option plan.spans call) := by
  rw [vnodeCode_eq]
  obtain ⟨orders, rfl, each⟩ := within.split
  refine shows_vnodePieces ?_ call (by simp)
  rw [List.map_map]
  apply List.forall₂_map_right_iff.2
  apply List.Forall₂.flip
  have listed := List.forall₂_map_left_iff.1 each
  apply listed.imp
  intro id order alone
  have shows := shows_marked acyclic option.onContext alone
  rwa [marked_whole acyclic] at shows

theorem shows_hoistPieces (acyclic : plan.Acyclic)
    (within : plan.Order ((plan.hoists.flatMap (·.children)).map .whole) order) :
    plan.Shows option.onContext order (plan.hoistPieces option plan.spans) := by
  have each (first : Nat) (hoists : List VNode) {order : List Visit}
      (within : plan.Order ((hoists.flatMap (·.children)).map .whole) order) :
      plan.Shows option.onContext order ((hoists.zipIdx first).flatMap fun entry =>
        .text ("const _hoisted_" ++ toString entry.2 ++ " = /*#__PURE__*/") ::
          plan.vnodeCode option plan.spans entry.1 ++ [.text "\n"]) := by
    induction hoists generalizing first order with
    | nil =>
      cases within
      exact Plain.shows Pieces.within_nil
    | cons call rest ih =>
      rw [List.flatMap_cons, List.map_append] at within
      obtain ⟨own, later, rfl, former, latter⟩ := within.of_append
      have code := shows_vnodeCode option acyclic call former
      have line := code.between [.text ("const _hoisted_" ++ toString first ++ " = /*#__PURE__*/")]
        [.text "\n"] (by simp [Plain]) (by simp [Plain])
      rw [List.zipIdx_cons, List.flatMap_cons]
      exact line.append (ih (first + 1) latter)
  unfold hoistPieces
  split
  · next none =>
    rw [List.isEmpty_iff.1 none] at within
    cases within
    exact Plain.shows Pieces.within_nil
  · have lines := each 0 plan.hoists within
    exact lines.between [] [.text "\n"] Pieces.within_nil (by simp [Plain])

theorem shows_returnedPieces (acyclic : plan.Acyclic)
    (within : plan.Order (plan.root.ids.map .whole) order) :
    plan.Shows option.onContext order (plan.returnedPieces option plan.spans) := by
  unfold returnedPieces
  split
  · next root =>
    rw [root] at within
    cases within
    exact Plain.shows (by simp [Plain])
  · next id root =>
    rw [root] at within
    have shows := shows_marked acyclic option.onContext within
    rwa [marked_whole acyclic] at shows
  · next call root =>
    rw [root] at within
    exact shows_vnodeCode option acyclic call within

/-- The marks of the whole code are those of all nodes that are written. -/
theorem shows_functionPieces (acyclic : plan.Acyclic) (within : plan.Order plan.starts order) :
    plan.Shows option.onContext order (plan.functionPieces option plan.spans) := by
  rw [starts, List.map_append] at within
  obtain ⟨constants, returned, rfl, former, latter⟩ := within.of_append
  have imports (helpers : HelperSet) : Plain (importPieces option.mode helpers) := by
    unfold importPieces
    split
    · exact Pieces.within_nil
    · split <;> simp [Plain]
  have scope : Plain (scopePieces option) := by
    unfold scopePieces
    split <;> simp [Plain]
  have closing : Plain (closingPieces option) := by
    unfold closingPieces
    split <;> simp [Plain]
  have assets : Plain plan.assetsPieces := within_assetsPieces plan
  have hoists := shows_hoistPieces option acyclic former
  have body := shows_returnedPieces option acyclic latter
  have front := hoists.between (importPieces option.mode _)
    (plan.signaturePieces option ++ scopePieces option ++ plan.assetsPieces ++ [.text "return "])
    (imports (Pieces.helpers (plan.hoistPieces option plan.spans ++ plan.assetsPieces ++
      plan.returnedPieces option plan.spans)))
    (by rw [Plain] at *; simp [scope, assets, signaturePieces])
  have whole := (front.append body).between [] (closingPieces option) Pieces.within_nil closing
  simpa [functionPieces] using whole

end Function

/-- A node at the place where its code begins, behind all that is written before. -/
structure Occurrence where
  visit : Visit
  level : Nat
  before : List Char

/-- The mappings are those of the nodes in the order of writing. Each leads to where the code of its
node begins, from the part of the template that the node stands for. -/
structure Maps (plan : Plan) (option : EmitOption) (occurrences : List Occurrence) : Prop where
  order : plan.Order plan.starts (occurrences.map (·.visit))
  mapped : (generate option plan).mappings = some (occurrences.map fun occurrence =>
    .behind occurrence.before (plan.place occurrence.visit.id))
  begins : ∀ occurrence ∈ occurrences, occurrence.before ++
    (plan.pieces option.onContext occurrence.visit).spell occurrence.level <+:
      (generate option plan).code.toList
  forward : occurrences.Pairwise fun first second => first.before <+: second.before

theorem Shows.occurrences (shows : plan.Shows onContext order pieces) :
    ∃ occurrences : List Occurrence, occurrences.map (·.visit) = order ∧
      (pieces.marks.map fun marked => Mapping.behind (marked.front.spell 0) marked.span) =
        (occurrences.map fun occurrence =>
          Mapping.behind occurrence.before (plan.place occurrence.visit.id)) ∧
      (∀ occurrence ∈ occurrences, occurrence.before ++
        (plan.pieces onContext occurrence.visit).spell occurrence.level <+: pieces.spell 0) ∧
      pieces.marks.map (·.front.spell 0) = occurrences.map (·.before) := by
  have spelled : ∀ marked ∈ pieces.marks, ∀ code : Pieces, code <+: marked.back →
      marked.front.spell 0 ++ code.spell (marked.front.levelAfter 0) <+: pieces.spell 0 := by
    intro marked member code starts
    rw [Pieces.eq_of_mem_marks marked member, Pieces.spell_append, List.prefix_append_right_inj]
    have behind := Pieces.spell_prefix (marked.front.levelAfter 0) starts
    exact behind
  rw [Shows] at shows
  generalize pieces.marks = marks at shows spelled ⊢
  induction shows with
  | nil => exact ⟨[], rfl, rfl, List.forall_mem_nil _, rfl⟩
  | @cons visit marked order rest shown _ ih =>
    obtain ⟨own, others⟩ := List.forall_mem_cons.1 spelled
    obtain ⟨occurrences, visits, mapped, begins, befores⟩ := ih others
    refine ⟨⟨visit, marked.front.levelAfter 0, marked.front.spell 0⟩ :: occurrences, ?_, ?_, ?_, ?_⟩
    · rw [List.map_cons, visits]
    · rw [List.map_cons, List.map_cons, mapped, shown.1]
    · exact List.forall_mem_cons.2 ⟨own _ shown.2, begins⟩
    · rw [List.map_cons, List.map_cons, befores]

/-- One mapping for each node that is written, in the order of writing and where its code begins;
and the code is the same whether mappings are asked for or not. -/
theorem generate_maps (option : EmitOption) (acyclic : plan.Acyclic)
    (asked : option.sourceMap = true) :
    (∃ occurrences, plan.Maps option occurrences) ∧
      (generate { option with sourceMap := false } plan).code = (generate option plan).code ∧
        (generate { option with sourceMap := false } plan).mappings = none := by
  refine ⟨?_, ?_, rfl⟩
  · obtain ⟨order, within⟩ := acyclic.exists_order plan.starts
    obtain ⟨occurrences, rfl, mapped, begins, befores⟩ :=
      (shows_functionPieces option acyclic within).occurrences
    refine ⟨occurrences, within, ?_, ?_, ?_⟩
    · rw [mappings_generate, if_pos asked, mapped]
    · intro occurrence member
      rw [code_generate, String.toList_ofList]
      exact begins occurrence member
    · rw [← List.pairwise_map, ← befores, List.pairwise_map]
      exact (Pieces.sorted_marks _).imp (Pieces.spell_prefix 0)
  · have same : plan.functionPieces { option with sourceMap := false } plan.spans =
        plan.functionPieces option plan.spans := rfl
    rw [code_generate, code_generate, same]

theorem generate_maps_nested : ∃ template problems lowered,
    parse {} (scan {} nestedSource) = .ok (template, problems) ∧
      lower {} template = .ok lowered ∧ lowered.plan.Acyclic ∧
        ((∃ occurrences, lowered.plan.Maps { sourceMap := true } occurrences) ∧
          (generate { sourceMap := false } lowered.plan).code =
            (generate { sourceMap := true } lowered.plan).code ∧
          (generate { sourceMap := false } lowered.plan).mappings = none) := by
  obtain ⟨template, problems, lowered, parsed, lowers, _, acyclic⟩ := lower_acyclic_nested
  exact ⟨template, problems, lowered, parsed, lowers, acyclic,
    generate_maps { sourceMap := true } acyclic rfl⟩

end TemplateCompiler.Plan
