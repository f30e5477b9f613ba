import Mathlib.Data.List.Chain
import Mathlib.Data.List.Forall2
import TemplateCompiler.Proofs.JoinedTexts
import TemplateCompiler.Proofs.KeptHandlers
import TemplateCompiler.Proofs.VisitedNodes

/-! What joined texts say, and how they are written. A text has the parts of its run. It goes
without a node of its own if it is the only child of a plain element or of the root, and the writer
finds the same from the table and the kind of the virtual node: such a text is written bare, as the
argument for the children or as what is returned, and every other one as a call. -/

namespace TemplateCompiler

namespace TextRun

inductive IsPart (around : Surroundings) : Node → Expr → Prop
  | text {node : Node} {text : Phrase} (content : node.content = .text text) :
      IsPart around node (.literal text)
  | blank {node : Node} {source : String} (content : node.content = .interpolation source)
      (blank : (Text.trim source).isEmpty = true) : IsPart around node (.string "")
  | shown {node : Node} {source : String} (content : node.content = .interpolation source)
      (filled : (Text.trim source).isEmpty = false) :
      IsPart around node (.call .toDisplayString [(around.resolve source node.span).value])

theorem isPart_part (around : Surroundings) {node : Node} (isText : node.isTextLike = true) :
    IsPart around node (part around node).value := by
  simp only [part]
  split
  · next content => exact .text content
  · next source content =>
    split
    · next blank => exact .blank content blank
    · next filled => exact .shown content (Bool.eq_false_iff.2 filled)
  · next noText noInterpolation =>
    obtain ⟨id, content, span, children⟩ := node
    cases content with
    | text text => exact absurd rfl (noText text)
    | interpolation source => exact absurd rfl (noInterpolation source)
    | _ => cases isText

end TextRun

/-- The text has one part for each node of the run, in order, and is looked at again if one of these
can change. -/
structure TextCall.Says (around : Surroundings) (members : List Node) (call : TextCall) : Prop where
  parts : List.Forall₂ (TextRun.IsPart around) members call.parts
  needPatch : call.needPatch = true ↔ ∃ part ∈ call.parts, part.level = .notStatic

namespace TextRun

theorem says_call (around : Surroundings) (fastPath : Bool) {members : List Node}
    (texts : ∀ member ∈ members, member.isTextLike = true) :
    (call around fastPath members).Says around members := by
  refine ⟨?_, ?_⟩
  · simp only [call, Reported.value_mapM, List.forall₂_map_right_iff, List.forall₂_same]
    exact fun member listed => isPart_part around (texts member listed)
  · simp [call, Level.isStatic]

/-- The children `made` come of the children `given`: each maximal run of texts is one text that
says what the whole run does, and whatever else there is stays. -/
structure Joins (table : Table) (around : Surroundings) (takesText : Bool) (given made : List Node)
    (found : List Run) : Prop where
  /-- The runs cover the given children in order. -/
  whole : found.flatMap (fun run => run.first :: run.rest) = given
  kept : found.map (·.first) = made
  /-- Only texts are in a run with others. -/
  texts : ∀ run ∈ found, ∀ node ∈ run.rest, node.isTextLike = true ∧ run.first.isTextLike = true
  apart : made.IsChain fun node next => (node.isTextLike && next.isTextLike) = false
  calls : ∀ run ∈ found, run.first.isTextLike = true →
    ∃ call, table.HasText run.first.id call ∧ call.Says around (run.first :: run.rest) ∧
      (call.fastPath = true ↔ takesText = true ∧ made = [run.first])

theorem Codes.joins {table : Table} {around : Surroundings} {takesText : Bool}
    {grouped : List Node} (codes : Codes table around takesText grouped) :
    Joins table around takesText grouped (merged grouped) (runs grouped) := by
  have texts {run : Run} (member : run ∈ runs grouped) := isTextLike_of_mem_rest member
  refine ⟨flatMap_runs grouped, rfl, fun _ => texts, ?_, fun run member isText => ?_⟩
  · exact (List.isChain_map Run.first).2 (isChain_runs grouped)
  · refine ⟨_, codes run member isText, says_call around _ ?_, ?_⟩
    · exact List.forall_mem_cons.2 ⟨isText, fun node behind => (texts member node behind).1⟩
    · have alone : (runs grouped).length = 1 ↔ merged grouped = [run.first] := by
        refine ⟨fun single => ?_, fun single => ?_⟩
        · obtain ⟨only, same⟩ := List.length_eq_one_iff.1 single
          rw [same, List.mem_singleton] at member
          rw [merged, same, member]
          rfl
        · have := congrArg List.length single
          rwa [merged, List.length_map] at this
      simp only [call, Bool.and_eq_true, decide_eq_true_eq, alone]

end TextRun

namespace TextCall

/-- The parts of a text, added up. -/
def sum (onContext : String) (call : TextCall) : Pieces :=
  Pieces.join " + " (Expr.piecesAll onContext call.parts)

def created (onContext : String) (call : TextCall) : Pieces :=
  .helper .createText :: .text "(" :: call.sum onContext ++
    (if call.needPatch then [.text (", " ++ PatchFlag.text.render)] else []) ++ [.text ")"]

end TextCall

theorem textPieces_eq (onContext : String) (call : TextCall) :
    textPieces onContext call =
      if call.fastPath then call.sum onContext else call.created onContext :=
  rfl

theorem Written.isPlainText_iff {written : Written} : written.isPlainText = true ↔
    ∃ call, written.code = some { body := .text call } ∧ call.fastPath = true := by
  unfold isPlainText
  split
  · next call code => simp [code]
  · next other =>
    refine iff_of_false (by simp) ?_
    rintro ⟨call, code, _⟩
    exact other call code

namespace Plan

inductive WritesChildren (plan : Plan) (onContext : String) (vnode : VNode) : Prop
  | bare {id : NodeId} {call : TextCall} (alone : vnode.children = [id])
      (text : plan.table.HasText id call) (fast : call.fastPath = true)
      (pieces : childrenPieces vnode (vnode.children.map (plan.written onContext)) =
        .mark (plan.place id) :: call.sum onContext) : WritesChildren plan onContext vnode
  | list (slow : ∀ id ∈ vnode.children, ∀ call, plan.table.HasText id call → call.fastPath = false)
      (pieces : ∃ front back,
        childrenPieces vnode (vnode.children.map (plan.written onContext)) =
          front ++ childList (vnode.children.map (plan.written onContext)) ++ back) :
      WritesChildren plan onContext vnode

/-- The writer leaves a text bare as an argument for children or as what is returned, and nowhere
else. -/
structure WritesTexts (plan : Plan) (option : EmitOption) : Prop where
  /-- The code of a node has that of the nodes it refers to inside. -/
  nested : ∀ id, plan.written option.onContext id =
    writeCode option.onContext (plan.place id)
      ((((plan.table.get? id).map Code.references).getD []).map (plan.written option.onContext))
      (plan.table.get? id)
  /-- So has what stands outside of all nodes. -/
  outside : ∀ vnode, plan.vnodeCode option plan.spans vnode =
    vnodePieces option.onContext vnode (vnode.children.map (plan.written option.onContext))
  code : ∀ id call cache, plan.table.get? id = some { body := .text call, cache } →
    cache = none ∧ (plan.written option.onContext id).full =
      if call.fastPath then call.sum option.onContext else call.created option.onContext
  children : ∀ vnode, plan.Makes vnode → plan.WritesChildren option.onContext vnode
  /-- Other code than that of virtual nodes refers to no bare text. -/
  others : ∀ id code, plan.table.get? id = some code → (∀ vnode, code.body ≠ .vnode vnode) →
    ∀ inner ∈ code.references, ∀ call, plan.table.HasText inner call → call.fastPath = false
  returned : ∀ id call, plan.root = .single id → plan.table.HasText id call →
    call.fastPath = true ∧ plan.returnedPieces option plan.spans =
      .mark (plan.place id) :: call.sum option.onContext

variable {plan : Plan} {id : NodeId} {call : TextCall}

theorem Acyclic.full_written (acyclic : plan.Acyclic) (onContext : String)
    (text : plan.table.HasText id call) :
    (plan.written onContext id).full = textPieces onContext call := by
  rw [acyclic.written_eq, show plan.table.get? id = some { body := .text call } from text]
  rfl

/-- The writer finds out by itself whether a text may be bare, if only such texts are to be bare
that are alone and not in a slot. -/
theorem Acyclic.writesChildren (acyclic : plan.Acyclic) (onContext : String) {vnode : VNode}
    (alone : ∀ id ∈ vnode.children, ∀ call, plan.table.HasText id call → call.fastPath = true →
      vnode.isComponent = false ∧ vnode.children = [id]) :
    plan.WritesChildren onContext vnode := by
  have plain {id : NodeId} : (plan.written onContext id).isPlainText = true ↔
      ∃ call, plan.table.HasText id call ∧ call.fastPath = true := by
    rw [Written.isPlainText_iff, code_written acyclic]
    rfl
  by_cases bare : ∃ id ∈ vnode.children, ∃ call, plan.table.HasText id call ∧ call.fastPath = true
  · obtain ⟨id, member, call, text, fast⟩ := bare
    obtain ⟨native, only⟩ := alone id member call text fast
    refine .bare only text fast ?_
    unfold childrenPieces
    rw [native, only]
    change (if (plan.written onContext id).isPlainText then _ else _) = _
    rw [if_pos (plain.2 ⟨call, text, fast⟩), Written.pieces, span_written acyclic,
      acyclic.full_written onContext text, textPieces_eq, if_pos fast]
  · have slow : ∀ id ∈ vnode.children, ∀ call, plan.table.HasText id call →
        call.fastPath = false := fun id member call text =>
      Bool.eq_false_iff.2 fun fast => bare ⟨id, member, call, text, fast⟩
    refine .list slow ?_
    unfold childrenPieces
    split
    · exact ⟨_, _, rfl⟩
    · refine ⟨[], [], ?_⟩
      rw [List.nil_append, List.append_nil]
      split
      · next only same =>
        obtain ⟨id, listed, rfl⟩ := List.map_eq_singleton_iff.1 same
        refine if_neg fun isPlain => bare ⟨id, ?_, plain.1 isPlain⟩
        rw [listed]
        exact List.mem_singleton_self id
      · rfl

end Plan

theorem isComponent_lowerElement (around : Surroundings) (table : Table) (element : Element)
    (children : List NodeId) :
    (lowerElement around table element children).value.isComponent =
      decide (element.kind = .component) := by
  unfold lowerElement
  split
  · next isFragment =>
    rw [isFragment]
    rfl
  · rfl

theorem Role.isComponent_finish (role : Role) (properties : Properties) (vnode : VNode) :
    (role.finish properties vnode).isComponent = vnode.isComponent := by
  cases role <;> rfl

theorem Caching.isComponent_adjust (mark : CacheMark) (vnode : VNode) :
    (adjust mark vnode).isComponent = vnode.isComponent := by
  obtain ⟨isBlock, same⟩ := exists_adjust mark vnode
  rw [same]

/-- Handing out cells makes no virtual node, and keeps the kind and the children of each. -/
theorem Plan.Recoded.shape {marks : NodeMap CacheMark} {dependencies : NodeMap Expr} {id : NodeId}
    {old new : Code} {vnode : VNode} (recoded : Recoded marks dependencies id old new)
    (made : new.body = .vnode vnode) :
    ∃ call, old.body = .vnode call ∧ vnode.isComponent = call.isComponent ∧
      vnode.children = call.children := by
  induction recoded generalizing vnode with
  | refl => exact ⟨vnode, made, rfl, rfl⟩
  | @wrap middle mark _ _ _ _ ih =>
    cases middle with
    | vnode inner =>
      obtain ⟨call, same, component, children⟩ := ih rfl
      cases made
      exact ⟨call, same, (Caching.isComponent_adjust mark inner).trans component,
        (Caching.children_adjust mark inner).trans children⟩
    | _ => cases made
  | handlers _ _ _ ih =>
    obtain ⟨call, same, component, children⟩ := ih rfl
    cases made
    exact ⟨call, same, component, children⟩

theorem Settled.isTextLike_of_text {progress : Progress} {around : Surroundings} {role : Role}
    {node : Node} {call : TextCall} (settled : Settled progress around role node)
    (text : progress.table.HasText node.id call) : node.isTextLike = true := by
  cases settled with
  | text isText => exact isText
  | comment _ code | element _ code | loop _ code | conditional _ _ _ code =>
    cases code.symm.trans text

namespace Stages

variable {option : LowerOption} {template : Template} {roots : List Node} {progress : Progress}
  {plan : Plan}

theorem root_eq (stages : Stages option template roots progress plan) :
    plan.root = .ofIds (roots.map (·.id)) := by
  rw [stages.rest]
  exact stages.walked.root

theorem settled_of_code {id : NodeId} {code : Code}
    (stages : Stages option template roots progress plan)
    (found : plan.table.get? id = some code) :
    ∃ node ∈ Node.flattenAll roots, node.id = id ∧
      ∃ around role, Settled progress around role node := by
  obtain ⟨node, inside, same⟩ := stages.exists_of_code found
  obtain ⟨above, lineage⟩ := Node.mem_flattenAll_iff.1 inside
  exact ⟨node, inside, same, _, Settled.along stages.walked.settled lineage⟩

/-- What a text says among the siblings that were joined it says in the end as well. -/
theorem joins {around : Surroundings} {takesText : Bool} {grouped nodes : List Node}
    (stages : Stages option template roots progress plan) (marked : OnceMarked progress roots)
    (codes : TextRun.Codes progress.table around takesText grouped)
    (same : nodes = TextRun.merged grouped)
    (inside : ∀ node ∈ nodes, node ∈ Node.flattenAll roots) :
    TextRun.Joins plan.table around takesText grouped nodes (TextRun.runs grouped) := by
  have final : TextRun.Codes plan.table around takesText grouped := by
    intro run member isText
    have listed : run.first ∈ nodes := same ▸ List.mem_map_of_mem member
    have noted := marked run.first (inside run.first listed)
    exact stages.hasText noted isText (codes run member isText)
  exact same ▸ final.joins

/-- A text is bare if its place asks for that. -/
theorem fastPath_eq {around : Surroundings} {role : Role} {node : Node} {call : TextCall}
    (stages : Stages option template roots progress plan)
    (settled : Settled progress around role node) (text : plan.table.HasText node.id call) :
    call.fastPath = role.alone := by
  obtain ⟨_, members, rfl⟩ := stages.text_of_code settled text
  rfl

theorem uncached_of_text {id : NodeId} {call : TextCall} {cache : Option CacheCell}
    (stages : Stages option template roots progress plan) (marked : OnceMarked progress roots)
    (final : plan.table.get? id = some { body := .text call, cache }) : cache = none := by
  obtain ⟨node, inside, rfl, _, _, settled⟩ := stages.settled_of_code final
  obtain ⟨before, _⟩ := stages.text_of_code settled final
  have isText := settled.isTextLike_of_text before
  cases final.symm.trans (stages.hasText (marked node inside) isText before)
  rfl

/-- Among the children of an element a bare text is alone, and the element is no component. -/
theorem alone_of_settled {around : Surroundings} {role : Role} {node : Node} {vnode : VNode}
    (stages : Stages option template roots progress plan)
    (settled : Settled progress around role node)
    (code : progress.table.get? node.id = some { body := .vnode vnode }) :
    ∀ id ∈ vnode.children, ∀ call, plan.table.HasText id call → call.fastPath = true →
      vnode.isComponent = false ∧ vnode.children = [id] := by
  cases settled with
  | @element _ _ _ element _ children _ own below =>
    cases own.symm.trans code
    rw [Role.children_finish, children_lowerElement, Role.isComponent_finish,
      isComponent_lowerElement]
    intro id member call text fast
    obtain ⟨child, listed, rfl⟩ := List.mem_map.1 member
    have alone := (stages.fastPath_eq (below child listed) text).symm.trans fast
    simp only [Role.alone, Bool.and_eq_true, decide_eq_true_eq] at alone
    obtain ⟨only, rfl⟩ := List.length_eq_one_iff.1 alone.2
    cases List.mem_singleton.1 listed
    exact ⟨by rw [alone.1]; rfl, rfl⟩
  | text _ _ _ _ _ own | comment _ own | loop _ own | conditional _ _ _ own =>
    cases own.symm.trans code

/-- Among the children of a virtual node a bare text is alone, and in no slot. -/
theorem alone_of_makes {vnode : VNode} (stages : Stages option template roots progress plan)
    (makes : plan.Makes vnode) :
    ∀ id ∈ vnode.children, ∀ call, plan.table.HasText id call → call.fastPath = true →
      vnode.isComponent = false ∧ vnode.children = [id] := by
  cases makes with
  | node code =>
    obtain ⟨node, _, rfl, _, _, settled⟩ := stages.settled_of_code code
    obtain ⟨body, before, _⟩ := settled.mirrors
    obtain ⟨first, same, component, children⟩ :=
      (stages.recoded_of_code before code nofun).shape rfl
    cases same
    rw [component, children]
    exact stages.alone_of_settled settled before
  | constant listed =>
    obtain ⟨index, found⟩ := List.mem_iff_getElem?.1 listed
    obtain ⟨node, above, first, lineage, _, before, _, rfl⟩ := stages.constant found
    obtain ⟨role, settled⟩ := Settled.along stages.walked.settled lineage
    intro id member call text fast
    exact stages.alone_of_settled settled before id member call text fast
  | fragment root =>
    match roots, stages with
    | [], stages | [_], stages => cases stages.root_eq.symm.trans root
    | first :: second :: rest, stages =>
      cases stages.root_eq.symm.trans root
      intro id member call text fast
      change id ∈ (first :: second :: rest).map (·.id) at member
      obtain ⟨child, listed, rfl⟩ := List.mem_map.1 member
      cases (stages.fastPath_eq (stages.walked.settled child listed) text).symm.trans fast

theorem slow_of_code {id : NodeId} {code : Code}
    (stages : Stages option template roots progress plan)
    (found : plan.table.get? id = some code) (other : ∀ vnode, code.body ≠ .vnode vnode) :
    ∀ inner ∈ code.references, ∀ call, plan.table.HasText inner call → call.fastPath = false := by
  obtain ⟨node, inside, rfl, _, _, settled⟩ := stages.settled_of_code found
  intro inner member call text
  rcases stages.entry inside with ⟨_, _, _, reference, _⟩ | ⟨_, same, mirrors⟩
  · cases reference.symm.trans found
    cases member
  · cases same.symm.trans found
    rw [mirrors.references] at member
    obtain ⟨child, listed, rfl⟩ := List.mem_map.1 member
    cases settled with
    | text _ leaf =>
      rw [leaf] at listed
      cases listed
    | comment => cases listed
    | element =>
      obtain ⟨body, cache⟩ := code
      cases mirrors
      exact absurd rfl (other _)
    | conditional _ _ _ _ below =>
      obtain ⟨pair, branch, rfl⟩ := List.mem_map.1 listed
      exact stages.fastPath_eq (below pair branch) text
    | loop _ _ below =>
      cases List.mem_singleton.1 listed
      exact stages.fastPath_eq below text

theorem returned_text {id : NodeId} {call : TextCall}
    (stages : Stages option template roots progress plan) (single : plan.root = .single id)
    (text : plan.table.HasText id call) : call.fastPath = true := by
  match roots, stages with
  | [], stages | _ :: _ :: _, stages => cases stages.root_eq.symm.trans single
  | [only], stages =>
    cases stages.root_eq.symm.trans single
    exact stages.fastPath_eq (stages.walked.settled only (List.mem_singleton_self only)) text

theorem writesTexts (stages : Stages option template roots progress plan)
    (marked : OnceMarked progress roots) (emission : EmitOption) : plan.WritesTexts emission := by
  have acyclic := stages.acyclic
  refine ⟨acyclic.written_eq emission.onContext, plan.vnodeCode_eq emission,
    fun id call cache final => ?_, fun vnode makes => ?_, fun id code found other => ?_,
    fun id call single text => ?_⟩
  · obtain rfl := stages.uncached_of_text marked final
    exact ⟨rfl, (acyclic.full_written _ final).trans (textPieces_eq ..)⟩
  · exact acyclic.writesChildren _ (stages.alone_of_makes makes)
  · exact stages.slow_of_code found other
  · have fast := stages.returned_text single text
    refine ⟨fast, ?_⟩
    rw [Plan.returnedPieces, single]
    change (plan.written emission.onContext id).pieces = _
    rw [Written.pieces, Plan.span_written acyclic, acyclic.full_written _ text, textPieces_eq,
      if_pos fast]

end Stages

structure Lowered.JoinsTexts (option : LowerOption) (template : Template) (lowered : Lowered) :
    Prop where
  roots : ∃ grouped reports found, Regroups 0 template.roots grouped reports ∧
    TextRun.Joins lowered.plan.table option.surroundings true grouped
      lowered.plan.template.roots found
  elements : ∀ node above element, Node.Lineage lowered.plan.template.roots node above →
    node.content = .element element →
    ∃ origin ∈ Node.flattenAll template.roots, origin.id = node.id ∧
      ∃ grouped reports found, Regroups 0 origin.children grouped reports ∧
        TextRun.Joins lowered.plan.table
          (Surroundings.along option.surroundings (node :: above))
          (element.kind = .plain) grouped node.children found
  writes : ∀ emission, lowered.plan.WritesTexts emission

/-- Neighbouring texts of a numbered template are joined without a part being lost, doubled or
moved. A text is written bare if it is the only child of a plain element or of the root, and as a
call everywhere else. -/
theorem lower_joinsTexts {option : LowerOption} {template : Template} {lowered : Lowered}
    (numbered : template.Numbered) (lowers : lower option template = .ok lowered) :
    lowered.JoinsTexts option template := by
  obtain ⟨roots, progress, walked, _, made⟩ := walk_of_lowerWith lowers
  have stages : Stages option template roots progress lowered.plan := by
    rw [← made]
    exact stages_of_walked (walk_walked numbered walked)
  have marked := walk_onceMarked numbered walked
  obtain ⟨⟨grouped, reports, regroups, same, codes⟩, joined⟩ := walk_joined numbered walked
  refine ⟨?_, fun node above element lineage content => ?_, stages.writesTexts marked⟩
  · rw [stages.roots_eq]
    exact ⟨grouped, reports, TextRun.runs grouped, regroups, stages.joins marked codes same
      fun node member => Node.mem_flattenAll_iff.2 ⟨[], .root member⟩⟩
  · rw [stages.roots_eq] at lineage
    obtain ⟨origin, inside, number, grouped, reports, regroups, same, codes⟩ :=
      (Joined.along joined lineage).own element content
    refine ⟨origin, inside, number, grouped, reports, TextRun.runs grouped, regroups, ?_⟩
    rw [Surroundings.along, content]
    exact stages.joins marked codes same fun child member =>
      Node.mem_flattenAll_iff.2 ⟨_, .child lineage member⟩

/-- Two runs around an element with a run of its own, in which a part is blank. -/
def joinedSource : String :=
  "a \x7b\x7b b \x7d\x7d<p>c\x7b\x7b \x7d\x7d&lt;</p>\x7b\x7b d \x7d\x7d e"

/-- For each text of a plan whether it is bare, whether it can change, and how many parts it has. -/
def Plan.textForms (plan : Plan) : List (Bool × Bool × Nat) :=
  plan.table.entries.toList.filterMap fun
    | some { body := .text call, .. } => some (call.fastPath, call.needPatch, call.parts.length)
    | _ => none

theorem lower_joinsTexts_mixed : ∃ template problems lowered,
    parse {} (scan {} joinedSource) = .ok (template, problems) ∧
      lower {} template = .ok lowered ∧
      lowered.plan.textForms = [(false, true, 2), (true, false, 3), (false, true, 2)] ∧
      lowered.JoinsTexts {} template := by
  have succeeds : ((parse {} (scan {} joinedSource)).bind fun parsed =>
      lower {} parsed.1).toOption.any (fun lowered => decide
        (lowered.plan.textForms = [(false, true, 2), (true, false, 3), (false, true, 2)])) =
      true := by
    decide +kernel
  obtain ⟨template, problems, lowered, parsed, lowers, forms⟩ := exists_lowered succeeds
  exact ⟨template, problems, lowered, parsed, lowers, of_decide_eq_true forms,
    lower_joinsTexts (numbered_of_parse parsed) lowers⟩

end TemplateCompiler
