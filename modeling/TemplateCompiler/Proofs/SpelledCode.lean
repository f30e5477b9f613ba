import Mathlib.Data.List.Basic
import TemplateCompiler.Emit.Function

/-! The text of generated code. How a piece is spelled depends on nothing but the level of
indentation that the pieces before it lead to, so the text of several pieces is put together from
their texts; and a mapping is the place behind all that is spelled before its mark. -/

namespace TemplateCompiler

/-- A line feed and the blanks in front of the next line. -/
def lineBreak (level : Nat) : List Char :=
  '\n' :: List.replicate (2 * level) ' '

namespace Piece

def levelAfter (level : Nat) : Piece → Nat
  | .indent => level + 1
  | .dedent | .outdent => level - 1
  | .text _ | .helper _ | .newline | .mark _ => level

def spell (level : Nat) : Piece → List Char
  | .text given => given.toList
  | .helper needed => '_' :: needed.runtimeName.toList
  | .newline => lineBreak level
  | .indent => lineBreak (level + 1)
  | .dedent => lineBreak (level - 1)
  | .outdent | .mark _ => []

end Piece

namespace Pieces

def levelAfter (level : Nat) (pieces : Pieces) : Nat :=
  pieces.foldl Piece.levelAfter level

def spell (level : Nat) : Pieces → List Char
  | [] => []
  | piece :: rest => piece.spell level ++ spell (piece.levelAfter level) rest

theorem levelAfter_append (level : Nat) (first second : Pieces) :
    levelAfter level (first ++ second) = levelAfter (levelAfter level first) second :=
  List.foldl_append

theorem spell_append (level : Nat) (first second : Pieces) :
    spell level (first ++ second) = spell level first ++ spell (levelAfter level first) second := by
  induction first generalizing level with
  | nil => rfl
  | cons piece rest ih => simp [spell, levelAfter, ih]

theorem spell_prefix {first second : Pieces} (level : Nat) (starts : first <+: second) :
    spell level first <+: spell level second := by
  obtain ⟨rest, rfl⟩ := starts
  exact ⟨_, (spell_append level first rest).symm⟩

end Pieces

structure Marked where
  front : Pieces
  span : Span
  back : Pieces

namespace Pieces

def marks : Pieces → List Marked
  | [] => []
  | .mark span :: rest =>
    ⟨[], span, rest⟩ ::
      (marks rest).map fun marked => { marked with front := .mark span :: marked.front }
  | piece :: rest => (marks rest).map fun marked => { marked with front := piece :: marked.front }

theorem marks_append (first second : Pieces) :
    marks (first ++ second) =
      (marks first).map (fun marked => { marked with back := marked.back ++ second }) ++
        (marks second).map fun marked => { marked with front := first ++ marked.front } := by
  induction first with
  | nil => simp [marks]
  | cons piece rest ih =>
    cases piece <;> simp [marks, ih, Function.comp_def]

theorem eq_of_mem_marks {pieces : Pieces} :
    ∀ marked ∈ marks pieces, pieces = marked.front ++ .mark marked.span :: marked.back := by
  induction pieces with
  | nil => exact List.forall_mem_nil _
  | cons piece rest ih =>
    have later : ∀ marked ∈ (marks rest).map fun marked =>
        { marked with front := piece :: marked.front },
        piece :: rest = marked.front ++ .mark marked.span :: marked.back := by
      refine List.forall_mem_map.mpr fun marked member => ?_
      rw [List.cons_append, ← ih marked member]
    cases piece with
    | mark span => exact List.forall_mem_cons.mpr ⟨rfl, later⟩
    | _ => exact later

/-- What stands before a mark stands before all later ones. -/
theorem sorted_marks (pieces : Pieces) :
    (marks pieces).Pairwise fun first second => first.front <+: second.front := by
  induction pieces with
  | nil => exact .nil
  | cons piece rest ih =>
    have later : ((marks rest).map fun marked =>
        { marked with front := piece :: marked.front }).Pairwise
          fun first second => first.front <+: second.front :=
      List.pairwise_map.mpr (ih.imp fun starts => (List.prefix_cons_inj piece).mpr starts)
    cases piece with
    | mark span => exact List.pairwise_cons.mpr ⟨fun _ _ => List.nil_prefix, later⟩
    | _ => exact later

theorem marks_eq_nil {pieces : Pieces} (plain : ∀ span, .mark span ∉ pieces) :
    marks pieces = [] := by
  refine List.eq_nil_iff_forall_not_mem.mpr fun marked member => plain marked.span ?_
  rw [eq_of_mem_marks marked member]
  simp

end Pieces

/-- The place behind a text: its line feeds are counted, and the characters behind the last one. -/
def Mapping.behind (before : List Char) (source : Span) : Mapping :=
  { line := 1 + before.count '\n'
    column := 1 + (before.reverse.takeWhile (· ≠ '\n')).length
    source }

namespace Plan

variable (plan : Plan) (option : EmitOption) (spans : Array Span)

def closingPieces : Pieces :=
  let closing : Pieces := [.dedent, .text "\x7d"]
  closing ++ (if option.usesScope then closing else []) ++ [.text "\n"]

/-- The whole code from its beginning to its end. -/
def functionPieces : Pieces :=
  let hoists := plan.hoistPieces option spans
  let assets := plan.assetsPieces
  let returned := plan.returnedPieces option spans
  importPieces option.mode (Pieces.helpers (hoists ++ assets ++ returned)) ++ hoists ++
    plan.signaturePieces option ++ scopePieces option ++ assets ++ .text "return " :: returned ++
      closingPieces option

end Plan

end TemplateCompiler
