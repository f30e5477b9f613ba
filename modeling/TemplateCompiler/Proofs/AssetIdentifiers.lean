import Mathlib.Data.List.Nodup
import TemplateCompiler.Emit.Function

/-! The identifiers of components and directives that are resolved by name. An identifier spells the
name character by character, and loses some of it: a dash becomes an underscore, and what no
identifier has becomes digits. Names that have neither keep their difference. -/

namespace TemplateCompiler

/-- What a render function resolves by its name. -/
inductive Asset where
  | component (name : String)
  | directive (name : String)
deriving DecidableEq, Repr

namespace Asset

def name : Asset → String
  | component name | directive name => name

/-- The name, marked to be written as an identifier. -/
def phrase : Asset → Phrase
  | component name => ({ raw := name } : Phrase).asComponent
  | directive name => ({ raw := name } : Phrase).asDirective

def resolver : Asset → Helper
  | component _ => .resolveComponent
  | directive _ => .resolveDirective

/-- The variable that holds what the name was resolved to. -/
def identifier (asset : Asset) : String :=
  asset.phrase.text

/-- The expression that code refers to the variable by. -/
def reference (asset : Asset) : Expr :=
  .simple asset.phrase .notStatic

/-- The statement that resolves the name. -/
def declaration (asset : Asset) : Pieces :=
  [.text ("const " ++ asset.identifier ++ " = "), .helper asset.resolver,
   .text ("(" ++ Text.quoted asset.name ++ ")")]

variable {first second : Asset}

theorem reference_injective (same : first.reference = second.reference) : first = second := by
  have phrases : first.phrase = second.phrase := (Expr.simple.inj same).1
  cases first with
  | component name =>
    cases second with
    | component other => exact congrArg component (congrArg Phrase.raw phrases)
    | directive other => cases congrArg (fun phrase : Phrase => phrase.edits.component) phrases
  | directive name =>
    cases second with
    | component other => cases congrArg (fun phrase : Phrase => phrase.edits.component) phrases
    | directive other => exact congrArg directive (congrArg Phrase.raw phrases)

/-- All characters of the name are letters, digits, dollars, underscores or dashes. -/
def IsPlain (asset : Asset) : Prop :=
  ∀ c ∈ asset.name.toList, Text.isAlphanumeric c = true ∨ c = '$' ∨ c = '_' ∨ c = '-'

/-- The name with underscores in place of dashes. -/
def undashed (asset : Asset) : List Char :=
  asset.name.toList.map fun c => if c = '-' then '_' else c

def kind : Asset → String
  | component _ => "component"
  | directive _ => "directive"

theorem identifier_eq (asset : Asset) :
    asset.identifier = String.ofList (Text.assetName asset.kind asset.name.toList) := by
  cases asset <;> rfl

theorem assetName_of_isPlain {asset : Asset} (plain : asset.IsPlain) :
    Text.assetName asset.kind asset.name.toList =
      '_' :: asset.kind.toList ++ '_' :: asset.undashed := by
  rw [Text.assetName, undashed]
  congr 2
  rw [List.map_eq_flatMap]
  refine List.flatMap_congr fun c member => ?_
  by_cases dash : c = '-'
  · rw [if_pos dash, if_pos dash]
  · rw [if_neg dash, if_neg dash, if_pos]
    rcases plain c member with letter | dollar | underscore | again
    · simp [letter]
    · simp [dollar]
    · simp [underscore]
    · exact absurd again dash

/-- The identifier of a component is never that of a directive. -/
theorem kind_eq_of_identifier (same : first.identifier = second.identifier) :
    first.kind = second.kind := by
  rw [identifier_eq, identifier_eq] at same
  have chars := String.ofList_injective same
  cases first with
  | component name =>
    cases second with
    | component other => rfl
    | directive other => simp [Text.assetName, kind] at chars
  | directive name =>
    cases second with
    | component other => simp [Text.assetName, kind] at chars
    | directive other => rfl

theorem eq_of_kind (kinds : first.kind = second.kind) (names : first.name = second.name) :
    first = second := by
  cases first with
  | component name =>
    cases second with
    | component other => exact congrArg component names
    | directive other => simp [kind] at kinds
  | directive name =>
    cases second with
    | component other => simp [kind] at kinds
    | directive other => exact congrArg directive names

/-- Plain names clash just if they differ in nothing but dashes and underscores. -/
theorem identifier_eq_iff (plain : first.IsPlain) (other : second.IsPlain) :
    first.identifier = second.identifier ↔
      first.kind = second.kind ∧ first.undashed = second.undashed := by
  constructor
  · intro same
    have kinds := kind_eq_of_identifier same
    rw [identifier_eq, identifier_eq] at same
    have chars := String.ofList_injective same
    rw [assetName_of_isPlain plain, assetName_of_isPlain other, kinds] at chars
    exact ⟨kinds, (List.cons.inj (List.append_cancel_left chars)).2⟩
  · rintro ⟨kinds, spelled⟩
    rw [identifier_eq, identifier_eq, assetName_of_isPlain plain, assetName_of_isPlain other,
      kinds, spelled]

/-- Without underscores in a name it is known where the dashes were. -/
theorem map_undashed {asset : Asset} (clear : '_' ∉ asset.name.toList) :
    asset.undashed.map (fun c => if c = '_' then '-' else c) = asset.name.toList := by
  rw [undashed, List.map_map]
  refine (List.map_congr_left fun c member => ?_).trans (List.map_id _)
  by_cases dash : c = '-'
  · simp [dash]
  · have different : c ≠ '_' := fun same => clear (same ▸ member)
    simp [dash, different]

/-- Dashes alone make no clash. -/
theorem eq_of_identifier_eq (plain : first.IsPlain) (other : second.IsPlain)
    (clear : '_' ∉ first.name.toList) (also : '_' ∉ second.name.toList)
    (same : first.identifier = second.identifier) : first = second := by
  obtain ⟨kinds, spelled⟩ := (identifier_eq_iff plain other).1 same
  refine eq_of_kind kinds (String.toList_injective ?_)
  rw [← map_undashed clear, ← map_undashed also, spelled]

/-- An identifier is declared once just if no other name has it too. -/
theorem count_identifier {assets : List Asset} (distinct : assets.Nodup) {asset : Asset}
    (listed : asset ∈ assets) :
    (assets.map identifier).count asset.identifier = 1 ↔
      ∀ other ∈ assets, other.identifier = asset.identifier → other = asset := by
  have front := List.perm_cons_erase listed
  rw [(front.map identifier).count_eq, List.map_cons, List.count_cons_self, Nat.add_eq_right,
    List.count_eq_zero]
  constructor
  · intro single other member same
    by_contra different
    have behind : other ∈ assets.erase asset := (List.mem_erase_of_ne different).2 member
    exact single (List.mem_map.2 ⟨other, behind, same⟩)
  · intro single member
    obtain ⟨other, behind, same⟩ := List.mem_map.1 member
    obtain ⟨different, member⟩ := distinct.mem_erase_iff.1 behind
    exact different (single other member same)

end Asset

namespace Plan

/-- All that is resolved by name, in the order of the declarations. -/
def assets (plan : Plan) : List Asset :=
  plan.components.map Asset.component ++ plan.directives.map Asset.directive

/-- Everything that is resolved is declared, each on a line of its own. -/
theorem assetsPieces_eq (plan : Plan) :
    plan.assetsPieces =
      if plan.assets.isEmpty then []
      else ((plan.assets.map Asset.declaration).intersperse [Piece.newline]).flatten ++
        [Piece.text "\n", Piece.newline] := by
  have lines : plan.assets.map Asset.declaration =
      (plan.components.map fun name =>
        assetPieces ({ raw := name } : Phrase).asComponent .resolveComponent) ++
      plan.directives.map fun name =>
        assetPieces ({ raw := name } : Phrase).asDirective .resolveDirective := by
    rw [assets, List.map_append, List.map_map, List.map_map]
    rfl
  have empty : plan.assets.isEmpty = (plan.assets.map Asset.declaration).isEmpty := by
    rw [List.isEmpty_map]
  rw [empty, lines]
  rfl

end Plan

end TemplateCompiler
