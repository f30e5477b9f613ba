import TemplateCompiler.Text.Quoted

/-! Reading string literals. A literal in double quotes is read the way JSON and scripts do it, with
all escapes that there are, and what is read from a literal that was written is the text it was
written for. -/

namespace TemplateCompiler.Text

def hexValue? (c : Char) : Option Nat :=
  if '0' ≤ c ∧ c ≤ '9' then some (c.toNat - 48)
  else if 'a' ≤ c ∧ c ≤ 'f' then some (c.toNat - 87)
  else if 'A' ≤ c ∧ c ≤ 'F' then some (c.toNat - 55)
  else none

/-- The code unit that four hexadecimal digits give. -/
def codeUnit? (first second third fourth : Char) : Option Nat := do
  let a ← hexValue? first
  let b ← hexValue? second
  let c ← hexValue? third
  let d ← hexValue? fourth
  return ((a * 16 + b) * 16 + c) * 16 + d

/-- What a character behind a backslash stands for. -/
def escaped? : Char → Option Char
  | '"' => some '"'
  | '\\' => some '\\'
  | '/' => some '/'
  | 'b' => some '\x08'
  | 'f' => some '\x0c'
  | 'n' => some '\n'
  | 'r' => some '\r'
  | 't' => some '\t'
  | _ => none

/-- The text of a literal behind its opening quote. Two code units may be needed for one character,
and half of such a pair is none. -/
def readLiteral? : List Char → Option (List Char)
  | [] => none
  | ['"'] => some []
  | '\\' :: 'u' :: a :: b :: c :: d :: rest =>
    match codeUnit? a b c d with
    | none => none
    | some unit =>
      if 0xd800 ≤ unit ∧ unit < 0xdc00 then
        match rest with
        | '\\' :: 'u' :: e :: f :: g :: h :: more =>
          match codeUnit? e f g h with
          | none => none
          | some low =>
            if 0xdc00 ≤ low ∧ low < 0xe000 then
              (readLiteral? more).map
                (Char.ofNat (0x10000 + (unit - 0xd800) * 0x400 + (low - 0xdc00)) :: ·)
            else none
        | _ => none
      else if 0xdc00 ≤ unit ∧ unit < 0xe000 then none
      else (readLiteral? rest).map (Char.ofNat unit :: ·)
  | '\\' :: c :: rest => (escaped? c).bind fun value => (readLiteral? rest).map (value :: ·)
  | c :: rest =>
    if c = '"' ∨ c = '\\' ∨ c.toNat < 0x20 then none else (readLiteral? rest).map (c :: ·)

/-- The text that a literal in double quotes denotes, if it is one. -/
def unquoted? (literal : String) : Option String :=
  match literal.toList with
  | '"' :: rest => (readLiteral? rest).map String.ofList
  | _ => none

theorem hexValue?_hexDigit : ∀ value < 16, hexValue? (hexDigit value) = some value := by
  decide

theorem codeUnit?_hexDigit {value : Nat} (small : value < 0x20) :
    codeUnit? '0' '0' (hexDigit (value / 16)) (hexDigit (value % 16)) = some value := by
  have zero : hexValue? '0' = some 0 := by decide
  have high := hexValue?_hexDigit (value / 16) (by omega)
  have low := hexValue?_hexDigit (value % 16) (by omega)
  simp only [codeUnit?, zero, high, low, Option.bind_eq_bind, Option.bind_some, Option.pure_def,
    Option.some.injEq]
  omega

theorem readLiteral?_escape (c : Char) (rest : List Char) :
    readLiteral? (escape c ++ rest) = (readLiteral? rest).map (c :: ·) := by
  unfold escape
  iterate 7
    split
    · next same => simp [same, readLiteral?, escaped?]
  split
  · next small =>
    have unit := codeUnit?_hexDigit small
    simp only [List.cons_append, List.nil_append]
    rw [readLiteral?, unit]
    simp only [Char.ofNat_toNat]
    rw [if_neg (by omega), if_neg (by omega)]
  · next quote backslash _ _ _ _ _ large =>
    have plain : ¬(c = '"' ∨ c = '\\' ∨ c.toNat < 0x20) := by
      simp only [quote, backslash, large, or_self, not_false_eq_true]
    rw [List.singleton_append, readLiteral?.eq_def]
    split
    · next none => cases none
    · next same => exact absurd (List.cons.inj same).1 quote
    · next same => exact absurd (List.cons.inj same).1 backslash
    · next same => exact absurd (List.cons.inj same).1 backslash
    · next same =>
      cases same
      rw [if_neg plain]

theorem readLiteral?_flatMap_escape (text : List Char) :
    readLiteral? (text.flatMap escape ++ ['"']) = some text := by
  induction text with
  | nil => rfl
  | cons c rest ih =>
    rw [List.flatMap_cons, List.append_assoc, readLiteral?_escape, ih, Option.map_some]

/-- A literal denotes the text it was written for. -/
theorem unquoted?_quoted (text : String) : unquoted? (quoted text) = some text := by
  simp only [unquoted?, quoted, String.toList_ofList, quotedChars, readLiteral?_flatMap_escape,
    Option.map_some, String.ofList_toList]

end TemplateCompiler.Text
