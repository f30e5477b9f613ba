/-! Finding, splitting and trimming in character lists. Indices count characters. There are two
notions of a blank character: the five of HTML markup, and the wider Unicode class that is trimmed
around expressions. -/

namespace TemplateCompiler.Text

def isBlank (c : Char) : Bool :=
  c = ' ' || c = '\t' || c = '\n' || c = '\x0c' || c = '\r'

/-- The Unicode property White_Space. -/
def isSpace (c : Char) : Bool :=
  let code := c.toNat
  (9 ≤ code && code ≤ 13) || code = 0x20 || code = 0x85 || code = 0xa0 || code = 0x1680 ||
    (0x2000 ≤ code && code ≤ 0x200a) || code = 0x2028 || code = 0x2029 || code = 0x202f ||
    code = 0x205f || code = 0x3000

/-- Remove from both ends the characters that satisfy `p`. -/
def strip (p : Char → Bool) (text : List Char) : List Char :=
  ((text.dropWhile p).reverse.dropWhile p).reverse

/-- `text` without the Unicode white space at both ends. -/
def trim (text : String) : String :=
  String.ofList (strip isSpace text.toList)

def allBlank (text : String) : Bool :=
  text.toList.all isBlank

def find? (pattern : List Char) : List Char → Option Nat
  | [] => if pattern.isEmpty then some 0 else none
  | c :: rest =>
    if pattern.isPrefixOf (c :: rest) then some 0 else (find? pattern rest).map (· + 1)

def cut? (pattern text : List Char) : Option (List Char × List Char) :=
  (find? pattern text).map fun index => (text.take index, text.drop (index + pattern.length))

def cutLast? (mark : Char) : List Char → Option (List Char × List Char)
  | [] => none
  | c :: rest =>
    match cutLast? mark rest with
    | some (before, after) => some (c :: before, after)
    | none => if c = mark then some ([], rest) else none

/-- The pieces between the occurrences of `mark`; an empty text is one empty piece. -/
def pieces (mark : Char) : List Char → List (List Char)
  | [] => [[]]
  | c :: rest =>
    if c = mark then [] :: pieces mark rest
    else
      match pieces mark rest with
      | [] => [[c]]
      | first :: others => (c :: first) :: others

/-- Equality up to the case of ASCII letters. -/
def sameIgnoringCase (first second : String) : Bool :=
  first.toList.map Char.toLower == second.toList.map Char.toLower

def byteLength (text : List Char) : Nat :=
  text.foldl (fun bytes c => bytes + c.utf8Size) 0

theorem isPrefixOf_of_find?_zero {pattern text : List Char} (found : find? pattern text = some 0) :
    pattern.isPrefixOf text = true := by
  cases text with
  | nil =>
    simp only [find?] at found
    split at found
    · next empty => simp [List.isEmpty_iff.1 empty]
    · simp at found
  | cons c rest =>
    simp only [find?] at found
    split at found
    · assumption
    · simp at found

/-- An occurrence lies inside the text. -/
theorem find?_length_le {pattern text : List Char} {index : Nat}
    (found : find? pattern text = some index) : index + pattern.length ≤ text.length := by
  induction text generalizing index with
  | nil =>
    simp only [find?] at found
    split at found
    · next empty => cases found; simp [List.isEmpty_iff.1 empty]
    · simp at found
  | cons c rest ih =>
    simp only [find?] at found
    split at found
    · next here =>
      cases found
      simpa using (List.isPrefixOf_iff_prefix.1 here).length_le
    · obtain ⟨inner, eq, rfl⟩ := Option.map_eq_some_iff.1 found
      have := ih eq
      simp only [List.length_cons]
      omega

end TemplateCompiler.Text
