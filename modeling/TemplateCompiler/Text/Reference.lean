import TemplateCompiler.Text.ReferenceName

/-! Character references such as `&amp;` and `&#x41;` in markup. What is no reference is kept as
text. In an attribute value a short name followed by an equals sign or an alphanumeric is left
alone, so that the query string `?a=1&copy=2` survives. -/

namespace TemplateCompiler.Text

def digitValue? (base : Nat) (c : Char) : Option Nat :=
  let value? :=
    if c.isDigit then some (c.toNat - 48)
    else if 'a' ≤ c && c ≤ 'f' then some (c.toNat - 87)
    else if 'A' ≤ c && c ≤ 'F' then some (c.toNat - 55)
    else none
  value?.filter (· < base)

def isDigitOf (base : Nat) (c : Char) : Bool :=
  (digitValue? base c).isSome

def numberOf (base : Nat) (digits : List Char) : Nat :=
  digits.foldl (fun number c => number * base + (digitValue? base c).getD 0) 0

/-- What the code points 0x80 to 0x9f stand for: the characters of Windows-1252, where it has
one. -/
def windowsCodes : List Nat :=
  [0x20ac, 0x81, 0x201a, 0x0192, 0x201e, 0x2026, 0x2020, 0x2021,
   0x02c6, 0x2030, 0x0160, 0x2039, 0x0152, 0x8d, 0x017d, 0x8f,
   0x90, 0x2018, 0x2019, 0x201c, 0x201d, 0x2022, 0x2013, 0x2014,
   0x02dc, 0x2122, 0x0161, 0x203a, 0x0153, 0x9d, 0x017e, 0x0178]

/-- The character that the number of a reference stands for. Zero, surrogates and numbers beyond
Unicode give the replacement character. -/
def characterOf (number : Nat) : Char :=
  if number = 0 ∨ (0xd800 ≤ number ∧ number ≤ 0xdfff) ∨ 0x10ffff < number then '\ufffd'
  else if 0x80 ≤ number ∧ number ≤ 0x9f then
    Char.ofNat (windowsCodes.getD (number - 0x80) number)
  else Char.ofNat number

/-- A numeric reference whose digits start at `text`: what it is replaced by and what is left.
Without digits `opening`, which stands for the part already read, is written back. -/
def numericReference (base : Nat) (opening text : List Char) : List Char × List Char :=
  let digits := text.takeWhile (isDigitOf base)
  let tail := text.dropWhile (isDigitOf base)
  if digits.isEmpty then (opening, text)
  else
    let tail := match tail with
      | ';' :: rest => rest
      | other => other
    ([characterOf (numberOf base digits)], tail)

/-- A short name whose end is open: `tail` goes on with an equals sign or an alphanumeric. -/
def isAmbiguous (name tail : List Char) : Bool :=
  name.getLast? != some ';' &&
    match tail with
    | [] => false
    | c :: _ => c = '=' || c.isAlphanum

def namedReference (inAttribute : Bool) (text : List Char) : List Char × List Char :=
  match longestName? text with
  | none => (['&'], text)
  | some (name, value) =>
    let tail := text.drop name.length
    if inAttribute && isAmbiguous name tail then ('&' :: name, tail) else ([value], tail)

/-- A reference after its ampersand. The mark of a hexadecimal number without digits is written
back in lower case, however it was written. -/
def reference (inAttribute : Bool) : List Char → List Char × List Char
  | '#' :: 'x' :: digits => numericReference 16 ['&', '#', 'x'] digits
  | '#' :: 'X' :: digits => numericReference 16 ['&', '#', 'x'] digits
  | '#' :: digits => numericReference 10 ['&', '#'] digits
  | text => namedReference inAttribute text

private theorem length_numericReference_le (base : Nat) (opening text : List Char) :
    (numericReference base opening text).2.length ≤ text.length := by
  have shorter := (List.dropWhile_suffix (isDigitOf base) (l := text)).length_le
  simp only [numericReference]
  split
  · simp
  · split
    · next rest eq =>
      have := congrArg List.length eq
      simp only [List.length_cons] at this
      simp only
      omega
    · simpa using shorter

private theorem length_namedReference_le (inAttribute : Bool) (text : List Char) :
    (namedReference inAttribute text).2.length ≤ text.length := by
  simp only [namedReference]
  split
  · simp
  · split <;> simp

theorem length_reference_le (inAttribute : Bool) (text : List Char) :
    (reference inAttribute text).2.length ≤ text.length := by
  unfold reference
  split
  · exact Nat.le_trans (length_numericReference_le ..) (by simp; omega)
  · exact Nat.le_trans (length_numericReference_le ..) (by simp; omega)
  · exact Nat.le_trans (length_numericReference_le ..) (by simp)
  · exact length_namedReference_le ..

def decodeReferences (inAttribute : Bool) : List Char → List Char
  | [] => []
  | c :: rest =>
    if c = '&' then
      (reference inAttribute rest).1 ++ decodeReferences inAttribute (reference inAttribute rest).2
    else c :: decodeReferences inAttribute rest
termination_by text => text.length
decreasing_by
  · have := length_reference_le inAttribute rest
    simp only [List.length_cons]
    omega
  · simp

end TemplateCompiler.Text
