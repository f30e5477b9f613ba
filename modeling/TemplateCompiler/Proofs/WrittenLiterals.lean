import TemplateCompiler.Proofs.RawTextEnd
import TemplateCompiler.Proofs.StringLiterals

/-! String literals written by bytes. A writer that looks at the bytes of a text one after another,
and writes the stretches between those that are escaped as they are, never cuts a character, and it
gives the literal in which each character is escaped by itself. -/

namespace TemplateCompiler.Text

def utf8 (text : List Char) : List UInt8 :=
  text.flatMap String.utf8EncodeChar

/-- The mark that stands behind the backslash for a byte that is escaped; `u` is for a number. -/
def escapeMark? (byte : UInt8) : Option Char :=
  if byte = 0x22 then some '"'
  else if byte = 0x5c then some '\\'
  else if byte = 0x0a then some 'n'
  else if byte = 0x0d then some 'r'
  else if byte = 0x09 then some 't'
  else if byte = 0x08 then some 'b'
  else if byte = 0x0c then some 'f'
  else if byte < 0x20 then some 'u'
  else none

def escapeByte (byte : UInt8) (mark : Char) : List Char :=
  '\\' :: mark ::
    if mark = 'u' then ['0', '0', hexDigit (byte.toNat / 16), hexDigit (byte.toNat % 16)] else []

/-- The characters between two offsets in bytes. There are none if one of the offsets lies inside of
a character or behind the text. -/
def stretch? (text : List Char) (start stop : Nat) : Option (List Char) :=
  match Lexer.splitBytes stop text with
  | .split front _ =>
    match Lexer.splitBytes start front with
    | .split _ inside => some inside
    | _ => none
  | _ => none

/-- Write what is left of `text` from the byte at `start` on. The bytes up to `index` are known not
to be escaped, and `bytes` are those behind. -/
def writeFrom? (text : List Char) (start index : Nat) : List UInt8 → Option (List Char)
  | [] => stretch? text start (byteLength text)
  | byte :: bytes =>
    match escapeMark? byte with
    | none => writeFrom? text start (index + 1) bytes
    | some mark => do
      let plain ← stretch? text start index
      let later ← writeFrom? text (index + 1) (index + 1) bytes
      return plain ++ escapeByte byte mark ++ later

def writeEscaped? (text : List Char) (start : Nat) : Option (List Char) := do
  let plain ← stretch? text 0 start
  let later ← writeFrom? text start start ((utf8 text).drop start)
  return plain ++ later

/-- Write the literal of a text: in one piece if nothing is escaped, else from the first byte on
that is. -/
def writeLiteral? (text : List Char) : Option (List Char) := do
  let body ← match (utf8 text).findIdx? fun byte => (escapeMark? byte).isSome with
    | some start => writeEscaped? text start
    | none => some text
  return '"' :: (body ++ ['"'])

@[simp]
theorem utf8_cons (c : Char) (rest : List Char) :
    utf8 (c :: rest) = String.utf8EncodeChar c ++ utf8 rest := rfl

@[simp]
theorem utf8_append (front back : List Char) : utf8 (front ++ back) = utf8 front ++ utf8 back :=
  List.flatMap_append

theorem length_utf8 (text : List Char) : (utf8 text).length = byteLength text := by
  induction text with
  | nil => rfl
  | cons c rest ih =>
    rw [utf8_cons, List.length_append, String.length_utf8EncodeChar, ih, byteLength_cons]

inductive BytesOf (c : Char) : Prop
  | plain (bytes : ∀ byte ∈ String.utf8EncodeChar c, escapeMark? byte = none)
      (own : escape c = [c])
  | escaped {byte : UInt8} {mark : Char} (single : String.utf8EncodeChar c = [byte])
      (known : escapeMark? byte = some mark) (own : escape c = escapeByte byte mark)

theorem escapeMark?_eq_none {byte : UInt8} (large : 0x80 ≤ byte.toNat) : escapeMark? byte = none := by
  have other (small : UInt8) (below : small.toNat < 0x80) : byte ≠ small := by
    intro same
    rw [same] at large
    omega
  have visible : ¬ byte < 0x20 := by
    rw [UInt8.lt_iff_toNat_lt]
    exact Nat.not_lt.mpr (Nat.le_trans (by decide) large)
  simp only [escapeMark?, other 0x22 (by decide), other 0x5c (by decide), other 0x0a (by decide),
    other 0x0d (by decide), other 0x09 (by decide), other 0x08 (by decide), other 0x0c (by decide),
    visible, if_false]

/-- All bytes of a character beyond ASCII are beyond it, too. -/
theorem large_of_mem_utf8EncodeChar {c : Char} (large : 0x80 ≤ c.toNat) :
    ∀ byte ∈ String.utf8EncodeChar c, 0x80 ≤ byte.toNat := by
  have same : c.val.toNat = c.toNat := rfl
  have encoded (value : Nat) (least : 0x80 ≤ value) (most : value < 0x100) :
      0x80 ≤ (UInt8.ofNat value).toNat := by
    rw [UInt8.toNat_ofNat', Nat.mod_eq_of_lt most]
    exact least
  intro byte member
  simp only [String.utf8EncodeChar, same] at member
  rw [if_neg (by omega)] at member
  split at member
  · simp only [List.mem_cons, List.not_mem_nil, or_false] at member
    rcases member with rfl | rfl <;> exact encoded _ (by omega) (by omega)
  · split at member
    · simp only [List.mem_cons, List.not_mem_nil, or_false] at member
      rcases member with rfl | rfl | rfl <;> exact encoded _ (by omega) (by omega)
    · simp only [List.mem_cons, List.not_mem_nil, or_false] at member
      rcases member with rfl | rfl | rfl | rfl <;> exact encoded _ (by omega) (by omega)

/-- Each ASCII character, checked by its code. -/
theorem escape_ascii : ∀ code < 0x80,
    escape (Char.ofNat code) = match escapeMark? (UInt8.ofNat code) with
      | none => [Char.ofNat code]
      | some mark => escapeByte (UInt8.ofNat code) mark := by
  decide +kernel

theorem escape_eq_self {c : Char} (large : 0x80 ≤ c.toNat) : escape c = [c] := by
  have other (small : Char) (below : small.toNat < 0x80) : c ≠ small := by
    intro same
    rw [same] at large
    omega
  have visible : ¬ c.toNat < 0x20 := by omega
  simp only [escape, other '"' (by decide), other '\\' (by decide), other '\n' (by decide),
    other '\r' (by decide), other '\t' (by decide), other '\x08' (by decide),
    other '\x0c' (by decide), visible, if_false]

theorem bytesOf (c : Char) : BytesOf c := by
  by_cases large : 0x80 ≤ c.toNat
  · apply BytesOf.plain _ (escape_eq_self large)
    intro byte member
    exact escapeMark?_eq_none (large_of_mem_utf8EncodeChar large byte member)
  · have single : String.utf8EncodeChar c = [UInt8.ofNat c.toNat] := by
      simp only [String.utf8EncodeChar]
      exact if_pos (by change c.toNat ≤ 127; omega)
    have own := escape_ascii c.toNat (by omega)
    rw [Char.ofNat_toNat] at own
    cases known : escapeMark? (UInt8.ofNat c.toNat) with
    | none =>
      apply BytesOf.plain
      · rw [single]
        exact List.forall_mem_singleton.mpr known
      · rw [own, known]
    | some mark =>
      apply BytesOf.escaped single known
      rw [own, known]

theorem splitBytes_append (front back : List Char) :
    Lexer.splitBytes (byteLength front) (front ++ back) = .split front back := by
  cases split : Lexer.splitBytes (byteLength front) (front ++ back) with
  | tooShort =>
    have short : byteLength (front ++ back) < byteLength front := Lexer.fits_of_splitBytes split
    rw [byteLength_append] at short
    omega
  | insideCharacter =>
    obtain ⟨-, inside⟩ := Lexer.fits_of_splitBytes split
    exact absurd ⟨front, back, rfl, rfl⟩ inside
  | split first second =>
    obtain ⟨same, bytes⟩ := Lexer.fits_of_splitBytes split
    obtain ⟨rfl, rfl⟩ := split_unique same.symm bytes
    rfl

/-- Between two characters there is a stretch. -/
theorem stretch?_append (front inside back : List Char) :
    stretch? (front ++ inside ++ back) (byteLength front) (byteLength (front ++ inside)) =
      some inside := by
  simp only [stretch?, splitBytes_append]

theorem stretch?_front (front back : List Char) :
    stretch? (front ++ back) 0 (byteLength front) = some front :=
  stretch?_append [] front back

theorem writeFrom?_plain {bytes : List UInt8} (plain : ∀ byte ∈ bytes, escapeMark? byte = none)
    (text : List Char) (start index : Nat) (later : List UInt8) :
    writeFrom? text start index (bytes ++ later) =
      writeFrom? text start (index + bytes.length) later := by
  induction bytes generalizing index with
  | nil => rfl
  | cons byte bytes ih =>
    obtain ⟨own, others⟩ := List.forall_mem_cons.mp plain
    rw [List.cons_append, writeFrom?, own]
    simp only
    rw [ih others, List.length_cons, Nat.add_right_comm, Nat.add_assoc]

/-- Behind `front`, which is written already, stands `inside`, which is still to be written as it
is. -/
theorem writeFrom?_eq (front inside back : List Char) :
    writeFrom? (front ++ inside ++ back) (byteLength front) (byteLength (front ++ inside))
      (utf8 back) = some (inside ++ back.flatMap escape) := by
  induction back generalizing front inside with
  | nil =>
    have whole : byteLength (front ++ inside ++ []) = byteLength (front ++ inside) := by
      rw [List.append_nil]
    rw [utf8, List.flatMap_nil, writeFrom?, whole, stretch?_append, List.flatMap_nil,
      List.append_nil]
  | cons c back ih =>
    have shifted : front ++ inside ++ c :: back = front ++ (inside ++ [c]) ++ back := by simp
    cases bytesOf c with
    | plain bytes own =>
      have moved : byteLength (front ++ inside) + (String.utf8EncodeChar c).length =
          byteLength (front ++ (inside ++ [c])) := by
        simp only [String.length_utf8EncodeChar, byteLength_append, byteLength_cons, byteLength_nil]
        omega
      rw [utf8_cons, writeFrom?_plain bytes, moved, shifted, ih front (inside ++ [c]),
        List.flatMap_cons, own, List.append_assoc]
    | @escaped byte mark single known own =>
      have size : c.utf8Size = 1 := by rw [← String.length_utf8EncodeChar, single]; rfl
      have moved : byteLength (front ++ inside) + 1 = byteLength (front ++ inside ++ [c]) := by
        rw [byteLength_append _ [c], byteLength_cons, size, byteLength_nil]
      have behind := ih (front ++ inside ++ [c]) []
      rw [List.append_nil, ← moved, List.append_assoc _ [c], List.singleton_append] at behind
      rw [utf8_cons, single, List.singleton_append, writeFrom?, known]
      simp only [stretch?_append, behind]
      rw [List.flatMap_cons, own]
      simp only [List.nil_append, List.append_assoc]
      rfl

/-- From any character on that has nothing to be escaped in front of it, each character is escaped
by itself. -/
theorem writeEscaped?_eq {front : List Char} (plain : front.flatMap escape = front)
    (back : List Char) :
    writeEscaped? (front ++ back) (byteLength front) = some ((front ++ back).flatMap escape) := by
  have later := writeFrom?_eq front [] back
  rw [List.append_nil] at later
  have cut : (utf8 (front ++ back)).drop (byteLength front) = utf8 back := by
    rw [utf8_append, ← length_utf8, List.drop_left]
  rw [writeEscaped?, cut, stretch?_front, later, List.flatMap_append, plain]
  rfl

inductive FirstEscape (text : List Char) : Option Nat → Prop
  | none (plain : text.flatMap escape = text) : FirstEscape text none
  | some {front back : List Char} (whole : text = front ++ back)
      (plain : front.flatMap escape = front) : FirstEscape text (some (byteLength front))

theorem firstEscape (text : List Char) :
    FirstEscape text ((utf8 text).findIdx? fun byte => (escapeMark? byte).isSome) := by
  induction text with
  | nil => exact .none rfl
  | cons c rest ih =>
    rw [utf8_cons, List.findIdx?_append]
    cases bytesOf c with
    | plain bytes own =>
      have absent : (String.utf8EncodeChar c).findIdx? (fun byte => (escapeMark? byte).isSome) =
          Option.none := by
        rw [List.findIdx?_eq_none_iff]
        intro byte member
        rw [bytes byte member]
        rfl
      rw [absent, Option.none_or, String.length_utf8EncodeChar]
      generalize (utf8 rest).findIdx? (fun byte => (escapeMark? byte).isSome) = found at ih
      cases ih with
      | none plain => exact .none (by rw [List.flatMap_cons, own, plain]; rfl)
      | @some front back whole plain =>
        have moved : byteLength front + c.utf8Size = byteLength (c :: front) := by
          rw [byteLength_cons, Nat.add_comm]
        rw [Option.map_some, moved]
        apply @FirstEscape.some _ (c :: front) back
        · rw [whole, List.cons_append]
        · rw [List.flatMap_cons, own, plain]
          rfl
    | escaped single known own =>
      rw [single, List.findIdx?_singleton, known]
      exact @FirstEscape.some _ [] (c :: rest) rfl rfl

/-- No stretch is cut wrongly, and the literal is the one with each character escaped by itself. -/
theorem writeLiteral?_eq (text : List Char) : writeLiteral? text = some (quotedChars text) := by
  have first := firstEscape text
  rw [writeLiteral?]
  generalize (utf8 text).findIdx? (fun byte => (escapeMark? byte).isSome) = found at first
  cases first with
  | none plain =>
    rw [quotedChars, plain]
    rfl
  | @some front back whole plain =>
    rw [whole]
    simp only [writeEscaped?_eq plain]
    rfl

/-- What may stand between the quotes of a literal: characters that stand for themselves, and
escapes that are complete. -/
inductive Escaped : List Char → Prop
  | done : Escaped []
  | plain {c : Char} {rest : List Char} (quote : c ≠ '"') (backslash : c ≠ '\\')
      (visible : 0x20 ≤ c.toNat) (later : Escaped rest) : Escaped (c :: rest)
  | mark {mark : Char} {rest : List Char} (known : (escaped? mark).isSome = true)
      (later : Escaped rest) : Escaped ('\\' :: mark :: rest)
  | number {first second third fourth : Char} {rest : List Char}
      (digits : (codeUnit? first second third fourth).isSome = true) (later : Escaped rest) :
      Escaped ('\\' :: 'u' :: first :: second :: third :: fourth :: rest)

theorem Escaped.escape_append (c : Char) {rest : List Char} (later : Escaped rest) :
    Escaped (escape c ++ rest) := by
  unfold escape
  iterate 7
    split
    · exact .mark rfl later
  split
  · next small =>
    apply Escaped.number _ later
    rw [codeUnit?_hexDigit small]
    rfl
  · next quote backslash _ _ _ _ _ large =>
    exact .plain quote backslash (Nat.le_of_not_lt large) later

theorem visible_escape (c : Char) : ∀ written ∈ escape c, 0x20 ≤ written.toNat := by
  have digit : ∀ value < 16, 0x20 ≤ (hexDigit value).toNat := by decide
  unfold escape
  iterate 7
    split
    · simp
  split
  · next small =>
    have high := digit (c.toNat / 16) (by omega)
    have low := digit (c.toNat % 16) (by omega)
    simp [high, low]
  · next large => simpa using large

theorem escaped_flatMap (text : List Char) : Escaped (text.flatMap escape) := by
  induction text with
  | nil => exact .done
  | cons c rest ih => exact ih.escape_append c

theorem flatMap_escape_of_plain {text : List Char}
    (plain : ∀ byte ∈ utf8 text, escapeMark? byte = none) : text.flatMap escape = text := by
  induction text with
  | nil => rfl
  | cons c rest ih =>
    obtain ⟨first, others⟩ := List.forall_mem_append.mp plain
    cases bytesOf c with
    | plain bytes own =>
      rw [List.flatMap_cons, own, ih others]
      rfl
    | @escaped byte mark single known own =>
      rw [single] at first
      have unmarked := first byte (List.mem_singleton_self byte)
      rw [known] at unmarked
      cases unmarked

def literal (body : List Char) : List Char :=
  '"' :: (body ++ ['"'])

/-- The literal of `text` has `body` between its quotes, whichever way it is written. -/
structure LiteralOf (text : String) (body : List Char) : Prop where
  /-- No quote stands there by itself, and no backslash without what it escapes. -/
  escaped : Escaped body
  visible : ∀ c ∈ body, 0x20 ≤ c.toNat
  written : writeLiteral? text.toList = some (literal body)
  denotes : unquoted? (String.ofList (literal body)) = some text
  /-- Each character is escaped by itself. -/
  each : body = text.toList.flatMap escape
  quoted : Text.quoted text = String.ofList (literal body)
  /-- A text without anything to escape is written in one piece. -/
  whole : (∀ byte ∈ utf8 text.toList, escapeMark? byte = none) → body = text.toList
  /-- Writing by stretches may begin anywhere in front of the first byte that is escaped. -/
  onward : ∀ front back, text.toList = front ++ back →
    (∀ byte ∈ utf8 front, escapeMark? byte = none) →
      writeEscaped? text.toList (byteLength front) = some body

/-- Every text can be written, and its literal reads back as the text. -/
theorem exists_literalOf (text : String) : ∃ body, LiteralOf text body := by
  have quoted : Text.quoted text = String.ofList (literal (text.toList.flatMap escape)) := rfl
  refine ⟨text.toList.flatMap escape, ?_⟩
  constructor
  · exact escaped_flatMap text.toList
  · intro written member
    obtain ⟨c, -, inside⟩ := List.mem_flatMap.mp member
    exact visible_escape c written inside
  · exact writeLiteral?_eq text.toList
  · rw [← quoted]
    exact unquoted?_quoted text
  · rfl
  · exact quoted
  · exact flatMap_escape_of_plain
  · intro front back split plain
    rw [split]
    exact writeEscaped?_eq (flatMap_escape_of_plain plain) back

end TemplateCompiler.Text
