/-! UTF-8. Bytes that are no UTF-8 are told by the length of the valid part in front of them, and by
how many bytes belong to the broken sequence; a sequence that the end cuts short has none. -/

namespace TemplateCompiler

/-- Where bytes cease to be UTF-8. -/
structure EncodingFault where
  /-- The length of the valid part, in bytes. -/
  offset : Nat
  /-- The length of the broken sequence, or zero if the input ends within it. -/
  length : Nat
deriving DecidableEq, Inhabited, Repr

namespace Encoding

def isContinuation (byte : UInt8) : Bool :=
  0x80 ≤ byte && byte ≤ 0xbf

/-- Whether the second byte of a sequence fits the first one, so that the sequence is the shortest
for its character, no surrogate, and not beyond the last character. -/
def fitsLead (lead second : UInt8) : Bool :=
  if lead = 0xe0 then 0xa0 ≤ second && second ≤ 0xbf
  else if lead = 0xed then 0x80 ≤ second && second ≤ 0x9f
  else if lead = 0xf0 then 0x90 ≤ second && second ≤ 0xbf
  else if lead = 0xf4 then 0x80 ≤ second && second ≤ 0x8f
  else isContinuation second

/-- How many bytes follow a first byte, if it can be one. -/
def followers? (lead : UInt8) : Option Nat :=
  if lead < 0x80 then some 0
  else if lead < 0xc2 then none
  else if lead < 0xe0 then some 1
  else if lead < 0xf0 then some 2
  else if lead < 0xf5 then some 3
  else none

/-- How the bytes behind a first byte end. -/
inductive Sequence where
  | valid
  /-- So many bytes belong together before one that does not. -/
  | broken (length : Nat)
  | cut
deriving DecidableEq, Repr

def checkRest (read : Nat) : Nat → List UInt8 → Sequence
  | 0, _ => .valid
  | _ + 1, [] => .cut
  | missing + 1, byte :: rest =>
    if isContinuation byte then checkRest (read + 1) missing rest else .broken read

def check (lead : UInt8) : Nat → List UInt8 → Sequence
  | 0, _ => .valid
  | _ + 1, [] => .cut
  | missing + 1, second :: rest =>
    if fitsLead lead second then checkRest 2 missing rest else .broken 1

/-- The payload bits of a first byte that so many bytes follow. -/
def leadBits (lead : UInt8) : Nat → Nat
  | 0 => lead.toNat
  | 1 => lead.toNat % 0x20
  | 2 => lead.toNat % 0x10
  | _ => lead.toNat % 0x08

def character (lead : UInt8) (following : List UInt8) : Char :=
  Char.ofNat (following.foldl (fun code byte => code * 0x40 + byte.toNat % 0x40)
    (leadBits lead following.length))

def decodeFrom (offset : Nat) : List UInt8 → Except EncodingFault (List Char)
  | [] => .ok []
  | lead :: rest =>
    match followers? lead with
    | none => .error ⟨offset, 1⟩
    | some count =>
      match check lead count rest with
      | .cut => .error ⟨offset, 0⟩
      | .broken length => .error ⟨offset, length⟩
      | .valid =>
        (decodeFrom (offset + 1 + count) (rest.drop count)).map
          (character lead (rest.take count) :: ·)
termination_by bytes => bytes.length
decreasing_by
  simp only [List.length_drop, List.length_cons]
  omega

def decode (bytes : List UInt8) : Except EncodingFault String :=
  (decodeFrom 0 bytes).map String.ofList

end Encoding

end TemplateCompiler
