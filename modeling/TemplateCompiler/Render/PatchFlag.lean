import TemplateCompiler.Text.Quoted

/-! Hints to the runtime about the parts of a node that can change. A flag is a set of bits in a
32 bit word; two negative values are marks of their own. -/

namespace TemplateCompiler

structure PatchFlag where
  bits : BitVec 32 := 0
deriving DecidableEq, Inhabited, Repr

namespace PatchFlag

def empty : PatchFlag := ⟨0⟩
def text : PatchFlag := ⟨1⟩
def classBinding : PatchFlag := ⟨2⟩
def styleBinding : PatchFlag := ⟨4⟩
def props : PatchFlag := ⟨8⟩
def fullProps : PatchFlag := ⟨16⟩
def hydrateEvents : PatchFlag := ⟨32⟩
def stableFragment : PatchFlag := ⟨64⟩
def keyedFragment : PatchFlag := ⟨128⟩
def unkeyedFragment : PatchFlag := ⟨256⟩
def needPatch : PatchFlag := ⟨512⟩
def dynamicSlots : PatchFlag := ⟨1024⟩

/-- A node that was moved out of the render function. -/
def hoisted : PatchFlag := ⟨-1⟩

/-- Leave the optimized comparison. -/
def bail : PatchFlag := ⟨-2⟩

def bitNames : List String :=
  ["TEXT", "CLASS", "STYLE", "PROPS", "FULL_PROPS", "HYDRATE_EVENTS", "STABLE_FRAGMENT",
   "KEYED_FRAGMENT", "UNKEYED_FRAGMENT", "NEED_PATCH", "DYNAMIC_SLOTS"]

def isEmpty (flag : PatchFlag) : Bool :=
  flag.bits == 0

theorem isEmpty_iff {flag : PatchFlag} : flag.isEmpty = true ↔ flag = empty := by
  obtain ⟨bits⟩ := flag
  simp [isEmpty, empty]

def isHoisted (flag : PatchFlag) : Bool :=
  flag == hoisted

def union (first second : PatchFlag) : PatchFlag :=
  ⟨first.bits ||| second.bits⟩

instance : OrOp PatchFlag := ⟨union⟩

def contains (flag part : PatchFlag) : Bool :=
  flag.bits &&& part.bits == part.bits

def names (flag : PatchFlag) : List String :=
  (bitNames.zipIdx.filter fun entry => flag.bits.getLsbD entry.2).map (·.1)

/-- The flag as generated code spells it: `9 /* TEXT, PROPS */`. -/
def render (flag : PatchFlag) : String :=
  if flag = hoisted then "-1 /* HOISTED */"
  else if flag = bail then "-2 /* BAIL */"
  else toString flag.bits.toInt ++ " /* " ++ ", ".intercalate flag.names ++ " */"

private def hexDigits : Nat → Nat → List Char
  | 0, _ => []
  | fuel + 1, value =>
    if value < 16 then [Text.hexDigit value]
    else hexDigits fuel (value / 16) ++ [Text.hexDigit (value % 16)]

/-- The flag as reports spell it: the names, and one number for the bits without a name. -/
def describe (flag : PatchFlag) : String :=
  let rest := flag.bits.toNat >>> bitNames.length <<< bitNames.length
  let number := if rest = 0 then [] else ["0x" ++ String.ofList (hexDigits 8 rest)]
  " | ".intercalate (flag.names ++ number)

end PatchFlag

end TemplateCompiler
