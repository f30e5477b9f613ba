/-! How far an expression is fixed before rendering. -/

namespace TemplateCompiler

inductive Level where
  /-- It may change from one rendering to the next. -/
  | notStatic
  /-- It stays the same, though it is known only when the code runs. -/
  | canHoist
  /-- It is known while compiling. -/
  | canStringify
deriving DecidableEq, Inhabited, Repr

namespace Level

def rank : Level → Nat
  | notStatic => 0
  | canHoist => 1
  | canStringify => 2

def meet (first second : Level) : Level :=
  if first.rank ≤ second.rank then first else second

def isStatic (level : Level) : Bool :=
  level ≠ notStatic

def name : Level → String
  | notStatic => "NotStatic"
  | canHoist => "CanHoist"
  | canStringify => "CanStringify"

@[simp]
theorem meet_canStringify (level : Level) : level.meet canStringify = level := by
  cases level <;> rfl

@[simp]
theorem canStringify_meet (level : Level) : canStringify.meet level = level := by
  cases level <;> rfl

theorem isStatic_meet (first second : Level) :
    (first.meet second).isStatic = (first.isStatic && second.isStatic) := by
  cases first <;> cases second <;> rfl

end Level

end TemplateCompiler
