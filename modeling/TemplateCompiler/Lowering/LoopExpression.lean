import TemplateCompiler.Markup.Name
import TemplateCompiler.Problem.Reported
import TemplateCompiler.Script.Expression

/-! The expression of a loop: up to three alias patterns and the list they run over, as in
`(item, index) in items`. -/

namespace TemplateCompiler

structure LoopExpression where
  source : String
  value : Option String
  key : Option String
  index : Option String
deriving DecidableEq, Inhabited, Repr

namespace LoopExpression

def trimChars (text : List Char) : List Char :=
  Text.strip Text.isSpace text

/-- The aliases from the last comma on, at most two of them split off; a comma inside of a pattern
does not divide. -/
def splitAliases (aliases : List Char) : List (List Char) :=
  match Text.cutLast? ',' aliases with
  | none => [trimChars aliases]
  | some (rest, last) =>
    if closesPattern last then [trimChars aliases]
    else
      match Text.cutLast? ',' rest with
      | none => [trimChars rest, trimChars last]
      | some (first, middle) =>
        if closesPattern middle then [trimChars rest, trimChars last]
        else [trimChars first, trimChars middle, trimChars last]
where
  closesPattern (text : List Char) : Bool :=
    text.any fun c => c = '}' || c = ']'

def alias? (aliases : List (List Char)) (index : Nat) : Option String :=
  (aliases[index]?.filter fun text => !text.isEmpty).map String.ofList

def parse? (text : String) : Option LoopExpression :=
  let chars := text.toList
  match (Text.cut? " in ".toList chars).or (Text.cut? " of ".toList chars) with
  | none => none
  | some (left, right) =>
    let source := trimChars right
    let aliases :=
      splitAliases (Text.strip (fun c => c = '(' || c = ')') (trimChars left))
    if source.isEmpty then none
    else
      some
        { source := String.ofList source
          value := alias? aliases 0
          key := alias? aliases 1
          index := alias? aliases 2 }

/-- The names that an alias pattern binds: those of a parameter written so. -/
def boundNames (reader : ScriptReader) (pattern : String) : Reported (List String) :=
  if Name.isSimpleIdentifier pattern then pure [pattern]
  else
    match reader.parse? ("(" ++ pattern ++ ") => 0") with
    | none => pure []
    | some parsed =>
      let inside := parsed.bindings.filter fun binding =>
        1 ≤ binding.start && binding.stop ≤ pattern.length + 1
      inside.mapM fun binding =>
        Reported.slice pattern.toList (binding.start - 1) (binding.stop - 1)

@[simp]
theorem problems_boundNames (reader : ScriptReader) (pattern : String) :
    (boundNames reader pattern).problems = [] := by
  unfold boundNames
  split
  · rfl
  · split
    · rfl
    · simp [Reported.problems_mapM]

end LoopExpression

end TemplateCompiler
