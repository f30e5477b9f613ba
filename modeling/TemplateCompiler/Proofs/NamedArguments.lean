import TemplateCompiler.Proofs.WalkContents

/-! The arguments of directives. A name that is written as an argument has at least one character,
as it is read and ever after. -/

namespace TemplateCompiler

namespace Builder

variable {option : ParseOption} {builder before after : Builder} {token : Token}

def FromTag (option : ParseOption) : Content → Prop
  | .element element => ∃ tag : PendingTag, element = tag.element option
  | _ => True

abbrev FromTags (option : ParseOption) (builder : Builder) : Prop :=
  builder.Holds (fun _ content _ => FromTag option content)
    fun _ element _ => FromTag option (.element element)

theorem tolerates_fromTag : Node.Tolerates fun _ content _ => FromTag option content :=
  fun _ _ _ _ _ _ => trivial

theorem FromTags.handlePull (fromTags : builder.FromTags option) (pull : Pull) :
    (builder.handlePull option pull).FromTags option := by
  have reported : (builder.report pull.problems).FromTags option :=
    fromTags.transfer ⟨rfl, rfl, rfl, rfl, rfl⟩
  obtain ⟨middle, steps, outcome⟩ := handle_cases option (builder.report pull.problems) pull.token
  have moved : middle.FromTags option := by
    clear outcome
    induction steps with
    | refl => exact reported
    | tail _ step ih => exact ih.step tolerates_fromTag (fun _ _ _ _ _ made => made) step
  rw [Builder.handlePull]
  rcases outcome with ⟨-, make⟩ | ⟨-, same⟩
  · refine moved.make (fun content own => ?_) (fun tag _ _ _ => ⟨⟨tag, rfl⟩, ⟨tag, rfl⟩⟩) make
    generalize pull.token.kind = kind at own
    cases own <;> trivial
  · rwa [same]

theorem FromTags.foldl (pulls : List Pull) (fromTags : builder.FromTags option) :
    (pulls.foldl (Builder.handlePull option) builder).FromTags option := by
  induction pulls generalizing builder with
  | nil => exact fromTags
  | cons pull rest ih => exact ih (fromTags.handlePull pull)

end Builder

theorem parse_fromTags {option : ParseOption} {reading : Scan} {template : Template}
    {problems : List Problem} (parsed : parse option reading = .ok (template, problems)) :
    Node.AllContain (Builder.FromTag option) template.roots := by
  obtain ⟨last, ended, same⟩ := ok_of_map_eq_ok parsed
  have start : ({} : Builder).FromTags option :=
    ⟨Node.every_nil, Node.every_nil, List.forall_mem_nil _⟩
  have read := Builder.FromTags.foldl reading.pulls start
  have reported : Builder.FromTags option
      ((reading.pulls.foldl (Builder.handlePull option) {}).report last) :=
    read.transfer ⟨rfl, rfl, rfl, rfl, rfl⟩
  have finished := (@Builder.Holds.finish option _ _ _ reported Builder.tolerates_fromTag
    fun _ _ _ made => made).1
  rwa [same] at finished

/-- The argument of the directive, if it is a name, is not empty. -/
def Directive.Named (directive : Directive) : Prop :=
  directive.argument ≠ some (.static "")

def Content.Named : Content → Prop
  | .element given => ∀ directive, .dir directive ∈ given.properties → directive.Named
  | _ => True

namespace DirectiveName

theorem readArgument_named (text : List Char) :
    (readArgument text).argument ≠ some (.static "") := by
  have bracketed (name rest : List Char) :
      (afterBracket (.dynamic (String.ofList name)) rest).argument ≠ some (.static "") := by
    simp only [afterBracket]
    split <;> simp
  simp only [readArgument]
  split
  · split
    · exact bracketed _ _
    · simp
  · split
    · simp
    · next present =>
      intro same
      simp only [Option.some.injEq, Argument.static.injEq] at same
      exact present (by simpa using congrArg String.toList same)

theorem assemble_named {name : String} {leading : List String} {read : ReadArgument}
    (named : read.argument ≠ some (.static "")) :
    (assemble name leading read).1.argument ≠ some (.static "") := by
  simp only [assemble]
  split <;> exact named

theorem parse_named {name : String} {read : DirectiveName} {problems : List ProblemKind}
    (parsed : parse name = (some read, problems)) : read.argument ≠ some (.static "") := by
  unfold parse at parsed
  split at parsed
  · dsimp only at parsed
    split at parsed
    · cases parsed
    · cases parsed
      refine assemble_named ?_
      simp only [readLongArgument]
      split
      · exact readArgument_named _
      · simp
      · simp
  · cases parsed
    refine assemble_named ?_
    simp only [readShortArgument]
    split <;> exact readArgument_named _
  · cases parsed

end DirectiveName

theorem Builder.readProperties_named (seen : List String) (attributes : List Attribute) :
    ∀ directive, .dir directive ∈ (readProperties seen attributes).1 → directive.Named := by
  induction attributes generalizing seen with
  | nil => exact fun _ member => absurd member List.not_mem_nil
  | cons given rest ih =>
    simp only [readProperties]
    split
    · exact ih seen
    · have later := ih (given.name :: seen)
      split
      · split
        · next read found =>
          intro directive member
          rcases List.mem_cons.1 member with same | behind
          · cases same
            exact DirectiveName.parse_named (Prod.ext found rfl)
          · exact later directive behind
        · intro directive member
          rcases List.mem_cons.1 member with other | behind
          · cases other
          · exact later directive behind
      · intro directive member
        rcases List.mem_cons.1 member with other | behind
        · cases other
        · exact later directive behind

theorem Content.lasts_named : Content.Lasts fun _ content => content.Named where
  more _ named := named
  without _ named directive member := named directive (List.eraseP_subset member)
  conditional _ _ := trivial
  loop _ _ _ := trivial
  placeholder _ _ _ _ := trivial

/-- Whatever was parsed and lowered, no directive that is left has an empty name for its argument. -/
theorem lower_named {parsing : ParseOption} {lowering : LowerOption} {reading : Scan}
    {template : Template} {problems : List Problem} {lowered : Lowered}
    (parsed : parse parsing reading = .ok (template, problems))
    (lowers : lower lowering template = .ok lowered) :
    Node.AllContain Content.Named lowered.plan.template.roots := by
  refine lower_contains Content.lasts_named (fun node member => ?_) lowers
  have made := parse_fromTags parsed node member
  generalize node.content = content at made
  cases content with
  | element element =>
    obtain ⟨tag, rfl⟩ := made
    exact Builder.readProperties_named [] tag.attributes.reverse
  | _ => trivial

end TemplateCompiler
