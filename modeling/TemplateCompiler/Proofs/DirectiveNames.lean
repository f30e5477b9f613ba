import TemplateCompiler.Proofs.MarkupScanning
import TemplateCompiler.Template.Builder

/-! Reading back the names of directives. A name, an argument and modifiers that were written into
an attribute name come out of it again, whatever brackets and colons there are in the argument and
the modifiers. A short form is read like the long form it stands for, unless a second colon follows
its mark: that one is passed over. -/

namespace TemplateCompiler

open Text

namespace Text

variable {mark : Char} {front back text : List Char}

theorem pieces_of_absent (absent : mark ∉ text) : pieces mark text = [text] := by
  induction text with
  | nil => rfl
  | cons c rest ih =>
    rw [List.mem_cons, not_or] at absent
    rw [pieces, if_neg (Ne.symm absent.1), ih absent.2]

theorem pieces_append (absent : mark ∉ front) :
    pieces mark (front ++ mark :: back) = front :: pieces mark back := by
  induction front with
  | nil => rw [List.nil_append, pieces, if_pos rfl]
  | cons c rest ih =>
    rw [List.mem_cons, not_or] at absent
    rw [List.cons_append, pieces, if_neg (Ne.symm absent.1), ih absent.2]

theorem cut?_of_absent (absent : mark ∉ text) : cut? [mark] text = none := by
  have whole := @find?_append mark [] text absent []
  rw [List.append_nil] at whole
  rw [cut?, whole]
  rfl

theorem cut?_append (absent : mark ∉ front) :
    cut? [mark] (front ++ mark :: back) = some (front, back) := by
  have here := find?_prefix [mark] back
  rw [List.singleton_append] at here
  rw [cut?, find?_append absent, here, Option.map_some, Option.map_some, Nat.zero_add,
    List.take_left, List.length_singleton, List.drop_length_add_append]
  rfl

end Text

namespace Argument

def written : Argument → List Char
  | static name => name.toList
  | dynamic expression => '[' :: expression.toList ++ [']']

def Spellable : Argument → Prop
  | static name => name ≠ "" ∧ '.' ∉ name.toList ∧ name.toList.head? ≠ some '['
  | dynamic expression => ']' ∉ expression.toList

end Argument

namespace DirectiveName

def dotted (modifiers : List String) : List Char :=
  modifiers.flatMap fun modifier => '.' :: modifier.toList

/-- What stands behind the name in the long form. -/
def tail (name : DirectiveName) : List Char :=
  (name.argument.elim [] fun argument => ':' :: argument.written) ++ dotted name.modifiers

/-- The long form. -/
def written (name : DirectiveName) : String :=
  String.ofList ('v' :: '-' :: name.name.toList ++ name.tail)

/-- A character that the name of a directive begins with. -/
def Begins (c : Char) : Prop :=
  c.isAlphanum = true ∨ c = '-'

structure Spellable (name : DirectiveName) : Prop where
  begins : ∃ first rest, name.name.toList = first :: rest ∧ Begins first
  plain : ':' ∉ name.name.toList ∧ '.' ∉ name.name.toList
  argument : ∀ argument ∈ name.argument, argument.Spellable
  modifiers : ∀ modifier ∈ name.modifiers, modifier ≠ "" ∧ '.' ∉ modifier.toList

/-- What is handed on for reading modifiers. -/
def behindDot (modifiers : List String) : Option (List Char) :=
  match modifiers with
  | [] => none
  | first :: others => some (first.toList ++ dotted others)

theorem dotted_cons (first : String) (others : List String) :
    dotted (first :: others) = '.' :: (first.toList ++ dotted others) := rfl

theorem pieces_dotted (first : String) (others : List String)
    (plain : ∀ modifier ∈ first :: others, '.' ∉ modifier.toList) :
    pieces '.' (first.toList ++ dotted others) = (first :: others).map String.toList := by
  induction others generalizing first with
  | nil =>
    rw [dotted, List.flatMap_nil, List.append_nil,
      pieces_of_absent (plain first List.mem_cons_self)]
    rfl
  | cons second others ih =>
    obtain ⟨own, plain⟩ := List.forall_mem_cons.1 plain
    rw [dotted_cons, pieces_append own, ih second plain]
    rfl

theorem readModifiers_dotted (first : String) (others : List String)
    (solid : ∀ modifier ∈ first :: others, modifier ≠ "" ∧ '.' ∉ modifier.toList) :
    readModifiers (first.toList ++ dotted others) = (first :: others, []) := by
  have parts := pieces_dotted first others fun modifier member => (solid modifier member).2
  have filled : ∀ part ∈ (first :: others).map String.toList, part.isEmpty = false := by
    intro part member
    obtain ⟨modifier, among, rfl⟩ := List.mem_map.1 member
    simpa using (solid modifier among).1
  have back : ((first :: others).map String.toList).map String.ofList = first :: others := by
    rw [List.map_map]
    exact (List.map_congr_left fun modifier _ => String.ofList_toList).trans (List.map_id' _)
  rw [readModifiers, parts, List.filter_eq_self.2 fun part member => by simp [filled part member],
    List.filter_eq_nil_iff.2 fun part member => by simp [filled part member], back]
  rfl

theorem assemble_behindDot (name : String) (leading modifiers : List String)
    (argument : Option Argument)
    (solid : ∀ modifier ∈ modifiers, modifier ≠ "" ∧ '.' ∉ modifier.toList) :
    assemble name leading { argument, modifiers := behindDot modifiers } =
      ({ name, argument, modifiers := leading ++ modifiers }, []) := by
  cases modifiers with
  | nil => simp [assemble, behindDot]
  | cons first others => simp [assemble, behindDot, readModifiers_dotted first others solid]

theorem afterBracket_dotted (argument : Argument) (modifiers : List String) :
    afterBracket argument (dotted modifiers) =
      { argument := some argument, modifiers := behindDot modifiers } := by
  cases modifiers <;> rfl

theorem readArgument_dotted {argument : Argument} (spellable : argument.Spellable)
    (modifiers : List String) :
    readArgument (argument.written ++ dotted modifiers) =
      { argument := some argument, modifiers := behindDot modifiers } := by
  cases argument with
  | dynamic expression =>
    have cut : cut? [']'] (expression.toList ++ [']'] ++ dotted modifiers) =
        some (expression.toList, dotted modifiers) := by
      rw [List.append_assoc]
      exact cut?_append spellable
    simp only [Argument.written, List.cons_append, readArgument, cut, String.ofList_toList]
    exact afterBracket_dotted _ modifiers
  | static name =>
    obtain ⟨some, plain, unbracketed⟩ := spellable
    have own : (name.toList ++ dotted modifiers).takeWhile (· != '.') = name.toList := by
      refine Lexer.takeWhile_name ?_ ?_
      · intro c member
        rw [bne_iff_ne]
        rintro rfl
        exact plain member
      · cases modifiers with
        | nil => exact nofun
        | cons first others =>
          rintro c ⟨⟩
          rfl
    have rest : (cut? ['.'] (name.toList ++ dotted modifiers)).map (·.2) = behindDot modifiers := by
      cases modifiers with
      | nil => rw [dotted, List.flatMap_nil, List.append_nil, cut?_of_absent plain]; rfl
      | cons first others => rw [dotted_cons, cut?_append plain]; rfl
    rw [Argument.written]
    unfold readArgument
    split
    · next inside starts =>
      refine absurd ?_ unbracketed
      cases letters : name.toList with
      | nil => exact absurd (String.toList_eq_nil_iff.1 letters) some
      | cons first others =>
        rw [letters] at starts
        cases starts
        rfl
    · simp [own, rest, some]

theorem readLongArgument_tail {name : DirectiveName} (spellable : name.Spellable) :
    readLongArgument name.tail =
      { argument := name.argument, modifiers := behindDot name.modifiers } := by
  obtain ⟨own, argument, modifiers⟩ := name
  cases argument with
  | some argument => exact readArgument_dotted (spellable.argument argument rfl) modifiers
  | none => cases modifiers <;> rfl

theorem takeWhile_written {name : DirectiveName} (spellable : name.Spellable) :
    (name.name.toList ++ name.tail).takeWhile (fun c => c != ':' && c != '.') =
      name.name.toList := by
  refine Lexer.takeWhile_name ?_ ?_
  · intro c member
    have noColon : c ≠ ':' := fun same => spellable.plain.1 (same ▸ member)
    have noDot : c ≠ '.' := fun same => spellable.plain.2 (same ▸ member)
    simp [noColon, noDot]
  · obtain ⟨own, argument, modifiers⟩ := name
    intro c member
    cases argument with
    | some argument =>
      cases member
      rfl
    | none =>
      cases modifiers with
      | nil => cases member
      | cons first others =>
        cases member
        rfl

theorem parse_written {name : DirectiveName} (spellable : name.Spellable) :
    parse name.written = (some name, []) := by
  obtain ⟨first, rest, letters, -⟩ := spellable.begins
  have filled : name.name.toList.isEmpty = false := by rw [letters]; rfl
  rw [written, parse, String.toList_ofList]
  simp only [List.cons_append, takeWhile_written spellable, filled, List.drop_left,
    readLongArgument_tail spellable, String.ofList_toList,
    assemble_behindDot _ _ _ _ spellable.modifiers]
  rfl

theorem isDirective_written {name : DirectiveName} (spellable : name.Spellable) :
    isDirective name.written = true := by
  obtain ⟨first, rest, letters, begins⟩ := spellable.begins
  rw [written, isDirective, String.toList_ofList, letters]
  rcases begins with letter | rfl
  · simp [letter]
  · rfl

end DirectiveName

/-- The directive that an attribute with the name `name` stands for. Its expression is the value as
it is written: nothing in it is decoded. -/
def Attribute.directive (given : Attribute) (name : DirectiveName) : Directive :=
  { name := name.name
    argument := name.argument
    modifiers := name.modifiers
    expression := given.value.map fun value =>
      { content := { raw := value.content.raw }, span := value.span }
    headSpan := given.nameSpan
    span := given.span }

/-- An attribute of a written name, not used before on its element, becomes that directive without
any problem. -/
theorem DirectiveName.readsBack_written {name : DirectiveName} (spellable : name.Spellable) :
    isDirective name.written = true ∧ parse name.written = (some name, []) ∧
      ∀ (seen : List String) (given : Attribute) (rest : List Attribute),
        given.name = name.written → name.written ∉ seen →
        Builder.readProperties seen (given :: rest) =
          (.dir (given.directive name) :: (Builder.readProperties (name.written :: seen) rest).1,
            (Builder.readProperties (name.written :: seen) rest).2) := by
  have accepted := isDirective_written spellable
  have parsed := parse_written spellable
  refine ⟨accepted, parsed, fun seen given rest named fresh => ?_⟩
  simp [Builder.readProperties, named, fresh, accepted, parsed, Attribute.directive]

/-- Dots and colons in the argument, and brackets in a modifier. -/
def bracketedName : DirectiveName :=
  { name := "on"
    argument := some (.dynamic "a.b ? 'c:d' : [e")
    modifiers := ["x:y", "[z]"] }

def bracketedAttribute : Attribute :=
  { name := "v-on:[a.b ? 'c:d' : [e].x:y.[z]"
    value := some ⟨({ raw := "f &lt; 1" } : Phrase).decoded true, {}⟩
    nameSpan := {}
    span := {} }

theorem DirectiveName.readsBack_written_bracketed :
    isDirective bracketedAttribute.name = true ∧
      parse bracketedAttribute.name = (some bracketedName, []) ∧
      Builder.readProperties [] [bracketedAttribute] =
        ([.dir (bracketedAttribute.directive bracketedName)], []) ∧
      ((bracketedAttribute.directive bracketedName).expression.map (·.content.text)) =
        some "f &lt; 1" := by
  have spellable : bracketedName.Spellable := by
    refine ⟨⟨'o', ['n'], by decide, .inl (by decide)⟩, by decide, ?_, by decide⟩
    rintro argument ⟨⟩
    change ']' ∉ _
    decide
  have spelled : bracketedAttribute.name = bracketedName.written := by decide
  obtain ⟨accepted, parsed, kept⟩ := DirectiveName.readsBack_written spellable
  rw [spelled]
  exact ⟨accepted, parsed, kept [] bracketedAttribute [] spelled (List.not_mem_nil), by decide⟩

namespace DirectiveName

/-- The marks that stand for the name of a directive. -/
inductive Shorthand where
  | bind
  /-- A property that is bound. -/
  | prop
  | on
  | slot
deriving DecidableEq, Repr

namespace Shorthand

def mark : Shorthand → Char
  | bind => ':'
  | prop => '.'
  | on => '@'
  | slot => '#'

def directive : Shorthand → String
  | bind | prop => "bind"
  | on => "on"
  | slot => "slot"

def modifiers : Shorthand → List String
  | prop => ["prop"]
  | bind | on | slot => []

def short (form : Shorthand) (rest : String) : String :=
  String.ofList (form.mark :: rest.toList)

def long (form : Shorthand) (rest : String) : String :=
  String.ofList ('v' :: '-' :: form.directive.toList ++ ':' :: rest.toList)

/-- What was read, with the modifiers of the mark in front. -/
def lead (form : Shorthand) (read : Option DirectiveName × List ProblemKind) :
    Option DirectiveName × List ProblemKind :=
  (read.1.map fun name => { name with modifiers := form.modifiers ++ name.modifiers }, read.2)

/-- The short form `form` with `rest` is read like its long form: the same directive, argument,
modifiers and problems. -/
def Agrees (form : Shorthand) (rest : String) : Prop :=
  parse (form.short rest) = form.lead (parse (form.long rest))

theorem isDirective_short (form : Shorthand) (rest : String) :
    isDirective (form.short rest) = true := by
  rw [short, isDirective, String.toList_ofList]
  cases form <;> rfl

theorem isDirective_long (form : Shorthand) (rest : String) :
    isDirective (form.long rest) = true := by
  rw [long, isDirective, String.toList_ofList]
  cases form <;> rfl

theorem assemble_lead (name : String) (leading : List String) (read : ReadArgument) :
    assemble name leading read =
      ({ (assemble name [] read).1 with
          modifiers := leading ++ (assemble name [] read).1.modifiers },
        (assemble name [] read).2) := by
  unfold assemble
  cases read.modifiers with
  | none => simp
  | some text => rfl

theorem parse_short_eq (form : Shorthand) (rest : String) :
    parse (form.short rest) =
      let read := assemble form.directive form.modifiers (readShortArgument rest.toList)
      (some read.1, read.2) := by
  rw [short, parse, String.toList_ofList]
  cases form <;> rfl

theorem parse_long_eq (form : Shorthand) (rest : String) :
    parse (form.long rest) =
      let read := assemble form.directive [] (readArgument rest.toList)
      (some read.1, read.2) := by
  rw [long, parse, String.toList_ofList]
  cases form <;> rfl

/-- The short form takes its argument with the long form's reader, from another place. -/
theorem parse_short_eq_lead (form : Shorthand) {rest behind : String}
    (same : readShortArgument rest.toList = readArgument behind.toList) :
    parse (form.short rest) = form.lead (parse (form.long behind)) := by
  rw [parse_short_eq, parse_long_eq, same]
  simp only [assemble_lead form.directive form.modifiers, lead, Option.map_some]

theorem argument_assemble (name : String) (leading : List String) (read : ReadArgument) :
    (assemble name leading read).1.argument = read.argument := by
  unfold assemble
  cases read.modifiers <;> rfl

theorem argument_readArgument_colon (rest : List Char) :
    (readArgument (':' :: rest)).argument =
      some (.static (String.ofList (':' :: rest.takeWhile (· != '.')))) := by
  simp [readArgument]

theorem argument_readArgument_ne (rest : List Char) :
    (readArgument rest).argument ≠ (readArgument (':' :: rest)).argument := by
  rw [argument_readArgument_colon]
  unfold readArgument
  split
  · split
    · unfold afterBracket
      split <;> simp
    · simp
  · dsimp only
    split
    · simp
    · intro same
      have letters := congrArg String.toList (Argument.static.inj (Option.some.inj same))
      rw [String.toList_ofList, String.toList_ofList] at letters
      simpa using congrArg List.length letters

theorem agrees_iff (form : Shorthand) (rest : String) :
    form.Agrees rest ↔ rest.toList.head? ≠ some ':' := by
  constructor
  · intro agrees colon
    obtain ⟨behind, letters⟩ := List.head?_eq_some_iff.1 colon
    have arguments := congrArg (fun read => read.1.map (·.argument)) agrees
    simp only [parse_short_eq, parse_long_eq, lead, Option.map_some, argument_assemble, letters,
      readShortArgument, Option.some.injEq] at arguments
    exact argument_readArgument_ne behind arguments
  · intro plain
    refine parse_short_eq_lead form ?_
    unfold readShortArgument
    split
    · next starts => exact absurd (by rw [starts]; rfl) plain
    · rfl

/-- Every short form is a directive, and agrees with its long form just if no second colon follows
the mark; one that does is passed over. -/
theorem parse_short (form : Shorthand) (rest : String) :
    (isDirective (form.short rest) = true ∧ isDirective (form.long rest) = true) ∧
      (form.Agrees rest ↔ rest.toList.head? ≠ some ':') ∧
      parse (form.short (":" ++ rest)) = form.lead (parse (form.long rest)) := by
  refine ⟨⟨isDirective_short form rest, isDirective_long form rest⟩, agrees_iff form rest, ?_⟩
  refine parse_short_eq_lead form ?_
  rw [String.toList_append]
  rfl

/-- `::x` is read as `:x`, and `v-bind::x` with the argument `:x`. -/
theorem second_colon_passed_over :
    parse "::x" = (some { name := "bind", argument := some (.static "x") }, []) ∧
      parse "v-bind::x" = (some { name := "bind", argument := some (.static ":x") }, []) ∧
      ¬ ∀ (form : Shorthand) (rest : String), form.Agrees rest := by
  refine ⟨by decide, by decide, fun always => ?_⟩
  have read : parse (short .bind ":x") ≠ lead .bind (parse (long .bind ":x")) := by decide
  exact read (always .bind ":x")

end Shorthand

end DirectiveName

end TemplateCompiler
