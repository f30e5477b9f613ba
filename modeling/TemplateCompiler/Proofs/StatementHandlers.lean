import TemplateCompiler.Lowering.Handler
import TemplateCompiler.Proofs.DirectiveNames
import TemplateCompiler.Proofs.LoopAliases
import TemplateCompiler.Proofs.SubstitutedNames

/-! Handlers of several statements. The text is split at each of its semicolons, what is between
them is resolved piece by piece, and commas make one expression of it. So the statements that were
joined are those that run, unless one has a semicolon of its own, as in a string or in the body of a
function: then it is torn apart. -/

namespace TemplateCompiler

open Text

namespace Text

variable {dropped : Char → Bool} {mark gap c : Char} {text : List Char}

theorem bare_strip (dropped : Char → Bool) (text : List Char) :
    Bare dropped (strip dropped text) := by
  have head (text : List Char) : ∀ c ∈ (text.dropWhile dropped).head?, dropped c = false := by
    intro c first
    have kept := List.head?_dropWhile_not dropped text
    rwa [Option.mem_def.1 first] at kept
  constructor
  · intro c first
    have part := (@List.dropWhile_suffix _ (text.dropWhile dropped).reverse dropped).reverse
    rw [List.reverse_reverse] at part
    obtain ⟨rest, whole⟩ := part
    refine head text c ?_
    rw [← whole, List.head?_append_of_ne_nil _ (by rintro none; simp [strip, none] at first)]
    exact first
  · rw [strip, List.getLast?_reverse]
    exact head _

theorem trim_trim (text : String) : trim (trim text) = trim text := by
  rw [trim, trim, String.toList_ofList, strip_of_bare (bare_strip isSpace _)]

theorem mem_strip (kept : dropped c = false) : c ∈ strip dropped text ↔ c ∈ text := by
  have same := filter_strip dropped text
  have filtered (text : List Char) : c ∈ text ↔ c ∈ text.filter fun c => !dropped c := by
    simp [kept]
  rw [filtered (strip dropped text), same, ← filtered]

/-- A character behind the text is one behind its last piece. -/
theorem pieces_concat (differs : c ≠ mark) : ∃ front last, pieces mark text = front ++ [last] ∧
    pieces mark (text ++ [c]) = front ++ [last ++ [c]] := by
  induction text with
  | nil => exact ⟨[], [], rfl, pieces_of_absent (by simp [differs.symm])⟩
  | cons d rest ih =>
    obtain ⟨front, last, before, after⟩ := ih
    rw [List.cons_append, pieces, pieces, before, after]
    split
    · exact ⟨[] :: front, last, rfl, rfl⟩
    · cases front with
      | nil => exact ⟨[], d :: last, rfl, rfl⟩
      | cons first front => exact ⟨(d :: first) :: front, last, rfl, rfl⟩

theorem pieces_ne_nil (mark : Char) (text : List Char) : pieces mark text ≠ [] := by
  cases text with
  | nil => exact List.cons_ne_nil _ _
  | cons c rest =>
    rw [pieces]
    split
    · exact List.cons_ne_nil _ _
    · split <;> exact List.cons_ne_nil _ _

theorem not_mem_pieces (mark : Char) (text : List Char) :
    ∀ piece ∈ pieces mark text, mark ∉ piece := by
  induction text with
  | nil => simp [pieces]
  | cons c rest ih =>
    rw [pieces]
    split
    · exact List.forall_mem_cons.2 ⟨List.not_mem_nil, ih⟩
    · next differs =>
      split
      · simpa using Ne.symm differs
      · next first others parts =>
        obtain ⟨own, others⟩ := List.forall_mem_cons.1 (parts ▸ ih)
        refine List.forall_mem_cons.2 ⟨?_, others⟩
        simp [own, Ne.symm differs]

theorem mem_intercalate {separator : List Char} (apart : c ∉ separator) {parts : List (List Char)} :
    c ∈ separator.intercalate parts ↔ ∃ part ∈ parts, c ∈ part := by
  induction parts with
  | nil => simp
  | cons first others ih =>
    cases others with
    | nil => simp
    | cons second others =>
      rw [List.intercalate_cons_cons, List.mem_append, List.mem_append, ih,
        List.exists_mem_cons_iff]
      simp [apart]

section Stripped

variable (kept : dropped mark = false)

include kept

theorem ne_of_drops (drops : dropped c = true) : c ≠ mark := by
  rintro rfl
  rw [drops] at kept
  cases kept

theorem map_strip_pieces_cons (drops : dropped c = true) :
    (pieces mark (c :: text)).map (strip dropped) = (pieces mark text).map (strip dropped) := by
  rw [pieces, if_neg (ne_of_drops kept drops)]
  cases parts : pieces mark text with
  | nil => exact absurd parts (pieces_ne_nil mark text)
  | cons first others => simp only [List.map_cons, strip_cons drops]

theorem map_strip_pieces_concat (drops : dropped c = true) :
    (pieces mark (text ++ [c])).map (strip dropped) = (pieces mark text).map (strip dropped) := by
  obtain ⟨front, last, before, after⟩ := @pieces_concat mark c text (ne_of_drops kept drops)
  have ends : strip dropped (last ++ [c]) = strip dropped last := by
    rw [strip, strip, List.dropWhile_append]
    split
    · next empty => simp [drops, List.isEmpty_iff.1 empty]
    · rw [List.reverse_append, List.reverse_singleton, List.singleton_append,
        List.dropWhile_cons_of_pos drops]
  rw [before, after, List.map_append, List.map_append, List.map_singleton, List.map_singleton, ends]

theorem map_strip_pieces_strip (text : List Char) :
    (pieces mark (strip dropped text)).map (strip dropped) =
      (pieces mark text).map (strip dropped) := by
  have front (text : List Char) : (pieces mark (text.dropWhile dropped)).map (strip dropped) =
      (pieces mark text).map (strip dropped) := by
    induction text with
    | nil => rfl
    | cons c rest ih =>
      cases drops : dropped c with
      | true => rw [List.dropWhile_cons_of_pos drops, ih, map_strip_pieces_cons kept drops]
      | false => rw [List.dropWhile_cons_of_neg (by simp [drops])]
  have back (text : List Char) :
      (pieces mark (text.reverse.dropWhile dropped).reverse).map (strip dropped) =
        (pieces mark text).map (strip dropped) := by
    induction text using List.reverseRecOn with
    | nil => rfl
    | append_singleton text c ih =>
      rw [List.reverse_append, List.reverse_singleton, List.singleton_append]
      cases drops : dropped c with
      | true => rw [List.dropWhile_cons_of_pos drops, ih, map_strip_pieces_concat kept drops]
      | false =>
        rw [List.dropWhile_cons_of_neg (by simp [drops]), List.reverse_cons, List.reverse_reverse]
  rw [strip, back, front]

/-- Parts that are joined come out again, up to the gap behind the mark. -/
theorem map_strip_pieces_intercalate (drops : dropped gap = true) {parts : List (List Char)}
    (some : parts ≠ []) (absent : ∀ part ∈ parts, mark ∉ part) :
    (pieces mark ([mark, gap].intercalate parts)).map (strip dropped) =
      parts.map (strip dropped) := by
  induction parts with
  | nil => exact absurd rfl some
  | cons first others ih =>
    obtain ⟨own, absent⟩ := List.forall_mem_cons.1 absent
    cases others with
    | nil => rw [List.intercalate_singleton, pieces_of_absent own]
    | cons second others =>
      rw [List.intercalate_cons_cons, List.append_assoc, List.cons_append, pieces_append own,
        List.map_cons, List.singleton_append, map_strip_pieces_cons kept drops,
        ih (List.cons_ne_nil _ _) absent]
      rfl

end Stripped

end Text

namespace Expr

variable {onContext : String} {expr : Expr} {parts : List Expr}

/-- The expression is written in one line, as texts. -/
def InLine (onContext : String) (expr : Expr) : Prop :=
  ∀ piece ∈ expr.pieces onContext, ∃ text, piece = .text text

theorem IsText.inLine (single : expr.IsText onContext) : expr.InLine onContext := by
  obtain ⟨text, whole⟩ := single
  rw [InLine, whole]
  exact List.forall_mem_singleton.2 ⟨text, rfl⟩

theorem pieces_compound (parts : List Expr) :
    (compound parts).pieces onContext = parts.flatMap (·.pieces onContext) := by
  rw [pieces]
  induction parts with
  | nil => rfl
  | cons part rest ih => rw [piecesAll, List.flatten_cons, ih, List.flatMap_cons]

theorem inLine_compound (lines : ∀ part ∈ parts, part.InLine onContext) :
    (compound parts).InLine onContext := by
  intro piece member
  rw [pieces_compound] at member
  obtain ⟨part, among, inside⟩ := List.mem_flatMap.1 member
  exact lines part among piece inside

/-- Texts leave the level of indentation as it is. -/
theorem InLine.levelAfter (line : expr.InLine onContext) (level : Nat) :
    (expr.pieces onContext).levelAfter level = level := by
  unfold InLine at line
  generalize expr.pieces onContext = pieces at line
  induction pieces with
  | nil => rfl
  | cons piece rest ih =>
    obtain ⟨⟨text, rfl⟩, later⟩ := List.forall_mem_cons.1 line
    exact ih later

theorem written_compound_of_inLine (lines : ∀ part ∈ parts, part.InLine onContext) :
    (compound parts).written onContext = parts.flatMap (·.written onContext) := by
  rw [written_eq_spell, pieces_compound]
  induction parts with
  | nil => rfl
  | cons part rest ih =>
    obtain ⟨first, others⟩ := List.forall_mem_cons.1 lines
    rw [List.flatMap_cons, Pieces.spell_append, first.levelAfter, ih others, List.flatMap_cons,
      written_eq_spell]

end Expr

theorem isText_resolveName (onContext : String) (scope : Scope) (locals : List String)
    (name : String) : (resolveName scope locals name).IsText onContext := by
  cases meaning scope locals name with
  | lookedUp free resolved => exact ⟨_, by rw [resolved, Expr.pieces]⟩
  | aliased inside unfree resolved => exact ⟨_, by rw [resolved, Expr.pieces]⟩
  | kept unfree outside level static resolved => exact ⟨_, by rw [resolved, Expr.pieces]⟩

theorem inLine_resolveIn (onContext : String) (scope : Scope) (locals : List String)
    {text : String} {parsed : Script.Expression}
    (placed : Script.Placed 0 parsed.references text.toList) :
    (resolveIn scope locals text parsed).value.InLine onContext := by
  have upto := (@Resolving.Upto.run onContext scope (parsed.boundIn text) locals {} [] _ [] 0 _
    ⟨rfl, Nat.le_refl _, List.forall_mem_nil _⟩ rfl placed).1
  rw [value_resolveIn]
  unfold Resolving.finish
  split
  · exact Expr.IsText.inLine ⟨_, rfl⟩
  · refine Expr.inLine_compound fun part member => ?_
    rcases List.mem_append.1 (List.mem_of_mem_filter member) with earlier | last
    · exact (upto.texts part earlier).inLine
    · rw [List.mem_singleton.1 last]
      exact (Resolving.isText_source _).inLine

section Resolved

variable (reader : ScriptReader) (scope : Scope) (locals : List String) (raw : String) (span : Span)

theorem resolve_trim :
    resolve scope locals (trim raw) span reader = resolve scope locals raw span reader := by
  unfold resolve
  rw [trim_trim]

inductive Resolved (result : Reported Expr) : Prop
  | blank (empty : trim raw = "") (same : result = pure (.simple { raw := trim raw } .canStringify))
  | name (solid : trim raw ≠ "") (same : result = pure (resolveName scope locals (trim raw)))
  | accepted (parsed : Script.Expression) (valid : reader.parse? (trim raw) = some parsed)
      (same : result = resolveIn scope locals (trim raw) parsed)
  | rejected (invalid : reader.isValid (trim raw) = false)
      (same : result.value = .simple { raw := trim raw } .notStatic)

theorem resolved_resolve :
    Resolved reader scope locals raw (resolve scope locals raw span reader) := by
  unfold resolve
  dsimp only
  split
  · next empty => exact .blank (by simpa using empty) rfl
  · next solid =>
    split
    · exact .name (by simpa using solid) rfl
    · split
      · next parsed valid => exact .accepted parsed valid rfl
      · next invalid => exact .rejected (by rw [ScriptReader.isValid, invalid]; rfl) rfl

variable {reader}

theorem inLine_resolve (places : reader.Places) (onContext : String) :
    (resolve scope locals raw span reader).value.InLine onContext := by
  cases resolved_resolve reader scope locals raw span with
  | blank empty same =>
    rw [same]
    exact Expr.IsText.inLine ⟨_, rfl⟩
  | name solid same =>
    rw [same]
    exact (isText_resolveName onContext scope locals _).inLine
  | accepted parsed valid same =>
    rw [same]
    exact inLine_resolveIn onContext scope locals (places.references _ parsed valid)
  | rejected invalid same =>
    rw [same]
    exact Expr.IsText.inLine ⟨_, rfl⟩

variable {raw}

theorem problems_resolve_of_isValid (valid : reader.isValid (trim raw) = true) :
    (resolve scope locals raw span reader).problems = [] := by
  cases resolved_resolve reader scope locals raw span with
  | blank empty same => rw [same]; rfl
  | name solid same => rw [same]; rfl
  | accepted parsed valid same => rw [same, problems_resolveIn]
  | rejected invalid same =>
    rw [invalid] at valid
    cases valid

end Resolved

/-- A text that is one name. -/
theorem Script.placed_whole (name : String) : Placed 0 [whole name] name.toList := by
  have placed := @Placed.next 0 [] name.toList [] (whole name) [] rfl (Nat.zero_add _).symm
    (.done _ _)
  rwa [List.nil_append, List.append_nil] at placed

section Characters

variable {c : Char} (visible : isSpace c = false) (differs : c ≠ ':')
  {scope : Scope} {known locals : List String}

include visible differs

theorem mem_replacement (text : List Char) (reference : Script.Occurrence) :
    c ∈ replacement "" scope known text reference ↔ c ∈ (reference.name text).toList := by
  have unspaced : c ≠ ' ' := by
    rintro rfl
    cases visible
  have key : c ∈ (if reference.isShorthand then (reference.name text).toList ++ ": ".toList
      else []) → c ∈ (reference.name text).toList := by
    split
    · simp [differs, unspaced]
    · exact nofun
  simp only [replacement]
  split
  · simpa using key
  · split
    · simpa using key
    · exact Iff.rfl

theorem mem_substitute {front rest : List Char} {place : Nat}
    {references : List Script.Occurrence} (begins : front.length = place)
    (placed : Script.Placed place references rest) :
    c ∈ Script.substitute (replacement "" scope known (front ++ rest)) place references rest ↔
      c ∈ rest := by
  induction placed generalizing front with
  | done => exact Iff.rfl
  | @next place gap name rest reference others starts stops later ih =>
    have ends : (front ++ gap ++ name).length = reference.stop := by
      simp only [List.length_append]
      omega
    have whole : front ++ (gap ++ name ++ rest) = front ++ gap ++ name ++ rest := by simp
    have called : reference.name (front ++ gap ++ name ++ rest) = String.ofList name := by
      rw [← begins] at starts
      exact Script.Occurrence.name_eq starts stops
    rw [whole, Script.substitute_next starts stops]
    simp only [List.mem_append, mem_replacement visible differs, called, String.toList_ofList,
      ih ends]

theorem mem_substitute_whole {references : List Script.Occurrence} {text : List Char}
    (placed : Script.Placed 0 references text) :
    c ∈ Script.substitute (replacement "" scope known text) 0 references text ↔ c ∈ text := by
  have found := @mem_substitute c visible differs scope known [] text 0 references rfl placed
  rwa [List.nil_append] at found

/-- Without a context, what can be seen of a resolved expression is what can be seen of its text. -/
theorem mem_written_resolve {reader : ScriptReader} (places : reader.Places) (raw : String)
    (span : Span) :
    c ∈ (resolve scope locals raw span reader).value.written "" ↔ c ∈ raw.toList := by
  have trimmed : c ∈ (trim raw).toList ↔ c ∈ raw.toList := by
    rw [trim, String.toList_ofList, mem_strip visible]
  rw [← trimmed]
  cases resolved_resolve reader scope locals raw span with
  | blank empty same =>
    rw [same]
    simp
  | name solid same =>
    rw [same, Reported.value_pure, (substitutes_resolveName scope locals _).written,
      mem_substitute_whole visible differs (Script.placed_whole (trim raw))]
  | accepted parsed valid same =>
    have placed := places.references _ parsed valid
    rw [same, (substitutes_resolveIn scope locals placed).written,
      mem_substitute_whole visible differs placed]
  | rejected invalid same =>
    rw [same]
    simp

end Characters

namespace Handler

variable (surroundings : Surroundings) (span : Span)

theorem joinStatements_cons_cons (first second : String) (others : List String) :
    joinStatements surroundings span (first :: second :: others) = do
      let resolved ← resolve surroundings.scope eventLocals first span surroundings.reader
      return resolved :: .source ", " :: (← joinStatements surroundings span (second :: others)) :=
  rfl

theorem problems_joinStatements (texts : List String) :
    (joinStatements surroundings span texts).problems =
      texts.flatMap fun text =>
        (resolve surroundings.scope eventLocals text span surroundings.reader).problems := by
  induction texts with
  | nil => rfl
  | cons first others ih =>
    cases others with
    | nil => simp [joinStatements]
    | cons second others => simp [joinStatements_cons_cons, ih]

theorem inLine_joinStatements (places : surroundings.reader.Places) (onContext : String)
    (texts : List String) :
    ∀ part ∈ (joinStatements surroundings span texts).value, part.InLine onContext := by
  induction texts with
  | nil => exact List.forall_mem_nil _
  | cons first others ih =>
    have own := inLine_resolve surroundings.scope eventLocals first span places onContext
    cases others with
    | nil => exact List.forall_mem_singleton.2 own
    | cons second others =>
      exact List.forall_mem_cons.2 ⟨own, List.forall_mem_cons.2 ⟨Expr.IsText.inLine ⟨_, rfl⟩, ih⟩⟩

/-- The statements are written one behind another, with commas between them. -/
theorem written_joinStatements (places : surroundings.reader.Places) (onContext : String)
    (texts : List String) :
    (Expr.compound (joinStatements surroundings span texts).value).written onContext =
      ", ".toList.intercalate (texts.map fun text =>
        (resolve surroundings.scope eventLocals text span surroundings.reader).value.written
          onContext) := by
  rw [Expr.written_compound_of_inLine
    (inLine_joinStatements surroundings span places onContext texts)]
  induction texts with
  | nil => rfl
  | cons first others ih =>
    cases others with
    | nil => simp [joinStatements]
    | cons second others =>
      simp only [joinStatements_cons_cons, Reported.value_bind, Reported.value_pure,
        List.flatMap_cons, ih, Expr.written_source, List.map_cons, List.intercalate_cons_cons,
        List.append_assoc]

/-- The pieces between the semicolons, trimmed. -/
theorem statements_eq (text : String) :
    statements text = (((pieces ';' text.toList).map (strip isSpace)).map String.ofList).filter
      fun statement => !statement.isEmpty := by
  rw [statements, List.map_map]
  refine congrArg _ (List.map_congr_left fun piece _ => ?_)
  rw [Function.comp_apply, trim, String.toList_ofList]

theorem statements_trim (text : String) : statements (trim text) = statements text := by
  rw [statements_eq, statements_eq, trim, String.toList_ofList, map_strip_pieces_strip (by decide)]

theorem statements_intercalate {texts : List String} (some : texts ≠ [])
    (solid : ∀ text ∈ texts, trim text ≠ "") (plain : ∀ text ∈ texts, ';' ∉ text.toList) :
    statements ("; ".intercalate texts) = texts.map trim := by
  have parts := @map_strip_pieces_intercalate isSpace ';' ' ' (by decide) (by decide)
    (texts.map String.toList) (by simpa using some) (List.forall_mem_map.2 plain)
  have trimmed : ((texts.map String.toList).map (strip isSpace)).map String.ofList =
      texts.map trim := by
    rw [List.map_map, List.map_map]
    rfl
  rw [statements_eq, String.toList_intercalate, show "; ".toList = [';', ' '] from rfl, parts,
    trimmed]
  refine List.filter_eq_self.2 (List.forall_mem_map.2 fun text member => ?_)
  simpa using solid text member

theorem semicolon_not_mem_statements (text : String) :
    ∀ statement ∈ statements text, ';' ∉ statement.toList := by
  intro statement member
  rw [statements_eq] at member
  obtain ⟨stripped, among, rfl⟩ := List.mem_map.1 (List.mem_of_mem_filter member)
  obtain ⟨piece, inside, rfl⟩ := List.mem_map.1 among
  rw [String.toList_ofList, mem_strip (by decide)]
  exact not_mem_pieces ';' text.toList piece inside

theorem isSimpleIdentifier_of_mem {text : String} {c : Char} (member : c ∈ text.toList)
    (other : Name.isSimpleChar c = false) : Name.isSimpleIdentifier text = false := by
  unfold Name.isSimpleIdentifier
  split
  · rfl
  · next first rest chars =>
    rw [chars] at member
    rcases List.mem_cons.1 member with rfl | later
    · simp [other]
    · have found : rest.all Name.isSimpleChar = false :=
        List.all_eq_false.2 ⟨c, later, by simp [other]⟩
      simp [found]

/-- The handler runs the statements `texts` one behind another. Each is resolved by itself, and
nothing is reported. -/
structure KeepsStatements (texts : List String) (result : Reported Expr) : Prop where
  silent : result.problems = []
  inline : ∃ body traits, result.value = .handler body traits ∧ traits.kind = .inlineStatement ∧
    ∀ onContext, body.written onContext = ", ".toList.intercalate (texts.map fun text =>
      (resolve surroundings.scope eventLocals text span surroundings.reader).value.written onContext)

/-- A text with a semicolon that is no expression as a whole is split into statements. -/
theorem ofValue_statements {value : Value} (several : ';' ∈ value.content.raw.toList)
    (refused : surroundings.reader.isValid (trim value.content.raw) = false) :
    ofValue surroundings value = do
      let parts ← joinStatements surroundings value.span (statements value.content.raw)
      return make surroundings (.compound parts) .inlineStatement := by
  have inside : ';' ∈ (trim value.content.raw).toList := by
    rw [trim, String.toList_ofList]
    exact (mem_strip (by decide)).2 several
  have unnamed := isSimpleIdentifier_of_mem inside (by decide)
  have none : surroundings.reader.parse? (trim value.content.raw) = none := by
    simpa [ScriptReader.isValid] using refused
  have kind : kindOf surroundings.reader (trim value.content.raw) = .inlineStatement := by
    simp [kindOf, unnamed, ScriptReader.isMember, ScriptReader.isFunction, none]
  have splits : ((trim value.content.raw).toList.contains ';' &&
      !surroundings.reader.isValid (trim value.content.raw)) = true := by
    rw [refused, Bool.not_false, Bool.and_true, List.contains_iff_mem]
    exact inside
  simp only [ofValue, kind, splits, if_true, statements_trim]
  rfl

/-- Statements that are one expression each are kept when they are joined, unless their join is one
expression as well, just if none of them has a semicolon of its own. A text is trimmed before it is
read. -/
theorem keepsStatements_iff (places : surroundings.reader.Places)
    (empty : surroundings.reader.isValid "" = false) (value : Value) {texts : List String}
    (several : 2 ≤ texts.length)
    (accepted : ∀ text ∈ texts, surroundings.reader.isValid (trim text) = true)
    (joined : value.content.raw = "; ".intercalate texts)
    (refused : surroundings.reader.isValid (trim value.content.raw) = false) :
    KeepsStatements surroundings value.span texts (ofValue surroundings value) ↔
      ∀ text ∈ texts, ';' ∉ text.toList := by
  have semicolon : ';' ∈ value.content.raw.toList := by
    match texts, several with
    | first :: second :: others, _ => simp [joined]
  rw [ofValue_statements surroundings semicolon refused]
  constructor
  · rintro ⟨-, body, traits, same, -, written⟩ text member inside
    cases same
    have whole := written ""
    rw [written_joinStatements _ _ places] at whole
    have torn : ';' ∉ ", ".toList.intercalate ((statements value.content.raw).map fun text =>
        (resolve surroundings.scope eventLocals text value.span surroundings.reader).value.written
          "") := by
      rw [mem_intercalate (by decide)]
      rintro ⟨_, among, found⟩
      obtain ⟨statement, part, rfl⟩ := List.mem_map.1 among
      rw [mem_written_resolve (by decide) (by decide) places] at found
      exact semicolon_not_mem_statements _ statement part found
    rw [whole, mem_intercalate (by decide)] at torn
    refine torn ⟨_, List.mem_map_of_mem member, ?_⟩
    rwa [mem_written_resolve (by decide) (by decide) places]
  · intro plain
    have some : texts ≠ [] := by
      rintro rfl
      cases several
    have solid : ∀ text ∈ texts, trim text ≠ "" := by
      intro text member blank
      have valid := accepted text member
      rw [blank, empty] at valid
      cases valid
    have parts := statements_intercalate some solid plain
    refine ⟨?_, _, _, rfl, rfl, fun onContext => ?_⟩
    · rw [joined, parts, Reported.problems_bind, problems_joinStatements, Reported.problems_pure,
        List.append_nil, List.flatMap_eq_nil_iff]
      refine List.forall_mem_map.2 fun text member => problems_resolve_of_isValid _ _ _ ?_
      rw [trim_trim]
      exact accepted text member
    · rw [joined, parts, written_joinStatements _ _ places, List.map_map]
      simp only [Function.comp_def, resolve_trim]

def countingHandler : Value :=
  { content := { raw := "count++;  foo($event)" }, span := {} }

theorem keepsStatements_iff_counting :
    KeepsStatements default {} ["count++", " foo($event)"] (ofValue default countingHandler) := by
  have empty : ScriptReader.standard.isValid "" = false := by decide +kernel
  have accepted : ∀ text ∈ ["count++", " foo($event)"],
      ScriptReader.standard.isValid (trim text) = true := by
    decide +kernel
  have refused : ScriptReader.standard.isValid (trim countingHandler.content.raw) = false := by
    decide +kernel
  exact (keepsStatements_iff default ScriptReader.places_standard empty countingHandler (by decide)
    accepted rfl refused).2 (by decide)

/-- Two statements, the first with a semicolon in a string. -/
def quotingHandler : Value :=
  { content := { raw := "; ".intercalate ["f(';')", "g()"] }, span := {} }

/-- The semicolon of a string ends a statement as well. -/
theorem semicolon_of_string :
    (∀ text ∈ ["f(';')", "g()"], ScriptReader.standard.isValid (trim text) = true) ∧
      ScriptReader.standard.isValid (trim quotingHandler.content.raw) = false ∧
      ¬ KeepsStatements default {} ["f(';')", "g()"] (ofValue default quotingHandler) := by
  have accepted : ∀ text ∈ ["f(';')", "g()"], ScriptReader.standard.isValid (trim text) = true := by
    decide +kernel
  have refused : ScriptReader.standard.isValid (trim quotingHandler.content.raw) = false := by
    decide +kernel
  have reported : (ofValue default quotingHandler).problems.length = 2 := by decide +kernel
  refine ⟨accepted, refused, fun keeps => ?_⟩
  rw [keeps.silent] at reported
  cases reported

end Handler

end TemplateCompiler
