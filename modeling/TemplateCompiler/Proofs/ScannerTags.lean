import TemplateCompiler.Proofs.ScannerMoves

/-! What a scanner reads of attributes and tags. -/

namespace TemplateCompiler

open Text
open Lexer (isNameChar isNameChar_of_isAlpha attributeNameLength attributeNameProblems)

variable {scanner after : Scanner}

namespace Scanner

theorem attributeNameLength_cons {c : Char} {rest : List Char} (part : isNameChar c = true)
    (other : c ≠ '=') : attributeNameLength (c :: rest) =
      ((c :: rest).takeWhile fun c => isNameChar c && c != '=').length := by
  rw [List.takeWhile_cons_of_pos (by simp [part, other]), List.length_cons]
  unfold attributeNameLength
  split
  · next starts =>
    cases starts
    exact absurd rfl other
  · exact Nat.add_comm _ _

theorem attributeNameProblems_cons {c : Char} {rest : List Char} (start : Position)
    (behind : Cursor) (other : c ≠ '=') :
    attributeNameProblems (String.ofList (c :: rest)) start behind =
      if (c :: rest).any fun c => c = '<' || c = '"' || c = '\'' then
        [Lexer.problem .unexpectedCharacterInAttributeName start behind] else [] := by
  have unequal : (String.ofList (c :: rest) == "=") = false := by
    rw [beq_eq_false_iff_ne, ne_eq, ← String.toList_inj, String.toList_ofList]
    intro same
    exact other (List.cons.inj same).1
  rw [attributeNameProblems, unequal, String.toList_ofList]
  rfl

theorem runs_scanAttributeName {c : Char} {rest : List Char} (starts : scanner.source = c :: rest)
    (part : isNameChar c = true) :
    Runs scanAttributeName scanner (scanner.cursor.peek (attributeNameLength scanner.source))
      ((scanner.goTo (scanner.cursor.advance (attributeNameLength scanner.source))).report
        (attributeNameProblems (scanner.cursor.peek (attributeNameLength scanner.source))
          scanner.position (scanner.cursor.advance (attributeNameLength scanner.source)))) := by
  refine runs_place.bind ((runs_startsWith "=").bind ?_)
  by_cases equals : c = '='
  · subst equals
    have front : "=".toList.isPrefixOf scanner.source = true := by simp [starts]
    have length : attributeNameLength scanner.source = 1 := by
      rw [starts]
      rfl
    have name : scanner.cursor.peek 1 = "=" := by
      simp [Cursor.peek, starts]
    rw [if_pos front, length, name]
    exact (runs_moveOver front rfl).bind ((runs_emit _ _).bind (runs_pure _))
  · have unequal : "=".toList.isPrefixOf scanner.source = false := by
      simp [starts, List.isPrefixOf, Ne.symm equals]
    have length : attributeNameLength scanner.source =
        (scanner.source.takeWhile fun c => isNameChar c && c != '=').length := by
      rw [starts, attributeNameLength_cons part equals]
    have name : scanner.cursor.peek (attributeNameLength scanner.source) =
        String.ofList (scanner.source.takeWhile fun c => isNameChar c && c != '=') := by
      rw [Cursor.peek, length, rest_cursor, take_length_takeWhile]
    obtain ⟨more, front⟩ : ∃ more, (scanner.source.takeWhile fun c => isNameChar c && c != '=') =
        c :: more := by
      rw [starts, List.takeWhile_cons_of_pos (by simp [part, equals])]
      exact ⟨_, rfl⟩
    rw [if_neg (by rw [unequal]; exact Bool.false_ne_true), name, length, front]
    refine (runs_moveWhile _).bind ((runs_emitIf _ _ _).bind ?_)
    rw [front, attributeNameProblems_cons _ _ equals, cursor_goTo, Cursor.skipWhile, rest_cursor, front]
    exact runs_pure _

theorem runs_atTagEnd : Runs atTagEnd scanner (Lexer.atTagEnd scanner.cursor) scanner := by
  refine runs_atEnd.bind ((runs_startsWith "/>").bind ((runs_startsWith ">").bind ?_))
  rw [Bool.or_right_comm]
  exact runs_pure _

theorem skipBlanks_eq_self {cursor : Cursor}
    (same : (Lexer.skipBlanks cursor).rest.length = cursor.rest.length) :
    Lexer.skipBlanks cursor = cursor := by
  rw [Lexer.rest_skipBlanks] at same
  have none : cursor.rest.takeWhile isBlank = [] := by
    have whole := congrArg List.length (cursor.rest.takeWhile_append_dropWhile (p := isBlank))
    rw [List.length_append] at whole
    exact List.length_eq_zero_iff.1 (by omega)
  simp [Lexer.skipBlanks, Cursor.skipWhile, none, Cursor.advance]

def RunsValue (action : Scanning Token) (scanner : Scanner) (read : Lexer.ReadValue) : Prop :=
  ∃ token, read.token = some token ∧
    Runs action scanner token ((scanner.goTo read.cursor).report read.problems)

end Scanner

open Scanner

theorem Runs.value {α : Type} {action : Scanning α} {next : α → Scanning Token} {result : α}
    {read : Lexer.ReadValue} (runs : Runs action scanner result scanner)
    (reads : RunsValue (next result) scanner read) : RunsValue (action >>= next) scanner read := by
  obtain ⟨token, found, later⟩ := reads
  exact ⟨token, found, runs.bind later⟩

theorem Runs.valueBehind {α : Type} {action : Scanning α} {next : α → Scanning Token} {result : α}
    {cursor : Cursor} {read : Lexer.ReadValue}
    (moves : Runs action scanner result (scanner.goTo cursor))
    (reads : RunsValue (next result) (scanner.goTo cursor) read) :
    RunsValue (action >>= next) scanner read := by
  obtain ⟨token, found, runs⟩ := reads
  exact ⟨token, found, moves.bind runs⟩

namespace Scanner

theorem runs_afterQuotedValue (raw : List Char) (span : Span) :
    RunsValue (afterQuotedValue raw span) scanner
      (Lexer.afterQuotedValue ⟨attributeValue raw, span⟩ scanner.cursor) := by
  refine ⟨⟨attributeValue raw, span⟩, ?_, ?_⟩
  · unfold Lexer.afterQuotedValue
    split
    · rfl
    · split
      · rfl
      · rfl
  · refine runs_place.bind (runs_atTagEnd.bind ((runs_startsWith "/").bind ?_))
    unfold Lexer.afterQuotedValue
    split
    · next closing =>
      rw [Lexer.startsWith, rest_cursor, if_pos closing, report_nil, goTo_cursor]
      exact runs_pure _
    · next going =>
      rw [Lexer.startsWith, rest_cursor, if_neg going]
      refine runs_skipBlanks.bind ((runs_emitIf _ _ _).bind ?_)
      by_cases same : (Lexer.skipBlanks scanner.cursor).rest.length = scanner.cursor.rest.length
      · simp only [skipBlanks_eq_self same, rest_cursor, ne_eq, not_true_eq_false, decide_false,
          Bool.not_false, if_true, goTo_cursor, position_cursor]
        exact runs_pure _
      · simp only [rest_cursor] at same
        simp only [same, ne_eq, not_false_eq_true, decide_true, Bool.not_true,
          Bool.false_eq_true, if_false]
        exact runs_pure _

theorem valueToken_eq (cursor : Cursor) (length : Nat) :
    Lexer.valueToken cursor length =
      ⟨attributeValue (cursor.rest.take length), cursor.position, (cursor.advance length).position⟩ :=
  rfl

theorem runs_scanQuotedValue {quote : Char} (starts : scanner.source.head? = some quote)
    (single : quote.utf8Size = 1) :
    RunsValue (scanQuotedValue quote) scanner (Lexer.quotedValue quote scanner.cursor) := by
  obtain ⟨rest, whole⟩ := List.head?_eq_some_iff.1 starts
  have opened := @runs_moveBy scanner 1 1 (by simp [whole, single])
  have quoted := @runs_assert _ scanner (decide (scanner.source.head? = some quote)) (by simp [starts])
  refine runs_get.value (quoted.value (opened.valueBehind (runs_place.value (runs_get.value ?_))))
  unfold Lexer.quotedValue
  dsimp only
  generalize scanner.cursor.advance 1 = inside
  cases found : find? [quote] inside.rest with
  | some length =>
    have index : findByte? [quote] (scanner.goTo inside).source =
        some (byteLength (inside.rest.take length)) := by
      rw [findByte?, goTo, found]
      rfl
    have closed : (inside.rest.drop length).take 1 = [quote] := by
      obtain ⟨back, closes⟩ := prefix_drop_of_find? found
      rw [← closes]
      rfl
    rw [index]
    dsimp only
    rw [valueToken_eq, ← Cursor.advance_advance]
    have read := @runs_moveBy (scanner.goTo inside) length _ rfl
    have closing := @runs_moveBy (scanner.goTo (inside.advance length)) 1 1
      (by rw [goTo, Cursor.rest_advance, closed]; simp [single])
    exact read.valueBehind (runs_place.value (closing.valueBehind (runs_afterQuotedValue _ _)))
  | none =>
    have index : findByte? [quote] (scanner.goTo inside).source = none :=
      findByte?_eq_none.2 found
    rw [index]
    dsimp only
    rw [valueToken_eq, List.take_length]
    refine runs_moveToEnd.valueBehind (runs_place.value ?_)
    rw [goTo_goTo, cursor_goTo]
    exact runs_afterQuotedValue _ _

theorem runs_scanUnquotedValue :
    RunsValue scanUnquotedValue scanner (Lexer.unquotedValue scanner.cursor) := by
  refine ⟨_, rfl, runs_place.bind ((runs_moveWhile _).bind ((runs_emitIf _ _ _).bind ?_))⟩
  unfold Lexer.unquotedValue
  dsimp only
  rw [valueToken_eq, rest_cursor, take_length_takeWhile]
  exact runs_token _ _

theorem RunsValue.bindSome {action : Scanning Token} {read : Lexer.ReadValue}
    (reads : RunsValue action scanner read) :
    Runs (do return some (← action)) scanner read.token
      ((scanner.goTo read.cursor).report read.problems) := by
  obtain ⟨token, found, runs⟩ := reads
  rw [found]
  exact runs.bind (runs_pure _)

/-- The value behind an equals sign, if there is one. -/
theorem runs_scanValue :
    Runs scanValue scanner (Lexer.attributeValue (Lexer.skipBlanks scanner.cursor)).token
      ((scanner.goTo (Lexer.attributeValue (Lexer.skipBlanks scanner.cursor)).cursor).report
        (Lexer.attributeValue (Lexer.skipBlanks scanner.cursor)).problems) := by
  refine runs_skipBlanks.bind ?_
  generalize Lexer.skipBlanks scanner.cursor = here
  refine runs_place.bind ((runs_startsWith ">").bind (runs_atEnd.bind ?_))
  unfold Lexer.attributeValue
  cases starts : here.rest with
  | nil =>
    have source : (scanner.goTo here).source = [] := starts
    rw [source, if_pos (by rfl)]
    exact (runs_emit _ _).bind (runs_pure _)
  | cons c rest =>
    have source : (scanner.goTo here).source = c :: rest := starts
    have first : (scanner.goTo here).source.head? = some c := by rw [source]; rfl
    rw [source]
    dsimp only
    by_cases closes : c = '>'
    · rw [if_pos (by simp [closes, List.isPrefixOf]), if_pos closes]
      exact (runs_emit _ _).bind (runs_pure _)
    · rw [if_neg (by simp [Ne.symm closes, List.isPrefixOf]), if_neg closes]
      refine (runs_startsWith "\"").bind ?_
      rw [source]
      by_cases double : c = '"'
      · rw [if_pos (by simp [double, List.isPrefixOf]), if_pos (by simp [double]), double]
        exact (runs_scanQuotedValue (by rw [first, double]) (by decide)).bindSome
      · rw [if_neg (by simp [Ne.symm double, List.isPrefixOf])]
        refine (runs_startsWith "'").bind ?_
        rw [source]
        by_cases simple : c = '\''
        · rw [if_pos (by simp [simple, List.isPrefixOf]), if_pos (by simp [simple]), simple]
          exact (runs_scanQuotedValue (by rw [first, simple]) (by decide)).bindSome
        · rw [if_neg (by simp [Ne.symm simple, List.isPrefixOf]), if_neg (by simp [double, simple])]
          exact runs_scanUnquotedValue.bindSome

def behindAttribute (scanner : Scanner) (read : Lexer.ReadAttribute) : Scanner :=
  { (scanner.goTo read.cursor).report read.problems with pending? := read.value }

theorem runs_scanAttribute {c : Char} {rest : List Char} (starts : scanner.source = c :: rest)
    (part : isNameChar c = true) (free : scanner.pending? = none) :
    Runs scanAttribute scanner (Lexer.readAttribute scanner.cursor).name
      (scanner.behindAttribute (Lexer.readAttribute scanner.cursor)) := by
  have more := @runs_assert _ scanner (!scanner.source.isEmpty) (by simp [starts])
  refine runs_atEnd.bind (more.bind (runs_place.bind ((runs_scanAttributeName starts part).bind ?_)))
  unfold Lexer.readAttribute
  dsimp only
  rw [rest_cursor, position_cursor]
  generalize scanner.cursor.peek (attributeNameLength scanner.source) = name
  generalize scanner.cursor.advance (attributeNameLength scanner.source) = behind
  refine (runs_token _ _).bind (runs_skipBlanks.bind ((runs_startsWith "=").bind ?_))
  rw [cursor_report, cursor_goTo, goTo_report, goTo_goTo]
  generalize attributeNameProblems name scanner.position behind = found
  generalize Lexer.skipBlanks behind = next
  split
  · next equals =>
    obtain ⟨back, whole⟩ := List.isPrefixOf_iff_prefix.1 equals
    have source : next.rest = '=' :: back := whole.symm
    refine (runs_moveOver equals rfl).bind (runs_scanValue.bind ((runs_modify _).bind ?_))
    have length : "=".toList.length = 1 := rfl
    simp only [source, length, cursor_report, cursor_goTo, goTo_report, goTo_goTo, report_report]
    exact runs_pure _
  · next other =>
    split
    · next back source =>
      have source : ((scanner.goTo next).report found).source = '=' :: back := source
      rw [source] at other
      exact absurd rfl other
    · have held : (scanner.goTo next).report found =
          behindAttribute scanner ⟨⟨.attrName name, behind.spanFrom scanner.position⟩, none, found, next⟩ := by
        rw [behindAttribute, ← free]
        rfl
      rw [held]
      exact runs_pure _

theorem utf8Size_of_isAlpha {c : Char} (letter : c.isAlpha = true) : c.utf8Size = 1 := by
  rw [Char.utf8Size_eq_one_iff, UInt32.le_iff_toNat_le]
  unfold Char.isAlpha Char.isUpper Char.isLower at letter
  simp only [Bool.or_eq_true, Bool.and_eq_true, decide_eq_true_eq, ge_iff_le,
    UInt32.le_iff_toNat_le] at letter
  rcases letter with ⟨-, upper⟩ | ⟨-, lower⟩
  · exact Nat.le_trans upper (by decide)
  · exact Nat.le_trans lower (by decide)

theorem runs_scanTagName {c : Char} {rest : List Char} (starts : scanner.source = c :: rest)
    (letter : c.isAlpha = true) :
    Runs scanTagName scanner (scanner.cursor.peek (Lexer.tagNameLength scanner.source))
      (scanner.goTo (scanner.cursor.advance (Lexer.tagNameLength scanner.source))) := by
  have first := @runs_assert _ scanner (atLetter scanner.source) (by simp [atLetter, starts, letter])
  have bytes : byteLength (scanner.source.take (Lexer.tagNameLength scanner.source)) =
      tagNameBytes scanner.source := by
    rw [Lexer.tagNameLength, take_length_takeWhile, starts, tagNameBytes, if_pos letter,
      List.takeWhile_cons_of_pos (isNameChar_of_isAlpha letter), byteLength_cons,
      utf8Size_of_isAlpha letter, Nat.add_comm]
  have some := @runs_assert _ scanner (decide (0 < tagNameBytes scanner.source))
    (by simp [starts, tagNameBytes, letter])
  exact runs_get.bind (first.bind (some.bind ((runs_moveBy _ bytes).bind (runs_pure _))))

def behindTagOpen (scanner : Scanner) (mode : Tag.TextMode) (name : String) (cursor : Cursor) :
    Scanner :=
  { scanner.goTo cursor with
    lastStartTag? := if mode = .data then scanner.lastStartTag? else some name
    inside? := some mode }

theorem runs_scanStartTag (textMode : String → Tag.TextMode) {c : Char} {rest : List Char}
    (starts : scanner.source = '<' :: c :: rest) (letter : c.isAlpha = true) :
    let named := scanner.cursor.advance 1
    let name := named.peek (Lexer.tagNameLength named.rest)
    let behind := named.advance (Lexer.tagNameLength named.rest)
    Runs (scanStartTag textMode) scanner ⟨.tagOpen name, behind.spanFrom scanner.position⟩
      (scanner.behindTagOpen (textMode name) name behind) := by
  have angle : "<".toList.isPrefixOf scanner.source = true := by simp [starts]
  have source : (scanner.goTo (scanner.cursor.advance 1)).source = c :: rest := by
    simp [goTo, starts]
  refine (runs_startsWith "<").bind ((runs_assert angle).bind (runs_place.bind ?_))
  refine (runs_moveOver angle rfl).bind ((runs_scanTagName source letter).bind ?_)
  exact (runs_modify _).bind (runs_token _ _)

theorem runs_skipSolidus (more : scanner.source ≠ []) :
    Runs skipSolidus scanner (Lexer.startsWith "/" scanner.cursor)
      (if Lexer.startsWith "/" scanner.cursor then
        (scanner.goTo (scanner.cursor.advance 1)).report
          [Lexer.problem .unexpectedSolidusInTag scanner.position (scanner.cursor.advance 1)]
        else scanner) := by
  have some := @runs_assert _ scanner (!scanner.source.isEmpty) (by simp [more])
  refine runs_atEnd.bind (some.bind ((runs_startsWith "/").bind ?_))
  rw [Lexer.startsWith, rest_cursor]
  split
  · next solidus =>
    rw [solidus]
    exact runs_place.bind ((runs_moveOver solidus rfl).bind ((runs_emit _ _).bind (runs_pure true)))
  · next other =>
    rw [Bool.eq_false_iff.2 other]
    exact runs_pure false

def behindTagEnd (scanner : Scanner) (mode : Tag.TextMode) (problems : List Problem)
    (cursor : Cursor) : Scanner :=
  { scanner.goTo cursor with mode, inside? := none, problems }

/-- What the next token inside of a start tag is, if `rest` is what the tag still has: the end of the
tag, or a name whose value is held back. -/
inductive InTag (mode : Tag.TextMode) (scanner : Scanner) (rest : Lexer.StartTagRest) : Prop where
  | ends {pull : Pull} (whole : rest.pulls = [pull])
      (runs : Runs (scanInTag mode) scanner pull.token
        (scanner.behindTagEnd (if rest.opened then mode else scanner.mode) pull.problems rest.cursor))
  | names {pull : Pull} {value : Option Token} {cursor : Cursor} {later : Lexer.StartTagRest}
      (onward : later = Lexer.startTagRest [] (Lexer.skipBlanks cursor))
      (whole : rest =
        { later with pulls := pull :: value.toList.map ({ token := · }) ++ later.pulls })
      (runs : Runs (scanInTag mode) scanner pull.token
        { scanner.goTo cursor with problems := pull.problems, pending? := value })

theorem runs_scanTagEnd_eof (mode : Tag.TextMode) (ended : scanner.source = []) :
    Runs (scanTagEnd? mode) scanner (some ⟨.tagEnd false, scanner.cursor.spanFrom scanner.position⟩)
      (scanner.behindTagEnd scanner.mode
        (scanner.problems ++ [Lexer.problem .eofInTag scanner.position scanner.cursor])
        scanner.cursor) := by
  refine runs_place.bind (runs_atEnd.bind ?_)
  rw [if_pos (by rw [ended]; rfl)]
  exact (runs_emit _ _).bind (((runs_modify _).bind (runs_token _ _)).bind (runs_pure _))

theorem runs_scanTagEnd_closed (mode : Tag.TextMode) (more : scanner.source ≠ [])
    (closed : Lexer.startsWith "/>" scanner.cursor = true) :
    Runs (scanTagEnd? mode) scanner
      (some ⟨.tagEnd true, (scanner.cursor.advance 2).spanFrom scanner.position⟩)
      (scanner.behindTagEnd scanner.mode scanner.problems (scanner.cursor.advance 2)) := by
  refine runs_place.bind (runs_atEnd.bind ?_)
  rw [if_neg (by simpa using more)]
  refine (runs_startsAt "/>").bind ?_
  rw [if_pos closed]
  exact (runs_moveOverText closed rfl).bind
    (((runs_modify _).bind (runs_token _ _)).bind (runs_pure _))

theorem runs_scanTagEnd_opened (mode : Tag.TextMode) (more : scanner.source ≠ [])
    (unclosed : ¬Lexer.startsWith "/>" scanner.cursor = true)
    (opened : Lexer.startsWith ">" scanner.cursor = true) :
    Runs (scanTagEnd? mode) scanner
      (some ⟨.tagEnd false, (scanner.cursor.advance 1).spanFrom scanner.position⟩)
      (scanner.behindTagEnd mode scanner.problems (scanner.cursor.advance 1)) := by
  refine runs_place.bind (runs_atEnd.bind ?_)
  rw [if_neg (by simpa using more)]
  refine (runs_startsAt "/>").bind ?_
  rw [if_neg unclosed]
  refine (runs_startsAt ">").bind ?_
  rw [if_pos opened]
  exact (runs_moveOverText opened rfl).bind
    ((runs_modify _).bind (((runs_modify _).bind (runs_token _ _)).bind (runs_pure _)))

theorem runs_scanTagEnd_none (mode : Tag.TextMode) (more : scanner.source ≠ [])
    (unclosed : ¬Lexer.startsWith "/>" scanner.cursor = true)
    (unopened : ¬Lexer.startsWith ">" scanner.cursor = true) :
    Runs (scanTagEnd? mode) scanner none scanner := by
  refine runs_place.bind (runs_atEnd.bind ?_)
  rw [if_neg (by simpa using more)]
  refine (runs_startsAt "/>").bind ?_
  rw [if_neg unclosed]
  refine (runs_startsAt ">").bind ?_
  rw [if_neg unopened]
  exact runs_pure none

theorem runs_scanInTag_end {mode : Tag.TextMode} {token : Token}
    (ends : Runs (scanTagEnd? mode) (scanner.goTo (Lexer.skipBlanks scanner.cursor)) (some token)
      after) : Runs (scanInTag mode) scanner token after :=
  runs_repeatM_inr (runs_skipBlanks.bind (ends.bind (runs_pure _)))

/-- What begins no end and no blank begins a name. -/
theorem isNameChar_of_plain {cursor : Cursor} {c : Char} {rest : List Char}
    (starts : (Lexer.skipBlanks cursor).rest = c :: rest)
    (unopened : ¬Lexer.startsWith ">" (Lexer.skipBlanks cursor) = true)
    (plain : ¬Lexer.startsWith "/" (Lexer.skipBlanks cursor) = true) : isNameChar c = true := by
  have other : c ≠ '>' := by
    rintro rfl
    exact unopened (by rw [Lexer.startsWith, starts]; rfl)
  have unslashed : c ≠ '/' := by
    rintro rfl
    exact plain (by rw [Lexer.startsWith, starts]; rfl)
  have solid : isBlank c = false := by
    rw [Lexer.rest_skipBlanks] at starts
    have head := List.head?_dropWhile_not isBlank cursor.rest
    rw [starts] at head
    simpa using head
  simp [isNameChar, solid, other, unslashed]

theorem inTag (mode : Tag.TextMode) (free : scanner.pending? = none) :
    InTag mode scanner
      (Lexer.startTagRest scanner.problems (Lexer.skipBlanks scanner.cursor)) := by
  generalize pending : scanner.problems = problems
  generalize here : Lexer.skipBlanks scanner.cursor = cursor
  fun_induction Lexer.startTagRest problems cursor generalizing scanner with
  | case1 problems cursor start ended =>
    refine .ends rfl (runs_scanInTag_end ?_)
    rw [here, ← pending]
    exact runs_scanTagEnd_eof mode ended
  | case2 problems cursor start more =>
    rename_i closed
    refine .ends rfl (runs_scanInTag_end ?_)
    rw [here, ← pending]
    exact runs_scanTagEnd_closed mode more closed
  | case3 problems cursor start more unclosed =>
    rename_i opened
    refine .ends rfl (runs_scanInTag_end ?_)
    rw [here, ← pending]
    exact runs_scanTagEnd_opened mode more unclosed opened
  | case4 problems cursor start more unclosed unopened =>
    rename_i solidus ih
    let behind := (scanner.goTo (cursor.advance 1)).report
      [Lexer.problem .unexpectedSolidusInTag start (cursor.advance 1)]
    have onward : (scanInTag mode).run scanner = (scanInTag mode).run behind := by
      have going := @runs_scanTagEnd_none (scanner.goTo cursor) mode more unclosed unopened
      have slashed := @runs_skipSolidus (scanner.goTo cursor) more
      rw [cursor_goTo, if_pos solidus, solidus, goTo_goTo] at slashed
      refine run_repeatM_inl (runs_skipBlanks.bind ?_)
      rw [here]
      exact going.bind (slashed.bind (runs_pure _))
    cases @ih behind free (by rw [← pending]; rfl) rfl with
    | ends whole runs => exact .ends whole (onward.trans runs)
    | names later whole runs => exact .names later whole (onward.trans runs)
  | case5 problems cursor more unclosed unopened plain rest value =>
    refine .names rfl rfl ?_
    obtain ⟨c, back, starts⟩ := List.exists_cons_of_ne_nil more
    have part := isNameChar_of_plain (here ▸ starts) (here ▸ unopened) (here ▸ plain)
    have going := @runs_scanTagEnd_none (scanner.goTo cursor) mode more unclosed unopened
    have unslashed := @runs_skipSolidus (scanner.goTo cursor) more
    rw [cursor_goTo, if_neg plain, Bool.eq_false_iff.2 plain] at unslashed
    have named := @runs_scanAttribute (scanner.goTo cursor) c back starts part free
    refine runs_repeatM_inr (runs_skipBlanks.bind ?_)
    rw [here, ← pending]
    exact going.bind (unslashed.bind (named.bind (runs_pure _)))

theorem runs_dropAttributes (dropped : Bool) (free : scanner.pending? = none) :
    Runs (dropAttributes dropped) scanner
      (dropped || (Lexer.endTagRest (Lexer.skipBlanks scanner.cursor)).attributes)
      ((scanner.goTo (Lexer.endTagRest (Lexer.skipBlanks scanner.cursor)).cursor).report
        (Lexer.endTagRest (Lexer.skipBlanks scanner.cursor)).problems) := by
  generalize here : Lexer.skipBlanks scanner.cursor = cursor
  fun_induction Lexer.endTagRest cursor generalizing scanner dropped with
  | case1 cursor ended =>
    refine runs_repeatM_inr (runs_skipBlanks.bind (runs_atTagEnd.bind ?_))
    rw [here, cursor_goTo, if_pos ended]
    simp only [Bool.or_false, report_nil]
    exact runs_pure _
  | case2 cursor going =>
    rename_i solidus rest found ih
    have slashed := @runs_skipSolidus (scanner.goTo cursor)
      (Lexer.rest_ne_nil_of_not_atTagEnd going)
    rw [cursor_goTo, if_pos solidus, solidus, goTo_goTo] at slashed
    have onward := @ih ((scanner.goTo (cursor.advance 1)).report [found]) dropped free rfl
    rw [goTo_report, goTo_goTo, report_report] at onward
    refine (run_repeatM_inl (runs_skipBlanks.bind (runs_atTagEnd.bind ?_))).trans onward
    rw [here, cursor_goTo, if_neg going]
    exact slashed.bind (runs_pure _)
  | case3 cursor going =>
    rename_i plain rest ih
    have more := Lexer.rest_ne_nil_of_not_atTagEnd going
    obtain ⟨c, back, starts⟩ := List.exists_cons_of_ne_nil more
    have unopened : ¬Lexer.startsWith ">" cursor = true := by
      intro opened
      simp [Lexer.atTagEnd, opened] at going
    have part := isNameChar_of_plain (here ▸ starts) (here ▸ unopened) (here ▸ plain)
    have unslashed := @runs_skipSolidus (scanner.goTo cursor) more
    rw [cursor_goTo, if_neg plain, Bool.eq_false_iff.2 plain] at unslashed
    have named := @runs_scanAttribute (scanner.goTo cursor) c back starts part free
    let read := Lexer.readAttribute cursor
    have onward := @ih ((scanner.goTo read.cursor).report read.problems) true free rfl
    rw [goTo_report, goTo_goTo, report_report, Bool.true_or] at onward
    have released : { behindAttribute (scanner.goTo cursor) read with pending? := none } =
        (scanner.goTo read.cursor).report read.problems := by
      rw [behindAttribute, ← free]
      rfl
    rw [cursor_goTo] at named
    rw [Bool.or_true]
    refine (run_repeatM_inl (runs_skipBlanks.bind (runs_atTagEnd.bind ?_))).trans onward
    rw [here, cursor_goTo, if_neg going, ← released]
    exact unslashed.bind (named.bind ((runs_modify _).bind (runs_pure _)))

def RunsPiece (action : Scanning Token) (scanner : Scanner) (piece : Lexer.Piece) : Prop :=
  ∃ token problems cursor, piece = .single token problems cursor ∧
    Runs action scanner token ((scanner.goTo cursor).report problems)

end Scanner

theorem Runs.piece {α : Type} {action : Scanning α} {next : α → Scanning Token} {result : α}
    {piece : Lexer.Piece} (runs : Runs action scanner result scanner)
    (reads : RunsPiece (next result) scanner piece) : RunsPiece (action >>= next) scanner piece := by
  obtain ⟨token, problems, cursor, found, later⟩ := reads
  exact ⟨token, problems, cursor, found, runs.bind later⟩

namespace Scanner

theorem atTagEnd_endTagRest (cursor : Cursor) :
    Lexer.atTagEnd (Lexer.endTagRest cursor).cursor = true := by
  fun_induction Lexer.endTagRest cursor with
  | case1 cursor ended => exact ended
  | case2 => assumption
  | case3 => assumption

theorem runs_closeEndTag (start : Position) (ends : Lexer.atTagEnd scanner.cursor = true) :
    Runs (closeEndTag start) scanner ()
      ((scanner.goTo (Lexer.closeEndTag start scanner.cursor).2).report
        (Lexer.closeEndTag start scanner.cursor).1) := by
  refine runs_atEnd.bind ?_
  unfold Lexer.closeEndTag
  split
  · next ended =>
    rw [if_pos (show scanner.cursor.atEnd = true from ended)]
    exact runs_emit _ _
  · next more =>
    rw [if_neg (show ¬scanner.cursor.atEnd = true from more)]
    refine (runs_startsAt "/>").bind ?_
    split
    · next closed =>
      exact (runs_emit _ _).bind
        (@runs_moveOverText (scanner.report _) "/>" closed 2 rfl).discard
    · next unclosed =>
      have opened : Lexer.startsWith ">" scanner.cursor = true := by
        have still : scanner.cursor.atEnd = false := Bool.eq_false_iff.2 more
        simpa [Lexer.atTagEnd, still, unclosed] using ends
      rw [report_nil]
      exact (runs_moveOverText opened rfl).discard

theorem runs_keepData (data : scanner.mode = .data) :
    Runs (modify fun scanner => { scanner with mode := .data }) scanner () scanner := by
  have same : { scanner with mode := .data } = scanner := by rw [← data]
  have runs := @runs_modify _ scanner fun scanner => { scanner with mode := .data }
  rwa [same] at runs

theorem runs_scanEndTag {c : Char} {rest : List Char}
    (starts : scanner.source = '<' :: '/' :: c :: rest) (letter : c.isAlpha = true)
    (data : scanner.mode = .data) (free : scanner.pending? = none) :
    RunsPiece scanEndTag scanner (Lexer.endTag scanner.cursor) := by
  have closing : Lexer.startsWith "</" scanner.cursor = true := by
    rw [Lexer.startsWith, rest_cursor, starts]
    rfl
  have source : (scanner.goTo (scanner.cursor.advance 2)).source = c :: rest := by
    simp [goTo, starts]
  let named := scanner.cursor.advance 2
  let behind := named.advance (Lexer.tagNameLength named.rest)
  let dropped := Lexer.endTagRest (Lexer.skipBlanks behind)
  have drops := @runs_dropAttributes (scanner.goTo behind) false free
  have closes := fun found => @runs_closeEndTag
    (((scanner.goTo dropped.cursor).report dropped.problems).report found) scanner.position
    (atTagEnd_endTagRest (Lexer.skipBlanks behind))
  refine ⟨_, _, _, rfl, ?_⟩
  refine (runs_startsAt "</").bind ((runs_assert closing).bind (runs_place.bind ?_))
  refine (runs_moveOverText closing rfl).bind ((runs_scanTagName source letter).bind ?_)
  rw [Bool.false_or] at drops
  refine drops.bind ((runs_emitIf _ _ _).bind ((closes _).bind
    ((runs_keepData (by exact data)).bind ?_)))
  simp only [goTo_report, goTo_goTo, report_report, cursor_report, cursor_goTo]
  exact runs_token _ _

end Scanner

end TemplateCompiler
