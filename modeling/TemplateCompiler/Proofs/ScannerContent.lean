import TemplateCompiler.Proofs.ScannerTags

/-! What a scanner reads where elements are read: texts, interpolations, comments and tags. -/

namespace TemplateCompiler

open Text

theorem Text.byteLength_take_found {pattern text : List Char} {count : Nat}
    (found : find? pattern text = some count) :
    byteLength (text.take (count + pattern.length)) =
      byteLength (text.take count) + byteLength pattern := by
  obtain ⟨back, behind⟩ := prefix_drop_of_find? found
  rw [List.take_add, ← behind, List.take_left, byteLength_append]

variable {scanner after : Scanner}

namespace Scanner

theorem runs_scanNested (length : Nat) :
    Runs (scanNested (scanner.source.take length)) scanner ()
      ((scanner.goTo (Lexer.nestedComments length scanner.cursor).2).report
        (Lexer.nestedComments length scanner.cursor).1) := by
  generalize here : scanner.cursor = cursor
  have source : scanner.source = cursor.rest := by rw [← here]; rfl
  rw [source]
  fun_induction Lexer.nestedComments length cursor generalizing scanner with
  | case1 length cursor none =>
    have index : findByte? "<!--".toList (cursor.rest.take length) = Option.none :=
      findByte?_eq_none.2 none
    have last : Runs (nestedStep (cursor.rest.take length)) scanner
        (.inr (cursor.rest.take length)) scanner := by
      rw [nestedStep, index]
      exact runs_pure _
    rw [report_nil]
    refine (runs_repeatM_inr last).bind ?_
    split
    · next empty =>
      have still : cursor.advance length = cursor := by
        rw [List.isEmpty_iff] at empty
        have whole := cursor.rest.take_append_drop length
        rw [empty, List.nil_append] at whole
        simp [Cursor.advance, whole, empty]
      rw [still, ← here, goTo_cursor]
      exact runs_pure ()
    · rw [← here] at source ⊢
      exact (runs_moveBy length (by rw [source])).discard
  | case2 length cursor index =>
    rename_i found after problems rest ih
    let text := cursor.rest.take length
    have four : "<!--".toList.length = 4 := rfl
    have counted : byteLength (text.take (index + 4)) = byteLength (text.take index) + 4 :=
      byteLength_take_found found
    have onward : sliceFrom text (byteLength (text.take index) + 4) =
        .ok (after.rest.take (length - (index + 4))) := by
      rw [← counted, sliceFrom_take, List.drop_take]
      rfl
    have bytes : byteLength (scanner.source.take (index + 4)) = byteLength (text.take index) + 4 := by
      have fits := find?_length_le found
      rw [List.length_take, four] at fits
      rw [← counted, List.take_take, Nat.min_eq_left (by omega), source]
    have place : findByte? "<!--".toList text = some (byteLength (text.take index)) := by
      rw [findByte?, found]
      rfl
    have moves := runs_moveBy (index + 4) bytes
    have nested := @ih ((scanner.goTo after).report problems) rfl rfl
    rw [here] at moves
    rw [goTo_report, goTo_goTo, report_report] at nested
    refine Eq.trans ?_ nested
    refine run_bind_congr (run_repeatM_inl ?_) _
    rw [nestedStep, place]
    refine runs_place.bind (moves.bind (runs_atEnd.bind ((runs_emitIf _ _ _).bind ?_)))
    refine (runs_fallible onward).bind ?_
    have reported : (if !(scanner.goTo after).source.isEmpty then
        [Lexer.problem .nestedComment scanner.position (scanner.goTo after).cursor] else []) =
          problems := by
      have position : scanner.position = cursor.position := by rw [← here]; rfl
      cases ended : after.rest.isEmpty
      · simp [problems, Cursor.atEnd, ended, position]
      · simp [problems, Cursor.atEnd, ended]
    rw [reported]
    exact runs_pure _

/-- The bytes in front of `count` characters, behind `<!--`. -/
theorem byteLength_take_comment (back : List Char) (count : Nat) :
    byteLength (("<!--".toList ++ back).take count) =
      min count 4 + byteLength (back.take (count - 4)) := by
  have four : byteLength ("<!--".toList.take count) = min count 4 := by
    match count with
    | 0 | 1 | 2 | 3 => rfl
    | count + 4 =>
      rw [List.take_of_length_le (by simp), Nat.min_eq_right (by omega)]
      rfl
  rw [List.take_append, byteLength_append, four]
  rfl

/-- No end of a comment begins in its `<!`. -/
theorem two_le_of_find? {pattern back : List Char} {count : Nat}
    (found : find? ('-' :: pattern) ("<!--".toList ++ back) = some count) : 2 ≤ count := by
  have behind : "<!--".toList ++ back = '<' :: '!' :: '-' :: '-' :: back := rfl
  rw [behind, find?, if_neg (by simp [List.isPrefixOf]), find?,
    if_neg (by simp [List.isPrefixOf])] at found
  obtain ⟨first, inner, rfl⟩ := Option.map_eq_some_iff.1 found
  obtain ⟨second, -, rfl⟩ := Option.map_eq_some_iff.1 inner
  omega

theorem runs_scanCommentText (opened : Lexer.startsWith "<!--" scanner.cursor = true) :
    Runs scanCommentText scanner (Lexer.commentText scanner.cursor).text.toList
      ((scanner.goTo (Lexer.commentText scanner.cursor).cursor).report
        (Lexer.commentText scanner.cursor).problems) := by
  obtain ⟨back, whole⟩ := List.isPrefixOf_iff_prefix.1 opened
  have source : scanner.source = "<!--".toList ++ back := whole.symm
  have inside : (scanner.goTo (scanner.cursor.advance 4)).source = back := by
    rw [source_goTo, Cursor.advance, rest_cursor, source]
    rfl
  have moved := @runs_moveOverText scanner "<!--" opened 4 rfl
  refine (runs_startsAt "<!--").bind ((runs_assert opened).bind (runs_place.bind ?_))
  refine runs_get.bind ?_
  have bytes : (findByte? "--!>".toList scanner.source).or (findByte? "-->".toList scanner.source) =
      ((find? "--!>".toList scanner.source).or (find? "-->".toList scanner.source)).map
        fun count => byteLength (scanner.source.take count) := by
    rw [findByte?, findByte?, Option.map_or]
  unfold Lexer.commentText
  dsimp only
  rw [bytes, rest_cursor]
  cases found : (find? "--!>".toList scanner.source).or (find? "-->".toList scanner.source) with
  | none =>
    have nested := @runs_scanNested (scanner.goTo (scanner.cursor.advance 4)) back.length
    have rest : (scanner.cursor.advance 4).rest = back := inside
    rw [inside, List.take_length, cursor_goTo] at nested
    dsimp only [Option.map_none]
    rw [rest, String.toList_ofList]
    refine moved.bind (runs_get.bind ?_)
    rw [source_goTo, show "<!--".toList.length = 4 from rfl, rest]
    exact nested.bind (runs_pure _)
  | some count =>
    have enough : 2 ≤ count := by
      rw [source] at found
      rcases Option.or_eq_some_iff.1 found with wrong | ⟨-, right⟩
      · exact two_le_of_find? wrong
      · exact two_le_of_find? right
    have stop : byteLength (scanner.source.take count) =
        min count 4 + byteLength (back.take (count - 4)) := by
      rw [source, byteLength_take_comment]
    dsimp only [Option.map_some]
    refine (runs_assert (by rw [decide_eq_true_eq, stop]; omega)).bind ?_
    by_cases short : count ≤ 3
    · have few : byteLength (scanner.source.take count) ≤ 3 := by
        rw [stop, Nat.sub_eq_zero_of_le (by omega), List.take_zero, byteLength_nil]
        omega
      rw [if_pos few, if_pos short]
      refine (runs_emit _ _).bind ((@runs_moveBy (scanner.report _) 2 2 ?_).bind (runs_pure _))
      show byteLength (scanner.source.take 2) = 2
      rw [source]
      rfl
    · have many : ¬byteLength (scanner.source.take count) ≤ 3 := by
        rw [stop]
        omega
      have nested := @runs_scanNested (scanner.goTo (scanner.cursor.advance 4)) (count - 4)
      rw [inside, cursor_goTo] at nested
      have slices : ((less (byteLength (scanner.source.take count)) 4).bind (sliceTo back)) =
          .ok (back.take (count - 4)) := by
        rw [less, if_pos (by omega), stop, Nat.min_eq_right (by omega), Nat.add_sub_cancel_left]
        exact sliceTo_take back (count - 4)
      rw [if_neg many, if_neg short]
      refine moved.bind (runs_get.bind ?_)
      rw [show "<!--".toList.length = 4 from rfl, inside]
      refine (runs_fallible slices).bind (nested.bind ?_)
      have peeked : ((scanner.cursor.advance 4).peek (count - 4)).toList = back.take (count - 4) := by
        rw [Cursor.peek, String.toList_ofList]
        exact congrArg (List.take (count - 4)) inside
      dsimp only
      rw [peeked]
      exact runs_pure _

theorem runs_pastAngle :
    ∃ text, Runs
      (moveBy (((findByte? ['>'] scanner.source).map (· + 1)).getD (byteLength scanner.source)))
      scanner text (scanner.goTo (Lexer.pastAngle scanner.cursor)) := by
  unfold Lexer.pastAngle
  cases found : find? ['>'] scanner.source with
  | none =>
    rw [findByte?_eq_none.2 found]
    dsimp only [Option.map_none, Option.getD_none]
    rw [rest_cursor, found]
    refine ⟨_, runs_moveBy scanner.source.length ?_⟩
    rw [List.take_length]
  | some count =>
    have bytes := byteLength_take_found found
    rw [findByte?, found, rest_cursor, found]
    exact ⟨_, runs_moveBy (count + 1) bytes⟩

theorem runs_closeComment (start : Position) :
    Runs (closeComment start) scanner ()
      ((scanner.goTo (Lexer.closeComment start scanner.cursor).2).report
        (Lexer.closeComment start scanner.cursor).1) := by
  refine runs_atEnd.bind ?_
  unfold Lexer.closeComment
  split
  · next ended =>
    rw [if_pos (show scanner.cursor.atEnd = true from ended)]
    exact runs_emit _ _
  · next more =>
    rw [if_neg (show ¬scanner.cursor.atEnd = true from more)]
    refine (runs_startsAt "--!>").bind ?_
    split
    · next wrong =>
      exact (runs_emit _ _).bind
        (@runs_moveOverText (scanner.report _) "--!>" wrong 4 rfl).discard
    · refine (runs_startsAt "-->").bind ?_
      split
      · next right =>
        rw [report_nil]
        exact (runs_moveOverText right rfl).discard
      · obtain ⟨text, moves⟩ := @runs_pastAngle scanner
        rw [report_nil]
        exact runs_get.bind moves.discard

theorem runs_scanComment (opened : Lexer.startsWith "<!--" scanner.cursor = true) :
    RunsPiece scanComment scanner (Lexer.comment scanner.cursor) := by
  refine ⟨_, _, _, rfl, ?_⟩
  refine (runs_startsAt "<!--").bind ((runs_assert opened).bind (runs_place.bind ?_))
  refine (runs_scanCommentText opened).bind ((runs_closeComment _).bind ?_)
  rw [String.ofList_toList]
  simp only [goTo_report, goTo_goTo, report_report, cursor_report, cursor_goTo]
  exact runs_token _ _

/-- What is before the first `>`. -/
theorem takeWhile_ne_angle (text : List Char) :
    text.takeWhile (· != '>') =
      match find? ['>'] text with
      | some count => text.take count
      | none => text := by
  induction text with
  | nil => rfl
  | cons c rest ih =>
    rw [find?]
    by_cases angle : c = '>'
    · subst angle
      rw [if_pos (by simp)]
      rfl
    · rw [if_neg (by simp [Ne.symm angle]), List.takeWhile_cons_of_pos (by simp [angle]), ih]
      cases find? ['>'] rest with
      | none => rfl
      | some count => rfl

/-- A construct that is read as a comment begins with `<?`, `<!` or `</`, and no `>` follows
at once. -/
theorem runs_scanBogusComment {front back : List Char} (starts : scanner.source = front ++ back)
    (bytes : byteLength front = if "<?".toList.isPrefixOf scanner.source then 1 else 2)
    (unclosed : '>' ∉ front) :
    Runs scanBogusComment scanner
      ⟨.comment (String.ofList ((scanner.source.takeWhile (· != '>')).drop front.length)),
        (Lexer.pastAngle scanner.cursor).spanFrom scanner.position⟩
      (scanner.goTo (Lexer.pastAngle scanner.cursor)) := by
  refine runs_place.bind (runs_get.bind ?_)
  dsimp only
  rw [← bytes, takeWhile_ne_angle]
  unfold Lexer.pastAngle
  rw [rest_cursor]
  cases found : find? ['>'] scanner.source with
  | none =>
    have sliced : sliceFrom scanner.source (byteLength front) =
        .ok (scanner.source.drop front.length) := by
      rw [starts, sliceFrom_append, List.drop_left]
    rw [findByte?_eq_none.2 found]
    exact runs_moveToEnd.bind ((runs_fallible sliced).bind (runs_token _ _))
  | some count =>
    have behind : front.length ≤ count := by
      by_contra before
      obtain ⟨later, stands⟩ := prefix_drop_of_find? found
      rw [starts, List.drop_append_of_le_length (by omega)] at stands
      obtain ⟨c, rest, split⟩ := List.exists_cons_of_length_pos
        (show 0 < (front.drop count).length by rw [List.length_drop]; omega)
      rw [split] at stands
      have angle : '>' = c := (List.cons.inj stands).1
      exact unclosed (List.mem_of_mem_drop (i := count) (by rw [split, angle]; simp))
    have taken : scanner.source.take count = front ++ back.take (count - front.length) := by
      rw [starts, List.take_append, List.take_of_length_le behind]
    have sliced : slice scanner.source (byteLength front) (byteLength (scanner.source.take count)) =
        .ok ((scanner.source.take count).drop front.length) := by
      rw [slice, if_neg (by rw [taken, byteLength_append]; omega), sliceTo_take]
      show sliceFrom _ _ = _
      rw [taken, sliceFrom_append, List.drop_left]
    rw [findByte?, found]
    exact (runs_fallible sliced).bind
      ((runs_moveBy (count + 1) (byteLength_take_found found)).bind (runs_token _ _))

theorem runs_scanDeclaration {back : List Char} (starts : scanner.source = '<' :: '!' :: back) :
    RunsPiece scanDeclaration scanner (Lexer.declaration scanner.cursor) := by
  have bogus := fun problems => @runs_scanBogusComment (scanner.report problems) ['<', '!'] back
    starts (by rw [report, starts]; rfl) (by decide)
  refine runs_place.piece ((runs_startsAt "<!--").piece ?_)
  unfold Lexer.declaration
  dsimp only
  split
  · next opened => exact runs_scanComment opened
  · refine (runs_startsAt "<!DOCTYPE").piece ((runs_startsAt "<!doctype").piece ?_)
    split
    · next => 
      have plain := bogus []
      rw [report_nil] at plain
      exact ⟨_, _, _, rfl, by rw [report_nil]; exact plain⟩
    · refine (runs_startsAt "<![CDATA[").piece ?_
      split
      · exact ⟨_, _, _, rfl, (runs_emit _ _).bind (bogus _)⟩
      · exact ⟨_, _, _, rfl, (runs_emit _ _).bind (bogus _)⟩

/-! -/

theorem runs_scanText {count size : Nat} {decode : Bool}
    (bytes : byteLength (scanner.source.take count) = size)
    (mode : scanner.mode = .rawText ↔ decode = false) :
    RunsPiece (scanText size scanner.position) scanner
      (Lexer.textPiece decode count scanner.cursor) := by
  refine ⟨_, _, _, rfl, ?_⟩
  refine (runs_moveBy count bytes).bind ((runs_emitIf _ _ _).bind (runs_get.bind ?_))
  rw [Cursor.peek, String.toList_ofList, rest_cursor]
  cases decode with
  | false =>
    rw [if_pos (show ((scanner.goTo _).report _).mode = .rawText from mode.2 rfl),
      if_neg Bool.false_ne_true]
    exact runs_token _ _
  | true =>
    rw [if_neg (show ¬((scanner.goTo _).report _).mode = .rawText from fun raw =>
        Bool.false_ne_true (mode.1 raw).symm), if_pos rfl]
    exact runs_token _ _

theorem runs_scanInterpolation {delimiters : Delimiters}
    (opened : Lexer.startsWith delimiters.opening scanner.cursor = true) :
    RunsPiece (scanInterpolation delimiters) scanner
      (Lexer.interpolation delimiters scanner.cursor) := by
  refine runs_place.piece ((runs_startsAt delimiters.opening).piece ((runs_assert opened).piece ?_))
  have moved := runs_moveOverText opened rfl
  unfold Lexer.interpolation
  dsimp only
  generalize scanner.cursor.advance delimiters.opening.toList.length = inside at moved ⊢
  cases found : find? delimiters.closing.toList inside.rest with
  | some length =>
    have index : findByte? delimiters.closing.toList (scanner.goTo inside).source =
        some (byteLength (inside.rest.take length)) := by
      rw [findByte?, source_goTo, found]
      rfl
    have closing : Lexer.startsWith delimiters.closing (inside.advance length) = true :=
      List.isPrefixOf_iff_prefix.2 (prefix_drop_of_find? found)
    have read := @runs_moveBy (scanner.goTo inside) length _ rfl
    have closes := @runs_moveOverText (scanner.goTo (inside.advance length)) _ closing _ rfl
    refine ⟨_, _, _, rfl, moved.bind (runs_get.bind ?_)⟩
    rw [index, report_nil, ← Cursor.advance_advance]
    exact read.bind (closes.bind (runs_token _ _))
  | none =>
    have index : findByte? delimiters.closing.toList (scanner.goTo inside).source = none :=
      findByte?_eq_none.2 found
    refine ⟨_, _, _, rfl, moved.bind (runs_get.bind ?_)⟩
    rw [index]
    exact runs_moveToEnd.bind ((runs_emit _ _).bind (runs_token _ _))

inductive RunsContent (textMode : String → Tag.TextMode) (action : Scanning (Option Token))
    (scanner : Scanner) (piece : Lexer.Piece) : Prop where
  | single {token : Token} {problems : List Problem} {cursor : Cursor}
      (whole : piece = .single token problems cursor)
      (runs : Runs action scanner (some token) ((scanner.goTo cursor).report problems))
  | nothing {problems : List Problem} {cursor : Cursor} (whole : piece = { problems, cursor })
      (runs : Runs action scanner none ((scanner.goTo cursor).report problems))
  | startTag {name : String} {behind : Cursor} (named : name = (scanner.cursor.advance 1).peek
        (Lexer.tagNameLength (scanner.cursor.advance 1).rest))
      (onward : behind = (scanner.cursor.advance 1).advance
        (Lexer.tagNameLength (scanner.cursor.advance 1).rest))
      (whole : piece = Lexer.startTag scanner.cursor)
      (runs : Runs action scanner (some ⟨.tagOpen name, behind.spanFrom scanner.position⟩)
        (scanner.behindTagOpen (textMode name) name behind))

end Scanner

open Scanner

theorem Runs.content {α : Type} {action : Scanning α} {next : α → Scanning (Option Token)}
    {result : α} {textMode : String → Tag.TextMode} {piece : Lexer.Piece}
    (runs : Runs action scanner result scanner)
    (reads : RunsContent textMode (next result) scanner piece) :
    RunsContent textMode (action >>= next) scanner piece := by
  cases reads with
  | single whole later => exact .single whole (runs.bind later)
  | nothing whole later => exact .nothing whole (runs.bind later)
  | startTag named onward whole later => exact .startTag named onward whole (runs.bind later)

namespace Scanner

theorem RunsPiece.content {action : Scanning Token} {piece : Lexer.Piece}
    (textMode : String → Tag.TextMode) (reads : RunsPiece action scanner piece) :
    RunsContent textMode (do return some (← action)) scanner piece := by
  obtain ⟨token, problems, cursor, found, runs⟩ := reads
  exact .single found (runs.bind (runs_pure _))

theorem runs_scanStrayAngle {rest : List Char} (starts : scanner.source = '<' :: rest)
    (kind : ProblemKind) :
    RunsPiece (scanStrayAngle kind) scanner (Lexer.strayText kind 1 1 scanner.cursor) := by
  have angle : Lexer.startsWith "<" scanner.cursor = true := by
    rw [Lexer.startsWith, rest_cursor, starts]
    rfl
  have peeked : scanner.cursor.peek 1 = "<" := by
    rw [Cursor.peek, rest_cursor, starts]
    rfl
  refine ⟨_, _, _, rfl, runs_place.bind ((runs_moveOverText angle rfl).bind ?_)⟩
  rw [peeked]
  exact (runs_emit _ _).bind (runs_token _ _)

theorem byteLength_pos {text : List Char} (some : text ≠ []) : 0 < byteLength text := by
  obtain ⟨c, rest, rfl⟩ := List.exists_cons_of_ne_nil some
  have positive := c.utf8Size_pos
  rw [byteLength_cons]
  omega

theorem runs_scanEndTagOpen (textMode : String → Tag.TextMode) {back : List Char}
    (starts : scanner.source = '<' :: '/' :: back) (data : scanner.mode = .data)
    (free : scanner.pending? = none) :
    RunsContent textMode scanEndTagOpen scanner (Lexer.markup scanner.cursor) := by
  have closing : Lexer.startsWith "</" scanner.cursor = true := by
    rw [Lexer.startsWith, rest_cursor, starts]
    rfl
  have bytes : byteLength scanner.source = 2 + byteLength back := by
    rw [starts]
    exact byteLength_append ['<', '/'] back
  have behind : sliceFrom scanner.source 2 = .ok back := by
    rw [starts]
    exact sliceFrom_append ['<', '/'] back
  refine (runs_startsAt "</").content ((runs_assert closing).content ?_)
  refine runs_place.content (runs_get.content ?_)
  cases back with
  | nil =>
    have stray : Lexer.markup scanner.cursor = Lexer.strayText .eofBeforeTagName 2 0 scanner.cursor := by
      rw [Lexer.markup, rest_cursor, starts]
      rfl
    dsimp only
    rw [if_pos (show byteLength scanner.source = 2 from bytes), stray]
    have moved := fun found => @runs_moveOverText (scanner.report found) "</" closing 2 rfl
    have peeked : scanner.cursor.peek 2 = "</" := by
      rw [Cursor.peek, rest_cursor, starts]
      rfl
    rw [Lexer.strayText, peeked]
    exact .single rfl ((runs_emit _ _).bind ((moved _).bind ((runs_token _ _).bind (runs_pure _))))
  | cons c rest =>
    have more := byteLength_pos (List.cons_ne_nil c rest)
    dsimp only
    rw [if_neg (by omega)]
    refine (runs_startsWith "</>").content ?_
    by_cases angle : c = '>'
    · have nameless : Lexer.startsWith "</>" scanner.cursor = true := by
        rw [Lexer.startsWith, rest_cursor, starts, angle]
        rfl
      have dropped : Lexer.markup scanner.cursor =
          { problems := [Lexer.problem .missingEndTagName scanner.position scanner.cursor]
            cursor := scanner.cursor.advance 3 } := by
        rw [Lexer.markup, rest_cursor, starts, angle]
        rfl
      rw [if_pos (show "</>".toList.isPrefixOf scanner.source = true from nameless), dropped]
      exact .nothing rfl ((runs_emit _ _).bind
        ((@runs_moveOverText (scanner.report _) "</>" nameless 3 rfl).bind (runs_pure _)))
    · rw [if_neg (by simp [starts, Ne.symm angle, List.isPrefixOf])]
      refine (runs_fallible behind).content ?_
      by_cases letter : c.isAlpha = true
      · rw [if_pos (by simpa [atLetter] using letter), Lexer.markup_endTag letter starts]
        exact (runs_scanEndTag starts letter data free).content textMode
      · have bogus : Lexer.markup scanner.cursor = Lexer.bogusComment 2
            [Lexer.problem .invalidFirstCharacterOfTagName scanner.position scanner.cursor]
              scanner.cursor := by
          simp [Lexer.markup, starts, letter]
        rw [if_neg (by simpa [atLetter] using letter), bogus]
        have read := @runs_scanBogusComment
          (scanner.report [Lexer.problem .invalidFirstCharacterOfTagName scanner.position scanner.cursor])
          ['<', '/'] (c :: rest) starts (by rw [report, starts]; rfl) (by decide)
        exact .single rfl ((runs_emit _ _).bind (read.bind (runs_pure _)))

theorem runs_scanTagOpen (textMode : String → Tag.TextMode) {back : List Char}
    (starts : scanner.source = '<' :: back) (data : scanner.mode = .data)
    (free : scanner.pending? = none) :
    RunsContent textMode (scanTagOpen textMode) scanner (Lexer.markup scanner.cursor) := by
  refine runs_place.content (runs_get.content ((runs_startsWith "</").content ?_))
  have bytes : byteLength scanner.source = 1 + byteLength back := by
    rw [starts]
    exact byteLength_append ['<'] back
  have behind : sliceFrom scanner.source 1 = .ok back := by
    rw [starts]
    exact sliceFrom_append ['<'] back
  cases back with
  | nil =>
    have stray : Lexer.markup scanner.cursor = Lexer.strayText .eofBeforeTagName 1 1 scanner.cursor := by
      rw [Lexer.markup, rest_cursor, starts]
      rfl
    rw [if_neg (by simp [starts, List.isPrefixOf])]
    refine (runs_startsWith "<!").content ?_
    rw [if_neg (by simp [starts, List.isPrefixOf])]
    refine (runs_startsWith "<?").content ?_
    rw [if_neg (by simp [starts, List.isPrefixOf]),
      if_pos (show byteLength scanner.source = 1 from bytes), stray]
    exact (runs_scanStrayAngle starts _).content textMode
  | cons c rest =>
    have more := byteLength_pos (List.cons_ne_nil c rest)
    by_cases solidus : c = '/'
    · subst solidus
      rw [if_pos (by simp [starts, List.isPrefixOf])]
      exact runs_scanEndTagOpen textMode starts data free
    rw [if_neg (by simp [starts, List.isPrefixOf, Ne.symm solidus])]
    refine (runs_startsWith "<!").content ?_
    by_cases bang : c = '!'
    · subst bang
      have declares : Lexer.markup scanner.cursor = Lexer.declaration scanner.cursor := by
        rw [Lexer.markup, rest_cursor, starts]
        rfl
      rw [if_pos (by simp [starts, List.isPrefixOf]), declares]
      exact (runs_scanDeclaration starts).content textMode
    rw [if_neg (by simp [starts, List.isPrefixOf, Ne.symm bang])]
    refine (runs_startsWith "<?").content ?_
    by_cases question : c = '?'
    · subst question
      have bogus : Lexer.markup scanner.cursor = Lexer.bogusComment 1
          [Lexer.problem .unexpectedQuestionMarkInsteadOfTagName scanner.position scanner.cursor]
            scanner.cursor := by
        rw [Lexer.markup, rest_cursor, starts]
        rfl
      have read := @runs_scanBogusComment
        (scanner.report
          [Lexer.problem .unexpectedQuestionMarkInsteadOfTagName scanner.position scanner.cursor])
        ['<'] ('?' :: rest) starts (by rw [report, starts]; rfl) (by decide)
      rw [if_pos (by simp [starts, List.isPrefixOf]), bogus]
      exact .single rfl ((runs_emit _ _).bind (read.bind (runs_pure _)))
    rw [if_neg (by simp [starts, List.isPrefixOf, Ne.symm question]), if_neg (by omega)]
    refine (runs_fallible behind).content ?_
    by_cases letter : c.isAlpha = true
    · rw [if_pos (by simpa [atLetter] using letter), Lexer.markup_startTag letter starts]
      exact .startTag rfl rfl rfl ((runs_scanStartTag textMode starts letter).bind (runs_pure _))
    · have stray : Lexer.markup scanner.cursor =
          Lexer.strayText .invalidFirstCharacterOfTagName 1 1 scanner.cursor := by
        simp [Lexer.markup, starts, solidus, letter]
      rw [if_neg (by simpa [atLetter] using letter), stray]
      exact (runs_scanStrayAngle starts _).content textMode

theorem byteLength_take_le (text : List Char) {first second : Nat} (before : first ≤ second) :
    byteLength (text.take first) ≤ byteLength (text.take second) := by
  obtain ⟨more, rfl⟩ := Nat.exists_eq_add_of_le before
  rw [List.take_add, byteLength_append]
  exact Nat.le_add_right _ _

theorem byteLength_take_min (text : List Char) (first second : Nat) :
    min (byteLength (text.take first)) (byteLength (text.take second)) =
      byteLength (text.take (min first second)) := by
  rcases Nat.le_total first second with before | after
  · rw [Nat.min_eq_left before, Nat.min_eq_left (byteLength_take_le text before)]
  · rw [Nat.min_eq_right after, Nat.min_eq_right (byteLength_take_le text after)]

theorem plainBytes_eq (delimiters : Delimiters) (text : List Char) :
    (earlier (findByte? ['<'] text) (findByte? delimiters.opening.toList text)).getD
        (byteLength text) =
      byteLength (text.take (Lexer.plainLength delimiters text)) := by
  unfold Lexer.plainLength findByte?
  cases find? ['<'] text with
  | none =>
    cases find? delimiters.opening.toList text with
    | none => exact congrArg byteLength (List.take_length).symm
    | some mark => rfl
  | some tag =>
    cases find? delimiters.opening.toList text with
    | none => rfl
    | some mark => exact byteLength_take_min text tag mark

theorem byteLength_take_eq_zero {text : List Char} (more : text ≠ []) {count : Nat} :
    byteLength (text.take count) = 0 ↔ count = 0 := by
  constructor
  · intro empty
    by_contra some
    have positive : 0 < byteLength (text.take count) := byteLength_pos (by simp [more, some])
    omega
  · rintro rfl
    rfl

theorem find?_eq_zero_iff {pattern text : List Char} (more : text ≠ []) :
    find? pattern text = some 0 ↔ pattern.isPrefixOf text = true := by
  refine ⟨isPrefixOf_of_find?_zero, ?_⟩
  obtain ⟨c, rest, rfl⟩ := List.exists_cons_of_ne_nil more
  intro starts
  rw [find?, if_pos starts]

theorem findByte?_eq_zero_iff {pattern text : List Char} (more : text ≠ []) :
    findByte? pattern text = some 0 ↔ pattern.isPrefixOf text = true := by
  rw [← find?_eq_zero_iff more, findByte?, Option.map_eq_some_iff]
  constructor
  · rintro ⟨count, found, none⟩
    rwa [(byteLength_take_eq_zero more).1 none] at found
  · intro found
    exact ⟨0, found, rfl⟩

/-- Where neither a text nor an interpolation begins, there is a `<`. -/
theorem find?_angle_of_plain {delimiters : Delimiters} {text : List Char} (more : text ≠ [])
    (plain : Lexer.plainLength delimiters text = 0)
    (unopened : ¬delimiters.opening.toList.isPrefixOf text = true) :
    find? ['<'] text = some 0 := by
  rw [← find?_eq_zero_iff more] at unopened
  unfold Lexer.plainLength at plain
  cases tag : find? ['<'] text with
  | none =>
    cases mark : find? delimiters.opening.toList text with
    | none =>
      rw [tag, mark] at plain
      exact absurd (List.length_eq_zero_iff.1 plain) more
    | some index =>
      rw [tag, mark] at plain
      exact absurd (mark.trans (congrArg some plain)) unopened
  | some first =>
    cases mark : find? delimiters.opening.toList text with
    | none =>
      rw [tag, mark] at plain
      exact congrArg some plain
    | some index =>
      rw [tag, mark] at plain
      have earliest : min first index = 0 := plain
      have later : index ≠ 0 := fun zero => unopened (mark.trans (congrArg some zero))
      rw [show first = 0 by omega]

theorem runs_scanData (option : ScanOption) (more : scanner.source ≠ [])
    (data : scanner.mode = .data) (free : scanner.pending? = none) :
    RunsContent option.textMode (scanData option) scanner
      (Lexer.dataPiece option.delimiters scanner.cursor) := by
  have elements := @runs_assert _ scanner (decide (scanner.mode = .data)) (by simp [data])
  refine runs_get.content (elements.content (runs_place.content (runs_get.content ?_)))
  dsimp only
  rw [plainBytes_eq]
  unfold Lexer.dataPiece
  rw [rest_cursor]
  by_cases plain : Lexer.plainLength option.delimiters scanner.source = 0
  · have still : byteLength (scanner.source.take
        (Lexer.plainLength option.delimiters scanner.source)) = 0 := by
      rw [plain]
      rfl
    rw [if_neg (not_not_intro still), if_neg (not_not_intro plain)]
    split
    · next mark =>
      have opened := (findByte?_eq_zero_iff more).1 mark
      rw [if_pos (show Lexer.startsWith option.delimiters.opening scanner.cursor = true from opened)]
      exact (runs_scanInterpolation opened).content _
    · next mark =>
      have unopened := mt (findByte?_eq_zero_iff more).2 mark
      rw [if_neg (show ¬Lexer.startsWith option.delimiters.opening scanner.cursor = true from unopened)]
      have angle : find? ['<'] scanner.source = some 0 :=
        find?_angle_of_plain more plain unopened
      obtain ⟨back, starts⟩ := List.isPrefixOf_iff_prefix.1 ((find?_eq_zero_iff more).1 angle)
      exact runs_scanTagOpen option.textMode starts.symm data free
  · rw [if_pos (by rwa [ne_eq, byteLength_take_eq_zero more]), if_pos plain]
    exact (runs_scanText rfl (by simp [data])).content _

end Scanner

end TemplateCompiler
