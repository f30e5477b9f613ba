import TemplateCompiler.Proofs.ScannerContent

/-! A scanner hands out what reading a template gives: token by token, with the problems met on the
way, and with the one fault that there is. -/

namespace TemplateCompiler

open Text

namespace Text

theorem splitAt_inside {text : List Char} {bytes : Nat} (enough : bytes ≤ byteLength text)
    (inside : ¬Boundary text bytes) : splitAt text bytes = .error .splitCharacter := by
  have fits := Lexer.splitBytes_fits bytes text
  unfold splitAt
  cases split : Lexer.splitBytes bytes text with
  | tooShort =>
    rw [split, Lexer.ByteSplit.Fits] at fits
    omega
  | insideCharacter => rfl
  | split front back =>
    rw [split] at fits
    exact absurd ⟨front, back, fits⟩ inside

end Text

namespace Scanner

variable {scanner after : Scanner}

theorem occurrences_closing (front : Nat) (behind : List Char) :
    occurrences ['<', '/'] front ('<' :: '/' :: behind) =
      front :: occurrences ['<', '/'] (front + 1) ('/' :: behind) := by
  rw [occurrences, if_pos (by simp [List.isPrefixOf])]
  rfl

section Closing

variable {tag : String} {front behind : List Char} {later : List Nat}

theorem byteLength_behind_closing (front behind : List Char) :
    byteLength (front ++ '<' :: '/' :: behind) = byteLength front + 2 + byteLength behind := by
  rw [byteLength_append, Lexer.byteLength_closing, Nat.add_assoc]

theorem endAmong_short (short : byteLength behind < byteLength tag.toList) :
    endAmong tag (front ++ '<' :: '/' :: behind) (byteLength front :: later) =
      .ok (byteLength (front ++ '<' :: '/' :: behind)) := by
  rw [endAmong]
  dsimp only
  rw [if_pos (by rw [byteLength_behind_closing]; omega)]

theorem endAmong_inside (enough : byteLength tag.toList ≤ byteLength behind)
    (inside : ¬Boundary behind (byteLength tag.toList)) :
    endAmong tag (front ++ '<' :: '/' :: behind) (byteLength front :: later) =
      .error .splitCharacter := by
  have cut : ¬Boundary (front ++ '<' :: '/' :: behind)
      (byteLength front + 2 + byteLength tag.toList) := by
    rwa [Nat.add_assoc, boundary_append, Lexer.boundary_closing]
  rw [endAmong]
  dsimp only
  rw [if_neg (by rw [byteLength_behind_closing]; omega), sliceFrom,
    splitAt_inside (by rw [byteLength_behind_closing]; omega) cut]
  rfl

theorem endAmong_split {name back : List Char} (bytes : byteLength name = byteLength tag.toList) :
    endAmong tag (front ++ '<' :: '/' :: (name ++ back)) (byteLength front :: later) =
      if sameIgnoringCase (String.ofList name) tag && !back.head?.any Lexer.isNameChar then
        .ok (byteLength front)
      else endAmong tag (front ++ '<' :: '/' :: (name ++ back)) later := by
  have opened : byteLength front + 2 = byteLength (front ++ ['<', '/']) :=
    (byteLength_append front ['<', '/']).symm
  have named : byteLength front + 2 + byteLength tag.toList =
      byteLength ((front ++ ['<', '/']) ++ name) := by
    rw [opened, byteLength_append (front ++ ['<', '/']), bytes]
  have whole : front ++ '<' :: '/' :: (name ++ back) = ((front ++ ['<', '/']) ++ name) ++ back := by
    simp
  have sliced : slice (((front ++ ['<', '/']) ++ name) ++ back) (byteLength (front ++ ['<', '/']))
      (byteLength ((front ++ ['<', '/']) ++ name)) = .ok name := by
    rw [slice, if_neg (by rw [byteLength_append _ name]; omega), sliceTo, splitAt_append]
    exact sliceFrom_append _ _
  conv_lhs => rw [endAmong]
  dsimp only
  rw [if_neg (by rw [byteLength_behind_closing, byteLength_append name]; omega), named, opened, whole,
    sliced, sliceFrom_append]
  rfl

end Closing

theorem map_further (front : List Char) (c : Char) (rest : List Char) (result : Except Fault Nat) :
    (result.map fun count => byteLength (front ++ [c]) + byteLength (rest.take count)) =
      (result.map (· + 1)).map fun count => byteLength front + byteLength ((c :: rest).take count) := by
  cases result with
  | error fault => rfl
  | ok count =>
    simp only [Except.map, List.take_succ_cons, byteLength_append, byteLength_cons, byteLength_nil,
      Nat.add_zero, Nat.add_assoc]

/-- Looking through the places of `</` comes to the end that is found character by character. -/
theorem endAmong_eq (tag : String) (front text : List Char) :
    endAmong tag (front ++ text) (occurrences ['<', '/'] (byteLength front) text) =
      (Lexer.appropriateEnd tag text).map fun count =>
        byteLength front + byteLength (text.take count) := by
  fun_induction Lexer.appropriateEnd tag text generalizing front with
  | case1 =>
    rw [occurrences, endAmong, byteLength_append]
    rfl
  | case2 behind short =>
    rw [occurrences_closing, endAmong_short (Lexer.fits_of_splitBytes short), byteLength_append]
    simp [Except.map]
  | case3 behind inside =>
    obtain ⟨enough, cut⟩ := Lexer.fits_of_splitBytes inside
    rw [occurrences_closing, endAmong_inside enough cut]
    rfl
  | case4 behind name back split terminated ends =>
    obtain ⟨rfl, bytes⟩ := Lexer.fits_of_splitBytes split
    have closes : (sameIgnoringCase (String.ofList name) tag &&
        !back.head?.any Lexer.isNameChar) = true := by
      cases back <;> simpa [terminated] using ends
    rw [occurrences_closing, endAmong_split bytes, if_pos closes]
    rfl
  | case5 behind name back split terminated unended ih =>
    obtain ⟨rfl, bytes⟩ := Lexer.fits_of_splitBytes split
    have going : ¬(sameIgnoringCase (String.ofList name) tag &&
        !back.head?.any Lexer.isNameChar) = true := by
      cases back <;> simpa [terminated] using unended
    have onward := ih (front ++ ['<'])
    rw [List.append_cons, ← map_further, ← onward, occurrences_closing, ← List.append_cons,
      endAmong_split bytes, if_neg going, byteLength_append]
    rfl
  | case6 c rest plain ih =>
    have onward := ih (front ++ [c])
    have other : ¬['<', '/'].isPrefixOf (c :: rest) = true := by
      rw [List.isPrefixOf_iff_prefix]
      rintro ⟨behind, starts⟩
      obtain ⟨angle, solidus⟩ := List.cons.inj starts
      exact plain behind angle.symm solidus.symm
    rw [List.append_cons, ← map_further, ← onward, occurrences, if_neg other, byteLength_append,
      byteLength_cons]
    rfl

theorem runs_findEnd {tag : String} {count : Nat} (last : scanner.lastStartTag? = some tag)
    (found : Lexer.appropriateEnd tag scanner.source = .ok count) :
    Runs findEnd scanner (byteLength (scanner.source.take count)) scanner := by
  have ends := endAmong_eq tag [] scanner.source
  rw [found] at ends
  simp only [List.nil_append, byteLength_nil, Except.map, Nat.zero_add] at ends
  refine runs_get.bind ?_
  simp only [last]
  exact runs_fallible ends

theorem fails_findEnd {tag : String} {fault : Fault} (last : scanner.lastStartTag? = some tag)
    (failed : Lexer.appropriateEnd tag scanner.source = .error fault) :
    Fails findEnd scanner fault := by
  have ends := endAmong_eq tag [] scanner.source
  rw [failed] at ends
  simp only [List.nil_append, byteLength_nil, Except.map] at ends
  refine runs_get.fails ?_
  simp only [last, ends]
  rfl

def Reads (scanner : Scanner) : Lexer.Mode → Prop
  | .data => scanner.mode = .data
  | .rcData tag => scanner.mode = .rcData ∧ scanner.lastStartTag? = some tag
  | .rawText tag => scanner.mode = .rawText ∧ scanner.lastStartTag? = some tag

theorem Reads.congr {mode : Lexer.Mode} (reads : scanner.Reads mode)
    (same : after.mode = scanner.mode) (last : after.lastStartTag? = scanner.lastStartTag?) :
    after.Reads mode := by
  unfold Reads
  rw [same, last]
  exact reads

structure Stands (scanner : Scanner) (pending : List Problem) (cursor : Cursor)
    (mode : Lexer.Mode) : Prop where
  cursor : scanner.cursor = cursor
  problems : scanner.problems = pending
  free : scanner.pending? = none
  outside : scanner.inside? = none
  reads : scanner.Reads mode

theorem Stands.source {pending : List Problem} {cursor : Cursor} {mode : Lexer.Mode}
    (stands : scanner.Stands pending cursor mode) : scanner.source = cursor.rest := by
  rw [← stands.cursor]
  rfl

/-- What the scanner does where a step is made. -/
inductive Follows (option : ScanOption) (scanner : Scanner) (pending : List Problem)
    (cursor : Cursor) (mode : Lexer.Mode) : Prop where
  | failed {fault : Fault} (stepped : Lexer.step option cursor mode = .error fault)
      (fails : Fails (scanByMode option) scanner fault)
  | single {token : Token} {problems : List Problem} {reached : Cursor} {next : Lexer.Mode}
      {after : Scanner}
      (stepped : Lexer.step option cursor mode = .ok (.single token problems reached, next))
      (runs : Runs (scanByMode option) scanner (some token) after)
      (stands : after.Stands (pending ++ problems) reached next)
  | nothing {problems : List Problem} {reached : Cursor} {next : Lexer.Mode} {after : Scanner}
      (stepped : Lexer.step option cursor mode = .ok ({ problems, cursor := reached }, next))
      (runs : Runs (scanByMode option) scanner none after)
      (stands : after.Stands (pending ++ problems) reached next)
  | startTag {name : String} {behind : Cursor} (named : name = (cursor.advance 1).peek
        (Lexer.tagNameLength (cursor.advance 1).rest))
      (onward : behind = (cursor.advance 1).advance (Lexer.tagNameLength (cursor.advance 1).rest))
      (data : scanner.mode = .data)
      (stepped : Lexer.step option cursor mode = .ok (Lexer.startTag cursor,
        if (Lexer.startTagRest [] (Lexer.skipBlanks behind)).opened then
          .inside option.textMode name else .data))
      (runs : Runs (scanByMode option) scanner
        (some ⟨.tagOpen name, behind.spanFrom cursor.position⟩)
        (scanner.behindTagOpen (option.textMode name) name behind))

variable {option : ScanOption} {pending : List Problem} {cursor : Cursor} {mode : Lexer.Mode}

theorem follows_data (stands : scanner.Stands pending cursor .data) (more : cursor.rest ≠ []) :
    Follows option scanner pending cursor .data := by
  obtain ⟨rfl, rfl, free, outside, data⟩ := stands
  have runs : ∀ {result after}, Runs (scanData option) scanner result after →
      Runs (scanByMode option) scanner result after := by
    intro result after runs
    refine runs_get.bind ?_
    rw [show scanner.mode = .data from data]
    exact runs
  have step (piece : Lexer.Piece) (next : Lexer.Mode)
      (whole : Lexer.dataPiece option.delimiters scanner.cursor = piece)
      (onward : piece.inside.elim .data (Lexer.Mode.inside option.textMode) = next) :
      Lexer.step option scanner.cursor .data = .ok (piece, next) := by
    rw [← onward, ← whole, Lexer.step]
    cases (Lexer.dataPiece option.delimiters scanner.cursor).inside with
    | none => rfl
    | some tag => rfl
  cases runs_scanData option more data free with
  | single whole scans => exact .single (step _ _ whole rfl) (runs scans) ⟨rfl, rfl, free, outside, data⟩
  | nothing whole scans => exact .nothing (step _ _ whole rfl) (runs scans) ⟨rfl, rfl, free, outside, data⟩
  | startTag named onward whole scans =>
    refine .startTag named onward data (step _ _ whole ?_) (runs scans)
    subst named onward
    unfold Lexer.startTag
    dsimp only
    split
    · rfl
    · rfl

/-- The last text of an element is read, or nothing but its end. -/
theorem follows_last {decode : Bool} {count : Nat} (last : Lexer.Mode) (more : scanner.source ≠ [])
    (free : scanner.pending? = none) (outside : scanner.inside? = none)
    (mode : scanner.mode = .rawText ↔ decode = false)
    (step : Lexer.step option scanner.cursor last =
      if count = 0 then .ok ({ cursor := scanner.cursor }, .data)
      else .ok (Lexer.textPiece decode count scanner.cursor, .data))
    (runs : ∀ {result after},
      Runs (scanLastText (byteLength (scanner.source.take count)) scanner.position) scanner result
        after → Runs (scanByMode option) scanner result after) :
    Follows option scanner scanner.problems scanner.cursor last := by
  by_cases zero : count = 0
  · have left : Runs (scanLastText (byteLength (scanner.source.take count)) scanner.position) scanner
        none { scanner with mode := .data } := by
      unfold scanLastText
      rw [if_pos ((byteLength_take_eq_zero more).2 zero)]
      exact (runs_modify _).bind (runs_pure _)
    rw [if_pos zero] at step
    exact .nothing step (runs left) ⟨rfl, (List.append_nil _).symm, free, outside, rfl⟩
  · obtain ⟨token, problems, reached, whole, reads⟩ := @runs_scanText scanner count _ decode rfl mode
    have read : Runs (scanLastText (byteLength (scanner.source.take count)) scanner.position) scanner
        (some token) { (scanner.goTo reached).report problems with mode := .data } := by
      unfold scanLastText
      rw [if_neg (mt (byteLength_take_eq_zero more).1 zero)]
      exact reads.bind ((runs_modify _).bind (runs_pure _))
    rw [if_neg zero, whole] at step
    exact .single step (runs read) ⟨rfl, rfl, free, outside, rfl⟩

theorem follows_rawText {tag : String} (stands : scanner.Stands pending cursor (.rawText tag))
    (more : cursor.rest ≠ []) : Follows option scanner pending cursor (.rawText tag) := by
  obtain ⟨rfl, rfl, free, outside, raw, last⟩ := stands
  have inText := @runs_assert _ scanner (decide (scanner.mode = .rawText)) (by simp [raw])
  cases found : Lexer.appropriateEnd tag scanner.source with
  | error fault =>
    refine .failed (by rw [Lexer.step, rest_cursor, found]; rfl) (runs_get.fails ?_)
    rw [raw]
    exact runs_get.fails (inText.fails (runs_place.fails ((fails_findEnd last found).bind _)))
  | ok count =>
    refine @follows_last _ _ false count _ more free outside (by simp [raw]) ?_ ?_
    · rw [Lexer.step, rest_cursor, found]
      rfl
    · intro result after runs
      refine runs_get.bind ?_
      rw [raw]
      exact runs_get.bind (inText.bind (runs_place.bind ((runs_findEnd last found).bind runs)))

theorem byteLength_take_lt_iff {text : List Char} {first second : Nat}
    (inside : second ≤ text.length) :
    byteLength (text.take first) < byteLength (text.take second) ↔ first < second := by
  constructor
  · intro fewer
    by_contra after
    have more := byteLength_take_le text (Nat.le_of_not_lt after)
    omega
  · intro before
    obtain ⟨count, rfl⟩ := Nat.exists_eq_add_of_le (Nat.le_of_lt before)
    have some : (text.drop first).take count ≠ [] := by
      simp only [ne_eq, List.take_eq_nil_iff, List.drop_eq_nil_iff, not_or]
      omega
    have positive := byteLength_pos some
    rw [List.take_add, byteLength_append]
    omega

theorem follows_rcText {tag : String} {count : Nat}
    (stands : scanner.Stands pending cursor (.rcData tag)) (more : cursor.rest ≠ [])
    (unopened : ¬option.delimiters.opening.toList.isPrefixOf cursor.rest = true)
    (found : Lexer.appropriateEnd tag cursor.rest = .ok count)
    (runs : ∀ {result after}, Runs (scanRcText option scanner.position) scanner result after →
      Runs (scanByMode option) scanner result after) :
    Follows option scanner pending cursor (.rcData tag) := by
  obtain ⟨rfl, rfl, free, outside, rc, last⟩ := stands
  rw [rest_cursor] at more unopened found
  have decoded : scanner.mode = .rawText ↔ true = false := by simp [rc]
  have ends := runs_findEnd last found
  have inside := Lexer.appropriateEnd_le tag _ count found
  have further (behind : ¬(findByte? option.delimiters.opening.toList scanner.source).getD
        (byteLength (scanner.source.take count)) < byteLength (scanner.source.take count)) :
      ∀ {result after}, Runs (scanLastText (byteLength (scanner.source.take count)) scanner.position)
        scanner result after → Runs (scanByMode option) scanner result after := by
    intro result after reads
    refine runs (ends.bind (runs_get.bind ?_))
    dsimp only
    rw [if_neg behind]
    exact reads
  cases mark : find? option.delimiters.opening.toList scanner.source with
  | none =>
    have step : Lexer.step option scanner.cursor (.rcData tag) =
        if count = 0 then .ok ({ cursor := scanner.cursor }, .data)
        else .ok (Lexer.textPiece true count scanner.cursor, .data) := by
      rw [Lexer.step, rest_cursor, if_neg unopened, found, mark]
      rfl
    refine follows_last _ more free outside decoded step (further ?_)
    rw [findByte?, mark]
    exact Nat.lt_irrefl _
  | some index =>
    have step : Lexer.step option scanner.cursor (.rcData tag) =
        if index < count then .ok (Lexer.textPiece true index scanner.cursor, .rcData tag)
        else if count = 0 then .ok ({ cursor := scanner.cursor }, .data)
        else .ok (Lexer.textPiece true count scanner.cursor, .data) := by
      rw [Lexer.step, rest_cursor, if_neg unopened, found, mark]
      rfl
    have place : (findByte? option.delimiters.opening.toList scanner.source).getD
        (byteLength (scanner.source.take count)) = byteLength (scanner.source.take index) := by
      rw [findByte?, mark]
      rfl
    by_cases before : index < count
    · obtain ⟨token, problems, reached, whole, reads⟩ :=
        @runs_scanText scanner index _ true rfl decoded
      rw [if_pos before, whole] at step
      have read : Runs (scanRcText option scanner.position) scanner (some token)
          ((scanner.goTo reached).report problems) := by
        refine ends.bind (runs_get.bind ?_)
        dsimp only
        rw [place, if_pos ((byteLength_take_lt_iff inside).2 before)]
        exact reads.bind (runs_pure _)
      exact .single step (runs read) ⟨rfl, rfl, free, outside, rc, last⟩
    · rw [if_neg before] at step
      refine follows_last _ more free outside decoded step (further ?_)
      rw [place]
      exact mt (byteLength_take_lt_iff inside).1 before

theorem follows_rcData {tag : String} (stands : scanner.Stands pending cursor (.rcData tag))
    (more : cursor.rest ≠ []) : Follows option scanner pending cursor (.rcData tag) := by
  have rc := stands.reads.1
  have inText := @runs_assert _ scanner (decide (scanner.mode = .rcData)) (by simp [rc])
  have source : scanner.source = cursor.rest := by
    rw [← stands.cursor]
    rfl
  by_cases opened : option.delimiters.opening.toList.isPrefixOf cursor.rest = true
  · obtain ⟨rfl, rfl, free, outside, reads⟩ := stands
    obtain ⟨token, problems, reached, whole, read⟩ :=
      @runs_scanInterpolation scanner option.delimiters opened
    have step : Lexer.step option scanner.cursor (.rcData tag) =
        .ok (.single token problems reached, .rcData tag) := by
      rw [Lexer.step, if_pos opened, whole]
      rfl
    have runs : Runs (scanByMode option) scanner (some token)
        ((scanner.goTo reached).report problems) := by
      refine runs_get.bind ?_
      rw [rc]
      refine runs_get.bind (inText.bind (runs_place.bind ((runs_startsWith _).bind ?_)))
      rw [source, if_pos opened]
      exact read.bind (runs_pure _)
    exact .single step runs ⟨rfl, rfl, free, outside, reads⟩
  · cases found : Lexer.appropriateEnd tag cursor.rest with
    | error fault =>
      refine .failed (by rw [Lexer.step, if_neg opened, found]; rfl) (runs_get.fails ?_)
      rw [rc]
      refine runs_get.fails (inText.fails (runs_place.fails ((runs_startsWith _).fails ?_)))
      rw [source, if_neg opened]
      exact (fails_findEnd stands.reads.2 (source ▸ found)).bind _
    | ok count =>
      refine follows_rcText stands more opened found ?_
      intro result after runs
      refine runs_get.bind ?_
      rw [rc]
      refine runs_get.bind (inText.bind (runs_place.bind ((runs_startsWith _).bind ?_)))
      rw [source, if_neg opened]
      exact runs

theorem follows (stands : scanner.Stands pending cursor mode) (more : cursor.rest ≠ []) :
    Follows option scanner pending cursor mode := by
  cases mode with
  | data => exact follows_data stands more
  | rcData tag => exact follows_rcData stands more
  | rawText tag => exact follows_rawText stands more

/-- What a scanner still has to hand out: the rest of the content, or first the rest of a start tag
or a value that it holds back. -/
inductive Ahead (option : ScanOption) : Scanner → Scan → Prop where
  | content {scanner : Scanner} {pending : List Problem} {cursor : Cursor} {mode : Lexer.Mode}
      (stands : scanner.Stands pending cursor mode) :
      Ahead option scanner (Lexer.scanFrom option pending cursor mode)
  | inTag {scanner : Scanner} {mode : Tag.TextMode} {next : Lexer.Mode} {rest : Lexer.StartTagRest}
      {later : Scan} (inside : scanner.inside? = some mode) (free : scanner.pending? = none)
      (data : scanner.mode = .data) (opens : { scanner with mode }.Reads next)
      (onward : rest = Lexer.startTagRest scanner.problems (Lexer.skipBlanks scanner.cursor))
      (behind : later = Lexer.scanFrom option [] rest.cursor (if rest.opened then next else .data)) :
      Ahead option scanner ⟨rest.pulls ++ later.pulls, later.ending⟩
  | value {scanner : Scanner} {token : Token} {later : Scan} (held : scanner.pending? = some token)
      (settled : scanner.problems = [])
      (ahead : Ahead option { scanner with pending? := none } later) :
      Ahead option scanner ⟨⟨[], token⟩ :: later.pulls, later.ending⟩

/-- What the next pull gives, and what is left behind it. -/
inductive Handed (option : ScanOption) (scanner : Scanner) : Scan → Prop where
  | token {pull : Pull} {later : Scan} {after : Scanner}
      (runs : Runs (Scanner.pull option) scanner (some pull) after) (ahead : Ahead option after later) :
      Handed option scanner ⟨pull :: later.pulls, later.ending⟩
  | nothing {found : List Problem} {after : Scanner}
      (runs : Runs (Scanner.pull option) scanner none after) (problems : after.problems = found)
      (ahead : Ahead option after ⟨[], .ok found⟩) : Handed option scanner ⟨[], .ok found⟩
  | failed {fault : Fault} (fails : Fails (pull option) scanner fault) :
      Handed option scanner ⟨[], .error fault⟩

theorem runs_pull_some {token : Token} (runs : Runs (next option) scanner (some token) after) :
    Runs (pull option) scanner (some ⟨after.problems, token⟩) { after with problems := [] } :=
  runs.bind (runs_get.bind ((runs_modify _).bind (runs_pure _)))

theorem runs_pull_none (runs : Runs (next option) scanner none after) :
    Runs (pull option) scanner none after :=
  runs.bind (runs_pure _)

theorem Handed.of_run {scan : Scan} (handed : Handed option after scan)
    (same : (pull option).run scanner = (pull option).run after) : Handed option scanner scan := by
  cases handed with
  | token runs ahead => exact .token (same.trans runs) ahead
  | nothing runs problems ahead => exact .nothing (same.trans runs) problems ahead
  | failed fails => exact .failed (same.trans fails)

theorem pull_congr (same : (next option).run scanner = (next option).run after) :
    (pull option).run scanner = (pull option).run after :=
  run_bind_congr same _

theorem next_content (free : scanner.pending? = none) (outside : scanner.inside? = none) :
    (next option).run scanner = (scanContent option).run scanner := by
  refine (run_bind_of_runs runs_get _).trans ?_
  rw [free, outside]

theorem next_inTag {mode : Tag.TextMode} {token : Token} (free : scanner.pending? = none)
    (inside : scanner.inside? = some mode) (runs : Runs (scanInTag mode) scanner token after) :
    Runs (next option) scanner (some token) after := by
  refine runs_get.bind ?_
  rw [free, inside]
  exact runs.bind (runs_pure _)

theorem handed_inTag {mode : Tag.TextMode} {next : Lexer.Mode} {rest : Lexer.StartTagRest}
    {later : Scan} (inside : scanner.inside? = some mode) (free : scanner.pending? = none)
    (data : scanner.mode = .data) (opens : { scanner with mode }.Reads next)
    (onward : rest = Lexer.startTagRest scanner.problems (Lexer.skipBlanks scanner.cursor))
    (behind : later = Lexer.scanFrom option [] rest.cursor (if rest.opened then next else .data)) :
    Handed option scanner ⟨rest.pulls ++ later.pulls, later.ending⟩ := by
  cases onward ▸ inTag mode free with
  | @ends pull whole runs =>
    rw [whole]
    refine .token (runs_pull_some (next_inTag free inside runs)) ?_
    rw [behind]
    refine .content ⟨rfl, rfl, free, rfl, ?_⟩
    split
    · exact opens.congr rfl rfl
    · exact data
  | @names pull value cursor tail after whole runs =>
    have read : Runs (Scanner.pull option) scanner _ _ := runs_pull_some (next_inTag free inside runs)
    subst whole
    let going : Scanner := { scanner.goTo cursor with problems := [], pending? := none }
    have ahead : Ahead option going ⟨tail.pulls ++ later.pulls, later.ending⟩ :=
      .inTag inside rfl data opens after behind
    cases value with
    | none => exact .token read ahead
    | some token => exact .token read (.value rfl rfl ahead)

theorem handed_value {token : Token} {later : Scan} (held : scanner.pending? = some token)
    (settled : scanner.problems = []) (ahead : Ahead option { scanner with pending? := none } later) :
    Handed option scanner ⟨⟨[], token⟩ :: later.pulls, later.ending⟩ := by
  have runs : Runs (next option) scanner (some token) { scanner with pending? := none } := by
    refine runs_get.bind ?_
    rw [held]
    exact (runs_set _).bind (runs_pure _)
  have handed := runs_pull_some runs
  have same : { scanner with pending? := none, problems := [] } = { scanner with pending? := none } := by
    rw [← settled]
  dsimp only at handed
  rw [settled, same] at handed
  exact .token handed ahead

theorem runs_scanContent {token : Token} (more : scanner.source ≠ [])
    (runs : Runs (scanByMode option) scanner (some token) after) :
    Runs (scanContent option) scanner (some token) after := by
  refine runs_repeatM_inr (runs_atEnd.bind ?_)
  rw [if_neg (by simpa using more)]
  exact runs.bind (runs_pure _)

theorem run_scanContent (more : scanner.source ≠ [])
    (runs : Runs (scanByMode option) scanner none after) :
    (scanContent option).run scanner = (scanContent option).run after := by
  refine run_repeatM_inl (runs_atEnd.bind ?_)
  rw [if_neg (by simpa using more)]
  exact runs.bind (runs_pure _)

theorem fails_scanContent {fault : Fault} (more : scanner.source ≠ [])
    (fails : Fails (scanByMode option) scanner fault) :
    Fails (scanContent option) scanner fault := by
  refine fails_repeatM (runs_atEnd.fails ?_)
  rw [if_neg (by simpa using more)]
  exact fails.bind _

theorem opens_behindTagOpen (textMode : String → Tag.TextMode) (name : String) (cursor : Cursor) :
    { scanner.behindTagOpen (textMode name) name cursor with
      mode := textMode name, problems := [] }.Reads (.inside textMode name) := by
  unfold Lexer.Mode.inside behindTagOpen
  cases named : textMode name with
  | data => rfl
  | rcData => exact ⟨rfl, rfl⟩
  | rawText => exact ⟨rfl, rfl⟩

theorem handed_content (stands : scanner.Stands pending cursor mode) :
    Handed option scanner (Lexer.scanFrom option pending cursor mode) := by
  fun_induction Lexer.scanFrom option pending cursor mode generalizing scanner with
  | case1 pending cursor mode ended =>
    obtain ⟨rfl, rfl, free, outside, reads⟩ := stands
    have runs : Runs (next option) scanner none scanner := by
      refine (next_content free outside).trans (runs_repeatM_inr (runs_atEnd.bind ?_))
      rw [show scanner.source = [] from ended]
      exact runs_pure _
    have ahead : Ahead option _ _ := .content ⟨rfl, rfl, free, outside, reads⟩
    rw [Lexer.scanFrom, dif_pos ended] at ahead
    exact .nothing (runs_pull_none runs) rfl ahead
  | case2 pending cursor mode more fault failed =>
    cases @follows scanner option pending cursor mode stands more with
    | failed stepped fails =>
      cases failed.symm.trans stepped
      have content := fails_scanContent (by rwa [stands.source]) fails
      have asked : Fails (next option) scanner fault :=
        (next_content stands.free stands.outside).trans content
      exact .failed (asked.bind _)
    | single stepped => cases failed.symm.trans stepped
    | nothing stepped => cases failed.symm.trans stepped
    | startTag _ _ _ stepped => cases failed.symm.trans stepped
  | case3 pending cursor mode more piece onward stepped none ih =>
    cases @follows scanner option pending cursor mode stands more with
    | failed again => cases stepped.symm.trans again
    | single again =>
      cases stepped.symm.trans again
      cases none
    | nothing again runs left =>
      cases stepped.symm.trans again
      refine (ih left).of_run (pull_congr ?_)
      refine (next_content stands.free stands.outside).trans ?_
      refine (run_scanContent (by rwa [stands.source]) runs).trans ?_
      exact (next_content left.free left.outside).symm
    | startTag _ _ _ again =>
      cases stepped.symm.trans again
      cases none
  | case4 pending cursor mode more piece onward stepped first others pulls =>
    rename_i rest ih
    cases @follows scanner option pending cursor mode stands more with
    | failed again => cases stepped.symm.trans again
    | single again runs left =>
      cases stepped.symm.trans again
      cases pulls
      have content := runs_scanContent (by rwa [stands.source]) runs
      have asked : Runs (Scanner.next option) scanner _ _ :=
        (next_content stands.free stands.outside).trans content
      have pulled := runs_pull_some asked
      rw [left.problems] at pulled
      exact .token pulled (.content ⟨left.cursor, rfl, left.free, left.outside, left.reads.congr rfl rfl⟩)
    | nothing again =>
      cases stepped.symm.trans again
      cases pulls
    | @startTag name behind named onward data again runs =>
      subst named onward
      cases stepped.symm.trans again
      cases pulls
      have content := runs_scanContent (by rwa [stands.source]) runs
      have asked : Runs (Scanner.next option) scanner _ _ :=
        (next_content stands.free stands.outside).trans content
      have pulled := runs_pull_some asked
      rw [show (scanner.behindTagOpen _ _ _).problems = pending from stands.problems] at pulled
      rw [List.append_nil]
      exact @Handed.token _ _ _ ⟨_ ++ rest.pulls, rest.ending⟩ _ pulled
        (.inTag rfl stands.free data (opens_behindTagOpen _ _ _) rfl rfl)

theorem handed {scan : Scan} (ahead : Ahead option scanner scan) : Handed option scanner scan := by
  cases ahead with
  | content stands => exact handed_content stands
  | inTag inside free data opens onward behind =>
    exact handed_inTag inside free data opens onward behind
  | value held settled ahead => exact handed_value held settled ahead

theorem ahead_ofString (option : ScanOption) (source : String) :
    Ahead option (.ofString source) (scan option source) :=
  .content ⟨rfl, rfl, rfl, rfl, rfl⟩

/-- The calls hand out the tokens one after another. Behind the last one every call fails, or every
call gives nothing. -/
theorem result_call {scan : Scan} (ahead : Ahead option scanner scan) (count : Nat) :
    ((call option count).run' scanner).run =
      some (match scan.pulls[count]? with
        | some pull => .ok (some pull)
        | none => scan.ending.map fun _ => none) := by
  induction count generalizing scanner scan with
  | zero =>
    cases handed ahead with
    | token runs left => exact runs.result
    | nothing runs problems left => exact runs.result
    | failed fails => exact fails.result
  | succ count ih =>
    have onward {value : Option Pull} {after : Scanner} (runs : Runs (pull option) scanner value after) :
        ((call option (count + 1)).run' scanner).run = ((call option count).run' after).run := by
      show (Prod.fst <$> (call option (count + 1)).run scanner).run = _
      rw [call, run_bind_of_runs runs]
      rfl
    cases handed ahead with
    | token runs left => exact (onward runs).trans (ih left)
    | nothing runs problems left => exact (onward runs).trans (ih left)
    | failed fails => exact (fails.bind _).result

/-- All that a scanner hands out is what reading the template gives. -/
theorem drain_eq {scan : Scan} (ahead : Ahead option scanner scan) :
    drain option scanner = some scan := by
  obtain ⟨pulls, ending⟩ := scan
  induction pulls generalizing scanner with
  | nil =>
    cases handed ahead with
    | nothing runs problems left =>
      rw [drain, runs, ← problems]
      rfl
    | failed fails =>
      rw [drain, fails]
      rfl
  | cons pull pulls ih =>
    cases handed ahead with
    | token runs left =>
      rw [drain, runs]
      show (drain option _).bind _ = _
      rw [ih left]
      rfl

end Scanner

end TemplateCompiler
