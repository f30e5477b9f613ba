import TemplateCompiler.Proofs.ScannerSteps

/-! A scanner never runs on forever, and it fails in one situation only: while the end of raw text is
looked for, the name of the element is compared with a stretch that ends inside of a character.
Else it hands out its tokens one at a time, no more of them than the template has characters, and
nothing comes after the last one. -/

namespace TemplateCompiler

open Text

namespace Lexer

section Steps

variable {option : ScanOption} {pending : List Problem} {cursor : Cursor} {mode : Mode}

theorem scanFrom_failed {fault : Fault} (more : cursor.rest ≠ [])
    (failed : step option cursor mode = .error fault) :
    scanFrom option pending cursor mode = { ending := .error fault } := by
  rw [scanFrom, dif_neg more]
  split
  · next again =>
    rw [failed] at again
    cases again
    rfl
  · next again =>
    rw [failed] at again
    cases again

theorem scanFrom_stepped {piece : Piece} {next : Mode} (more : cursor.rest ≠ [])
    (stepped : step option cursor mode = .ok (piece, next)) :
    scanFrom option pending cursor mode =
      match piece.pulls with
      | [] => scanFrom option (pending ++ piece.problems) piece.cursor next
      | first :: others =>
        let rest := scanFrom option piece.problems piece.cursor next
        ⟨{ first with problems := pending ++ first.problems } :: others ++ rest.pulls,
          rest.ending⟩ := by
  rw [scanFrom, dif_neg more]
  split
  · next again =>
    rw [stepped] at again
    cases again
  · next again =>
    rw [stepped] at again
    cases again
    rfl

end Steps

theorem bind_eq_error_iff {α β : Type} {f : α → Except Fault β} {result : Except Fault α}
    {fault : Fault} (total : ∀ value, ∃ answer, f value = .ok answer) :
    result.bind f = .error fault ↔ result = .error fault := by
  cases result with
  | error found => simp [Except.bind]
  | ok value =>
    obtain ⟨answer, given⟩ := total value
    simp [Except.bind, given]

theorem step_rawText_error_iff {option : ScanOption} {cursor : Cursor} {tag : String}
    {fault : Fault} : step option cursor (.rawText tag) = .error fault ↔
      appropriateEnd tag cursor.rest = .error fault := by
  apply bind_eq_error_iff
  intro length
  split
  · exact ⟨_, rfl⟩
  · exact ⟨_, rfl⟩

theorem step_rcData_error_iff {option : ScanOption} {cursor : Cursor} {tag : String} {fault : Fault}
    (unopened : ¬option.delimiters.opening.toList.isPrefixOf cursor.rest = true) :
    step option cursor (.rcData tag) = .error fault ↔
      appropriateEnd tag cursor.rest = .error fault := by
  rw [step, if_neg unopened]
  apply bind_eq_error_iff
  intro length
  repeat' split
  all_goals exact ⟨_, rfl⟩

theorem fault_of_appropriateEnd {tag : String} {text : List Char} {fault : Fault}
    (failed : appropriateEnd tag text = .error fault) : fault = .splitCharacter := by
  have further {result : Except Fault Nat} (mapped : result.map (· + 1) = .error fault) :
      result = .error fault := by
    cases result with
    | error found =>
      cases mapped
      rfl
    | ok count => cases mapped
  fun_induction appropriateEnd tag text with
  | case1 | case2 | case4 => cases failed
  | case3 =>
    cases failed
    rfl
  | case5 behind name back split terminated unended ih => exact ih (further failed)
  | case6 c rest plain ih => exact ih (further failed)

theorem fault_of_step {option : ScanOption} {cursor : Cursor} {mode : Mode} {fault : Fault}
    (failed : step option cursor mode = .error fault) : fault = .splitCharacter := by
  cases mode with
  | data => cases failed
  | rawText tag => exact fault_of_appropriateEnd (step_rawText_error_iff.1 failed)
  | rcData tag =>
    by_cases opened : option.delimiters.opening.toList.isPrefixOf cursor.rest = true
    · rw [step, if_pos opened] at failed
      cases failed
    · exact fault_of_appropriateEnd ((step_rcData_error_iff opened).1 failed)

theorem pulls_startTagRest_ne_nil (pending : List Problem) (cursor : Cursor) :
    (startTagRest pending cursor).pulls ≠ [] := by
  fun_induction startTagRest pending cursor with
  | case1 | case2 | case3 | case5 => exact List.cons_ne_nil _ _
  | case4 => assumption

/-- The only fault of reading is that a character is cut. -/
theorem fault_of_scanFrom {option : ScanOption} {pending : List Problem} {cursor : Cursor}
    {mode : Mode} {fault : Fault}
    (failed : (scanFrom option pending cursor mode).ending = .error fault) :
    fault = .splitCharacter := by
  fun_induction scanFrom option pending cursor mode with
  | case1 => cases failed
  | case2 pending cursor mode more found stepped =>
    cases failed
    exact fault_of_step stepped
  | case3 pending cursor mode more piece next stepped none ih => exact ih failed
  | case4 pending cursor mode more piece next stepped first others pulls rest ih => exact ih failed

end Lexer

namespace Scanner

/-- The scanner is about to look for the end of the text of `tag`. -/
structure Searches (option : ScanOption) (scanner : Scanner) (tag : String) : Prop where
  free : scanner.pending? = none
  outside : scanner.inside? = none
  more : scanner.source ≠ []
  last : scanner.lastStartTag? = some tag
  mode : scanner.mode = .rawText ∨ scanner.mode = .rcData ∧
    ¬option.delimiters.opening.toList.isPrefixOf scanner.source = true

inductive Comes (option : ScanOption) : Scanner → Scanner → Prop where
  | here {scanner : Scanner} : Comes option scanner scanner
  /-- A piece of content without a token is passed. -/
  | skips {scanner after reached : Scanner} (free : scanner.pending? = none)
      (outside : scanner.inside? = none) (more : scanner.source ≠ [])
      (runs : Runs (scanByMode option) scanner none after) (comes : Comes option after reached) :
      Comes option scanner reached
  | pulls {scanner after reached : Scanner} {given : Pull}
      (runs : Runs (pull option) scanner (some given) after) (comes : Comes option after reached) :
      Comes option scanner reached

/-- Somewhere on the way the search for an end tag cuts a character. -/
def Stuck (option : ScanOption) (scanner : Scanner) : Prop :=
  ∃ reached tag, Comes option scanner reached ∧ Searches option reached tag ∧
    Lexer.CutsCharacter tag reached.source

variable {option : ScanOption} {scanner after : Scanner} {pending : List Problem} {cursor : Cursor}
  {mode : Lexer.Mode}

/-- A step fails just if it looks for an end tag and cuts a character. -/
theorem step_error_iff (stands : scanner.Stands pending cursor mode) (more : cursor.rest ≠ []) :
    (∃ fault, Lexer.step option cursor mode = .error fault) ↔
      ∃ tag, Searches option scanner tag ∧ Lexer.CutsCharacter tag scanner.source := by
  have source := stands.source
  have reads := stands.reads
  cases mode with
  | data =>
    refine iff_of_false (by simp [Lexer.step]) ?_
    rintro ⟨tag, searches, -⟩
    have data : scanner.mode = .data := reads
    simpa [data] using searches.mode
  | rawText element =>
    obtain ⟨raw, last⟩ := reads
    simp only [Lexer.step_rawText_error_iff, Lexer.appropriateEnd_error_iff, source]
    constructor
    · intro cuts
      exact ⟨element, ⟨stands.free, stands.outside, by rwa [source], last, .inl raw⟩, cuts⟩
    · rintro ⟨tag, searches, cuts⟩
      cases last.symm.trans searches.last
      exact cuts
  | rcData element =>
    obtain ⟨rc, last⟩ := reads
    by_cases opened : option.delimiters.opening.toList.isPrefixOf cursor.rest = true
    · refine iff_of_false (by simp [Lexer.step, opened, pure, Except.pure]) ?_
      rintro ⟨tag, searches, -⟩
      rcases searches.mode with raw | ⟨-, unopened⟩
      · cases raw.symm.trans rc
      · exact unopened (source ▸ opened)
    · simp only [Lexer.step_rcData_error_iff opened, Lexer.appropriateEnd_error_iff, source]
      constructor
      · intro cuts
        exact ⟨element,
          ⟨stands.free, stands.outside, by rwa [source], last, .inr ⟨rc, source ▸ opened⟩⟩, cuts⟩
      · rintro ⟨tag, searches, cuts⟩
        cases last.symm.trans searches.last
        exact cuts

theorem Stuck.skips (free : scanner.pending? = none) (outside : scanner.inside? = none)
    (more : scanner.source ≠ []) (runs : Runs (scanByMode option) scanner none after)
    (stuck : Stuck option after) : Stuck option scanner := by
  obtain ⟨reached, tag, comes, search⟩ := stuck
  exact ⟨reached, tag, .skips free outside more runs comes, search⟩

theorem Stuck.pulls {given : Pull} (runs : Runs (pull option) scanner (some given) after)
    (stuck : Stuck option after) : Stuck option scanner := by
  obtain ⟨reached, tag, comes, search⟩ := stuck
  exact ⟨reached, tag, .pulls runs comes, search⟩

/-- If reading fails before the next token, the search that fails is come to without one. -/
theorem stuck_of_content (stands : scanner.Stands pending cursor mode) {fault : Fault}
    (none : (Lexer.scanFrom option pending cursor mode).pulls = [])
    (failed : (Lexer.scanFrom option pending cursor mode).ending = .error fault) :
    Stuck option scanner := by
  fun_induction Lexer.scanFrom option pending cursor mode generalizing scanner with
  | case1 => cases failed
  | case2 pending cursor mode more found stepped =>
    obtain ⟨tag, searches, cuts⟩ := (step_error_iff stands more).1 ⟨found, stepped⟩
    exact ⟨scanner, tag, .here, searches, cuts⟩
  | case3 pending cursor mode more piece onward stepped empty ih =>
    cases @follows scanner option pending cursor mode stands more with
    | failed again => cases stepped.symm.trans again
    | single again =>
      cases stepped.symm.trans again
      cases empty
    | nothing again runs left =>
      cases stepped.symm.trans again
      exact (ih left none failed).skips stands.free stands.outside (by rwa [stands.source]) runs
    | startTag _ _ _ again =>
      cases stepped.symm.trans again
      cases empty
  | case4 => cases none

theorem ending_of_comes {scan : Scan} {reached : Scanner} {tag : String}
    (ahead : Ahead option scanner scan) (comes : Comes option scanner reached)
    (searches : Searches option reached tag) (cuts : Lexer.CutsCharacter tag reached.source) :
    ∃ fault, scan.ending = .error fault := by
  induction comes generalizing scan with
  | here =>
    cases ahead with
    | content stands =>
      have more := stands.source ▸ searches.more
      obtain ⟨fault, failed⟩ := (step_error_iff stands more).2 ⟨tag, searches, cuts⟩
      exact ⟨fault, by rw [Lexer.scanFrom_failed more failed]⟩
    | inTag inside => cases inside.symm.trans searches.outside
    | value held => cases held.symm.trans searches.free
  | skips free outside more runs comes ih =>
    cases ahead with
    | content stands =>
      have some := stands.source ▸ more
      cases @follows _ option _ _ _ stands some with
      | failed _ fails => exact (runs.not_fails fails).elim
      | single _ other => cases (runs.unique other).1
      | nothing stepped again left =>
        obtain ⟨-, rfl⟩ := runs.unique again
        rw [Lexer.scanFrom_stepped some stepped]
        exact ih (.content left) searches cuts
      | startTag _ _ _ _ other => cases (runs.unique other).1
    | inTag inside => cases inside.symm.trans outside
    | value held => cases held.symm.trans free
  | pulls runs comes ih =>
    cases handed ahead with
    | token again left =>
      obtain ⟨-, rfl⟩ := runs.unique again
      have later := ih left searches cuts
      exact later
    | nothing other => cases (runs.unique other).1
    | failed fails => exact (runs.not_fails fails).elim

theorem stuck_of_ending {scan : Scan} (ahead : Ahead option scanner scan) {fault : Fault}
    (failed : scan.ending = .error fault) : Stuck option scanner := by
  obtain ⟨pulls, ending⟩ := scan
  induction pulls generalizing scanner with
  | nil =>
    generalize whole : Scan.mk [] ending = scan at ahead
    cases ahead with
    | content stands => exact stuck_of_content stands (by rw [← whole]) (by rw [← whole]; exact failed)
    | inTag inside free data opens onward behind =>
      have none := (List.append_eq_nil_iff.1 (congrArg Scan.pulls whole).symm).1
      exact absurd (onward ▸ none) (Lexer.pulls_startTagRest_ne_nil _ _)
    | value => cases congrArg Scan.pulls whole
  | cons pull pulls ih =>
    cases handed ahead with
    | token runs left => exact (ih left failed).pulls runs

theorem stuck_iff {scan : Scan} (ahead : Ahead option scanner scan) :
    Stuck option scanner ↔ ∃ fault, scan.ending = .error fault := by
  constructor
  · rintro ⟨reached, tag, comes, searches, cuts⟩
    exact ending_of_comes ahead comes searches cuts
  · rintro ⟨fault, failed⟩
    exact stuck_of_ending ahead failed

end Scanner

namespace Lexer

variable {option : ScanOption} {cursor : Cursor} {mode : Mode}

/-- The piece has no more tokens than characters. -/
def Piece.Within (cursor : Cursor) (piece : Piece) : Prop :=
  piece.pulls.length + piece.cursor.rest.length ≤ cursor.rest.length

theorem within_single {piece : Piece} (single : piece.pulls.length = 1)
    (shorter : piece.cursor.rest.length < cursor.rest.length) : piece.Within cursor := by
  unfold Piece.Within
  omega

theorem length_optional_le {α : Type} (value : Option α) : value.toList.length ≤ 1 := by
  cases value <;> simp

/-- An attribute has a character for its name, and one more if it has a value. -/
theorem within_readAttribute (more : cursor.rest ≠ []) :
    1 + (readAttribute cursor).value.toList.length + (readAttribute cursor).cursor.rest.length ≤
      cursor.rest.length := by
  have positive := List.length_pos_iff.2 more
  have name := one_le_attributeNameLength cursor.rest
  have blanks := length_skipBlanks_le (cursor.advance (attributeNameLength cursor.rest))
  rw [Cursor.length_advance] at blanks
  unfold readAttribute
  simp only
  generalize skipBlanks (cursor.advance (attributeNameLength cursor.rest)) = next at blanks ⊢
  split
  · next back starts =>
    have equals : next.rest.length = back.length + 1 := by rw [starts, List.length_cons]
    have value := length_attributeValue_le (skipBlanks (next.advance 1))
    have further := length_skipBlanks_le (next.advance 1)
    have one := length_optional_le (attributeValue (skipBlanks (next.advance 1))).token
    rw [Cursor.length_advance] at further
    simp only
    omega
  · simp only [Option.toList_none, List.length_nil]
    omega

/-- The end of a tag need not be there. -/
theorem length_startTagRest_pulls (pending : List Problem) (cursor : Cursor) :
    (startTagRest pending cursor).pulls.length +
      (startTagRest pending cursor).cursor.rest.length ≤ cursor.rest.length + 1 := by
  fun_induction startTagRest pending cursor with
  | case1 pending cursor start ended => simp; omega
  | case2 pending cursor start more slashed => simp; omega
  | case3 pending cursor start more unslashed closed => simp; omega
  | case4 pending cursor start more unslashed unclosed solidus ih =>
    have blanks := length_skipBlanks_le (cursor.advance 1)
    simp only [Cursor.length_advance] at blanks
    omega
  | case5 pending cursor more unslashed unclosed plain rest read value ih =>
    have named := within_readAttribute more
    have blanks := length_skipBlanks_le (readAttribute cursor).cursor
    simp only [value, read, rest, List.cons_append, List.length_cons, List.length_append,
      List.length_map]
    omega

theorem within_startTag {c : Char} {back : List Char} (starts : cursor.rest = '<' :: c :: back)
    (letter : c.isAlpha = true) : (startTag cursor).Within cursor := by
  have name : 1 ≤ tagNameLength (cursor.advance 1).rest := by
    simp [tagNameLength, starts, isNameChar_of_isAlpha letter]
  have blanks := length_skipBlanks_le
    ((cursor.advance 1).advance (tagNameLength (cursor.advance 1).rest))
  have pulls := length_startTagRest_pulls []
    (skipBlanks ((cursor.advance 1).advance (tagNameLength (cursor.advance 1).rest)))
  have length : cursor.rest.length = back.length + 2 := by simp [starts]
  simp only [Cursor.length_advance] at blanks
  simp only [Piece.Within, startTag, List.length_cons]
  omega

theorem within_declaration (more : cursor.rest ≠ []) : (declaration cursor).Within cursor := by
  refine within_single ?_ (length_declaration_lt cursor more)
  unfold declaration
  simp only
  repeat' split
  all_goals rfl

theorem within_strayText {kind : ProblemKind} {length problemLength : Nat} (some : length ≠ 0)
    (more : cursor.rest ≠ []) : (strayText kind length problemLength cursor).Within cursor := by
  have positive := List.length_pos_iff.2 more
  refine within_single rfl ?_
  simp only [strayText, Piece.single, Cursor.length_advance]
  omega

theorem within_markup (more : cursor.rest ≠ []) : (markup cursor).Within cursor := by
  unfold markup
  simp only
  split
  · exact within_strayText (by simp) more
  · simp [Piece.Within]
  · split
    · exact within_single rfl (length_endTag_lt cursor more)
    · exact within_single rfl (length_bogusComment_lt _ _ _ more)
  · exact within_declaration more
  · exact within_single rfl (length_bogusComment_lt _ _ _ more)
  · next starts =>
    split
    · next letter => exact within_startTag starts letter
    · exact within_strayText (by simp) more
  · exact within_strayText (by simp) more

theorem within_interpolation {delimiters : Delimiters} (more : cursor.rest ≠ []) :
    (interpolation delimiters cursor).Within cursor := by
  refine within_single ?_ (length_interpolation_lt _ _ more)
  unfold interpolation
  simp only
  split <;> rfl

theorem within_textPiece {decode : Bool} {length : Nat} (some : length ≠ 0)
    (more : cursor.rest ≠ []) : (textPiece decode length cursor).Within cursor :=
  within_single rfl (length_textPiece_lt _ _ _ some more)

theorem within_dataPiece {delimiters : Delimiters} (more : cursor.rest ≠ []) :
    (dataPiece delimiters cursor).Within cursor := by
  unfold dataPiece
  split
  · next some => exact within_textPiece some more
  · split
    · exact within_interpolation more
    · exact within_markup more

theorem within_step {next : Mode} {piece : Piece} (more : cursor.rest ≠ [])
    (stepped : step option cursor mode = .ok (piece, next)) : piece.Within cursor := by
  cases step_cases stepped with
  | content => exact within_dataPiece more
  | interpolation => exact within_interpolation more
  | text _ some => exact within_textPiece some more
  | leave => simp [Piece.Within]

theorem length_scanFrom_pulls (pending : List Problem) :
    (scanFrom option pending cursor mode).pulls.length ≤ cursor.rest.length := by
  fun_induction scanFrom option pending cursor mode with
  | case1 => simp
  | case2 => simp
  | case3 pending cursor mode more piece next stepped none ih =>
    have within := within_step more stepped
    unfold Piece.Within at within
    omega
  | case4 pending cursor mode more piece next stepped first others pulls rest ih =>
    have within := within_step more stepped
    simp only [Piece.Within, pulls, List.length_cons] at within
    simp only [rest, List.cons_append, List.length_cons, List.length_append]
    omega

theorem length_le_byteLength (text : List Char) : text.length ≤ byteLength text := by
  induction text with
  | nil => simp
  | cons c text ih =>
    have positive := c.utf8Size_pos
    simp only [List.length_cons, byteLength_cons]
    omega

end Lexer

/-- What can be said of reading any template. -/
structure ReadsTotally (option : ScanOption) (source : String) : Prop where
  /-- One of the calls for a token fails just if a search for an end tag cuts a character. -/
  fails : (∃ count fault, Scanner.answer option source count = some (.error fault)) ↔
    Scanner.Stuck option (.ofString source)
  /-- No slice is out of range, and what the scanner takes for granted holds. -/
  cuts : ∀ count fault, Scanner.answer option source count = some (.error fault) →
    fault = .splitCharacter
  /-- Every call ends. Up to a fault the calls give the tokens in turn. -/
  answers : ∀ count, Scanner.answer option source count =
    some (match (scan option source).pulls[count]? with
      | some pull => .ok (some pull)
      | none => (scan option source).ending.map fun _ => none)
  /-- Draining ends, with all that reading the template gives. -/
  drained : Scanner.drain option (.ofString source) = some (scan option source)
  /-- If no call fails, nothing comes after the last token. -/
  drains : ¬Scanner.Stuck option (.ofString source) →
    ∀ count, Scanner.answer option source count = some (.ok (scan option source).pulls[count]?)
  bounded : (scan option source).pulls.length ≤ byteLength source.toList + 1
  /-- Each token is a stretch of the source that starts and ends between characters. -/
  slices : ¬Scanner.Stuck option (.ofString source) →
    ∀ token ∈ (scan option source).tokens, ∃ before body later,
      source.toList = before ++ body ++ later ∧
      token.span.start.offset = byteLength before ∧
      token.span.stop.offset = byteLength (before ++ body) ∧
      token.kind.Spells option.delimiters body later

theorem scan_readsTotally (option : ScanOption) (source : String) :
    ReadsTotally option source := by
  have ahead := Scanner.ahead_ofString option source
  have stuck := Scanner.stuck_iff ahead
  have answers : ∀ count, Scanner.answer option source count = some _ := Scanner.result_call ahead
  have ends (free : ¬Scanner.Stuck option (.ofString source)) :
      ∃ found, (scan option source).ending = .ok found := by
    cases ended : (scan option source).ending with
    | error fault => exact absurd (stuck.2 ⟨fault, ended⟩) free
    | ok found => exact ⟨found, rfl⟩
  have faulty {count : Nat} {fault : Fault}
      (failed : Scanner.answer option source count = some (.error fault)) :
      (scan option source).ending = .error fault := by
    rw [answers] at failed
    have given := Option.some.inj failed
    split at given
    · cases given
    · cases ended : (scan option source).ending with
      | error found =>
        rw [ended] at given
        cases given
        rfl
      | ok found =>
        rw [ended] at given
        cases given
  refine ⟨?_, ?_, answers, Scanner.drain_eq ahead, ?_, ?_, ?_⟩
  · rw [stuck]
    constructor
    · rintro ⟨count, fault, failed⟩
      exact ⟨fault, faulty failed⟩
    · rintro ⟨fault, failed⟩
      refine ⟨(scan option source).pulls.length, fault, ?_⟩
      rw [answers, failed]
      simp [Except.map]
  · intro count fault failed
    exact Lexer.fault_of_scanFrom (faulty failed)
  · intro free count
    obtain ⟨found, ended⟩ := ends free
    rw [answers, ended]
    cases (scan option source).pulls[count]? with
    | none => rfl
    | some pull => rfl
  · have few : (scan option source).pulls.length ≤ source.toList.length :=
      Lexer.length_scanFrom_pulls []
    have bytes := Lexer.length_le_byteLength source.toList
    omega
  · intro free
    obtain ⟨found, ended⟩ := ends free
    exact (Lexer.tiled_scanFrom ended).offsets

end TemplateCompiler
