import TemplateCompiler.Proofs.TokenTiling

/-! Who reports an end tag that is missing or closes nothing. Reading never does, however wrong a tag
is by itself, and neither do attributes and directives: whether tags nest is left to the builder. -/

namespace TemplateCompiler

def ProblemKind.isOfEndTag : ProblemKind → Bool
  | .invalidEndTag | .missingEndTag => true
  | _ => false

def SparesEndTags (problems : List Problem) : Prop :=
  ∀ problem ∈ problems, problem.kind.isOfEndTag = false

theorem sparesEndTags_nil : SparesEndTags [] :=
  List.forall_mem_nil _

theorem sparesEndTags_append {first second : List Problem} :
    SparesEndTags (first ++ second) ↔ SparesEndTags first ∧ SparesEndTags second :=
  List.forall_mem_append

theorem sparesEndTags_cons {problem : Problem} {rest : List Problem} :
    SparesEndTags (problem :: rest) ↔
      problem.kind.isOfEndTag = false ∧ SparesEndTags rest :=
  List.forall_mem_cons

namespace Lexer

theorem spares_problem {kind : ProblemKind} {start : Position} {cursor : Cursor}
    (other : kind.isOfEndTag = false) : SparesEndTags [problem kind start cursor] :=
  List.forall_mem_singleton.mpr other

/-- Nothing in the piece is reported about end tags. -/
structure Piece.Spares (piece : Piece) : Prop where
  pulls : ∀ pull ∈ piece.pulls, SparesEndTags pull.problems
  problems : SparesEndTags piece.problems

theorem spares_single {token : Token} {problems : List Problem} {cursor : Cursor}
    (spared : SparesEndTags problems) : (Piece.single token problems cursor).Spares :=
  ⟨List.forall_mem_singleton.mpr spared, sparesEndTags_nil⟩

theorem spares_afterQuotedValue (token : Token) (cursor : Cursor) :
    SparesEndTags (afterQuotedValue token cursor).problems := by
  unfold afterQuotedValue
  split
  · exact sparesEndTags_nil
  · split
    · exact spares_problem rfl
    · exact sparesEndTags_nil

theorem spares_attributeValue (cursor : Cursor) :
    SparesEndTags (attributeValue cursor).problems := by
  unfold attributeValue
  split
  · exact spares_problem rfl
  · split
    · exact spares_problem rfl
    · split
      · simp only [quotedValue]
        split <;> exact spares_afterQuotedValue _ _
      · simp only [unquotedValue]
        split
        · exact spares_problem rfl
        · exact sparesEndTags_nil

theorem spares_readAttribute (cursor : Cursor) :
    SparesEndTags (readAttribute cursor).problems := by
  have named (name : String) (behind : Cursor) :
      SparesEndTags (attributeNameProblems name cursor.position behind) := by
    unfold attributeNameProblems
    split
    · exact spares_problem rfl
    · split
      · exact spares_problem rfl
      · exact sparesEndTags_nil
  simp only [readAttribute]
  split
  · exact sparesEndTags_append.mpr ⟨named _ _, spares_attributeValue _⟩
  · exact named _ _

theorem spares_startTagRest (cursor : Cursor) {pending : List Problem}
    (spared : SparesEndTags pending) :
    ∀ pull ∈ (startTagRest pending cursor).pulls, SparesEndTags pull.problems := by
  fun_induction startTagRest pending cursor with
  | case1 pending cursor =>
    have ending : SparesEndTags [problem .eofInTag cursor.position cursor] := spares_problem rfl
    exact List.forall_mem_singleton.mpr (sparesEndTags_append.mpr ⟨spared, ending⟩)
  | case2 => exact List.forall_mem_singleton.mpr spared
  | case3 => exact List.forall_mem_singleton.mpr spared
  | case4 pending cursor start more unslashed unclosed solidus ih =>
    exact ih (sparesEndTags_append.mpr ⟨spared, spares_problem rfl⟩)
  | case5 pending cursor more unslashed unclosed plain rest read value ih =>
    refine List.forall_mem_cons.mpr ⟨?_, List.forall_mem_append.mpr ⟨?_, ih sparesEndTags_nil⟩⟩
    · exact sparesEndTags_append.mpr ⟨spared, spares_readAttribute cursor⟩
    · exact List.forall_mem_map.mpr fun _ _ => sparesEndTags_nil

theorem spares_startTag (cursor : Cursor) : (startTag cursor).Spares := by
  constructor
  · exact List.forall_mem_cons.mpr ⟨sparesEndTags_nil, spares_startTagRest _ sparesEndTags_nil⟩
  · exact sparesEndTags_nil

theorem spares_endTagRest (cursor : Cursor) : SparesEndTags (endTagRest cursor).problems := by
  fun_induction endTagRest cursor with
  | case1 => exact sparesEndTags_nil
  | case2 cursor going solidus rest found ih =>
    exact sparesEndTags_cons.mpr ⟨rfl, ih⟩
  | case3 cursor going plain rest ih =>
    exact sparesEndTags_append.mpr ⟨spares_readAttribute cursor, ih⟩

theorem spares_closeEndTag (start : Position) (cursor : Cursor) :
    SparesEndTags (closeEndTag start cursor).1 := by
  unfold closeEndTag
  split
  · exact spares_problem rfl
  · split
    · exact spares_problem rfl
    · exact sparesEndTags_nil

/-- However an end tag is spelled, what it closes is not asked in reading it. -/
theorem spares_endTag (cursor : Cursor) : (endTag cursor).Spares := by
  apply spares_single
  refine sparesEndTags_append.mpr ⟨sparesEndTags_append.mpr ⟨spares_endTagRest _, ?_⟩,
    spares_closeEndTag _ _⟩
  split
  · exact spares_problem rfl
  · exact sparesEndTags_nil

theorem spares_nestedComments (length : Nat) (cursor : Cursor) :
    SparesEndTags (nestedComments length cursor).1 := by
  fun_induction nestedComments length cursor with
  | case1 => exact sparesEndTags_nil
  | case2 length cursor index found after problems rest ih =>
    refine sparesEndTags_append.mpr ⟨?_, ih⟩
    simp only [problems]
    split
    · exact sparesEndTags_nil
    · exact spares_problem rfl

theorem spares_comment (cursor : Cursor) : (comment cursor).Spares := by
  apply spares_single
  apply sparesEndTags_append.mpr
  constructor
  · simp only [commentText]
    split
    · split
      · exact spares_problem rfl
      · exact spares_nestedComments _ _
    · exact spares_nestedComments _ _
  · unfold closeComment
    split
    · exact spares_problem rfl
    · split
      · exact spares_problem rfl
      · split <;> exact sparesEndTags_nil

theorem spares_declaration (cursor : Cursor) : (declaration cursor).Spares := by
  unfold declaration
  dsimp only
  split
  · exact spares_comment cursor
  · split
    · exact spares_single sparesEndTags_nil
    · split <;> exact spares_single (spares_problem rfl)

theorem spares_textPiece (decode : Bool) (length : Nat) (cursor : Cursor) :
    (textPiece decode length cursor).Spares := by
  apply spares_single
  split
  · exact spares_problem rfl
  · exact sparesEndTags_nil

theorem spares_interpolation (delimiters : Delimiters) (cursor : Cursor) :
    (interpolation delimiters cursor).Spares := by
  unfold interpolation
  dsimp only
  split
  · exact spares_single sparesEndTags_nil
  · exact spares_single (spares_problem rfl)

theorem spares_markup (cursor : Cursor) : (markup cursor).Spares := by
  unfold markup
  dsimp only
  split
  · exact spares_single (spares_problem rfl)
  · exact ⟨List.forall_mem_nil _, spares_problem rfl⟩
  · split
    · exact spares_endTag cursor
    · exact spares_single (spares_problem rfl)
  · exact spares_declaration cursor
  · exact spares_single (spares_problem rfl)
  · split
    · exact spares_startTag cursor
    · exact spares_single (spares_problem rfl)
  · exact spares_single (spares_problem rfl)

theorem spares_step {option : ScanOption} {cursor : Cursor} {mode next : Mode} {piece : Piece}
    (stepped : step option cursor mode = .ok (piece, next)) : piece.Spares := by
  cases step_cases stepped with
  | content =>
    unfold dataPiece
    split
    · exact spares_textPiece _ _ cursor
    · split
      · exact spares_interpolation _ cursor
      · exact spares_markup cursor
  | interpolation => exact spares_interpolation _ cursor
  | text => exact spares_textPiece _ _ cursor
  | leave => exact ⟨List.forall_mem_nil _, sparesEndTags_nil⟩

theorem spares_scanFrom {option : ScanOption} {pending : List Problem} {cursor : Cursor} {mode : Mode}
    (spared : SparesEndTags pending) :
    (∀ pull ∈ (scanFrom option pending cursor mode).pulls, SparesEndTags pull.problems) ∧
      ∀ problems, (scanFrom option pending cursor mode).ending = .ok problems →
        SparesEndTags problems := by
  fun_induction scanFrom option pending cursor mode with
  | case1 pending cursor mode empty =>
    refine ⟨List.forall_mem_nil _, ?_⟩
    intro problems ended
    cases ended
    exact spared
  | case2 =>
    refine ⟨List.forall_mem_nil _, ?_⟩
    intro problems ended
    cases ended
  | case3 pending cursor mode more piece next stepped none ih =>
    exact ih (sparesEndTags_append.mpr ⟨spared, (spares_step stepped).problems⟩)
  | case4 pending cursor mode more piece next stepped first others pulls rest ih =>
    obtain ⟨read, problems⟩ := spares_step stepped
    rw [pulls] at read
    obtain ⟨front, back⟩ := List.forall_mem_cons.mp read
    obtain ⟨later, ending⟩ := ih problems
    refine ⟨List.forall_mem_cons.mpr ⟨?_, List.forall_mem_append.mpr ⟨back, later⟩⟩, ending⟩
    exact sparesEndTags_append.mpr ⟨spared, front⟩

end Lexer

namespace DirectiveName

theorem spares_readArgument (text : List Char) :
    ∀ kind ∈ (readArgument text).problems, kind.isOfEndTag = false := by
  unfold readArgument
  split
  · split
    · unfold afterBracket
      split
      · exact List.forall_mem_nil _
      · exact List.forall_mem_nil _
      · exact List.forall_mem_singleton.mpr rfl
    · exact List.forall_mem_singleton.mpr rfl
  · dsimp only
    split
    · exact List.forall_mem_singleton.mpr rfl
    · exact List.forall_mem_nil _

theorem spares_assemble (name : String) (leading : List String) {read : ReadArgument}
    (found : ∀ kind ∈ read.problems, kind.isOfEndTag = false) :
    ∀ kind ∈ (assemble name leading read).2, kind.isOfEndTag = false := by
  unfold assemble
  split
  · exact found
  · refine List.forall_mem_append.mpr ⟨found, ?_⟩
    exact List.forall_mem_map.mpr fun _ _ => rfl

theorem spares_parse (name : String) : ∀ kind ∈ (parse name).2, kind.isOfEndTag = false := by
  unfold parse
  split
  · dsimp only
    split
    · exact List.forall_mem_singleton.mpr rfl
    · apply spares_assemble
      unfold readLongArgument
      split
      · exact spares_readArgument _
      · exact List.forall_mem_nil _
      · exact List.forall_mem_nil _
  · apply spares_assemble
    unfold readShortArgument
    split <;> exact spares_readArgument _
  · exact List.forall_mem_nil _

end DirectiveName

theorem Builder.spares_readProperties (seen : List String) (attributes : List Attribute) :
    SparesEndTags (readProperties seen attributes).2 := by
  induction attributes generalizing seen with
  | nil => exact sparesEndTags_nil
  | cons given rest ih =>
    simp only [readProperties]
    split
    · exact sparesEndTags_cons.mpr ⟨rfl, ih seen⟩
    · split
      · have found : SparesEndTags ((DirectiveName.parse given.name).2.map fun kind =>
            { kind, span := given.nameSpan : Problem }) := by
          intro problem member
          obtain ⟨kind, inside, rfl⟩ := List.mem_map.mp member
          exact DirectiveName.spares_parse given.name kind inside
        split
        · exact sparesEndTags_append.mpr ⟨found, ih _⟩
        · exact sparesEndTags_append.mpr ⟨found, ih _⟩
      · exact ih _

end TemplateCompiler
