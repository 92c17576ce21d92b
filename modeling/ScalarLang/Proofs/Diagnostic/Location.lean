import ScalarLang.Proofs.Lexing.Positions
import ScalarLang.Proofs.Lowering.Blame
import ScalarLang.Proofs.Reading.FirstError

/-!
# Where diagnostics point

Every error that comes from the text of a source is about a span of it that starts and
stops between two characters.  A syntax error takes its line and its column from reading,
and an error of lowering looks up the start of its span; both find the same place, so both
make the same diagnostic.
-/

set_option autoImplicit false

namespace ScalarLang

/-! ## Spans of a source -/

def Source.IsBoundary (source : Source) (offset : Nat) : Prop :=
  (Text.splitAt? offset source.characters).isSome = true

structure Source.Covers (source : Source) (span : Span) : Prop where
  start : source.IsBoundary span.start
  stop : source.IsBoundary span.stop
  ordered : span.start ≤ span.stop

namespace Source

variable {source : Source} {before rest : List Char}

theorem isBoundary_of_append (isText : source.characters = before ++ rest) :
    source.IsBoundary (Text.byteLength before) := by
  rw [IsBoundary, isText, Text.splitAt?_byteLength]
  rfl

theorem IsBoundary.exists_append {offset : Nat} (isBoundary : source.IsBoundary offset) :
    ∃ before rest, source.characters = before ++ rest ∧ offset = Text.byteLength before := by
  obtain ⟨⟨before, rest⟩, cut⟩ := Option.isSome_iff_exists.mp isBoundary
  obtain ⟨isText, isOffset⟩ := Text.splitAt?_eq_some cut
  exact ⟨before, rest, isText.symm, isOffset.symm⟩

theorem IsBoundary.le_byteLength {offset : Nat} (isBoundary : source.IsBoundary offset) :
    offset ≤ source.byteLength := by
  obtain ⟨before, rest, isText, rfl⟩ := isBoundary.exists_append
  rw [byteLength, isText, Text.byteLength_append]
  exact Nat.le_add_right _ _

/-- A boundary has a line and a column. -/
theorem IsBoundary.exists_lineColumn {offset : Nat} (isBoundary : source.IsBoundary offset) :
    ∃ line column, source.lineColumn? offset = some (line, column) := by
  obtain ⟨before, rest, isText, rfl⟩ := isBoundary.exists_append
  exact ⟨_, _, lineColumn?_advance isText⟩

theorem Covers.union {left right : Span} (first : source.Covers left)
    (second : source.Covers right) : source.Covers (left.union right) := by
  refine ⟨?_, ?_, ?_⟩
  · rw [Span.union_start]
    rcases Nat.le_total left.start right.start with atMost | atLeast
    · rw [Nat.min_eq_left atMost]
      exact first.start
    · rw [Nat.min_eq_right atLeast]
      exact second.start
  · rw [Span.union_stop]
    rcases Nat.le_total left.stop right.stop with atMost | atLeast
    · rw [Nat.max_eq_right atMost]
      exact second.stop
    · rw [Nat.max_eq_left atLeast]
      exact first.stop
  · have ordered := first.ordered
    have orderedRight := second.ordered
    rw [Span.union_start, Span.union_stop]
    omega

end Source

/-! ## Tokens and endings -/

/-- A span of a source starts at a position that reading comes to. -/
structure Source.Places (source : Source) (span : Span) (position : Position) : Prop where
  covers : source.Covers span
  start_eq : span.start = position.offset
  reaches : Lexer.Reaches source.characters position

namespace Source

variable {source : Source}

theorem Places.lineColumn?_eq {span : Span} {position : Position}
    (places : source.Places span position) :
    source.lineColumn? span.start = some (position.line, position.column) := by
  rw [places.start_eq]
  exact lineColumn?_of_reaches places.reaches

/-- A piece of a source is placed where the text before it ends. -/
theorem places_of_append {before piece rest : List Char} {position : Position}
    (isText : source.characters = before ++ (piece ++ rest))
    (isPosition : position = Position.initial.advance before) :
    source.Places ⟨position.offset, position.offset + Text.byteLength piece⟩ position := by
  have isOffset : position.offset = Text.byteLength before := by
    rw [isPosition, Position.advance_offset]
    exact Nat.zero_add _
  have isLonger : source.characters = (before ++ piece) ++ rest := by
    rw [isText, List.append_assoc]
  have isStop := isBoundary_of_append isLonger
  rw [Text.byteLength_append, ← isOffset] at isStop
  refine ⟨⟨?_, isStop, Nat.le_add_right _ _⟩, rfl, before, piece ++ rest, isText, isPosition⟩
  change source.IsBoundary position.offset
  rw [isOffset]
  exact isBoundary_of_append isText

theorem places_token {token : Token} (member : token ∈ source.reader.tokens) :
    source.Places token.span token.position := by
  obtain ⟨all, stop, rest, ending, tiles, ends, isStream⟩ :=
    Lexer.exists_tiles_ofText source.characters
  unfold reader at member
  rw [isStream] at member
  obtain ⟨left, right, rfl⟩ := List.append_of_mem (List.mem_filter.mp member).1
  obtain ⟨middle, between, tilesLeft, tilesRight⟩ := Tiles.append_iff.mp tiles
  have isText : source.characters =
      charactersOf left ++ (token.characters ++ (charactersOf right ++ rest)) := by
    rw [tilesLeft.text_eq, tilesRight.text_eq, charactersOf_cons, List.append_assoc]
  have isPosition : token.position = Position.initial.advance (charactersOf left) := by
    rw [tilesRight.head_position, tilesLeft.position_eq]
  exact places_of_append isText isPosition

theorem places_ending (source : Source) :
    source.Places (.empty source.reader.ending.position.offset) source.reader.ending.position := by
  obtain ⟨all, stop, rest, ending, tiles, ends, isStream⟩ :=
    Lexer.exists_tiles_ofText source.characters
  have isPosition : source.reader.ending.position = stop := by
    unfold reader
    rw [isStream]
    cases ends <;> rfl
  rw [isPosition]
  have isText : source.characters = charactersOf all ++ ([] ++ rest) := tiles.text_eq
  exact places_of_append isText tiles.position_eq

theorem places_fault {fault : LexError} (isFault : source.reader.ending = .fault fault) :
    source.Places fault.span fault.position := by
  obtain ⟨all, stop, rest, ending, tiles, ends, isStream⟩ :=
    Lexer.exists_tiles_ofText source.characters
  unfold reader at isFault
  rw [isStream] at isFault
  dsimp only at isFault
  subst isFault
  cases ends with
  | @fault first others _ _ =>
      have isText : source.characters = charactersOf all ++ ([first] ++ others) := tiles.text_eq
      exact places_of_append isText tiles.position_eq

end Source

/-! ## Syntax errors -/

def SyntaxError.IsPlaced (error : SyntaxError) (source : Source) : Prop :=
  ∃ position, source.Places error.span position ∧ error.line = position.line ∧
    error.column = position.column

namespace Source.Stops

variable {source : Source} {error : SyntaxError} {passed seen : List Token} {stopped : Reader}

/-- Wherever reading stops, an error is placed at the next token or at the end. -/
theorem isPlaced_errorHere (stops : source.Stops error passed stopped) (fault : SyntaxFault) :
    (stopped.errorHere fault).IsPlaced source := by
  unfold Reader.errorHere
  cases present : stopped.current? with
  | none =>
      rw [stops.passes.ending_eq]
      exact ⟨_, source.places_ending, rfl, rfl⟩
  | some token =>
      have inStopped : token ∈ stopped.tokens := List.mem_of_mem_head? present
      have member : token ∈ source.reader.tokens := by
        rw [stops.passes.tokens_eq]
        exact List.mem_append_right _ inStopped
      exact ⟨_, Source.places_token member, rfl, rfl⟩

theorem isPlaced (stops : source.Stops error passed stopped) (fails : stopped.Fails error seen) :
    error.IsPlaced source := by
  cases fails with
  | unexpected wanted => exact stops.isPlaced_errorHere _
  | unsupported construct _ => exact stops.isPlaced_errorHere _
  | literal _ _ _ => exact stops.isPlaced_errorHere _
  | fault _ isFault =>
      rw [stops.passes.ending_eq] at isFault
      exact ⟨_, Source.places_fault isFault, rfl, rfl⟩

end Source.Stops

theorem Module.isPlaced_of_ofSource {source : Source} {error : SyntaxError}
    (rejected : Module.ofSource source = .error error) : error.IsPlaced source := by
  rcases Module.ofSource_eq_error rejected with ⟨fault, -, isFault, rfl⟩ |
    ⟨-, passed, stopped, seen, stops, fails, -⟩
  · exact ⟨_, Source.places_fault isFault, rfl, rfl⟩
  · exact stops.isPlaced fails

/-- An error of lowering an accepted source has a span of the source. -/
theorem Module.covers_of_compile {source : Source} {program : Module} {target : Target}
    {name : String} {error : LoweringError} (accepted : Module.ofSource source = .ok program)
    (rejected : program.compile target name = .error error) : error.Located source.Covers := by
  refine Module.blames_compile ?_ error rejected
  refine (Module.isProgram_ofSource accepted).allSpans (fun _ _ => Source.Covers.union) ?_
  exact fun token member => (Source.places_token member).covers

/-! ## Diagnostics -/

namespace CompileError

def message : CompileError → String
  | .reading error => error.fault.message
  | .lowering error => error.message

def span? : CompileError → Option Span
  | .reading error => some error.span
  | .lowering error => error.span?

def FromText : CompileError → Prop
  | .reading _ => True
  | .lowering error => error.FromText

/-- An error is about a span of a source, and its diagnostic points to the line and column
that the index of the source gives for the start of the span. -/
structure LocatedAt (error : CompileError) (source : Source) (span : Span) (line column : Nat) :
    Prop where
  span_eq : error.span? = some span
  ordered : span.start ≤ span.stop
  inside : span.stop ≤ source.byteLength
  isBoundary : source.IsBoundary span.start
  lineColumn_eq : source.lineColumn? span.start = some (line, column)
  location_eq : (error.diagnostic source).location = some ⟨source.name, line, column⟩
  excerpt_eq : (error.diagnostic source).excerpt = some (source.excerpt line column)
  withSpan_eq : error.diagnostic source = (Diagnostic.error error.message).withSpan source span

/-- A diagnostic points to the start of a span that the source covers if it is the one that
the span gives. -/
theorem locatedAt_of_withSpan {error : CompileError} {source : Source} {span : Span}
    {line column : Nat} (isSpan : error.span? = some span) (covers : source.Covers span)
    (isPlace : source.lineColumn? span.start = some (line, column))
    (same : error.diagnostic source = (Diagnostic.error error.message).withSpan source span) :
    error.LocatedAt source span line column where
  span_eq := isSpan
  ordered := covers.ordered
  inside := covers.stop.le_byteLength
  isBoundary := covers.start
  lineColumn_eq := isPlace
  location_eq := by
    rw [same, Diagnostic.withSpan, isPlace]
    rfl
  excerpt_eq := by
    rw [same, Diagnostic.withSpan, isPlace]
    rfl
  withSpan_eq := same

end CompileError

/-- Every error that comes from the text of a source is located in it: its diagnostic points
to the start of its span, whether the place was counted while reading or is looked up. -/
theorem compile_error_located (source : Source) (target : Target) (error : CompileError)
    (rejected : source.compile target = .error error) (fromText : error.FromText) :
    ∃ span line column, error.LocatedAt source span line column := by
  unfold Source.compile Source.compileOn at rejected
  cases outcome : Module.ofSource source with
  | error failure =>
      rw [outcome] at rejected
      cases rejected
      obtain ⟨position, places, isLine, isColumn⟩ := Module.isPlaced_of_ofSource outcome
      refine ⟨failure.span, position.line, position.column,
        CompileError.locatedAt_of_withSpan rfl places.covers places.lineColumn?_eq ?_⟩
      rw [Diagnostic.withSpan, places.lineColumn?_eq, ← isLine, ← isColumn]
      rfl
  | ok program =>
      rw [outcome] at rejected
      dsimp only at rejected
      rw [Module.compileOn_standard] at rejected
      cases lowered : program.compile target (moduleName source.name) with
      | ok compiled =>
          rw [lowered] at rejected
          cases rejected
      | error failure =>
          rw [lowered] at rejected
          cases rejected
          obtain ⟨span, isSpan, covers⟩ := Module.covers_of_compile outcome lowered fromText
          obtain ⟨line, column, isPlace⟩ := covers.start.exists_lineColumn
          refine ⟨span, line, column,
            CompileError.locatedAt_of_withSpan isSpan covers isPlace ?_⟩
          change failure.diagnostic source = _
          rw [LoweringError.diagnostic, isSpan]
          rfl

/-- A source that adds an integer and a truth value, after comments with characters of two
bytes. -/
def mixedSource : Source := .ofText "mixed" "// é
fn f(a: Int) -> Int \x7b
  print_arg(arg: a) // ö
  return a + (true)
\x7d"

/-- The sum is reported, from its first operand to the parenthesis after the second. -/
theorem mixedSource_error_located : ∃ error,
    mixedSource.compile ⟨"x86_64", .systemV, .i64, .elf, true⟩ = .error error ∧
    error = .lowering (.operandMismatch "+" .i64 .i8 ⟨63, 73⟩) ∧ error.FromText ∧
    ∃ span line column, error.LocatedAt mixedSource span line column := by
  have rejected : mixedSource.compile ⟨"x86_64", .systemV, .i64, .elf, true⟩ =
      .error (.lowering (.operandMismatch "+" .i64 .i8 ⟨63, 73⟩)) := by
    decide +kernel
  exact ⟨_, rejected, rfl, trivial, compile_error_located mixedSource _ _ rejected trivial⟩

end ScalarLang
