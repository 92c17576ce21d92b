import ScalarLang.Proofs.Lexing.Positions
import ScalarLang.Token.Cursor

/-!
# Cursors cut between characters

A cursor computes lengths and offsets in bytes and cuts the text there.  Every length it computes
is the length of a lexeme that starts the rest of the text, so no cut fails, and a cursor does call
by call what a lexer does that walks over the characters.
-/

set_option autoImplicit false

namespace ScalarLang

/-! ## The last newline -/

namespace Text

theorem findLast?_of_not_mem {text : List Char} (noNewline : '\n' ∉ text) :
    findLast? (· == '\n') text = none := by
  induction text with
  | nil => rfl
  | cons first others inductionHypothesis =>
      obtain ⟨notNewline, noneLater⟩ := not_or.mp (mt List.mem_cons.mpr noNewline)
      rw [findLast?, inductionHypothesis noneLater]
      exact if_neg (by simpa using Ne.symm notNewline)

theorem findLast?_newline {line : List Char} (noNewline : '\n' ∉ line) (before : List Char) :
    findLast? (· == '\n') (before ++ '\n' :: line) = some (byteLength before) := by
  induction before with
  | nil =>
      rw [List.nil_append, findLast?, findLast?_of_not_mem noNewline]
      rfl
  | cons first others inductionHypothesis =>
      rw [List.cons_append, findLast?, inductionHypothesis, byteLength_cons, Nat.add_comm]

theorem cutFrom_newline (before line : List Char) :
    cutFrom (before ++ '\n' :: line) (byteLength before + 1) = .ok line := by
  have isCut := cutFrom_append (before ++ ['\n']) line
  rwa [byteLength_append, List.append_assoc] at isCut

end Text

namespace Cursor

/-! ## Places of a lexer -/

def Piece.ofToken (token : Token) : Piece :=
  ⟨token.kind, token.text, token.span, token.position.line, token.position.column⟩

def Failure.ofError (error : LexError) : Failure :=
  ⟨error.fault, error.span, error.position.line, error.position.column⟩

def answerOf : Option (Except LexError Token) → Option (Except Failure Piece)
  | none => none
  | some (.error error) => some (.error (.ofError error))
  | some (.ok token) => some (.ok (.ofToken token))

def ofLexer (text : List Char) (lexer : Lexer) : Cursor :=
  ⟨text, lexer.position.offset, lexer.position.line, lexer.position.column, lexer.keepsTrivia,
    lexer.finished⟩

section

variable {text : List Char} {lexer : Lexer} {first : Char} {others : List Char}

theorem advance_ofLexer (text : List Char) (lexer : Lexer) (passed rest : List Char) :
    (ofLexer text lexer).advance passed = .ok (ofLexer text (lexer.consume passed rest)) := by
  have isOffset := Position.advance_offset passed lexer.position
  have isLine := Position.advance_line passed lexer.position
  unfold ofLexer Lexer.consume advance
  dsimp only
  rcases Text.last_newline passed with noNewline | ⟨before, line, rfl, noNewline⟩
  · rw [Text.findLast?_of_not_mem noNewline, isOffset, isLine,
      Position.advance_column passed noNewline, List.count_eq_zero_of_not_mem noNewline]
    rfl
  · rw [Text.findLast?_newline noNewline, isOffset, isLine,
      Position.advance_column_newline _ _ _ noNewline]
    dsimp only
    rw [Text.cutFrom_newline]
    rfl

/-- The text that a lexer is to read is what stands from its offset on. -/
theorem cutFrom_of_standsIn (stands : lexer.StandsIn text) :
    Text.cutFrom text lexer.position.offset = .ok lexer.rest := by
  obtain ⟨before, isText, isPosition⟩ := stands
  have isOffset : lexer.position.offset = Text.byteLength before := by
    rw [isPosition, Position.advance_offset]
    exact Nat.zero_add _
  rw [isText, isOffset]
  exact Text.cutFrom_append before lexer.rest

theorem byteLength_of_standsIn (stands : lexer.StandsIn text) :
    Text.byteLength text = lexer.position.offset + Text.byteLength lexer.rest := by
  obtain ⟨before, isText, isPosition⟩ := stands
  rw [isText, Text.byteLength_append, isPosition, Position.advance_offset]
  simp [Position.initial]

theorem scanToken_of_refused {fault : LexFault} (stands : lexer.StandsIn text)
    (isRest : lexer.rest = first :: others) (refused : Lexeme.scan first others = .error fault) :
    (ofLexer text lexer).scanToken =
      .ok (.error (.ofError ⟨fault, lexer.position, first.utf8Size⟩), ofLexer text lexer) := by
  have isCut := cutFrom_of_standsIn stands
  unfold scanToken
  dsimp only [ofLexer]
  rw [isCut, isRest]
  dsimp only [bind, Except.bind]
  rw [scan_cons, refused]
  rfl

theorem scanToken_of_scanned {lexeme : Lexeme} (stands : lexer.StandsIn text)
    (isRest : lexer.rest = first :: others) (scanned : Lexeme.scan first others = .ok lexeme) :
    (ofLexer text lexer).scanToken =
      .ok (.ok (.ofToken (lexeme.token lexer.position first others)),
        ofLexer text (lexer.consume (first :: others.take lexeme.tail)
          (others.drop lexeme.tail))) := by
  have isCut := cutFrom_of_standsIn stands
  have isBefore := Text.cutBefore_append (first :: others.take lexeme.tail)
    (others.drop lexeme.tail)
  rw [List.cons_append, List.take_append_drop] at isBefore
  have isSpan : (lexeme.token lexer.position first others).span = ⟨lexer.position.offset,
      lexer.position.offset + Text.byteLength (first :: others.take lexeme.tail)⟩ := by
    rw [Token.span, ← Token.characters, Lexeme.characters_token]
    rfl
  unfold scanToken
  have isRestHere : Text.cutFrom (ofLexer text lexer).text (ofLexer text lexer).offset =
      .ok (first :: others) := by
    rw [← isRest]
    exact isCut
  rw [isRestHere]
  dsimp only [bind, Except.bind]
  rw [scan_cons, scanned]
  dsimp only [Except.map, Lexeme.measured]
  rw [isBefore]
  dsimp only
  rw [advance_ofLexer text lexer _ (others.drop lexeme.tail)]
  dsimp only [Piece.ofToken]
  rw [isSpan]
  rfl

end

/-! ## One call -/

section

variable {cursor after : Cursor}

theorem next_of_finished (isFinished : cursor.finished = true) :
    cursor.next = .ok (none, cursor) := by
  rw [next.eq_def, if_pos isFinished]

theorem next_of_end (notFinished : ¬ cursor.finished = true)
    (isEnd : Text.byteLength cursor.text ≤ cursor.offset) :
    cursor.next = .ok (none, { cursor with finished := true }) := by
  rw [next.eq_def, if_neg notFinished, dif_pos isEnd]

theorem next_of_failure {failure : Failure} (notFinished : ¬ cursor.finished = true)
    (notEnd : ¬ Text.byteLength cursor.text ≤ cursor.offset)
    (fails : cursor.scanToken = .ok (.error failure, after)) :
    cursor.next = .ok (some (.error failure), { after with finished := true }) := by
  rw [next.eq_def, if_neg notFinished, dif_neg notEnd]
  split
  · rename_i isScan
    rw [fails] at isScan
    cases isScan
  · rename_i isScan
    rw [fails] at isScan
    cases isScan
    rfl
  · rename_i isScan
    rw [fails] at isScan
    cases isScan

theorem next_of_piece {piece : Piece} (notFinished : ¬ cursor.finished = true)
    (notEnd : ¬ Text.byteLength cursor.text ≤ cursor.offset)
    (isPiece : cursor.scanToken = .ok (.ok piece, after)) :
    cursor.next = if (piece.kind.isTrivia && !cursor.keepsTrivia) = true then after.next
      else .ok (some (.ok piece), after) := by
  rw [next.eq_def, if_neg notFinished, dif_neg notEnd]
  split
  · rename_i isScan
    rw [isPiece] at isScan
    cases isScan
  · rename_i isScan
    rw [isPiece] at isScan
    cases isScan
  · rename_i isScan
    rw [isPiece] at isScan
    cases isScan
    rfl

end

section

variable {text : List Char} {lexer : Lexer} {first : Char} {others : List Char}

theorem before_end (stands : lexer.StandsIn text) (isRest : lexer.rest = first :: others) :
    ¬ Text.byteLength text ≤ lexer.position.offset := by
  have isLength := byteLength_of_standsIn stands
  have positive := Text.byteLength_pos (List.cons_ne_nil first others)
  rw [isRest] at isLength
  omega

/-- A call of a cursor gives what the call of a lexer at the same place gives. -/
theorem next_ofLexer (stands : lexer.StandsIn text) :
    (ofLexer text lexer).next = .ok (answerOf lexer.next.1, ofLexer text lexer.next.2) := by
  fun_induction Lexer.next lexer with
  | case1 lexer isFinished => exact next_of_finished isFinished
  | case2 lexer notFinished isRest =>
      have atEnd := byteLength_of_standsIn stands
      rw [isRest, Text.byteLength_nil, Nat.add_zero] at atEnd
      exact next_of_end notFinished (Nat.le_of_eq atEnd)
  | case3 lexer notFinished first others isRest fault refused =>
      exact next_of_failure notFinished (before_end stands isRest)
        (scanToken_of_refused stands isRest refused)
  | case4 lexer notFinished first others isRest lexeme scanned taken after shorter skipped
      inductionHypothesis =>
      have standsAfter : after.StandsIn text := by
        apply stands.consume
        rw [isRest, List.cons_append, List.take_append_drop]
      rw [next_of_piece notFinished (before_end stands isRest)
        (scanToken_of_scanned stands isRest scanned)]
      exact (if_pos skipped).trans (inductionHypothesis standsAfter)
  | case5 lexer notFinished first others isRest lexeme scanned taken after shorter given =>
      rw [next_of_piece notFinished (before_end stands isRest)
        (scanToken_of_scanned stands isRest scanned)]
      exact if_neg given

end

/-! ## Calls one after the other -/

/-- The cursor after a number of calls of `next`, unless a cut failed in one of them. -/
def after (cursor : Cursor) : Nat → Except Text.CutError Cursor
  | 0 => .ok cursor
  | count + 1 => do
    let reached ← cursor.after count
    let result ← reached.next
    return result.2

theorem after_ofLexer {text : List Char} {lexer : Lexer} (stands : lexer.StandsIn text)
    (count : Nat) : (ofLexer text lexer).after count = .ok (ofLexer text (lexer.after count)) := by
  induction count with
  | zero => rfl
  | succ count inductionHypothesis =>
      rw [after, inductionHypothesis]
      dsimp only [bind, Except.bind]
      rw [next_ofLexer (stands.after count)]
      rfl

inductive Yields : Cursor → List Piece → Cursor → Prop
  | none {cursor : Cursor} : Yields cursor [] cursor
  | next {cursor middle after : Cursor} {piece : Piece} {pieces : List Piece}
      (gives : cursor.next = .ok (some (.ok piece), middle)) (yields : Yields middle pieces after) :
      Yields cursor (piece :: pieces) after

section

variable {text rest more : List Char} {position stop : Position} {tokens : List Token}

theorem yields_of_tiles (tiles : Tiles position rest tokens stop more)
    (stands : Lexer.StandsIn text ⟨rest, position, true, false⟩) :
    Yields (ofLexer text ⟨rest, position, true, false⟩) (tokens.map .ofToken)
      (ofLexer text ⟨more, stop, true, false⟩) := by
  induction tiles with
  | none => exact .none
  | @next position stop first others more lexeme tokens scanned tiles inductionHypothesis =>
      have gives := next_ofLexer stands
      have standsNext := stands.next.1
      rw [Lexer.next_of_given scanned rfl] at gives standsNext
      exact .next gives (inductionHypothesis standsNext)

theorem standsIn_of_tiles (tiles : Tiles .initial text tokens stop more) :
    Lexer.StandsIn text ⟨more, stop, true, false⟩ :=
  ⟨charactersOf tokens, tiles.text_eq, tiles.position_eq⟩

end

/-! ## Lengths -/

/-- The length that scanning gives for a text is positive, in the text and between characters. -/
structure Measures (rest : List Char) (length : Nat) : Prop where
  positive : 0 < length
  inside : length ≤ Text.byteLength rest
  between : ∃ before after, Text.splitAt? length rest = some (before, after)

theorem measures_of_scan {rest : List Char} {kind : TokenKind} {length : Nat}
    (scanned : scan rest = .ok (.ok (kind, length))) : Measures rest length := by
  have positive := scan_length_pos scanned
  cases rest with
  | nil => cases scanned
  | cons first others =>
      rw [scan_cons] at scanned
      cases isLexeme : Lexeme.scan first others with
      | error fault =>
          rw [isLexeme] at scanned
          cases scanned
      | ok lexeme =>
          rw [isLexeme] at scanned
          cases scanned
          have isCut := Text.splitAt?_byteLength (first :: others.take lexeme.tail)
            (others.drop lexeme.tail)
          rw [List.cons_append, List.take_append_drop] at isCut
          refine ⟨positive, ?_, _, _, isCut⟩
          rw [← (Text.splitAt?_eq_some isCut).1, Text.byteLength_append]
          exact Nat.le_add_right _ _

/-- The escaped quote does not close the string, and the accented letter counts for two bytes. -/
example : scan "\"é\\\"\" + 1".toList = .ok (.ok (.string, 6)) := by decide +kernel

theorem exists_scan (rest : List Char) : ∃ outcome, scan rest = .ok outcome := by
  cases rest with
  | nil => exact ⟨_, rfl⟩
  | cons first others => exact ⟨_, scan_cons first others⟩

/-! ## Pieces and the text -/

def Piece.part (piece : Piece) : Span × String := (piece.span, piece.text)

/-- What the call after some pieces gives: nothing if they are the whole text, and otherwise a
failure of one character right after them. -/
inductive StopsAfter (text : List Char) (pieces : List Piece) :
    Option (Except Failure Piece) → Prop where
  | finished (whole : pieces.flatMap (fun piece => piece.text.toList) = text) :
      StopsAfter text pieces none
  | failure {failure : Failure} {character : Char}
      (starts : failure.span.start = lastStop (pieces.map Piece.span))
      (covers : Text.slice? text failure.span.start failure.span.stop = some [character]) :
      StopsAfter text pieces (some (.error failure))

theorem stopsAfter_of_tiles {text rest : List Char} {tokens : List Token} {stop : Position}
    {ending : Ending} (tiles : Tiles .initial text tokens stop rest) (ends : Ends stop rest ending)
    (keeps : Bool) : StopsAfter text (tokens.map .ofToken)
      (answerOf (⟨rest, stop, keeps, false⟩ : Lexer).next.1) := by
  have isText := tiles.text_eq
  have isOffset := tiles.offset_eq
  have isStop := tiles.lastStop_eq
  cases ends with
  | finished =>
      rw [Lexer.next_nil]
      refine .finished ?_
      rw [List.flatMap_map, isText, List.append_nil]
      rfl
  | @fault first others fault refused =>
      have covers := Text.slice?_append (charactersOf tokens) [first] others
      rw [← isOffset, List.singleton_append, ← isText] at covers
      rw [Lexer.next_of_refused refused]
      refine .failure ?_ covers
      rw [List.map_map]
      exact isStop.symm

/-- How a cursor ends after its last piece: it gives nothing more and stays where it is. -/
structure ComesToRest (text : List Char) (pieces : List Piece) (last : Cursor) : Prop where
  stops : ∃ outcome final, last.next = .ok (outcome, final) ∧ StopsAfter text pieces outcome ∧
    final.next = .ok (none, final) ∧ final.eofPosition = last.eofPosition
  position : last.eofPosition.1 = .empty (lastStop (pieces.map Piece.span))

theorem comesToRest_of_tiles {text rest : List Char} {tokens : List Token} {stop : Position}
    {ending : Ending} (tiles : Tiles .initial text tokens stop rest)
    (ends : Ends stop rest ending) :
    ComesToRest text (tokens.map .ofToken) (ofLexer text ⟨rest, stop, true, false⟩) where
  stops := by
    have gives := next_ofLexer (standsIn_of_tiles tiles)
    have isFinal := Lexer.next_of_ends ends true
    refine ⟨_, _, gives, stopsAfter_of_tiles tiles ends true, ?_, ?_⟩
    · rw [isFinal]
      exact next_of_finished rfl
    · rw [isFinal]
      rfl
  position := by
    rw [List.map_map]
    exact congrArg Span.empty tiles.lastStop_eq.symm

end Cursor

/-- With trivia the pieces that a cursor gives tile a source up to its end or up to the first
failure, where the cursor then stays.  The pieces are the tokens of the source.  On any text every
length that scanning computes is positive, inside and between characters, and with or without
trivia no cut fails in any call, which gives what a lexer gives. -/
theorem lexing_tiles_source (source : Source) :
    (∃ pieces last,
      Cursor.Yields (Cursor.ofText source.characters).withTrivia pieces last ∧
      IsTiling source.characters (pieces.map Cursor.Piece.part) ∧
      Cursor.ComesToRest source.characters pieces last ∧
      pieces = (Lexer.ofText source.characters).withTrivia.stream.tokens.map .ofToken) ∧
    (∀ rest, (∃ outcome, Cursor.scan rest = .ok outcome) ∧
      ∀ kind length, Cursor.scan rest = .ok (.ok (kind, length)) → Cursor.Measures rest length) ∧
    ∀ keepsTrivia count, ∃ reached,
      Cursor.after { Cursor.ofText source.characters with keepsTrivia } count = .ok reached ∧
      reached = .ofLexer source.characters
        (Lexer.after { Lexer.ofText source.characters with keepsTrivia } count) ∧
      reached.next = .ok (
        Cursor.answerOf
          (Lexer.after { Lexer.ofText source.characters with keepsTrivia } count).next.1,
        .ofLexer source.characters
          (Lexer.after { Lexer.ofText source.characters with keepsTrivia } count).next.2) := by
  refine ⟨?_, fun rest => ⟨Cursor.exists_scan rest, fun kind length => Cursor.measures_of_scan⟩, ?_⟩
  · -- All facts are read off one tiling, which does not mention the calls of `next`.
    obtain ⟨tokens, stop, rest, ending, tiles, ends⟩ := exists_tiles source.characters .initial
    have isStream := Lexer.stream_eq tiles ends true
    have areTokens : (Lexer.ofText source.characters).withTrivia.stream.tokens = tokens := by
      have isLexer : (Lexer.ofText source.characters).withTrivia =
          ⟨source.characters, .initial, true, false⟩ := rfl
      rw [isLexer, isStream]
      exact List.filter_eq_self.mpr fun _ _ => rfl
    rw [areTokens]
    refine ⟨_, _, Cursor.yields_of_tiles tiles (.start source.characters true), ?_,
      Cursor.comesToRest_of_tiles tiles ends, rfl⟩
    rw [List.map_map]
    exact tiles.isTiling
  · intro keepsTrivia count
    have stands := Lexer.StandsIn.start source.characters keepsTrivia
    exact ⟨_, Cursor.after_ofLexer stands count, rfl, Cursor.next_ofLexer (stands.after count)⟩

end ScalarLang
