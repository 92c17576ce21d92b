import ScalarLang.Proofs.Lexing.Tiling

/-!
# Calls of a lexer

What one call of `next` gives, what all calls give, and where the lexer stands after each
of them.
-/

set_option autoImplicit false

namespace ScalarLang

namespace Lexer

/-! ## One call -/

section Next

variable {first : Char} {others : List Char} {position : Position} {keeps : Bool} {lexeme : Lexeme}

theorem next_of_finished {lexer : Lexer} (isFinished : lexer.finished = true) :
    lexer.next = (none, lexer) := by
  rw [next.eq_def, if_pos isFinished]

theorem next_nil :
    (⟨[], position, keeps, false⟩ : Lexer).next = (none, ⟨[], position, keeps, true⟩) := by
  rw [next.eq_def]
  simp

theorem next_of_refused {fault : LexFault} (refused : Lexeme.scan first others = .error fault) :
    (⟨first :: others, position, keeps, false⟩ : Lexer).next =
      (some (.error ⟨fault, position, first.utf8Size⟩),
        ⟨first :: others, position, keeps, true⟩) := by
  rw [next.eq_def]
  simp [refused]

theorem next_of_given (scanned : Lexeme.scan first others = .ok lexeme)
    (given : (keeps || !lexeme.kind.isTrivia) = true) :
    (⟨first :: others, position, keeps, false⟩ : Lexer).next =
      (some (.ok (lexeme.token position first others)),
        ⟨others.drop lexeme.tail, position.advance (first :: others.take lexeme.tail), keeps,
          false⟩) := by
  have notSkipped : (lexeme.kind.isTrivia && !keeps) = false := by
    cases keeps <;> simp_all
  rw [next.eq_def]
  simp [scanned, notSkipped, Lexeme.token, consume]

theorem next_of_skipped (scanned : Lexeme.scan first others = .ok lexeme)
    (skipped : (keeps || !lexeme.kind.isTrivia) = false) :
    (⟨first :: others, position, keeps, false⟩ : Lexer).next =
      (⟨others.drop lexeme.tail, position.advance (first :: others.take lexeme.tail), keeps,
        false⟩ : Lexer).next := by
  have isSkipped : (lexeme.kind.isTrivia && !keeps) = true := by
    cases keeps <;> simp_all
  rw [next.eq_def]
  simp [scanned, isSkipped, consume]

end Next

/-! ## All calls -/

section Stream

variable {lexer after : Lexer}

theorem stream_of_next_none (result : lexer.next = (none, after)) :
    lexer.stream = ⟨[], .finished after.position⟩ := by
  rw [stream.eq_def]
  split <;> simp_all

theorem stream_of_next_error {error : LexError}
    (result : lexer.next = (some (.error error), after)) :
    lexer.stream = ⟨[], .fault error⟩ := by
  rw [stream.eq_def]
  split <;> simp_all

theorem stream_of_next_ok {token : Token} (result : lexer.next = (some (.ok token), after)) :
    lexer.stream = ⟨token :: after.stream.tokens, after.stream.ending⟩ := by
  rw [stream.eq_def]
  split <;> simp_all

theorem finished_of_next_none (result : lexer.next = (none, after)) : after.finished = true := by
  fun_induction next lexer with
  | case1 lexer isFinished =>
      cases result
      exact isFinished
  | case2 => cases result; rfl
  | case3 => cases result
  | case4 lexer _ first others isRest lexeme scanned text middle shorter _ inductionHypothesis =>
      exact inductionHypothesis result
  | case5 => cases result

/-- A fault stops a lexer where it is. -/
theorem finished_of_next_error {error : LexError}
    (result : lexer.next = (some (.error error), after)) :
    after.finished = true ∧ error.position = after.position := by
  fun_induction next lexer with
  | case1 => cases result
  | case2 => cases result
  | case3 => cases result; exact ⟨rfl, rfl⟩
  | case4 lexer _ first others isRest lexeme scanned text middle shorter _ inductionHypothesis =>
      exact inductionHypothesis result
  | case5 => cases result

theorem stream_of_finished (isFinished : lexer.finished = true) :
    lexer.stream = ⟨[], .finished lexer.position⟩ :=
  stream_of_next_none (next_of_finished isFinished)

theorem stream_eq_of_next_eq {other : Lexer} (same : lexer.next = other.next) :
    lexer.stream = other.stream := by
  cases result : other.next with
  | mk given after =>
      rw [result] at same
      cases given with
      | none => rw [stream_of_next_none same, stream_of_next_none result]
      | some given =>
          cases given with
          | error error => rw [stream_of_next_error same, stream_of_next_error result]
          | ok token => rw [stream_of_next_ok same, stream_of_next_ok result]

end Stream

def gives (keeps : Bool) (token : Token) : Bool := keeps || !token.kind.isTrivia

/-- With trivia a lexer gives all tokens of its text, without trivia all others. -/
theorem stream_eq {position after : Position} {text rest : List Char} {tokens : List Token}
    {ending : Ending} (tiles : Tiles position text tokens after rest)
    (ends : Ends after rest ending) (keeps : Bool) :
    (⟨text, position, keeps, false⟩ : Lexer).stream = ⟨tokens.filter (gives keeps), ending⟩ := by
  induction tiles with
  | none =>
      cases ends with
      | finished => exact stream_of_next_none next_nil
      | fault refused => exact stream_of_next_error (next_of_refused refused)
  | @next position after first others rest lexeme tokens scanned tiles inductionHypothesis =>
      cases given : gives keeps (lexeme.token position first others) with
      | true =>
          rw [stream_of_next_ok (next_of_given scanned given), inductionHypothesis ends,
            List.filter_cons_of_pos given]
      | false =>
          -- The same call goes on behind a token that is left out.
          have skipped : ¬ gives keeps (lexeme.token position first others) = true := by
            rw [given]
            exact Bool.false_ne_true
          rw [stream_eq_of_next_eq (next_of_skipped scanned given), inductionHypothesis ends,
            List.filter_cons_of_neg skipped]

/-- The tokens of a text are those it is tiled by, without trivia. -/
theorem exists_tiles_ofText (text : List Char) : ∃ tokens after rest ending,
    Tiles .initial text tokens after rest ∧ Ends after rest ending ∧
      TokenStream.ofText text = ⟨tokens.filter (gives false), ending⟩ := by
  obtain ⟨tokens, after, rest, ending, tiles, ends⟩ := exists_tiles text .initial
  exact ⟨tokens, after, rest, ending, tiles, ends, stream_eq tiles ends false⟩

/-! ## Some calls -/

def after (lexer : Lexer) : Nat → Lexer
  | 0 => lexer
  | count + 1 => (lexer.after count).next.2

theorem after_succ (lexer : Lexer) (count : Nat) :
    lexer.after (count + 1) = lexer.next.2.after count := by
  induction count with
  | zero => rfl
  | succ count inductionHypothesis =>
      rw [after, inductionHypothesis]
      rfl

theorem after_add (lexer : Lexer) (count more : Nat) :
    lexer.after (count + more) = (lexer.after count).after more := by
  induction more with
  | zero => rfl
  | succ more inductionHypothesis =>
      rw [← Nat.add_assoc, after, inductionHypothesis]
      rfl

theorem after_of_finished {lexer : Lexer} (isFinished : lexer.finished = true) (count : Nat) :
    lexer.after count = lexer := by
  induction count with
  | zero => rfl
  | succ count inductionHypothesis =>
      rw [after, inductionHypothesis, next_of_finished isFinished]

theorem next_of_ends {position : Position} {rest : List Char} {ending : Ending}
    (ends : Ends position rest ending) (keeps : Bool) :
    (⟨rest, position, keeps, false⟩ : Lexer).next.2 = ⟨rest, position, keeps, true⟩ := by
  cases ends with
  | finished => rw [next_nil]
  | fault refused => rw [next_of_refused refused]

/-! ## Where a lexer stands -/

def StandsIn (text : List Char) (lexer : Lexer) : Prop :=
  ∃ before, text = before ++ lexer.rest ∧ lexer.position = Position.initial.advance before

/-- A position is one that reading from the start of a text comes to. -/
def Reaches (text : List Char) (position : Position) : Prop :=
  ∃ before rest, text = before ++ rest ∧ position = Position.initial.advance before

def GivesIn (text : List Char) : Option (Except LexError Token) → Prop
  | none => True
  | some (.ok token) => Reaches text token.position
  | some (.error error) => Reaches text error.position

namespace StandsIn

variable {text : List Char} {lexer : Lexer}

theorem start (text : List Char) (keeps : Bool) :
    StandsIn text ⟨text, .initial, keeps, false⟩ :=
  ⟨[], rfl, rfl⟩

theorem reaches (stands : StandsIn text lexer) : Reaches text lexer.position := by
  obtain ⟨before, isText, isPosition⟩ := stands
  exact ⟨before, lexer.rest, isText, isPosition⟩

theorem consume (stands : StandsIn text lexer) {taken rest : List Char}
    (isRest : lexer.rest = taken ++ rest) : StandsIn text (lexer.consume taken rest) := by
  obtain ⟨before, isText, isPosition⟩ := stands
  refine ⟨before ++ taken, ?_, ?_⟩
  · rw [isText, isRest, List.append_assoc]
    rfl
  · rw [Position.advance_append, ← isPosition]
    rfl

theorem next (stands : StandsIn text lexer) :
    StandsIn text lexer.next.2 ∧ GivesIn text lexer.next.1 := by
  fun_induction Lexer.next lexer with
  | case1 lexer isFinished => exact ⟨stands, trivial⟩
  | case2 lexer _ isRest =>
      obtain ⟨before, isText, isPosition⟩ := stands
      exact ⟨⟨before, isText, isPosition⟩, trivial⟩
  | case3 lexer _ first others isRest fault refused =>
      refine ⟨?_, stands.reaches⟩
      obtain ⟨before, isText, isPosition⟩ := stands
      exact ⟨before, isText, isPosition⟩
  | case4 lexer _ first others isRest lexeme scanned taken after shorter skipped
      inductionHypothesis =>
      apply inductionHypothesis
      apply stands.consume
      rw [isRest, List.cons_append, List.take_append_drop]
  | case5 lexer _ first others isRest lexeme scanned taken after shorter given =>
      refine ⟨?_, stands.reaches⟩
      apply stands.consume
      rw [isRest, List.cons_append, List.take_append_drop]

/-- A lexer stands in its text after any number of calls. -/
theorem after (stands : StandsIn text lexer) (count : Nat) : StandsIn text (lexer.after count) := by
  induction count with
  | zero => exact stands
  | succ count inductionHypothesis => exact inductionHypothesis.next.1

end StandsIn

end Lexer

/-! ## Tokens and the text -/

def lastStop (spans : List Span) : Nat := (spans.getLast?.map Span.stop).getD 0

/-- Pieces cover a text from its start without a gap, each with what stands there. -/
structure IsTiling (text : List Char) (pieces : List (Span × String)) : Prop where
  filled : ∀ piece ∈ pieces, piece.1.start < piece.1.stop
  sliced : ∀ piece ∈ pieces,
    Text.slice? text piece.1.start piece.1.stop = some piece.2.toList
  starts : ∀ piece ∈ pieces.head?, piece.1.start = 0
  joined : pieces.IsChain fun left right => left.1.stop = right.1.start

def Token.piece (token : Token) : Span × String := (token.span, token.text)

namespace Tiles

variable {position after : Position} {text rest : List Char} {tokens : List Token} {ending : Ending}

theorem isChain (tiles : Tiles position text tokens after rest) :
    tokens.IsChain fun left right => left.span.stop = right.span.start := by
  induction tiles with
  | none => exact .nil
  | @next position after first others rest lexeme tokens scanned tiles inductionHypothesis =>
      cases tokens with
      | nil => exact .singleton _
      | cons second tokens =>
          refine .cons_cons ?_ inductionHypothesis
          rw [Token.span_stop, Lexeme.characters_token]
          exact congrArg Position.offset tiles.head_position.symm

theorem offset_eq (tiles : Tiles .initial text tokens after rest) :
    after.offset = Text.byteLength (charactersOf tokens) := by
  rw [tiles.position_eq, Position.advance_offset]
  exact Nat.zero_add _

theorem slice?_eq (tiles : Tiles .initial text tokens after rest) {token : Token}
    (member : token ∈ tokens) :
    Text.slice? text token.span.start token.span.stop = some token.text.toList := by
  obtain ⟨left, right, rfl⟩ := List.append_of_mem member
  obtain ⟨middle, between, tilesLeft, tilesRight⟩ := append_iff.mp tiles
  have isStart : token.span.start = Text.byteLength (charactersOf left) := by
    rw [← tilesLeft.offset_eq, ← tilesRight.head_position]
    rfl
  have isStop : token.span.stop =
      Text.byteLength (charactersOf left) + Text.byteLength token.characters := by
    rw [← isStart]
    rfl
  rw [tilesLeft.text_eq, tilesRight.text_eq, charactersOf_cons, List.append_assoc, isStart, isStop]
  exact Text.slice?_append _ _ _

theorem lastStop_eq (tiles : Tiles .initial text tokens after rest) :
    lastStop (tokens.map Token.span) = after.offset := by
  rcases List.eq_nil_or_concat tokens with rfl | ⟨left, last, rfl⟩
  · rw [tiles.position_eq]
    rfl
  · rw [List.concat_eq_append] at tiles ⊢
    obtain ⟨middle, between, -, tilesLast⟩ := append_iff.mp tiles
    rw [tilesLast.position_eq, ← tilesLast.head_position]
    simp [lastStop, Token.span_stop]

theorem filled (tiles : Tiles position text tokens after rest) {token : Token}
    (member : token ∈ tokens) : token.span.start < token.span.stop := by
  have := Text.byteLength_pos (tiles.characters_ne_nil member)
  exact Nat.lt_add_of_pos_right this

theorem isTiling (tiles : Tiles .initial text tokens after rest) :
    IsTiling text (tokens.map Token.piece) where
  filled := by
    simp only [List.forall_mem_map]
    exact fun token member => tiles.filled member
  sliced := by
    simp only [List.forall_mem_map]
    exact fun token member => tiles.slice?_eq member
  starts := by
    intro piece isFirst
    rw [List.head?_map] at isFirst
    obtain ⟨token, isHead, rfl⟩ := Option.map_eq_some_iff.mp isFirst
    obtain ⟨others, rfl⟩ := List.head?_eq_some_iff.mp isHead
    exact congrArg Position.offset tiles.head_position
  joined := (List.isChain_map _).mpr tiles.isChain

end Tiles

end ScalarLang
