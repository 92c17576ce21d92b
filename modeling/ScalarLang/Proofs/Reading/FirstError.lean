import ScalarLang.Proofs.Reading.Lockstep
import ScalarLang.Proofs.Reading.ProgramViability
import ScalarLang.Proofs.Reading.Slices

/-!
# Errors are at the first wrong token

A program is rejected at the first token with which no program goes on.  What comes before
that token is the start of some program, because reading could have gone on there; what
comes up to it is not, because every text with these tokens is read in the same way up to
that token and fails there too.
-/

set_option autoImplicit false

namespace ScalarLang

open Grammar

/-! ## Kinds and texts of tokens -/

/-- The kinds and the texts of the tokens of a source, up to its end or its first fault. -/
def Source.shapes (source : Source) : List (TokenKind × String) :=
  (TokenStream.ofText source.characters).tokens.map Token.shape

def Accepted (shapes : List (TokenKind × String)) : Prop :=
  ∃ source program, Module.ofSource source = .ok program ∧ source.shapes = shapes

/-- A source that starts with these tokens is accepted. -/
def Viable (shapes : List (TokenKind × String)) : Prop := ∃ more, Accepted (shapes ++ more)

/-! ## Readers of tokens of the same shapes -/

/-- Without their offsets, tokens of one shape are alike. -/
theorem Token.like_of_shape_eq {token other : Token} (same : token.shape = other.shape) :
    token.Like (fun _ => 0) other := by
  simp only [shape, Prod.mk.injEq] at same
  exact ⟨same.1, same.2, rfl⟩

section Ahead

variable {tokens others : List Token} {ending otherEnding : Ending}

theorem ahead_of_common {common left right : List (TokenKind × String)}
    (isLeft : tokens.map Token.shape = common ++ left)
    (isRight : others.map Token.shape = common ++ right) :
    Ahead (fun _ => 0) common.length tokens ending others otherEnding := by
  induction common generalizing tokens others with
  | nil => exact .unseen
  | cons shape common inductionHypothesis =>
      obtain ⟨token, tokens, rfl, isShape, isLeft⟩ := List.map_eq_cons_iff.mp isLeft
      obtain ⟨other, others, rfl, isOther, isRight⟩ := List.map_eq_cons_iff.mp isRight
      exact .token (Token.like_of_shape_eq (isShape.trans isOther.symm))
        (inductionHypothesis isLeft isRight)

theorem ahead_of_shapes_eq (same : tokens.map Token.shape = others.map Token.shape)
    (like : ending.Like otherEnding) (count : Nat) :
    Ahead (fun _ => 0) count tokens ending others otherEnding := by
  induction tokens generalizing others count with
  | nil =>
      obtain rfl := List.map_eq_nil_iff.mp same.symm
      cases count with
      | zero => exact .unseen
      | succ count => exact .ended like
  | cons token tokens inductionHypothesis =>
      obtain ⟨other, others, rfl, isShape, areShapes⟩ := List.map_eq_cons_iff.mp same.symm
      cases count with
      | zero => exact .unseen
      | succ count =>
          exact .token (Token.like_of_shape_eq isShape.symm)
            (inductionHypothesis areShapes.symm count)

end Ahead

namespace Reader

variable {reader other after : Reader} {count : Nat}

theorem Drops.unique {more : Nat} (first : reader.Drops count after)
    (second : reader.Drops more after) : count = more := by
  obtain ⟨passed, rfl, areTokens⟩ := first
  obtain ⟨others, rfl, areOthers⟩ := second
  have lengths := congrArg List.length (areTokens.symm.trans areOthers)
  simp only [List.length_append] at lengths
  omega

theorem exists_program_eq_ok {program : Module} (accepted : reader.readProgram.1 = .ok program) :
    ∃ after, Read.program reader.budget reader = .ok program after := by
  have reads : reader.readProgram = (.ok program, reader.readProgram.2) := by rw [← accepted]
  exact ⟨_, Read.run_eq_ok_iff.mp reads⟩

theorem exists_program_eq_error {error : SyntaxError}
    (rejected : reader.readProgram.1 = .error error) :
    ∃ after, Read.program reader.budget reader = .error (.rejected error) after := by
  have reads : reader.readProgram = (.error error, reader.readProgram.2) := by rw [← rejected]
  exact ⟨_, Read.run_eq_error_iff.mp reads⟩

/-- Readers of tokens of the same shapes both accept, with the same tree up to offsets. -/
theorem readProgram_of_shapes_eq {program : Module} (accepted : reader.readProgram.1 = .ok program)
    (alike : reader.Alike (fun _ => 0) True reader.tokens.length other) :
    ∃ otherProgram, other.readProgram.1 = .ok otherProgram ∧
      program.mapOffsets (fun _ => 0) = otherProgram.mapOffsets fun _ => 0 := by
  obtain ⟨after, succeeds⟩ := exists_program_eq_ok accepted
  have agree := readProgram_agree monotone_const alike
  rw [succeeds] at agree
  obtain ⟨passed, ⟨tokens, rfl, areTokens⟩, same⟩ := agree
  have inside : tokens.length ≤ reader.tokens.length := by
    rw [areTokens, List.length_append]
    omega
  obtain ⟨otherProgram, otherAfter, isOther, -, sameTree, -⟩ := same inside
  refine ⟨otherProgram, ?_, sameTree⟩
  have reads : other.readProgram = (.ok otherProgram, otherAfter) := Read.run_eq_ok_iff.mpr isOther
  rw [reads]

/-- A reader that looks alike up to the token of an error fails too. -/
theorem readProgram_ne_ok_of_alike {error : SyntaxError}
    (fails : Read.program reader.budget reader = .error (.rejected error) after)
    (drops : reader.Drops count after) (noPeek : error.fault.peeks = 0)
    (alike : reader.Alike (fun _ => 0) True count other) (program : Module) :
    other.readProgram.1 ≠ .ok program := by
  intro accepted
  obtain ⟨otherAfter, succeeds⟩ := exists_program_eq_ok accepted
  have agree := readProgram_agree monotone_const alike
  rw [fails] at agree
  obtain ⟨passed, dropsPassed, same⟩ := agree
  obtain ⟨_, _, isOther, -, -⟩ := same (by rw [noPeek, drops.unique dropsPassed, Nat.add_zero])
  rw [succeeds] at isOther
  cases isOther

end Reader

/-! ## Accepted rows of tokens -/

def Source.reader (source : Source) : Reader :=
  ⟨(TokenStream.ofText source.characters).tokens, (TokenStream.ofText source.characters).ending,
    .empty 0, true⟩

theorem Module.ofSource_eq_readProgram {source : Source} (notFault : source.reader.tokens = [] →
    ∃ position, source.reader.ending = .finished position) :
    Module.ofSource source = source.reader.readProgram.1 := by
  unfold Module.ofSource Reader.ofSource
  rw [Reader.ofStream_eq_ok_iff.mpr ⟨rfl, notFault⟩]
  rfl

/-- A reader of the tokens of an accepted source reads its program. -/
theorem Source.readProgram_of_accepted {source : Source} {program : Module}
    (accepted : Module.ofSource source = .ok program) :
    source.reader.readProgram.1 = .ok program := by
  have finished := Module.finished_ofSource accepted
  rw [← accepted, Module.ofSource_eq_readProgram fun _ => finished]

/-- Tokens that are a program are accepted from any text that has them, and there is such a
text. -/
theorem accepted_of_isProgram {row : List Token} {program : Module}
    (arePlain : ∀ token ∈ row, token.IsPlain) (isProgram : IsProgram program row) :
    Accepted (row.map Token.shape) := by
  obtain ⟨found, stop, isStream, sameShapes⟩ := stream_joined
    (fun token member => (arePlain token member).1) (fun token member => (arePlain token member).2)
  let source : Source := .ofText "" (.ofList (joined row))
  have isReader : source.reader = ⟨found, .finished stop, .empty 0, true⟩ := by
    rw [Source.reader, Source.characters_ofText, String.toList_ofList, isStream]
  let reader : Reader := ⟨row, .finished .initial, .empty 0, true⟩
  have accepted : reader.readProgram.1 = .ok program :=
    reader.readProgram_of_isProgram isProgram rfl
  have alike : reader.Alike (fun _ => 0) True row.length source.reader := by
    rw [isReader]
    exact ⟨ahead_of_shapes_eq sameShapes.symm (.finished _ _) _, rfl, fun _ => rfl⟩
  obtain ⟨otherProgram, otherAccepted, -⟩ := Reader.readProgram_of_shapes_eq accepted alike
  refine ⟨source, otherProgram, ?_, ?_⟩
  · rw [Module.ofSource_eq_readProgram, otherAccepted]
    exact fun _ => ⟨stop, by rw [isReader]⟩
  · rw [← sameShapes]
    exact congrArg (fun reader => reader.tokens.map Token.shape) isReader

theorem viable_of_completes {row : List Token} (arePlain : ∀ token ∈ row, token.IsPlain)
    (completes : Completes (fun row => ∃ program, IsProgram program row) row) :
    Viable (row.map Token.shape) := by
  obtain ⟨kinds, noTrivia, program, isProgram⟩ := completes
  refine ⟨(kinds.map TokenKind.sample).map Token.shape, ?_⟩
  rw [← List.map_append]
  refine accepted_of_isProgram ?_ isProgram
  intro token member
  rcases List.mem_append.mp member with member | member
  · exact arePlain token member
  · obtain ⟨kind, isKind, rfl⟩ := List.mem_map.mp member
    exact ⟨kind.sample_isLexeme, noTrivia kind isKind⟩

/-! ## The first wrong token -/

def SyntaxError.IsAt (error : SyntaxError) (token : Token) : Prop :=
  error.span = token.span ∧ error.line = token.position.line ∧
    error.column = token.position.column

/-- An error is at a token of a source, and no program goes on with that token there. -/
def SyntaxError.IsAtFirst (error : SyntaxError) (source : Source) (before : List Token)
    (token : Token) : Prop :=
  before ++ [token] <+: (TokenStream.ofText source.characters).tokens ∧ error.IsAt token ∧
    ¬ Viable ((before ++ [token]).map Token.shape)

def SyntaxError.IsFirst (error : SyntaxError) (source : Source) : Prop :=
  match error.fault with
  | .lexical _ =>
      ∃ fault, (TokenStream.ofText source.characters).ending = .fault fault ∧
        error = .ofLexError fault ∧ Viable source.shapes
  | .expected _ none =>
      (∃ position, (TokenStream.ofText source.characters).ending = .finished position) ∧
        (∃ more, more ≠ [] ∧ Accepted (source.shapes ++ more)) ∧ ¬ Accepted source.shapes ∧
        error.span = .empty source.byteLength
  | .expected _ (some found) =>
      ∃ before token, error.IsAtFirst source before token ∧ found = token.shape ∧
        Viable (before.map Token.shape)
  | .notYetSupported _ =>
      ∃ before token, error.IsAtFirst source before token ∧ Viable (before.map Token.shape)
  | .invalidLiteral kind text =>
      ∃ before token, error.IsAtFirst source before token ∧ (kind, text) = token.shape ∧
        kind = .integer ∧ 0x8000000000000000 ≤ token.number ∧
        Viable (before.map Token.shape ++ [(.integer, "0")])

theorem Reader.errorHere_of_current {reader : Reader} {fault : SyntaxFault} {token : Token}
    (present : reader.current? = some token) : reader.errorHere fault =
      ⟨fault, token.span, token.position.line, token.position.column⟩ := by
  unfold errorHere
  rw [present]

/-- The end of a source without a fault is where its text ends. -/
theorem Source.offset_of_finished {source : Source} {position : Position}
    (finished : source.reader.ending = .finished position) :
    position.offset = source.byteLength := by
  obtain ⟨all, stop, rest, ending, tiles, ends, isStream⟩ :=
    Lexer.exists_tiles_ofText source.characters
  unfold Source.reader at finished
  rw [isStream] at finished
  dsimp only at finished
  subst finished
  cases ends
  have isText := tiles.text_eq
  rw [List.append_nil] at isText
  rw [tiles.offset_eq, Source.byteLength, isText]

structure Source.Stops (source : Source) (error : SyntaxError) (passed : List Token)
    (stopped : Reader) : Prop where
  fails : ∃ after, after.tokens = stopped.tokens ∧
    Read.program source.reader.budget source.reader = .error (.rejected error) after
  passes : source.reader.Passes passed stopped

namespace Source.Stops

variable {source : Source} {stopped : Reader} {error : SyntaxError} {passed : List Token}

theorem drops (stops : source.Stops error passed stopped) {after : Reader}
    (fails : Read.program source.reader.budget source.reader = .error (.rejected error) after) :
    source.reader.Drops passed.length after := by
  obtain ⟨_, sameTokens, failsThere⟩ := stops.fails
  cases fails.symm.trans failsThere
  exact ⟨passed, rfl, by rw [sameTokens, stops.passes.tokens_eq]⟩

/-- Every source that looks alike up to the error is rejected. -/
theorem rejects (stops : source.Stops error passed stopped) (noPeek : error.fault.peeks = 0)
    {other : Source} (ahead : Ahead (fun _ => 0) (passed.length + 1) source.reader.tokens
      source.reader.ending other.reader.tokens other.reader.ending) (program : Module) :
    Module.ofSource other ≠ .ok program := by
  intro accepted
  obtain ⟨after, -, fails⟩ := stops.fails
  exact Reader.readProgram_ne_ok_of_alike fails (stops.drops fails) noPeek
    ⟨ahead, rfl, fun _ => rfl⟩ program (Source.readProgram_of_accepted accepted)

theorem not_viable (stops : source.Stops error passed stopped) (noPeek : error.fault.peeks = 0)
    {token : Token} (present : stopped.current? = some token) :
    ¬ Viable ((passed ++ [token]).map Token.shape) := by
  intro viable
  obtain ⟨more, other, program, accepted, areShapes⟩ := viable
  obtain ⟨rest, areStopped⟩ := List.head?_eq_some_iff.mp present
  have areTokens : source.reader.tokens.map Token.shape =
      (passed ++ [token]).map Token.shape ++ rest.map Token.shape := by
    rw [stops.passes.tokens_eq, areStopped, ← List.map_append]
    simp
  have ahead := @ahead_of_common _ _ source.reader.ending other.reader.ending _ _ _ areTokens
    areShapes
  rw [List.length_map, List.length_append, List.length_singleton] at ahead
  exact stops.rejects noPeek ahead program accepted

theorem not_accepted (stops : source.Stops error passed stopped) (noPeek : error.fault.peeks = 0)
    {position : Position} (finished : source.reader.ending = .finished position) :
    ¬ Accepted source.shapes := by
  intro accepts
  obtain ⟨other, program, accepted, areShapes⟩ := accepts
  obtain ⟨otherPosition, otherFinished⟩ := Module.finished_ofSource accepted
  have like : source.reader.ending.Like other.reader.ending := by
    rw [finished, Source.reader, otherFinished]
    exact .finished _ _
  exact stops.rejects noPeek (ahead_of_shapes_eq areShapes.symm like _) program accepted

theorem isPlain (stops : source.Stops error passed stopped) :
    ∀ token ∈ passed, token.IsPlain := by
  intro token member
  refine source.isPlain_of_mem ?_
  change token ∈ source.reader.tokens
  rw [stops.passes.tokens_eq]
  exact List.mem_append_left _ member

/-- At a token the error is the same whatever the fault. -/
theorem isAtFirst {fault : SyntaxFault}
    (stops : source.Stops (stopped.errorHere fault) passed stopped) (noPeek : fault.peeks = 0)
    {token : Token} (present : stopped.current? = some token) :
    (stopped.errorHere fault).IsAtFirst source passed token := by
  refine ⟨?_, ?_, stops.not_viable (by rwa [Reader.errorHere_fault]) present⟩
  · obtain ⟨rest, areStopped⟩ := List.head?_eq_some_iff.mp present
    have areTokens := stops.passes.tokens_eq
    rw [areStopped] at areTokens
    exact ⟨rest, by rw [List.append_assoc]; exact areTokens.symm⟩
  · rw [Reader.errorHere_of_current present]
    exact ⟨rfl, rfl, rfl⟩

/-- Where no token is left, all tokens were passed and the text has no fault. -/
theorem passed_all (stops : source.Stops error passed stopped)
    (notFault : source.reader.tokens = [] → ∃ position, source.reader.ending = .finished position)
    (absent : stopped.current? = none) :
    source.reader.tokens = passed ∧ ∃ position, source.reader.ending = .finished position := by
  have noneLeft : stopped.tokens = [] := List.head?_eq_none_iff.mp absent
  have allPassed : source.reader.tokens = passed := by
    rw [stops.passes.tokens_eq, noneLeft, List.append_nil]
  refine ⟨allPassed, ?_⟩
  by_cases none : passed = []
  · exact notFault (allPassed.trans none)
  · exact stops.passes.ending_finished none noneLeft

/-- At the end of a source something is missing. -/
theorem isFirst_at_end {wanted : Expectation}
    (stops : source.Stops (stopped.errorHere (.expected wanted none)) passed stopped)
    (notFault : source.reader.tokens = [] → ∃ position, source.reader.ending = .finished position)
    (absent : stopped.current? = none) (viable : Viable (passed.map Token.shape)) :
    (stopped.errorHere (.expected wanted none)).IsFirst source := by
  obtain ⟨allPassed, position, finished⟩ := stops.passed_all notFault absent
  have rejected := stops.not_accepted (by rw [Reader.errorHere_fault]; rfl) finished
  rw [← allPassed] at viable
  obtain ⟨more, accepted⟩ := viable
  unfold Reader.errorHere
  rw [absent, stops.passes.ending_eq, finished]
  refine ⟨⟨position, finished⟩, ⟨more, ?_, accepted⟩, rejected, ?_⟩
  · intro none
    rw [none, List.append_nil] at accepted
    exact rejected accepted
  · exact congrArg Span.empty (Source.offset_of_finished finished)

theorem isFirst {seen : List Token} (stops : source.Stops error passed stopped)
    (notFault : source.reader.tokens = [] → ∃ position, source.reader.ending = .finished position)
    (fails : stopped.Fails error seen)
    (completes : Completes (fun row => ∃ program, IsProgram program row) (passed ++ seen)) :
    error.IsFirst source := by
  cases fails with
  | unexpected wanted =>
      rw [List.append_nil] at completes
      have viable := viable_of_completes stops.isPlain completes
      cases present : stopped.current? with
      | none =>
          rw [present] at stops
          exact stops.isFirst_at_end notFault present viable
      | some token =>
          rw [present] at stops
          have isFirst := stops.isAtFirst rfl present
          rw [Reader.errorHere_of_current present] at isFirst ⊢
          exact ⟨passed, token, isFirst, rfl, viable⟩
  | unsupported construct present =>
      rw [List.append_nil] at completes
      have isFirst := stops.isAtFirst rfl present
      rw [Reader.errorHere_of_current present] at isFirst ⊢
      exact ⟨passed, _, isFirst, viable_of_completes stops.isPlain completes⟩
  | @literal token present isInteger large =>
      have arePlain : ∀ other ∈ passed ++ [TokenKind.integer.sample], other.IsPlain := by
        intro other member
        rcases List.mem_append.mp member with member | member
        · exact stops.isPlain other member
        · rw [List.mem_singleton.mp member]
          exact ⟨TokenKind.integer.sample_isLexeme, rfl⟩
      have viable := viable_of_completes arePlain completes
      rw [List.map_append] at viable
      have isFirst := stops.isAtFirst rfl present
      rw [Reader.errorHere_of_current present] at isFirst ⊢
      exact ⟨passed, token, isFirst, rfl, isInteger, large, viable⟩
  | @fault token fault last isFault =>
      rw [stops.passes.ending_eq] at isFault
      have areAll : passed ++ [token] = source.reader.tokens := by
        rw [stops.passes.tokens_eq, last]
      rw [areAll] at completes
      exact ⟨fault, isFault, rfl,
        viable_of_completes (fun token member => source.isPlain_of_mem member) completes⟩

end Source.Stops

/-- A fault before the first token is an error at once. -/
theorem Module.ofSource_of_fault {source : Source} {fault : LexError}
    (noTokens : source.reader.tokens = []) (isFault : source.reader.ending = .fault fault) :
    Module.ofSource source = .error (.ofLexError fault) := by
  have isStream : TokenStream.ofText source.characters = ⟨[], .fault fault⟩ :=
    congrArg₂ TokenStream.mk noTokens isFault
  unfold Module.ofSource Reader.ofSource
  rw [isStream]
  rfl

/-- A source is rejected for a fault before its first token, or where reading stops. -/
theorem Module.ofSource_eq_error {source : Source} {error : SyntaxError}
    (rejected : Module.ofSource source = .error error) :
    (∃ fault, source.reader.tokens = [] ∧ source.reader.ending = .fault fault ∧
      error = .ofLexError fault) ∨
    ((source.reader.tokens = [] → ∃ position, source.reader.ending = .finished position) ∧
      ∃ passed stopped seen, source.Stops error passed stopped ∧ stopped.Fails error seen ∧
        Completes (fun row => ∃ program, IsProgram program row) (passed ++ seen)) := by
  by_cases notFault : source.reader.tokens = [] →
      ∃ position, source.reader.ending = .finished position
  · rw [Module.ofSource_eq_readProgram notFault] at rejected
    obtain ⟨after, fails⟩ := Reader.exists_program_eq_error rejected
    obtain ⟨passed, stopped, seen, passes, sameTokens, failsThere, completes⟩ :=
      Read.program_breaks _ _ _ _ fails
    exact .inr ⟨notFault, passed, stopped, seen, ⟨⟨after, sameTokens, fails⟩, passes⟩, failsThere,
      completes⟩
  · -- A fault before the first token is reported before anything is read.
    push Not at notFault
    obtain ⟨noTokens, notFinished⟩ := notFault
    cases isEnding : source.reader.ending with
    | finished position => exact absurd isEnding (notFinished position)
    | fault fault =>
        rw [Module.ofSource_of_fault noTokens isEnding] at rejected
        cases rejected
        exact .inl ⟨fault, noTokens, rfl, rfl⟩

/-- A syntax error is the first of its source: a fault of the text after tokens that start
a program, or a token with which no program goes on after those before it. -/
theorem ofSource_error_isFirst (source : Source) (error : SyntaxError)
    (rejected : Module.ofSource source = .error error) : error.IsFirst source := by
  rcases Module.ofSource_eq_error rejected with ⟨fault, noTokens, isFault, rfl⟩ |
    ⟨notFault, passed, stopped, seen, stops, fails, completes⟩
  · refine ⟨fault, isFault, rfl, ?_⟩
    have viable := viable_of_completes (by simp) (Read.completes_program Read.newlines_nil)
    have noShapes : source.shapes = [] := List.map_eq_nil_iff.mpr noTokens
    rw [noShapes]
    exact viable
  · exact stops.isFirst notFault fails completes

def unclosedSource : Source := .ofText "unclosed" "fn f(a: Int, // é
  fn \"open"

/-- The keyword is reported, though the string is no token at all. -/
theorem unclosedSource_error_isFirst : ∃ error, Module.ofSource unclosedSource = .error error ∧
    error = ⟨.expected (.token (.symbol .rightParen))
      (some (.keyword .kwFn, "fn")), ⟨21, 23⟩, 2, 3⟩ ∧
    error.IsFirst unclosedSource := by
  have found : (match Module.ofSource unclosedSource with
      | .error error => error == ⟨.expected (.token (.symbol .rightParen))
          (some (.keyword .kwFn, "fn")), ⟨21, 23⟩, 2, 3⟩
      | .ok _ => false) = true := by
    decide +kernel
  cases rejected : Module.ofSource unclosedSource with
  | ok program =>
      rw [rejected] at found
      cases found
  | error error =>
      rw [rejected] at found
      exact ⟨error, rfl, eq_of_beq found, ofSource_error_isFirst unclosedSource error rejected⟩

end ScalarLang
