import ScalarLang.Proofs.Lexing.Separation
import ScalarLang.Proofs.Reading.Programs

/-!
# Failures that could have gone on

A step that fails has passed some tokens, and these can be gone on with to a row of the
language that the step reads.  The rules here say how this is put together from the steps
of a reading function, with the single steps over tokens and the phrases of the grammar
without their trees.
-/

set_option autoImplicit false

namespace ScalarLang

open Grammar

/-! ## A token of every kind -/

namespace TokenKind

def sampleText : TokenKind → String
  | .keyword word => word.text
  | .operator sign => sign.text
  | .symbol sign => sign.text
  | .typeName => "T"
  | .identifier => "x"
  | .integer => "0"
  | .float => "0.0"
  | .boolean => "true"
  | .string => "\"\""
  | .whitespace => " "
  | .newline => "\n"
  | .comment => "//"

def sample (kind : TokenKind) : Token := ⟨kind, kind.sampleText, .initial⟩

theorem sample_kind (kind : TokenKind) : kind.sample.kind = kind := rfl

theorem sample_isLexeme (kind : TokenKind) : kind.sample.IsLexeme := by
  cases kind with
  | keyword word => cases word <;> rfl
  | operator sign => cases sign <;> rfl
  | symbol sign => cases sign <;> rfl
  | _ => rfl

end TokenKind

/-! ## Going on -/

def Completes (language : List Token → Prop) (tokens : List Token) : Prop :=
  ∃ kinds : List TokenKind, (∀ kind ∈ kinds, kind.isTrivia = false) ∧
    language (tokens ++ kinds.map TokenKind.sample)

namespace Completes

variable {language inner : List Token → Prop} {tokens : List Token}

theorem done (isRow : language tokens) : Completes language tokens :=
  ⟨[], by simp, by simpa using isRow⟩

theorem trans (completes : Completes inner tokens)
    (further : ∀ row, inner row → Completes language row) : Completes language tokens := by
  obtain ⟨kinds, noTrivia, isInner⟩ := completes
  obtain ⟨more, noMoreTrivia, isRow⟩ := further _ isInner
  refine ⟨kinds ++ more, ?_, ?_⟩
  · intro kind member
    rcases List.mem_append.mp member with member | member
    · exact noTrivia kind member
    · exact noMoreTrivia kind member
  · rw [List.map_append, ← List.append_assoc]
    exact isRow

end Completes

/-! ## Failures -/

/-- A reader fails with an error, and the tokens that could have been there before
anything else: none if the next token is not wanted, zero for a constant out of range,
and the last token before a fault of the text. -/
inductive Reader.Fails (reader : Reader) : SyntaxError → List Token → Prop
  | unexpected (wanted : Expectation) :
      Fails reader (reader.errorHere (.expected wanted (reader.current?.map Token.shape))) []
  | unsupported {token : Token} (construct : Construct) (present : reader.current? = some token) :
      Fails reader (reader.errorHere (.notYetSupported construct)) []
  | literal {token : Token} (present : reader.current? = some token)
      (isInteger : token.kind = .integer) (large : 0x8000000000000000 ≤ token.number) :
      Fails reader (reader.errorHere (.invalidLiteral token.kind token.text))
        [TokenKind.integer.sample]
  | fault {token : Token} {fault : LexError} (last : reader.tokens = [token])
      (isFault : reader.ending = .fault fault) : Fails reader (.ofLexError fault) [token]

theorem Reader.Fails.allow {reader : Reader} {error : SyntaxError} {seen : List Token}
    (fails : reader.Fails error seen) (allowed : Bool) :
    (reader.allow allowed).Fails error seen := by
  cases fails with
  | unexpected wanted => exact .unexpected wanted
  | unsupported construct present => exact .unsupported construct present
  | literal present isInteger large => exact .literal present isInteger large
  | fault last isFault => exact .fault last isFault

namespace Read

open Reader

variable {α β : Type} {language inner : List Token → Prop} {action : Read α}
  {next : α → Read β} {reader : Reader}

/-- Where a step fails, what it passed can be gone on with to a row of a language. -/
def Breaks (language : List Token → Prop) (action : Read α) (reader : Reader) : Prop :=
  ∀ error after, action reader = .error (.rejected error) after →
    ∃ passed stopped seen, Passes reader passed stopped ∧ after.tokens = stopped.tokens ∧
      stopped.Fails error seen ∧ Completes language (passed ++ seen)

/-- A step passes rows of a language, and where it fails it could have gone on to one. -/
structure Parses (language : List Token → Prop) (action : Read α) (reader : Reader) : Prop where
  passes : ∀ value after, action reader = .ok value after →
    ∃ tokens, Passes reader tokens after ∧ language tokens
  breaks : Breaks language action reader

section Rules

theorem Breaks.mono (breaks : Breaks inner action reader)
    (completes : ∀ row, inner row → Completes language row) : Breaks language action reader := by
  intro error after fails
  obtain ⟨passed, stopped, seen, passes, sameTokens, failsThere, viable⟩ := breaks error after fails
  exact ⟨passed, stopped, seen, passes, sameTokens, failsThere, viable.trans completes⟩

theorem breaks_pure {value : α} : Breaks language (pure value) reader := by
  intro error after fails
  cases fails

theorem breaks_get {next : Reader → Read α} (breaks : Breaks language (next reader) reader) :
    Breaks language (get >>= next) reader := breaks

/-- A step fails as before if what comes after it does not fail. -/
theorem Breaks.followedBy (breaks : Breaks language action reader) {next : α → Read β}
    (total : ∀ value middle, ∃ result after, next value middle = .ok result after) :
    Breaks language (action >>= next) reader := by
  intro error after fails
  cases outcome : action reader with
  | ok value middle =>
      obtain ⟨result, last, succeeds⟩ := total value middle
      rw [bind_of_ok outcome, succeeds] at fails
      cases fails
  | error failure middle =>
      rw [bind_of_error outcome] at fails
      cases fails
      exact breaks error after outcome

theorem Breaks.map (breaks : Breaks language action reader) {change : α → β} :
    Breaks language (action >>= fun value => pure (change value)) reader :=
  breaks.followedBy fun _ _ => ⟨_, _, rfl⟩

theorem breaks_exhausted : Breaks language (exhausted : Read α) reader := by
  intro error after fails
  cases fails

/-- Two steps in turn: a row of the first can be gone on with, and the second goes on from
the row that the first passed. -/
theorem Breaks.bind (first : Parses inner action reader)
    (completes : ∀ row, inner row → Completes language row)
    (rest : ∀ value middle row, action reader = .ok value middle → Passes reader row middle →
      inner row → Breaks (fun more => language (row ++ more)) (next value) middle) :
    Breaks language (action >>= next) reader := by
  intro error after fails
  cases outcome : action reader with
  | error failure middle =>
      rw [bind_of_error outcome] at fails
      cases fails
      exact first.breaks.mono completes error after outcome
  | ok value middle =>
      rw [bind_of_ok outcome] at fails
      obtain ⟨row, passesRow, isRow⟩ := first.passes value middle outcome
      obtain ⟨passed, stopped, seen, passes, sameTokens, failsThere, kinds, noTrivia, viable⟩ :=
        rest value middle row outcome passesRow isRow error after fails
      refine ⟨row ++ passed, stopped, seen, passesRow.append passes, sameTokens, failsThere, kinds,
        noTrivia, ?_⟩
      simpa only [List.append_assoc] using viable

theorem Breaks.withChildren {allowed : Bool}
    (breaks : Breaks language action (reader.allow allowed)) :
    Breaks language (withChildren allowed action) reader := by
  intro error after fails
  cases outcome : action (reader.allow allowed) with
  | ok value inside =>
      rw [withChildren_of_ok outcome] at fails
      cases fails
  | error failure inside =>
      rw [withChildren_of_error outcome] at fails
      cases fails
      obtain ⟨passed, stopped, seen, passes, sameTokens, failsThere, viable⟩ :=
        breaks error inside outcome
      exact ⟨passed, stopped.allow reader.childrenAllowed, seen,
        passes.allow reader.childrenAllowed, sameTokens, failsThere.allow _, viable⟩

theorem Parses.withChildren {allowed : Bool}
    (parses : Parses language action (reader.allow allowed)) :
    Parses language (withChildren allowed action) reader where
  passes := by
    intro value after succeeds
    obtain ⟨inside, readsInside, rfl⟩ := withChildren_eq_ok_iff.mp succeeds
    obtain ⟨row, passes, isRow⟩ := parses.passes value inside readsInside
    exact ⟨row, passes.allow reader.childrenAllowed, isRow⟩
  breaks := parses.breaks.withChildren

end Rules

/-! ## Single steps -/

def One (kind : TokenKind) (row : List Token) : Prop := ∃ token, row = [token] ∧ token.kind = kind

section Steps

variable {token : Token} {kind : TokenKind}

theorem breaks_unexpected {wanted : Expectation} (viable : Completes language []) :
    Breaks language (unexpected wanted : Read α) reader := by
  intro error after fails
  cases fails
  exact ⟨[], reader, [], .none, rfl, .unexpected wanted, viable⟩

theorem breaks_unsupported {construct : Construct} (present : reader.current? = some token)
    (viable : Completes language []) :
    Breaks language (fail (.notYetSupported construct) : Read α) reader := by
  intro error after fails
  cases fails
  exact ⟨[], reader, [], .none, rfl, .unsupported construct present, viable⟩

/-- A step over a token fails only at a fault of the text behind it. -/
theorem advance_parses (present : reader.current? = some token) :
    Parses (· = [token]) advance reader where
  passes := fun _ _ passed => ⟨[token], passes_singleton_iff.mpr ⟨present, passed⟩, rfl⟩
  breaks := by
    intro error after fails
    obtain ⟨tokens, ending, previous, childrenAllowed⟩ := reader
    cases tokens with
    | nil => cases present
    | cons first rest =>
        cases rest with
        | cons second rest => cases fails
        | nil =>
            cases ending with
            | finished position => cases fails
            | fault fault =>
                cases fails
                cases present
                exact ⟨[], _, [token], .none, rfl, .fault rfl rfl, .done rfl⟩

theorem expect_parses (noTrivia : kind.isTrivia = false) :
    Parses (One kind) (expect kind) reader where
  passes := by
    intro token after succeeds
    obtain ⟨isKind, passes⟩ := expect_eq_ok_iff.mp succeeds
    exact ⟨[token], passes, token, rfl, isKind⟩
  breaks := by
    have viable : Completes (One kind) [] :=
      ⟨[kind], by simpa using noTrivia, kind.sample, rfl, rfl⟩
    unfold expect
    apply breaks_get
    cases present : reader.current? with
    | none => exact breaks_unexpected viable
    | some token =>
        dsimp only
        split
        · rename_i isKind
          refine ((advance_parses present).breaks.mono ?_).map
          rintro row rfl
          exact .done ⟨token, rfl, isKind⟩
        · exact breaks_unexpected viable

theorem identifier_parses : Parses (One .identifier) identifier reader where
  passes := by
    intro name after succeeds
    obtain ⟨token, isName, -, passes⟩ := identifier_eq_ok_iff.mp succeeds
    exact ⟨[token], passes, token, rfl, isName⟩
  breaks := (expect_parses rfl).breaks.map

/-- A token that may be there or not. -/
theorem Breaks.eat {next : Bool → Read β}
    (completes : ∀ token : Token, token.kind = kind → Completes language [token])
    (there : ∀ token middle, token.kind = kind → Passes reader [token] middle →
      Breaks (fun more => language (token :: more)) (next true) middle)
    (absent : reader.isAt kind = false → Breaks language (next false) reader) :
    Breaks language (eat kind >>= next) reader := by
  cases isAt : reader.isAt kind with
  | false =>
      intro error after fails
      rw [bind_of_ok (eat_eq_false_iff.mpr ⟨isAt, rfl⟩)] at fails
      exact absent isAt error after fails
  | true =>
      obtain ⟨token, present, isKind⟩ := isAt_iff.mp isAt
      have parses : Parses (· = [token]) (Read.eat kind) reader := by
        constructor
        · intro eaten after succeeds
          cases eaten with
          | true =>
              obtain ⟨found, -, passes⟩ := eat_eq_true_iff.mp succeeds
              have isFound := passes.current?_eq
              rw [present] at isFound
              cases isFound
              exact ⟨_, passes, rfl⟩
          | false =>
              obtain ⟨notAt, -⟩ := eat_eq_false_iff.mp succeeds
              rw [isAt] at notAt
              cases notAt
        · unfold Read.eat
          apply breaks_get
          rw [isAt]
          exact (advance_parses present).breaks.map
      refine .bind parses ?_ ?_
      · rintro row rfl
        exact completes token isKind
      · rintro eaten middle row succeeds passes rfl
        cases eaten with
        | true => exact there token middle isKind passes
        | false =>
            obtain ⟨notAt, -⟩ := eat_eq_false_iff.mp succeeds
            rw [isAt] at notAt
            cases notAt

theorem skipNewlinesOf_breaks (tokens : List Token) : ∀ {reader : Reader},
    reader.tokens = tokens → Breaks Newlines (skipNewlinesOf tokens) reader := by
  induction tokens with
  | nil =>
      intro reader _
      exact breaks_pure
  | cons token rest inductionHypothesis =>
      intro reader areTokens
      have present : reader.current? = some token := by simp [current?, areTokens]
      unfold skipNewlinesOf
      split
      · rename_i isNewline
        refine .bind (advance_parses present) ?_ ?_
        · rintro row rfl
          exact .done (by simpa [Newlines] using isNewline)
        · rintro _ middle row passed - rfl
          obtain ⟨_, isRest, -, rfl⟩ := advance_eq_ok present passed
          refine (inductionHypothesis (List.cons.inj (isRest.symm.trans areTokens)).2).mono ?_
          intro row areNewlines
          refine .done ?_
          simpa [Newlines, isNewline] using areNewlines
      · exact breaks_pure

theorem skipNewlines_parses : Parses Newlines skipNewlines reader where
  passes := by
    intro done after succeeds
    obtain ⟨newlines, areNewlines, passes, -⟩ := skipNewlines_eq_ok_iff.mp succeeds
    exact ⟨newlines, passes, areNewlines⟩
  breaks := skipNewlinesOf_breaks reader.tokens rfl

end Steps

/-! ## Phrases without their trees -/

def Phrases (form : α → Phrase) (row : List Token) : Prop := ∃ value, Derives (form value) row

section Phrases

variable {form : α → Phrase} {children : Bool} {row more : List Token} {sign : Token}

theorem phrases_of {value : α} (derives : Derives (form value) row) (same : row = more) :
    Phrases form more := by
  subst same
  exact ⟨value, derives⟩

theorem parses_of_reads {action : Read α} (reads : ∀ {value after},
    action reader = .ok value after → Reads (form value) reader after)
    (breaks : Breaks (Phrases form) action reader) : Parses (Phrases form) action reader where
  passes := by
    intro value after succeeds
    obtain ⟨tokens, passes, derives⟩ := reads succeeds
    exact ⟨tokens, passes, value, derives⟩
  breaks := breaks

theorem newlines_nil : Newlines [] := by simp [Newlines]

/-- Every row of operands has a grouping, so it is an expression. -/
theorem phrases_expression (first : Phrases (.unary children) row)
    (others : Phrases (.operations children) more) :
    Phrases (.expression children) (row ++ more) := by
  obtain ⟨operand, isOperand⟩ := first
  obtain ⟨operations, areOperations⟩ := others
  obtain ⟨grouping, ⟨rfl, rfl, grouped⟩, -⟩ :=
    Grouping.existsUnique_wellGrouped operand operations
  exact ⟨grouping.tree, .expression isOperand areOperations grouped⟩

theorem phrases_operations_append (first : Phrases (.operations children) row)
    (second : Phrases (.operations children) more) :
    Phrases (.operations children) (row ++ more) := by
  obtain ⟨operations, areOperations⟩ := first
  generalize isPhrase : Phrase.operations children operations = phrase at areOperations
  induction areOperations generalizing operations with
  | noOperation => exact second
  | @operation _ op operand others sign newlines tokens rest isSign skipped right _ _
      inductionHypothesis =>
      cases isPhrase
      obtain ⟨all, areAll⟩ := inductionHypothesis others rfl
      exact phrases_of (.operation isSign skipped right areAll) (by simp)
  | _ => cases isPhrase

/-- A minus before an operand, also where the two are one constant. -/
theorem phrases_negate (isSign : sign.kind = .operator .sub)
    (operand : Phrases (.primary children) row) : Phrases (.unary children) (sign :: row) := by
  obtain ⟨tree, derives⟩ := operand
  obtain ⟨first, rest, rfl, -⟩ := derives.primary_starts
  by_cases isInteger : first.kind = .integer
  · cases derives with
    | integer _ fits _ =>
        have denotes : (Int64.ofInt (-(first.number : Int))).toInt = -first.number :=
          Int64.toInt_ofInt_of_le (by omega) (by omega)
        exact ⟨_, .negative isSign isInteger (by omega) denotes⟩
    | _ => simp_all
  · exact ⟨_, .negate isSign isInteger derives⟩

theorem expression_sample (children : Bool) :
    Phrases (.expression children) [TokenKind.identifier.sample] := by
  have isOperand : Phrases (.unary children) [TokenKind.identifier.sample] :=
    ⟨_, .plain (.identifier rfl)⟩
  exact phrases_expression isOperand ⟨[], .noOperation⟩

theorem block_sample : Phrases .block
    [(TokenKind.symbol .leftBrace).sample, (TokenKind.symbol .rightBrace).sample] := by
  exact phrases_of (.block (TokenKind.sample_kind (.symbol .leftBrace)) newlines_nil .noLine
    (TokenKind.sample_kind (.symbol .rightBrace))) rfl

end Phrases

end Read

end ScalarLang
