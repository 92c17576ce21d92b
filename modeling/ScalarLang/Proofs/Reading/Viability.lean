import ScalarLang.Proofs.Reading.Failures

/-!
# Where reading stops

Whenever a reading function fails, the tokens that it passed can be gone on with to a
phrase of the kind that it reads: it passes no token before it is known that the token
can stand there.  Only a constant out of range is different, and the constant zero could
stand in its place.
-/

set_option autoImplicit false

namespace ScalarLang

open Grammar

namespace Literal

variable {text : String}

theorem le_of_positiveInteger?_eq_none (noValue : positiveInteger? text = none) :
    0x8000000000000000 ≤ Text.digitsValue text.toList := by
  unfold positiveInteger? at noValue
  dsimp only at noValue
  split at noValue
  · cases noValue
  · omega

theorem lt_of_negativeInteger?_eq_none (noValue : negativeInteger? text = none) :
    0x8000000000000000 < Text.digitsValue text.toList := by
  unfold negativeInteger? at noValue
  dsimp only at noValue
  split at noValue
  · cases noValue
  · omega

end Literal

namespace Read

open Reader TokenKind

/-! ## Expressions and blocks -/

/-- Where the functions fail that read expressions and blocks, they could have gone on. -/
structure BreaksWell (fuel : Nat) : Prop where
  expression : ∀ bound reader,
    Breaks (Phrases (.expression reader.childrenAllowed)) (expression fuel bound) reader
  operations : ∀ bound left reader,
    Breaks (Phrases (.operations reader.childrenAllowed)) (operations fuel bound left) reader
  unary : ∀ reader, Breaks (Phrases (.unary reader.childrenAllowed)) (unary fuel) reader
  primary : ∀ reader, Breaks (Phrases (.primary reader.childrenAllowed)) (primary fuel) reader
  call : ∀ {name : Token} reader, name.kind = .identifier →
    Breaks (fun row => Phrases (.primary reader.childrenAllowed) (name :: row))
      (call fuel name.ident) reader
  callArguments : ∀ reader, Breaks (Phrases .arguments) (callArguments fuel) reader
  childList : ∀ reader, reader.childrenAllowed = true →
    Breaks (Phrases .lines) (childList fuel) reader
  conditional : ∀ reader,
    Breaks (Phrases (.primary reader.childrenAllowed)) (conditional fuel) reader
  block : ∀ reader, Breaks (Phrases .block) (block fuel) reader
  statementList : ∀ reader, reader.childrenAllowed = true →
    Breaks (Phrases .lines) (statementList fuel) reader

section Step

variable {fuel : Nat} {reader : Reader}

theorem expression_parses (well : BreaksWell fuel) (bound : Nat) (reader : Reader) :
    Parses (Phrases (.expression reader.childrenAllowed)) (expression fuel bound) reader :=
  parses_of_reads (expression_sound fun smaller _ => (sound smaller).unary)
    (well.expression bound reader)

/-- An expression of its own, in parentheses or in an argument or as a condition. -/
theorem inner_parses (well : BreaksWell fuel) (allowed : Bool) (reader : Reader) :
    Parses (Phrases (.expression allowed)) (withChildren allowed (expression fuel 0)) reader :=
  .withChildren (expression_parses well 0 (reader.allow allowed))

theorem expression_breaks (well : BreaksWell fuel) (bound : Nat) (reader : Reader) :
    Breaks (Phrases (.expression reader.childrenAllowed)) (expression (fuel + 1) bound)
      reader := by
  unfold expression
  refine .bind (parses_of_reads (sound fuel).unary (well.unary reader)) ?_ ?_
  · intro row isOperand
    have isExpression := phrases_expression isOperand ⟨[], .noOperation⟩
    exact .done (by simpa using isExpression)
  · intro first middle row _ passes isOperand
    have breaks := well.operations bound first middle
    rw [passes.childrenAllowed_eq] at breaks
    exact breaks.mono fun more areOperations => .done (phrases_expression isOperand areOperations)

theorem operations_breaks (well : BreaksWell fuel) (bound : Nat) (left : Expr) (reader : Reader) :
    Breaks (Phrases (.operations reader.childrenAllowed)) (operations (fuel + 1) bound left)
      reader := by
  unfold operations
  apply breaks_get
  cases found : reader.binaryOp? bound with
  | none => exact breaks_pure
  | some op =>
      obtain ⟨isNext, -⟩ := binaryOp?_eq_some_iff.mp found
      obtain ⟨sign, present, isSign⟩ := nextOp?_eq_some_iff.mp isNext
      -- After the sign and any newlines an expression makes the row of operations longer.
      have goesOn : ∀ {newlines row : List Token}, Newlines newlines →
          Phrases (.expression reader.childrenAllowed) row →
          Phrases (.operations reader.childrenAllowed) (sign :: (newlines ++ row)) := by
        intro newlines row skipped isRow
        obtain ⟨tree, derives⟩ := isRow
        cases derives with
        | expression first rest _ =>
            exact phrases_of (.operation isSign skipped first rest) (by simp)
      refine .bind (advance_parses present) ?_ ?_
      · intro row isRow
        subst isRow
        exact ⟨[.identifier], by decide, goesOn (by simp [Newlines]) (expression_sample _)⟩
      intro _ second row _ passesSign isRow
      subst isRow
      refine .bind skipNewlines_parses ?_ ?_
      · intro newlines skipped
        have isRow := goesOn skipped (expression_sample _)
        exact ⟨[.identifier], by decide, isRow⟩
      intro _ third newlines _ passesNewlines skipped
      have sameChildren := (passesSign.append passesNewlines).childrenAllowed_eq
      refine .bind (expression_parses well op.precedence third) ?_ ?_
      · intro row isRow
        rw [sameChildren] at isRow
        have isLonger := goesOn skipped isRow
        exact .done isLonger
      intro right fourth row _ passesRight isRow
      have breaks := well.operations bound
        (.binary op left right (left.span.union right.span)) fourth
      rw [passesRight.childrenAllowed_eq, sameChildren] at breaks
      rw [sameChildren] at isRow
      refine breaks.mono fun more areMore => .done ?_
      have longer := phrases_operations_append (goesOn skipped isRow) areMore
      simpa using longer

/-- The constant of an integer token: zero has a value wherever a constant can stand. -/
theorem constant_breaks {language : List Token → Prop} {value? : Option Int64} {digits : Token}
    {tree : Int64 → Expr} (present : reader.current? = some digits)
    (isInteger : digits.kind = .integer) (large : value? = none → 0x8000000000000000 ≤ digits.number)
    (zero : Completes language [TokenKind.integer.sample])
    (fits : ∀ value, value? = some value → Completes language [digits]) :
    Breaks language
      (do
        let value ← integerValue value? digits
        advance
        return tree value) reader := by
  cases value? with
  | none =>
      intro error after fails
      cases fails
      exact ⟨[], reader, _, .none, rfl, .literal present isInteger (large rfl), zero⟩
  | some value =>
      have breaks : Breaks language (advance >>= fun _ => pure (tree value)) reader := by
        refine ((advance_parses present).breaks.mono ?_).map
        intro row isRow
        subst isRow
        exact fits value rfl
      exact breaks

theorem unary_breaks (well : BreaksWell fuel) (reader : Reader) :
    Breaks (Phrases (.unary reader.childrenAllowed)) (unary (fuel + 1)) reader := by
  unfold unary
  apply breaks_get
  cases found : reader.unaryOp? with
  | none =>
      refine (well.primary reader).mono fun row isRow => .done ?_
      obtain ⟨tree, derives⟩ := isRow
      exact ⟨tree, .plain derives⟩
  | some both =>
      obtain ⟨op, span⟩ := both
      obtain ⟨sign, present, isSign, rfl⟩ := unaryOp?_eq_some_iff.mp found
      have goesOn : ∀ {row : List Token}, Phrases (.primary reader.childrenAllowed) row →
          Phrases (.unary reader.childrenAllowed) (sign :: row) := by
        intro row isRow
        cases op with
        | negate => exact phrases_negate isSign isRow
        | not =>
            obtain ⟨tree, derives⟩ := isRow
            exact ⟨_, .not isSign derives⟩
      refine .bind (advance_parses present) ?_ ?_
      · intro row isRow
        subst isRow
        exact ⟨[.identifier], by decide, goesOn ⟨_, .identifier rfl⟩⟩
      intro _ middle row _ passesSign isRow
      subst isRow
      apply breaks_get
      cases negated : middle.negated? op with
      | none =>
          have breaks := well.primary middle
          rw [passesSign.childrenAllowed_eq] at breaks
          exact (breaks.mono fun row isRow => .done (goesOn isRow)).map
      | some digits =>
          obtain ⟨rfl, presentDigits, isInteger⟩ := negated?_eq_some_iff.mp negated
          refine constant_breaks presentDigits isInteger ?_ ?_ ?_
          · intro noValue
            exact Nat.le_of_lt (Literal.lt_of_negativeInteger?_eq_none noValue)
          · have denotes : (0 : Int64).toInt = -integer.sample.number := by decide
            exact .done (phrases_of (.negative isSign rfl (by decide) denotes) rfl)
          · intro value isValue
            obtain ⟨fits, denotes⟩ := Literal.negativeInteger?_eq_some_iff.mp isValue
            exact .done (phrases_of (.negative isSign isInteger fits denotes) rfl)

theorem parentheses_breaks (well : BreaksWell fuel) {opening : Token}
    (present : reader.current? = some opening) (opens : opening.kind = .symbol .leftParen) :
    Breaks (Phrases (.primary reader.childrenAllowed))
      (do
        advance
        skipNewlines
        let inner ← withChildren true (expression fuel 0)
        skipNewlines
        let close ← expect (.symbol .rightParen)
        return inner.withSpan (opening.span.union close.span)) reader := by
  have goesOn : ∀ {leading row trailing : List Token} {closing : Token}, Newlines leading →
      Phrases (.expression true) row → Newlines trailing →
      closing.kind = .symbol .rightParen → Phrases (.primary reader.childrenAllowed)
        (opening :: (leading ++ (row ++ (trailing ++ [closing])))) := by
    intro leading row trailing closing skipped isRow skippedAfter closes
    obtain ⟨tree, derives⟩ := isRow
    exact phrases_of (.parentheses opens skipped derives skippedAfter closes) (by simp)
  refine .bind (advance_parses present) ?_ ?_
  · intro row isRow
    subst isRow
    exact ⟨[.identifier, .symbol .rightParen], by decide,
      goesOn newlines_nil (expression_sample true) newlines_nil rfl⟩
  intro _ second row _ passesOpening isRow
  subst isRow
  refine .bind skipNewlines_parses ?_ ?_
  · intro leading skipped
    have isRow := goesOn skipped (expression_sample true) newlines_nil
      (sample_kind (.symbol .rightParen))
    exact ⟨[.identifier, .symbol .rightParen], by decide, isRow⟩
  intro _ third leading _ passesLeading skipped
  refine .bind (inner_parses well true third) ?_ ?_
  · intro row isRow
    have isWhole := goesOn skipped isRow newlines_nil (sample_kind (.symbol .rightParen))
    exact ⟨[.symbol .rightParen], by decide, isWhole⟩
  intro inner fourth row _ passesInner isRow
  refine .bind skipNewlines_parses ?_ ?_
  · intro trailing skippedAfter
    have isWhole := goesOn skipped isRow skippedAfter (sample_kind (.symbol .rightParen))
    exact ⟨[.symbol .rightParen], by decide, isWhole⟩
  intro _ fifth trailing _ passesTrailing skippedAfter
  refine ((expect_parses rfl).breaks.mono ?_).map
  intro last isLast
  obtain ⟨closing, rfl, closes⟩ := isLast
  exact .done (goesOn skipped isRow skippedAfter closes)

theorem primary_breaks (well : BreaksWell fuel) (reader : Reader) :
    Breaks (Phrases (.primary reader.childrenAllowed)) (primary (fuel + 1)) reader := by
  have viable : Completes (Phrases (.primary reader.childrenAllowed)) [] :=
    ⟨[.identifier], by decide, _, .identifier rfl⟩
  unfold primary
  apply breaks_get
  cases present : reader.current? with
  | none => exact breaks_unexpected viable
  | some token =>
      dsimp only
      generalize isKind : token.kind = kind
      split
      · refine .bind (advance_parses present) ?_ ?_
        · intro row isRow
          subst isRow
          exact .done ⟨_, .identifier isKind⟩
        · intro _ middle row _ passes isRow
          subst isRow
          apply breaks_get
          split
          · have breaks := well.call middle isKind
            rw [passes.childrenAllowed_eq] at breaks
            exact breaks
          · exact breaks_pure
      · refine constant_breaks present isKind ?_ ?_ ?_
        · exact Literal.le_of_positiveInteger?_eq_none
        · have denotes : (0 : Int64).toInt = integer.sample.number := by decide
          exact .done (phrases_of (.integer rfl (by decide) denotes) rfl)
        · intro value isValue
          obtain ⟨fits, denotes⟩ := Literal.positiveInteger?_eq_some_iff.mp isValue
          exact .done (phrases_of (.integer isKind fits denotes) rfl)
      · refine ((advance_parses present).breaks.mono ?_).map
        intro row isRow
        subst isRow
        exact .done ⟨_, .float isKind⟩
      · refine ((advance_parses present).breaks.mono ?_).map
        intro row isRow
        subst isRow
        exact .done ⟨_, .boolean isKind⟩
      · exact parentheses_breaks well present isKind
      · exact well.conditional reader
      · exact breaks_unexpected viable

/-- The children of a call, between braces. -/
theorem children_breaks (well : BreaksWell fuel) {language : List Token → Prop}
    {tree : List Expr → Reader → Expr} (allowed : reader.childrenAllowed = true)
    (goesOn : ∀ {opening closing : Token} {leading lines : List Token},
      opening.kind = .symbol .leftBrace → Newlines leading → Phrases .lines lines →
      closing.kind = .symbol .rightBrace →
      language (opening :: (leading ++ (lines ++ [closing])))) :
    Breaks language
      (do
        let _ ← expect (.symbol .leftBrace)
        skipNewlines
        let children ← childList fuel
        let _ ← expect (.symbol .rightBrace)
        return tree children (← get)) reader := by
  have noLines : Phrases .lines [] := ⟨[], .noLine⟩
  refine .bind (expect_parses rfl) ?_ ?_
  · intro row isRow
    obtain ⟨opening, rfl, opens⟩ := isRow
    exact ⟨[.symbol .rightBrace], by decide, goesOn opens newlines_nil noLines rfl⟩
  intro _ second row _ passesOpening isRow
  obtain ⟨opening, rfl, opens⟩ := isRow
  refine .bind skipNewlines_parses ?_ ?_
  · intro leading skipped
    have isWhole := goesOn opens skipped noLines (sample_kind (.symbol .rightBrace))
    exact ⟨[.symbol .rightBrace], by decide, isWhole⟩
  intro _ third leading _ passesLeading skipped
  have allowedInside : third.childrenAllowed = true :=
    (passesOpening.append passesLeading).childrenAllowed_eq.trans allowed
  refine .bind (parses_of_reads ((sound fuel).childList allowedInside)
    (well.childList third allowedInside)) ?_ ?_
  · intro lines areLines
    have isWhole := goesOn opens skipped areLines (sample_kind (.symbol .rightBrace))
    exact ⟨[.symbol .rightBrace], by decide, isWhole⟩
  intro children fourth lines _ _ areLines
  refine .bind (expect_parses rfl) ?_ (fun _ _ _ _ _ _ => breaks_get breaks_pure)
  intro last isLast
  obtain ⟨closing, rfl, closes⟩ := isLast
  exact .done (goesOn opens skipped areLines closes)

theorem call_breaks (well : BreaksWell fuel) {name : Token} (reader : Reader)
    (isName : name.kind = .identifier) :
    Breaks (fun row => Phrases (.primary reader.childrenAllowed) (name :: row))
      (call (fuel + 1) name.ident) reader := by
  have goesOn : ∀ {opening closing : Token} {leading row : List Token},
      opening.kind = .symbol .leftParen → Newlines leading → Phrases .arguments row →
      closing.kind = .symbol .rightParen → Phrases (.primary reader.childrenAllowed)
        (name :: opening :: (leading ++ (row ++ [closing]))) := by
    intro opening closing leading row opens skipped isRow closes
    obtain ⟨arguments, derives⟩ := isRow
    exact phrases_of (.call isName opens skipped derives closes) (by simp)
  have noArguments : Phrases .arguments [] := ⟨[], .noArgument⟩
  unfold call
  refine .bind (expect_parses rfl) ?_ ?_
  · intro row isRow
    obtain ⟨opening, rfl, opens⟩ := isRow
    exact ⟨[.symbol .rightParen], by decide, goesOn opens newlines_nil noArguments rfl⟩
  intro _ second row _ passesOpening isRow
  obtain ⟨opening, rfl, opens⟩ := isRow
  refine .bind skipNewlines_parses ?_ ?_
  · intro leading skipped
    have isCall := goesOn opens skipped noArguments (sample_kind (.symbol .rightParen))
    exact ⟨[.symbol .rightParen], by decide, isCall⟩
  intro _ third leading _ passesLeading skipped
  refine .bind (parses_of_reads (sound fuel).callArguments (well.callArguments third)) ?_ ?_
  · intro row isRow
    have isCall := goesOn opens skipped isRow (sample_kind (.symbol .rightParen))
    exact ⟨[.symbol .rightParen], by decide, isCall⟩
  intro arguments fourth row _ passesRow areArguments
  refine .bind (expect_parses rfl) ?_ ?_
  · intro last isLast
    obtain ⟨closing, rfl, closes⟩ := isLast
    exact .done (goesOn opens skipped areArguments closes)
  intro _ fifth last _ passesClosing isLast
  obtain ⟨closing, rfl, closes⟩ := isLast
  apply breaks_get
  split
  · rename_i allowed
    have passesCall := ((passesOpening.append passesLeading).append passesRow).append passesClosing
    have allowedHere : fifth.childrenAllowed = true := (Bool.and_eq_true_iff.mp allowed).1
    have allowedBefore : reader.childrenAllowed = true :=
      passesCall.childrenAllowed_eq.symm.trans allowedHere
    refine children_breaks well allowedHere ?_
    intro openingBrace closingBrace leadingLines lines opensBrace skippedLines areLines closesBrace
    obtain ⟨arguments, derives⟩ := areArguments
    obtain ⟨trees, derivesLines⟩ := areLines
    rw [allowedBefore]
    exact phrases_of (.callWithChildren isName opens skipped derives closes opensBrace
      skippedLines derivesLines closesBrace) (by simp)
  · exact breaks_pure

theorem callArguments_breaks (well : BreaksWell fuel) (reader : Reader) :
    Breaks (Phrases .arguments) (callArguments (fuel + 1)) reader := by
  have goesOn : ∀ {label colon : Token} {row trailing : List Token},
      label.kind = .identifier → colon.kind = .symbol .colon → Phrases (.expression true) row →
      Newlines trailing → Phrases .arguments (label :: colon :: (row ++ trailing)) := by
    intro label colon row trailing isLabel isColon isRow skipped
    obtain ⟨tree, derives⟩ := isRow
    exact phrases_of (.lastArgument isLabel isColon derives skipped) (by simp)
  unfold callArguments
  apply breaks_get
  split
  · refine .bind identifier_parses ?_ ?_
    · intro row isRow
      obtain ⟨label, rfl, isLabel⟩ := isRow
      exact ⟨[.symbol .colon, .identifier], by decide,
        goesOn isLabel rfl (expression_sample true) newlines_nil⟩
    intro _ second row _ _ isRow
    obtain ⟨label, rfl, isLabel⟩ := isRow
    refine .bind (expect_parses rfl) ?_ ?_
    · intro row isRow
      obtain ⟨colon, rfl, isColon⟩ := isRow
      have isLast := goesOn isLabel isColon (expression_sample true) newlines_nil
      exact ⟨[.identifier], by decide, isLast⟩
    intro _ third row _ _ isRow
    obtain ⟨colon, rfl, isColon⟩ := isRow
    refine .bind (inner_parses well true third) ?_ ?_
    · intro row isRow
      have isLast := goesOn isLabel isColon isRow newlines_nil
      rw [List.append_nil] at isLast
      exact .done isLast
    intro value fourth row _ _ isRow
    refine .bind skipNewlines_parses ?_ ?_
    · intro trailing skipped
      have isLast := goesOn isLabel isColon isRow skipped
      exact .done isLast
    intro _ fifth trailing _ _ skipped
    have goesFurther : ∀ {comma : Token} {leading more : List Token},
        comma.kind = .symbol .comma → Newlines leading → Phrases .arguments more →
        Phrases .arguments
          (label :: colon :: (row ++ (trailing ++ comma :: (leading ++ more)))) := by
      intro comma leading more isComma skippedAfter areMore
      obtain ⟨tree, derives⟩ := isRow
      obtain ⟨others, derivesMore⟩ := areMore
      exact phrases_of (.nextArgument isLabel isColon derives skipped isComma skippedAfter
        derivesMore) (by simp)
    refine .eat ?_ ?_ (fun _ => breaks_pure)
    · intro comma isComma
      exact .done (goesFurther isComma newlines_nil ⟨[], .noArgument⟩)
    intro comma sixth isComma _
    refine .bind skipNewlines_parses ?_ ?_
    · intro leading skippedAfter
      have areArguments := goesFurther isComma skippedAfter ⟨[], .noArgument⟩
      rw [List.append_nil] at areArguments
      exact .done areArguments
    intro _ seventh leading _ _ skippedAfter
    refine ((well.callArguments seventh).mono ?_).map
    intro more areMore
    exact .done (goesFurther isComma skippedAfter areMore)
  · exact breaks_pure

/-- A line and the rest of the lines, as children and as statements of a block. -/
theorem line_breaks (well : BreaksWell fuel) {rest : Read (List Expr)}
    (ofRest : ∀ reader : Reader, reader.childrenAllowed = true →
      Breaks (Phrases .lines) rest reader)
    (allowed : reader.childrenAllowed = true) :
    Breaks (Phrases .lines) (line fuel rest) reader := by
  unfold line
  have parses := expression_parses well 0 reader
  rw [allowed] at parses
  refine .bind parses ?_ ?_
  · intro row isRow
    obtain ⟨tree, derives⟩ := isRow
    exact .done ⟨[tree], .lastLine derives⟩
  intro tree second row _ passes isRow
  apply breaks_get
  split
  · rename_i atNewline
    have goesOn : ∀ {newlines more : List Token}, Newlines newlines → newlines ≠ [] →
        Phrases .lines more → Phrases .lines (row ++ (newlines ++ more)) := by
      intro newlines more skipped ended areMore
      obtain ⟨tree, derives⟩ := isRow
      obtain ⟨others, derivesMore⟩ := areMore
      exact phrases_of (.nextLine derives skipped ended derivesMore) (by simp)
    refine .bind skipNewlines_parses ?_ ?_
    · intro newlines skipped
      by_cases none : newlines = []
      · obtain ⟨tree, derives⟩ := isRow
        exact .done (phrases_of (.lastLine derives) (by simp [none]))
      · have areLines := goesOn skipped none ⟨[], .noLine⟩
        rw [List.append_nil] at areLines
        exact .done areLines
    intro _ third newlines skips passesNewlines skipped
    obtain ⟨_, -, -, stopped⟩ := skipNewlines_eq_ok_iff.mp skips
    have ended := ne_nil_of_skipped passesNewlines atNewline stopped
    have allowedAfter := (passes.append passesNewlines).childrenAllowed_eq.trans allowed
    refine ((ofRest third allowedAfter).mono ?_).map
    intro more areMore
    exact .done (goesOn skipped ended areMore)
  · exact breaks_pure

theorem childList_breaks (well : BreaksWell fuel) (reader : Reader)
    (allowed : reader.childrenAllowed = true) :
    Breaks (Phrases .lines) (childList (fuel + 1)) reader := by
  intro error after fails
  rw [childList_succ] at fails
  split at fails
  · exact line_breaks well well.childList allowed error after fails
  · cases fails

theorem statementList_breaks (well : BreaksWell fuel) (reader : Reader)
    (allowed : reader.childrenAllowed = true) :
    Breaks (Phrases .lines) (statementList (fuel + 1)) reader := by
  intro error after fails
  rw [statementList_succ] at fails
  split at fails
  · exact line_breaks well well.statementList allowed error after fails
  · cases fails

theorem conditional_breaks (well : BreaksWell fuel) (reader : Reader) :
    Breaks (Phrases (.primary reader.childrenAllowed)) (conditional (fuel + 1)) reader := by
  have goesOn : ∀ {start : Token} {row body : List Token}, start.kind = .keyword .kwIf →
      Phrases (.expression false) row → Phrases .block body →
      Phrases (.primary reader.childrenAllowed) (start :: (row ++ body)) := by
    intro start row body isIf isRow isBody
    obtain ⟨condition, derives⟩ := isRow
    obtain ⟨thenBlock, derivesThen⟩ := isBody
    obtain ⟨inside, closing, rfl⟩ := derivesThen.block_closes
    exact phrases_of (.conditional isIf derives derivesThen) (by simp)
  unfold conditional
  refine .bind (expect_parses rfl) ?_ ?_
  · intro row isRow
    obtain ⟨start, rfl, isIf⟩ := isRow
    have isConditional := goesOn isIf (expression_sample false) block_sample
    exact ⟨[.identifier, .symbol .leftBrace, .symbol .rightBrace], by decide, isConditional⟩
  intro _ second row _ _ isRow
  obtain ⟨start, rfl, isIf⟩ := isRow
  refine .bind (inner_parses well false second) ?_ ?_
  · intro row isRow
    have isConditional := goesOn isIf isRow block_sample
    exact ⟨[.symbol .leftBrace, .symbol .rightBrace], by decide, isConditional⟩
  intro condition third row _ _ isRow
  refine .bind (parses_of_reads (sound fuel).block (well.block third)) ?_ ?_
  · intro body isBody
    have isConditional := goesOn isIf isRow isBody
    exact .done isConditional
  intro thenBlock fourth body _ _ isBody
  have goesFurther : ∀ {middle : Token} {other : List Token}, middle.kind = .keyword .kwElse →
      Phrases .block other → Phrases (.primary reader.childrenAllowed)
        (start :: (row ++ (body ++ middle :: other))) := by
    intro middle other isElse isOther
    obtain ⟨condition, derives⟩ := isRow
    obtain ⟨thenBlock, derivesThen⟩ := isBody
    obtain ⟨elseBlock, derivesElse⟩ := isOther
    obtain ⟨inside, closing, rfl⟩ := derivesElse.block_closes
    exact phrases_of (.conditionalElse isIf derives derivesThen isElse derivesElse) (by simp)
  refine .eat ?_ ?_ (fun _ => breaks_get breaks_pure)
  · intro middle isElse
    exact ⟨[.symbol .leftBrace, .symbol .rightBrace], by decide, goesFurther isElse block_sample⟩
  intro middle fifth isElse _
  refine .bind (parses_of_reads (sound fuel).block (well.block fifth)) ?_
    (fun _ _ _ _ _ _ => breaks_get breaks_pure)
  intro other isOther
  exact .done (goesFurther isElse isOther)

/-- The result of a block and the brace after it. -/
theorem returned_breaks (well : BreaksWell fuel) {language : List Token → Prop}
    {tree : Expr → Block} (allowed : reader.childrenAllowed = true)
    (goesOn : ∀ {closing : Token} {row trailing : List Token}, Phrases (.expression true) row →
      Newlines trailing → closing.kind = .symbol .rightBrace →
      language (row ++ (trailing ++ [closing]))) :
    Breaks language
      (do
        let result ← expression fuel 0
        skipNewlines
        let _ ← expect (.symbol .rightBrace)
        return tree result) reader := by
  have parses := expression_parses well 0 reader
  rw [allowed] at parses
  refine .bind parses ?_ ?_
  · intro row isRow
    have isWhole := goesOn isRow newlines_nil (sample_kind (.symbol .rightBrace))
    exact ⟨[.symbol .rightBrace], by decide, isWhole⟩
  intro result second row _ _ isRow
  refine .bind skipNewlines_parses ?_ ?_
  · intro trailing skipped
    have isWhole := goesOn isRow skipped (sample_kind (.symbol .rightBrace))
    exact ⟨[.symbol .rightBrace], by decide, isWhole⟩
  intro _ third trailing _ _ skipped
  refine ((expect_parses rfl).breaks.mono ?_).map
  intro last isLast
  obtain ⟨closing, rfl, closes⟩ := isLast
  exact .done (goesOn isRow skipped closes)

theorem block_breaks (well : BreaksWell fuel) (reader : Reader) :
    Breaks (Phrases .block) (block (fuel + 1)) reader := by
  have goesOn : ∀ {opening closing : Token} {leading lines : List Token},
      opening.kind = .symbol .leftBrace → Newlines leading → Phrases .lines lines →
      closing.kind = .symbol .rightBrace →
      Phrases .block (opening :: (leading ++ (lines ++ [closing]))) := by
    intro opening closing leading lines opens skipped areLines closes
    obtain ⟨statements, derives⟩ := areLines
    exact phrases_of (.block opens skipped derives closes) (by simp)
  have noLines : Phrases .lines [] := ⟨[], .noLine⟩
  unfold block
  refine Breaks.withChildren ?_
  refine .bind (expect_parses rfl) ?_ ?_
  · intro row isRow
    obtain ⟨opening, rfl, opens⟩ := isRow
    exact ⟨[.symbol .rightBrace], by decide, goesOn opens newlines_nil noLines rfl⟩
  intro _ second row _ passesOpening isRow
  obtain ⟨opening, rfl, opens⟩ := isRow
  refine .bind skipNewlines_parses ?_ ?_
  · intro leading skipped
    have isBlock := goesOn opens skipped noLines (sample_kind (.symbol .rightBrace))
    exact ⟨[.symbol .rightBrace], by decide, isBlock⟩
  intro _ third leading _ passesLeading skipped
  have allowedInside : third.childrenAllowed = true :=
    (passesOpening.append passesLeading).childrenAllowed_eq
  refine .bind (parses_of_reads ((sound fuel).statementList allowedInside)
    (well.statementList third allowedInside)) ?_ ?_
  · intro lines areLines
    have isBlock := goesOn opens skipped areLines (sample_kind (.symbol .rightBrace))
    exact ⟨[.symbol .rightBrace], by decide, isBlock⟩
  intro statements fourth lines _ passesLines areLines
  have goesFurther : ∀ {word closing : Token} {row trailing : List Token},
      word.kind = .keyword .kwReturn → Phrases (.expression true) row → Newlines trailing →
      closing.kind = .symbol .rightBrace → Phrases .block
        (opening :: (leading ++ (lines ++ word :: (row ++ (trailing ++ [closing]))))) := by
    intro word closing row trailing isReturn isRow skippedAfter closes
    obtain ⟨statements, derives⟩ := areLines
    obtain ⟨result, derivesResult⟩ := isRow
    exact phrases_of (.blockWithResult opens skipped derives isReturn derivesResult skippedAfter
      closes) (by simp)
  refine .eat ?_ ?_ ?_
  · intro word isReturn
    exact ⟨[.identifier, .symbol .rightBrace], by decide,
      goesFurther isReturn (expression_sample true) newlines_nil rfl⟩
  · intro word fifth isReturn passesWord
    have allowedAfter : fifth.childrenAllowed = true :=
      (passesLines.append passesWord).childrenAllowed_eq.trans allowedInside
    exact returned_breaks well allowedAfter (goesFurther isReturn)
  · intro _
    refine ((expect_parses rfl).breaks.mono ?_).map
    intro last isLast
    obtain ⟨closing, rfl, closes⟩ := isLast
    exact .done (goesOn opens skipped areLines closes)

end Step

theorem breaksWell (fuel : Nat) : BreaksWell fuel := by
  induction fuel with
  | zero => constructor <;> intros <;> exact breaks_exhausted
  | succ fuel inductionHypothesis =>
      exact {
        expression := expression_breaks inductionHypothesis
        operations := operations_breaks inductionHypothesis
        unary := unary_breaks inductionHypothesis
        primary := primary_breaks inductionHypothesis
        call := call_breaks inductionHypothesis
        callArguments := callArguments_breaks inductionHypothesis
        childList := childList_breaks inductionHypothesis
        conditional := conditional_breaks inductionHypothesis
        block := block_breaks inductionHypothesis
        statementList := statementList_breaks inductionHypothesis }

end Read

end ScalarLang
