import ScalarLang.Proofs.Lexing.Numerals
import ScalarLang.Proofs.Reading.Printing
import ScalarLang.Proofs.Reading.Refusals

/-!
# Integers are read exactly

Digits are read as the number they write, up to the limits of sixty-four bits.  A minus right
before the digits of an operand is a part of the integer, which may then reach one further.  A
minus after an operand is an operation, and so is a minus before a parenthesis; the digits
after it are an integer of their own, with the limit of one.
-/

set_option autoImplicit false

namespace ScalarLang

open Grammar

/-! ## Values up to a limit -/

/-- There is a value for a count up to a limit, and none for a larger one. -/
structure HasLimit (value? : Option Int64) (limit count : Nat) (number : Int) : Prop where
  within : count ≤ limit → ∃ value, value? = some value ∧ value.toInt = number
  beyond : limit < count → value? = none

theorem hasLimit_of_iff {value? : Option Int64} {limit count : Nat} {number : Int}
    (fits : count ≤ limit → -0x8000000000000000 ≤ number ∧ number < 0x8000000000000000)
    (isValue : ∀ value, value? = some value ↔ count ≤ limit ∧ value.toInt = number) :
    HasLimit value? limit count number where
  within small := by
    obtain ⟨least, greatest⟩ := fits small
    have denotes : (Int64.ofInt number).toInt = number := Int64.toInt_ofInt_of_le least greatest
    exact ⟨Int64.ofInt number, (isValue _).mpr ⟨small, denotes⟩, denotes⟩
  beyond large := by
    rw [Option.eq_none_iff_forall_ne_some]
    intro value found
    exact absurd ((isValue value).mp found).1 (Nat.not_le.mpr large)

theorem Literal.positiveInteger?_hasLimit (text : String) :
    HasLimit (positiveInteger? text) (0x7FFFFFFFFFFFFFFF) (numeralValue text) (numeralValue text) := by
  refine hasLimit_of_iff (by omega) fun value => ?_
  rw [positiveInteger?_eq_some_iff, Text.digitsValue_toList]

theorem Literal.negativeInteger?_hasLimit (text : String) :
    HasLimit (negativeInteger? text) (0x8000000000000000) (numeralValue text) (-numeralValue text) := by
  refine hasLimit_of_iff (by omega) fun value => ?_
  rw [negativeInteger?_eq_some_iff, Text.digitsValue_toList]

def Token.invalid (digits : Token) : SyntaxError :=
  ⟨.invalidLiteral digits.kind digits.text, digits.span, digits.position.line,
    digits.position.column⟩

namespace Read

open Reader

variable {α : Type} {reader middle last after : Reader} {digits sign : Token}
  {tokens before rest : List Token}

/-! ## Steps -/

theorem integerValue_of_none (present : reader.current? = some digits) :
    integerValue none digits reader = .error (.rejected digits.invalid) reader := by
  simp [integerValue, fail, errorHere, present, Token.invalid]

theorem advance_of_fault {token : Token} {error : LexError} (isLast : reader.tokens = [token])
    (isFault : reader.ending = .fault error) :
    advance reader = .error (.rejected (.ofLexError error))
      { reader with ending := .finished error.position } := by
  unfold advance
  rw [isLast, isFault]

theorem expect_bind_of_current {token : Token} {kind : TokenKind} {next : Token → Read α}
    (present : reader.current? = some token) (isKind : token.kind = kind) :
    (expect kind >>= next) reader = (advance >>= fun _ => next token) reader := by
  unfold expect
  rw [bind_assoc, get_bind, present]
  simp only [isKind, if_true, bind_assoc, pure_bind]

/-! ## Taking tokens -/

/-- Reading passes tokens and gives a value, whatever comes after them; but a fault of the
text right after them is met when the last of them is passed. -/
structure Takes (action : Nat → Read α) (reader : Reader) (tokens : List Token) (value : α) :
    Prop where
  gives : ∀ after, Passes reader tokens after → Gives action reader value after
  faults : ∀ error, reader.tokens = tokens → reader.ending = .fault error →
    Refuses action reader (.ofLexError error)

section Takes

variable {action : Nat → Read α} {value : α}

theorem takes_of_last {token : Token} (passes : Passes reader before last)
    (same : ∀ᶠ fuel in Filter.atTop,
      action (fuel + 1) reader = (advance >>= fun _ => pure value) last) :
    Takes action reader (before ++ [token]) value where
  gives after passesAll := by
    obtain ⟨_, passesBefore, passesToken⟩ := passes_append_iff.mp passesAll
    obtain rfl := passes.unique passesBefore
    apply gives_of_succ
    filter_upwards [same] with fuel isSame
    rw [isSame, bind_of_ok (passes_singleton_iff.mp passesToken).2]
    rfl
  faults error areTokens isFault := by
    have isFaultThere := passes.ending_eq.trans isFault
    apply refuses_of_succ
    filter_upwards [same] with fuel isSame
    rw [isSame, bind_of_error (advance_of_fault (passes.rest_eq areTokens) isFaultThere)]
    exact ⟨_, rfl⟩

/-- Where tokens are taken, no other value is given. -/
theorem Takes.eq_of_gives (takes : Takes action reader tokens value)
    (areTokens : reader.tokens = tokens ++ rest) {other : α}
    (gives : Gives action reader other after) : other = value := by
  have passing : ∀ {later}, Passes reader tokens later → other = value := by
    intro later passes
    obtain ⟨fuel, isOther, isValue⟩ := (gives.and (takes.gives later passes)).exists
    rw [isOther] at isValue
    cases isValue
    rfl
  cases rest with
  | cons next rest =>
      obtain ⟨_, passes, -⟩ := exists_passes_before areTokens
      exact passing passes
  | nil =>
      cases isEnding : reader.ending with
      | finished position =>
          obtain ⟨_, passes, -⟩ := exists_passes areTokens isEnding
          exact passing passes
      | fault error =>
          rw [List.append_nil] at areTokens
          obtain ⟨fuel, isOther, _, fails⟩ :=
            (gives.and (takes.faults error areTokens isEnding)).exists
          rw [isOther] at fails
          cases fails

end Takes

/-- Reading takes tokens with some digits among them as an integer up to a limit, and refuses
the digits beyond it. -/
structure TakesUpTo (limit : Nat) (digits : Token) (number : Int) (action : Nat → Read Expr)
    (reader : Reader) (tokens : List Token) (tree : Int64 → Expr) : Prop where
  within : numeralValue digits.text ≤ limit →
    ∃ value : Int64, value.toInt = number ∧ Takes action reader tokens (tree value)
  beyond : limit < numeralValue digits.text → Refuses action reader digits.invalid

section TakesUpTo

variable {limit : Nat} {number : Int} {tree : Int64 → Expr}

/-- What is read after some tokens is only changed. -/
theorem TakesUpTo.behind {action deeper : Nat → Read Expr} {change : Expr → Expr}
    (takes : TakesUpTo limit digits number action middle tokens tree)
    (passes : Passes reader before middle)
    (same : ∀ fuel, deeper (fuel + 1) reader =
      (action fuel >>= fun result => pure (change result)) middle) :
    TakesUpTo limit digits number deeper reader (before ++ tokens)
      fun value => change (tree value) where
  within small := by
    obtain ⟨value, isNumber, gives, faults⟩ := takes.within small
    refine ⟨value, isNumber, ?_, ?_⟩
    · intro after passesAll
      obtain ⟨_, passesBefore, passesTokens⟩ := passes_append_iff.mp passesAll
      obtain rfl := passes.unique passesBefore
      apply gives_of_succ
      filter_upwards [gives after passesTokens] with fuel reads
      rw [same, bind_of_ok reads]
      rfl
    · intro error areTokens isFault
      have isFaultThere := passes.ending_eq.trans isFault
      apply refuses_of_succ
      filter_upwards [faults error (passes.rest_eq areTokens) isFaultThere] with fuel fails
      obtain ⟨last, fails⟩ := fails
      rw [same]
      exact ⟨last, bind_of_error fails⟩
  beyond large := by
    apply refuses_of_succ
    filter_upwards [takes.beyond large] with fuel fails
    obtain ⟨last, fails⟩ := fails
    rw [same]
    exact ⟨last, bind_of_error fails⟩

/-! ## Digits -/

theorem takes_digits (isInteger : digits.kind = .integer)
    (present : reader.current? = some digits) :
    TakesUpTo (0x7FFFFFFFFFFFFFFF) digits (numeralValue digits.text) primary reader [digits]
      fun value => .literal (.integer value) digits.span where
  within small := by
    obtain ⟨value, isValue, isNumber⟩ :=
      (Literal.positiveInteger?_hasLimit digits.text).within small
    refine ⟨value, isNumber, takes_of_last .none (.of_forall fun fuel => ?_)⟩
    rw [primary_of_integer isInteger present,
      bind_of_ok (integerValue_eq_ok_iff.mpr ⟨isValue, rfl⟩)]
  beyond large := by
    have noValue := (Literal.positiveInteger?_hasLimit digits.text).beyond large
    refine refuses_of_succ (.of_forall fun fuel => ⟨reader, ?_⟩)
    rw [primary_of_integer isInteger present, noValue,
      bind_of_error (integerValue_of_none present)]

/-- A minus right before the digits of an operand is a part of the integer. -/
theorem takes_negative (isSign : sign.kind = .operator .sub) (isInteger : digits.kind = .integer)
    (areTokens : reader.tokens = sign :: digits :: rest) :
    TakesUpTo (0x8000000000000000) digits (-numeralValue digits.text) unary reader [sign, digits]
      fun value => .literal (.integer value) (sign.span.union digits.span) := by
  obtain ⟨middle, passesSign, areDigits⟩ :=
    exists_passes_before (List.singleton_append.trans areTokens.symm).symm
  have present : middle.current? = some digits := by simp [current?, areDigits]
  have isUnary := unary_of_negative isSign isInteger passesSign present
  constructor
  · intro small
    obtain ⟨value, isValue, isNumber⟩ :=
      (Literal.negativeInteger?_hasLimit digits.text).within small
    refine ⟨value, isNumber, takes_of_last passesSign (.of_forall fun fuel => ?_)⟩
    rw [isUnary, bind_of_ok (integerValue_eq_ok_iff.mpr ⟨isValue, rfl⟩)]
  · intro large
    have noValue := (Literal.negativeInteger?_hasLimit digits.text).beyond large
    refine refuses_of_succ (.of_forall fun fuel => ⟨middle, ?_⟩)
    rw [isUnary, noValue, bind_of_error (integerValue_of_none present)]

/-! ## Operands with and without a sign -/

theorem TakesUpTo.unary (takes : TakesUpTo limit digits number primary reader tokens tree)
    (noSign : reader.unaryOp? = none) :
    TakesUpTo limit digits number unary reader tokens tree := by
  have same : ∀ fuel, Read.unary (fuel + 1) reader =
      (primary fuel >>= fun result => pure (id result)) reader := by
    intro fuel
    rw [unary_of_plain noSign]
    exact congrFun (bind_pure (primary fuel)).symm reader
  exact takes.behind .none same

/-- A minus before an operand that does not begin with digits is an operation. -/
theorem TakesUpTo.negated (takes : TakesUpTo limit digits number primary middle tokens tree)
    (isSign : sign.kind = .operator .sub) (passesSign : Passes reader [sign] middle)
    (noDigits : middle.isAt .integer = false) :
    TakesUpTo limit digits number Read.unary reader (sign :: tokens)
      fun value => .unary .negate (tree value) (sign.span.union (tree value).span) := by
  have notNegated : middle.negated? .negate = none := by
    rw [Option.eq_none_iff_forall_ne_some]
    intro token negated
    obtain ⟨-, isNext, isInteger⟩ := negated?_eq_some_iff.mp negated
    rw [isAt_of_current isNext, isInteger] at noDigits
    cases noDigits
  exact takes.behind passesSign (unary_of_sign isSign passesSign notNegated)

/-! ## Parentheses -/

/-- Parentheses leave the integer between them as it is, but for its span. -/
theorem takes_parentheses {opening closing : Token} {leading inner trailing : List Token}
    (opens : opening.kind = .symbol .leftParen) (skipped : Newlines leading)
    (starts : Starts startsPrimary inner)
    (ofInner : ∀ reader rest, reader.tokens = inner ++ rest →
      TakesUpTo limit digits number primary reader inner tree)
    (skippedAfter : Newlines trailing) (closes : closing.kind = .symbol .rightParen)
    (areTokens : reader.tokens = opening :: leading ++ inner ++ trailing ++ [closing] ++ rest) :
    TakesUpTo limit digits number primary reader
      (opening :: leading ++ inner ++ trailing ++ [closing])
      fun value => (tree value).withSpan (opening.span.union closing.span) := by
  rw [List.append_assoc _ [closing], List.singleton_append] at areTokens
  obtain ⟨last, passesAll, isLast⟩ := exists_passes_before areTokens
  obtain ⟨third, passes, passesTrailing⟩ := passes_append_iff.mp passesAll
  obtain ⟨second, passesLeading, passesInner⟩ := passes_append_iff.mp passes
  have presentLast : last.current? = some closing := by simp [current?, isLast]
  have atClosing : last.isAt (.symbol .rightParen) = true := by
    simp [isAt_of_current presentLast, closes]
  have startsThere : Starts startsExpression inner := by
    obtain ⟨first, others, isInner, starts⟩ := starts
    exact ⟨first, others, isInner, by simp [startsExpression, starts]⟩
  have stopped := not_isAt_newline_of_starts startsThere passesInner
  have takes := (ofInner (second.allow true) third.tokens passesInner.tokens_eq).unary
    (unaryOp?_of_starts starts passesInner.tokens_eq)
  have isPrimary := primary_of_parentheses opens skipped passesLeading stopped
  constructor
  · intro small
    obtain ⟨value, isNumber, takesValue⟩ := takes.within small
    have ends : (third.allow true).EndsExpression :=
      endsExpression_of_newlines skippedAfter (passesTrailing.allow true)
        (endsExpression_of_isAt (.symbol .rightParen) atClosing rfl)
    have givesInner := gives_expression (takesValue.gives _ (passesInner.allow true))
      (gives_operations_done (stops_zero_iff.mpr ends.noOperator))
    have skipsAfter := skipNewlines_of_passes skippedAfter passesTrailing
      (by simp [isAt_eq_of_isAt atClosing])
    refine ⟨value, isNumber, takes_of_last passesAll ?_⟩
    filter_upwards [givesInner] with fuel readsInner
    rw [isPrimary, bind_of_ok (withChildren_of_passes passesInner readsInner),
      bind_of_ok skipsAfter, expect_bind_of_current presentLast closes]
  · intro large
    apply refuses_of_succ
    filter_upwards [refuses_expression (takes.beyond large)] with fuel fails
    obtain ⟨inner, fails⟩ := fails
    rw [isPrimary, bind_of_error (withChildren_of_error fails)]
    exact ⟨_, rfl⟩

end TakesUpTo

end Read

/-- Digits in parentheses, with newlines around them, and the span of all; there may be many
parentheses or none. -/
inductive Enclosed (digits : Token) : List Token → Span → Prop
  | bare : Enclosed digits [digits] digits.span
  | parentheses {opening closing : Token} {leading inner trailing : List Token} {span : Span}
      (opens : opening.kind = .symbol .leftParen) (skipped : Newlines leading)
      (enclosed : Enclosed digits inner span) (skippedAfter : Newlines trailing)
      (closes : closing.kind = .symbol .rightParen) :
      Enclosed digits (opening :: leading ++ inner ++ trailing ++ [closing])
        (opening.span.union closing.span)

namespace Enclosed

variable {digits : Token} {row rest : List Token} {span : Span} {reader : Reader}

theorem starts (enclosed : Enclosed digits row span) (isInteger : digits.kind = .integer) :
    Starts startsPrimary row := by
  cases enclosed with
  | bare => exact ⟨digits, [], rfl, by rw [isInteger]; rfl⟩
  | parentheses opens _ _ _ _ => exact ⟨_, _, rfl, by rw [opens]; rfl⟩

theorem takes (enclosed : Enclosed digits row span) (isInteger : digits.kind = .integer) :
    ∀ reader rest, reader.tokens = row ++ rest →
      Read.TakesUpTo (0x7FFFFFFFFFFFFFFF) digits (numeralValue digits.text) Read.primary reader row
        fun value => .literal (.integer value) span := by
  induction enclosed with
  | bare =>
      intro reader rest areTokens
      exact Read.takes_digits isInteger (by simp [Reader.current?, areTokens])
  | parentheses opens skipped enclosed skippedAfter closes inductionHypothesis =>
      intro reader rest areTokens
      exact Read.takes_parentheses opens skipped (enclosed.starts isInteger) inductionHypothesis
        skippedAfter closes areTokens

end Enclosed

theorem numeralValue_repr (number : Nat) : numeralValue number.repr = number := by
  rw [← Text.digitsValue_toList, Text.digitsValue_repr]

/-! ## Digits in every place -/

/-- After a row of operands and a minus, an expression goes on with the subtraction of an
integer up to its limit, and digits beyond it are refused. -/
structure Reader.SubtractsUpTo (limit : Nat) (digits : Token) (reader : Reader) (first : Expr)
    (others : List (BinaryOp × Expr)) (middle : Reader) (tokens : List Token) : Prop where
  within : numeralValue digits.text ≤ limit →
    ∃ value : Int64, value.toInt = numeralValue digits.text ∧
      (∀ after, middle.Passes tokens after → after.nextOp? = none → reader.ReadsWhole first
        (others ++ [(.sub, .literal (.integer value) digits.span)]) after) ∧
      ∀ tree after, reader.readExpression = (.ok tree, after) → ∃ more, reader.ReadsWhole first
        (others ++ (.sub, .literal (.integer value) digits.span) :: more) after
  beyond : limit < numeralValue digits.text →
    ∃ after, reader.readExpression = (.error digits.invalid, after)

/-- What digits are read as where an operand is expected, right after a minus there, in
parentheses after such a minus, and after a minus behind an operand. -/
structure Token.ReadExactly (digits : Token) : Prop where
  operand : ∀ (reader : Reader) rest, reader.tokens = digits :: rest →
    ∀ action ∈ [Read.unary, Read.primary],
      Read.TakesUpTo (0x7FFFFFFFFFFFFFFF) digits (numeralValue digits.text) action reader [digits]
        fun value => .literal (.integer value) digits.span
  negative : ∀ (reader : Reader) (sign : Token) rest, sign.kind = .operator .sub →
    reader.tokens = sign :: digits :: rest →
      Read.TakesUpTo (0x8000000000000000) digits (-numeralValue digits.text) Read.unary reader [sign, digits]
        fun value => .literal (.integer value) (sign.span.union digits.span)
  parenthesised : ∀ (reader : Reader) (sign : Token) row span rest,
    sign.kind = .operator .sub → Enclosed digits row span → row ≠ [digits] →
    reader.tokens = sign :: row ++ rest →
      Read.TakesUpTo (0x7FFFFFFFFFFFFFFF) digits (numeralValue digits.text) Read.unary reader (sign :: row)
        fun value => .unary .negate (.literal (.integer value) span) (sign.span.union span)
  subtracted : ∀ (reader : Reader) first others (middle : Reader) (sign : Token) newlines rest,
    reader.ReadsRow Reader.ReadsUnary first others middle → sign.kind = .operator .sub →
    Newlines newlines → middle.tokens = sign :: newlines ++ digits :: rest →
      reader.SubtractsUpTo (0x7FFFFFFFFFFFFFFF) digits first others middle (sign :: newlines ++ [digits])

namespace Token

open Reader

variable {digits sign : Token} {reader middle : Reader} {row newlines rest : List Token}

theorem takes_operand (isInteger : digits.kind = .integer)
    (areTokens : reader.tokens = digits :: rest) :
    Read.TakesUpTo (0x7FFFFFFFFFFFFFFF) digits (numeralValue digits.text) Read.unary reader [digits]
      fun value => .literal (.integer value) digits.span :=
  (Enclosed.bare.takes isInteger reader rest areTokens).unary
    (unaryOp?_of_starts (Enclosed.bare.starts isInteger) areTokens)

theorem takes_parenthesised {span : Span} (isInteger : digits.kind = .integer)
    (isSign : sign.kind = .operator .sub) (enclosed : Enclosed digits row span)
    (notBare : row ≠ [digits]) (areTokens : reader.tokens = sign :: row ++ rest) :
    Read.TakesUpTo (0x7FFFFFFFFFFFFFFF) digits (numeralValue digits.text) Read.unary reader (sign :: row)
      fun value => .unary .negate (.literal (.integer value) span) (sign.span.union span) := by
  obtain ⟨first, others, rfl, opens⟩ : ∃ first others, row = first :: others ∧
      first.kind = .symbol .leftParen := by
    cases enclosed with
    | bare => exact absurd rfl notBare
    | parentheses opens _ _ _ _ => exact ⟨_, _, rfl, opens⟩
  obtain ⟨middle, passesSign, areOthers⟩ :=
    exists_passes_before (List.singleton_append.trans areTokens.symm).symm
  have present : middle.current? = some first := by simp [current?, areOthers]
  exact (enclosed.takes isInteger middle rest areOthers).negated isSign passesSign
    (by simp [isAt_of_current present, opens])

theorem subtractsUpTo {first : Expr} {others : List (BinaryOp × Expr)}
    (isInteger : digits.kind = .integer) (row : reader.ReadsRow ReadsUnary first others middle)
    (isSign : sign.kind = .operator .sub) (areNewlines : Newlines newlines)
    (areTokens : middle.tokens = sign :: newlines ++ digits :: rest) :
    reader.SubtractsUpTo (0x7FFFFFFFFFFFFFFF) digits first others middle
      (sign :: newlines ++ [digits]) := by
  obtain ⟨operand, passesSign, areDigits⟩ := exists_passes_before areTokens
  have present : operand.current? = some digits := by simp [current?, areDigits]
  have isOperator : PassesOperator middle .sub operand :=
    passesOperator_iff.mpr ⟨sign, newlines, isSign, areNewlines, passesSign,
      by simp [isAt_of_current present, isInteger]⟩
  have takes := takes_operand isInteger areDigits
  constructor
  · intro small
    obtain ⟨value, isNumber, takesValue⟩ := takes.within small
    refine ⟨value, isNumber, ?_, ?_⟩
    · intro after passesAll noOperator
      obtain ⟨_, passesBefore, passesDigits⟩ := passes_append_iff.mp passesAll
      obtain rfl := passesSign.unique passesBefore
      have isOperand := Read.readsUnary_iff_gives.mpr (takesValue.gives after passesDigits)
      obtain ⟨second, readsFirst, readsOthers⟩ := row
      refine readsWhole_of_row ⟨second, readsFirst, ?_⟩ noOperator
      exact readsOperations_append_iff.mpr
        ⟨middle, readsOthers, .next isOperator isOperand .none⟩
    · intro tree after reads
      obtain ⟨_, right, later, more, isOther, isOperand, whole⟩ :=
        exists_operation_of_row row isOperator.1 reads
      obtain ⟨-, rfl⟩ := isOperator.unique isOther
      obtain rfl := takesValue.eq_of_gives areDigits (Read.readsUnary_iff_gives.mp isOperand)
      exact ⟨more, whole⟩
  · intro large
    exact readExpression_of_refused_operand row isOperator (takes.beyond large)

theorem readExactly (isInteger : digits.kind = .integer) : digits.ReadExactly where
  operand reader rest areTokens action member := by
    rcases List.mem_pair.mp member with rfl | rfl
    · exact takes_operand isInteger areTokens
    · exact Enclosed.bare.takes isInteger reader rest areTokens
  negative _ _ _ isSign := Read.takes_negative isSign isInteger
  parenthesised _ _ _ _ _ isSign := takes_parenthesised isInteger isSign
  subtracted _ _ _ _ _ _ _ row := subtractsUpTo isInteger row

end Token

/-! ## Sources -/

namespace Source

def ReadsTo (source : Source) (outcome : Except SyntaxError Expr) : Prop :=
  ∃ reader after, Reader.ofSource source = .ok reader ∧ reader.readExpression = (outcome, after)

structure ReadsUpTo (limit : Nat) (digits : Token) (number : Int) (span : Span)
    (source : Source) : Prop where
  within : numeralValue digits.text ≤ limit → ∃ value : Int64, value.toInt = number ∧
    source.ReadsTo (.ok (.literal (.integer value) span))
  beyond : limit < numeralValue digits.text → source.ReadsTo (.error digits.invalid)

variable {source : Source} {limit : Nat} {digits : Token} {number : Int} {span : Span}
  {text : String} {gap : List Char}

theorem readsUpTo_of_takes {tokens : List Token} {position : Position}
    (isStream : TokenStream.ofText source.characters = ⟨tokens, .finished position⟩)
    (takes : ∀ reader : Reader, reader.tokens = tokens →
      Read.TakesUpTo limit digits number Read.unary reader tokens
        fun value => .literal (.integer value) span) :
    source.ReadsUpTo limit digits number span := by
  let reader : Reader := ⟨tokens, .finished position, .empty 0, true⟩
  have started : Reader.ofSource source = .ok reader := by
    rw [Reader.ofSource, isStream]
    exact Reader.ofStream_eq_ok_iff.mpr ⟨rfl, fun _ => ⟨position, rfl⟩⟩
  have takesAll := takes reader rfl
  constructor
  · intro small
    obtain ⟨value, isNumber, takesValue⟩ := takesAll.within small
    obtain ⟨after, passes, noTokens⟩ :=
      Reader.exists_passes (List.append_nil reader.tokens).symm rfl
    have ends := Reader.endsExpression_of_no_tokens noTokens
    refine ⟨value, isNumber, reader, after, started, Reader.readExpression_eq_ok_iff.mpr ?_⟩
    exact Read.gives_expression (takesValue.gives after passes)
      (Read.gives_operations_done (Reader.stops_zero_iff.mpr ends.noOperator))
  · intro large
    obtain ⟨after, refused⟩ := Reader.exists_readExpression_eq_error
      (Read.refuses_expression (takesAll.beyond large))
    exact ⟨reader, after, started, refused⟩

theorem readsUpTo_numeral (isNumeral : IsNumeral text) (isGap : IsGap text.toList gap)
    (isSource : source.characters = gap ++ text.toList) :
    source.ReadsUpTo (0x7FFFFFFFFFFFFFFF) ⟨.integer, text, Position.initial.advance gap⟩
      (numeralValue text) ⟨Text.byteLength gap, source.byteLength⟩ := by
  have isStream := isNumeral.stream_eq isGap
  rw [← isSource] at isStream
  have isSpan : (⟨.integer, text, Position.initial.advance gap⟩ : Token).span =
      ⟨Text.byteLength gap, source.byteLength⟩ := by
    have atStart : Position.initial.offset = 0 := rfl
    simp [Token.span, Position.advance_offset, atStart, byteLength, isSource]
  rw [← isSpan]
  exact readsUpTo_of_takes isStream fun reader areTokens => Token.takes_operand rfl areTokens

theorem readsUpTo_negative (isNumeral : IsNumeral text) (isGap : IsGap text.toList gap)
    (isSource : source.characters = '-' :: (gap ++ text.toList)) :
    source.ReadsUpTo (0x8000000000000000) ⟨.integer, text, Position.initial.advance ('-' :: gap)⟩
      (-numeralValue text) ⟨0, source.byteLength⟩ := by
  have isStream := isNumeral.stream_minus_eq isGap
  rw [← isSource] at isStream
  have isSpan : (⟨.operator .sub, "-", .initial⟩ : Token).span.union
      (⟨.integer, text, Position.initial.advance ('-' :: gap)⟩ : Token).span =
        ⟨0, source.byteLength⟩ := by
    have atStart : Position.initial.offset = 0 := rfl
    have isLength : source.byteLength =
        Text.byteLength ('-' :: gap) + Text.byteLength text.toList := by
      rw [byteLength, isSource, ← List.cons_append, Text.byteLength_append]
    have isMinus : Text.byteLength "-".toList ≤ Text.byteLength ('-' :: gap) := by
      simp
    simp only [Token.span, Span.union, Position.advance_offset, atStart, isLength, Nat.zero_add,
      Span.mk.injEq]
    omega
  rw [← isSpan]
  exact readsUpTo_of_takes isStream fun reader areTokens =>
    Read.takes_negative rfl rfl areTokens

theorem readsTo_integer (value : Int64) (isText : source.text = toString value.toInt) :
    source.ReadsTo (.ok (.literal (.integer value) ⟨0, source.byteLength⟩)) := by
  have least := value.le_toInt
  have greatest := value.toInt_lt
  cases isNumber : value.toInt with
  | ofNat number =>
      have isSource : source.characters = [] ++ number.repr.toList := by
        rw [characters, isText, isNumber, Int.toString_eq_repr, Int.repr, List.nil_append]
      have small : numeralValue number.repr ≤ 0x7FFFFFFFFFFFFFFF := by
        rw [isNumber, Int.ofNat_eq_natCast] at greatest
        rw [numeralValue_repr]
        omega
      obtain ⟨other, isOther, readsTo⟩ :=
        (readsUpTo_numeral (isNumeral_repr number) .none isSource).within small
      rw [numeralValue_repr] at isOther
      obtain rfl : other = value := Int64.toInt_inj.mp (isOther.trans isNumber.symm)
      exact readsTo
  | negSucc number =>
      have isSource : source.characters = '-' :: ([] ++ number.succ.repr.toList) := by
        rw [characters, isText, isNumber, Int.toString_eq_repr, Int.repr, String.toList_append]
        rfl
      have small : numeralValue number.succ.repr ≤ 0x8000000000000000 := by
        rw [numeralValue_repr]
        omega
      obtain ⟨other, isOther, readsTo⟩ :=
        (readsUpTo_negative (isNumeral_repr number.succ) .none isSource).within small
      rw [numeralValue_repr] at isOther
      obtain rfl : other = value := Int64.toInt_inj.mp (isOther.trans isNumber.symm)
      exact readsTo

end Source

/-- Digits are read as the number they write: up to the greatest integer where they are an
operand, up to one more right after a minus that begins an operand, and as an integer of their
own in parentheses or after a minus behind an operand.  Such a minus is always an operation.
Beyond the limit the digits are refused.  Trivia between the minus and the digits do not
matter, and every integer is read from its own text. -/
theorem integers_are_read_exactly :
    (∀ digits : Token, digits.kind = .integer → digits.ReadExactly) ∧
    (∀ (source : Source) (text : String) (gap : List Char), IsNumeral text →
      IsGap text.toList gap →
      (source.characters = gap ++ text.toList →
        source.ReadsUpTo (0x7FFFFFFFFFFFFFFF) ⟨.integer, text, Position.initial.advance gap⟩
          (numeralValue text) ⟨Text.byteLength gap, source.byteLength⟩) ∧
      (source.characters = '-' :: (gap ++ text.toList) →
        source.ReadsUpTo (0x8000000000000000) ⟨.integer, text, Position.initial.advance ('-' :: gap)⟩
          (-numeralValue text) ⟨0, source.byteLength⟩)) ∧
    (∀ (reader middle after : Reader) (first tree : Expr) (others : List (BinaryOp × Expr)),
      reader.ReadsRow Reader.ReadsUnary first others middle →
      middle.isAt (.operator .sub) = true → reader.readExpression = (.ok tree, after) →
      ∃ operand right later more, Reader.PassesOperator middle .sub operand ∧
        Reader.ReadsUnary operand right later ∧
        reader.ReadsWhole first (others ++ (.sub, right) :: more) after) ∧
    ∀ (value : Int64) (source : Source), source.text = toString value.toInt →
      source.ReadsTo (.ok (.literal (.integer value) ⟨0, source.byteLength⟩)) := by
  refine ⟨fun _ => Token.readExactly, ?_, ?_, fun value _ => Source.readsTo_integer value⟩
  · intro source text gap isNumeral isGap
    exact ⟨Source.readsUpTo_numeral isNumeral isGap, Source.readsUpTo_negative isNumeral isGap⟩
  · intro reader middle after first tree others row atMinus reads
    exact Reader.exists_operation_of_row row
      (Reader.nextOp?_eq_some_iff.mpr (Reader.isAt_iff.mp atMinus)) reads

def limitDigits : Token := ⟨.integer, "9223372036854775808", .initial⟩

def limitDifference : Reader :=
  ⟨[⟨.integer, "5", .initial⟩, ⟨.operator .sub, "-", .initial⟩, limitDigits],
    .finished .initial, .empty 0, true⟩

/-- The least integer is read from its digits after a minus and a comment, and the same digits
are refused where they stand alone or on the right of a difference. -/
theorem integers_are_read_exactly_at_limits :
    (Source.ofText "least" "-/*least*/ 9223372036854775808").ReadsTo
      (.ok (.literal (.integer Int64.minValue) ⟨0, 30⟩)) ∧
    (Source.ofText "alone" " 9223372036854775808").ReadsTo
      (.error ⟨.invalidLiteral .integer "9223372036854775808", ⟨1, 20⟩, 1, 2⟩) ∧
    (Source.ofText "greatest" "9223372036854775807").ReadsTo
      (.ok (.literal (.integer Int64.maxValue) ⟨0, 19⟩)) ∧
    ∃ after, limitDifference.readExpression = (.error limitDigits.invalid, after) := by
  have isNumeral : IsNumeral "9223372036854775808" := by decide
  have isValue : numeralValue "9223372036854775808" = 0x8000000000000000 := by decide +kernel
  have isGap : IsGap "9223372036854775808".toList ('/' :: '*' :: ("least*/".toList ++ [' '])) :=
    .blockComment (by decide) (.blank (by decide) .none)
  have isBlank : IsGap "9223372036854775808".toList [' '] := .blank (by decide) .none
  have negative := (integers_are_read_exactly.2.1
    (.ofText "least" "-/*least*/ 9223372036854775808") _ _ isNumeral isGap).2 (by decide)
  have positive := (integers_are_read_exactly.2.1
    (.ofText "alone" " 9223372036854775808") _ _ isNumeral isBlank).1 (by decide)
  have row : limitDifference.ReadsRow Reader.ReadsUnary (.literal (.integer 5) ⟨0, 1⟩) []
      { limitDifference with tokens := limitDifference.tokens.tail, previous := ⟨0, 1⟩ } :=
    ⟨_, rfl, .none⟩
  have subtracted := (integers_are_read_exactly.1 limitDigits rfl).subtracted limitDifference
    _ _ _ _ [] [] row rfl (List.forall_mem_nil _) rfl
  refine ⟨?_, positive.beyond (by rw [isValue]; decide),
    integers_are_read_exactly.2.2.2 Int64.maxValue _ (by decide +kernel),
    subtracted.beyond (by rw [limitDigits, isValue]; decide)⟩
  obtain ⟨value, isLeast, readsTo⟩ := negative.within isValue.le
  obtain rfl : value = Int64.minValue := Int64.toInt_inj.mp (by rw [isLeast, isValue]; decide)
  exact readsTo

end ScalarLang
