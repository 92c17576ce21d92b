import ScalarLang.Proofs.Reading.Soundness

/-!
# What is in the grammar is read

A reading function that stands before the tokens of a phrase passes them and gives
the tree of the phrase, if the token after them cannot belong to it.  Together with
soundness: a source is accepted exactly if its tokens are a program.
-/

set_option autoImplicit false

namespace ScalarLang

open Grammar

namespace Reader

variable {reader middle after : Reader} {token : Token} {kind : TokenKind} {tokens : List Token}

/-! ## What can follow a phrase -/

theorem Passes.isAt_eq {others : List Token} (passes : Passes reader (token :: others) after) :
    reader.isAt kind = (token.kind == kind) :=
  isAt_of_current passes.current?_eq

theorem Passes.isAt {others : List Token} (passes : Passes reader (token :: others) after)
    (isKind : token.kind = kind) : reader.isAt kind = true := by
  rw [passes.isAt_eq, isKind, beq_self_eq_true]

theorem isAt_eq_of_isAt {other : TokenKind} (isAt : reader.isAt kind = true) :
    reader.isAt other = (kind == other) := by
  obtain ⟨token, present, rfl⟩ := isAt_iff.mp isAt
  exact isAt_of_current present

structure EndsOperand (reader : Reader) : Prop where
  noCall : reader.isAt (.symbol .leftParen) = false
  noChildren : (reader.childrenAllowed && reader.isAt (.symbol .leftBrace)) = false
  noElse : reader.isAt (.keyword .kwElse) = false

structure EndsExpression (reader : Reader) : Prop where
  operand : reader.EndsOperand
  noOperator : reader.nextOp? = none

def endsExpression (children : Bool) : TokenKind → Bool
  | .newline => true
  | .symbol .rightParen => true
  | .symbol .rightBrace => true
  | .symbol .comma => true
  | .symbol .leftBrace => !children
  | .keyword .kwReturn => true
  | _ => false

theorem endsExpression_of_isAt (kind : TokenKind) (isAt : reader.isAt kind = true)
    (ends : endsExpression reader.childrenAllowed kind = true) : reader.EndsExpression := by
  refine ⟨⟨?_, ?_, ?_⟩, ?_⟩
  · rw [isAt_eq_of_isAt isAt, beq_eq_false_iff_ne]
    rintro rfl
    cases ends
  · rw [isAt_eq_of_isAt isAt, Bool.and_eq_false_iff, beq_eq_false_iff_ne]
    by_cases brace : kind = .symbol .leftBrace
    · left
      simpa [endsExpression, brace] using ends
    · exact .inr brace
  · rw [isAt_eq_of_isAt isAt, beq_eq_false_iff_ne]
    rintro rfl
    cases ends
  · cases isNext : reader.nextOp? with
    | none => rfl
    | some op =>
        obtain ⟨token, present, isSign⟩ := nextOp?_eq_some_iff.mp isNext
        rw [isAt_of_current present, beq_iff_eq] at isAt
        rw [← isAt, isSign] at ends
        cases ends

theorem endsOperand_of_operator {op : BinaryOp} (isOperator : PassesOperator reader op after) :
    reader.EndsOperand := by
  obtain ⟨sign, newlines, isSign, -, passes, -⟩ := passesOperator_iff.mp isOperator
  constructor <;> simp [passes.isAt_eq, isSign]

theorem endsOperand_of_operations {operand : Reader → Expr → Reader → Prop}
    {others : List (BinaryOp × Expr)} (reads : ReadsOperations operand reader others after)
    (ends : after.EndsOperand) : reader.EndsOperand := by
  cases reads with
  | none => exact ends
  | next isOperator _ _ => exact endsOperand_of_operator isOperator

theorem Passes.isAt_newline (passes : Passes reader tokens after) (areNewlines : Newlines tokens)
    (some : tokens ≠ []) : reader.isAt .newline = true := by
  obtain ⟨newline, rest, rfl⟩ := List.exists_cons_of_ne_nil some
  exact passes.isAt (areNewlines newline (.head rest))

/-- Newlines end an expression as what comes after them does. -/
theorem endsExpression_of_newlines (areNewlines : Newlines tokens)
    (passes : Passes reader tokens after) (ends : after.EndsExpression) :
    reader.EndsExpression := by
  by_cases none : tokens = []
  · subst none
    rw [passes_nil_iff.mp passes]
    exact ends
  · exact endsExpression_of_isAt .newline (passes.isAt_newline areNewlines none) rfl

/-- The first token of an expression is no newline. -/
theorem not_isAt_newline_of_starts (starts : Starts startsExpression tokens)
    (passes : Passes reader tokens after) : reader.isAt .newline = false := by
  obtain ⟨first, rest, rfl, starts⟩ := starts
  rw [passes.isAt_eq, beq_eq_false_iff_ne]
  intro isNewline
  rw [isNewline] at starts
  cases starts

/-- A minus could begin an operand too, but no token does that begins one without it. -/
theorem unaryOp?_of_starts {rest : List Token} (starts : Starts startsPrimary tokens)
    (areTokens : reader.tokens = tokens ++ rest) : reader.unaryOp? = none := by
  obtain ⟨first, others, rfl, starts⟩ := starts
  cases found : reader.unaryOp? with
  | none => rfl
  | some both =>
      obtain ⟨sign, present, isSign, -⟩ := unaryOp?_eq_some_iff.mp found
      rw [current?, areTokens] at present
      cases present
      rw [isSign] at starts
      cases starts

end Reader

namespace Read

open Reader

variable {α : Type} {reader middle after : Reader} {token : Token} {tokens : List Token}

/-! ## Steps -/

theorem skipNewlines_of_passes (areNewlines : Newlines tokens) (passes : Passes reader tokens after)
    (stopped : after.isAt .newline = false) : skipNewlines reader = .ok () after :=
  skipNewlines_eq_ok_iff.mpr ⟨tokens, areNewlines, passes, stopped⟩

theorem withChildren_of_passes {allowed : Bool} {action : Read α} {value : α}
    (passes : Passes reader tokens after)
    (succeeds : action (reader.allow allowed) = .ok value (after.allow allowed)) :
    withChildren allowed action reader = .ok value after := by
  refine withChildren_eq_ok_iff.mpr ⟨after.allow allowed, succeeds, ?_⟩
  rw [allow_allow, ← passes.childrenAllowed_eq, allow_self]

/-! ## Expressions and blocks -/

structure IsLineList (list : Nat → Read (List Expr)) (more : Reader → Bool) : Prop where
  succ : ∀ fuel reader, list (fuel + 1) reader =
    if more reader then line fuel (list fuel) reader else .ok [] reader
  starts : ∀ {reader token}, reader.current? = some token →
    startsExpression token.kind = true → more reader = true

theorem childList_isLineList : IsLineList childList hasChild := by
  refine ⟨childList_succ, ?_⟩
  intro reader token present starts
  have noEnd : reader.atEnd = false := by
    rw [Bool.eq_false_iff, Ne, atEnd_iff, present]
    simp
  have noBrace : token.kind ≠ .symbol .rightBrace := by
    intro isBrace
    rw [isBrace] at starts
    cases starts
  simp [hasChild, noEnd, isAt_of_current present, noBrace]

theorem statementList_isLineList : IsLineList statementList hasStatement := by
  refine ⟨statementList_succ, ?_⟩
  intro reader token present starts
  have isChild := childList_isLineList.starts present starts
  have noReturn : token.kind ≠ .keyword .kwReturn := by
    intro isReturn
    rw [isReturn] at starts
    cases starts
  simp_all [hasChild, hasStatement, isAt_of_current present]

/-- Every reader before the tokens of a phrase reads the phrase, if the token after
them cannot belong to it. -/
def Complete : Phrase → List Token → Prop
  | .expression children tree, tokens => ∀ reader after, reader.childrenAllowed = children →
      Passes reader tokens after → after.EndsExpression →
      Gives (expression · 0) reader tree after
  | .operations children others, tokens => ∀ reader after, reader.childrenAllowed = children →
      Passes reader tokens after → after.EndsOperand →
      ReadsOperations (Gives unary) reader others after
  | .unary children tree, tokens => ∀ reader after, reader.childrenAllowed = children →
      Passes reader tokens after → after.EndsOperand → Gives unary reader tree after
  | .primary children tree, tokens => ∀ reader after, reader.childrenAllowed = children →
      Passes reader tokens after → after.EndsOperand → Gives primary reader tree after
  | .arguments arguments, tokens => ∀ reader after, Passes reader tokens after →
      after.isAt (.symbol .rightParen) = true → Gives callArguments reader arguments after
  | .lines trees, tokens => ∀ list more reader after, IsLineList list more →
      reader.childrenAllowed = true → Passes reader tokens after → after.EndsExpression →
      after.isAt .newline = false → more after = false → Gives list reader trees after
  | .block block, tokens => ∀ reader after, Passes reader tokens after →
      Gives Read.block reader block after

/-! ### Operations -/

theorem complete_expression {children : Bool} {grouping : Grouping} {operand others : List Token}
    (first : Complete (.unary children grouping.first) operand)
    (rest : Complete (.operations children grouping.others) others)
    (grouped : grouping.WellGrouped) :
    Complete (.expression children grouping.tree) (operand ++ others) := by
  intro reader after allowed passes ends
  obtain ⟨middle, passesFirst, passesRest⟩ := passes_append_iff.mp passes
  have readsRest := rest middle after (passesFirst.childrenAllowed_eq.trans allowed) passesRest
    ends.operand
  have givesFirst := first reader middle allowed passesFirst
    (endsOperand_of_operations readsRest ends.operand)
  have tight : ∀ root ∈ grouping.root?, 0 < root.precedence := fun root _ => root.precedence_pos
  exact gives_expression_of_readsGrouped
    ⟨grouping, ⟨middle, givesFirst, readsRest⟩, stops_zero_iff.mpr ends.noOperator, grouped, tight,
      rfl⟩

theorem complete_operation {children : Bool} {op : BinaryOp} {next : Expr}
    {others : List (BinaryOp × Expr)} {sign : Token} {newlines operand more : List Token}
    (isSign : sign.kind = .operator op.sign) (skipped : Newlines newlines)
    (starts : Starts startsExpression operand) (right : Complete (.unary children next) operand)
    (rest : Complete (.operations children others) more) :
    Complete (.operations children ((op, next) :: others))
      (sign :: newlines ++ operand ++ more) := by
  intro reader after allowed passes ends
  obtain ⟨later, passesBoth, passesRest⟩ := passes_append_iff.mp passes
  obtain ⟨middle, passesSign, passesRight⟩ := passes_append_iff.mp passesBoth
  have readsRest := rest later after (passesBoth.childrenAllowed_eq.trans allowed) passesRest ends
  have givesRight := right middle later (passesSign.childrenAllowed_eq.trans allowed) passesRight
    (endsOperand_of_operations readsRest ends)
  have stopped := not_isAt_newline_of_starts starts passesRight
  have isOperator := passesOperator_iff.mpr ⟨sign, newlines, isSign, skipped, passesSign, stopped⟩
  exact .next isOperator givesRight readsRest

/-! ### Operands -/

section Branches

variable {op : UnaryOp} {sign digits : Token}

theorem unary_of_plain (noSign : reader.unaryOp? = none) (fuel : Nat) :
    unary (fuel + 1) reader = primary fuel reader := by
  rw [unary, get_bind, noSign]

theorem unary_of_sign (isSign : sign.kind = .operator op.sign)
    (passesSign : Passes reader [sign] middle) (notNegated : middle.negated? op = none)
    (fuel : Nat) : unary (fuel + 1) reader = (primary fuel >>= fun operand =>
      pure (.unary op operand (sign.span.union operand.span))) middle := by
  obtain ⟨present, passed⟩ := passes_singleton_iff.mp passesSign
  have found := unaryOp?_eq_some_iff.mpr ⟨sign, present, isSign, rfl⟩
  rw [unary, get_bind, found]
  dsimp only
  rw [bind_of_ok passed, get_bind, notNegated]

theorem unary_of_negative (isSign : sign.kind = .operator .sub)
    (isInteger : digits.kind = .integer) (passesSign : Passes reader [sign] middle)
    (present : middle.current? = some digits) (fuel : Nat) : unary (fuel + 1) reader =
      (integerValue (Literal.negativeInteger? digits.text) digits >>= fun value =>
        advance >>= fun _ =>
          pure (.literal (.integer value) (sign.span.union digits.span))) middle := by
  obtain ⟨presentSign, passed⟩ := passes_singleton_iff.mp passesSign
  have found : reader.unaryOp? = some (.negate, sign.span) :=
    unaryOp?_eq_some_iff.mpr ⟨sign, presentSign, isSign, rfl⟩
  have negated := negated?_eq_some_iff.mpr ⟨rfl, present, isInteger⟩
  rw [unary, get_bind, found]
  dsimp only
  rw [bind_of_ok passed, get_bind, negated]

theorem primary_of_integer (isInteger : digits.kind = .integer)
    (present : reader.current? = some digits) (fuel : Nat) : primary (fuel + 1) reader =
      (integerValue (Literal.positiveInteger? digits.text) digits >>= fun value =>
        advance >>= fun _ => pure (.literal (.integer value) digits.span)) reader := by
  rw [primary, get_bind, present]
  simp only [isInteger]

theorem primary_of_parentheses {opening : Token} {leading : List Token}
    (opens : opening.kind = .symbol .leftParen) (skipped : Newlines leading)
    (passes : Passes reader (opening :: leading) middle) (stopped : middle.isAt .newline = false)
    (fuel : Nat) : primary (fuel + 1) reader = (do
      let inner ← withChildren true (expression fuel 0)
      skipNewlines
      let close ← expect (.symbol .rightParen)
      return inner.withSpan (opening.span.union close.span)) middle := by
  obtain ⟨second, passesOpening, passesLeading⟩ := passes_cons_iff.mp passes
  obtain ⟨present, passed⟩ := passes_singleton_iff.mp passesOpening
  rw [primary, get_bind, present]
  simp only [opens]
  rw [bind_of_ok passed, bind_of_ok (skipNewlines_of_passes skipped passesLeading stopped)]

end Branches

theorem complete_plain {children : Bool} {tree : Expr} (starts : Starts startsPrimary tokens)
    (operand : Complete (.primary children tree) tokens) :
    Complete (.unary children tree) tokens := by
  intro reader after allowed passes ends
  apply gives_of_succ
  filter_upwards [operand reader after allowed passes ends] with fuel readsOperand
  rw [unary_of_plain (unaryOp?_of_starts starts passes.tokens_eq)]
  exact readsOperand

theorem complete_signed {children : Bool} {op : UnaryOp} {tree : Expr} {sign first : Token}
    (isSign : sign.kind = .operator op.sign)
    (noInteger : op = .negate → first.kind ≠ .integer)
    (operand : Complete (.primary children tree) (first :: tokens)) :
    Complete (.unary children (.unary op tree (sign.span.union tree.span)))
      (sign :: first :: tokens) := by
  intro reader after allowed passes ends
  obtain ⟨middle, passesSign, passesOperand⟩ := passes_cons_iff.mp passes
  have notNegated : middle.negated? op = none := by
    cases negated : middle.negated? op with
    | none => rfl
    | some digits =>
        obtain ⟨isMinus, isFirst, isInteger⟩ := negated?_eq_some_iff.mp negated
        rw [passesOperand.current?_eq] at isFirst
        cases isFirst
        exact absurd isInteger (noInteger isMinus)
  have allowedHere := passesSign.childrenAllowed_eq.trans allowed
  apply gives_of_succ
  filter_upwards [operand middle after allowedHere passesOperand ends] with fuel readsOperand
  rw [unary_of_sign isSign passesSign notNegated, bind_of_ok readsOperand]
  rfl

theorem complete_negative {children : Bool} {value : Int64} {sign digits : Token}
    (isSign : sign.kind = .operator .sub) (isInteger : digits.kind = .integer)
    (denotes : Literal.negativeInteger? digits.text = some value) :
    Complete (.unary children (.literal (.integer value) (sign.span.union digits.span)))
      [sign, digits] := by
  intro reader after allowed passes ends
  obtain ⟨middle, passesSign, passesDigits⟩ := passes_cons_iff.mp passes
  obtain ⟨present, passed⟩ := passes_singleton_iff.mp passesDigits
  refine gives_of_succ (.of_forall fun fuel => ?_)
  rw [unary_of_negative isSign isInteger passesSign present,
    bind_of_ok (integerValue_eq_ok_iff.mpr ⟨denotes, rfl⟩), bind_of_ok passed]
  rfl

theorem complete_single {children : Bool} {tree : Expr} {token : Token}
    (reads : ∀ fuel reader after, reader.current? = some token → advance reader = .ok () after →
      after.EndsOperand → primary (fuel + 1) reader = .ok tree after) :
    Complete (.primary children tree) [token] := by
  intro reader after _ passes ends
  obtain ⟨present, passed⟩ := passes_singleton_iff.mp passes
  exact gives_of_succ (.of_forall fun fuel => reads fuel reader after present passed ends)

theorem complete_identifier {children : Bool} {name : Token} (isName : name.kind = .identifier) :
    Complete (.primary children (.identifier name.text name.span)) [name] := by
  apply complete_single
  intro fuel reader after present passed ends
  rw [primary, get_bind, present]
  simp only [isName]
  rw [bind_of_ok passed, get_bind, ends.noCall]
  rfl

theorem complete_integer {children : Bool} {value : Int64} {digits : Token}
    (isInteger : digits.kind = .integer)
    (denotes : Literal.positiveInteger? digits.text = some value) :
    Complete (.primary children (.literal (.integer value) digits.span)) [digits] := by
  apply complete_single
  intro fuel reader after present passed _
  rw [primary_of_integer isInteger present,
    bind_of_ok (integerValue_eq_ok_iff.mpr ⟨denotes, rfl⟩), bind_of_ok passed]
  rfl

theorem complete_float {children : Bool} {digits : Token} (isFloat : digits.kind = .float) :
    Complete (.primary children (.literal (.float (Literal.floatOfText digits.text)) digits.span))
      [digits] := by
  apply complete_single
  intro fuel reader after present passed _
  rw [primary, get_bind, present]
  simp only [isFloat]
  rw [bind_of_ok passed]
  rfl

theorem complete_boolean {children : Bool} {word : Token} (isBoolean : word.kind = .boolean) :
    Complete (.primary children (.literal (.boolean (word.text == "true")) word.span)) [word] := by
  apply complete_single
  intro fuel reader after present passed _
  rw [primary, get_bind, present]
  simp only [isBoolean]
  rw [bind_of_ok passed]
  rfl

theorem complete_parentheses {children : Bool} {tree : Expr} {opening closing : Token}
    {leading trailing : List Token} (opens : opening.kind = .symbol .leftParen)
    (skipped : Newlines leading) (starts : Starts startsExpression tokens)
    (inner : Complete (.expression true tree) tokens) (skippedAfter : Newlines trailing)
    (closes : closing.kind = .symbol .rightParen) :
    Complete (.primary children (tree.withSpan (opening.span.union closing.span)))
      (opening :: leading ++ tokens ++ trailing ++ [closing]) := by
  intro reader after allowed passes ends
  obtain ⟨fifth, passes, passesClosing⟩ := passes_append_iff.mp passes
  obtain ⟨fourth, passes, passesTrailing⟩ := passes_append_iff.mp passes
  obtain ⟨third, passesOpening, passesTokens⟩ := passes_append_iff.mp passes
  have stopped := not_isAt_newline_of_starts starts passesTokens
  have atClosing : fifth.isAt (.symbol .rightParen) = true := passesClosing.isAt closes
  have skipsAfter := skipNewlines_of_passes skippedAfter passesTrailing
    (by simp [isAt_eq_of_isAt atClosing])
  have endsInner : (fourth.allow true).EndsExpression :=
    endsExpression_of_newlines skippedAfter (passesTrailing.allow true)
      (endsExpression_of_isAt (.symbol .rightParen) atClosing rfl)
  have expects := expect_eq_ok_iff.mpr ⟨closes, passesClosing⟩
  apply gives_of_succ
  filter_upwards [inner _ _ rfl (passesTokens.allow true) endsInner] with fuel readsInner
  rw [primary_of_parentheses opens skipped passesOpening stopped,
    bind_of_ok (withChildren_of_passes passesTokens readsInner), bind_of_ok skipsAfter,
    bind_of_ok expects]
  rfl

/-! ### Calls -/

theorem gives_primary_call {name opening : Token} {others : List Token} {tree : Expr}
    (isName : name.kind = .identifier) (opens : opening.kind = .symbol .leftParen)
    (passesName : Passes reader [name] middle)
    (passesRest : Passes middle (opening :: others) after)
    (givesCall : Gives (call · name.ident) middle tree after) :
    Gives primary reader tree after := by
  obtain ⟨present, passed⟩ := passes_singleton_iff.mp passesName
  have atOpening : middle.isAt (.symbol .leftParen) = true := passesRest.isAt opens
  apply gives_of_succ
  filter_upwards [givesCall] with fuel readsCall
  rw [primary, get_bind, present]
  simp only [isName]
  rw [bind_of_ok passed, get_bind, atOpening]
  exact readsCall

/-- Arguments are read up to the closing parenthesis. -/
theorem gives_arguments {arguments : List CallArgument} {leading : List Token}
    (skipped : Newlines leading) (derives : Derives (.arguments arguments) tokens)
    (inner : Complete (.arguments arguments) tokens) (passesLeading : Passes reader leading middle)
    (passesTokens : Passes middle tokens after)
    (atClosing : after.isAt (.symbol .rightParen) = true) :
    skipNewlines reader = .ok () middle ∧ Gives callArguments middle arguments after := by
  refine ⟨skipNewlines_of_passes skipped passesLeading ?_, inner _ _ passesTokens atClosing⟩
  rcases derives.arguments_start with rfl | ⟨first, rest, rfl, isName⟩
  · rw [passes_nil_iff.mp passesTokens]
    simp [isAt_eq_of_isAt atClosing]
  · simp [passesTokens.isAt_eq, isName]

theorem complete_call {children : Bool} {arguments : List CallArgument}
    {name opening closing : Token} {leading : List Token} (isName : name.kind = .identifier)
    (opens : opening.kind = .symbol .leftParen) (skipped : Newlines leading)
    (derives : Derives (.arguments arguments) tokens)
    (inner : Complete (.arguments arguments) tokens)
    (closes : closing.kind = .symbol .rightParen) :
    Complete (.primary children (.call name.ident arguments none (name.span.union closing.span)))
      (name :: opening :: leading ++ tokens ++ [closing]) := by
  intro reader after allowed passes ends
  simp only [List.cons_append, List.append_assoc] at passes
  obtain ⟨second, passesName, passes⟩ := passes_cons_iff.mp passes
  refine gives_primary_call isName opens passesName passes ?_
  obtain ⟨third, passesOpening, passes⟩ := passes_cons_iff.mp passes
  obtain ⟨fourth, passesLeading, passes⟩ := passes_append_iff.mp passes
  obtain ⟨fifth, passesTokens, passesClosing⟩ := passes_append_iff.mp passes
  have atClosing : fifth.isAt (.symbol .rightParen) = true := passesClosing.isAt closes
  obtain ⟨skips, givesArguments⟩ :=
    gives_arguments skipped derives inner passesLeading passesTokens atClosing
  apply gives_of_succ
  filter_upwards [givesArguments] with fuel readsArguments
  rw [call, bind_of_ok (expect_eq_ok_iff.mpr ⟨opens, passesOpening⟩), bind_of_ok skips,
    bind_of_ok readsArguments, bind_of_ok (expect_eq_ok_iff.mpr ⟨closes, passesClosing⟩), get_bind,
    ends.noChildren]
  rfl

/-- Lines are read up to a token that is no part of them. -/
theorem gives_lines {list : Nat → Read (List Expr)} {more : Reader → Bool} {trees : List Expr}
    {leading : List Token} {later : Reader} (isList : IsLineList list more)
    (skipped : Newlines leading) (derives : Derives (.lines trees) tokens)
    (inner : Complete (.lines trees) tokens) (allowed : reader.childrenAllowed = true)
    (passesLeading : Passes reader leading middle) (passesLines : Passes middle tokens later)
    (ends : later.EndsExpression) (stopped : later.isAt .newline = false)
    (noMore : more later = false) :
    skipNewlines reader = .ok () middle ∧ Gives list middle trees later := by
  have allowedHere := passesLeading.childrenAllowed_eq.trans allowed
  refine ⟨skipNewlines_of_passes skipped passesLeading ?_,
    inner list more _ _ isList allowedHere passesLines ends stopped noMore⟩
  rcases derives.lines_start with rfl | starts
  · rw [passes_nil_iff.mp passesLines]
    exact stopped
  · exact not_isAt_newline_of_starts starts passesLines

theorem complete_callWithChildren {arguments : List CallArgument} {trees : List Expr}
    {name opening closing openingBrace closingBrace : Token}
    {leading leadingLines lines : List Token} (isName : name.kind = .identifier)
    (opens : opening.kind = .symbol .leftParen) (skipped : Newlines leading)
    (derives : Derives (.arguments arguments) tokens)
    (inner : Complete (.arguments arguments) tokens) (closes : closing.kind = .symbol .rightParen)
    (opensBrace : openingBrace.kind = .symbol .leftBrace) (skippedLines : Newlines leadingLines)
    (derivesLines : Derives (.lines trees) lines) (innerLines : Complete (.lines trees) lines)
    (closesBrace : closingBrace.kind = .symbol .rightBrace) :
    Complete
      (.primary true (.call name.ident arguments (some trees)
        ((name.span.union closing.span).union closingBrace.span)))
      ((name :: opening :: leading ++ tokens ++ [closing]) ++
        (openingBrace :: leadingLines ++ lines ++ [closingBrace])) := by
  intro reader after allowed passes ends
  simp only [List.cons_append, List.append_assoc, List.nil_append] at passes
  obtain ⟨second, passesName, passes⟩ := passes_cons_iff.mp passes
  refine gives_primary_call isName opens passesName passes ?_
  obtain ⟨third, passesOpening, passes⟩ := passes_cons_iff.mp passes
  obtain ⟨fourth, passesLeading, passes⟩ := passes_append_iff.mp passes
  obtain ⟨fifth, passesTokens, passes⟩ := passes_append_iff.mp passes
  obtain ⟨sixth, passesClosing, passes⟩ := passes_cons_iff.mp passes
  obtain ⟨seventh, passesBrace, passes⟩ := passes_cons_iff.mp passes
  obtain ⟨eighth, passesLeadingLines, passes⟩ := passes_append_iff.mp passes
  obtain ⟨ninth, passesLines, passesClosingBrace⟩ := passes_append_iff.mp passes
  have atClosing : fifth.isAt (.symbol .rightParen) = true := passesClosing.isAt closes
  obtain ⟨skips, givesArguments⟩ :=
    gives_arguments skipped derives inner passesLeading passesTokens atClosing
  have allowedSixth : sixth.childrenAllowed = true := by
    rw [passesClosing.childrenAllowed_eq, passesTokens.childrenAllowed_eq,
      passesLeading.childrenAllowed_eq, passesOpening.childrenAllowed_eq,
      passesName.childrenAllowed_eq, allowed]
  have allowedSeventh := passesBrace.childrenAllowed_eq.trans allowedSixth
  have hasChildren : (sixth.childrenAllowed && sixth.isAt (.symbol .leftBrace)) = true := by
    simp [allowedSixth, passesBrace.isAt_eq, opensBrace]
  have atClosingBrace : ninth.isAt (.symbol .rightBrace) = true :=
    passesClosingBrace.isAt closesBrace
  obtain ⟨skipsLines, givesLines⟩ := gives_lines childList_isLineList skippedLines derivesLines
    innerLines allowedSeventh passesLeadingLines passesLines
    (endsExpression_of_isAt (.symbol .rightBrace) atClosingBrace rfl)
    (by simp [isAt_eq_of_isAt atClosingBrace]) (by simp [hasChild, atClosingBrace])
  apply gives_of_succ
  filter_upwards [givesArguments, givesLines] with fuel readsArguments readsLines
  rw [call, bind_of_ok (expect_eq_ok_iff.mpr ⟨opens, passesOpening⟩), bind_of_ok skips,
    bind_of_ok readsArguments, bind_of_ok (expect_eq_ok_iff.mpr ⟨closes, passesClosing⟩), get_bind,
    if_pos hasChildren, bind_of_ok (expect_eq_ok_iff.mpr ⟨opensBrace, passesBrace⟩),
    bind_of_ok skipsLines, bind_of_ok readsLines,
    bind_of_ok (expect_eq_ok_iff.mpr ⟨closesBrace, passesClosingBrace⟩), get_bind,
    passesClosingBrace.previous_eq_single]
  rfl

theorem complete_lastArgument {value : Expr} {label colon : Token} {trailing : List Token}
    (isLabel : label.kind = .identifier) (isColon : colon.kind = .symbol .colon)
    (inner : Complete (.expression true value) tokens) (skipped : Newlines trailing) :
    Complete (.arguments [⟨label.ident, value⟩]) (label :: colon :: tokens ++ trailing) := by
  intro reader after passes atClosing
  obtain ⟨fourth, passes, passesTrailing⟩ := passes_append_iff.mp passes
  have atLabel : reader.isAt .identifier = true := passes.isAt isLabel
  obtain ⟨second, passesLabel, passes⟩ := passes_cons_iff.mp passes
  obtain ⟨third, passesColon, passesTokens⟩ := passes_cons_iff.mp passes
  have endsInner : (fourth.allow true).EndsExpression :=
    endsExpression_of_newlines skipped (passesTrailing.allow true)
      (endsExpression_of_isAt (.symbol .rightParen) atClosing rfl)
  have skips := skipNewlines_of_passes skipped passesTrailing (by simp [isAt_eq_of_isAt atClosing])
  have noComma : eat (.symbol .comma) after = .ok false after :=
    eat_eq_false_iff.mpr ⟨by simp [isAt_eq_of_isAt atClosing], rfl⟩
  apply gives_of_succ
  filter_upwards [inner _ _ rfl (passesTokens.allow true) endsInner] with fuel readsInner
  rw [callArguments, get_bind, atLabel, if_pos rfl,
    bind_of_ok (identifier_eq_ok_iff.mpr ⟨label, isLabel, rfl, passesLabel⟩),
    bind_of_ok (expect_eq_ok_iff.mpr ⟨isColon, passesColon⟩),
    bind_of_ok (withChildren_of_passes passesTokens readsInner), bind_of_ok skips,
    bind_of_ok noComma]
  rfl

theorem complete_nextArgument {value : Expr} {others : List CallArgument}
    {label colon comma : Token} {trailing leading more : List Token}
    (isLabel : label.kind = .identifier) (isColon : colon.kind = .symbol .colon)
    (inner : Complete (.expression true value) tokens) (skipped : Newlines trailing)
    (isComma : comma.kind = .symbol .comma) (skippedAfter : Newlines leading)
    (derivesRest : Derives (.arguments others) more) (rest : Complete (.arguments others) more) :
    Complete (.arguments (⟨label.ident, value⟩ :: others))
      (label :: colon :: tokens ++ trailing ++ comma :: leading ++ more) := by
  intro reader after passes atClosing
  simp only [List.cons_append, List.append_assoc] at passes
  have atLabel : reader.isAt .identifier = true := passes.isAt isLabel
  obtain ⟨second, passesLabel, passes⟩ := passes_cons_iff.mp passes
  obtain ⟨third, passesColon, passes⟩ := passes_cons_iff.mp passes
  obtain ⟨fourth, passesTokens, passes⟩ := passes_append_iff.mp passes
  obtain ⟨fifth, passesTrailing, passes⟩ := passes_append_iff.mp passes
  have atComma : fifth.isAt (.symbol .comma) = true := passes.isAt isComma
  obtain ⟨sixth, passesComma, passes⟩ := passes_cons_iff.mp passes
  obtain ⟨seventh, passesLeading, passesRest⟩ := passes_append_iff.mp passes
  have endsInner : (fourth.allow true).EndsExpression :=
    endsExpression_of_newlines skipped (passesTrailing.allow true)
      (endsExpression_of_isAt (.symbol .comma) atComma rfl)
  have skips := skipNewlines_of_passes skipped passesTrailing (by simp [isAt_eq_of_isAt atComma])
  obtain ⟨skipsAfter, givesRest⟩ :=
    gives_arguments skippedAfter derivesRest rest passesLeading passesRest atClosing
  apply gives_of_succ
  filter_upwards [inner _ _ rfl (passesTokens.allow true) endsInner, givesRest]
    with fuel readsInner readsRest
  rw [callArguments, get_bind, atLabel, if_pos rfl,
    bind_of_ok (identifier_eq_ok_iff.mpr ⟨label, isLabel, rfl, passesLabel⟩),
    bind_of_ok (expect_eq_ok_iff.mpr ⟨isColon, passesColon⟩),
    bind_of_ok (withChildren_of_passes passesTokens readsInner), bind_of_ok skips,
    bind_of_ok (eat_eq_true_iff.mpr ⟨comma, isComma, passesComma⟩), if_pos rfl,
    bind_of_ok skipsAfter, bind_of_ok readsRest]
  rfl

/-! ### Lines, blocks and choices -/

theorem complete_noLine : Complete (.lines []) [] := by
  intro list more reader after isList _ passes _ _ noMore
  rw [passes_nil_iff.mp passes]
  refine gives_of_succ (.of_forall fun fuel => ?_)
  rw [isList.succ, noMore]
  rfl

/-- A list of lines that begins here reads its first line and then the rest. -/
theorem gives_list {list : Nat → Read (List Expr)} {more : Reader → Bool} {trees : List Expr}
    (isList : IsLineList list more) (starts : Starts startsExpression tokens)
    (passes : Passes reader tokens middle)
    (eventually : ∀ᶠ fuel in Filter.atTop, line fuel (list fuel) reader = .ok trees after) :
    Gives list reader trees after := by
  obtain ⟨first, rest, rfl, starts⟩ := starts
  apply gives_of_succ
  filter_upwards [eventually] with fuel readsLine
  rw [isList.succ, isList.starts passes.current?_eq starts, if_pos rfl]
  exact readsLine

theorem complete_lastLine {tree : Expr} (starts : Starts startsExpression tokens)
    (inner : Complete (.expression true tree) tokens) : Complete (.lines [tree]) tokens := by
  intro list more reader after isList allowed passes ends stopped _
  refine gives_list isList starts passes ?_
  filter_upwards [inner _ _ allowed passes ends] with fuel readsInner
  rw [line, bind_of_ok readsInner, get_bind, stopped]
  rfl

theorem complete_nextLine {tree : Expr} {others : List Expr} {newlines more : List Token}
    (starts : Starts startsExpression tokens) (inner : Complete (.expression true tree) tokens)
    (skipped : Newlines newlines) (ended : newlines ≠ [])
    (derivesRest : Derives (.lines others) more) (rest : Complete (.lines others) more) :
    Complete (.lines (tree :: others)) (tokens ++ newlines ++ more) := by
  intro list hasMore reader after isList allowed passes ends stopped noMore
  obtain ⟨third, passes, passesRest⟩ := passes_append_iff.mp passes
  obtain ⟨second, passesTokens, passesNewlines⟩ := passes_append_iff.mp passes
  have allowedSecond := passesTokens.childrenAllowed_eq.trans allowed
  obtain ⟨skips, givesRest⟩ := gives_lines isList skipped derivesRest rest allowedSecond
    passesNewlines passesRest ends stopped noMore
  have atNewline := passesNewlines.isAt_newline skipped ended
  refine gives_list isList starts passesTokens ?_
  filter_upwards [inner _ _ allowed passesTokens (endsExpression_of_isAt .newline atNewline rfl),
    givesRest] with fuel readsInner readsRest
  rw [line, bind_of_ok readsInner, get_bind, atNewline, if_pos rfl, bind_of_ok skips,
    bind_of_ok readsRest]
  rfl

theorem complete_block {statements : List Expr} {opening closing : Token}
    {leading lines : List Token} (opens : opening.kind = .symbol .leftBrace)
    (skipped : Newlines leading) (derives : Derives (.lines statements) lines)
    (inner : Complete (.lines statements) lines) (closes : closing.kind = .symbol .rightBrace) :
    Complete (.block ⟨statements, none⟩) (opening :: leading ++ lines ++ [closing]) := by
  intro reader after passesAll
  have passes := passesAll.allow true
  simp only [List.cons_append, List.append_assoc] at passes
  obtain ⟨second, passesOpening, passes⟩ := passes_cons_iff.mp passes
  obtain ⟨third, passesLeading, passes⟩ := passes_append_iff.mp passes
  obtain ⟨fourth, passesLines, passesClosing⟩ := passes_append_iff.mp passes
  have atClosing : fourth.isAt (.symbol .rightBrace) = true := passesClosing.isAt closes
  obtain ⟨skips, givesLines⟩ := gives_lines statementList_isLineList skipped derives inner
    passesOpening.childrenAllowed_eq passesLeading passesLines
    (endsExpression_of_isAt (.symbol .rightBrace) atClosing rfl)
    (by simp [isAt_eq_of_isAt atClosing]) (by simp [hasStatement, atClosing])
  have noReturn : eat (.keyword .kwReturn) fourth = .ok false fourth :=
    eat_eq_false_iff.mpr ⟨by simp [isAt_eq_of_isAt atClosing], rfl⟩
  apply gives_of_succ
  filter_upwards [givesLines] with fuel readsLines
  rw [Read.block]
  refine withChildren_of_passes passesAll ?_
  rw [bind_of_ok (expect_eq_ok_iff.mpr ⟨opens, passesOpening⟩), bind_of_ok skips,
    bind_of_ok readsLines, bind_of_ok noReturn]
  exact bind_of_ok (expect_eq_ok_iff.mpr ⟨closes, passesClosing⟩)

theorem complete_blockWithResult {statements : List Expr} {result : Expr}
    {opening word closing : Token} {leading lines trailing : List Token}
    (opens : opening.kind = .symbol .leftBrace) (skipped : Newlines leading)
    (derives : Derives (.lines statements) lines) (inner : Complete (.lines statements) lines)
    (isReturn : word.kind = .keyword .kwReturn)
    (returned : Complete (.expression true result) tokens) (skippedAfter : Newlines trailing)
    (closes : closing.kind = .symbol .rightBrace) :
    Complete (.block ⟨statements, some result⟩)
      (opening :: leading ++ lines ++ word :: tokens ++ trailing ++ [closing]) := by
  intro reader after passesAll
  have passes := passesAll.allow true
  simp only [List.cons_append, List.append_assoc] at passes
  obtain ⟨second, passesOpening, passes⟩ := passes_cons_iff.mp passes
  obtain ⟨third, passesLeading, passes⟩ := passes_append_iff.mp passes
  obtain ⟨fourth, passesLines, passes⟩ := passes_append_iff.mp passes
  have atReturn : fourth.isAt (.keyword .kwReturn) = true := passes.isAt isReturn
  obtain ⟨fifth, passesReturn, passes⟩ := passes_cons_iff.mp passes
  obtain ⟨sixth, passesTokens, passes⟩ := passes_append_iff.mp passes
  obtain ⟨seventh, passesTrailing, passesClosing⟩ := passes_append_iff.mp passes
  have atClosing : seventh.isAt (.symbol .rightBrace) = true := passesClosing.isAt closes
  obtain ⟨skips, givesLines⟩ := gives_lines statementList_isLineList skipped derives inner
    passesOpening.childrenAllowed_eq passesLeading passesLines
    (endsExpression_of_isAt (.keyword .kwReturn) atReturn rfl)
    (by simp [isAt_eq_of_isAt atReturn]) (by simp [hasStatement, atReturn])
  have allowed : fifth.childrenAllowed = true := by
    rw [passesReturn.childrenAllowed_eq, passesLines.childrenAllowed_eq,
      passesLeading.childrenAllowed_eq, passesOpening.childrenAllowed_eq]
    rfl
  have ends := endsExpression_of_newlines skippedAfter passesTrailing
    (endsExpression_of_isAt (.symbol .rightBrace) atClosing rfl)
  have skipsAfter := skipNewlines_of_passes skippedAfter passesTrailing
    (by simp [isAt_eq_of_isAt atClosing])
  apply gives_of_succ
  filter_upwards [givesLines, returned _ _ allowed passesTokens ends]
    with fuel readsLines readsResult
  rw [Read.block]
  refine withChildren_of_passes passesAll ?_
  rw [bind_of_ok (expect_eq_ok_iff.mpr ⟨opens, passesOpening⟩), bind_of_ok skips,
    bind_of_ok readsLines, bind_of_ok (eat_eq_true_iff.mpr ⟨word, isReturn, passesReturn⟩),
    if_pos rfl, bind_of_ok readsResult, bind_of_ok skipsAfter]
  exact bind_of_ok (expect_eq_ok_iff.mpr ⟨closes, passesClosing⟩)

theorem gives_primary_conditional {start : Token} {others : List Token} {tree : Expr}
    (isIf : start.kind = .keyword .kwIf) (passes : Passes reader (start :: others) after)
    (givesTree : Gives conditional reader tree after) : Gives primary reader tree after := by
  apply gives_of_succ
  filter_upwards [givesTree] with fuel readsTree
  rw [primary, get_bind, passes.current?_eq]
  simp only [isIf]
  exact readsTree

/-- A condition is read up to the brace of the first block. -/
theorem gives_condition {condition : Expr} {block : Block} {body : List Token}
    (test : Complete (.expression false condition) tokens)
    (derives : Derives (.block block) body) (passesTokens : Passes reader tokens middle)
    (passesBody : Passes middle body after) :
    Gives (fun fuel => withChildren false (expression fuel 0)) reader condition middle := by
  obtain ⟨opening, rest, rfl, opens⟩ := derives.block_opens
  have atOpening : (middle.allow false).isAt (.symbol .leftBrace) = true := by
    simp [(passesBody.allow false).isAt_eq, opens]
  have ends := endsExpression_of_isAt (.symbol .leftBrace) atOpening rfl
  filter_upwards [test _ _ rfl (passesTokens.allow false) ends] with fuel readsTest
  exact withChildren_of_passes passesTokens readsTest

theorem complete_conditional {children : Bool} {condition : Expr} {thenBlock : Block}
    {start closing : Token} {body : List Token} (isIf : start.kind = .keyword .kwIf)
    (test : Complete (.expression false condition) tokens)
    (derives : Derives (.block thenBlock) (body ++ [closing]))
    (yes : Complete (.block thenBlock) (body ++ [closing])) :
    Complete
      (.primary children (.conditional condition thenBlock none (start.span.union closing.span)))
      (start :: tokens ++ (body ++ [closing])) := by
  intro reader after allowed passes ends
  refine gives_primary_conditional isIf passes ?_
  obtain ⟨second, passesStart, passes⟩ := passes_cons_iff.mp passes
  obtain ⟨third, passesTokens, passesBody⟩ := passes_append_iff.mp passes
  have noElse : eat (.keyword .kwElse) after = .ok false after :=
    eat_eq_false_iff.mpr ⟨ends.noElse, rfl⟩
  apply gives_of_succ
  filter_upwards [gives_condition test derives passesTokens passesBody, yes _ _ passesBody]
    with fuel readsCondition readsThen
  rw [conditional, bind_of_ok (expect_eq_ok_iff.mpr ⟨isIf, passesStart⟩), bind_of_ok readsCondition,
    bind_of_ok readsThen, bind_of_ok noElse, ← passesBody.previous_eq]
  rfl

theorem complete_conditionalElse {children : Bool} {condition : Expr} {thenBlock elseBlock : Block}
    {start middle closing : Token} {first second : List Token}
    (isIf : start.kind = .keyword .kwIf) (test : Complete (.expression false condition) tokens)
    (derives : Derives (.block thenBlock) first) (yes : Complete (.block thenBlock) first)
    (isElse : middle.kind = .keyword .kwElse)
    (no : Complete (.block elseBlock) (second ++ [closing])) :
    Complete
      (.primary children
        (.conditional condition thenBlock (some elseBlock) (start.span.union closing.span)))
      (start :: tokens ++ first ++ middle :: (second ++ [closing])) := by
  intro reader after allowed passes ends
  simp only [List.cons_append, List.append_assoc] at passes
  refine gives_primary_conditional isIf passes ?_
  obtain ⟨second, passesStart, passes⟩ := passes_cons_iff.mp passes
  obtain ⟨third, passesTokens, passes⟩ := passes_append_iff.mp passes
  obtain ⟨fourth, passesThen, passes⟩ := passes_append_iff.mp passes
  obtain ⟨fifth, passesElse, passesSecond⟩ := passes_cons_iff.mp passes
  apply gives_of_succ
  filter_upwards [gives_condition test derives passesTokens passesThen, yes _ _ passesThen,
    no _ _ passesSecond] with fuel readsCondition readsThen readsElse
  rw [conditional, bind_of_ok (expect_eq_ok_iff.mpr ⟨isIf, passesStart⟩), bind_of_ok readsCondition,
    bind_of_ok readsThen, bind_of_ok (eat_eq_true_iff.mpr ⟨middle, isElse, passesElse⟩), if_pos rfl,
    bind_of_ok readsElse, ← passesSecond.previous_eq]
  rfl

theorem complete {phrase : Phrase} (derives : Derives phrase tokens) : Complete phrase tokens := by
  induction derives with
  | expression _ _ grouped first rest => exact complete_expression first rest grouped
  | noOperation =>
      intro reader after _ passes _
      rw [passes_nil_iff.mp passes]
      exact .none
  | operation isSign skipped derivesRight _ right rest =>
      exact complete_operation isSign skipped derivesRight.unary_starts right rest
  | plain derivesOperand operand => exact complete_plain derivesOperand.primary_starts operand
  | not isSign derivesOperand operand =>
      obtain ⟨first, rest, rfl, -⟩ := derivesOperand.primary_starts
      exact complete_signed isSign (by simp) operand
  | negative isSign isInteger fits denotes =>
      exact complete_negative isSign isInteger
        (Literal.negativeInteger?_eq_some_iff.mpr ⟨fits, denotes⟩)
  | negate isSign noInteger _ operand => exact complete_signed isSign (fun _ => noInteger) operand
  | identifier isName => exact complete_identifier isName
  | integer isInteger fits denotes =>
      exact complete_integer isInteger (Literal.positiveInteger?_eq_some_iff.mpr ⟨fits, denotes⟩)
  | float isFloat => exact complete_float isFloat
  | boolean isBoolean => exact complete_boolean isBoolean
  | parentheses opens skipped derivesInner skippedAfter closes inner =>
      exact complete_parentheses opens skipped derivesInner.expression_starts inner skippedAfter
        closes
  | call isName opens skipped derivesInner closes inner =>
      exact complete_call isName opens skipped derivesInner inner closes
  | callWithChildren isName opens skipped derivesInner closes opensBrace skippedLines derivesLines
      closesBrace inner innerLines =>
      exact complete_callWithChildren isName opens skipped derivesInner inner closes opensBrace
        skippedLines derivesLines innerLines closesBrace
  | conditional isIf _ derivesThen test yes => exact complete_conditional isIf test derivesThen yes
  | conditionalElse isIf _ derivesThen isElse _ test yes no =>
      exact complete_conditionalElse isIf test derivesThen yes isElse no
  | noArgument =>
      intro reader after passes atClosing
      rw [passes_nil_iff.mp passes]
      refine gives_of_succ (.of_forall fun fuel => ?_)
      rw [callArguments, get_bind, isAt_eq_of_isAt atClosing]
      rfl
  | lastArgument isLabel isColon _ skipped inner =>
      exact complete_lastArgument isLabel isColon inner skipped
  | nextArgument isLabel isColon _ skipped isComma skippedAfter derivesRest inner rest =>
      exact complete_nextArgument isLabel isColon inner skipped isComma skippedAfter derivesRest
        rest
  | noLine => exact complete_noLine
  | lastLine derivesInner inner => exact complete_lastLine derivesInner.expression_starts inner
  | nextLine derivesInner skipped ended derivesRest inner rest =>
      exact complete_nextLine derivesInner.expression_starts inner skipped ended derivesRest rest
  | block opens skipped derivesInner closes inner =>
      exact complete_block opens skipped derivesInner inner closes
  | blockWithResult opens skipped derivesInner isReturn _ skippedAfter closes inner returned =>
      exact complete_blockWithResult opens skipped derivesInner inner isReturn returned skippedAfter
        closes

end Read

end ScalarLang
