import ScalarLang.Proofs.Reading.Ladder
import ScalarLang.Proofs.Reading.Offsets

/-!
# Operands that are refused

An operand that cannot be read stops the whole expression with its error, however the
operands before it are grouped.  And an operator after an operand is never left over: an
expression that is read goes on with it.
-/

set_option autoImplicit false

namespace ScalarLang

namespace Reader

variable {reader middle after : Reader} {tokens rest : List Token}

/-! ## Passing tokens -/

/-- Tokens before another one are passed, whatever is wrong later. -/
theorem exists_passes_before {next : Token} (areTokens : reader.tokens = tokens ++ next :: rest) :
    ∃ after, Passes reader tokens after ∧ after.tokens = next :: rest := by
  induction tokens generalizing reader with
  | nil => exact ⟨reader, .none, areTokens⟩
  | cons token tokens inductionHypothesis =>
      have present : reader.current? = some token := by simp [current?, areTokens]
      have passed : Read.advance reader =
          .ok () { reader with tokens := tokens ++ next :: rest, previous := token.span } := by
        unfold Read.advance
        rw [areTokens, List.cons_append]
        cases tokens <;> rfl
      obtain ⟨after, passes, isRest⟩ := @inductionHypothesis
        { reader with tokens := tokens ++ next :: rest, previous := token.span } rfl
      exact ⟨after, .next present passed passes, isRest⟩

theorem Passes.unique {other : Reader} (passes : Passes reader tokens after)
    (passesOther : Passes reader tokens other) : after = other := by
  induction passes with
  | none => exact passes_nil_iff.mp passesOther
  | next _ passed _ inductionHypothesis =>
      cases passesOther with
      | next _ passedOther rest =>
          rw [passed] at passedOther
          cases passedOther
          exact inductionHypothesis rest

theorem Passes.rest_eq (passes : Passes reader tokens after)
    (areTokens : reader.tokens = tokens ++ rest) : after.tokens = rest :=
  List.append_cancel_left (passes.tokens_eq.symm.trans areTokens)

theorem PassesOperator.unique {op otherOp : BinaryOp} {other : Reader}
    (passes : PassesOperator reader op after) (passesOther : PassesOperator reader otherOp other) :
    op = otherOp ∧ after = other := by
  obtain ⟨isNext, middle, passed, skipped⟩ := passes
  obtain ⟨isOther, second, passedOther, skippedOther⟩ := passesOther
  rw [isNext] at isOther
  cases isOther
  rw [passed] at passedOther
  cases passedOther
  rw [skipped] at skippedOther
  cases skippedOther
  exact ⟨rfl, rfl⟩

theorem PassesOperator.precedence_gt {op : BinaryOp} {bound : Nat}
    (passes : PassesOperator reader op after) (goesOn : ¬ reader.Stops bound) :
    bound < op.precedence := by
  refine Nat.lt_of_not_le fun loose => goesOn fun other isNext => ?_
  rw [passes.1] at isNext
  cases isNext
  exact loose

theorem ReadsUnary.unique {tree otherTree : Expr} {other : Reader}
    (reads : ReadsUnary reader tree after) (readsOther : ReadsUnary reader otherTree other) :
    tree = otherTree ∧ after = other := by
  unfold ReadsUnary at reads readsOther
  rw [reads] at readsOther
  cases readsOther
  exact ⟨rfl, rfl⟩

/-! ## Rows that go on -/

section Rows

variable {first otherFirst : Expr} {others all : List (BinaryOp × Expr)}

/-- Operations that end before no operator go on from wherever other operations end. -/
theorem exists_rest_of_operations (reads : ReadsOperations ReadsUnary reader others middle)
    (readsAll : ReadsOperations ReadsUnary reader all after) (noOperator : after.nextOp? = none) :
    ∃ more, all = others ++ more ∧ ReadsOperations ReadsUnary middle more after := by
  induction reads generalizing all with
  | none => exact ⟨all, rfl, readsAll⟩
  | next isOperator isOperand _ inductionHypothesis =>
      cases readsAll with
      | none =>
          rw [isOperator.1] at noOperator
          cases noOperator
      | next isOther isOtherOperand readsRest =>
          obtain ⟨rfl, rfl⟩ := isOperator.unique isOther
          obtain ⟨rfl, rfl⟩ := isOperand.unique isOtherOperand
          obtain ⟨more, rfl, readsMore⟩ := inductionHypothesis readsRest
          exact ⟨more, rfl, readsMore⟩

theorem exists_rest_of_row (row : ReadsRow ReadsUnary reader first others middle)
    (rowAll : ReadsRow ReadsUnary reader otherFirst all after)
    (noOperator : after.nextOp? = none) : otherFirst = first ∧
      ∃ more, all = others ++ more ∧ ReadsOperations ReadsUnary middle more after := by
  obtain ⟨second, readsFirst, readsOthers⟩ := row
  obtain ⟨third, readsOther, readsAll⟩ := rowAll
  obtain ⟨rfl, rfl⟩ := readsFirst.unique readsOther
  exact ⟨rfl, exists_rest_of_operations readsOthers readsAll noOperator⟩

/-- The whole expression is a row of operands, and is read as its well-grouped tree. -/
def ReadsWhole (reader : Reader) (first : Expr) (others : List (BinaryOp × Expr))
    (after : Reader) : Prop :=
  ∃ grouping : Grouping, grouping.first = first ∧ grouping.others = others ∧
    grouping.WellGrouped ∧ reader.readExpression = (.ok grouping.tree, after)

theorem readExpression_eq_ok_iff_grouping {tree : Expr} :
    reader.readExpression = (.ok tree, after) ↔
      ∃ grouping : Grouping, ReadsRow ReadsUnary reader grouping.first grouping.others after ∧
        after.nextOp? = none ∧ grouping.WellGrouped ∧ grouping.tree = tree := by
  rw [readExpression_eq_ok_iff, ← Read.readsGrouped_iff_gives]
  unfold Read.ReadsGrouped
  simp only [stops_zero_iff, BinaryOp.precedence_pos, implies_true, true_and]

/-- A row that ends before no operator is the whole expression. -/
theorem readsWhole_of_row (row : ReadsRow ReadsUnary reader first others after)
    (noOperator : after.nextOp? = none) : reader.ReadsWhole first others after := by
  obtain ⟨grouping, ⟨rfl, rfl, grouped⟩, -⟩ := Grouping.existsUnique_wellGrouped first others
  exact ⟨grouping, rfl, rfl, grouped,
    readExpression_eq_ok_iff_grouping.mpr ⟨grouping, row, noOperator, grouped, rfl⟩⟩

/-- An expression that is read goes on with an operator after any of its operands. -/
theorem exists_operation_of_row {op : BinaryOp} {tree : Expr}
    (row : ReadsRow ReadsUnary reader first others middle) (isNext : middle.nextOp? = some op)
    (reads : reader.readExpression = (.ok tree, after)) :
    ∃ operand right later more, PassesOperator middle op operand ∧
      ReadsUnary operand right later ∧
      reader.ReadsWhole first (others ++ (op, right) :: more) after := by
  obtain ⟨grouping, rowAll, noOperator, grouped, rfl⟩ := readExpression_eq_ok_iff_grouping.mp reads
  obtain ⟨isFirst, more, areOthers, readsMore⟩ := exists_rest_of_row row rowAll noOperator
  cases readsMore with
  | none =>
      rw [isNext] at noOperator
      cases noOperator
  | next isOperator isOperand _ =>
      have sameOp := isOperator.1
      rw [isNext] at sameOp
      cases sameOp
      exact ⟨_, _, _, _, isOperator, isOperand, grouping, isFirst, areOthers, grouped, reads⟩

end Rows

end Reader

namespace Read

open Reader

variable {α : Type} {reader middle later after : Reader} {bound : Nat} {left right : Expr}
  {op : BinaryOp} {error : SyntaxError}

/-! ## Refusals for every large enough bound -/

def Refuses (action : Nat → Read α) (reader : Reader) (error : SyntaxError) : Prop :=
  ∀ᶠ fuel in Filter.atTop, ∃ after, action fuel reader = .error (.rejected error) after

theorem refuses_of_succ {action : Nat → Read α} (eventually : ∀ᶠ fuel in Filter.atTop,
    ∃ after, action (fuel + 1) reader = .error (.rejected error) after) :
    Refuses action reader error := by
  obtain ⟨fuel, fails⟩ := Filter.eventually_atTop.mp eventually
  refine Filter.eventually_atTop.mpr ⟨fuel + 1, fun more atMost => ?_⟩
  have enough := fails (more - 1) (by omega)
  rwa [Nat.sub_add_cancel (by omega)] at enough

/-- A bound that is not exhausted is large enough for a refusal. -/
theorem exists_error_of_refuses {action : Nat → Read α}
    (below : ∀ fuel, Below (action fuel) (action (fuel + 1))) {limit fuel : Nat}
    (leaves : Leaves limit (action fuel) reader) (refuses : Refuses action reader error) :
    ∃ after, action fuel reader = .error (.rejected error) after := by
  obtain ⟨enough, fails⟩ := Filter.eventually_atTop.mp refuses
  rcases below_of_le below (Nat.le_max_left fuel enough) reader with ⟨_, runsOut⟩ | same
  · unfold Leaves at leaves
    rw [runsOut] at leaves
    exact leaves.elim
  · rw [same]
    exact fails _ (Nat.le_max_right fuel enough)

/-! ### Expressions -/

theorem refuses_expression (refuses : Refuses unary reader error) :
    Refuses (expression · bound) reader error := by
  apply refuses_of_succ
  filter_upwards [refuses] with fuel fails
  obtain ⟨after, fails⟩ := fails
  rw [expression]
  exact ⟨after, bind_of_error fails⟩

theorem refuses_expression_of_operations (givesFirst : Gives unary reader left middle)
    (refuses : Refuses (operations · bound left) middle error) :
    Refuses (expression · bound) reader error := by
  apply refuses_of_succ
  filter_upwards [givesFirst, refuses] with fuel readsFirst fails
  rw [expression, bind_of_ok readsFirst]
  exact fails

/-- After an operator that binds tight enough comes the right operand, and then further
operations. -/
theorem operations_of_operator {fuel : Nat} (isOperator : PassesOperator reader op middle)
    (tight : bound < op.precedence) : operations (fuel + 1) bound left reader =
      (expression fuel op.precedence >>= fun right =>
        operations fuel bound (.binary op left right (left.span.union right.span))) middle := by
  obtain ⟨isNext, second, passed, skipped⟩ := isOperator
  rw [operations, get_bind, binaryOp?_eq_some_iff.mpr ⟨isNext, tight⟩]
  dsimp only
  rw [bind_of_ok passed, bind_of_ok skipped]

theorem refuses_operations_operand (isOperator : PassesOperator reader op middle)
    (tight : bound < op.precedence)
    (refuses : Refuses (expression · op.precedence) middle error) :
    Refuses (operations · bound left) reader error := by
  apply refuses_of_succ
  filter_upwards [refuses] with fuel fails
  obtain ⟨after, fails⟩ := fails
  rw [operations_of_operator isOperator tight]
  exact ⟨after, bind_of_error fails⟩

theorem refuses_operations_rest (isOperator : PassesOperator reader op middle)
    (tight : bound < op.precedence)
    (givesRight : Gives (expression · op.precedence) middle right later)
    (refuses : Refuses
      (operations · bound (.binary op left right (left.span.union right.span))) later error) :
    Refuses (operations · bound left) reader error := by
  apply refuses_of_succ
  filter_upwards [givesRight, refuses] with fuel readsRight fails
  rw [operations_of_operator isOperator tight, bind_of_ok readsRight]
  exact fails

/-! ### Rows with an operand that is refused -/

/-- Operations come to an operand that is refused, or they stop at an operator before it
that does not bind tight enough. -/
theorem operations_before_refusal {operand : Reader}
    (isOperator : PassesOperator middle op operand) (refuses : Refuses unary operand error) :
    ∀ (others : List (BinaryOp × Expr)) {bound left reader},
      ReadsOperations (Gives unary) reader others middle →
      Refuses (operations · bound left) reader error ∨
      ∃ tree later rest, Gives (operations · bound left) reader tree later ∧ later.Stops bound ∧
        ReadsOperations (Gives unary) later rest middle ∧ rest.length ≤ others.length := by
  intro others
  -- The right operand of an operator takes up some of the operations, and those after it
  -- are fewer.
  induction isCount : others.length using Nat.strong_induction_on generalizing others with
  | _ count inductionHypothesis =>
      intro bound left reader reads
      by_cases stops : reader.Stops bound
      · exact .inr ⟨left, reader, others, gives_operations_done stops, stops, reads, isCount.le⟩
      cases reads with
      | none =>
          have tight := isOperator.precedence_gt stops
          exact .inl (refuses_operations_operand isOperator tight (refuses_expression refuses))
      | @next _ second third _ nextOp first others isNextOperator givesFirst readsOthers =>
          have tight := isNextOperator.precedence_gt stops
          rw [List.length_cons] at isCount
          rcases inductionHypothesis others.length (by omega) others rfl readsOthers with
            refusesRight | ⟨tree, later, rest, givesTree, -, readsRest, fewer⟩
          · exact .inl (refuses_operations_operand isNextOperator tight
              (refuses_expression_of_operations givesFirst refusesRight))
          · have givesRight : Gives (expression · nextOp.precedence) second tree later :=
              gives_expression givesFirst givesTree
            rcases inductionHypothesis rest.length (by omega) rest rfl readsRest with
              refusesRest | ⟨whole, last, none, givesWhole, stopsLast, readsNone, fewest⟩
            · exact .inl (refuses_operations_rest isNextOperator tight givesRight refusesRest)
            · exact .inr ⟨whole, last, none,
                gives_operations_next isNextOperator tight givesRight givesWhole, stopsLast,
                readsNone, by omega⟩

/-- An operand that is refused in a row is what the whole expression is refused for. -/
theorem refuses_expression_of_row {operand : Reader} {first : Expr}
    {others : List (BinaryOp × Expr)} (row : ReadsRow (Gives unary) reader first others middle)
    (isOperator : PassesOperator middle op operand) (refuses : Refuses unary operand error) :
    Refuses (expression · 0) reader error := by
  obtain ⟨second, givesFirst, readsOthers⟩ := row
  refine refuses_expression_of_operations givesFirst ?_
  rcases operations_before_refusal isOperator refuses others readsOthers with
    refusesOthers | ⟨_, later, rest, -, stops, readsRest, -⟩
  · exact refusesOthers
  · -- Every operator binds tighter than zero, so reading does not stop before one.
    have noOperator := stops_zero_iff.mp stops
    cases readsRest with
    | none =>
        rw [isOperator.1] at noOperator
        cases noOperator
    | next isNext _ _ =>
        rw [isNext.1] at noOperator
        cases noOperator

end Read

namespace Reader

variable {reader middle operand : Reader} {error : SyntaxError}

theorem exists_readExpression_eq_error
    (refuses : Read.Refuses (Read.expression · 0) reader error) :
    ∃ after, reader.readExpression = (.error error, after) := by
  obtain ⟨after, fails⟩ := Read.exists_error_of_refuses
    (fun fuel => (Read.rises fuel).expression 0)
    ((Read.adequate _).expression 0 reader (allows_budget reader (by decide))) refuses
  exact ⟨after, Read.run_eq_error_iff.mpr fails⟩

theorem readExpression_of_refused_operand {first : Expr} {others : List (BinaryOp × Expr)}
    {op : BinaryOp} (row : ReadsRow ReadsUnary reader first others middle)
    (isOperator : PassesOperator middle op operand)
    (refuses : Read.Refuses Read.unary operand error) :
    ∃ after, reader.readExpression = (.error error, after) := by
  have same : ReadsUnary = Read.Gives Read.unary := by
    funext reader tree after
    exact propext Read.readsUnary_iff_gives
  rw [same] at row
  exact exists_readExpression_eq_error (Read.refuses_expression_of_row row isOperator refuses)

end Reader

end ScalarLang
