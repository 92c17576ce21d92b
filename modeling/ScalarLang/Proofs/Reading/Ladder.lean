import ScalarLang.Proofs.Reading.Climbing

/-!
# The ladder of operators

The same expressions are read by a ladder of seven levels, each of which reads operands
of the next level with its own operators between them and folds them to the left.  A
bound on the precedence of operators plays the part of the level.
-/

set_option autoImplicit false

namespace ScalarLang

def BinaryOp.ladder : List (List BinaryOp) :=
  [[.logicalOr],
    [.logicalAnd],
    [.equal, .notEqual],
    [.less, .lessEqual, .greater, .greaterEqual],
    [.rangeInclusive, .rangeExclusive],
    [.add, .sub],
    [.mul, .div, .rem]]

namespace Reader

def ReadsUnary (reader : Reader) (tree : Expr) (after : Reader) : Prop :=
  Read.unary reader.budget reader = .ok tree after

/-- Reads operators of one level with an operand after each, and folds them to the left
as long as such operators follow. -/
inductive Folds (operand : Reader → Expr → Reader → Prop) (operators : List BinaryOp) :
    Expr → Reader → Expr → Reader → Prop
  | done {left : Expr} {reader : Reader} (noOperator : ∀ op ∈ operators, reader.nextOp? ≠ some op) :
      Folds operand operators left reader left reader
  | next {op : BinaryOp} {left right tree : Expr} {reader middle later after : Reader}
      (ofLevel : op ∈ operators) (isOperator : PassesOperator reader op middle)
      (isOperand : operand middle right later)
      (rest : Folds operand operators (.binary op left right (left.span.union right.span)) later
        tree after) :
      Folds operand operators left reader tree after

/-- Reads an expression with the operators of some levels; under the last level are the
operands. -/
def ReadsLevels : List (List BinaryOp) → Reader → Expr → Reader → Prop
  | [] => ReadsUnary
  | operators :: tighter => fun reader tree after =>
    ∃ first middle, ReadsLevels tighter reader first middle ∧
      Folds (ReadsLevels tighter) operators first middle tree after

end Reader

namespace Read

open Reader

variable {reader middle after : Reader} {bound : Nat} {left tree : Expr}

/-! ## Operands and operations for every large enough bound -/

theorem readsUnary_iff_gives : reader.ReadsUnary tree after ↔ Gives unary reader tree after :=
  eq_ok_iff_gives (fun fuel => (rises fuel).unary)
    ((adequate _).unary reader (allows_budget reader (by decide)))

theorem gives_expression_iff : Gives (expression · bound) reader tree after ↔
    ∃ first middle, Gives unary reader first middle ∧
      Gives (operations · bound first) middle tree after := by
  constructor
  · intro gives
    obtain ⟨fuel, succeeds⟩ := ((Filter.eventually_ge_atTop 1).and gives).exists
    obtain ⟨fuel, rfl⟩ := Nat.exists_eq_add_of_le' succeeds.1
    obtain ⟨first, middle, readsFirst, readsRest⟩ := expression_eq_ok_iff.mp succeeds.2
    exact ⟨first, middle, gives_of_eq_ok (fun fuel => (rises fuel).unary) readsFirst,
      gives_of_eq_ok (fun fuel => (rises fuel).operations bound first) readsRest⟩
  · rintro ⟨first, middle, givesFirst, givesRest⟩
    exact gives_expression givesFirst givesRest

theorem expression_stops (gives : Gives (expression · bound) reader tree after) :
    after.Stops bound := by
  obtain ⟨fuel, succeeds⟩ := gives.exists
  have anyOperand : Groups (fun _ _ _ => True) fuel := groups fuel fun _ _ => fun _ => trivial
  obtain ⟨-, -, stops, -⟩ := anyOperand.expression succeeds
  exact stops

theorem operations_eq_of_stops (stops : reader.Stops bound)
    (gives : Gives (operations · bound left) reader tree after) : left = tree ∧ reader = after := by
  obtain ⟨fuel, atMost, atLeast⟩ := (gives.and (gives_operations_done stops)).exists
  rw [atLeast] at atMost
  cases atMost
  exact ⟨rfl, rfl⟩

/-! ## One level -/

section Level

variable {operators : List BinaryOp}

/-- Operations above a bound are those above the next one, and then the level between
them. -/
theorem operations_level (ofLevel : ∀ op : BinaryOp, op ∈ operators ↔ op.precedence = bound + 1)
    (fuel : Nat) : ∀ {left reader tree after}, operations fuel bound left reader = .ok tree after →
      ∃ first middle, Gives (operations · (bound + 1) left) reader first middle ∧
        Folds (Gives (expression · (bound + 1))) operators first middle tree after := by
  induction fuel with
  | zero =>
      intro left reader tree after succeeds
      cases succeeds
  | succ fuel inductionHypothesis =>
      intro left reader tree after succeeds
      rcases operations_eq_ok_iff.mp succeeds with ⟨stops, rfl, rfl⟩ |
        ⟨op, middle, right, later, isOperator, tight, readsRight, readsRest⟩
      · refine ⟨left, reader, gives_operations_done (stops.weaken (Nat.le_succ bound)), .done ?_⟩
        intro op member isNext
        have loose := stops op isNext
        have isLevel := (ofLevel op).mp member
        omega
      · have givesRight : Gives (expression · op.precedence) middle right later :=
          gives_of_eq_ok (fun fuel => (rises fuel).expression op.precedence) readsRight
        obtain ⟨first, last, givesFirst, folds⟩ := inductionHypothesis readsRest
        by_cases tighter : bound + 1 < op.precedence
        · exact ⟨first, last, gives_operations_next isOperator tighter givesRight givesFirst, folds⟩
        · have isLevel : op.precedence = bound + 1 := by omega
          rw [isLevel] at givesRight
          have stops : reader.Stops (bound + 1) := by
            intro other isNext
            rw [isOperator.1] at isNext
            cases isNext
            omega
          -- The right operand ends before the next operator of the level.
          obtain ⟨rfl, rfl⟩ := operations_eq_of_stops (expression_stops givesRight) givesFirst
          exact ⟨left, reader, gives_operations_done stops,
            .next ((ofLevel op).mpr isLevel) isOperator givesRight folds⟩

theorem gives_operations_of_folds
    (ofLevel : ∀ op : BinaryOp, op ∈ operators ↔ op.precedence = bound + 1)
    (folds : Folds (Gives (expression · (bound + 1))) operators left reader tree after)
    (stops : reader.Stops (bound + 1)) : Gives (operations · bound left) reader tree after := by
  induction folds with
  | done noOperator =>
      refine gives_operations_done fun op isNext => ?_
      have loose := stops op isNext
      have notLevel : op.precedence ≠ bound + 1 :=
        fun isLevel => noOperator op ((ofLevel op).mpr isLevel) isNext
      omega
  | @next op left right tree reader middle later after member isOperator isOperand rest
      inductionHypothesis =>
      have isLevel := (ofLevel op).mp member
      refine gives_operations_next isOperator (by omega) ?_
        (inductionHypothesis (expression_stops isOperand))
      rw [isLevel]
      exact isOperand

theorem gives_operations_of_level (fuel : Nat) : ∀ {left reader first middle tree after},
    operations fuel (bound + 1) left reader = .ok first middle →
    Gives (operations · bound first) middle tree after →
    Gives (operations · bound left) reader tree after := by
  induction fuel with
  | zero =>
      intro left reader first middle tree after succeeds
      cases succeeds
  | succ fuel inductionHypothesis =>
      intro left reader first middle tree after succeeds givesRest
      rcases operations_eq_ok_iff.mp succeeds with ⟨stops, rfl, rfl⟩ |
        ⟨op, second, right, later, isOperator, tight, readsRight, readsRest⟩
      · exact givesRest
      · have givesRight : Gives (expression · op.precedence) second right later :=
          gives_of_eq_ok (fun fuel => (rises fuel).expression op.precedence) readsRight
        exact gives_operations_next isOperator (by omega) givesRight
          (inductionHypothesis readsRest givesRest)

theorem gives_expression_level
    (ofLevel : ∀ op : BinaryOp, op ∈ operators ↔ op.precedence = bound + 1) :
    Gives (expression · bound) reader tree after ↔
      ∃ first middle, Gives (expression · (bound + 1)) reader first middle ∧
        Folds (Gives (expression · (bound + 1))) operators first middle tree after := by
  constructor
  · intro gives
    obtain ⟨first, middle, givesFirst, givesRest⟩ := gives_expression_iff.mp gives
    obtain ⟨fuel, readsRest⟩ := givesRest.exists
    obtain ⟨second, later, givesSecond, folds⟩ := operations_level ofLevel fuel readsRest
    exact ⟨second, later, gives_expression givesFirst givesSecond, folds⟩
  · rintro ⟨second, later, givesBoth, folds⟩
    have givesFolds := gives_operations_of_folds ofLevel folds (expression_stops givesBoth)
    obtain ⟨first, middle, givesFirst, givesSecond⟩ := gives_expression_iff.mp givesBoth
    obtain ⟨fuel, readsSecond⟩ := givesSecond.exists
    exact gives_expression givesFirst (gives_operations_of_level fuel readsSecond givesFolds)

end Level

/-! ## All levels -/

/-- The levels hold the operators that bind tighter than a bound, the first level those
of the next precedence. -/
def AreLevels : List (List BinaryOp) → Nat → Prop
  | [], bound => ∀ op : BinaryOp, op.precedence ≤ bound
  | operators :: tighter, bound =>
    (∀ op : BinaryOp, op ∈ operators ↔ op.precedence = bound + 1) ∧ AreLevels tighter (bound + 1)

theorem areLevels_ladder : AreLevels BinaryOp.ladder 0 := by
  refine ⟨?_, ?_, ?_, ?_, ?_, ?_, ?_, ?_⟩
  all_goals
    intro op
    cases op <;> decide

theorem readsLevels_iff_gives {levels : List (List BinaryOp)} : ∀ {bound : Nat},
    AreLevels levels bound → ∀ {reader tree after},
      ReadsLevels levels reader tree after ↔ Gives (expression · bound) reader tree after := by
  induction levels with
  | nil =>
      intro bound areLevels reader tree after
      have stops : ∀ reader : Reader, reader.Stops bound := fun reader op _ => areLevels op
      change ReadsUnary reader tree after ↔ _
      rw [readsUnary_iff_gives, gives_expression_iff]
      constructor
      · intro gives
        exact ⟨tree, after, gives, gives_operations_done (stops after)⟩
      · rintro ⟨first, middle, givesFirst, givesRest⟩
        obtain ⟨rfl, rfl⟩ := operations_eq_of_stops (stops middle) givesRest
        exact givesFirst
  | cons operators tighter inductionHypothesis =>
      intro bound areLevels reader tree after
      have same : ReadsLevels tighter = Gives (expression · (bound + 1)) := by
        funext reader tree after
        exact propext (inductionHypothesis areLevels.2)
      rw [gives_expression_level areLevels.1, ReadsLevels, same]

theorem readsGrouped_iff_gives : ReadsGrouped ReadsUnary bound reader tree after ↔
    Gives (expression · bound) reader tree after := by
  have same : ReadsUnary = Gives unary := by
    funext reader tree after
    exact propext readsUnary_iff_gives
  rw [same]
  constructor
  · exact gives_expression_of_readsGrouped
  · intro gives
    obtain ⟨fuel, succeeds⟩ := gives.exists
    have grouped : Groups (Gives unary) fuel :=
      groups fuel fun _ _ => gives_of_eq_ok fun fuel => (rises fuel).unary
    exact grouped.expression succeeds

end Read

/-- Precedence climbing reads what the ladder of levels reads.  Its tree is the one
well-grouped grouping of the row of operands and operators that is read. -/
theorem readExpression_eq_ladder (reader : Reader) (tree : Expr) (after : Reader) :
    (reader.readExpression = (.ok tree, after) ↔
      Reader.ReadsLevels BinaryOp.ladder reader tree after) ∧
    (reader.readExpression = (.ok tree, after) ↔
      ∃ grouping : Grouping,
        reader.ReadsRow Reader.ReadsUnary grouping.first grouping.others after ∧
        after.nextOp? = none ∧ grouping.WellGrouped ∧ grouping.tree = tree) ∧
    ∀ first others, ∃! grouping : Grouping,
      grouping.first = first ∧ grouping.others = others ∧ grouping.WellGrouped := by
  refine ⟨?_, ?_, Grouping.existsUnique_wellGrouped⟩
  · rw [Reader.readExpression_eq_ok_iff, Read.readsLevels_iff_gives Read.areLevels_ladder]
  · rw [Reader.readExpression_eq_ok_iff, ← Read.readsGrouped_iff_gives]
    unfold Read.ReadsGrouped
    simp only [Reader.stops_zero_iff, BinaryOp.precedence_pos, implies_true, true_and]

end ScalarLang
