import ScalarLang.Proofs.Reading.Depth
import ScalarLang.Proofs.Reading.Grouping

/-!
# Precedence climbing

Reading an expression passes a row of operands and operators and groups it on the way.
The reading functions succeed exactly on the rows that end before no further operator,
and their tree is that of a well-grouped grouping of the row.
-/

set_option autoImplicit false

namespace ScalarLang

theorem BinaryOp.precedence_pos (op : BinaryOp) : 0 < op.precedence := by
  cases op <;> decide

namespace Reader

variable {reader middle after : Reader} {op : BinaryOp} {bound : Nat}

/-! ## Operators -/

def nextOp? (reader : Reader) : Option BinaryOp := reader.binaryOp? 0

/-- No operator that binds tighter than a bound comes next. -/
def Stops (bound : Nat) (reader : Reader) : Prop :=
  ∀ op ∈ reader.nextOp?, op.precedence ≤ bound

def PassesOperator (reader : Reader) (op : BinaryOp) (after : Reader) : Prop :=
  reader.nextOp? = some op ∧
    ∃ middle, Read.advance reader = .ok () middle ∧ Read.skipNewlines middle = .ok () after

theorem binaryOp?_eq : reader.binaryOp? bound =
    reader.nextOp?.filter fun op => bound < op.precedence := by
  unfold nextOp? binaryOp?
  split
  · simp [Option.filter_filter, BinaryOp.precedence_pos]
  · rfl

theorem binaryOp?_eq_none_iff : reader.binaryOp? bound = none ↔ reader.Stops bound := by
  rw [binaryOp?_eq]
  simp [Stops]

theorem binaryOp?_eq_some_iff : reader.binaryOp? bound = some op ↔
    reader.nextOp? = some op ∧ bound < op.precedence := by
  rw [binaryOp?_eq]
  simp [Option.filter_eq_some_iff]

theorem stops_zero_iff : reader.Stops 0 ↔ reader.nextOp? = none := by
  rw [← binaryOp?_eq_none_iff]
  rfl

theorem Stops.weaken {more : Nat} (stops : reader.Stops bound) (atMost : bound ≤ more) :
    reader.Stops more :=
  fun op isNext => Nat.le_trans (stops op isNext) atMost

/-! ## Rows of operands -/

section Rows

variable {operand : Reader → Expr → Reader → Prop}

inductive ReadsOperations (operand : Reader → Expr → Reader → Prop) :
    Reader → List (BinaryOp × Expr) → Reader → Prop
  | none {reader : Reader} : ReadsOperations operand reader [] reader
  | next {reader middle later after : Reader} {op : BinaryOp} {right : Expr}
      {others : List (BinaryOp × Expr)}
      (isOperator : PassesOperator reader op middle) (isOperand : operand middle right later)
      (rest : ReadsOperations operand later others after) :
      ReadsOperations operand reader ((op, right) :: others) after

def ReadsRow (operand : Reader → Expr → Reader → Prop) (reader : Reader) (first : Expr)
    (others : List (BinaryOp × Expr)) (after : Reader) : Prop :=
  ∃ middle, operand reader first middle ∧ ReadsOperations operand middle others after

theorem readsOperations_append_iff {first second : List (BinaryOp × Expr)} :
    ReadsOperations operand reader (first ++ second) after ↔
      ∃ middle, ReadsOperations operand reader first middle ∧
        ReadsOperations operand middle second after := by
  induction first generalizing reader with
  | nil =>
      constructor
      · intro reads
        exact ⟨reader, .none, reads⟩
      · rintro ⟨_, ⟨⟩, reads⟩
        exact reads
  | cons operation first inductionHypothesis =>
      constructor
      · intro reads
        cases reads with
        | next isOperator isOperand rest =>
            obtain ⟨middle, readsFirst, readsSecond⟩ := inductionHypothesis.mp rest
            exact ⟨middle, .next isOperator isOperand readsFirst, readsSecond⟩
      · rintro ⟨middle, readsFirst, readsSecond⟩
        cases readsFirst with
        | next isOperator isOperand rest =>
            exact .next isOperator isOperand (inductionHypothesis.mpr ⟨middle, rest, readsSecond⟩)

end Rows

end Reader

namespace Read

open Reader

variable {reader middle after : Reader} {fuel bound : Nat} {left tree : Expr}

/-! ## What the reading functions do -/

theorem expression_eq_ok_iff : expression (fuel + 1) bound reader = .ok tree after ↔
    ∃ first middle, unary fuel reader = .ok first middle ∧
      operations fuel bound first middle = .ok tree after := by
  rw [expression, bind_eq_ok_iff]

theorem operations_eq_ok_iff : operations (fuel + 1) bound left reader = .ok tree after ↔
    (reader.Stops bound ∧ left = tree ∧ reader = after) ∨
    ∃ op middle right later, PassesOperator reader op middle ∧ bound < op.precedence ∧
      expression fuel op.precedence middle = .ok right later ∧
      operations fuel bound (.binary op left right (left.span.union right.span)) later =
        .ok tree after := by
  rw [operations, get_bind]
  cases found : reader.binaryOp? bound with
  | none =>
      have stops := binaryOp?_eq_none_iff.mp found
      simp only [pure_eq_ok_iff]
      constructor
      · intro done
        exact .inl ⟨stops, done⟩
      · rintro (⟨-, done⟩ | ⟨op, _, _, _, ⟨isNext, -⟩, tight, -⟩)
        · exact done
        · exact absurd (stops op isNext) (Nat.not_le.mpr tight)
  | some op =>
      obtain ⟨isNext, tight⟩ := binaryOp?_eq_some_iff.mp found
      simp only [bind_eq_ok_iff]
      constructor
      · rintro ⟨_, second, passed, _, third, skipped, right, later, readsRight, readsRest⟩
        exact .inr ⟨op, third, right, later, ⟨isNext, second, passed, skipped⟩, tight, readsRight,
          readsRest⟩
      · rintro (⟨stops, -⟩ | ⟨other, third, right, later, ⟨isOther, second, passed, skipped⟩, -,
          readsRight, readsRest⟩)
        · exact absurd (stops op isNext) (Nat.not_le.mpr tight)
        · rw [isNext] at isOther
          cases isOther
          exact ⟨(), second, passed, (), third, skipped, right, later, readsRight, readsRest⟩

theorem gives_expression {first : Expr} (givesFirst : Gives unary reader first middle)
    (givesRest : Gives (operations · bound first) middle tree after) :
    Gives (expression · bound) reader tree after := by
  apply gives_of_succ
  filter_upwards [givesFirst, givesRest] with fuel readsFirst readsRest
  exact expression_eq_ok_iff.mpr ⟨first, middle, readsFirst, readsRest⟩

theorem gives_operations_done (stops : reader.Stops bound) :
    Gives (operations · bound left) reader left reader := by
  apply gives_of_succ
  exact .of_forall fun fuel => operations_eq_ok_iff.mpr (.inl ⟨stops, rfl, rfl⟩)

theorem gives_operations_next {op : BinaryOp} {right : Expr} {later : Reader}
    (isOperator : PassesOperator reader op middle) (tight : bound < op.precedence)
    (givesRight : Gives (expression · op.precedence) middle right later)
    (givesRest : Gives
      (operations · bound (.binary op left right (left.span.union right.span))) later tree after) :
    Gives (operations · bound left) reader tree after := by
  apply gives_of_succ
  filter_upwards [givesRight, givesRest] with fuel readsRight readsRest
  exact operations_eq_ok_iff.mpr
    (.inr ⟨op, middle, right, later, isOperator, tight, readsRight, readsRest⟩)

/-! ## From reading to groupings -/

/-- The tree is that of a well-grouped row, whose operations bind tighter than a bound
and which cannot go on with another such. -/
def ReadsGrouped (operand : Reader → Expr → Reader → Prop) (bound : Nat) (reader : Reader)
    (tree : Expr) (after : Reader) : Prop :=
  ∃ grouping : Grouping, ReadsRow operand reader grouping.first grouping.others after ∧
    after.Stops bound ∧ grouping.WellGrouped ∧
    (∀ root ∈ grouping.root?, bound < root.precedence) ∧ grouping.tree = tree

def ExtendsGrouped (operand : Reader → Expr → Reader → Prop) (bound : Nat) (left : Grouping)
    (reader : Reader) (tree : Expr) (after : Reader) : Prop :=
  ∃ (grouping : Grouping) (more : List (BinaryOp × Expr)),
    ReadsOperations operand reader more after ∧ grouping.first = left.first ∧
    grouping.others = left.others ++ more ∧ after.Stops bound ∧ grouping.WellGrouped ∧
    (∀ root ∈ grouping.root?, bound < root.precedence) ∧ grouping.tree = tree

section Groups

variable {operand : Reader → Expr → Reader → Prop}

/-- The functions group what they read, if the operands are read in the given way. -/
structure Groups (operand : Reader → Expr → Reader → Prop) (fuel : Nat) : Prop where
  expression : ∀ {bound reader tree after}, expression fuel bound reader = .ok tree after →
    ReadsGrouped operand bound reader tree after
  operations : ∀ (left : Grouping) {bound reader tree after},
    operations fuel bound left.tree reader = .ok tree after → left.WellGrouped →
    (∀ root ∈ left.root?, bound < root.precedence) →
    (∀ root ∈ left.root?, reader.Stops root.precedence) →
    ExtendsGrouped operand bound left reader tree after

theorem expression_grouped (groups : Groups operand fuel)
    (reads : ∀ {reader tree after}, unary fuel reader = .ok tree after → operand reader tree after)
    (succeeds : expression (fuel + 1) bound reader = .ok tree after) :
    ReadsGrouped operand bound reader tree after := by
  obtain ⟨first, middle, readsFirst, readsRest⟩ := expression_eq_ok_iff.mp succeeds
  have noRoot : ∀ root ∈ (Grouping.operand first).root?, bound < root.precedence := by
    simp [Grouping.root?]
  obtain ⟨grouping, more, readsMore, isFirst, areOthers, stops, grouped, tight, isTree⟩ :=
    groups.operations (.operand first) readsRest trivial noRoot (by simp [Grouping.root?])
  refine ⟨grouping, ⟨middle, ?_, ?_⟩, stops, grouped, tight, isTree⟩
  · rw [isFirst]
    exact reads readsFirst
  · rw [areOthers]
    exact readsMore

theorem operations_grouped (groups : Groups operand fuel) {left : Grouping}
    (succeeds : operations (fuel + 1) bound left.tree reader = .ok tree after)
    (grouped : left.WellGrouped) (tight : ∀ root ∈ left.root?, bound < root.precedence)
    (stops : ∀ root ∈ left.root?, reader.Stops root.precedence) :
    ExtendsGrouped operand bound left reader tree after := by
  rcases operations_eq_ok_iff.mp succeeds with
    ⟨stopsHere, rfl, rfl⟩ | ⟨op, middle, right, later, isOperator, tightOp, readsRight, readsRest⟩
  · exact ⟨left, [], .none, rfl, by simp, stopsHere, grouped, tight, rfl⟩
  · -- The operator joins what is on its left with all that binds tighter on its right.
    obtain ⟨onRight, ⟨second, readsFirst, readsOthers⟩, stopsRight, groupedRight, tightRight,
      rfl⟩ := groups.expression readsRight
    have groupedBoth : (Grouping.operation op left onRight).WellGrouped :=
      ⟨fun leftOp isRoot => stops leftOp isRoot op isOperator.1, tightRight, grouped, groupedRight⟩
    have tightBoth : ∀ root ∈ (Grouping.operation op left onRight).root?,
        bound < root.precedence := by
      rintro root ⟨⟩
      exact tightOp
    have stopsBoth : ∀ root ∈ (Grouping.operation op left onRight).root?,
        later.Stops root.precedence := by
      rintro root ⟨⟩
      exact stopsRight
    obtain ⟨grouping, more, readsMore, isFirst, areOthers, stopsAfter, groupedAll, tightAll,
      isTree⟩ :=
      groups.operations (.operation op left onRight) readsRest groupedBoth tightBoth stopsBoth
    refine ⟨grouping, (op, onRight.first) :: (onRight.others ++ more),
      .next isOperator readsFirst ?_, isFirst, ?_, stopsAfter, groupedAll, tightAll, isTree⟩
    · exact readsOperations_append_iff.mpr ⟨later, readsOthers, readsMore⟩
    · rw [areOthers]
      simp [Grouping.others]

theorem groups (fuel : Nat) (reads : ∀ smaller < fuel, ∀ {reader tree after},
    unary smaller reader = .ok tree after → operand reader tree after) :
    Groups operand fuel := by
  induction fuel with
  | zero =>
      constructor
      · intro bound reader tree after succeeds
        cases succeeds
      · intro left bound reader tree after succeeds
        cases succeeds
  | succ fuel inductionHypothesis =>
      have groups : Groups operand fuel :=
        inductionHypothesis fun smaller below => reads smaller (Nat.lt_succ_of_lt below)
      constructor
      · intro bound reader tree after succeeds
        exact expression_grouped groups (reads fuel (Nat.lt_succ_self fuel)) succeeds
      · intro left bound reader tree after succeeds
        exact operations_grouped groups succeeds

end Groups

/-! ## From groupings to reading -/

theorem gives_expression_of_grouping {grouping : Grouping} (grouped : grouping.WellGrouped) :
    ∀ {bound reader middle tree after}, (∀ root ∈ grouping.root?, bound < root.precedence) →
      ReadsRow (Gives unary) reader grouping.first grouping.others middle →
      (∀ root ∈ grouping.root?, middle.Stops root.precedence) →
      Gives (operations · bound grouping.tree) middle tree after →
      Gives (expression · bound) reader tree after := by
  -- The left part is read as if it stood alone, up to the operator, which goes on with
  -- the right part.
  induction grouping with
  | operand first =>
      rintro bound reader middle tree after - ⟨_, givesFirst, ⟨⟩⟩ - givesRest
      exact gives_expression givesFirst givesRest
  | operation op left right ofLeft ofRight =>
      intro bound reader middle tree after tight row stops givesRest
      obtain ⟨onLeft, onRight, groupedLeft, groupedRight⟩ := grouped
      obtain ⟨second, givesFirst, readsOthers⟩ := row
      obtain ⟨third, readsLeft, readsRight⟩ := readsOperations_append_iff.mp readsOthers
      cases readsRight with
      | @next _ fourth fifth _ _ _ _ isOperator givesSecond readsRest =>
          have tightOp : bound < op.precedence := tight op rfl
          have stopsRight : middle.Stops op.precedence := stops op rfl
          have givesRight : Gives (expression · op.precedence) fourth right.tree middle := by
            refine ofRight groupedRight onRight ⟨fifth, givesSecond, readsRest⟩ ?_
              (gives_operations_done stopsRight)
            intro root isRoot
            exact stopsRight.weaken (Nat.le_of_lt (onRight root isRoot))
          refine ofLeft groupedLeft ?_ ⟨second, givesFirst, readsLeft⟩ ?_
            (gives_operations_next isOperator tightOp givesRight givesRest)
          · intro root isRoot
            exact Nat.lt_of_lt_of_le tightOp (onLeft root isRoot)
          · intro root isRoot other isNext
            rw [isOperator.1] at isNext
            cases isNext
            exact onLeft root isRoot

theorem gives_expression_of_readsGrouped
    (reads : ReadsGrouped (Gives unary) bound reader tree after) :
    Gives (expression · bound) reader tree after := by
  obtain ⟨grouping, row, stops, grouped, tight, rfl⟩ := reads
  refine gives_expression_of_grouping grouped tight row ?_ (gives_operations_done stops)
  intro root isRoot
  exact stops.weaken (Nat.le_of_lt (tight root isRoot))

end Read

end ScalarLang
