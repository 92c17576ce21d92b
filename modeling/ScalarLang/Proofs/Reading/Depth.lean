import Mathlib.Order.Filter.AtTopBot.Basic
import ScalarLang.Proofs.Outcome
import ScalarLang.Reader.Entry

/-!
# Bounds on the depth of reading

A bound that is not exhausted gives the same outcome as every larger one.  So what a
reading function gives for all large enough bounds is what it gives for any bound that
suffices, and the bound can be left out of what is said about it.
-/

set_option autoImplicit false

namespace ScalarLang

namespace Read

variable {α β : Type} {reader after : Reader}

/-! ## One bound below another -/

/-- Where the first step does not run out of its bound, the second does the same. -/
def Below (action deeper : Read α) : Prop :=
  ∀ reader, (∃ after, action reader = .error .exhausted after) ∨ action reader = deeper reader

theorem Below.refl (action : Read α) : Below action action := fun _ => .inr rfl

theorem Below.trans {first second third : Read α} (below : Below first second)
    (further : Below second third) : Below first third := by
  intro reader
  rcases below reader with runsOut | same
  · exact .inl runsOut
  · rw [same]
    exact further reader

theorem below_of_exhausted (deeper : Read α) : Below exhausted deeper :=
  fun reader => .inl ⟨reader, rfl⟩

theorem Below.bind {action deeper : Read α} {next deeperNext : α → Read β}
    (first : Below action deeper) (second : ∀ value, Below (next value) (deeperNext value)) :
    Below (action >>= next) (deeper >>= deeperNext) := by
  intro reader
  rcases first reader with ⟨after, runsOut⟩ | same
  · exact .inl ⟨after, bind_of_error runsOut⟩
  · cases outcome : action reader with
    | ok value middle =>
        rw [bind_of_ok outcome, bind_of_ok (same.symm.trans outcome)]
        exact second value middle
    | error failure middle =>
        rw [bind_of_error outcome, bind_of_error (same.symm.trans outcome)]
        exact .inr rfl

theorem Below.andThen {next deeper : α → Read β} (action : Read α)
    (second : ∀ value, Below (next value) (deeper value)) :
    Below (action >>= next) (action >>= deeper) :=
  (Below.refl action).bind second

theorem Below.followedBy {action deeper : Read α} (first : Below action deeper)
    (next : α → Read β) : Below (action >>= next) (deeper >>= next) :=
  first.bind fun value => .refl (next value)

theorem Below.withChildren {action deeper : Read α} (below : Below action deeper)
    (allowed : Bool) : Below (withChildren allowed action) (withChildren allowed deeper) := by
  intro reader
  unfold Read.withChildren
  rcases below { reader with childrenAllowed := allowed } with ⟨after, runsOut⟩ | same
  · rw [runsOut]
    exact .inl ⟨_, rfl⟩
  · rw [same]
    exact .inr rfl

/-! ## Expressions and blocks -/

/-- One more call does not change what the functions give that read expressions and
blocks. -/
structure Rises (fuel : Nat) : Prop where
  expression : ∀ bound, Below (expression fuel bound) (expression (fuel + 1) bound)
  operations : ∀ bound left, Below (operations fuel bound left) (operations (fuel + 1) bound left)
  unary : Below (unary fuel) (unary (fuel + 1))
  primary : Below (primary fuel) (primary (fuel + 1))
  call : ∀ name, Below (call fuel name) (call (fuel + 1) name)
  callArguments : Below (callArguments fuel) (callArguments (fuel + 1))
  childList : Below (childList fuel) (childList (fuel + 1))
  conditional : Below (conditional fuel) (conditional (fuel + 1))
  block : Below (block fuel) (block (fuel + 1))
  statementList : Below (statementList fuel) (statementList (fuel + 1))

section Step

variable {fuel : Nat}

theorem expression_rises (rises : Rises fuel) (bound : Nat) :
    Below (expression (fuel + 1) bound) (expression (fuel + 2) bound) := by
  unfold expression
  exact rises.unary.bind fun first => rises.operations bound first

theorem operations_rises (rises : Rises fuel) (bound : Nat) (left : Expr) :
    Below (operations (fuel + 1) bound left) (operations (fuel + 2) bound left) := by
  rw [operations, operations.eq_def (fuel + 2)]
  refine .andThen get fun reader => ?_
  cases reader.binaryOp? bound with
  | none => exact .refl _
  | some op =>
      refine .andThen advance fun _ => .andThen skipNewlines fun _ => ?_
      exact (rises.expression op.precedence).bind fun right => rises.operations bound _

theorem unary_rises (rises : Rises fuel) : Below (unary (fuel + 1)) (unary (fuel + 2)) := by
  unfold unary
  refine .andThen get fun reader => ?_
  cases reader.unaryOp? with
  | none => exact rises.primary
  | some found =>
      refine .andThen advance fun _ => .andThen get fun next => ?_
      cases next.negated? found.1 with
      | none => exact rises.primary.followedBy _
      | some token => exact .refl _

theorem primary_rises (rises : Rises fuel) : Below (primary (fuel + 1)) (primary (fuel + 2)) := by
  unfold primary
  refine .andThen get fun reader => ?_
  cases reader.current? with
  | none => exact .refl _
  | some token =>
      dsimp only
      split
      · refine .andThen advance fun _ => .andThen get fun next => ?_
        split
        · exact rises.call _
        · exact .refl _
      · exact .refl _
      · exact .refl _
      · exact .refl _
      · refine .andThen advance fun _ => .andThen skipNewlines fun _ => ?_
        exact ((rises.expression 0).withChildren true).followedBy _
      · exact rises.conditional
      · exact .refl _

theorem call_rises (rises : Rises fuel) (name : Ident) :
    Below (call (fuel + 1) name) (call (fuel + 2) name) := by
  unfold call
  refine .andThen (expect _) fun _ => .andThen skipNewlines fun _ => ?_
  refine rises.callArguments.bind fun arguments => .andThen (expect _) fun close => ?_
  refine .andThen get fun reader => ?_
  split
  · refine .andThen (expect _) fun _ => .andThen skipNewlines fun _ => ?_
    exact rises.childList.followedBy _
  · exact .refl _

theorem callArguments_rises (rises : Rises fuel) :
    Below (callArguments (fuel + 1)) (callArguments (fuel + 2)) := by
  rw [callArguments, callArguments.eq_def (fuel + 2)]
  refine .andThen get fun reader => ?_
  split
  · refine .andThen identifier fun label => .andThen (expect _) fun _ => ?_
    refine ((rises.expression 0).withChildren true).bind fun value => ?_
    refine .andThen skipNewlines fun _ => .andThen (eat _) fun more => ?_
    split
    · exact .andThen skipNewlines fun _ => rises.callArguments.followedBy _
    · exact .refl _
  · exact .refl _

theorem childList_rises (rises : Rises fuel) :
    Below (childList (fuel + 1)) (childList (fuel + 2)) := by
  rw [childList, childList.eq_def (fuel + 2)]
  refine .andThen get fun reader => ?_
  split
  · refine (rises.expression 0).bind fun child => .andThen get fun next => ?_
    split
    · exact .andThen skipNewlines fun _ => rises.childList.followedBy _
    · exact .refl _
  · exact .refl _

theorem conditional_rises (rises : Rises fuel) :
    Below (conditional (fuel + 1)) (conditional (fuel + 2)) := by
  unfold conditional
  refine .andThen (expect _) fun start => ?_
  refine ((rises.expression 0).withChildren false).bind fun condition => ?_
  refine rises.block.bind fun thenBlock => .andThen (eat _) fun more => ?_
  split
  · exact rises.block.followedBy _
  · exact .refl _

theorem block_rises (rises : Rises fuel) : Below (block (fuel + 1)) (block (fuel + 2)) := by
  unfold block
  refine Below.withChildren ?_ true
  refine .andThen (expect _) fun _ => .andThen skipNewlines fun _ => ?_
  refine rises.statementList.bind fun statements => .andThen (eat _) fun more => ?_
  split
  · exact (rises.expression 0).followedBy _
  · exact .refl _

theorem statementList_rises (rises : Rises fuel) :
    Below (statementList (fuel + 1)) (statementList (fuel + 2)) := by
  rw [statementList, statementList.eq_def (fuel + 2)]
  refine .andThen get fun reader => ?_
  split
  · refine (rises.expression 0).bind fun statement => .andThen get fun next => ?_
    split
    · exact .andThen skipNewlines fun _ => rises.statementList.followedBy _
    · exact .refl _
  · exact .refl _

end Step

theorem rises (fuel : Nat) : Rises fuel := by
  induction fuel with
  | zero => constructor <;> intros <;> exact below_of_exhausted _
  | succ fuel inductionHypothesis =>
      exact {
        expression := expression_rises inductionHypothesis
        operations := operations_rises inductionHypothesis
        unary := unary_rises inductionHypothesis
        primary := primary_rises inductionHypothesis
        call := call_rises inductionHypothesis
        callArguments := callArguments_rises inductionHypothesis
        childList := childList_rises inductionHypothesis
        conditional := conditional_rises inductionHypothesis
        block := block_rises inductionHypothesis
        statementList := statementList_rises inductionHypothesis }

/-! ## Functions and programs -/

theorem typeNames_rises (fuel : Nat) : Below (typeNames fuel) (typeNames (fuel + 1)) := by
  induction fuel with
  | zero => exact below_of_exhausted _
  | succ fuel inductionHypothesis =>
      rw [typeNames, typeNames.eq_def (fuel + 2)]
      refine .andThen (eat _) fun more => ?_
      split
      · exact .andThen (expect _) fun token => inductionHypothesis.followedBy _
      · exact .refl _

theorem typePath_rises (fuel : Nat) : Below (typePath fuel) (typePath (fuel + 1)) :=
  .andThen (expect _) fun _ => (typeNames_rises fuel).followedBy _

theorem parameter_rises (fuel : Nat) : Below (parameter fuel) (parameter (fuel + 1)) :=
  .andThen identifier fun _ => .andThen (expect _) fun _ => (typePath_rises fuel).followedBy _

theorem parameterList_rises (fuel : Nat) :
    Below (parameterList fuel) (parameterList (fuel + 1)) := by
  induction fuel with
  | zero => exact below_of_exhausted _
  | succ fuel inductionHypothesis =>
      rw [parameterList, parameterList.eq_def (fuel + 2)]
      refine .andThen get fun reader => ?_
      split
      · refine (parameter_rises fuel).bind fun first => .andThen (eat _) fun more => ?_
        split
        · exact .andThen skipNewlines fun _ => inductionHypothesis.followedBy _
        · exact .refl _
      · exact .refl _

theorem resultType_rises (fuel : Nat) : Below (resultType fuel) (resultType (fuel + 1)) := by
  refine .andThen (eat _) fun more => ?_
  split
  · exact (typePath_rises fuel).followedBy _
  · exact .refl _

theorem function_rises (fuel : Nat) : Below (function fuel) (function (fuel + 1)) := by
  refine .andThen (expect _) fun _ => .andThen identifier fun name => ?_
  refine .andThen (expect _) fun _ => .andThen skipNewlines fun _ => ?_
  refine (parameterList_rises fuel).bind fun parameters => .andThen (expect _) fun _ => ?_
  exact (resultType_rises fuel).bind fun resultType => (rises fuel).block.followedBy _

theorem item_rises (fuel : Nat) : Below (item fuel) (item (fuel + 1)) := by
  refine .andThen get fun reader => ?_
  split
  · exact .refl _
  · split
    · exact .refl _
    · split
      · exact .refl _
      · exact function_rises fuel

theorem itemList_rises (fuel : Nat) : Below (itemList fuel) (itemList (fuel + 1)) := by
  induction fuel with
  | zero => exact below_of_exhausted _
  | succ fuel inductionHypothesis =>
      rw [itemList, itemList.eq_def (fuel + 2)]
      refine (item_rises fuel).bind fun first => .andThen get fun reader => ?_
      split
      · exact .refl _
      · split
        · refine .andThen skipNewlines fun _ => .andThen get fun next => ?_
          split
          · exact .refl _
          · exact inductionHypothesis.followedBy _
        · exact .refl _

theorem program_rises (fuel : Nat) : Below (program fuel) (program (fuel + 1)) :=
  .andThen skipNewlines fun _ => (itemList_rises fuel).followedBy _

/-! ## Every large enough bound -/

/-- What a reading function gives for all large enough bounds. -/
def Gives (action : Nat → Read α) (reader : Reader) (value : α) (after : Reader) : Prop :=
  ∀ᶠ fuel in Filter.atTop, action fuel reader = .ok value after

section Gives

variable {action : Nat → Read α} {value : α}

theorem below_of_le (below : ∀ fuel, Below (action fuel) (action (fuel + 1))) {fuel more : Nat}
    (atMost : fuel ≤ more) : Below (action fuel) (action more) := by
  induction atMost with
  | refl => exact .refl _
  | step _ inductionHypothesis => exact inductionHypothesis.trans (below _)

theorem gives_of_eq_ok (below : ∀ fuel, Below (action fuel) (action (fuel + 1))) {fuel : Nat}
    (succeeds : action fuel reader = .ok value after) : Gives action reader value after := by
  refine Filter.eventually_atTop.mpr ⟨fuel, fun more atMost => ?_⟩
  rcases below_of_le below atMost reader with ⟨_, runsOut⟩ | same
  · rw [succeeds] at runsOut
    cases runsOut
  · rw [← same, succeeds]

theorem gives_of_succ (eventually : ∀ᶠ fuel in Filter.atTop,
    action (fuel + 1) reader = .ok value after) : Gives action reader value after := by
  obtain ⟨fuel, succeeds⟩ := Filter.eventually_atTop.mp eventually
  refine Filter.eventually_atTop.mpr ⟨fuel + 1, fun more atMost => ?_⟩
  have enough := succeeds (more - 1) (by omega)
  rwa [Nat.sub_add_cancel (by omega)] at enough

/-- A bound that is not exhausted is large enough. -/
theorem eq_ok_iff_gives (below : ∀ fuel, Below (action fuel) (action (fuel + 1)))
    {limit fuel : Nat} (leaves : Leaves limit (action fuel) reader) :
    action fuel reader = .ok value after ↔ Gives action reader value after := by
  constructor
  · exact gives_of_eq_ok below
  · intro gives
    obtain ⟨enough, succeeds⟩ := Filter.eventually_atTop.mp gives
    rcases below_of_le below (Nat.le_max_left fuel enough) reader with ⟨_, runsOut⟩ | same
    · unfold Leaves at leaves
      rw [runsOut] at leaves
      exact leaves.elim
    · rw [same]
      exact succeeds _ (Nat.le_max_right fuel enough)

end Gives

end Read

namespace Reader

variable {reader after : Reader}

theorem readExpression_eq_ok_iff {tree : Expr} : reader.readExpression = (.ok tree, after) ↔
    Read.Gives (Read.expression · 0) reader tree after := by
  unfold readExpression
  rw [Read.run_eq_ok_iff]
  exact Read.eq_ok_iff_gives (fun fuel => (Read.rises fuel).expression 0)
    ((Read.adequate _).expression 0 reader (allows_budget reader (by decide)))

theorem readProgram_eq_ok_iff {program : Module} : reader.readProgram = (.ok program, after) ↔
    Read.Gives Read.program reader program after := by
  unfold readProgram
  rw [Read.run_eq_ok_iff]
  exact Read.eq_ok_iff_gives Read.program_rises
    (Read.leaves_program reader (allows_budget reader (by decide)))

end Reader

end ScalarLang
