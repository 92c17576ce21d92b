import Mathlib.Logic.Basic
import Mathlib.Tactic.ByContra
import ScalarLang.Proofs.Execution.Evaluator
import ScalarLang.Proofs.Outcome

/-!
# Agreement of runs

Two runs agree if they print the same integers and either end in related values or
stop at the same trap.  An operator on values agrees with the instruction that is
selected for it: a truth value is a byte that is zero or one, and an integer its two's
complement word.
-/

set_option autoImplicit false

namespace ScalarLang

/-! ## Outcomes -/

section Agrees

variable {α β γ δ : Type} {Related : α → β → Prop} {Next : γ → δ → Prop}

def Agrees (Related : α → β → Prop) :
    EStateM.Result Stop (List Int64) α → EStateM.Result Stop (List Int64) β → Prop
  | .ok left printed, .ok right output => Related left right ∧ printed = output
  | .error (.trap left) printed, .error (.trap right) output => left = right ∧ printed = output
  | _, _ => False

theorem agrees_error_iff {left right : Stop} {printed output : List Int64} :
    Agrees Related (.error left printed) (.error right output) ↔
      ∃ trap, left = .trap trap ∧ right = .trap trap ∧ printed = output := by
  cases left with
  | trap first =>
      cases right with
      | trap second => simp [Agrees, eq_comm]
      | stuck => simp [Agrees]
      | exhausted => simp [Agrees]
  | stuck => simp [Agrees]
  | exhausted => simp [Agrees]

theorem Agrees.bind {left : Run α} {right : Run β} {leftNext : α → Run γ}
    {rightNext : β → Run δ} {output : List Int64}
    (agrees : Agrees Related (left output) (right output))
    (next : ∀ value datum printed, Related value datum →
      Agrees Next (leftNext value printed) (rightNext datum printed)) :
    Agrees Next ((left >>= leftNext) output) ((right >>= rightNext) output) := by
  cases leftOutcome : left output with
  | ok value printed =>
      cases rightOutcome : right output with
      | ok datum output' =>
          rw [leftOutcome, rightOutcome] at agrees
          obtain ⟨related, rfl⟩ := agrees
          rw [bind_of_ok leftOutcome, bind_of_ok rightOutcome]
          exact next value datum printed related
      | error stop output' =>
          rw [leftOutcome, rightOutcome] at agrees
          exact agrees.elim
  | error stop printed =>
      cases rightOutcome : right output with
      | ok datum output' =>
          rw [leftOutcome, rightOutcome] at agrees
          cases stop <;> exact agrees.elim
      | error other output' =>
          rw [leftOutcome, rightOutcome] at agrees
          rw [bind_of_error leftOutcome, bind_of_error rightOutcome]
          exact agrees_error_iff.mpr (agrees_error_iff.mp agrees)

theorem Agrees.mono {Weaker : α → β → Prop} (implies : ∀ value datum, Related value datum →
      Weaker value datum) {left : EStateM.Result Stop (List Int64) α}
    {right : EStateM.Result Stop (List Int64) β} (agrees : Agrees Related left right) :
    Agrees Weaker left right := by
  cases left with
  | ok value printed =>
      cases right with
      | ok datum output => exact ⟨implies value datum agrees.1, agrees.2⟩
      | error stop output => exact agrees.elim
  | error stop printed =>
      cases right with
      | ok datum output => cases stop <;> exact agrees.elim
      | error other output => exact agrees_error_iff.mpr (agrees_error_iff.mp agrees)

end Agrees

/-! ## Values -/

def Value.lowered : Value → Datum
  | .int value => .i64 value.toBitVec
  | .float value => .f64 value
  | .bool value => .ofBool value

@[simp]
theorem Value.type_lowered (value : Value) : value.lowered.type = value.type.lowered := by
  cases value <;> rfl

/-! ## Integers -/

section Integers

variable (lhs rhs : Int64)

theorem toBitVec_ofInt_toInt (operand : Int64) : BitVec.ofInt 64 operand.toInt = operand.toBitVec :=
  BitVec.ofInt_toInt

theorem toBitVec_ofInt_add :
    (Int64.ofInt (lhs.toInt + rhs.toInt)).toBitVec = lhs.toBitVec + rhs.toBitVec := by
  rw [Int64.toBitVec_ofInt, BitVec.ofInt_add, toBitVec_ofInt_toInt, toBitVec_ofInt_toInt]

theorem toBitVec_ofInt_sub :
    (Int64.ofInt (lhs.toInt - rhs.toInt)).toBitVec = lhs.toBitVec - rhs.toBitVec := by
  rw [Int64.toBitVec_ofInt, Int.sub_eq_add_neg, BitVec.ofInt_add, BitVec.ofInt_neg,
    toBitVec_ofInt_toInt, toBitVec_ofInt_toInt, BitVec.sub_eq_add_neg]

theorem toBitVec_ofInt_mul :
    (Int64.ofInt (lhs.toInt * rhs.toInt)).toBitVec = lhs.toBitVec * rhs.toBitVec := by
  rw [Int64.toBitVec_ofInt, BitVec.ofInt_mul, toBitVec_ofInt_toInt, toBitVec_ofInt_toInt]

theorem toBitVec_ofInt_neg (operand : Int64) :
    (Int64.ofInt (-operand.toInt)).toBitVec = -operand.toBitVec := by
  rw [Int64.toBitVec_ofInt, BitVec.ofInt_neg, toBitVec_ofInt_toInt]

theorem toInt_eq_zero_iff : rhs.toInt = 0 ↔ rhs.toBitVec = 0#64 := by
  rw [← BitVec.toInt_inj]
  exact Iff.rfl

theorem toBitVec_eq_iff : lhs.toBitVec = rhs.toBitVec ↔ lhs.toInt = rhs.toInt :=
  BitVec.toInt_inj.symm

/-- A quotient does not fit exactly if the least integer is divided by minus one. -/
theorem maxValue_lt_tdiv_iff :
    Int64.maxValue.toInt < lhs.toInt.tdiv rhs.toInt ↔
      lhs.toBitVec = BitVec.intMin 64 ∧ rhs.toBitVec = -1#64 := by
  constructor
  · intro large
    by_contra other
    have fits := BitVec.toInt_sdiv_of_ne_or_ne lhs.toBitVec rhs.toBitVec (not_and_or.mp other)
    have bounded := BitVec.toInt_lt (x := lhs.toBitVec.sdiv rhs.toBitVec)
    rw [fits] at bounded
    have greatest : Int64.maxValue.toInt = 0x7FFFFFFFFFFFFFFF := by decide
    change Int64.maxValue.toInt < lhs.toBitVec.toInt.tdiv rhs.toBitVec.toInt at large
    omega
  · rintro ⟨isLeast, isMinusOne⟩
    change Int64.maxValue.toInt < lhs.toBitVec.toInt.tdiv rhs.toBitVec.toInt
    rw [isLeast, isMinusOne]
    decide

theorem toBitVec_ofInt_tdiv (fits : ¬ Int64.maxValue.toInt < lhs.toInt.tdiv rhs.toInt) :
    (Int64.ofInt (lhs.toInt.tdiv rhs.toInt)).toBitVec = lhs.toBitVec.sdiv rhs.toBitVec := by
  rw [maxValue_lt_tdiv_iff] at fits
  have quotient := BitVec.toInt_sdiv_of_ne_or_ne lhs.toBitVec rhs.toBitVec (not_and_or.mp fits)
  rw [Int64.toBitVec_ofInt]
  change BitVec.ofInt 64 (lhs.toBitVec.toInt.tdiv rhs.toBitVec.toInt) = _
  rw [← quotient, BitVec.ofInt_toInt]

theorem toBitVec_ofInt_tmod :
    (Int64.ofInt (lhs.toInt.tmod rhs.toInt)).toBitVec = lhs.toBitVec.srem rhs.toBitVec := by
  rw [Int64.toBitVec_ofInt]
  change BitVec.ofInt 64 (lhs.toBitVec.toInt.tmod rhs.toBitVec.toInt) = _
  rw [← BitVec.toInt_srem, BitVec.ofInt_toInt]

end Integers

/-! ## Operators -/

section Operators

variable {host : Host} {frame : Frame} {lhs rhs operand : Ir.Value} {selected : Ir.Op}

theorem Frame.read_eq {datum : Datum} (held : frame.values operand = some datum) :
    frame.read operand = pure datum := by
  rw [Frame.read, held]
  rfl

/-- A value of the language is related to the value of the intermediate code that
stands for it, of a type. -/
def Represents (type : Ir.Ty) (value : Value) (datum : Datum) : Prop :=
  datum = value.lowered ∧ value.type.lowered = type

theorem UnaryOp.eval_agrees {op : UnaryOp} {value : Value}
    (selects : op.select? value.type.lowered operand = some selected)
    (held : frame.values operand = some value.lowered) (output : List Int64) :
    Agrees (Represents value.type.lowered) (Run.ofExcept (op.eval host value) output)
      (frame.compute host selected output) := by
  cases op with
  | not =>
      cases value with
      | int number =>
          cases selects
          simp only [Frame.compute, Frame.read_eq held]
          exact ⟨⟨congrArg Datum.i64 Int64.toBitVec_not.symm, rfl⟩, rfl⟩
      | float number => cases selects
      | bool truth =>
          cases selects
          simp only [Frame.compute, Frame.read_eq held]
          cases truth <;> exact ⟨⟨rfl, rfl⟩, rfl⟩
  | negate =>
      cases value with
      | int number =>
          cases selects
          simp only [Frame.compute, Frame.read_eq held]
          exact ⟨⟨congrArg Datum.i64 (toBitVec_ofInt_neg number).symm, rfl⟩, rfl⟩
      | float number =>
          cases selects
          simp only [Frame.compute, Frame.read_eq held]
          exact ⟨⟨rfl, rfl⟩, rfl⟩
      | bool truth => cases selects

theorem BinaryOp.evalInts_of_comparison {op : BinaryOp} {comparison : Ir.Comparison}
    (compares : op.comparison? = some comparison) (left right : Int64) :
    op.evalInts left.toInt right.toInt =
      .ok (.bool (comparison.onBits left.toBitVec right.toBitVec)) := by
  have sameInt : (left.toBitVec == right.toBitVec) = decide (left.toInt = right.toInt) := by
    rw [Bool.eq_iff_iff, beq_iff_eq, decide_eq_true_iff]
    exact toBitVec_eq_iff left right
  cases op with
  | equal => cases compares; rw [evalInts, Ir.Comparison.onBits, sameInt]
  | notEqual =>
      cases compares
      rw [evalInts, Ir.Comparison.onBits, bne, sameInt, decide_not]
  | less => cases compares; rw [evalInts, Ir.Comparison.onBits, BitVec.slt_eq_decide]; rfl
  | lessEqual => cases compares; rw [evalInts, Ir.Comparison.onBits, BitVec.sle_eq_decide]; rfl
  | greater => cases compares; rw [evalInts, Ir.Comparison.onBits, BitVec.slt_eq_decide]; rfl
  | greaterEqual =>
      cases compares; rw [evalInts, Ir.Comparison.onBits, BitVec.sle_eq_decide]; rfl
  | _ => cases compares

theorem BinaryOp.evalInts_of_intOp {op : BinaryOp} {int : Ir.BinaryOp}
    (computes : op.intOp? = some int) (left right : Int64) (output : List Int64) :
    Agrees (Represents .i64) (Run.ofExcept (op.evalInts left.toInt right.toInt) output)
      (Run.ofExcept ((int.onBits left.toBitVec right.toBitVec).map .i64) output) := by
  cases op with
  | add =>
      cases computes
      exact ⟨⟨congrArg Datum.i64 (toBitVec_ofInt_add left right).symm, rfl⟩, rfl⟩
  | sub =>
      cases computes
      exact ⟨⟨congrArg Datum.i64 (toBitVec_ofInt_sub left right).symm, rfl⟩, rfl⟩
  | mul =>
      cases computes
      exact ⟨⟨congrArg Datum.i64 (toBitVec_ofInt_mul left right).symm, rfl⟩, rfl⟩
  | div =>
      cases computes
      simp only [evalInts, Ir.BinaryOp.onBits, ← toInt_eq_zero_iff, ← maxValue_lt_tdiv_iff]
      by_cases isZero : right.toInt = 0
      · rw [if_pos isZero, if_pos isZero]
        exact ⟨rfl, rfl⟩
      · rw [if_neg isZero, if_neg isZero]
        by_cases large : Int64.maxValue.toInt < left.toInt.tdiv right.toInt
        · rw [if_pos large, if_pos large]
          exact ⟨rfl, rfl⟩
        · rw [if_neg large, if_neg large]
          exact ⟨⟨congrArg Datum.i64 (toBitVec_ofInt_tdiv left right large).symm, rfl⟩, rfl⟩
  | rem =>
      cases computes
      simp only [evalInts, Ir.BinaryOp.onBits, ← toInt_eq_zero_iff]
      by_cases isZero : right.toInt = 0
      · rw [if_pos isZero, if_pos isZero]
        exact ⟨rfl, rfl⟩
      · rw [if_neg isZero, if_neg isZero]
        exact ⟨⟨congrArg Datum.i64 (toBitVec_ofInt_tmod left right).symm, rfl⟩, rfl⟩
  | _ => cases computes

/-- An operator between two values agrees with the instruction that is selected for it. -/
theorem BinaryOp.eval_agrees {op : BinaryOp} {left right : Value} {type : Ir.Ty}
    (selects : op.select? left.type.lowered lhs rhs = some (selected, type))
    (sameType : left.type = right.type) (leftHeld : frame.values lhs = some left.lowered)
    (rightHeld : frame.values rhs = some right.lowered) (output : List Int64) :
    Agrees (Represents type) (Run.ofExcept (op.eval host left right) output)
      (frame.compute host selected output) := by
  cases left with
  | int left =>
      obtain ⟨right, rfl⟩ : ∃ number, right = .int number := by
        cases right with
        | int number => exact ⟨number, rfl⟩
        | float number => cases sameType
        | bool truth => cases sameType
      simp only [Value.type, ScalarType.lowered, select?] at selects
      cases computes : op.intOp? with
      | some int =>
          simp only [computes] at selects
          cases selects
          simp only [Frame.compute, Frame.read_eq leftHeld, Frame.read_eq rightHeld]
          exact evalInts_of_intOp computes left right output
      | none =>
          cases compares : op.comparison? with
          | none => simp [computes, compares] at selects
          | some comparison =>
              simp only [computes, compares] at selects
              cases selects
              simp only [Frame.compute, Frame.read_eq leftHeld, Frame.read_eq rightHeld]
              rw [eval, evalInts_of_comparison compares]
              exact ⟨⟨rfl, rfl⟩, rfl⟩
  | float left =>
      obtain ⟨right, rfl⟩ : ∃ number, right = .float number := by
        cases right with
        | int number => cases sameType
        | float number => exact ⟨number, rfl⟩
        | bool truth => cases sameType
      cases op <;> cases selects <;>
        simp only [Frame.compute, Frame.read_eq leftHeld, Frame.read_eq rightHeld] <;>
        exact ⟨⟨rfl, rfl⟩, rfl⟩
  | bool left =>
      obtain ⟨right, rfl⟩ : ∃ truth, right = .bool truth := by
        cases right with
        | int number => cases sameType
        | float number => cases sameType
        | bool truth => exact ⟨truth, rfl⟩
      cases op <;> cases selects <;>
        simp only [Frame.compute, Frame.read_eq leftHeld, Frame.read_eq rightHeld] <;>
        cases left <;> cases right <;> exact ⟨⟨rfl, rfl⟩, rfl⟩

end Operators

end ScalarLang
