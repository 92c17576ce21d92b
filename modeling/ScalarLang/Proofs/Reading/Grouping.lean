import Mathlib.Logic.ExistsUnique
import ScalarLang.Reader.Expression

/-!
# Groupings of operations

An expression without parentheses around it is a row of operands with an operator
between each two.  A grouping says which operator takes which part of the row.  In a
well-grouped one no operation gives its operands to an operator that binds looser,
and operators of one level group to the left; every row has such a grouping.
-/

set_option autoImplicit false

namespace ScalarLang

/-- Operands with the operations on them.  An operand may be a binary expression in
parentheses, which the row around it does not see. -/
inductive Grouping where
  | operand (tree : Expr)
  | operation (op : BinaryOp) (left right : Grouping)

namespace Grouping

def tree : Grouping → Expr
  | .operand tree => tree
  | .operation op left right =>
    .binary op left.tree right.tree (left.tree.span.union right.tree.span)

/-! ## The row of a grouping -/

def first : Grouping → Expr
  | .operand tree => tree
  | .operation _ left _ => left.first

def others : Grouping → List (BinaryOp × Expr)
  | .operand _ => []
  | .operation op left right => left.others ++ (op, right.first) :: right.others

/-! ## Precedence -/

def root? : Grouping → Option BinaryOp
  | .operand _ => none
  | .operation op _ _ => some op

/-- An operation on the left binds at least as tight as the one above it, and one on
the right binds tighter. -/
def WellGrouped : Grouping → Prop
  | .operand _ => True
  | .operation op left right =>
    (∀ leftOp ∈ left.root?, op.precedence ≤ leftOp.precedence) ∧
    (∀ rightOp ∈ right.root?, op.precedence < rightOp.precedence) ∧
    left.WellGrouped ∧ right.WellGrouped

/-! ## The grouping of a row -/

/-- The grouping of a row with one more operation at its end, which takes as much to
its left as does not bind looser. -/
def push (op : BinaryOp) (operand : Expr) : Grouping → Grouping
  | .operand tree => .operation op (.operand tree) (.operand operand)
  | .operation root left right =>
    if op.precedence ≤ root.precedence then
      .operation op (.operation root left right) (.operand operand)
    else
      .operation root left (right.push op operand)

def pushAll : Grouping → List (BinaryOp × Expr) → Grouping
  | grouping, [] => grouping
  | grouping, next :: more => (grouping.push next.1 next.2).pushAll more

variable {op : BinaryOp} {operand : Expr}

theorem first_push (grouping : Grouping) : (grouping.push op operand).first = grouping.first := by
  cases grouping with
  | operand tree => rfl
  | operation root left right =>
      unfold push
      split <;> rfl

theorem others_push (grouping : Grouping) :
    (grouping.push op operand).others = grouping.others ++ [(op, operand)] := by
  induction grouping with
  | operand tree => rfl
  | operation root left right _ inductionHypothesis =>
      unfold push
      split
      · rfl
      · simp [others, first_push, inductionHypothesis]

theorem root?_push {bound : Nat} {grouping : Grouping} (tight : bound < op.precedence)
    (above : ∀ root ∈ grouping.root?, bound < root.precedence) :
    ∀ root ∈ (grouping.push op operand).root?, bound < root.precedence := by
  intro root isRoot
  cases grouping with
  | operand tree =>
      cases isRoot
      exact tight
  | operation top left right =>
      unfold push at isRoot
      split at isRoot
      · cases isRoot
        exact tight
      · exact above root isRoot

theorem WellGrouped.push {grouping : Grouping} (grouped : grouping.WellGrouped) :
    (grouping.push op operand).WellGrouped := by
  induction grouping with
  | operand tree => simp [Grouping.push, WellGrouped, root?]
  | operation root left right _ inductionHypothesis =>
      unfold Grouping.push
      split
      · rename_i looser
        refine ⟨?_, by simp [root?], grouped, trivial⟩
        intro leftOp isRoot
        cases isRoot
        exact looser
      · rename_i tighter
        obtain ⟨onLeft, onRight, groupedLeft, groupedRight⟩ := grouped
        exact ⟨onLeft, root?_push (by omega) onRight, groupedLeft,
          inductionHypothesis groupedRight⟩

theorem pushAll_spec (operations : List (BinaryOp × Expr)) : ∀ {grouping : Grouping},
    grouping.WellGrouped →
    (grouping.pushAll operations).first = grouping.first ∧
      (grouping.pushAll operations).others = grouping.others ++ operations ∧
      (grouping.pushAll operations).WellGrouped := by
  induction operations with
  | nil =>
      intro grouping grouped
      exact ⟨rfl, (List.append_nil _).symm, grouped⟩
  | cons operation operations inductionHypothesis =>
      intro grouping grouped
      have pushed : (grouping.push operation.1 operation.2).WellGrouped := grouped.push
      obtain ⟨isFirst, areOthers, groupedAll⟩ := inductionHypothesis pushed
      refine ⟨isFirst.trans (first_push grouping), areOthers.trans ?_, groupedAll⟩
      rw [others_push, List.append_assoc]
      rfl

/-! ## There is only one -/

theorem push_eq_of_tighter {grouping : Grouping}
    (tighter : ∀ root ∈ grouping.root?, op.precedence ≤ root.precedence) :
    grouping.push op operand = .operation op grouping (.operand operand) := by
  cases grouping with
  | operand tree => rfl
  | operation root left right =>
      unfold push
      rw [if_pos (tighter root rfl)]

/-- Operations that bind tighter than the last one only change its right operand. -/
theorem pushAll_operation {left : Grouping} {operations : List (BinaryOp × Expr)}
    (tighter : ∀ operation ∈ operations, op.precedence < operation.1.precedence) :
    ∀ right : Grouping, (Grouping.operation op left right).pushAll operations =
      .operation op left (right.pushAll operations) := by
  induction operations with
  | nil =>
      intro right
      rfl
  | cons operation operations inductionHypothesis =>
      intro right
      have notLooser : ¬ operation.1.precedence ≤ op.precedence :=
        Nat.not_le.mpr (tighter operation (.head operations))
      simp only [pushAll, push, if_neg notLooser]
      exact inductionHypothesis (fun other member => tighter other (.tail _ member)) _

theorem pushAll_append (first second : List (BinaryOp × Expr)) : ∀ grouping : Grouping,
    grouping.pushAll (first ++ second) = (grouping.pushAll first).pushAll second := by
  induction first with
  | nil =>
      intro grouping
      rfl
  | cons operation first inductionHypothesis =>
      intro grouping
      exact inductionHypothesis (grouping.push operation.1 operation.2)

theorem WellGrouped.tighter_others {bound : Nat} {grouping : Grouping}
    (grouped : grouping.WellGrouped) (tight : ∀ root ∈ grouping.root?, bound < root.precedence) :
    ∀ operation ∈ grouping.others, bound < operation.1.precedence := by
  induction grouping with
  | operand tree => simp [others]
  | operation root left right ofLeft ofRight =>
      obtain ⟨onLeft, onRight, groupedLeft, groupedRight⟩ := grouped
      have tightRoot : bound < root.precedence := tight root rfl
      intro operation member
      rcases List.mem_append.mp member with member | member
      · refine ofLeft groupedLeft ?_ operation member
        intro leftRoot isRoot
        exact Nat.lt_of_lt_of_le tightRoot (onLeft leftRoot isRoot)
      · rcases List.mem_cons.mp member with rfl | member
        · exact tightRoot
        · refine ofRight groupedRight ?_ operation member
          intro rightRoot isRoot
          exact Nat.lt_trans tightRoot (onRight rightRoot isRoot)

theorem WellGrouped.pushAll_eq {grouping : Grouping} (grouped : grouping.WellGrouped) :
    (Grouping.operand grouping.first).pushAll grouping.others = grouping := by
  induction grouping with
  | operand tree => rfl
  | operation root left right ofLeft ofRight =>
      obtain ⟨onLeft, onRight, groupedLeft, groupedRight⟩ := grouped
      simp only [others, first]
      rw [pushAll_append, ofLeft groupedLeft, pushAll, push_eq_of_tighter onLeft,
        pushAll_operation (groupedRight.tighter_others onRight), ofRight groupedRight]

theorem existsUnique_wellGrouped (first : Expr) (others : List (BinaryOp × Expr)) :
    ∃! grouping : Grouping,
      grouping.first = first ∧ grouping.others = others ∧ grouping.WellGrouped := by
  refine ⟨(Grouping.operand first).pushAll others, pushAll_spec others trivial, ?_⟩
  rintro grouping ⟨rfl, rfl, grouped⟩
  exact grouped.pushAll_eq.symm

end Grouping

end ScalarLang
