import ScalarLang.Proofs.Reading.Lookahead

/-!
# Readers in lockstep

Every reading function does the same on two readers that look alike, as far as they do.
The proofs follow the functions: a choice looks at the next token only, which is alike,
and the spans that go into a tree are unions of spans of tokens that were passed.
-/

set_option autoImplicit false

namespace ScalarLang

variable {change : Nat → Nat}

/-! ## Spans of trees that are the same up to offsets -/

theorem Span.union_alike (monotone : Monotone change) {left otherLeft right otherRight : Span}
    (sameLeft : left.mapOffsets change = otherLeft.mapOffsets change)
    (sameRight : right.mapOffsets change = otherRight.mapOffsets change) :
    (left.union right).mapOffsets change = (otherLeft.union otherRight).mapOffsets change := by
  rw [Span.union_mapOffsets monotone, Span.union_mapOffsets monotone, sameLeft, sameRight]

theorem Expr.span_alike {tree other : Expr}
    (same : tree.mapOffsets change = other.mapOffsets change) :
    tree.span.mapOffsets change = other.span.mapOffsets change := by
  rw [← Expr.span_mapOffsets, ← Expr.span_mapOffsets, same]

namespace Read

open Reader

/-! ## Expressions and blocks -/

/-- The functions that read expressions and blocks do the same on readers that look
alike. -/
structure Lockstep (change : Nat → Nat) (fuel : Nat) : Prop where
  expression : ∀ bound,
    Local change (Expr.mapOffsets change) (expression fuel bound) (expression fuel bound)
  operations : ∀ bound {left otherLeft : Expr},
    left.mapOffsets change = otherLeft.mapOffsets change →
    Local change (Expr.mapOffsets change) (operations fuel bound left)
      (operations fuel bound otherLeft)
  unary : Local change (Expr.mapOffsets change) (unary fuel) (unary fuel)
  primary : Local change (Expr.mapOffsets change) (primary fuel) (primary fuel)
  call : ∀ {name otherName : Ident}, name.mapOffsets change = otherName.mapOffsets change →
    Local change (Expr.mapOffsets change) (call fuel name) (call fuel otherName)
  callArguments :
    Local change (argumentsMapOffsets change) (callArguments fuel) (callArguments fuel)
  childList : Local change (linesMapOffsets change) (childList fuel) (childList fuel)
  conditional : Local change (Expr.mapOffsets change) (conditional fuel) (conditional fuel)
  block : LocalPast change (Block.mapOffsets change) (block fuel) (block fuel)
  statementList : Local change (linesMapOffsets change) (statementList fuel) (statementList fuel)

section Step

variable {fuel : Nat}

theorem expression_lockstep (lockstep : Lockstep change fuel) (bound : Nat) :
    Local change (Expr.mapOffsets change) (expression (fuel + 1) bound)
      (expression (fuel + 1) bound) := by
  unfold expression
  exact lockstep.unary.bind fun same => lockstep.operations bound same

theorem operations_lockstep (monotone : Monotone change) (lockstep : Lockstep change fuel)
    (bound : Nat) {left otherLeft : Expr}
    (sameLeft : left.mapOffsets change = otherLeft.mapOffsets change) :
    Local change (Expr.mapOffsets change) (operations (fuel + 1) bound left)
      (operations (fuel + 1) bound otherLeft) := by
  intro known count reader other alike
  unfold operations
  apply follows_get
  rw [← alike.binaryOp?_eq]
  cases found : reader.binaryOp? bound with
  | none => exact follows_pure sameLeft alike
  | some op =>
      obtain ⟨isNext, -⟩ := binaryOp?_eq_some_iff.mp found
      obtain ⟨sign, present, -⟩ := nextOp?_eq_some_iff.mp isNext
      refine ((follows_advance present alike).bind_same fun alike => ?_).forget
      refine (local_skipNewlines alike).bind_same fun alike => ?_
      refine (lockstep.expression op.precedence alike).bind fun sameRight alike => ?_
      refine lockstep.operations bound ?_ alike
      simp only [Expr.mapOffsets, sameLeft, sameRight,
        Span.union_alike monotone (Expr.span_alike sameLeft) (Expr.span_alike sameRight)]

/-- The constant of an integer token, which the value of its digits decides. -/
theorem constant_lockstep {known : Prop} {count : Nat} {reader other : Reader}
    {span otherSpan : Span} {digits otherDigits : Token} (value? : Option Int64)
    (present : reader.current? = some digits)
    (like : digits.Like change otherDigits) (alike : reader.Alike change known count other)
    (sameSpan : span.mapOffsets change = otherSpan.mapOffsets change) :
    Follows change (Expr.mapOffsets change) known count
      (do
        let value ← integerValue value? digits
        advance
        return .literal (.integer value) span)
      (do
        let value ← integerValue value? otherDigits
        advance
        return .literal (.integer value) otherSpan) reader other := by
  refine (local_integerValue value? like alike).bind_of_ok fun isValue sameValue alike => ?_
  obtain ⟨-, rfl⟩ := integerValue_eq_ok_iff.mp isValue
  refine ((follows_advance present alike).bind_same fun alike => follows_pure ?_ alike).forget
  simp only [id_eq] at sameValue
  simp only [Expr.mapOffsets, sameSpan, sameValue]

theorem unary_lockstep (monotone : Monotone change) (lockstep : Lockstep change fuel) :
    Local change (Expr.mapOffsets change) (unary (fuel + 1)) (unary (fuel + 1)) := by
  intro known count reader other alike
  unfold unary
  apply follows_get
  cases found : reader.unaryOp? with
  | none =>
      rw [alike.unaryOp?_of_none found]
      exact lockstep.primary alike
  | some both =>
      obtain ⟨op, span⟩ := both
      obtain ⟨sign, present, -, -⟩ := unaryOp?_eq_some_iff.mp found
      obtain ⟨otherSpan, isOther, sameSpan⟩ := alike.unaryOp?_of_some found
      rw [isOther]
      refine ((follows_advance present alike).bind_same fun alike => follows_get ?_).forget
      rename_i middle _
      cases negated : middle.negated? op with
      | none =>
          rw [alike.negated?_of_none negated]
          refine (lockstep.primary alike).bind fun sameOperand alike => follows_pure ?_ alike
          simp only [Expr.mapOffsets, sameOperand,
            Span.union_alike monotone sameSpan (Expr.span_alike sameOperand)]
      | some digits =>
          obtain ⟨otherDigits, isDigits, like⟩ := alike.negated?_of_some negated
          obtain ⟨-, presentDigits, -⟩ := negated?_eq_some_iff.mp negated
          rw [isDigits]
          simp only [← like.text]
          exact constant_lockstep _ presentDigits like alike
            (Span.union_alike monotone sameSpan like.span)

theorem primary_lockstep (monotone : Monotone change) (lockstep : Lockstep change fuel) :
    Local change (Expr.mapOffsets change) (primary (fuel + 1)) (primary (fuel + 1)) := by
  intro known count reader other alike
  unfold primary
  apply follows_get
  cases present : reader.current? with
  | none =>
      rw [alike.current_of_none present]
      exact past_unexpected.local alike
  | some token =>
      obtain ⟨otherToken, isOther, like⟩ := alike.current_of_some present
      have sameCall := lockstep.call like.ident_eq
      simp only [isOther, ← like.kind, ← like.text]
      split
      · refine ((follows_advance present alike).bind_same fun alike => follows_get ?_).forget
        rw [← alike.isAt_eq]
        split
        · simp only [Token.ident, ← like.text] at sameCall
          exact sameCall alike
        · exact follows_pure (by simp only [Expr.mapOffsets, like.span]) alike
      · exact constant_lockstep _ present like alike like.span
      · refine ((follows_advance present alike).bind_same fun alike => follows_pure ?_ alike).forget
        simp only [Expr.mapOffsets, like.span]
      · refine ((follows_advance present alike).bind_same fun alike => follows_pure ?_ alike).forget
        simp only [Expr.mapOffsets, like.span]
      · refine ((follows_advance present alike).bind_same fun alike => ?_).forget
        refine (local_skipNewlines alike).bind_same fun alike => ?_
        refine ((lockstep.expression 0).withChildren true alike).bind fun sameInner alike => ?_
        refine (local_skipNewlines alike).bind_same fun alike => ?_
        refine ((past_expect _).local alike).bind fun sameClose alike => follows_pure ?_ alike
        have likeClose := Token.like_of_outline_eq sameClose
        rw [Expr.withSpan_mapOffsets, Expr.withSpan_mapOffsets, sameInner,
          Span.union_alike monotone like.span likeClose.span]
      · exact lockstep.conditional alike
      · exact past_unexpected.local alike

/-- The end of a call with children is where the reader passed its last token. -/
theorem call_lockstep (monotone : Monotone change) (lockstep : Lockstep change fuel)
    {name otherName : Ident} (sameName : name.mapOffsets change = otherName.mapOffsets change) :
    Local change (Expr.mapOffsets change) (call (fuel + 1) name) (call (fuel + 1) otherName) := by
  have sameNameSpan : name.span.mapOffsets change = otherName.span.mapOffsets change :=
    congrArg Ident.span sameName
  intro known count reader other alike
  unfold call
  refine ((past_expect _).local alike).bind fun _ alike => ?_
  refine (local_skipNewlines alike).bind_same fun alike => ?_
  refine (lockstep.callArguments alike).bind fun sameArguments alike => ?_
  refine ((past_expect _).local alike).bind fun sameClose alike => follows_get ?_
  have sameSpan := Span.union_alike monotone sameNameSpan (Token.like_of_outline_eq sameClose).span
  rw [← alike.isAt_eq, ← alike.childrenAllowed]
  split
  · refine ((past_expect _).local alike).bind fun _ alike => ?_
    refine (local_skipNewlines alike).bind_same fun alike => ?_
    refine (lockstep.childList alike).bind fun sameChildren alike => ?_
    refine ((past_expect _ alike).bind fun _ alike => follows_get ?_).forget
    refine follows_pure ?_ alike
    simp only [Expr.mapOffsets, childrenMapOffsets, sameName, sameArguments, sameChildren,
      Span.union_alike monotone sameSpan (alike.previous trivial)]
  · refine follows_pure ?_ alike
    simp only [Expr.mapOffsets, sameName, sameArguments, sameSpan, childrenMapOffsets]

theorem callArguments_lockstep (lockstep : Lockstep change fuel) :
    Local change (argumentsMapOffsets change) (callArguments (fuel + 1))
      (callArguments (fuel + 1)) := by
  intro known count reader other alike
  unfold callArguments
  apply follows_get
  rw [← alike.isAt_eq]
  split
  · refine (past_identifier.local alike).bind fun sameLabel alike => ?_
    refine ((past_expect _).local alike).bind fun _ alike => ?_
    refine ((lockstep.expression 0).withChildren true alike).bind fun sameValue alike => ?_
    refine (local_skipNewlines alike).bind_same fun alike => ?_
    refine (local_eat _ alike).bind_same fun alike => ?_
    split
    · refine (local_skipNewlines alike).bind_same fun alike => ?_
      refine (lockstep.callArguments alike).bind fun sameOthers alike => follows_pure ?_ alike
      simp only [argumentsMapOffsets, sameLabel, sameValue, sameOthers]
    · refine follows_pure ?_ alike
      simp only [argumentsMapOffsets, sameLabel, sameValue]
  · exact follows_pure rfl alike

/-- A line and the rest of the lines, as children and as statements of a block. -/
theorem line_lockstep (lockstep : Lockstep change fuel) {rest : Read (List Expr)}
    (ofRest : Local change (linesMapOffsets change) rest rest) :
    Local change (linesMapOffsets change) (line fuel rest) (line fuel rest) := by
  intro known count reader other alike
  unfold line
  refine (lockstep.expression 0 alike).bind fun sameTree alike => follows_get ?_
  rw [← alike.isAt_eq]
  split
  · refine (local_skipNewlines alike).bind_same fun alike => ?_
    refine (ofRest alike).bind fun sameOthers alike => follows_pure ?_ alike
    simp only [linesMapOffsets, sameTree, sameOthers]
  · refine follows_pure ?_ alike
    simp only [linesMapOffsets, sameTree]

theorem childList_lockstep (lockstep : Lockstep change fuel) :
    Local change (linesMapOffsets change) (childList (fuel + 1)) (childList (fuel + 1)) := by
  intro known count reader other alike
  unfold Follows
  rw [childList_succ, childList_succ, ← alike.hasChild_eq]
  split
  · exact line_lockstep lockstep lockstep.childList alike
  · exact follows_pure rfl alike

theorem statementList_lockstep (lockstep : Lockstep change fuel) :
    Local change (linesMapOffsets change) (statementList (fuel + 1))
      (statementList (fuel + 1)) := by
  intro known count reader other alike
  unfold Follows
  rw [statementList_succ, statementList_succ, ← alike.hasStatement_eq]
  split
  · exact line_lockstep lockstep lockstep.statementList alike
  · exact follows_pure rfl alike

theorem conditional_lockstep (monotone : Monotone change) (lockstep : Lockstep change fuel) :
    Local change (Expr.mapOffsets change) (conditional (fuel + 1)) (conditional (fuel + 1)) := by
  intro known count reader other alike
  unfold conditional
  refine ((past_expect _).local alike).bind fun sameStart alike => ?_
  refine ((lockstep.expression 0).withChildren false alike).bind fun sameTest alike => ?_
  -- From the first block on the last token that was passed is known.
  refine ((lockstep.block alike).bind fun sameThen alike => ?_).forget
  have likeStart := Token.like_of_outline_eq sameStart
  refine (local_eat _ alike).bind_same fun alike => ?_
  split
  · refine (lockstep.block alike).bind fun sameElse alike => follows_get (follows_pure ?_ alike)
    simp only [Expr.mapOffsets, elseMapOffsets, sameTest, sameThen, sameElse,
      Span.union_alike monotone likeStart.span (alike.previous trivial)]
  · refine follows_get (follows_pure ?_ alike)
    simp only [Expr.mapOffsets, elseMapOffsets, sameTest, sameThen,
      Span.union_alike monotone likeStart.span (alike.previous trivial)]

theorem block_lockstep (lockstep : Lockstep change fuel) :
    LocalPast change (Block.mapOffsets change) (block (fuel + 1)) (block (fuel + 1)) := by
  intro known count reader other alike
  unfold block
  refine follows_withChildren true alike ?_
  refine ((past_expect _).local (alike.allow true)).bind fun _ alike => ?_
  refine (local_skipNewlines alike).bind_same fun alike => ?_
  refine (lockstep.statementList alike).bind fun sameStatements alike => ?_
  refine (local_eat _ alike).bind_same fun alike => ?_
  split
  · refine (lockstep.expression 0 alike).bind fun sameResult alike => ?_
    refine (local_skipNewlines alike).bind_same fun alike => ?_
    refine (past_expect _ alike).bind fun _ alike => follows_pure ?_ alike
    simp only [Block.mapOffsets, resultMapOffsets, sameStatements, sameResult]
  · refine (past_expect _ alike).bind fun _ alike => follows_pure ?_ alike
    simp only [Block.mapOffsets, resultMapOffsets, sameStatements]

end Step

theorem lockstep (monotone : Monotone change) (fuel : Nat) : Lockstep change fuel := by
  induction fuel with
  | zero => constructor <;> intros <;> exact fun _ _ _ _ _ => trivial
  | succ fuel inductionHypothesis =>
      exact {
        expression := expression_lockstep inductionHypothesis
        operations := operations_lockstep monotone inductionHypothesis
        unary := unary_lockstep monotone inductionHypothesis
        primary := primary_lockstep monotone inductionHypothesis
        call := call_lockstep monotone inductionHypothesis
        callArguments := callArguments_lockstep inductionHypothesis
        childList := childList_lockstep inductionHypothesis
        conditional := conditional_lockstep monotone inductionHypothesis
        block := block_lockstep inductionHypothesis
        statementList := statementList_lockstep inductionHypothesis }

/-! ## Functions and programs -/

theorem typeNames_lockstep (fuel : Nat) :
    Local change (List.map (Ident.mapOffsets change)) (typeNames fuel) (typeNames fuel) := by
  induction fuel with
  | zero => exact fun _ _ _ _ _ => trivial
  | succ fuel inductionHypothesis =>
      intro known count reader other alike
      unfold typeNames
      refine (local_eat _ alike).bind_same fun alike => ?_
      split
      · refine ((past_expect _).local alike).bind fun sameName alike => ?_
        refine (inductionHypothesis alike).bind fun sameOthers alike => follows_pure ?_ alike
        have likeName := Token.like_of_outline_eq sameName
        exact congrArg₂ List.cons likeName.ident_eq sameOthers
      · exact follows_pure rfl alike

theorem typePath_lockstep (fuel : Nat) :
    Local change (TypePath.mapOffsets change) (typePath fuel) (typePath fuel) := by
  intro known count reader other alike
  refine ((past_expect _ alike).bind fun sameName alike => ?_).forget
  refine (typeNames_lockstep fuel alike).bind fun sameInner alike => ?_
  refine follows_get (follows_pure ?_ alike)
  have likeName := Token.like_of_outline_eq sameName
  exact (TypePath.mk.injEq ..).mpr ⟨likeName.ident_eq, sameInner, alike.previous trivial⟩

theorem parameter_lockstep (fuel : Nat) :
    Local change (Parameter.mapOffsets change) (parameter fuel) (parameter fuel) := by
  intro known count reader other alike
  refine (past_identifier.local alike).bind fun sameName alike => ?_
  refine ((past_expect _).local alike).bind fun _ alike => ?_
  refine (typePath_lockstep fuel alike).bind fun sameType alike => follows_pure ?_ alike
  exact congrArg₂ Parameter.mk sameName sameType

theorem parameterList_lockstep (fuel : Nat) :
    Local change (List.map (Parameter.mapOffsets change)) (parameterList fuel)
      (parameterList fuel) := by
  induction fuel with
  | zero => exact fun _ _ _ _ _ => trivial
  | succ fuel inductionHypothesis =>
      intro known count reader other alike
      unfold parameterList
      apply follows_get
      rw [← alike.isAt_eq]
      split
      · refine (parameter_lockstep fuel alike).bind fun sameFirst alike => ?_
        refine (local_eat _ alike).bind_same fun alike => ?_
        split
        · refine (local_skipNewlines alike).bind_same fun alike => ?_
          refine (inductionHypothesis alike).bind fun sameOthers alike => follows_pure ?_ alike
          exact congrArg₂ List.cons sameFirst sameOthers
        · exact follows_pure (congrArg₂ List.cons sameFirst rfl) alike
      · exact follows_pure rfl alike

theorem resultType_lockstep (fuel : Nat) :
    Local change (Option.map (TypePath.mapOffsets change)) (resultType fuel)
      (resultType fuel) := by
  intro known count reader other alike
  refine (local_eat _ alike).bind_same fun alike => ?_
  split
  · refine (typePath_lockstep fuel alike).bind fun sameType alike => follows_pure ?_ alike
    exact congrArg some sameType
  · exact follows_pure rfl alike

theorem function_lockstep (monotone : Monotone change) (fuel : Nat) :
    Local change (FunctionDecl.mapOffsets change) (function fuel) (function fuel) := by
  intro known count reader other alike
  refine ((past_expect _).local alike).bind fun _ alike => ?_
  refine (past_identifier.local alike).bind fun sameName alike => ?_
  refine ((past_expect _).local alike).bind fun _ alike => ?_
  refine (local_skipNewlines alike).bind_same fun alike => ?_
  refine (parameterList_lockstep fuel alike).bind fun sameParameters alike => ?_
  refine ((past_expect _).local alike).bind fun _ alike => ?_
  refine (resultType_lockstep fuel alike).bind fun sameResult alike => ?_
  refine ((lockstep monotone fuel).block.local alike).bind fun sameBody alike => ?_
  refine follows_pure ?_ alike
  simp only [FunctionDecl.mapOffsets, sameName, sameParameters, sameResult, sameBody]

theorem item_lockstep (monotone : Monotone change) (fuel : Nat) :
    Local change (FunctionDecl.mapOffsets change) (item fuel) (item fuel) := by
  intro known count reader other alike
  unfold item
  apply follows_get
  simp only [← alike.isAt_eq]
  split
  · exact past_fail.local alike
  · split
    · exact past_fail.local alike
    · split
      · exact past_fail.local alike
      · exact function_lockstep monotone fuel alike

theorem itemList_lockstep (monotone : Monotone change) (fuel : Nat) :
    Local change (List.map (FunctionDecl.mapOffsets change)) (itemList fuel) (itemList fuel) := by
  induction fuel with
  | zero => exact fun _ _ _ _ _ => trivial
  | succ fuel inductionHypothesis =>
      intro known count reader other alike
      unfold itemList
      refine (item_lockstep monotone fuel alike).bind fun sameFirst alike => follows_get ?_
      rw [← alike.atEnd_eq, ← alike.isAt_eq]
      split
      · exact follows_pure (congrArg₂ List.cons sameFirst rfl) alike
      · split
        · refine (local_skipNewlines alike).bind_same fun alike => follows_get ?_
          rw [← alike.atEnd_eq]
          split
          · exact follows_pure (congrArg₂ List.cons sameFirst rfl) alike
          · refine (inductionHypothesis alike).bind fun sameOthers alike => follows_pure ?_ alike
            exact congrArg₂ List.cons sameFirst sameOthers
        · exact past_unexpected.local alike

theorem program_lockstep (monotone : Monotone change) (fuel : Nat) :
    Local change (Module.mapOffsets change) (program fuel) (program fuel) := by
  intro known count reader other alike
  refine (local_skipNewlines alike).bind_same fun alike => ?_
  refine (itemList_lockstep monotone fuel alike).bind fun same alike => follows_pure ?_ alike
  exact congrArg Module.mk same

end Read

namespace Reader

variable {known : Prop} {count fuel : Nat} {reader other : Reader}

theorem program_of_budget_le (enough : reader.budget ≤ fuel) :
    Read.program fuel reader = Read.program reader.budget reader := by
  have leaves := Read.leaves_program reader (allows_budget reader (by decide))
  rcases Read.below_of_le Read.program_rises enough reader with ⟨_, runsOut⟩ | same
  · unfold Read.Leaves at leaves
    rw [runsOut] at leaves
    exact leaves.elim
  · exact same.symm

/-- Two readers that look alike read their programs in the same way, each within the bound
of its own number of tokens. -/
theorem readProgram_agree (monotone : Monotone change)
    (alike : reader.Alike change known count other) :
    Read.Agree change (Module.mapOffsets change) known count reader other
      (Read.program reader.budget reader) (Read.program other.budget other) := by
  have follows :=
    Read.program_lockstep monotone (max reader.budget other.budget) alike
  unfold Read.Follows at follows
  rwa [program_of_budget_le (Nat.le_max_left _ _), program_of_budget_le (Nat.le_max_right _ _)]
    at follows

end Reader

end ScalarLang
