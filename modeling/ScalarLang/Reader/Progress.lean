import ScalarLang.Reader.Program

/-!
# Progress of reading

Every step of reading leaves fewer tokens than a known number when it succeeds,
and every call between the reading functions is made after a token was passed or
goes to a function later in a fixed order.  So a bound on the depth that is linear
in the number of tokens is never exhausted.
-/

set_option autoImplicit false

namespace ScalarLang

def Reader.remaining (reader : Reader) : Nat := reader.tokens.length

namespace Read

variable {α β : Type}

/-- The step does not run out of its bound, and leaves fewer tokens than a limit
if it succeeds. -/
def Leaves (limit : Nat) (action : Read α) (reader : Reader) : Prop :=
  match action reader with
  | .ok _ after => after.remaining < limit
  | .error .exhausted _ => False
  | .error (.rejected _) _ => True

/-! ## Composition -/

theorem bind_apply (action : Read α) (next : α → Read β) (reader : Reader) :
    (action >>= next) reader =
      match action reader with
      | .ok value after => next value after
      | .error failure after => .error failure after := by
  change EStateM.bind action next reader = _
  unfold EStateM.bind
  cases action reader <;> rfl

theorem leaves_weaken {limit more : Nat} {action : Read α} {reader : Reader}
    (leaves : Leaves limit action reader) (atLeast : limit ≤ more) :
    Leaves more action reader := by
  unfold Leaves at leaves ⊢
  split <;> simp_all
  omega

theorem leaves_pure {limit : Nat} {value : α} {reader : Reader}
    (fewer : reader.remaining < limit) : Leaves limit (pure value : Read α) reader :=
  fewer

theorem leaves_bind {middle limit : Nat} {action : Read α} {next : α → Read β}
    {reader : Reader} (leavesFirst : Leaves middle action reader)
    (leavesNext : ∀ value after, after.remaining < middle →
      Leaves limit (next value) after) :
    Leaves limit (action >>= next) reader := by
  unfold Leaves at leavesFirst ⊢
  rw [bind_apply]
  cases outcome : action reader with
  | ok value after =>
      rw [outcome] at leavesFirst
      exact leavesNext value after leavesFirst
  | error failure after =>
      rw [outcome] at leavesFirst
      cases failure with
      | rejected error => trivial
      | exhausted => exact leavesFirst

theorem leaves_get_bind {limit : Nat} {next : Reader → Read β} {reader : Reader}
    (leavesNext : Leaves limit (next reader) reader) :
    Leaves limit ((get : Read Reader) >>= next) reader :=
  leavesNext

/-! ## Steps over tokens -/

theorem leaves_unexpected {limit : Nat} {wanted : Expectation} {reader : Reader} :
    Leaves limit (unexpected wanted : Read α) reader := trivial

theorem leaves_fail {limit : Nat} {fault : SyntaxFault} {reader : Reader} :
    Leaves limit (fail fault : Read α) reader := trivial

theorem leaves_advance_of_current {reader : Reader} {token : Token}
    (present : reader.current? = some token) :
    Leaves reader.remaining advance reader := by
  obtain ⟨tokens, ending, previous, childrenAllowed⟩ := reader
  cases tokens with
  | nil => simp [Reader.current?] at present
  | cons token rest =>
      cases rest <;> cases ending <;> simp [Leaves, advance, Reader.remaining]

theorem leaves_advance (reader : Reader) : Leaves (reader.remaining + 1) advance reader := by
  cases present : reader.current? with
  | some token => exact leaves_weaken (leaves_advance_of_current present) (Nat.le_succ _)
  | none =>
      obtain ⟨tokens, ending, previous, childrenAllowed⟩ := reader
      cases tokens with
      | nil => cases ending <;> simp [Leaves, advance, Reader.remaining]
      | cons token rest => simp [Reader.current?] at present

theorem leaves_expect (kind : TokenKind) (reader : Reader) :
    Leaves reader.remaining (expect kind) reader := by
  unfold expect
  apply leaves_get_bind
  split
  · rename_i token present
    split
    · exact leaves_bind (leaves_advance_of_current present) fun _ _ fewer => leaves_pure fewer
    · exact leaves_unexpected
  · exact leaves_unexpected

theorem leaves_eat (kind : TokenKind) (reader : Reader) :
    Leaves (reader.remaining + 1) (eat kind) reader := by
  unfold eat
  apply leaves_get_bind
  split
  · exact leaves_bind (leaves_advance reader) fun _ _ fewer => leaves_pure fewer
  · exact leaves_pure (Nat.lt_succ_self _)

theorem leaves_skipNewlinesOf (tokens : List Token) :
    ∀ reader, Leaves (reader.remaining + 1) (skipNewlinesOf tokens) reader := by
  induction tokens with
  | nil => exact fun reader => leaves_pure (Nat.lt_succ_self _)
  | cons token rest inductionHypothesis =>
      intro reader
      unfold skipNewlinesOf
      split
      · refine leaves_bind (leaves_advance reader) fun _ after fewer => ?_
        exact leaves_weaken (inductionHypothesis after) (by omega)
      · exact leaves_pure (Nat.lt_succ_self _)

theorem leaves_skipNewlines (reader : Reader) :
    Leaves (reader.remaining + 1) skipNewlines reader :=
  leaves_get_bind (leaves_skipNewlinesOf reader.tokens reader)

theorem leaves_identifier (reader : Reader) : Leaves reader.remaining identifier reader :=
  leaves_bind (leaves_expect .identifier reader) fun _ _ fewer => leaves_pure fewer

theorem leaves_integerValue_bind {limit : Nat} {value? : Option Int64} {token : Token}
    {next : Int64 → Read β} {reader : Reader}
    (leavesNext : ∀ value, Leaves limit (next value) reader) :
    Leaves limit (integerValue value? token >>= next) reader := by
  cases value? with
  | some value => exact leavesNext value
  | none => trivial

theorem leaves_withChildren {limit : Nat} {allowed : Bool} {action : Read α} {reader : Reader}
    (leaves : ∀ other : Reader, other.remaining = reader.remaining → Leaves limit action other) :
    Leaves limit (withChildren allowed action) reader := by
  have leavesHere := leaves { reader with childrenAllowed := allowed } rfl
  unfold Leaves at leavesHere
  unfold Leaves withChildren
  cases outcome : action { reader with childrenAllowed := allowed } with
  | ok value after => rw [outcome] at leavesHere; exact leavesHere
  | error failure after =>
      rw [outcome] at leavesHere
      cases failure with
      | rejected error => trivial
      | exhausted => exact leavesHere

/-! ## Expressions and blocks -/

/-- The bound allows eight calls for every token, and as many more as there are
functions from this one on in the order of the calls that pass no token. -/
def Allows (fuel rank : Nat) (reader : Reader) : Prop :=
  8 * reader.remaining + rank ≤ fuel

/-- With a bound linear in the number of tokens, the functions that read
expressions and blocks do not run out of it. -/
structure Adequate (fuel : Nat) : Prop where
  expression : ∀ bound reader, Allows fuel 4 reader →
    Leaves reader.remaining (expression fuel bound) reader
  operations : ∀ bound left reader, Allows fuel 1 reader →
    Leaves (reader.remaining + 1) (operations fuel bound left) reader
  unary : ∀ reader, Allows fuel 3 reader → Leaves reader.remaining (unary fuel) reader
  primary : ∀ reader, Allows fuel 2 reader → Leaves reader.remaining (primary fuel) reader
  call : ∀ name reader, Allows fuel 1 reader →
    Leaves reader.remaining (call fuel name) reader
  callArguments : ∀ reader, Allows fuel 1 reader →
    Leaves (reader.remaining + 1) (callArguments fuel) reader
  childList : ∀ reader, Allows fuel 5 reader →
    Leaves (reader.remaining + 1) (childList fuel) reader
  conditional : ∀ reader, Allows fuel 1 reader →
    Leaves reader.remaining (conditional fuel) reader
  block : ∀ reader, Allows fuel 1 reader → Leaves reader.remaining (block fuel) reader
  statementList : ∀ reader, Allows fuel 5 reader →
    Leaves (reader.remaining + 1) (statementList fuel) reader

section Step

variable {fuel : Nat}

theorem leaves_withChildren_expression (adequate : Adequate fuel) (allowed : Bool)
    (reader : Reader) (enough : Allows fuel 4 reader) :
    Leaves reader.remaining (withChildren allowed (expression fuel 0)) reader := by
  unfold Allows at enough
  refine leaves_withChildren fun other same => ?_
  rw [← same]
  exact adequate.expression 0 other (by unfold Allows; omega)

theorem expression_step (adequate : Adequate fuel) (bound : Nat) (reader : Reader)
    (allowed : Allows (fuel + 1) 4 reader) :
    Leaves reader.remaining (expression (fuel + 1) bound) reader := by
  unfold Allows at allowed
  unfold expression
  refine leaves_bind (adequate.unary reader (by unfold Allows; omega)) fun first after fewer => ?_
  exact leaves_weaken (adequate.operations bound first after (by unfold Allows; omega)) (by omega)

theorem operations_step (adequate : Adequate fuel) (bound : Nat) (left : Expr)
    (reader : Reader) (allowed : Allows (fuel + 1) 1 reader) :
    Leaves (reader.remaining + 1) (operations (fuel + 1) bound left) reader := by
  unfold Allows at allowed
  unfold operations
  apply leaves_get_bind
  split
  · exact leaves_pure (Nat.lt_succ_self _)
  · rename_i op found
    have present : ∃ token, reader.current? = some token := by
      unfold Reader.binaryOp? at found
      split at found
      · exact ⟨_, by assumption⟩
      · simp at found
    obtain ⟨token, present⟩ := present
    refine leaves_bind (leaves_advance_of_current present) fun _ second secondFewer => ?_
    refine leaves_bind (leaves_skipNewlines second) fun _ third thirdFewer => ?_
    refine leaves_bind (adequate.expression op.precedence third (by unfold Allows; omega))
      fun right fourth fourthFewer => ?_
    exact leaves_weaken (adequate.operations bound _ fourth (by unfold Allows; omega)) (by omega)

theorem unary_step (adequate : Adequate fuel) (reader : Reader)
    (allowed : Allows (fuel + 1) 3 reader) :
    Leaves reader.remaining (unary (fuel + 1)) reader := by
  unfold Allows at allowed
  unfold unary
  apply leaves_get_bind
  split
  · exact adequate.primary reader (by unfold Allows; omega)
  · rename_i op span found
    have present : ∃ token, reader.current? = some token := by
      unfold Reader.unaryOp? at found
      split at found
      · exact ⟨_, by assumption⟩
      · simp at found
    obtain ⟨token, present⟩ := present
    refine leaves_bind (leaves_advance_of_current present) fun _ second secondFewer => ?_
    apply leaves_get_bind
    split
    · refine leaves_integerValue_bind fun value => ?_
      exact leaves_bind (leaves_advance second) fun _ third thirdFewer => leaves_pure (by omega)
    · refine leaves_bind (adequate.primary second (by unfold Allows; omega))
        fun _ third thirdFewer => leaves_pure (by omega)

theorem primary_step (adequate : Adequate fuel) (reader : Reader)
    (allowed : Allows (fuel + 1) 2 reader) :
    Leaves reader.remaining (primary (fuel + 1)) reader := by
  unfold Allows at allowed
  unfold primary
  apply leaves_get_bind
  split
  · exact leaves_unexpected
  · rename_i token present
    have passing := leaves_advance_of_current present
    split
    · refine leaves_bind passing fun _ second secondFewer => ?_
      apply leaves_get_bind
      split
      · exact leaves_weaken (adequate.call _ second (by unfold Allows; omega)) (by omega)
      · exact leaves_pure secondFewer
    · exact leaves_integerValue_bind fun value =>
        leaves_bind passing fun _ _ fewer => leaves_pure fewer
    · exact leaves_bind passing fun _ _ fewer => leaves_pure fewer
    · exact leaves_bind passing fun _ _ fewer => leaves_pure fewer
    · refine leaves_bind passing fun _ second secondFewer => ?_
      refine leaves_bind (leaves_skipNewlines second) fun _ third thirdFewer => ?_
      refine leaves_bind (leaves_withChildren_expression adequate true third
        (by unfold Allows; omega)) fun _ fourth fourthFewer => ?_
      refine leaves_bind (leaves_skipNewlines fourth) fun _ fifth fifthFewer => ?_
      exact leaves_bind (leaves_expect _ fifth) fun _ sixth sixthFewer => leaves_pure (by omega)
    · exact adequate.conditional reader (by unfold Allows; omega)
    · exact leaves_unexpected

theorem call_step (adequate : Adequate fuel) (name : Ident) (reader : Reader)
    (allowed : Allows (fuel + 1) 1 reader) :
    Leaves reader.remaining (call (fuel + 1) name) reader := by
  unfold Allows at allowed
  unfold call
  refine leaves_bind (leaves_expect _ reader) fun _ second secondFewer => ?_
  refine leaves_bind (leaves_skipNewlines second) fun _ third thirdFewer => ?_
  refine leaves_bind (adequate.callArguments third (by unfold Allows; omega))
    fun arguments fourth fourthFewer => ?_
  refine leaves_bind (leaves_expect _ fourth) fun close fifth fifthFewer => ?_
  apply leaves_get_bind
  split
  · refine leaves_bind (leaves_expect _ fifth) fun _ sixth sixthFewer => ?_
    refine leaves_bind (leaves_skipNewlines sixth) fun _ seventh seventhFewer => ?_
    refine leaves_bind (adequate.childList seventh (by unfold Allows; omega))
      fun children eighth eighthFewer => ?_
    refine leaves_bind (leaves_expect _ eighth) fun _ ninth ninthFewer => ?_
    exact leaves_get_bind (leaves_pure (by omega))
  · exact leaves_pure (by omega)

theorem callArguments_step (adequate : Adequate fuel) (reader : Reader)
    (allowed : Allows (fuel + 1) 1 reader) :
    Leaves (reader.remaining + 1) (callArguments (fuel + 1)) reader := by
  unfold Allows at allowed
  unfold callArguments
  apply leaves_get_bind
  split
  · refine leaves_bind (leaves_identifier reader) fun label second secondFewer => ?_
    refine leaves_bind (leaves_expect _ second) fun _ third thirdFewer => ?_
    refine leaves_bind (leaves_withChildren_expression adequate true third
      (by unfold Allows; omega)) fun value fourth fourthFewer => ?_
    refine leaves_bind (leaves_skipNewlines fourth) fun _ fifth fifthFewer => ?_
    refine leaves_bind (leaves_eat _ fifth) fun more sixth sixthFewer => ?_
    split
    · refine leaves_bind (leaves_skipNewlines sixth) fun _ seventh seventhFewer => ?_
      exact leaves_bind (adequate.callArguments seventh (by unfold Allows; omega))
        fun others eighth eighthFewer => leaves_pure (by omega)
    · exact leaves_pure (by omega)
  · exact leaves_pure (Nat.lt_succ_self _)

theorem childList_step (adequate : Adequate fuel) (reader : Reader)
    (allowed : Allows (fuel + 1) 5 reader) :
    Leaves (reader.remaining + 1) (childList (fuel + 1)) reader := by
  unfold Allows at allowed
  unfold childList
  apply leaves_get_bind
  split
  · refine leaves_bind (adequate.expression 0 reader (by unfold Allows; omega))
      fun child second secondFewer => ?_
    apply leaves_get_bind
    split
    · refine leaves_bind (leaves_skipNewlines second) fun _ third thirdFewer => ?_
      exact leaves_bind (adequate.childList third (by unfold Allows; omega))
        fun others fourth fourthFewer => leaves_pure (by omega)
    · exact leaves_pure (by omega)
  · exact leaves_pure (Nat.lt_succ_self _)

theorem conditional_step (adequate : Adequate fuel) (reader : Reader)
    (allowed : Allows (fuel + 1) 1 reader) :
    Leaves reader.remaining (conditional (fuel + 1)) reader := by
  unfold Allows at allowed
  unfold conditional
  refine leaves_bind (leaves_expect _ reader) fun start second secondFewer => ?_
  refine leaves_bind (leaves_withChildren_expression adequate false second
    (by unfold Allows; omega)) fun condition third thirdFewer => ?_
  refine leaves_bind (adequate.block third (by unfold Allows; omega))
    fun thenBlock fourth fourthFewer => ?_
  refine leaves_bind (leaves_eat _ fourth) fun more fifth fifthFewer => ?_
  split
  · refine leaves_bind (adequate.block fifth (by unfold Allows; omega))
      fun elseBlock sixth sixthFewer => ?_
    exact leaves_get_bind (leaves_pure (by omega))
  · exact leaves_get_bind (leaves_pure (by omega))

theorem block_step (adequate : Adequate fuel) (reader : Reader)
    (allowed : Allows (fuel + 1) 1 reader) :
    Leaves reader.remaining (block (fuel + 1)) reader := by
  unfold Allows at allowed
  unfold block
  refine leaves_withChildren fun other same => ?_
  refine leaves_bind (leaves_expect _ other) fun _ second secondFewer => ?_
  refine leaves_bind (leaves_skipNewlines second) fun _ third thirdFewer => ?_
  refine leaves_bind (adequate.statementList third (by unfold Allows; omega))
    fun statements fourth fourthFewer => ?_
  refine leaves_bind (leaves_eat _ fourth) fun more fifth fifthFewer => ?_
  split
  · refine leaves_bind (adequate.expression 0 fifth (by unfold Allows; omega))
      fun result sixth sixthFewer => ?_
    refine leaves_bind (leaves_skipNewlines sixth) fun _ seventh seventhFewer => ?_
    exact leaves_bind (leaves_expect _ seventh) fun _ eighth eighthFewer =>
      leaves_pure (by omega)
  · exact leaves_bind (leaves_expect _ fifth) fun _ sixth sixthFewer => leaves_pure (by omega)

theorem statementList_step (adequate : Adequate fuel) (reader : Reader)
    (allowed : Allows (fuel + 1) 5 reader) :
    Leaves (reader.remaining + 1) (statementList (fuel + 1)) reader := by
  unfold Allows at allowed
  unfold statementList
  apply leaves_get_bind
  split
  · refine leaves_bind (adequate.expression 0 reader (by unfold Allows; omega))
      fun statement second secondFewer => ?_
    apply leaves_get_bind
    split
    · refine leaves_bind (leaves_skipNewlines second) fun _ third thirdFewer => ?_
      exact leaves_bind (adequate.statementList third (by unfold Allows; omega))
        fun others fourth fourthFewer => leaves_pure (by omega)
    · exact leaves_pure (by omega)
  · exact leaves_pure (Nat.lt_succ_self _)

end Step

/-- Every bound is adequate for the readers it allows. -/
theorem adequate (fuel : Nat) : Adequate fuel := by
  induction fuel with
  | zero =>
      constructor <;> intros <;> rename_i allowed <;> unfold Allows at allowed <;> omega
  | succ fuel inductionHypothesis =>
      exact {
        expression := expression_step inductionHypothesis
        operations := operations_step inductionHypothesis
        unary := unary_step inductionHypothesis
        primary := primary_step inductionHypothesis
        call := call_step inductionHypothesis
        callArguments := callArguments_step inductionHypothesis
        childList := childList_step inductionHypothesis
        conditional := conditional_step inductionHypothesis
        block := block_step inductionHypothesis
        statementList := statementList_step inductionHypothesis }

/-! ## Functions and programs -/

theorem leaves_typeNames (fuel : Nat) : ∀ reader, Allows fuel 1 reader →
    Leaves (reader.remaining + 1) (typeNames fuel) reader := by
  induction fuel with
  | zero =>
      intro reader allowed
      unfold Allows at allowed
      omega
  | succ fuel inductionHypothesis =>
      intro reader allowed
      unfold Allows at allowed
      unfold typeNames
      refine leaves_bind (leaves_eat _ reader) fun more second secondFewer => ?_
      split
      · refine leaves_bind (leaves_expect _ second) fun token third thirdFewer => ?_
        exact leaves_bind (inductionHypothesis third (by unfold Allows; omega))
          fun others fourth fourthFewer => leaves_pure (by omega)
      · exact leaves_pure secondFewer

theorem leaves_typePath {fuel : Nat} (reader : Reader) (allowed : Allows fuel 1 reader) :
    Leaves reader.remaining (typePath fuel) reader := by
  unfold Allows at allowed
  refine leaves_bind (leaves_expect _ reader) fun token second secondFewer => ?_
  refine leaves_bind (leaves_typeNames fuel second (by unfold Allows; omega))
    fun inner third thirdFewer => ?_
  exact leaves_get_bind (leaves_pure (by omega))

theorem leaves_parameter {fuel : Nat} (reader : Reader) (allowed : Allows fuel 1 reader) :
    Leaves reader.remaining (parameter fuel) reader := by
  unfold Allows at allowed
  refine leaves_bind (leaves_identifier reader) fun name second secondFewer => ?_
  refine leaves_bind (leaves_expect _ second) fun _ third thirdFewer => ?_
  exact leaves_bind (leaves_typePath third (by unfold Allows; omega))
    fun type fourth fourthFewer => leaves_pure (by omega)

theorem leaves_parameterList (fuel : Nat) : ∀ reader, Allows fuel 2 reader →
    Leaves (reader.remaining + 1) (parameterList fuel) reader := by
  induction fuel with
  | zero =>
      intro reader allowed
      unfold Allows at allowed
      omega
  | succ fuel inductionHypothesis =>
      intro reader allowed
      unfold Allows at allowed
      unfold parameterList
      apply leaves_get_bind
      split
      · refine leaves_bind (leaves_parameter reader (by unfold Allows; omega))
          fun first second secondFewer => ?_
        refine leaves_bind (leaves_eat _ second) fun more third thirdFewer => ?_
        split
        · refine leaves_bind (leaves_skipNewlines third) fun _ fourth fourthFewer => ?_
          exact leaves_bind (inductionHypothesis fourth (by unfold Allows; omega))
            fun others fifth fifthFewer => leaves_pure (by omega)
        · exact leaves_pure (by omega)
      · exact leaves_pure (Nat.lt_succ_self _)

theorem leaves_resultType {fuel : Nat} (reader : Reader) (allowed : Allows fuel 1 reader) :
    Leaves (reader.remaining + 1) (resultType fuel) reader := by
  unfold Allows at allowed
  refine leaves_bind (leaves_eat _ reader) fun more second secondFewer => ?_
  split
  · exact leaves_bind (leaves_typePath second (by unfold Allows; omega))
      fun type third thirdFewer => leaves_pure (by omega)
  · exact leaves_pure secondFewer

theorem leaves_function {fuel : Nat} (reader : Reader) (allowed : Allows fuel 1 reader) :
    Leaves reader.remaining (function fuel) reader := by
  unfold Allows at allowed
  refine leaves_bind (leaves_expect _ reader) fun _ second secondFewer => ?_
  refine leaves_bind (leaves_identifier second) fun name third thirdFewer => ?_
  refine leaves_bind (leaves_expect _ third) fun _ fourth fourthFewer => ?_
  refine leaves_bind (leaves_skipNewlines fourth) fun _ fifth fifthFewer => ?_
  refine leaves_bind (leaves_parameterList fuel fifth (by unfold Allows; omega))
    fun parameters sixth sixthFewer => ?_
  refine leaves_bind (leaves_expect _ sixth) fun _ seventh seventhFewer => ?_
  refine leaves_bind (leaves_resultType seventh (by unfold Allows; omega))
    fun resultType eighth eighthFewer => ?_
  exact leaves_bind ((adequate fuel).block eighth (by unfold Allows; omega))
    fun body ninth ninthFewer => leaves_pure (by omega)

theorem leaves_item {fuel : Nat} (reader : Reader) (allowed : Allows fuel 1 reader) :
    Leaves reader.remaining (item fuel) reader := by
  apply leaves_get_bind
  split
  · exact leaves_fail
  · split
    · exact leaves_fail
    · split
      · exact leaves_fail
      · exact leaves_function reader allowed

theorem leaves_itemList (fuel : Nat) : ∀ reader, Allows fuel 2 reader →
    Leaves reader.remaining (itemList fuel) reader := by
  induction fuel with
  | zero =>
      intro reader allowed
      unfold Allows at allowed
      omega
  | succ fuel inductionHypothesis =>
      intro reader allowed
      unfold Allows at allowed
      unfold itemList
      refine leaves_bind (leaves_item reader (by unfold Allows; omega))
        fun first second secondFewer => ?_
      apply leaves_get_bind
      split
      · exact leaves_pure secondFewer
      · split
        · refine leaves_bind (leaves_skipNewlines second) fun _ third thirdFewer => ?_
          apply leaves_get_bind
          split
          · exact leaves_pure (by omega)
          · exact leaves_bind (inductionHypothesis third (by unfold Allows; omega))
              fun others fourth fourthFewer => leaves_pure (by omega)
        · exact leaves_unexpected

theorem leaves_program {fuel : Nat} (reader : Reader) (allowed : Allows fuel 2 reader) :
    Leaves reader.remaining (program fuel) reader := by
  unfold Allows at allowed
  refine leaves_bind (leaves_skipNewlines reader) fun _ second secondFewer => ?_
  refine leaves_bind (leaves_itemList fuel second (by unfold Allows; omega))
    fun functions third thirdFewer => leaves_pure (by omega)

end Read

end ScalarLang
