import ScalarLang.Proofs.Reading.Scripts
import ScalarLang.Proofs.Reading.Soundness

/-!
# Reading ends

Every call between reading functions is made after a token was passed, or it goes to a function
later in a fixed order; a loop goes round only after a token was passed.  So no chain of calls
goes on for ever, and a bound on its depth that is linear in the number of tokens is never
exhausted, whatever the tokens are and whether they end or break off.
-/

set_option autoImplicit false

namespace ScalarLang

section Leaves

variable {α : Type} {limit : Nat} {action : Read α} {reader after : Reader}

theorem Read.Leaves.remaining_lt (leaves : Read.Leaves limit action reader) {value : α}
    (succeeds : action reader = .ok value after) : after.remaining < limit := by
  unfold Read.Leaves at leaves
  rw [succeeds] at leaves
  exact leaves

theorem Read.Leaves.not_exhausted (leaves : Read.Leaves limit action reader) :
    action reader ≠ .error .exhausted after := by
  intro runsOut
  unfold Read.Leaves at leaves
  rw [runsOut] at leaves
  exact leaves

end Leaves

namespace Reading

/-! ## Functions without a bound -/

variable {reader : Reader}

def read (reading : Reading) : Read reading.Value := fun reader =>
  reading.action (reader.budget + 2) reader

/-- The place of a function in the order of the calls that pass no token: from items over
functions, blocks, statements and expressions to operands and choices. -/
def rank : Reading → Nat
  | .program => 0
  | .itemList => 1
  | .item => 2
  | .function => 3
  | .parameterList => 4
  | .parameter => 5
  | .resultType => 6
  | .typePath => 7
  | .typeNames => 8
  | .block => 9
  | .statementList => 10
  | .statement => 11
  | .childList => 12
  | .expression _ => 13
  | .operations _ _ => 14
  | .unary => 15
  | .primary => 16
  | .call _ => 17
  | .callArguments => 18
  | .conditional => 19
  | .newlines => 20

def optional : Reading → Bool
  | .parameterList | .resultType | .typeNames | .statementList | .childList => true
  | .operations _ _ | .callArguments | .newlines => true
  | _ => false

/-- Whether there is something to read: a part that may not be missing is always read. -/
def starts : Reading → Reader → Bool
  | .parameterList, reader => reader.isAt .identifier
  | .resultType, reader => reader.isAt (.symbol .arrow)
  | .typeNames, reader => reader.isAt (.symbol .dot)
  | .statementList, reader => reader.hasStatement
  | .childList, reader => reader.hasChild
  | .operations bound _, reader => (reader.binaryOp? bound).isSome
  | .callArguments, reader => reader.isAt .identifier
  | .newlines, reader => reader.isAt .newline
  | _, _ => true

theorem action_below (reading : Reading) (fuel : Nat) :
    Read.Below (reading.action fuel) (reading.action (fuel + 1)) := by
  cases reading with
  | program => exact Read.program_rises fuel
  | itemList => exact Read.itemList_rises fuel
  | item => exact Read.item_rises fuel
  | function => exact Read.function_rises fuel
  | parameterList => exact Read.parameterList_rises fuel
  | parameter => exact Read.parameter_rises fuel
  | resultType => exact Read.resultType_rises fuel
  | typePath => exact Read.typePath_rises fuel
  | typeNames => exact Read.typeNames_rises fuel
  | block => exact (Read.rises fuel).block
  | statementList => exact (Read.rises fuel).statementList
  | statement => exact (Read.rises fuel).expression 0
  | childList => exact (Read.rises fuel).childList
  | expression bound => exact (Read.rises fuel).expression bound
  | operations bound left => exact (Read.rises fuel).operations bound left
  | unary => exact (Read.rises fuel).unary
  | primary => exact (Read.rises fuel).primary
  | call name => exact (Read.rises fuel).call name
  | callArguments => exact (Read.rises fuel).callArguments
  | conditional => exact (Read.rises fuel).conditional
  | newlines => exact .refl _

/-- Eight calls for every token, and a few more, are enough for every function. -/
theorem leaves_action (reading : Reading) {fuel : Nat} (enough : reader.budget + 1 ≤ fuel) :
    Read.Leaves (if reading.optional then reader.remaining + 1 else reader.remaining)
      (reading.action fuel) reader := by
  have allows : ∀ rank, rank ≤ 5 → Read.Allows fuel rank reader := by
    intro rank small
    unfold Read.Allows
    unfold Reader.budget at enough
    omega
  cases reading with
  | program => exact Read.leaves_program reader (allows 2 (by decide))
  | itemList => exact Read.leaves_itemList fuel reader (allows 2 (by decide))
  | item => exact Read.leaves_item reader (allows 1 (by decide))
  | function => exact Read.leaves_function reader (allows 1 (by decide))
  | parameterList => exact Read.leaves_parameterList fuel reader (allows 2 (by decide))
  | parameter => exact Read.leaves_parameter reader (allows 1 (by decide))
  | resultType => exact Read.leaves_resultType reader (allows 1 (by decide))
  | typePath => exact Read.leaves_typePath reader (allows 1 (by decide))
  | typeNames => exact Read.leaves_typeNames fuel reader (allows 1 (by decide))
  | block => exact (Read.adequate fuel).block reader (allows 1 (by decide))
  | statementList => exact (Read.adequate fuel).statementList reader (allows 5 (by decide))
  | statement => exact (Read.adequate fuel).expression 0 reader (allows 4 (by decide))
  | childList => exact (Read.adequate fuel).childList reader (allows 5 (by decide))
  | expression bound => exact (Read.adequate fuel).expression bound reader (allows 4 (by decide))
  | operations bound left =>
      exact (Read.adequate fuel).operations bound left reader (allows 1 (by decide))
  | unary => exact (Read.adequate fuel).unary reader (allows 3 (by decide))
  | primary => exact (Read.adequate fuel).primary reader (allows 2 (by decide))
  | call name => exact (Read.adequate fuel).call name reader (allows 1 (by decide))
  | callArguments => exact (Read.adequate fuel).callArguments reader (allows 1 (by decide))
  | conditional => exact (Read.adequate fuel).conditional reader (allows 1 (by decide))
  | newlines => exact Read.leaves_skipNewlines reader

theorem leaves_read (reading : Reading) (reader : Reader) :
    Read.Leaves (if reading.optional then reader.remaining + 1 else reader.remaining)
      reading.read reader :=
  reading.leaves_action (Nat.le_succ (reader.budget + 1))

/-- A bound that is not exhausted gives the same as every larger one. -/
theorem action_eq_of_leaves (reading : Reading) {fuel more limit : Nat}
    (leaves : Read.Leaves limit (reading.action fuel) reader) (atMost : fuel ≤ more) :
    reading.action fuel reader = reading.action more reader := by
  rcases Read.below_of_le reading.action_below atMost reader with ⟨after, runsOut⟩ | same
  · exact absurd runsOut leaves.not_exhausted
  · exact same

theorem action_eq_read (reading : Reading) {fuel : Nat} (enough : reader.budget + 1 ≤ fuel) :
    reading.action fuel reader = reading.read reader := by
  rw [read, ← reading.action_eq_of_leaves (reading.leaves_action le_rfl) enough]
  exact reading.action_eq_of_leaves (reading.leaves_action le_rfl) (Nat.le_succ _)

end Reading

/-! ## Orderly runs -/

namespace Script

variable {α β : Type} {caller reading : Reading} {start limit middle : Nat} {reader : Reader}

/-- The call comes after a token that its caller passed, or goes to a later function; the caller
started with a number of tokens. -/
def Call.Descends (call : Call) (caller : Reading) (start : Nat) : Prop :=
  call.reader.remaining < start ∨
    call.reader.remaining = start ∧ caller.rank < call.reading.rank

theorem Call.Descends.of_fewer (fewer : reader.remaining < start) :
    Call.Descends ⟨reading, reader⟩ caller start := .inl fewer

theorem Call.Descends.of_later (atMost : reader.remaining ≤ start)
    (later : caller.rank < reading.rank) : Call.Descends ⟨reading, reader⟩ caller start :=
  (Nat.lt_or_eq_of_le atMost).imp_right fun same => ⟨same, later⟩

/-- All calls of a run descend from the caller, and a success leaves fewer tokens than a limit. -/
structure Orderly (caller : Reading) (start limit : Nat) (script : Script α)
    (reader : Reader) : Prop where
  descends : ∀ call ∈ script.calls Reading.read reader, call.Descends caller start
  leaves : ∀ value after, script.run Reading.read reader = .ok value after →
    after.remaining < limit

/-! ### Steps -/

theorem Silent.orderly {script : Script α} (silent : script.Silent)
    (leaves : Read.Leaves limit (script.run Reading.read) reader) :
    Orderly caller start limit script reader where
  descends := by
    intro call made
    rw [silent] at made
    cases made
  leaves := fun _ _ succeeds => leaves.remaining_lt succeeds

theorem orderly_pure {value : α} (fewer : reader.remaining < limit) :
    Orderly caller start limit (pure value : Script α) reader :=
  (silent_pure value).orderly (Read.leaves_pure fewer)

theorem orderly_unexpected {wanted : Expectation} :
    Orderly caller start limit (unexpected wanted : Script α) reader :=
  (silent_unexpected wanted).orderly Read.leaves_unexpected

theorem orderly_fail {fault : SyntaxFault} :
    Orderly caller start limit (fail fault : Script α) reader :=
  (silent_fail fault).orderly Read.leaves_fail

theorem orderly_advance (reader : Reader) :
    Orderly caller start (reader.remaining + 1) advance reader :=
  silent_advance.orderly (by rw [run_advance]; exact Read.leaves_advance reader)

theorem orderly_advance_of_current {token : Token} (present : reader.current? = some token) :
    Orderly caller start reader.remaining advance reader :=
  silent_advance.orderly (by rw [run_advance]; exact Read.leaves_advance_of_current present)

theorem orderly_expect (kind : TokenKind) (reader : Reader) :
    Orderly caller start reader.remaining (expect kind) reader :=
  (silent_expect kind).orderly (by rw [run_expect]; exact Read.leaves_expect kind reader)

theorem orderly_eat (kind : TokenKind) (reader : Reader) :
    Orderly caller start (reader.remaining + 1) (eat kind) reader :=
  (silent_eat kind).orderly (by rw [run_eat]; exact Read.leaves_eat kind reader)

theorem orderly_identifier (reader : Reader) :
    Orderly caller start reader.remaining identifier reader :=
  silent_identifier.orderly (by rw [run_identifier]; exact Read.leaves_identifier reader)

theorem orderly_invoke_of_leaves (descends : Call.Descends ⟨reading, reader⟩ caller start)
    (leaves : Read.Leaves limit reading.read reader) :
    Orderly caller start limit (invoke reading) reader where
  descends := by
    intro call made
    rw [calls_invoke, List.mem_singleton] at made
    exact made ▸ descends
  leaves := by
    intro value after succeeds
    rw [run_invoke] at succeeds
    exact leaves.remaining_lt succeeds

/-- A part that may not be missing passes a token. -/
theorem orderly_invoke (needed : reading.optional = false)
    (descends : Call.Descends ⟨reading, reader⟩ caller start) :
    Orderly caller start reader.remaining (invoke reading) reader := by
  have leaves := reading.leaves_read reader
  rw [needed] at leaves
  exact orderly_invoke_of_leaves descends leaves

theorem orderly_invoke_optional (descends : Call.Descends ⟨reading, reader⟩ caller start) :
    Orderly caller start (reader.remaining + 1) (invoke reading) reader := by
  refine orderly_invoke_of_leaves descends (Read.leaves_weaken (reading.leaves_read reader) ?_)
  split
  · exact le_rfl
  · exact Nat.le_succ _

/-! ### Composition -/

theorem Orderly.weaken {script : Script α} (orderly : Orderly caller start middle script reader)
    (atMost : middle ≤ limit) : Orderly caller start limit script reader where
  descends := orderly.descends
  leaves := fun value after succeeds => (orderly.leaves value after succeeds).trans_le atMost

theorem Orderly.bind {script : Script α} {next : α → Script β}
    (first : Orderly caller start middle script reader)
    (second : ∀ value after, after.remaining < middle →
      Orderly caller start limit (next value) after) :
    Orderly caller start limit (script >>= next) reader where
  descends := by
    intro call made
    rw [calls_bind] at made
    rcases List.mem_append.mp made with early | late
    · exact first.descends call early
    · obtain ⟨value, after, succeeds, made⟩ := mem_callsAfter_iff.mp late
      exact (second value after (first.leaves value after succeeds)).descends call made
  leaves := by
    intro value last succeeds
    rw [run_bind, bind_eq_ok_iff] at succeeds
    obtain ⟨result, after, succeedsFirst, succeedsNext⟩ := succeeds
    exact (second result after (first.leaves result after succeedsFirst)).leaves value last
      succeedsNext

theorem orderly_get_bind {next : Reader → Script β}
    (orderly : Orderly caller start limit (next reader) reader) :
    Orderly caller start limit (Script.get >>= next) reader :=
  ⟨orderly.descends, orderly.leaves⟩

theorem orderly_eat_of_isAt {kind : TokenKind} (here : reader.isAt kind = true) :
    Orderly caller start reader.remaining (eat kind) reader := by
  obtain ⟨token, present, -⟩ := Reader.isAt_iff.mp here
  rw [eat]
  apply orderly_get_bind
  rw [if_pos here]
  exact (orderly_advance_of_current present).bind fun _ _ fewer => orderly_pure fewer

theorem orderly_integerValue_bind {value? : Option Int64} {token : Token} {next : Int64 → Script β}
    (orderly : ∀ value, Orderly caller start limit (next value) reader) :
    Orderly caller start limit (integerValue value? token >>= next) reader := by
  cases value? with
  | none => exact (silent_fail _).orderly Read.leaves_fail
  | some value => exact orderly value

theorem orderly_withChildren {allowed : Bool} {inner : Script α}
    (orderly : ∀ other : Reader, other.remaining = reader.remaining →
      Orderly caller start limit inner other) :
    Orderly caller start limit (Script.withChildren allowed inner) reader where
  descends := by
    rw [calls_withChildren]
    exact (orderly (reader.allow allowed) rfl).descends
  leaves := by
    intro value after succeeds
    rw [run_withChildren, Read.withChildren_eq_ok_iff] at succeeds
    obtain ⟨last, succeedsInner, rfl⟩ := succeeds
    exact (orderly (reader.allow allowed) rfl).leaves value last succeedsInner

/-- An expression in parentheses, an argument or a condition. -/
theorem orderly_withChildren_expression {allowed : Bool} (fewer : reader.remaining < start) :
    Orderly caller start reader.remaining
      (Script.withChildren allowed (invoke (.expression 0))) reader := by
  refine orderly_withChildren fun other same => ?_
  rw [← same] at fewer ⊢
  exact orderly_invoke rfl (.of_fewer fewer)

/-- A loop goes round: after a token, newlines and the loop again. -/
theorem orderly_again {loop : Reading} {next : loop.Value → α} (fewer : reader.remaining < start) :
    Orderly caller start start (do
      invoke .newlines
      let others ← invoke loop
      return next others) reader := by
  refine (orderly_invoke_optional (.of_fewer fewer)).bind fun _ second secondFewer => ?_
  exact (orderly_invoke_optional (.of_fewer (by omega))).bind
    fun others third thirdFewer => orderly_pure (by omega)

end Script

namespace Reading

open Script

/-! ## The order of the calls -/

variable {reader : Reader}

theorem program_orderly (reader : Reader) :
    Orderly .program reader.remaining reader.remaining Reading.program.script reader := by
  rw [script]
  refine (orderly_invoke_optional (.of_later le_rfl (by decide))).bind
    fun _ second secondFewer => ?_
  -- There may be no newlines, so it is the order that the call of the items descends in.
  exact (orderly_invoke rfl (.of_later (by omega) (by decide))).bind
    fun functions third thirdFewer => orderly_pure (by omega)

theorem itemList_orderly (reader : Reader) :
    Orderly .itemList reader.remaining reader.remaining Reading.itemList.script reader := by
  rw [script]
  refine (orderly_invoke rfl (.of_later le_rfl (by decide))).bind
    fun first second secondFewer => ?_
  apply orderly_get_bind
  split
  · exact orderly_pure secondFewer
  · split
    · refine (orderly_invoke_optional (.of_fewer secondFewer)).bind
        fun _ third thirdFewer => ?_
      apply orderly_get_bind
      split
      · exact orderly_pure (by omega)
      · refine (orderly_invoke rfl (.of_fewer (by omega))).bind
          fun others fourth fourthFewer => orderly_pure (by omega)
    · exact orderly_unexpected

theorem item_orderly (reader : Reader) :
    Orderly .item reader.remaining reader.remaining Reading.item.script reader := by
  rw [script]
  apply orderly_get_bind
  split
  · exact orderly_fail
  · split
    · exact orderly_fail
    · split
      · exact orderly_fail
      · exact orderly_invoke rfl (.of_later le_rfl (by decide))

theorem function_orderly (reader : Reader) :
    Orderly .function reader.remaining reader.remaining Reading.function.script reader := by
  rw [script]
  refine (orderly_expect _ reader).bind fun _ second secondFewer => ?_
  refine (orderly_identifier second).bind fun name third thirdFewer => ?_
  refine (orderly_expect _ third).bind fun _ fourth fourthFewer => ?_
  refine (orderly_invoke_optional (.of_fewer (by omega))).bind
    fun _ fifth fifthFewer => ?_
  refine (orderly_invoke_optional (.of_fewer (by omega))).bind
    fun parameters sixth sixthFewer => ?_
  refine (orderly_expect _ sixth).bind fun _ seventh seventhFewer => ?_
  refine (orderly_invoke_optional (.of_fewer (by omega))).bind
    fun resultType eighth eighthFewer => ?_
  exact (orderly_invoke rfl (.of_fewer (by omega))).bind
    fun body ninth ninthFewer => orderly_pure (by omega)

theorem parameterList_orderly (starts : reader.isAt .identifier = true) :
    Orderly .parameterList reader.remaining reader.remaining Reading.parameterList.script
      reader := by
  rw [script]
  apply orderly_get_bind
  rw [if_pos starts]
  refine (orderly_invoke rfl (.of_later le_rfl (by decide))).bind
    fun first second secondFewer => ?_
  refine (orderly_eat _ second).bind fun more third thirdFewer => ?_
  split
  · exact orderly_again (by omega)
  · exact orderly_pure (by omega)

theorem parameter_orderly (reader : Reader) :
    Orderly .parameter reader.remaining reader.remaining Reading.parameter.script reader := by
  rw [script]
  refine (orderly_identifier reader).bind fun name second secondFewer => ?_
  refine (orderly_expect _ second).bind fun _ third thirdFewer => ?_
  exact (orderly_invoke rfl (.of_fewer (by omega))).bind
    fun type fourth fourthFewer => orderly_pure (by omega)

theorem resultType_orderly (starts : reader.isAt (.symbol .arrow) = true) :
    Orderly .resultType reader.remaining reader.remaining Reading.resultType.script reader := by
  rw [script]
  refine (orderly_eat_of_isAt starts).bind fun more second secondFewer => ?_
  split
  · exact (orderly_invoke rfl (.of_fewer secondFewer)).bind
      fun type third thirdFewer => orderly_pure (by omega)
  · exact orderly_pure secondFewer

theorem typePath_orderly (reader : Reader) :
    Orderly .typePath reader.remaining reader.remaining Reading.typePath.script reader := by
  rw [script]
  refine (orderly_expect _ reader).bind fun token second secondFewer => ?_
  refine (orderly_invoke_optional (.of_fewer secondFewer)).bind
    fun inner third thirdFewer => ?_
  exact orderly_get_bind (orderly_pure (by omega))

theorem typeNames_orderly (starts : reader.isAt (.symbol .dot) = true) :
    Orderly .typeNames reader.remaining reader.remaining Reading.typeNames.script reader := by
  rw [script]
  refine (orderly_eat_of_isAt starts).bind fun more second secondFewer => ?_
  split
  · refine (orderly_expect _ second).bind fun token third thirdFewer => ?_
    exact (orderly_invoke_optional (.of_fewer (by omega))).bind
      fun others fourth fourthFewer => orderly_pure (by omega)
  · exact orderly_pure secondFewer

theorem block_orderly (reader : Reader) :
    Orderly .block reader.remaining reader.remaining Reading.block.script reader := by
  rw [script]
  -- Inside of the block children are allowed; this changes the reader but not its tokens.
  refine orderly_withChildren fun other same => ?_
  refine (orderly_expect _ other).bind fun _ second secondFewer => ?_
  refine (orderly_invoke_optional (.of_fewer (by omega))).bind
    fun _ third thirdFewer => ?_
  refine (orderly_invoke_optional (.of_fewer (by omega))).bind
    fun statements fourth fourthFewer => ?_
  refine (orderly_eat _ fourth).bind fun more fifth fifthFewer => ?_
  split
  · refine (orderly_invoke rfl (.of_fewer (by omega))).bind
      fun result sixth sixthFewer => ?_
    refine (orderly_invoke_optional (.of_fewer (by omega))).bind
      fun _ seventh seventhFewer => ?_
    exact (orderly_expect _ seventh).bind fun _ eighth eighthFewer => orderly_pure (by omega)
  · exact (orderly_expect _ fifth).bind fun _ sixth sixthFewer => orderly_pure (by omega)

theorem statementList_orderly (starts : reader.hasStatement = true) :
    Orderly .statementList reader.remaining reader.remaining Reading.statementList.script
      reader := by
  rw [script]
  apply orderly_get_bind
  rw [if_pos starts]
  refine (orderly_invoke rfl (.of_later le_rfl (by decide))).bind
    fun statement second secondFewer => ?_
  apply orderly_get_bind
  split
  · exact orderly_again secondFewer
  · exact orderly_pure secondFewer

theorem statement_orderly (reader : Reader) :
    Orderly .statement reader.remaining reader.remaining Reading.statement.script reader := by
  rw [script]
  exact orderly_invoke rfl (.of_later le_rfl (by decide))

theorem childList_orderly (starts : reader.hasChild = true) :
    Orderly .childList reader.remaining reader.remaining Reading.childList.script reader := by
  rw [script]
  apply orderly_get_bind
  rw [if_pos starts]
  refine (orderly_invoke rfl (.of_later le_rfl (by decide))).bind
    fun child second secondFewer => ?_
  apply orderly_get_bind
  split
  · exact orderly_again secondFewer
  · exact orderly_pure secondFewer

theorem expression_orderly (bound : Nat) (reader : Reader) :
    Orderly (.expression bound) reader.remaining reader.remaining (Reading.expression bound).script
      reader := by
  rw [script]
  refine (orderly_invoke rfl (.of_later le_rfl (by simp [rank]))).bind
    fun first second secondFewer => ?_
  exact (orderly_invoke_optional (.of_fewer secondFewer)).weaken (by omega)

theorem operations_orderly {bound : Nat} (left : Expr)
    (starts : (reader.binaryOp? bound).isSome = true) :
    Orderly (.operations bound left) reader.remaining reader.remaining
      (Reading.operations bound left).script reader := by
  obtain ⟨op, found⟩ := Option.isSome_iff_exists.mp starts
  obtain ⟨token, present, -⟩ :=
    Reader.nextOp?_eq_some_iff.mp (Reader.binaryOp?_eq_some_iff.mp found).1
  rw [script]
  apply orderly_get_bind
  rw [found]
  refine (orderly_advance_of_current present).bind fun _ second secondFewer => ?_
  refine (orderly_invoke_optional (.of_fewer secondFewer)).bind fun _ third thirdFewer => ?_
  refine (orderly_invoke rfl (.of_fewer (by omega))).bind fun right fourth fourthFewer => ?_
  exact (orderly_invoke_optional (.of_fewer (by omega))).weaken (by omega)

theorem unary_orderly (reader : Reader) :
    Orderly .unary reader.remaining reader.remaining Reading.unary.script reader := by
  rw [script]
  apply orderly_get_bind
  split
  · exact orderly_invoke rfl (.of_later le_rfl (by decide))
  · rename_i op span found
    obtain ⟨token, present, -⟩ := Reader.unaryOp?_eq_some_iff.mp found
    refine (orderly_advance_of_current present).bind fun _ second secondFewer => ?_
    apply orderly_get_bind
    split
    · refine orderly_integerValue_bind fun value => ?_
      exact (orderly_advance second).bind fun _ third thirdFewer => orderly_pure (by omega)
    · exact (orderly_invoke rfl (.of_fewer secondFewer)).bind
        fun operand third thirdFewer => orderly_pure (by omega)

theorem primary_orderly (reader : Reader) :
    Orderly .primary reader.remaining reader.remaining Reading.primary.script reader := by
  rw [script]
  apply orderly_get_bind
  split
  · exact orderly_unexpected
  · rename_i token present
    have passing : Orderly .primary reader.remaining reader.remaining Script.advance reader :=
      orderly_advance_of_current present
    split
    · refine passing.bind fun _ second secondFewer => ?_
      apply orderly_get_bind
      split
      · exact (orderly_invoke rfl (.of_fewer secondFewer)).weaken (by omega)
      · exact orderly_pure secondFewer
    · exact orderly_integerValue_bind fun value => passing.bind fun _ _ fewer => orderly_pure fewer
    · exact passing.bind fun _ _ fewer => orderly_pure fewer
    · exact passing.bind fun _ _ fewer => orderly_pure fewer
    · refine passing.bind fun _ second secondFewer => ?_
      refine (orderly_invoke_optional (.of_fewer secondFewer)).bind fun _ third thirdFewer => ?_
      refine (orderly_withChildren_expression (by omega)).bind fun _ fourth fourthFewer => ?_
      refine (orderly_invoke_optional (.of_fewer (by omega))).bind fun _ fifth fifthFewer => ?_
      exact (orderly_expect _ fifth).bind fun _ sixth sixthFewer => orderly_pure (by omega)
    · exact orderly_invoke rfl (.of_later le_rfl (by decide))
    · exact orderly_unexpected

theorem call_orderly (name : Ident) (reader : Reader) :
    Orderly (.call name) reader.remaining reader.remaining (Reading.call name).script reader := by
  rw [script]
  refine (orderly_expect _ reader).bind fun _ second secondFewer => ?_
  refine (orderly_invoke_optional (.of_fewer secondFewer)).bind fun _ third thirdFewer => ?_
  refine (orderly_invoke_optional (.of_fewer (by omega))).bind
    fun arguments fourth fourthFewer => ?_
  refine (orderly_expect _ fourth).bind fun close fifth fifthFewer => ?_
  apply orderly_get_bind
  split
  · refine (orderly_expect _ fifth).bind fun _ sixth sixthFewer => ?_
    refine (orderly_invoke_optional (.of_fewer (by omega))).bind fun _ seventh seventhFewer => ?_
    refine (orderly_invoke_optional (.of_fewer (by omega))).bind
      fun children eighth eighthFewer => ?_
    refine (orderly_expect _ eighth).bind fun _ ninth ninthFewer => ?_
    exact orderly_get_bind (orderly_pure (by omega))
  · exact orderly_pure (by omega)

theorem callArguments_orderly (starts : reader.isAt .identifier = true) :
    Orderly .callArguments reader.remaining reader.remaining Reading.callArguments.script
      reader := by
  rw [script]
  apply orderly_get_bind
  rw [if_pos starts]
  refine (orderly_identifier reader).bind fun label second secondFewer => ?_
  refine (orderly_expect _ second).bind fun _ third thirdFewer => ?_
  refine (orderly_withChildren_expression (by omega)).bind fun value fourth fourthFewer => ?_
  refine (orderly_invoke_optional (.of_fewer (by omega))).bind fun _ fifth fifthFewer => ?_
  refine (orderly_eat _ fifth).bind fun more sixth sixthFewer => ?_
  split
  · exact orderly_again (by omega)
  · exact orderly_pure (by omega)

theorem conditional_orderly (reader : Reader) :
    Orderly .conditional reader.remaining reader.remaining Reading.conditional.script reader := by
  rw [script]
  refine (orderly_expect _ reader).bind fun start second secondFewer => ?_
  refine (orderly_withChildren_expression secondFewer).bind fun condition third thirdFewer => ?_
  refine (orderly_invoke rfl (.of_fewer (by omega))).bind fun thenBlock fourth fourthFewer => ?_
  refine (orderly_eat _ fourth).bind fun more fifth fifthFewer => ?_
  split
  · refine (orderly_invoke rfl (.of_fewer (by omega))).bind fun elseBlock sixth sixthFewer => ?_
    exact orderly_get_bind (orderly_pure (by omega))
  · exact orderly_get_bind (orderly_pure (by omega))

theorem newlines_orderly (starts : reader.isAt .newline = true) :
    Orderly .newlines reader.remaining reader.remaining Reading.newlines.script reader := by
  obtain ⟨token, present, -⟩ := Reader.isAt_iff.mp starts
  rw [script]
  apply orderly_get_bind
  rw [if_pos starts]
  refine (orderly_advance_of_current present).bind fun _ second secondFewer => ?_
  exact (orderly_invoke_optional (.of_fewer secondFewer)).weaken (by omega)

/-- Where there is something to read, a token is passed. -/
theorem orderly_of_starts (reading : Reading) (starts : reading.starts reader = true) :
    Orderly reading reader.remaining reader.remaining reading.script reader := by
  cases reading with
  | program => exact program_orderly reader
  | itemList => exact itemList_orderly reader
  | item => exact item_orderly reader
  | function => exact function_orderly reader
  | parameterList => exact parameterList_orderly starts
  | parameter => exact parameter_orderly reader
  | resultType => exact resultType_orderly starts
  | typePath => exact typePath_orderly reader
  | typeNames => exact typeNames_orderly starts
  | block => exact block_orderly reader
  | statementList => exact statementList_orderly starts
  | statement => exact statement_orderly reader
  | childList => exact childList_orderly starts
  | expression bound => exact expression_orderly bound reader
  | operations bound left => exact operations_orderly left starts
  | unary => exact unary_orderly reader
  | primary => exact primary_orderly reader
  | call name => exact call_orderly name reader
  | callArguments => exact callArguments_orderly starts
  | conditional => exact conditional_orderly reader
  | newlines => exact newlines_orderly starts

/-! ## Parts that are missing -/

def Rests {α : Type} (script : Script α) (reader : Reader) : Prop :=
  script.calls read reader = [] ∧ ∃ value, script.run read reader = .ok value reader

section Rests

variable {α : Type}

theorem rests_get_bind {next : Reader → Script α} (rests : Rests (next reader) reader) :
    Rests (Script.get >>= next) reader := rests

theorem rests_ite {here : Bool} {present : Script α} {value : α} (absent : here = false) :
    Rests (if here then present else pure value) reader := by
  rw [absent]
  exact ⟨rfl, value, rfl⟩

theorem rests_eat_bind {kind : TokenKind} {next : Bool → Script α}
    (absent : reader.isAt kind = false) (rests : Rests (next false) reader) :
    Rests (eat kind >>= next) reader := by
  have stays : (eat kind).run read reader = .ok false reader := by
    rw [run_eat, Read.eat_eq_false_iff]
    exact ⟨absent, rfl⟩
  refine ⟨?_, ?_⟩
  · rw [calls_bind, silent_eat, stays]
    exact rests.1
  · rw [run_bind, bind_of_ok stays]
    exact rests.2

end Rests

theorem rests_of_not_starts (reading : Reading) (absent : reading.starts reader = false) :
    Rests reading.script reader := by
  cases reading with
  | parameterList => exact rests_get_bind (rests_ite absent)
  | resultType => exact rests_eat_bind absent (rests_ite rfl)
  | typeNames => exact rests_eat_bind absent (rests_ite rfl)
  | statementList => exact rests_get_bind (rests_ite absent)
  | childList => exact rests_get_bind (rests_ite absent)
  | operations bound left =>
      have noOperator : reader.binaryOp? bound = none :=
        Option.not_isSome_iff_eq_none.mp (ne_true_of_eq_false absent)
      rw [script]
      apply rests_get_bind
      rw [noOperator]
      exact ⟨rfl, left, rfl⟩
  | callArguments => exact rests_get_bind (rests_ite absent)
  | newlines => exact rests_get_bind (rests_ite absent)
  | _ => cases absent

/-! ## Calls come to an end -/

theorem descends (reading : Reading) (reader : Reader) :
    ∀ call ∈ reading.script.calls read reader, call.Descends reading reader.remaining := by
  cases starts : reading.starts reader with
  | true => exact (reading.orderly_of_starts starts).descends
  | false =>
      intro call made
      rw [(reading.rests_of_not_starts starts).1] at made
      cases made

/-- A function does what its script says, with the functions themselves in place of its calls. -/
theorem read_unfolds (reading : Reading) (reader : Reader) :
    reading.read reader = reading.script.run read reader := by
  obtain ⟨less, atLeast, unfolds⟩ := reading.action_unfolds (reader.budget + 1)
  rw [read, unfolds]
  refine (run_congr _ _ fun call made => ?_).symm
  -- No call has more tokens before it than its caller, so what is left of the bound suffices.
  have noMore : call.reader.remaining ≤ reader.remaining := by
    rcases reading.descends reader call made with fewer | ⟨same, -⟩
    · exact fewer.le
    · exact same.le
  refine (call.reading.action_eq_read ?_).symm
  unfold Reader.budget at atLeast ⊢
  omega

theorem rank_le (reading : Reading) : reading.rank ≤ 20 := by
  cases reading <;> simp [rank]

end Reading

def Script.Call.calls (caller : Script.Call) : List Script.Call :=
  caller.reading.script.calls Reading.read caller.reader

/-- No chain of calls goes on for ever. -/
theorem wellFounded_calls :
    WellFounded fun callee caller : Script.Call => callee ∈ caller.calls := by
  refine Subrelation.wf ?_ (measure fun call : Script.Call =>
    21 * call.reader.remaining + (20 - call.reading.rank)).wf
  intro callee caller made
  change 21 * callee.reader.remaining + (20 - callee.reading.rank) <
    21 * caller.reader.remaining + (20 - caller.reading.rank)
  -- One token outweighs all places in the order.
  have calleeRank := callee.reading.rank_le
  rcases caller.reading.descends caller.reader callee made with fewer | ⟨same, later⟩
  · omega
  · omega

/-! ## Public functions -/

namespace Reader

variable {α : Type}

def Answers (outcome : EStateM.Result ReadFailure Reader α)
    (result : Except SyntaxError α × Reader) : Prop :=
  match outcome with
  | .ok value after => result = (.ok value, after)
  | .error (.rejected error) after => result = (.error error, after)
  | .error .exhausted _ => False

theorem answers_run (reading : Reading) (reader : Reader) {limit : Nat}
    (leaves : Read.Leaves limit (reading.action reader.budget) reader) :
    Answers (reading.read reader) (Read.run (reading.action reader.budget) reader leaves) := by
  have same : reading.action reader.budget reader = reading.read reader :=
    reading.action_eq_of_leaves leaves (Nat.le_add_right _ 2)
  unfold Answers
  cases outcome : reading.read reader with
  | ok value after => exact Read.run_eq_ok_iff.mpr (same.trans outcome)
  | error failure after =>
      cases failure with
      | rejected error => exact Read.run_eq_error_iff.mpr (same.trans outcome)
      | exhausted => exact leaves.not_exhausted (same.trans outcome)

/-- The public functions never run out of the bounds they choose. -/
structure AnswersReading (reader : Reader) : Prop where
  program : Answers (Reading.program.read reader) reader.readProgram
  function : Answers (Reading.function.read reader) reader.readFunction
  block : Answers (Reading.block.read reader) reader.readBlock
  expression : Answers ((Reading.expression 0).read reader) reader.readExpression

theorem answersReading (reader : Reader) : reader.AnswersReading where
  program := answers_run .program reader _
  function := answers_run .function reader _
  block := answers_run .block reader _
  expression := answers_run (.expression 0) reader _

end Reader

/-! ## Termination -/

structure Reading.Terminates (reading : Reading) (reader : Reader) : Prop where
  /-- It does what its script says, with the functions themselves in place of its calls. -/
  unfolds : reading.read reader = reading.script.run Reading.read reader
  /-- A bound linear in the number of tokens is enough. -/
  finishes : ∀ fuel, 8 * reader.remaining + 5 ≤ fuel →
    reading.action fuel reader = reading.read reader
  notExhausted : ∀ after, reading.read reader ≠ .error .exhausted after
  /-- A call comes after a token or goes to a later function. -/
  descends : ∀ call ∈ (Script.Call.mk reading reader).calls,
    call.Descends reading reader.remaining
  /-- A loop goes round only after a token. -/
  iterates : ∀ call ∈ (Script.Call.mk reading reader).calls, call.reading.rank = reading.rank →
    call.reader.remaining < reader.remaining
  /-- What is there to read takes a token. -/
  passes : reading.starts reader = true → ∀ value after,
    reading.read reader = .ok value after → after.remaining < reader.remaining
  /-- What is not there takes no token and no call. -/
  rests : reading.starts reader = false → (Script.Call.mk reading reader).calls = [] ∧
    ∃ value, reading.read reader = .ok value reader

theorem terminates (reading : Reading) (reader : Reader) : reading.Terminates reader where
  unfolds := reading.read_unfolds reader
  finishes := fun _ enough => reading.action_eq_read enough
  notExhausted := fun _ => (reading.leaves_read reader).not_exhausted
  descends := reading.descends reader
  iterates := by
    intro call made sameRank
    rcases reading.descends reader call made with fewer | ⟨-, later⟩
    · exact fewer
    · exact absurd sameRank.symm later.ne
  passes := by
    intro starts value after succeeds
    rw [reading.read_unfolds reader] at succeeds
    exact (reading.orderly_of_starts starts).leaves value after succeeds
  rests := by
    intro absent
    rw [reading.read_unfolds reader]
    exact reading.rests_of_not_starts absent

/-- Reading comes to an end on all tokens: no chain of calls is endless, every function ends at
every reader, and the public functions give what the functions give. -/
theorem reading_terminates :
    (WellFounded fun callee caller : Script.Call => callee ∈ caller.calls) ∧
      (∀ (reading : Reading) (reader : Reader), reading.Terminates reader) ∧
      ∀ reader : Reader, reader.AnswersReading :=
  ⟨wellFounded_calls, terminates, Reader.answersReading⟩

end ScalarLang
