import ScalarLang.Proofs.Execution.Agreement
import ScalarLang.Proofs.Lowering.Checked

/-!
# Emitted code computes what the tree means

The instructions emitted for an expression are run in a frame whose stack slots hold
the parameters.  They agree with the evaluation of the expression, leave all earlier
values and the slots as they are, and put the value of the expression where lowering
says it is.  The arguments of a call have the types of its parameters, since the code
of the function was checked.
-/

set_option autoImplicit false

namespace ScalarLang

/-! ## Runs of instructions -/

namespace Ir.Function

variable {function : Function} {host : Host} {caller : Caller}

def runInsts (function : Function) (host : Host) (caller : Caller) :
    Frame → List Inst → Run Frame
  | frame, [] => return frame
  | frame, inst :: rest => do
    runInsts function host caller (← function.runInst host caller frame inst) rest

theorem runInsts_append (left right : List Inst) (frame : Frame) :
    function.runInsts host caller frame (left ++ right) = (do
      let middle ← function.runInsts host caller frame left
      function.runInsts host caller middle right) := by
  induction left generalizing frame with
  | nil => rfl
  | cons inst rest inductionHypothesis =>
      simp only [List.cons_append, runInsts, bind_assoc]
      exact congrArg _ (funext inductionHypothesis)

theorem runBody_append (insts rest : List Inst) (frame : Frame)
    (continues : ∀ inst ∈ insts, isReturn inst.op = false) :
    function.runBody host caller frame (insts ++ rest) = (do
      let middle ← function.runInsts host caller frame insts
      function.runBody host caller middle rest) := by
  induction insts generalizing frame with
  | nil => rfl
  | cons inst others inductionHypothesis =>
      have ofOthers := fun middle => inductionHypothesis middle
        fun inst member => continues inst (List.mem_cons_of_mem _ member)
      have notReturn := continues inst List.mem_cons_self
      obtain ⟨result, op⟩ := inst
      simp only [List.cons_append, runInsts, bind_assoc]
      rw [← funext ofOthers]
      cases op with
      | ret values => cases notReturn
      | _ => rfl

theorem runInst_of_computes {op : Op} (isComputed : computes op = true) (frame : Frame)
    (value : Ir.Value) :
    function.runInst host caller frame ⟨some value, op⟩ = (do
      let datum ← frame.compute host op
      return frame.define value datum) := by
  cases op with
  | stackStore operand slot => cases isComputed
  | call callee arguments => cases isComputed
  | ret values => cases isComputed
  | _ => rfl

end Ir.Function

/-! ## Frames -/

namespace Frame

/-- A later frame keeps the values below a number and the stack slots. -/
structure Keeps (size : Nat) (before after : Frame) : Prop where
  values : ∀ value, value < size → after.values value = before.values value
  slots : after.slots = before.slots

variable {first second third : Frame} {size larger : Nat}

theorem Keeps.refl (size : Nat) (frame : Frame) : Keeps size frame frame :=
  ⟨fun _ _ => rfl, rfl⟩

theorem Keeps.trans (left : Keeps size first second) (right : Keeps larger second third)
    (inside : size ≤ larger) : Keeps size first third := by
  refine ⟨?_, right.slots.trans left.slots⟩
  intro value below
  rw [right.values value (Nat.lt_of_lt_of_le below inside), left.values value below]

theorem keeps_define (frame : Frame) (size : Nat) (datum : Datum) :
    Keeps size frame (frame.define size datum) := by
  refine ⟨?_, rfl⟩
  intro value below
  exact if_neg (Nat.ne_of_lt below)

theorem define_self (frame : Frame) (value : Ir.Value) (datum : Datum) :
    (frame.define value datum).values value = some datum :=
  if_pos rfl

def Holds (frame : Frame) (operand : Operand) (value : Value) : Prop :=
  frame.values operand.value = some value.lowered ∧ value.type.lowered = operand.type

theorem Holds.keeps {operand : Operand} {value : Value} (holds : first.Holds operand value)
    (keeps : Keeps size first second) (below : operand.value < size) :
    second.Holds operand value :=
  ⟨(keeps.values operand.value below).trans holds.1, holds.2⟩

theorem readAll_eq {frame : Frame} {operands : List Operand} {values : List Value}
    (held : List.Forall₂ frame.Holds operands values) :
    frame.readAll (operands.map Operand.value) = pure (values.map Value.lowered) := by
  induction held with
  | nil => rfl
  | cons holds _ inductionHypothesis =>
      simp only [List.map_cons, readAll, read_eq holds.1, inductionHypothesis, pure_bind]

theorem holds_keeps {operands : List Operand} {values : List Value}
    (held : List.Forall₂ first.Holds operands values) (keeps : Keeps size first second)
    (below : ∀ operand ∈ operands, operand.value < size) :
    List.Forall₂ second.Holds operands values := by
  induction held with
  | nil => exact .nil
  | cons holds _ inductionHypothesis =>
      obtain ⟨firstBelow, restBelow⟩ := List.forall_mem_cons.mp below
      exact .cons (holds.keeps keeps firstBelow) (inductionHypothesis restBelow)

theorem types_of_holds {frame : Frame} {operands : List Operand} {values : List Value}
    (held : List.Forall₂ frame.Holds operands values) :
    values.map (·.type.lowered) = operands.map Operand.type := by
  induction held with
  | nil => rfl
  | cons holds _ inductionHypothesis =>
      rw [List.map_cons, List.map_cons, holds.2, inductionHypothesis]

end Frame

/-! ## Simulation -/

def Returns (results : List Ir.Ty) (value : Option Value) (data : List Datum) : Prop :=
  data = value.toList.map Value.lowered ∧ value.toList.map (·.type.lowered) = results

/-- What the body of a function relies on: the stack slots hold the parameters, and
the functions that can be called do what they mean. -/
structure Setting (scopes : ScopeTable Binding) (known : List Meaning)
    (parameters : List (String × Value)) (caller : Caller) (slots : Nat → Option Datum) :
    Prop where
  held : ∀ {name slot type}, scopes.lookup? name = some (.parameter slot type) →
    ∃ value, parameters.reverse.lookup name = some value ∧ value.type.lowered = type ∧
      slots slot = some value.lowered
  calls : ∀ {name arguments span number signature},
    resolveCall scopes name arguments span = .ok (number, signature) →
    ∃ meaning, known.find? (fun meaning => meaning.isCalledBy name arguments) = some meaning ∧
      ∀ values output, values.map (·.type.lowered) = signature.params →
        Agrees (Returns signature.results) (meaning.act values output)
          (caller number (values.map Value.lowered) output)

def Part.Simulates (host : Host) (known : List Meaning) (parameters : List (String × Value))
    (size : Nat) (frame : Frame) (output : List Int64) (run : Run Frame) : Part → Prop
  | .expression expr operand =>
      Agrees (fun value after => frame.Keeps size after ∧ Option.Rel after.Holds operand value)
        (expr.eval host known parameters output) (run output)
  | .arguments given operands =>
      Agrees (fun values after =>
          frame.Keeps size after ∧ List.Forall₂ after.Holds operands values)
        (evalArguments host known parameters given output) (run output)
  | .statements list =>
      Agrees (fun _ after => frame.Keeps size after)
        (evalStatements host known parameters list output) (run output)

section Steps

variable {host : Host} {caller : Caller} {function : Ir.Function} {frame : Frame}
  {output : List Int64} {size : Nat}

theorem agrees_value {operand : Operand} {evaluated : Run (Option Value)} {run : Run Frame}
    (agrees : Agrees (fun value after =>
        frame.Keeps size after ∧ Option.Rel after.Holds (some operand) value)
      (evaluated output) (run output)) :
    Agrees (fun value after => frame.Keeps size after ∧ after.Holds operand value)
      (Run.value evaluated output) (run output) := by
  change Agrees _ ((evaluated >>= Run.ofOption) output) _
  rw [← bind_pure run]
  refine agrees.bind ?_
  rintro value? after printed ⟨keeps, holds⟩
  cases holds with
  | some holds => exact ⟨⟨keeps, holds⟩, rfl⟩

theorem agrees_some {operand : Operand} {evaluated : Run Value} {run : Run Frame}
    (agrees : Agrees (fun value after => frame.Keeps size after ∧ after.Holds operand value)
      (evaluated output) (run output)) :
    Agrees (fun value after =>
        frame.Keeps size after ∧ Option.Rel after.Holds (some operand) value)
      ((evaluated >>= fun value => pure (some value)) output) (run output) := by
  rw [← bind_pure run]
  refine agrees.bind ?_
  rintro value after printed ⟨keeps, holds⟩
  exact ⟨⟨keeps, .some holds⟩, rfl⟩

/-- An instruction that computes what an evaluation gives puts it at the next number. -/
theorem agrees_define {op : Ir.Op} {type : Ir.Ty} {evaluated : Run Value}
    (isComputed : Ir.Function.computes op = true)
    (agrees : Agrees (Represents type) (evaluated output) (frame.compute host op output)) :
    Agrees (fun value after => frame.Keeps size after ∧ after.Holds ⟨size, type⟩ value)
      (evaluated output)
      (function.runInsts host caller frame [⟨some size, op⟩] output) := by
  simp only [Ir.Function.runInsts, Ir.Function.runInst_of_computes isComputed, bind_pure]
  rw [← bind_pure evaluated]
  refine agrees.bind ?_
  rintro value datum printed ⟨rfl, hasType⟩
  exact ⟨⟨frame.keeps_define size _, frame.define_self size _, hasType⟩, rfl⟩

end Steps

theorem Literal.denote_agrees (literal : Literal) (host : Host) (frame : Frame)
    (output : List Int64) :
    Agrees (Represents literal.lowered.2) ((pure literal.denote : Run Value) output)
      (frame.compute host literal.lowered.1 output) := by
  cases literal with
  | integer value =>
      exact ⟨⟨congrArg Datum.i64 (toBitVec_ofInt_toInt value), rfl⟩, rfl⟩
  | float value => exact ⟨⟨rfl, rfl⟩, rfl⟩
  | boolean value => cases value <;> exact ⟨⟨rfl, rfl⟩, rfl⟩

theorem evalChildren_eq (host : Host) (known : List Meaning)
    (parameters : List (String × Value)) (children : Option (List Expr)) :
    evalChildren host known parameters children =
      evalStatements host known parameters (children.getD []) := by
  cases children with
  | none => rfl
  | some list => rfl

section Induction

variable {host : Host} {scopes : ScopeTable Binding} {known : List Meaning}
  {parameters : List (String × Value)} {caller : Caller} {slots : Nat → Option Datum}
  {function : Ir.Function}

theorem Setting.identifier_agrees
    (setting : Setting scopes known parameters caller slots) {name : String} {slot : Nat}
    {type : Ir.Ty} (bound : scopes.lookup? name = some (.parameter slot type)) {frame : Frame}
    (sameSlots : frame.slots = slots) (output : List Int64) :
    Agrees (Represents type) (Run.ofOption (parameters.reverse.lookup name) output)
      (frame.compute host (.stackLoad type slot) output) := by
  obtain ⟨value, isParameter, hasType, isHeld⟩ := setting.held bound
  rw [isParameter]
  have loads : frame.compute host (.stackLoad type slot) = pure value.lowered := by
    simp only [Frame.compute, sameSlots, isHeld]
    have sameType : value.lowered.type = type := value.type_lowered.trans hasType
    exact if_pos sameType
  rw [loads]
  exact ⟨⟨rfl, hasType⟩, rfl⟩

/-- The call itself, after its arguments and its children. -/
theorem Setting.call_agrees
    {last : Ir.Function} {number : Nat} {signature : Ir.Signature} {operands : List Operand}
    {values : List Value} {frame : Frame} {meaning : Meaning} {output : List Int64}
    (begins : (last.addCall number true signature (operands.map Operand.value)).2.Begins function)
    (held : List.Forall₂ frame.Holds operands values)
    (agrees : Agrees (Returns signature.results) (meaning.act values output)
      (caller number (values.map Value.lowered) output)) :
    Agrees (fun value after => frame.Keeps last.values.size after ∧
        Option.Rel after.Holds
          (signature.results.head?.map fun type => ⟨last.values.size, type⟩) value)
      (meaning.act values output)
      (function.runInsts host caller frame
        [⟨signature.results.head?.map fun _ => last.values.size,
          .call last.callees.size (operands.map Operand.value)⟩] output) := by
  simp only [Ir.Function.runInsts, Ir.Function.runInst, callee_of_addCall begins,
    Frame.readAll_eq held, bind_pure]
  rw [← bind_pure (meaning.act values)]
  change Agrees _ _ ((caller number (values.map Value.lowered) >>= _) output)
  refine agrees.bind ?_
  rintro value data printed ⟨rfl, hasType⟩
  cases value with
  | none =>
      rw [← hasType]
      exact ⟨⟨.refl _ _, .none⟩, rfl⟩
  | some value =>
      rw [← hasType]
      exact ⟨⟨frame.keeps_define _ _, .some ⟨frame.define_self _ _, rfl⟩⟩, rfl⟩

/-- The instructions of a part do what the part does, in every frame with the given slots. -/
def Part.SimulatedBy (host : Host) (known : List Meaning) (parameters : List (String × Value))
    (caller : Caller) (slots : Nat → Option Datum) (function code after : Ir.Function) (part : Part)
    (insts : List Ir.Inst) : Prop :=
  after.Begins function → function.CallsTyped insts →
    ∀ {frame : Frame}, frame.slots = slots → ∀ output,
      part.Simulates host known parameters code.values.size frame output
        (function.runInsts host caller frame insts)

section Cases

variable {code middle last : Ir.Function}

theorem simulatedBy_identifier (setting : Setting scopes known parameters caller slots)
    {name : String} {slot : Nat} {type : Ir.Ty}
    (bound : scopes.lookup? name = some (.parameter slot type)) (span : Span) :
    Part.SimulatedBy host known parameters caller slots function code
      (code.define type (.stackLoad type slot)).2
      (.expression (.identifier name span) (some ⟨code.values.size, type⟩))
      [⟨some code.values.size, .stackLoad type slot⟩] := by
  intro begins typed frame sameSlots output
  simp only [Part.Simulates, Expr.eval]
  exact agrees_some (agrees_define rfl (setting.identifier_agrees bound sameSlots output))

theorem simulatedBy_unary {op : UnaryOp} {expr : Expr} {operand : Operand}
    {insts : List Ir.Inst} {selected : Ir.Op} (span : Span)
    (ofOperand : Emits scopes code (.expression expr (some operand)) insts middle)
    (selects : op.select? operand.type operand.value = some selected)
    (operandSimulates : Part.SimulatedBy host known parameters caller slots function code middle
      (.expression expr (some operand)) insts) :
    Part.SimulatedBy host known parameters caller slots function code
      (middle.define operand.type selected).2
      (.expression (.unary op expr span) (some ⟨middle.values.size, operand.type⟩))
      (insts ++ [⟨some middle.values.size, selected⟩]) := by
  intro begins typed frame sameSlots output
  obtain ⟨operandTyped, -⟩ := Ir.Function.callsTyped_append.mp typed
  have operandAgrees := operandSimulates
    ((middle.begins_define operand.type selected).trans begins) operandTyped sameSlots output
  simp only [Part.Simulates, Expr.eval, Ir.Function.runInsts_append] at operandAgrees ⊢
  refine (agrees_value operandAgrees).bind ?_
  rintro value middleFrame printed ⟨keeps, holds⟩
  rw [← holds.2] at selects ⊢
  refine Agrees.mono ?_ (agrees_some (agrees_define
    (UnaryOp.computes_of_select? selects) (UnaryOp.eval_agrees selects holds.1 printed)))
  rintro result after ⟨keepsAfter, holdsAfter⟩
  exact ⟨keeps.trans keepsAfter ofOperand.begins.values_size_le, holdsAfter⟩

theorem simulatedBy_binary {op : BinaryOp} {lhs rhs : Expr} {left right : Operand}
    {leftInsts rightInsts : List Ir.Inst} {selected : Ir.Op} {type : Ir.Ty} (span : Span)
    (ofLeft : Emits scopes code (.expression lhs (some left)) leftInsts middle)
    (ofRight : Emits scopes middle (.expression rhs (some right)) rightInsts last)
    (sameType : left.type = right.type)
    (selects : op.select? left.type left.value right.value = some (selected, type))
    (leftSimulates : Part.SimulatedBy host known parameters caller slots function code middle
      (.expression lhs (some left)) leftInsts)
    (rightSimulates : Part.SimulatedBy host known parameters caller slots function middle last
      (.expression rhs (some right)) rightInsts) :
    Part.SimulatedBy host known parameters caller slots function code
      (last.define type selected).2
      (.expression (.binary op lhs rhs span) (some ⟨last.values.size, type⟩))
      (leftInsts ++ rightInsts ++ [⟨some last.values.size, selected⟩]) := by
  intro begins typed frame sameSlots output
  obtain ⟨bothTyped, -⟩ := Ir.Function.callsTyped_append.mp typed
  obtain ⟨leftTyped, rightTyped⟩ := Ir.Function.callsTyped_append.mp bothTyped
  have lastBegins := (last.begins_define type selected).trans begins
  have leftAgrees := leftSimulates (ofRight.begins.trans lastBegins) leftTyped sameSlots output
  simp only [Part.Simulates, Expr.eval, Ir.Function.runInsts_append, bind_assoc]
    at leftAgrees ⊢
  refine (agrees_value leftAgrees).bind ?_
  rintro leftValue middleFrame printed ⟨leftKeeps, leftHolds⟩
  have rightAgrees := rightSimulates lastBegins rightTyped
    (leftKeeps.slots.trans sameSlots) printed
  simp only [Part.Simulates] at rightAgrees
  refine (agrees_value rightAgrees).bind ?_
  rintro rightValue lastFrame printed' ⟨rightKeeps, rightHolds⟩
  have leftBelow := Ir.Function.lt_of_typeOf? (ofLeft.operands left rfl)
  have leftStays := leftHolds.keeps rightKeeps leftBelow
  have sameValueType : leftValue.type = rightValue.type := by
    have lowered : leftValue.type.lowered = rightValue.type.lowered := by
      rw [leftStays.2, rightHolds.2, sameType]
    revert lowered
    cases leftValue.type <;> cases rightValue.type <;> simp [ScalarType.lowered]
  rw [← leftStays.2] at selects
  refine Agrees.mono ?_ (agrees_some (agrees_define (BinaryOp.computes_of_select? selects)
    (BinaryOp.eval_agrees selects sameValueType leftStays.1 rightHolds.1 printed')))
  rintro result after ⟨keepsAfter, holdsAfter⟩
  have keepsBoth := leftKeeps.trans rightKeeps ofLeft.begins.values_size_le
  exact ⟨keepsBoth.trans keepsAfter
    (ofLeft.begins.trans ofRight.begins).values_size_le, holdsAfter⟩

theorem simulatedBy_call (setting : Setting scopes known parameters caller slots) {name : Ident}
    {arguments : List CallArgument} {children : Option (List Expr)} {operands : List Operand}
    {argumentInsts childInsts : List Ir.Inst} {number : Nat} {signature : Ir.Signature}
    (span : Span) (resolved : resolveCall scopes name arguments span = .ok (number, signature))
    (ofArguments : Emits scopes code (.arguments arguments operands) argumentInsts middle)
    (ofChildren : Emits scopes middle (.statements (children.getD [])) childInsts last)
    (argumentsSimulate : Part.SimulatedBy host known parameters caller slots function code middle
      (.arguments arguments operands) argumentInsts)
    (childrenSimulate : Part.SimulatedBy host known parameters caller slots function middle last
      (.statements (children.getD [])) childInsts) :
    Part.SimulatedBy host known parameters caller slots function code
      (last.addCall number true signature (operands.map Operand.value)).2
      (.expression (.call name arguments children span)
        (signature.results.head?.map fun type => ⟨last.values.size, type⟩))
      (argumentInsts ++ childInsts ++
        [⟨signature.results.head?.map fun _ => last.values.size,
          .call last.callees.size (operands.map Operand.value)⟩]) := by
  intro begins typed frame sameSlots output
  obtain ⟨bothTyped, callTyped⟩ := Ir.Function.callsTyped_append.mp typed
  obtain ⟨argumentsTyped, childrenTyped⟩ := Ir.Function.callsTyped_append.mp bothTyped
  have lastBegins := (last.begins_addCall number true signature
    (operands.map Operand.value)).trans begins
  obtain ⟨meaning, found, meaningAgrees⟩ := setting.calls resolved
  have argumentsAgree := argumentsSimulate (ofChildren.begins.trans lastBegins) argumentsTyped
    sameSlots output
  simp only [Part.Simulates, Expr.eval, found, evalChildren_eq, Ir.Function.runInsts_append,
    bind_assoc] at argumentsAgree ⊢
  change Agrees _ ((evalArguments host known parameters arguments >>= _) output) _
  refine argumentsAgree.bind ?_
  rintro values middleFrame printed ⟨argumentsKeep, argumentsHold⟩
  have childrenAgree := childrenSimulate lastBegins childrenTyped
    (argumentsKeep.slots.trans sameSlots) printed
  simp only [Part.Simulates] at childrenAgree
  refine childrenAgree.bind ?_
  rintro ⟨⟩ lastFrame printed' childrenKeep
  have operandTypes : ∀ operand ∈ operands, middle.typeOf? operand.value = some operand.type :=
    ofArguments.operands
  have argumentsStay := Frame.holds_keeps argumentsHold childrenKeep
    fun operand member => Ir.Function.lt_of_typeOf? (operandTypes operand member)
  have sameTypes : values.map (·.type.lowered) = signature.params := by
    rw [Frame.types_of_holds argumentsStay]
    exact argumentTypes_of_callsTyped begins
      (fun operand member => ofChildren.begins.typeOf? (operandTypes operand member)) callTyped
  refine Agrees.mono ?_ (Setting.call_agrees begins argumentsStay
    (meaningAgrees values printed' sameTypes))
  rintro result after ⟨keepsAfter, holdsAfter⟩
  have keepsBoth := argumentsKeep.trans childrenKeep ofArguments.begins.values_size_le
  exact ⟨keepsBoth.trans keepsAfter
    (ofArguments.begins.trans ofChildren.begins).values_size_le, holdsAfter⟩

theorem simulatedBy_argument {first : CallArgument} {rest : List CallArgument}
    {operand : Operand} {operands : List Operand} {firstInsts restInsts : List Ir.Inst}
    (ofFirst : Emits scopes code (.expression first.value (some operand)) firstInsts middle)
    (ofRest : Emits scopes middle (.arguments rest operands) restInsts last)
    (firstSimulates : Part.SimulatedBy host known parameters caller slots function code middle
      (.expression first.value (some operand)) firstInsts)
    (restSimulates : Part.SimulatedBy host known parameters caller slots function middle last
      (.arguments rest operands) restInsts) :
    Part.SimulatedBy host known parameters caller slots function code last
      (.arguments (first :: rest) (operand :: operands)) (firstInsts ++ restInsts) := by
  intro begins typed frame sameSlots output
  obtain ⟨firstTyped, restTyped⟩ := Ir.Function.callsTyped_append.mp typed
  have firstAgrees := firstSimulates (ofRest.begins.trans begins) firstTyped sameSlots output
  obtain ⟨label, expr⟩ := first
  simp only [Part.Simulates, evalArguments, Ir.Function.runInsts_append] at firstAgrees ⊢
  refine (agrees_value firstAgrees).bind ?_
  rintro value middleFrame printed ⟨firstKeeps, firstHolds⟩
  have restAgrees := restSimulates begins restTyped (firstKeeps.slots.trans sameSlots) printed
  simp only [Part.Simulates] at restAgrees
  rw [← bind_pure (function.runInsts host caller middleFrame restInsts)]
  refine restAgrees.bind ?_
  rintro values lastFrame printed' ⟨restKeeps, restHold⟩
  have firstBelow := Ir.Function.lt_of_typeOf? (ofFirst.operands operand rfl)
  exact ⟨⟨firstKeeps.trans restKeeps ofFirst.begins.values_size_le,
    .cons (firstHolds.keeps restKeeps firstBelow) restHold⟩, rfl⟩

theorem simulatedBy_statement {first : Expr} {rest : List Expr} {operand : Option Operand}
    {firstInsts restInsts : List Ir.Inst}
    (ofFirst : Emits scopes code (.expression first operand) firstInsts middle)
    (ofRest : Emits scopes middle (.statements rest) restInsts last)
    (firstSimulates : Part.SimulatedBy host known parameters caller slots function code middle
      (.expression first operand) firstInsts)
    (restSimulates : Part.SimulatedBy host known parameters caller slots function middle last
      (.statements rest) restInsts) :
    Part.SimulatedBy host known parameters caller slots function code last
      (.statements (first :: rest)) (firstInsts ++ restInsts) := by
  intro begins typed frame sameSlots output
  obtain ⟨firstTyped, restTyped⟩ := Ir.Function.callsTyped_append.mp typed
  have firstAgrees := firstSimulates (ofRest.begins.trans begins) firstTyped sameSlots output
  simp only [Part.Simulates, evalStatements, Ir.Function.runInsts_append] at firstAgrees ⊢
  refine firstAgrees.bind ?_
  rintro value middleFrame printed ⟨firstKeeps, -⟩
  have restAgrees := restSimulates begins restTyped (firstKeeps.slots.trans sameSlots) printed
  refine Agrees.mono ?_ restAgrees
  rintro ⟨⟩ lastFrame restKeeps
  exact firstKeeps.trans restKeeps ofFirst.begins.values_size_le

end Cases

theorem Emits.simulates (setting : Setting scopes known parameters caller slots)
    {code after : Ir.Function} {part : Part} {insts : List Ir.Inst}
    (emits : Emits scopes code part insts after) :
    part.SimulatedBy host known parameters caller slots function code after insts := by
  induction emits with
  | literal code value span =>
      intro begins typed frame sameSlots output
      exact agrees_some
        (agrees_define value.computes_lowered (value.denote_agrees host frame output))
  | identifier code name span slot type bound =>
      exact simulatedBy_identifier setting bound span
  | unary span ofOperand selects operandSimulates =>
      exact simulatedBy_unary span ofOperand selects operandSimulates
  | binary span ofLeft ofRight sameType selects leftSimulates rightSimulates =>
      exact simulatedBy_binary span ofLeft ofRight sameType selects leftSimulates rightSimulates
  | call span resolved ofArguments ofChildren argumentsSimulate childrenSimulate =>
      exact simulatedBy_call setting span resolved ofArguments ofChildren argumentsSimulate
        childrenSimulate
  | noArguments code => exact fun _ _ _ _ _ => ⟨⟨.refl _ _, .nil⟩, rfl⟩
  | argument ofFirst ofRest firstSimulates restSimulates =>
      exact simulatedBy_argument ofFirst ofRest firstSimulates restSimulates
  | noStatements code => exact fun _ _ _ _ _ => ⟨.refl _ _, rfl⟩
  | statement ofFirst ofRest firstSimulates restSimulates =>
      exact simulatedBy_statement ofFirst ofRest firstSimulates restSimulates

end Induction

end ScalarLang
