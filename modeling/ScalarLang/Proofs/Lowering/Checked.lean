import ScalarLang.Proofs.Lowering.Functions

/-!
# Emitted code that is well formed

The instructions that lowering emits are well formed but for the arguments of calls,
whose types nothing compares with the parameters of the function that is called.  So
the check of a finished function says exactly that the arguments of its calls and its
results have the types that are asked for.
-/

set_option autoImplicit false

namespace ScalarLang

theorem eq_of_map_some {α : Type} {left right : List α}
    (same : left.map some = right.map some) : left = right :=
  List.map_injective_iff.mpr (fun _ _ equal => Option.some.inj equal) same

namespace Ir.Function

variable {function : Function}

theorem haveTypes_iff {values : List Value} {types : List Ty} :
    function.haveTypes values types = true ↔ values.map function.typeOf? = types.map some := by
  simp [haveTypes]

theorem lt_of_typeOf? {value : Value} {type : Ty} (typed : function.typeOf? value = some type) :
    value < function.values.size :=
  (Array.getElem?_eq_some_iff.mp typed).1

def computes : Op → Bool
  | .stackStore _ _ => false
  | .call _ _ => false
  | .ret _ => false
  | _ => true

theorem isReturn_of_computes {op : Op} (isComputed : computes op = true) :
    isReturn op = false := by
  cases op with
  | ret values => cases isComputed
  | _ => rfl

/-! ## Runs of instructions -/

/-- Instructions without a return are well formed after some number of values, and
there are as many values as said after them. -/
inductive Checks (function : Function) : Nat → List Inst → Nat → Prop where
  | nil (defined : Nat) : Checks function defined [] defined
  | value {defined last : Nat} {op : Op} {rest : List Inst} (continues : isReturn op = false)
      (checked : function.checkInst defined ⟨some defined, op⟩ = true)
      (ofRest : Checks function (defined + 1) rest last) :
      Checks function defined (⟨some defined, op⟩ :: rest) last
  | effect {defined last : Nat} {op : Op} {rest : List Inst} (continues : isReturn op = false)
      (checked : function.checkInst defined ⟨none, op⟩ = true)
      (ofRest : Checks function defined rest last) :
      Checks function defined (⟨none, op⟩ :: rest) last

theorem Checks.append {first middle last : Nat} {left right : List Inst}
    (ofLeft : Checks function first left middle) (ofRight : Checks function middle right last) :
    Checks function first (left ++ right) last := by
  induction ofLeft with
  | nil defined => exact ofRight
  | value continues checked _ inductionHypothesis =>
      exact .value continues checked (inductionHypothesis ofRight)
  | effect continues checked _ inductionHypothesis =>
      exact .effect continues checked (inductionHypothesis ofRight)

theorem Checks.checkBody {first last : Nat} {insts rest : List Inst}
    (checks : Checks function first insts last) (ofRest : function.checkBody last rest = true) :
    function.checkBody first (insts ++ rest) = true := by
  induction checks with
  | nil defined => exact ofRest
  | value continues checked _ inductionHypothesis =>
      simp [Function.checkBody, continues, checked, inductionHypothesis ofRest]
  | effect continues checked _ inductionHypothesis =>
      simp [Function.checkBody, continues, checked, inductionHypothesis ofRest]

theorem wellTyped_of_checkBody {defined : Nat} {insts : List Inst}
    (checked : function.checkBody defined insts = true) {inst : Inst} (member : inst ∈ insts) :
    function.wellTyped inst.op (inst.result.bind function.typeOf?) = true := by
  induction insts generalizing defined with
  | nil => cases member
  | cons first rest inductionHypothesis =>
      simp only [checkBody, Bool.and_eq_true] at checked
      obtain ⟨ofFirst, ofRest⟩ := checked
      rcases List.mem_cons.mp member with rfl | member
      · simp only [checkInst, Bool.and_eq_true] at ofFirst
        cases result : inst.result with
        | none => simpa [result] using ofFirst.2
        | some value =>
            simp only [result, Bool.and_eq_true] at ofFirst
            exact ofFirst.2.2
      · split at ofRest
        · rw [List.isEmpty_iff.mp ofRest] at member
          cases member
        · split at ofRest
          · exact inductionHypothesis ofRest member
          · exact inductionHypothesis ofRest member

def CallsTyped (function : Function) (insts : List Inst) : Prop :=
  ∀ result callee arguments, ⟨result, .call callee arguments⟩ ∈ insts →
    ∃ signature, function.calleeSignature? callee = some signature ∧
      arguments.map function.typeOf? = signature.params.map some

theorem callsTyped_append {left right : List Inst} :
    function.CallsTyped (left ++ right) ↔
      function.CallsTyped left ∧ function.CallsTyped right := by
  constructor
  · intro typed
    refine ⟨?_, ?_⟩
    · intro result callee arguments member
      exact typed result callee arguments (List.mem_append_left _ member)
    · intro result callee arguments member
      exact typed result callee arguments (List.mem_append_right _ member)
  · rintro ⟨ofLeft, ofRight⟩ result callee arguments member
    rcases List.mem_append.mp member with member | member
    · exact ofLeft result callee arguments member
    · exact ofRight result callee arguments member

theorem callsTyped_of_check (checked : function.check = true) :
    function.CallsTyped function.body.toList := by
  intro result callee arguments member
  simp only [check, Bool.and_eq_true] at checked
  have typed := wellTyped_of_checkBody checked.2 member
  simp only [wellTyped] at typed
  cases found : function.calleeSignature? callee with
  | none => simp [found] at typed
  | some signature =>
      simp only [found, Bool.and_eq_true] at typed
      exact ⟨signature, rfl, haveTypes_iff.mp typed.1⟩

theorem results_of_check (checked : function.check = true) (values : List Value)
    (member : ⟨none, .ret values⟩ ∈ function.body.toList) :
    values.map function.typeOf? = function.signature.results.map some := by
  simp only [check, Bool.and_eq_true] at checked
  have typed := wellTyped_of_checkBody checked.2 member
  simp only [wellTyped, Bool.and_eq_true] at typed
  exact haveTypes_iff.mp typed.1

end Ir.Function

/-! ## Calls -/

section Calls

variable {last final : Ir.Function} {number : Nat} {colocated : Bool} {signature : Ir.Signature}
  {arguments : List Ir.Value}

theorem callee_of_addCall
    (begins : (last.addCall number colocated signature arguments).2.Begins final) :
    final.callees[last.callees.size]? = some ⟨number, colocated, last.signatures.size⟩ := by
  refine Ir.Function.getElem?_of_prefix begins.callees ?_
  rw [← Array.getElem?_toList, Ir.Function.addCall_callees]
  simp

theorem calleeSignature?_of_addCall
    (begins : (last.addCall number colocated signature arguments).2.Begins final) :
    final.calleeSignature? last.callees.size = some signature := by
  simp only [Ir.Function.calleeSignature?, callee_of_addCall begins]
  refine Ir.Function.getElem?_of_prefix begins.signatures ?_
  rw [← Array.getElem?_toList, Ir.Function.addCall_signatures]
  simp

theorem map_typeOf?_operands {operands : List Operand}
    (typed : ∀ operand ∈ operands, final.typeOf? operand.value = some operand.type) :
    (operands.map Operand.value).map final.typeOf? = (operands.map Operand.type).map some := by
  simp only [List.map_map]
  exact List.map_congr_left typed

/-- The arguments of a checked call have the types of the parameters. -/
theorem argumentTypes_of_callsTyped {operands : List Operand} {result : Option Ir.Value}
    (begins : (last.addCall number colocated signature (operands.map Operand.value)).2.Begins final)
    (typed : ∀ operand ∈ operands, last.typeOf? operand.value = some operand.type)
    (calls : final.CallsTyped [⟨result, .call last.callees.size (operands.map Operand.value)⟩]) :
    operands.map Operand.type = signature.params := by
  obtain ⟨found, isSignature, sameTypes⟩ := calls _ _ _ (List.mem_singleton.mpr rfl)
  rw [calleeSignature?_of_addCall begins] at isSignature
  cases isSignature
  have begins' := (last.begins_addCall number colocated signature
    (operands.map Operand.value)).trans begins
  rw [map_typeOf?_operands fun operand member => begins'.typeOf? (typed operand member)]
    at sameTypes
  exact eq_of_map_some sameTypes

theorem callsTyped_of_argumentTypes {operands : List Operand} {result : Option Ir.Value}
    (begins : (last.addCall number colocated signature (operands.map Operand.value)).2.Begins final)
    (typed : ∀ operand ∈ operands, last.typeOf? operand.value = some operand.type)
    (sameTypes : operands.map Operand.type = signature.params) :
    final.CallsTyped [⟨result, .call last.callees.size (operands.map Operand.value)⟩] := by
  intro found callee given member
  cases List.mem_singleton.mp member
  have lastBegins := (last.begins_addCall number colocated signature
    (operands.map Operand.value)).trans begins
  refine ⟨signature, calleeSignature?_of_addCall begins, ?_⟩
  rw [← sameTypes]
  exact map_typeOf?_operands fun operand member => lastBegins.typeOf? (typed operand member)

theorem callsTyped_of_computes {result : Option Ir.Value} {op : Ir.Op}
    (isComputed : Ir.Function.computes op = true) : final.CallsTyped [⟨result, op⟩] := by
  intro found callee given member
  cases List.mem_singleton.mp member
  cases isComputed

end Calls

/-! ## Emitted instructions -/

theorem UnaryOp.computes_of_select? {op : UnaryOp} {type : Ir.Ty} {operand : Ir.Value}
    {selected : Ir.Op} (selects : op.select? type operand = some selected) :
    Ir.Function.computes selected = true := by
  cases op <;> cases type <;> cases selects <;> rfl

theorem BinaryOp.computes_of_select? {op : BinaryOp} {type result : Ir.Ty} {lhs rhs : Ir.Value}
    {selected : Ir.Op} (selects : op.select? type lhs rhs = some (selected, result)) :
    Ir.Function.computes selected = true := by
  cases op <;> cases type <;> cases selects <;> rfl

theorem Literal.computes_lowered (literal : Literal) :
    Ir.Function.computes literal.lowered.1 = true := by
  cases literal <;> rfl

theorem Emits.continues {scopes : ScopeTable Binding} {code after : Ir.Function} {part : Part}
    {insts : List Ir.Inst} (emits : Emits scopes code part insts after) :
    ∀ inst ∈ insts, Ir.Function.isReturn inst.op = false := by
  have single : ∀ {value : Ir.Value} {op : Ir.Op}, Ir.Function.computes op = true →
      ∀ inst ∈ [(⟨some value, op⟩ : Ir.Inst)], Ir.Function.isReturn inst.op = false := by
    intro value op isComputed inst member
    rw [List.mem_singleton.mp member]
    exact Ir.Function.isReturn_of_computes isComputed
  induction emits with
  | literal code value span => exact single value.computes_lowered
  | identifier code name span slot type bound => exact single rfl
  | unary span ofOperand selects ofOperandContinues =>
      exact List.forall_mem_append.mpr
        ⟨ofOperandContinues, single (UnaryOp.computes_of_select? selects)⟩
  | binary span ofLeft ofRight sameType selects leftContinues rightContinues =>
      exact List.forall_mem_append.mpr ⟨List.forall_mem_append.mpr ⟨leftContinues, rightContinues⟩,
        single (BinaryOp.computes_of_select? selects)⟩
  | call span resolved ofArguments ofChildren argumentsContinue childrenContinue =>
      refine List.forall_mem_append.mpr
        ⟨List.forall_mem_append.mpr ⟨argumentsContinue, childrenContinue⟩, ?_⟩
      intro inst member
      rw [List.mem_singleton.mp member]
      rfl
  | noArguments code => simp
  | argument ofFirst ofRest firstContinues restContinues =>
      exact List.forall_mem_append.mpr ⟨firstContinues, restContinues⟩
  | noStatements code => simp
  | statement ofFirst ofRest firstContinues restContinues =>
      exact List.forall_mem_append.mpr ⟨firstContinues, restContinues⟩

section Selected

variable {function : Ir.Function} {selected : Ir.Op}

theorem UnaryOp.operands_of_select? {op : UnaryOp} {type : Ir.Ty} {operand : Ir.Value}
    (selects : op.select? type operand = some selected) : selected.operands = [operand] := by
  cases op <;> cases type <;> cases selects <;> rfl

theorem UnaryOp.wellTyped_of_select? {op : UnaryOp} {type : Ir.Ty} {operand : Ir.Value}
    (selects : op.select? type operand = some selected)
    (typed : function.typeOf? operand = some type) :
    function.wellTyped selected (some type) = true := by
  cases op <;> cases type <;> cases selects <;> simp only [Ir.Function.wellTyped, typed] <;> rfl

theorem BinaryOp.operands_of_select? {op : BinaryOp} {type result : Ir.Ty} {lhs rhs : Ir.Value}
    (selects : op.select? type lhs rhs = some (selected, result)) :
    selected.operands = [lhs, rhs] := by
  cases op <;> cases type <;> cases selects <;> rfl

theorem BinaryOp.wellTyped_of_select? {op : BinaryOp} {type result : Ir.Ty} {lhs rhs : Ir.Value}
    (selects : op.select? type lhs rhs = some (selected, result))
    (leftTyped : function.typeOf? lhs = some type)
    (rightTyped : function.typeOf? rhs = some type) :
    function.wellTyped selected (some result) = true := by
  cases op <;> cases type <;> cases selects <;>
    simp [Ir.Function.wellTyped, Ir.Function.haveTypes, leftTyped, rightTyped,
      Ir.BinaryOp.takes, Ir.Ty.isInt]

theorem Literal.wellTyped_lowered (literal : Literal) :
    function.wellTyped literal.lowered.1 (some literal.lowered.2) = true := by
  cases literal <;> rfl

theorem Literal.operands_lowered (literal : Literal) : literal.lowered.1.operands = [] := by
  cases literal <;> rfl

end Selected

namespace Ir.Function

theorem checks_define {function before : Function} {type : Ty} {op : Op}
    (begins : (before.define type op).2.Begins function) (isComputed : computes op = true)
    (used : ∀ operand ∈ op.operands, operand < before.values.size)
    (typed : function.wellTyped op (some type) = true) :
    function.Checks before.values.size [⟨some before.values.size, op⟩]
      (before.define type op).2.values.size := by
  have size : (before.define type op).2.values.size = before.values.size + 1 := by
    simp [define]
  have hasType := begins.typeOf? (Emits.typeOf?_define before type op)
  rw [size]
  refine .value (isReturn_of_computes isComputed) ?_ (.nil _)
  simp only [checkInst, hasType, typed, Bool.and_eq_true, List.all_eq_true, decide_eq_true_eq,
    beq_self_eq_true, and_self, and_true]
  exact used

end Ir.Function

theorem checks_call {last function : Ir.Function} {number : Nat} {signature : Ir.Signature}
    {operands : List Operand}
    (begins : (last.addCall number true signature (operands.map Operand.value)).2.Begins function)
    (typed : ∀ operand ∈ operands, last.typeOf? operand.value = some operand.type)
    (sameTypes : operands.map Operand.type = signature.params) :
    function.Checks last.values.size
      [⟨signature.results.head?.map fun _ => last.values.size,
        .call last.callees.size (operands.map Operand.value)⟩]
      (last.addCall number true signature (operands.map Operand.value)).2.values.size := by
  have lastBegins := (last.begins_addCall number true signature
    (operands.map Operand.value)).trans begins
  have used : (operands.map Operand.value).all (· < last.values.size) = true := by
    rw [List.all_eq_true]
    intro value member
    obtain ⟨operand, isOperand, rfl⟩ := List.mem_map.mp member
    exact decide_eq_true (Ir.Function.lt_of_typeOf? (typed operand isOperand))
  have haveTypes : function.haveTypes (operands.map Operand.value) signature.params = true := by
    rw [Ir.Function.haveTypes_iff, ← sameTypes]
    exact map_typeOf?_operands fun operand member => lastBegins.typeOf? (typed operand member)
  have size := congrArg List.length
    (last.addCall_values number true signature (operands.map Operand.value))
  rw [Array.length_toList, List.length_append, Array.length_toList] at size
  have hasSignature := calleeSignature?_of_addCall begins
  have values := begins.values
  rw [last.addCall_values] at values
  rw [size]
  cases isResult : signature.results.head? with
  | none =>
      refine .effect rfl ?_ (.nil _)
      simp only [Ir.Function.checkInst, Ir.Op.operands, used, Ir.Function.wellTyped, hasSignature,
        haveTypes, isResult]
      rfl
  | some type =>
      have hasType : function.typeOf? last.values.size = some type := by
        obtain ⟨rest, same⟩ := values
        rw [Ir.Function.typeOf?, ← Array.getElem?_toList, ← same, isResult]
        simp
      refine .value rfl ?_ (.nil _)
      simp only [Ir.Function.checkInst, Ir.Op.operands, used, Ir.Function.wellTyped, hasSignature,
        haveTypes, isResult, hasType]
      simp

/-- Emitted instructions are well formed if the arguments of their calls are. -/
theorem Emits.checks {scopes : ScopeTable Binding} {code after function : Ir.Function}
    {part : Part} {insts : List Ir.Inst} (emits : Emits scopes code part insts after)
    (slots : ∀ {name slot type}, scopes.lookup? name = some (.parameter slot type) →
      function.slots[slot]? = some type.bytes)
    (begins : after.Begins function) (typed : function.CallsTyped insts) :
    function.Checks code.values.size insts after.values.size := by
  induction emits with
  | literal code value span =>
      exact Ir.Function.checks_define begins value.computes_lowered
        (by simp [value.operands_lowered]) value.wellTyped_lowered
  | identifier code name span slot type bound =>
      refine Ir.Function.checks_define begins rfl (by simp [Ir.Op.operands]) ?_
      simp [Ir.Function.wellTyped, slots bound]
  | @unary code middle op expr operand insts selected span ofOperand selects operandChecks =>
      obtain ⟨operandTyped, -⟩ := Ir.Function.callsTyped_append.mp typed
      have middleBegins := (middle.begins_define operand.type selected).trans begins
      have hasType := ofOperand.operands operand rfl
      refine (operandChecks middleBegins operandTyped).append
        (Ir.Function.checks_define begins (UnaryOp.computes_of_select? selects) ?_
          (UnaryOp.wellTyped_of_select? selects (middleBegins.typeOf? hasType)))
      rw [UnaryOp.operands_of_select? selects]
      simpa using Ir.Function.lt_of_typeOf? hasType
  | @binary code middle last op lhs rhs left right leftInsts rightInsts selected type span ofLeft
      ofRight sameType selects leftChecks rightChecks =>
      obtain ⟨bothTyped, -⟩ := Ir.Function.callsTyped_append.mp typed
      obtain ⟨leftTyped, rightTyped⟩ := Ir.Function.callsTyped_append.mp bothTyped
      have lastBegins := (last.begins_define type selected).trans begins
      have leftHasType := ofRight.begins.typeOf? (ofLeft.operands left rfl)
      have rightHasType := ofRight.operands right rfl
      rw [← sameType] at rightHasType
      refine ((leftChecks (ofRight.begins.trans lastBegins) leftTyped).append
        (rightChecks lastBegins rightTyped)).append
        (Ir.Function.checks_define begins (BinaryOp.computes_of_select? selects) ?_
          (BinaryOp.wellTyped_of_select? selects (lastBegins.typeOf? leftHasType)
            (lastBegins.typeOf? rightHasType)))
      rw [BinaryOp.operands_of_select? selects]
      simpa using ⟨Ir.Function.lt_of_typeOf? leftHasType, Ir.Function.lt_of_typeOf? rightHasType⟩
  | @call code middle last name arguments children operands argumentInsts childInsts number
      signature span resolved ofArguments ofChildren argumentsCheck childrenCheck =>
      obtain ⟨bothTyped, callTyped⟩ := Ir.Function.callsTyped_append.mp typed
      obtain ⟨argumentsTyped, childrenTyped⟩ := Ir.Function.callsTyped_append.mp bothTyped
      have lastBegins := (last.begins_addCall number true signature
        (operands.map Operand.value)).trans begins
      have operandTypes : ∀ operand ∈ operands, last.typeOf? operand.value = some operand.type :=
        fun operand member => ofChildren.begins.typeOf? (ofArguments.operands operand member)
      exact ((argumentsCheck (ofChildren.begins.trans lastBegins) argumentsTyped).append
        (childrenCheck lastBegins childrenTyped)).append
        (checks_call begins operandTypes
          (argumentTypes_of_callsTyped begins operandTypes callTyped))
  | noArguments code => exact .nil _
  | argument ofFirst ofRest firstChecks restChecks =>
      obtain ⟨firstTyped, restTyped⟩ := Ir.Function.callsTyped_append.mp typed
      exact (firstChecks (ofRest.begins.trans begins) firstTyped).append
        (restChecks begins restTyped)
  | noStatements code => exact .nil _
  | statement ofFirst ofRest firstChecks restChecks =>
      obtain ⟨firstTyped, restTyped⟩ := Ir.Function.callsTyped_append.mp typed
      exact (firstChecks (ofRest.begins.trans begins) firstTyped).append
        (restChecks begins restTyped)

/-! ## Whole functions -/

theorem checks_stores {function : Ir.Function} {defined : Nat} (count value slot : Nat)
    (fits : ∀ index, index < count → value + index < defined ∧
      ∃ type, function.typeOf? (value + index) = some type ∧
        function.slots[slot + index]? = some type.bytes) :
    function.Checks defined (storeInsts count value slot) defined := by
  induction count generalizing value slot with
  | zero => exact .nil _
  | succ count inductionHypothesis =>
      obtain ⟨below, type, hasType, isSlot⟩ := fits 0 (Nat.zero_lt_succ count)
      rw [Nat.add_zero] at below hasType isSlot
      refine .effect rfl ?_ (inductionHypothesis (value + 1) (slot + 1) ?_)
      · simp [Ir.Function.checkInst, Ir.Op.operands, below, Ir.Function.wellTyped, hasType, isSlot]
      · intro index inside
        have ofNext := fits (index + 1) (Nat.succ_lt_succ inside)
        rwa [show value + (index + 1) = value + 1 + index by omega,
          show slot + (index + 1) = slot + 1 + index by omega] at ofNext

theorem checkBody_return {function : Ir.Function} {defined : Nat} {values : List Ir.Value}
    (used : ∀ value ∈ values, value < defined)
    (typed : values.map function.typeOf? = function.signature.results.map some) :
    function.checkBody defined [⟨none, .ret values⟩] = true := by
  have all : values.all (· < defined) = true := by
    rw [List.all_eq_true]
    intro value member
    exact decide_eq_true (used value member)
  simp [Ir.Function.checkBody, Ir.Function.checkInst, Ir.Op.operands, all, Ir.Function.wellTyped,
    Ir.Function.haveTypes_iff.mpr typed, Ir.Function.isReturn]

section Body

variable {scopes : ScopeTable Binding} {function : FunctionDecl} {types : List ScalarType}
  {name : String} {signature : Ir.Signature} {code : Ir.Function}

theorem EmitsResult.checkBody {middle : Ir.Function} {tail : List Ir.Inst}
    (slots : ∀ {name slot type}, scopes.lookup? name = some (.parameter slot type) →
      code.slots[slot]? = some type.bytes)
    (ofResult : EmitsResult scopes function middle tail code) (calls : code.CallsTyped tail)
    (results : ∀ values, ⟨none, .ret values⟩ ∈ tail →
      values.map code.typeOf? = code.signature.results.map some) :
    code.checkBody middle.values.size tail = true := by
  cases ofResult with
  | @value path expr operand insts extended declared returned ofExpr =>
      have exprCalls := (Ir.Function.callsTyped_append.mp calls).1
      refine (ofExpr.checks slots (extended.begins_emit _) exprCalls).checkBody
        (checkBody_return ?_ (results [operand.value] (by simp)))
      simpa using Ir.Function.lt_of_typeOf? (ofExpr.operands operand rfl)
  | nothing declared returned => exact checkBody_return (by simp) (results [] (by simp))

/-- The code of a function is well formed exactly if the arguments of its calls and its
results have the types that are asked for. -/
theorem EmitsBody.check_iff {insts tail : List Ir.Inst}
    (params : signature.params = types.map ScalarType.lowered)
    (slots : ∀ {name slot type},
      (bindParameters (function.parameters.zip types) 0 scopes.enter).lookup? name =
        some (.parameter slot type) →
      (types.map fun type => type.lowered.bytes)[slot]? = some type.bytes)
    (ofBody : EmitsBody scopes function types (.start name signature) insts tail code) :
    code.check = true ↔ (code.CallsTyped insts ∧ code.CallsTyped tail) ∧
      ∀ values, ⟨none, .ret values⟩ ∈ tail →
        values.map code.typeOf? = signature.results.map some := by
  have begins := ofBody.begins
  have body := ofBody.body
  have sameSignature : code.signature = signature := begins.signature
  constructor
  · intro checked
    have calls := Ir.Function.callsTyped_of_check checked
    rw [body] at calls
    refine ⟨Ir.Function.callsTyped_append.mp (Ir.Function.callsTyped_append.mp calls).2, ?_⟩
    intro values member
    rw [← sameSignature]
    refine Ir.Function.results_of_check checked values ?_
    rw [body]
    exact List.mem_append_right _ (List.mem_append_right _ member)
  · rintro ⟨⟨statementCalls, tailCalls⟩, results⟩
    obtain ⟨middle, ofStatements, ofResult⟩ := ofBody.emitted
    have sameSlots : ∀ {name slot type}, (bindParameters (function.parameters.zip types) 0
        scopes.enter).lookup? name = some (.parameter slot type) →
        code.slots[slot]? = some type.bytes := by
      intro name slot type bound
      rw [begins.slots]
      simpa using slots bound
    rw [← sameSignature] at results
    have tailChecked := ofResult.checkBody sameSlots tailCalls results
    have statements := ofStatements.checks sameSlots ofResult.begins statementCalls
    have size : (storeValues types 0 (.start name signature)).values.size = types.length := by
      rw [storeValues_start]
      simp [Ir.Function.start, params]
    rw [size] at statements
    have stores : code.Checks types.length (storeInsts types.length 0 0) types.length := by
      refine checks_stores types.length 0 0 ?_
      intro index inside
      rw [Nat.zero_add]
      refine ⟨inside, types[index].lowered, ?_, ?_⟩
      · refine begins.typeOf? ?_
        simp [Ir.Function.typeOf?, Ir.Function.start, params, inside]
      · rw [begins.slots]
        simp [inside]
    have paramsLength : signature.params.length = types.length := by
      rw [params, List.length_map]
    have prefixed : signature.params <+: code.values.toList := begins.values
    rw [Ir.Function.check, sameSignature, paramsLength, body]
    simp only [Bool.and_eq_true, beq_iff_eq]
    refine ⟨?_, stores.checkBody (statements.checkBody tailChecked)⟩
    rw [← paramsLength]
    exact (List.prefix_iff_eq_take.mp prefixed).symm

end Body

end ScalarLang
