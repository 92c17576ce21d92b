import Mathlib.Tactic.Choose
import ScalarLang.Compiler.Basic
import ScalarLang.Proofs.Lowering.Checked
import ScalarLang.Proofs.Lowering.Names
import ScalarLang.Proofs.Typing.Relation

/-!
# Acceptance is typing

A program is compiled exactly if it is well typed and the target is supported.  From
left to right, emitted code whose calls are well typed gives types to the expressions;
from right to left, a typed expression emits code whose calls are well typed, and then
all of the code is well formed.
-/

set_option autoImplicit false

namespace ScalarLang

structure NamesTyped (scopes : ScopeTable Binding) (available : List FunctionDecl)
    (parameters : List (String × ScalarType)) : Prop where
  parameter : ∀ {name slot lowered}, scopes.lookup? name = some (.parameter slot lowered) →
    ∃ type, parameters.reverse.lookup name = some type ∧ type.lowered = lowered
  isParameter : ∀ {name type}, parameters.reverse.lookup name = some type →
    ∃ slot, scopes.lookup? name = some (.parameter slot type.lowered)
  callee : ∀ {name arguments span number signature},
    resolveCall scopes name arguments span = .ok (number, signature) →
    ∃ callee types result, callee ∈ available ∧ callee.name.name = name.name ∧
      callee.labels = CallArgument.labels arguments ∧
      List.Forall₂ (fun parameter type => parameter.type.Denotes type) callee.parameters types ∧
      Option.Rel (fun path type => path.Denotes type) callee.resultType result ∧
      signature.params = types.map ScalarType.lowered ∧
      signature.results = (result.map ScalarType.lowered).toList
  isCallee : ∀ {name arguments callee types result}, callee ∈ available →
    callee.name.name = name.name → callee.labels = CallArgument.labels arguments →
    List.Forall₂ (fun parameter type => parameter.type.Denotes type) callee.parameters types →
    Option.Rel (fun path type => path.Denotes type) callee.resultType result →
    ∀ span, ∃ number signature,
      resolveCall scopes name arguments span = .ok (number, signature) ∧
      signature.params = types.map ScalarType.lowered ∧
      signature.results = (result.map ScalarType.lowered).toList

theorem types_eq_of_lowered {types others : List ScalarType}
    (same : types.map ScalarType.lowered = others.map ScalarType.lowered) : types = others :=
  List.map_injective_iff.mpr (fun _ _ => ScalarType.lowered_injective) same

section Expressions

variable {scopes : ScopeTable Binding} {available : List FunctionDecl}
  {parameters : List (String × ScalarType)}

/-! ## Emitted code is typed -/

def Part.HasTypes (available : List FunctionDecl) (parameters : List (String × ScalarType)) :
    Part → Prop
  | .expression expr operand => ∃ type, HasType available parameters expr type ∧
      operand.map Operand.type = type.map ScalarType.lowered
  | .arguments given operands => ∃ types,
      List.Forall₂ (fun argument type => HasType available parameters argument.value (some type))
        given types ∧
      operands.map Operand.type = types.map ScalarType.lowered
  | .statements list => ∀ statement ∈ list, ∃ type, HasType available parameters statement type

theorem Emits.hasTypes (names : NamesTyped scopes available parameters)
    {code after final : Ir.Function} {part : Part} {insts : List Ir.Inst}
    (emits : Emits scopes code part insts after) (begins : after.Begins final)
    (typed : final.CallsTyped insts) : part.HasTypes available parameters := by
  induction emits with
  | literal code value span =>
      cases value with
      | integer number => exact ⟨_, .integer number span, rfl⟩
      | float number => exact ⟨_, .float number span, rfl⟩
      | boolean truth => exact ⟨_, .boolean truth span, rfl⟩
  | identifier code name span slot lowered bound =>
      obtain ⟨type, isLast, rfl⟩ := names.parameter bound
      exact ⟨_, .identifier span isLast, rfl⟩
  | @unary code middle op expr operand insts selected span ofOperand selects operandTyped =>
      obtain ⟨operandCalls, -⟩ := Ir.Function.callsTyped_append.mp typed
      obtain ⟨type?, ofExpr, sameType⟩ := operandTyped
        ((middle.begins_define operand.type selected).trans begins) operandCalls
      obtain ⟨type, rfl, lowered⟩ := Option.map_eq_some_iff.mp sameType.symm
      rw [← lowered] at selects
      have supported := (UnaryOp.supports_iff operand.value).mpr ⟨selected, selects⟩
      exact ⟨_, .unary span ofExpr supported, congrArg some lowered.symm⟩
  | @binary code middle last op lhs rhs left right leftInsts rightInsts selected resultType span
      ofLeft ofRight sameType selects leftTyped rightTyped =>
      obtain ⟨bothCalls, -⟩ := Ir.Function.callsTyped_append.mp typed
      obtain ⟨leftCalls, rightCalls⟩ := Ir.Function.callsTyped_append.mp bothCalls
      have lastBegins := (last.begins_define resultType selected).trans begins
      obtain ⟨leftType?, leftHasType, leftSame⟩ :=
        leftTyped (ofRight.begins.trans lastBegins) leftCalls
      obtain ⟨rightType?, rightHasType, rightSame⟩ := rightTyped lastBegins rightCalls
      obtain ⟨type, rfl, leftLowered⟩ := Option.map_eq_some_iff.mp leftSame.symm
      obtain ⟨other, rfl, rightLowered⟩ := Option.map_eq_some_iff.mp rightSame.symm
      obtain rfl : type = other := by
        apply ScalarType.lowered_injective
        rw [leftLowered, rightLowered, sameType]
      rw [← leftLowered] at selects
      obtain ⟨result, supported, lowered⟩ := BinaryOp.exists_resultType? selects
      exact ⟨_, .binary span leftHasType rightHasType supported, congrArg some lowered.symm⟩
  | @call code middle last name arguments children operands argumentInsts childInsts number
      signature span resolved ofArguments ofChildren argumentsTyped childrenTyped =>
      obtain ⟨bothCalls, callTyped⟩ := Ir.Function.callsTyped_append.mp typed
      obtain ⟨argumentCalls, childCalls⟩ := Ir.Function.callsTyped_append.mp bothCalls
      have lastBegins := (last.begins_addCall number true signature
        (operands.map Operand.value)).trans begins
      obtain ⟨callee, types, result, isAvailable, sameName, sameLabels, denoteParameters,
        denoteResult, params, results⟩ := names.callee resolved
      obtain ⟨argumentTypes, argumentsHaveTypes, sameTypes⟩ :=
        argumentsTyped (ofChildren.begins.trans lastBegins) argumentCalls
      have operandTypes := argumentTypes_of_callsTyped begins
        (fun operand member => ofChildren.begins.typeOf? (ofArguments.operands operand member))
        callTyped
      obtain rfl : argumentTypes = types := by
        apply types_eq_of_lowered
        rw [← sameTypes, operandTypes, params]
      have children := childrenTyped lastBegins childCalls
      choose! childType childrenHaveTypes using children
      refine ⟨result, .call childType span isAvailable sameName sameLabels denoteParameters
        denoteResult ?_ childrenHaveTypes, ?_⟩
      · intro pair member
        exact (List.forall₂_iff_zip.mp argumentsHaveTypes).2 member
      · rw [results]
        cases result <;> rfl
  | noArguments code => exact ⟨[], .nil, rfl⟩
  | @argument code middle after first rest operand operands firstInsts restInsts ofFirst ofRest
      firstTyped restTyped =>
      obtain ⟨firstCalls, restCalls⟩ := Ir.Function.callsTyped_append.mp typed
      obtain ⟨type?, firstHasType, sameType⟩ := firstTyped (ofRest.begins.trans begins) firstCalls
      obtain ⟨types, restHaveTypes, sameTypes⟩ := restTyped begins restCalls
      obtain ⟨type, rfl, lowered⟩ := Option.map_eq_some_iff.mp sameType.symm
      refine ⟨type :: types, .cons firstHasType restHaveTypes, ?_⟩
      rw [List.map_cons, List.map_cons, sameTypes, lowered]
  | noStatements code =>
      intro statement member
      cases member
  | statement ofFirst ofRest firstTyped restTyped =>
      obtain ⟨firstCalls, restCalls⟩ := Ir.Function.callsTyped_append.mp typed
      obtain ⟨type, firstHasType, -⟩ := firstTyped (ofRest.begins.trans begins) firstCalls
      exact List.forall_mem_cons.mpr ⟨⟨type, firstHasType⟩, restTyped begins restCalls⟩

/-! ## Typed expressions emit code -/

/-- Calls in instructions are well typed in every function that goes on from one. -/
def CallsTypedFrom (after : Ir.Function) (insts : List Ir.Inst) : Prop :=
  ∀ final, after.Begins final → final.CallsTyped insts

theorem CallsTypedFrom.append {middle after : Ir.Function} {left right : List Ir.Inst}
    (ofLeft : CallsTypedFrom middle left) (begins : middle.Begins after)
    (ofRight : CallsTypedFrom after right) : CallsTypedFrom after (left ++ right) := by
  intro final afterBegins
  exact Ir.Function.callsTyped_append.mpr
    ⟨ofLeft final (begins.trans afterBegins), ofRight final afterBegins⟩

theorem callsTypedFrom_of_computes {after : Ir.Function} {result : Option Ir.Value} {op : Ir.Op}
    (isComputed : Ir.Function.computes op = true) : CallsTypedFrom after [⟨result, op⟩] :=
  fun _ _ => callsTyped_of_computes isComputed

/-- An expression emits code, wherever it stands, that gives a value of a type. -/
def Emittable (scopes : ScopeTable Binding) (expr : Expr) (type : Option ScalarType) : Prop :=
  ∀ code, ∃ operand insts after, Emits scopes code (.expression expr operand) insts after ∧
    operand.map Operand.type = type.map ScalarType.lowered ∧ CallsTypedFrom after insts

theorem Emittable.value {expr : Expr} {type : ScalarType}
    (emittable : Emittable scopes expr (some type)) (code : Ir.Function) :
    ∃ operand insts after, Emits scopes code (.expression expr (some operand)) insts after ∧
      operand.type = type.lowered ∧ CallsTypedFrom after insts := by
  obtain ⟨operand?, insts, after, emits, sameType, calls⟩ := emittable code
  obtain ⟨operand, rfl, lowered⟩ := Option.map_eq_some_iff.mp sameType
  exact ⟨operand, insts, after, emits, lowered, calls⟩

theorem emits_of_emittable_arguments {arguments : List CallArgument} {types : List ScalarType}
    (sameLength : arguments.length = types.length)
    (emittable : ∀ pair ∈ arguments.zip types, Emittable scopes pair.1.value (some pair.2)) :
    ∀ code, ∃ operands insts after,
      Emits scopes code (.arguments arguments operands) insts after ∧
      operands.map Operand.type = types.map ScalarType.lowered ∧ CallsTypedFrom after insts := by
  induction arguments generalizing types with
  | nil =>
      intro code
      obtain rfl : types = [] := List.eq_nil_of_length_eq_zero sameLength.symm
      refine ⟨[], [], code, .noArguments code, rfl, ?_⟩
      intro final begins result callee given member
      cases member
  | cons first rest inductionHypothesis =>
      intro code
      cases types with
      | nil => simp at sameLength
      | cons type types =>
          obtain ⟨firstEmittable, restEmittable⟩ := List.forall_mem_cons.mp emittable
          obtain ⟨operand, firstInsts, middle, ofFirst, lowered, firstCalls⟩ :=
            Emittable.value firstEmittable code
          obtain ⟨operands, restInsts, after, ofRest, sameTypes, restCalls⟩ :=
            inductionHypothesis (by simpa using sameLength) restEmittable middle
          refine ⟨operand :: operands, _, after, .argument ofFirst ofRest, ?_,
            firstCalls.append ofRest.begins restCalls⟩
          rw [List.map_cons, List.map_cons, lowered, sameTypes]

theorem emits_of_emittable_statements {statements : List Expr}
    (emittable : ∀ statement ∈ statements, ∃ type, Emittable scopes statement type) :
    ∀ code, ∃ insts after, Emits scopes code (.statements statements) insts after ∧
      CallsTypedFrom after insts := by
  induction statements with
  | nil =>
      intro code
      refine ⟨[], code, .noStatements code, ?_⟩
      intro final begins result callee given member
      cases member
  | cons first rest inductionHypothesis =>
      intro code
      obtain ⟨⟨type, firstEmittable⟩, restEmittable⟩ := List.forall_mem_cons.mp emittable
      obtain ⟨operand, firstInsts, middle, ofFirst, -, firstCalls⟩ := firstEmittable code
      obtain ⟨restInsts, after, ofRest, restCalls⟩ := inductionHypothesis restEmittable middle
      exact ⟨_, after, .statement ofFirst ofRest, firstCalls.append ofRest.begins restCalls⟩

theorem HasType.emittable (names : NamesTyped scopes available parameters) {expr : Expr}
    {type : Option ScalarType} (typed : HasType available parameters expr type) :
    Emittable scopes expr type := by
  induction typed with
  | integer value span =>
      intro code
      exact ⟨_, _, _, .literal code (.integer value) span, rfl, callsTypedFrom_of_computes rfl⟩
  | float value span =>
      intro code
      exact ⟨_, _, _, .literal code (.float value) span, rfl, callsTypedFrom_of_computes rfl⟩
  | boolean value span =>
      intro code
      exact ⟨_, _, _, .literal code (.boolean value) span, rfl, callsTypedFrom_of_computes rfl⟩
  | identifier span isLast =>
      intro code
      obtain ⟨slot, bound⟩ := names.isParameter isLast
      exact ⟨_, _, _, .identifier code _ span slot _ bound, rfl, callsTypedFrom_of_computes rfl⟩
  | unary span _ supported operandEmittable =>
      intro code
      obtain ⟨operand, insts, middle, ofOperand, lowered, calls⟩ := operandEmittable.value code
      obtain ⟨selected, selects⟩ := (UnaryOp.supports_iff operand.value).mp supported
      rw [← lowered] at selects
      exact ⟨_, _, _, .unary span ofOperand selects, congrArg some lowered,
        calls.append (middle.begins_define _ _)
          (callsTypedFrom_of_computes (UnaryOp.computes_of_select? selects))⟩
  | binary span _ _ supported leftEmittable rightEmittable =>
      intro code
      obtain ⟨left, leftInsts, middle, ofLeft, leftLowered, leftCalls⟩ := leftEmittable.value code
      obtain ⟨right, rightInsts, last, ofRight, rightLowered, rightCalls⟩ :=
        rightEmittable.value middle
      obtain ⟨selected, selects⟩ :=
        (BinaryOp.resultType?_eq_some_iff left.value right.value).mp supported
      rw [← leftLowered] at selects
      have sameType : left.type = right.type := leftLowered.trans rightLowered.symm
      exact ⟨_, _, _, .binary span ofLeft ofRight sameType selects, rfl,
        (leftCalls.append ofRight.begins rightCalls).append (last.begins_define _ _)
          (callsTypedFrom_of_computes (BinaryOp.computes_of_select? selects))⟩
  | @call name arguments children callee types result childType span isAvailable sameName
      sameLabels denoteParameters denoteResult _ _ argumentsEmittable childrenEmittable =>
      intro code
      have sameLength : arguments.length = types.length := by
        have labels := congrArg List.length sameLabels
        simp only [FunctionDecl.labels, CallArgument.labels, List.length_map] at labels
        rw [← labels, denoteParameters.length_eq]
      obtain ⟨operands, argumentInsts, middle, ofArguments, sameTypes, argumentCalls⟩ :=
        emits_of_emittable_arguments sameLength argumentsEmittable code
      obtain ⟨childInsts, last, ofChildren, childCalls⟩ :=
        emits_of_emittable_statements
          (fun child member => ⟨childType child, childrenEmittable child member⟩) middle
      obtain ⟨number, signature, resolved, params, results⟩ :=
        names.isCallee isAvailable sameName sameLabels denoteParameters denoteResult span
      have operandTypes : ∀ operand ∈ operands, last.typeOf? operand.value = some operand.type :=
        fun operand member => ofChildren.begins.typeOf? (ofArguments.operands operand member)
      refine ⟨_, _, _, .call span resolved ofArguments ofChildren, ?_,
        (argumentCalls.append ofChildren.begins childCalls).append
          (last.begins_addCall _ _ _ _) ?_⟩
      · rw [results]
        cases result <;> rfl
      · intro final begins
        exact callsTyped_of_argumentTypes begins operandTypes (sameTypes.trans params.symm)

/-! ## Results -/

variable {function : FunctionDecl} {middle : Ir.Function} {result : Option ScalarType}

theorem EmitsResult.hasType (names : NamesTyped scopes available parameters)
    {tail : List Ir.Inst} {code : Ir.Function}
    (ofResult : EmitsResult scopes function middle tail code)
    (denoteResult : Option.Rel (fun path type => path.Denotes type) function.resultType result)
    (calls : code.CallsTyped tail)
    (results : ∀ values, ⟨none, .ret values⟩ ∈ tail →
      values.map code.typeOf? = (result.map ScalarType.lowered).toList.map some) :
    Option.Rel (fun expr type => HasType available parameters expr (some type))
      function.body.result result := by
  cases ofResult with
  | @value path expr operand insts extended declared returned ofExpr =>
      rw [declared] at denoteResult
      obtain ⟨type, rfl, -⟩ := exists_of_rel_some denoteResult
      have begins := extended.begins_emit (.ret [operand.value])
      obtain ⟨type?, hasType, sameType⟩ := ofExpr.hasTypes names begins
        (Ir.Function.callsTyped_append.mp calls).1
      obtain ⟨found, rfl, lowered⟩ := Option.map_eq_some_iff.mp sameType.symm
      have isResult := results [operand.value] (by simp)
      have operandType := begins.typeOf? (ofExpr.operands operand rfl)
      rw [List.map_singleton, operandType, ← lowered] at isResult
      obtain rfl : found = type := ScalarType.lowered_injective (by simpa using isResult)
      rw [returned]
      exact .some hasType
  | nothing declared returned =>
      rw [declared] at denoteResult
      cases denoteResult
      rw [returned]
      exact .none

theorem exists_emitsResult (middle : Ir.Function)
    (names : NamesTyped scopes available parameters)
    (denoteResult : Option.Rel (fun path type => path.Denotes type) function.resultType result)
    (typed : Option.Rel (fun expr type => HasType available parameters expr (some type))
      function.body.result result) :
    ∃ tail code, EmitsResult scopes function middle tail code ∧ code.CallsTyped tail ∧
      ∀ values, ⟨none, .ret values⟩ ∈ tail →
        values.map code.typeOf? = (result.map ScalarType.lowered).toList.map some := by
  cases result with
  | none =>
      cases declared : function.resultType with
      | some path =>
          rw [declared] at denoteResult
          cases denoteResult
      | none =>
          cases returned : function.body.result with
          | some expr =>
              rw [returned] at typed
              cases typed
          | none =>
              refine ⟨_, _, .nothing declared returned, ?_, ?_⟩
              · intro found callee given member
                cases List.mem_singleton.mp member
              · intro values member
                cases List.mem_singleton.mp member
                rfl
  | some type =>
      obtain ⟨path, declared, -⟩ := exists_of_rel_some_right denoteResult
      obtain ⟨expr, returned, hasType⟩ := exists_of_rel_some_right typed
      obtain ⟨operand, insts, extended, ofExpr, lowered, calls⟩ :=
        (hasType.emittable names).value middle
      have begins := extended.begins_emit (.ret [operand.value])
      have operandType := begins.typeOf? (ofExpr.operands operand rfl)
      refine ⟨_, _, .value declared returned ofExpr, ?_, ?_⟩
      · refine Ir.Function.callsTyped_append.mpr ⟨calls _ begins, ?_⟩
        intro found callee given member
        cases List.mem_singleton.mp member
      · intro values member
        rcases List.mem_append.mp member with member | member
        · have continues := ofExpr.continues _ member
          cases continues
        · cases List.mem_singleton.mp member
          rw [List.map_singleton, operandType, lowered]
          rfl

end Expressions

/-! ## Functions -/

namespace Registered

variable {lowering : Lowering} {before : List Callable} {function : FunctionDecl}
  {types : List ScalarType}

def SlotHasType (types : List ScalarType) (slot : Nat × Ir.Ty) (type : ScalarType) : Prop :=
  type.lowered = slot.2 ∧ types[slot.1]? = some type

theorem slotsHaveTypes (sameLength : function.parameters.length = types.length) (name : String) :
    Option.Rel (SlotHasType types)
      ((parameterSlots (function.parameters.zip types) 0).reverse.lookup name)
      ((function.labels.zip types).reverse.lookup name) := by
  refine lookup_reverse_related (parameterSlots_related sameLength rfl ?_) name
  intro index type entry isType isEntry
  cases isType.symm.trans isEntry
  rw [Nat.zero_add]
  exact ⟨rfl, isType⟩

theorem namesTyped (registered : Registered lowering before)
    (sameLength : function.parameters.length = types.length) :
    NamesTyped (bindParameters (function.parameters.zip types) 0 lowering.scopes.enter)
      ((Callable.print lowering.target :: before).map Callable.declaration)
      (function.labels.zip types) := by
  refine ⟨?_, ?_, ?_, ?_⟩
  · intro name slot lowered bound
    have related := slotsHaveTypes sameLength name
    rw [registered.lookup?_parameter.mp bound] at related
    obtain ⟨type, isLast, sameType, -⟩ := exists_of_rel_some related
    exact ⟨type, isLast, sameType⟩
  · intro name type isLast
    have related := slotsHaveTypes sameLength name
    rw [isLast] at related
    obtain ⟨slot, bound, sameType, -⟩ := exists_of_rel_some_right related
    refine ⟨slot.1, registered.lookup?_parameter.mpr ?_⟩
    rw [bound, sameType]
  · intro name arguments span number signature resolved
    obtain ⟨index, callable, stands, sameName, sameLabels, rfl, rfl⟩ :=
      registered.resolveCall_eq_ok_iff.mp resolved
    have member := List.mem_of_getElem? stands
    obtain ⟨denoteParameters, denoteResult, hasSignature⟩ := registered.declared callable member
    refine ⟨callable.declaration, _, _, List.mem_map_of_mem member, sameName, sameLabels,
      denoteParameters, denoteResult, ?_, ?_⟩
    · rw [hasSignature, loweredSignature]
    · rw [hasSignature, loweredSignature]
  · intro name arguments callee types result isAvailable sameName sameLabels denoteParameters
      denoteResult span
    obtain ⟨callable, member, rfl⟩ := List.mem_map.mp isAvailable
    obtain ⟨index, stands⟩ := List.mem_iff_getElem?.mp member
    obtain ⟨denoteParameters', denoteResult', hasSignature⟩ := registered.declared callable member
    refine ⟨index + 1, callable.signature, registered.resolveCall_eq_ok_iff.mpr
      ⟨index, callable, stands, sameName, sameLabels, rfl, rfl⟩, ?_, ?_⟩
    · rw [hasSignature, loweredSignature, types_unique denoteParameters denoteParameters']
    · rw [hasSignature, loweredSignature, result_unique denoteResult denoteResult']

theorem slots_types (registered : Registered lowering before)
    (sameLength : function.parameters.length = types.length) {name : String} {slot : Nat}
    {lowered : Ir.Ty}
    (bound : (bindParameters (function.parameters.zip types) 0 lowering.scopes.enter).lookup? name =
      some (.parameter slot lowered)) :
    (types.map ScalarType.lowered)[slot]? = some lowered := by
  have related := slotsHaveTypes sameLength name
  rw [registered.lookup?_parameter.mp bound] at related
  obtain ⟨type, -, sameType, isType⟩ := exists_of_rel_some related
  change type.lowered = lowered at sameType
  change types[slot]? = some type at isType
  rw [List.getElem?_map, isType, Option.map_some, sameType]

theorem slots_bytes (registered : Registered lowering before)
    (sameLength : function.parameters.length = types.length) {name : String} {slot : Nat}
    {lowered : Ir.Ty}
    (bound : (bindParameters (function.parameters.zip types) 0 lowering.scopes.enter).lookup? name =
      some (.parameter slot lowered)) :
    (types.map fun type => type.lowered.bytes)[slot]? = some lowered.bytes := by
  have isType := congrArg (Option.map Ir.Ty.bytes) (registered.slots_types sameLength bound)
  rwa [← List.getElem?_map, List.map_map] at isType

/-- The body of a function has well-formed code exactly if it is well typed. -/
theorem exists_checked_iff (registered : Registered lowering before)
    {result : Option ScalarType}
    (denoteParameters : List.Forall₂ (fun parameter type => parameter.type.Denotes type)
      function.parameters types)
    (denoteResult : Option.Rel (fun path type => path.Denotes type) function.resultType result) :
    (∃ insts tail code, EmitsBody lowering.scopes function types (.start function.lowLevelName
        (loweredSignature lowering.target types result)) insts tail code ∧ code.check = true) ↔
      (∀ statement ∈ function.body.statements, ∃ type,
        HasType ((Callable.print lowering.target :: before).map Callable.declaration)
          (function.labels.zip types) statement type) ∧
      Option.Rel (fun expr type =>
          HasType ((Callable.print lowering.target :: before).map Callable.declaration)
            (function.labels.zip types) expr (some type))
        function.body.result result := by
  have sameLength := denoteParameters.length_eq
  have names := registered.namesTyped sameLength
  constructor
  · rintro ⟨insts, tail, code, ofBody, checked⟩
    obtain ⟨⟨statementCalls, tailCalls⟩, results⟩ :=
      (ofBody.check_iff rfl (registered.slots_bytes sameLength)).mp checked
    obtain ⟨middle, ofStatements, ofResult⟩ := ofBody.emitted
    exact ⟨ofStatements.hasTypes names ofResult.begins statementCalls,
      ofResult.hasType names denoteResult tailCalls results⟩
  · rintro ⟨statementsTyped, resultTyped⟩
    have emittable : ∀ statement ∈ function.body.statements, ∃ type,
        Emittable (bindParameters (function.parameters.zip types) 0 lowering.scopes.enter)
          statement type := by
      intro statement member
      obtain ⟨type, hasType⟩ := statementsTyped statement member
      exact ⟨type, hasType.emittable names⟩
    obtain ⟨insts, middle, ofStatements, statementCalls⟩ := emits_of_emittable_statements emittable
      (storeValues types 0 (.start function.lowLevelName
        (loweredSignature lowering.target types result)))
    obtain ⟨tail, code, ofResult, tailCalls, results⟩ :=
      exists_emitsResult middle names denoteResult resultTyped
    have ofBody : EmitsBody lowering.scopes function types (.start function.lowLevelName
        (loweredSignature lowering.target types result)) insts tail code :=
      ⟨middle, ofStatements, ofResult⟩
    refine ⟨insts, tail, code, ofBody,
      (ofBody.check_iff rfl (registered.slots_bytes sameLength)).mpr ?_⟩
    exact ⟨⟨statementCalls code ofResult.begins, tailCalls⟩, results⟩

/-- A function is lowered exactly if its low-level name is new and it is well typed. -/
theorem exists_lowersFunction_iff (registered : Registered lowering before) :
    (∃ after, LowersFunction lowering function after) ↔
      function.lowLevelName ∉ ((Callable.print lowering.target :: before).map
        Callable.declaration).map FunctionDecl.lowLevelName ∧
      function.WellTyped ((Callable.print lowering.target :: before).map
        Callable.declaration) := by
  rw [List.map_map]
  change _ ↔ function.lowLevelName ∉
    (Callable.print lowering.target :: before).map Callable.name ∧ _
  constructor
  · rintro ⟨after, lowers⟩
    obtain ⟨fresh, types, result, insts, tail, code, denoteParameters, denoteResult, ofBody,
      checked, -⟩ := registered.lowersFunction_iff.mp lowers
    obtain ⟨ofStatements, ofResult⟩ := (registered.exists_checked_iff denoteParameters
      denoteResult).mp ⟨insts, tail, code, ofBody, checked⟩
    exact ⟨fresh, .intro denoteParameters denoteResult ofStatements ofResult⟩
  · rintro ⟨fresh, ⟨denoteParameters, denoteResult, ofStatements, ofResult⟩⟩
    obtain ⟨insts, tail, code, ofBody, checked⟩ := (registered.exists_checked_iff denoteParameters
      denoteResult).mpr ⟨ofStatements, ofResult⟩
    exact ⟨_, registered.lowersFunction_iff.mpr ⟨fresh, _, _, insts, tail, code, denoteParameters,
      denoteResult, ofBody, checked, rfl⟩⟩

/-- What is known after a function was lowered. -/
theorem of_lowersFunction (registered : Registered lowering before) {after : Lowering}
    (lowers : LowersFunction lowering function after) :
    after.target = lowering.target ∧
      ∃ callable, callable.declaration = function ∧ Registered after (before ++ [callable]) := by
  obtain ⟨fresh, types, result, insts, tail, code, denoteParameters, denoteResult, ofBody,
    checked, rfl⟩ := registered.lowersFunction_iff.mp lowers
  exact ⟨rfl, _, rfl,
    registered.withFunction code (.intro denoteParameters denoteResult rfl) fresh⟩

end Registered

/-! ## Programs -/

/-- Functions that come after others have new low-level names and are well typed. -/
def WellTypedFrom (available : List FunctionDecl) : List FunctionDecl → Prop
  | [] => True
  | first :: rest =>
    (first.lowLevelName ∉ available.map FunctionDecl.lowLevelName ∧ first.WellTyped available) ∧
      WellTypedFrom (available ++ [first]) rest

theorem exists_lowersFunctions_iff (functions : List FunctionDecl) :
    ∀ {lowering before}, Registered lowering before →
      ((∃ after, LowersFunctions lowering functions after) ↔
        WellTypedFrom ((Callable.print lowering.target :: before).map Callable.declaration)
          functions) := by
  induction functions with
  | nil =>
      intro lowering before registered
      exact ⟨fun _ => trivial, fun _ => ⟨lowering, .none lowering⟩⟩
  | cons first rest inductionHypothesis =>
      intro lowering before registered
      have ofRest : ∀ {middle}, LowersFunction lowering first middle →
          ((∃ after, LowersFunctions middle rest after) ↔
            WellTypedFrom ((Callable.print lowering.target :: before).map Callable.declaration ++
              [first]) rest) := by
        intro middle lowers
        obtain ⟨sameTarget, callable, rfl, registeredAfter⟩ := registered.of_lowersFunction lowers
        have forRest := inductionHypothesis registeredAfter
        rwa [sameTarget, ← List.cons_append, List.map_append] at forRest
      constructor
      · rintro ⟨after, lowers⟩
        cases lowers with
        | next ofFirst others =>
            exact ⟨registered.exists_lowersFunction_iff.mp ⟨_, ofFirst⟩,
              (ofRest ofFirst).mp ⟨_, others⟩⟩
      · rintro ⟨ofFirst, others⟩
        obtain ⟨middle, lowers⟩ := registered.exists_lowersFunction_iff.mpr ofFirst
        obtain ⟨after, lowersRest⟩ := (ofRest lowers).mpr others
        exact ⟨after, .next lowers lowersRest⟩

theorem forall_split_cons_iff {α : Type} {first : α} {rest : List α}
    {property : List α → α → Prop} :
    (∀ before value after, first :: rest = before ++ value :: after → property before value) ↔
      property [] first ∧ ∀ before value after, rest = before ++ value :: after →
        property (first :: before) value := by
  constructor
  · intro each
    refine ⟨each [] first rest rfl, ?_⟩
    rintro before value after rfl
    exact each (first :: before) value after rfl
  · rintro ⟨ofFirst, ofRest⟩ before value after same
    cases before with
    | nil =>
        cases same
        exact ofFirst
    | cons other others =>
        cases same
        exact ofRest others value after rfl

theorem wellTypedFrom_iff {available functions : List FunctionDecl}
    (distinct : (available.map FunctionDecl.lowLevelName).Nodup) :
    WellTypedFrom available functions ↔
      ((available ++ functions).map FunctionDecl.lowLevelName).Nodup ∧
        ∀ before function after, functions = before ++ function :: after →
          function.WellTyped (available ++ before) := by
  induction functions generalizing available with
  | nil => simpa [WellTypedFrom] using distinct
  | cons first rest inductionHypothesis =>
      have forRest : ((available ++ [first]).map FunctionDecl.lowLevelName).Nodup →
          (WellTypedFrom (available ++ [first]) rest ↔
            ((available ++ first :: rest).map FunctionDecl.lowLevelName).Nodup ∧
              ∀ before function after, rest = before ++ function :: after →
                function.WellTyped (available ++ first :: before)) := by
        intro distinctNext
        simpa only [List.append_assoc, List.singleton_append] using
          inductionHypothesis distinctNext
      rw [forall_split_cons_iff, WellTypedFrom, List.append_nil]
      constructor
      · rintro ⟨⟨fresh, ofFirst⟩, ofRest⟩
        have distinctNext : ((available ++ [first]).map FunctionDecl.lowLevelName).Nodup := by
          rw [List.map_append, List.map_singleton]
          exact nodup_append_singleton distinct fresh
        obtain ⟨allDistinct, others⟩ := (forRest distinctNext).mp ofRest
        exact ⟨allDistinct, ofFirst, others⟩
      · rintro ⟨allDistinct, ofFirst, others⟩
        have parts := allDistinct
        rw [List.append_cons, List.map_append] at parts
        have distinctNext := (List.nodup_append.mp parts).1
        have fresh : first.lowLevelName ∉ available.map FunctionDecl.lowLevelName := by
          rw [List.map_append] at distinctNext
          intro member
          exact (List.nodup_append.mp distinctNext).2.2 _ member _ (by simp) rfl
        exact ⟨⟨fresh, ofFirst⟩, (forRest distinctNext).mpr ⟨allDistinct, others⟩⟩

theorem Module.wellTyped_iff {program : Module} :
    program.WellTyped ↔ WellTypedFrom [Builtin.print] program.functions := by
  rw [wellTypedFrom_iff (by simp), List.map_append, List.map_singleton, List.singleton_append,
    List.nodup_cons]
  constructor
  · rintro ⟨distinct, notBuiltin, wellTyped⟩
    refine ⟨⟨?_, distinct⟩, wellTyped⟩
    intro member
    obtain ⟨function, isFunction, same⟩ := List.mem_map.mp member
    exact notBuiltin function isFunction same
  · rintro ⟨⟨notBuiltin, distinct⟩, wellTyped⟩
    refine ⟨distinct, ?_, wellTyped⟩
    intro function isFunction same
    exact notBuiltin (List.mem_map.mpr ⟨function, isFunction, same⟩)

theorem Module.compile_succeeds_iff {program : Module} {target : Target} {name : String} :
    (∃ compiled, program.compile target name = .ok compiled) ↔
      (target.isSupported = true ∧ target.format.isSupported = true) ∧
        ∃ after, LowersFunctions (.withBuiltins target) program.functions after := by
  have lowers : ∀ after, Lower.program program (.initial target) = .ok () after ↔
      LowersFunctions (.withBuiltins target) program.functions after :=
    fun _ => Lower.program_eq_ok_iff
  unfold Module.compile Module.compileOn
  simp only [Lowering.addProgramOn_standard]
  cases starts : Lowering.start target with
  | error failure =>
      simp only [reduceCtorEq, exists_false, false_iff]
      rintro ⟨supported, -⟩
      cases starts.symm.trans (Lowering.start_eq_ok_iff.mpr ⟨supported, rfl⟩)
  | ok lowering =>
      obtain ⟨supported, rfl⟩ := Lowering.start_eq_ok_iff.mp starts
      simp only [supported, and_self, true_and, ← lowers, ← Lowering.addProgram_eq_ok_iff]
      obtain ⟨outcome, after⟩ :=
        (Lowering.initial target).addProgram program
      cases outcome with
      | ok value => simp
      | error failure => simp

/-- A program is compiled exactly if the target is supported and it is well typed. -/
theorem compile_succeeds_iff_wellTyped (program : Module) (target : Target) (name : String) :
    (∃ compiled, program.compile target name = .ok compiled) ↔
      (target.isSupported = true ∧ target.format.isSupported = true) ∧ program.WellTyped := by
  rw [Module.compile_succeeds_iff, Module.wellTyped_iff,
    exists_lowersFunctions_iff program.functions (.withBuiltins target)]
  rfl

end ScalarLang
