import ScalarLang.Proofs.Typing.FirstFault

/-!
# Finished code is well built

Whatever code is finished has one return, at its end; its values are numbered in the order
in which they are defined and are used only after that; and its instructions have operands
of the types they ask for.  Only two things are left to the check: the types of the
arguments of calls and the type of the result.  So a program is rejected for ill-formed code
exactly if a program that is right in all else has an argument or a result of another type.
-/

set_option autoImplicit false

namespace ScalarLang

open FunctionDecl

namespace Ir.Function

/-! ## Numbered results -/

/-- Instructions number their results in turn from a number on, and each of them is accepted
with the number of values before it. -/
inductive Numbers (Accepts : Nat → Inst → Prop) : Nat → List Inst → Nat → Prop where
  | nil (defined : Nat) : Numbers Accepts defined [] defined
  | value {defined last : Nat} {op : Op} {rest : List Inst}
      (accepts : Accepts defined ⟨some defined, op⟩)
      (ofRest : Numbers Accepts (defined + 1) rest last) :
      Numbers Accepts defined (⟨some defined, op⟩ :: rest) last
  | effect {defined last : Nat} {op : Op} {rest : List Inst}
      (accepts : Accepts defined ⟨none, op⟩) (ofRest : Numbers Accepts defined rest last) :
      Numbers Accepts defined (⟨none, op⟩ :: rest) last

namespace Numbers

variable {Accepts : Nat → Inst → Prop} {first middle last : Nat}

theorem append {left right : List Inst} (ofLeft : Numbers Accepts first left middle)
    (ofRight : Numbers Accepts middle right last) : Numbers Accepts first (left ++ right) last := by
  induction ofLeft with
  | nil defined => exact ofRight
  | value accepts _ inductionHypothesis => exact .value accepts (inductionHypothesis ofRight)
  | effect accepts _ inductionHypothesis => exact .effect accepts (inductionHypothesis ofRight)

/-- Every number is the result of one instruction. -/
theorem results {insts : List Inst} (numbers : Numbers Accepts first insts last) :
    List.range first ++ insts.filterMap Inst.result = List.range last := by
  induction numbers with
  | nil defined => exact List.append_nil _
  | @value defined last op rest accepts _ inductionHypothesis =>
      rw [← inductionHypothesis, List.range_succ, List.append_assoc]
      rfl
  | effect accepts _ inductionHypothesis => exact inductionHypothesis

theorem split {before after : List Inst} {inst : Inst}
    (numbers : Numbers Accepts first (before ++ inst :: after) last) :
    ∃ defined, Numbers Accepts first before defined ∧ Accepts defined inst := by
  induction before generalizing first with
  | nil =>
      cases numbers with
      | value accepts _ => exact ⟨first, .nil first, accepts⟩
      | effect accepts _ => exact ⟨first, .nil first, accepts⟩
  | cons other others inductionHypothesis =>
      cases numbers with
      | value accepts ofRest =>
          obtain ⟨defined, ofOthers, accepted⟩ := inductionHypothesis ofRest
          exact ⟨defined, .value accepts ofOthers, accepted⟩
      | effect accepts ofRest =>
          obtain ⟨defined, ofOthers, accepted⟩ := inductionHypothesis ofRest
          exact ⟨defined, .effect accepts ofOthers, accepted⟩

theorem accepted {insts : List Inst} (numbers : Numbers Accepts first insts last) {inst : Inst}
    (member : inst ∈ insts) : ∃ defined, Accepts defined inst := by
  obtain ⟨before, after, rfl⟩ := List.append_of_mem member
  obtain ⟨defined, -, accepts⟩ := numbers.split
  exact ⟨defined, accepts⟩

/-- A number that was given is one of the first or the result of an instruction. -/
theorem lt_or_exists {insts : List Inst} (numbers : Numbers Accepts first insts last)
    {value : Value} (below : value < last) :
    value < first ∨ ∃ inst ∈ insts, inst.result = some value := by
  have member := List.mem_range.mpr below
  rw [← numbers.results, List.mem_append, List.mem_range, List.mem_filterMap] at member
  exact member

end Numbers

/-! ## Well-built code -/

/-- A call has one argument for each parameter of what it calls, and the result of it. -/
def CallComplete (function : Function) (result : Option Value) (callee : Nat)
    (arguments : List Value) : Prop :=
  ∃ signature, function.calleeSignature? callee = some signature ∧
    arguments.length = signature.params.length ∧
      result.bind function.typeOf? = signature.results.head?

def isCall : Op → Bool
  | .call _ _ => true
  | _ => false

/-- The code of a function is well formed but for the types of the arguments of calls and of
the result. -/
structure WellBuilt (function : Function) : Prop where
  /-- The last instruction is the only return. -/
  returns : ∃ insts values, function.body.toList = insts ++ [⟨none, .ret values⟩] ∧
    (∀ inst ∈ insts, isReturn inst.op = false) ∧
      values.length = function.signature.results.length
  /-- The first values are the parameters. -/
  parameters : function.signature.params <+: function.values.toList
  /-- Every other value is the result of one instruction. -/
  defined : List.range function.signature.params.length ++
    function.body.toList.filterMap Inst.result = List.range function.values.size
  used : ∀ before inst after, function.body.toList = before ++ inst :: after →
    ∀ value ∈ inst.op.operands, value < function.signature.params.length ∨
      ∃ earlier ∈ before, earlier.result = some value
  /-- A slot is stored before it is loaded, and with values of the type it is loaded with. -/
  loaded : ∀ before result type slot after,
    function.body.toList = before ++ ⟨result, .stackLoad type slot⟩ :: after →
      (∃ value, ⟨none, .stackStore value slot⟩ ∈ before) ∧
        ∀ stored value, ⟨stored, .stackStore value slot⟩ ∈ function.body.toList →
          function.typeOf? value = some type
  typed : ∀ inst ∈ function.body.toList, isCall inst.op = false → isReturn inst.op = false →
    function.wellTyped inst.op (inst.result.bind function.typeOf?) = true
  calls : ∀ result callee arguments, ⟨result, .call callee arguments⟩ ∈ function.body.toList →
    function.CallComplete result callee arguments

/-- What is asked of each instruction before the return, with the number of values before it.
The parameter of a place is stored in the slot of the same place. -/
structure Admits (function : Function) (defined : Nat) (inst : Inst) : Prop where
  continues : isReturn inst.op = false
  used : ∀ value ∈ inst.op.operands, value < defined
  typed : isCall inst.op = false →
    function.wellTyped inst.op (inst.result.bind function.typeOf?) = true
  calls : ∀ {callee arguments}, inst.op = .call callee arguments →
    function.CallComplete inst.result callee arguments
  stores : ∀ {value slot}, inst.op = .stackStore value slot →
    value = slot ∧ slot < function.signature.params.length
  loads : ∀ {type slot}, inst.op = .stackLoad type slot →
    function.signature.params[slot]? = some type

theorem split_append_singleton {α : Type} {list before after : List α} {last value : α}
    (same : list ++ [last] = before ++ value :: after) :
    (before = list ∧ value = last) ∨ ∃ rest, list = before ++ value :: rest := by
  rcases List.eq_nil_or_concat after with rfl | ⟨rest, other, rfl⟩
  · obtain ⟨rfl, isLast⟩ := List.append_inj' same rfl
    cases isLast
    exact .inl ⟨rfl, rfl⟩
  · rw [List.concat_eq_append, ← List.cons_append, ← List.append_assoc] at same
    exact .inr ⟨rest, (List.append_inj' same rfl).1⟩

variable {function : Function} {insts : List Inst} {values : List Value}

theorem wellBuilt_of_numbers
    (body : function.body.toList = insts ++ [⟨none, .ret values⟩])
    (parameters : function.signature.params <+: function.values.toList)
    (numbers : Numbers function.Admits function.signature.params.length insts function.values.size)
    (stored : ∀ before result type slot after,
      insts = before ++ ⟨result, .stackLoad type slot⟩ :: after →
        ⟨none, .stackStore slot slot⟩ ∈ before)
    (returned : ∀ value ∈ values, value < function.values.size)
    (count : values.length = function.signature.results.length) : function.WellBuilt := by
  have ofParameter : ∀ {slot type}, function.signature.params[slot]? = some type →
      function.typeOf? slot = some type := by
    intro slot type isType
    obtain ⟨rest, same⟩ := parameters
    rw [typeOf?, ← Array.getElem?_toList, ← same,
      List.getElem?_append_left (List.getElem?_eq_some_iff.mp isType).1]
    exact isType
  have member : ∀ {inst}, inst ∈ function.body.toList → isReturn inst.op = false →
      ∃ defined, function.Admits defined inst := by
    intro inst member continues
    rw [body] at member
    rcases List.mem_append.mp member with member | member
    · exact numbers.accepted member
    · cases List.mem_singleton.mp member
      cases continues
  refine ⟨⟨insts, values, body, ?_, count⟩, parameters, ?_, ?_, ?_, ?_, ?_⟩
  · intro inst member
    obtain ⟨defined, admits⟩ := numbers.accepted member
    exact admits.continues
  · rw [body, List.filterMap_append, ← List.append_assoc, numbers.results]
    exact List.append_nil _
  · intro before inst after same value isUsed
    rw [body] at same
    rcases split_append_singleton same with ⟨rfl, rfl⟩ | ⟨rest, rfl⟩
    · exact numbers.lt_or_exists (returned value isUsed)
    · obtain ⟨defined, ofBefore, admits⟩ := numbers.split
      exact ofBefore.lt_or_exists (admits.used value isUsed)
  · intro before result type slot after same
    have isLoad : ∃ defined, function.Admits defined ⟨result, .stackLoad type slot⟩ :=
      member (by rw [same]; simp) rfl
    obtain ⟨_, admits⟩ := isLoad
    refine ⟨?_, ?_⟩
    · rw [body] at same
      rcases split_append_singleton same with ⟨-, isReturn⟩ | ⟨rest, rfl⟩
      · cases isReturn
      · exact ⟨slot, stored before result type slot rest rfl⟩
    · intro other value isStored
      obtain ⟨_, storeAdmits⟩ := member isStored rfl
      obtain ⟨rfl, -⟩ := storeAdmits.stores rfl
      exact ofParameter (admits.loads rfl)
  · intro inst isMember notCall continues
    obtain ⟨_, admits⟩ := member isMember continues
    exact admits.typed notCall
  · intro result callee arguments isMember
    obtain ⟨_, admits⟩ := member isMember rfl
    exact admits.calls rfl

end Ir.Function

/-! ## Emitted instructions -/

section Emitted

variable {function : Ir.Function}

theorem Ir.Function.admits_of_computes {defined : Nat} {value : Ir.Value} {op : Ir.Op}
    (isComputed : Ir.Function.computes op = true) (used : ∀ value ∈ op.operands, value < defined)
    (typed : function.wellTyped op (function.typeOf? value) = true)
    (loads : ∀ {type slot}, op = .stackLoad type slot →
      function.signature.params[slot]? = some type) :
    function.Admits defined ⟨some value, op⟩ where
  continues := Ir.Function.isReturn_of_computes isComputed
  used := used
  typed := fun _ => typed
  calls := fun isCall => by
    cases isCall
    cases isComputed
  stores := fun isStore => by
    cases isStore
    cases isComputed
  loads := loads

theorem Ir.Function.admits_store {defined slot : Nat} (below : slot < defined)
    (isParameter : slot < function.signature.params.length)
    (typed : function.wellTyped (.stackStore slot slot) none = true) :
    function.Admits defined ⟨none, .stackStore slot slot⟩ where
  continues := rfl
  used := List.forall_mem_singleton.mpr below
  typed := fun _ => typed
  calls := fun isCall => by cases isCall
  stores := fun isStore => by
    cases isStore
    exact ⟨rfl, isParameter⟩
  loads := fun isLoad => by cases isLoad

theorem Ir.Function.numbers_define {before : Ir.Function} {type : Ir.Ty} {op : Ir.Op}
    (begins : (before.define type op).2.Begins function)
    (isComputed : Ir.Function.computes op = true)
    (used : ∀ value ∈ op.operands, value < before.values.size)
    (typed : function.wellTyped op (some type) = true)
    (loads : ∀ {type slot}, op = .stackLoad type slot →
      function.signature.params[slot]? = some type) :
    Numbers function.Admits before.values.size [⟨some before.values.size, op⟩]
      (before.define type op).2.values.size := by
  have size : (before.define type op).2.values.size = before.values.size + 1 := by
    simp [Ir.Function.define]
  have hasType := begins.typeOf? (Emits.typeOf?_define before type op)
  rw [size]
  refine .value (admits_of_computes isComputed used ?_ loads) (.nil _)
  rw [hasType]
  exact typed

theorem Ir.Function.admits_call {defined : Nat} {result : Option Ir.Value} {callee : Nat}
    {arguments : List Ir.Value} (used : ∀ value ∈ arguments, value < defined)
    (complete : function.CallComplete result callee arguments) :
    function.Admits defined ⟨result, .call callee arguments⟩ where
  continues := rfl
  used := used
  typed := fun notCall => by cases notCall
  calls := fun isCall => by
    cases isCall
    exact complete
  stores := fun isStore => by cases isStore
  loads := fun isLoad => by cases isLoad

theorem numbers_call {last : Ir.Function} {number : Nat} {signature : Ir.Signature}
    {operands : List Operand}
    (begins : (last.addCall number true signature (operands.map Operand.value)).2.Begins function)
    (typed : ∀ operand ∈ operands, last.typeOf? operand.value = some operand.type)
    (count : operands.length = signature.params.length) :
    Ir.Function.Numbers function.Admits last.values.size
      [⟨signature.results.head?.map fun _ => last.values.size,
        .call last.callees.size (operands.map Operand.value)⟩]
      (last.addCall number true signature (operands.map Operand.value)).2.values.size := by
  have used : ∀ value ∈ operands.map Operand.value, value < last.values.size :=
    List.forall_mem_map.mpr fun operand isOperand =>
      Ir.Function.lt_of_typeOf? (typed operand isOperand)
  have size := congrArg List.length
    (last.addCall_values number true signature (operands.map Operand.value))
  rw [Array.length_toList, List.length_append, Array.length_toList] at size
  have values := begins.values
  rw [last.addCall_values] at values
  have hasType : ∀ type, signature.results.head? = some type →
      function.typeOf? last.values.size = some type := by
    intro type isResult
    obtain ⟨rest, same⟩ := values
    rw [Ir.Function.typeOf?, ← Array.getElem?_toList, ← same, isResult]
    simp
  have admits : ∀ result : Option Ir.Value,
      result.bind function.typeOf? = signature.results.head? → function.Admits last.values.size
        ⟨result, .call last.callees.size (operands.map Operand.value)⟩ := by
    intro result isResult
    have complete : function.CallComplete result last.callees.size
        (operands.map Operand.value) :=
      ⟨signature, calleeSignature?_of_addCall begins, (List.length_map ..).trans count, isResult⟩
    exact Ir.Function.admits_call used complete
  rw [size]
  cases isResult : signature.results.head? with
  | none => exact .effect (admits none isResult.symm) (.nil _)
  | some type =>
      refine .value (admits _ ?_) (.nil _)
      rw [isResult, ← hasType type isResult]
      rfl

theorem NamesKnown.count_of_resolveCall {scopes : ScopeTable Binding} {target : Target}
    {available : List FunctionDecl} {parameters : List (String × ScalarType)}
    (names : NamesKnown scopes target available parameters) {name : Ident}
    {arguments : List CallArgument} {span : Span} {number : Nat} {signature : Ir.Signature}
    (resolved : resolveCall scopes name arguments span = .ok (number, signature)) :
    arguments.length = signature.params.length := by
  obtain ⟨callee, -, isAvailable, sameLabels, rfl⟩ := names.exists_called resolved
  have labelled := congrArg List.length sameLabels
  have known := congrArg List.length (names.typesKnown callee isAvailable)
  simp only [FunctionDecl.labels, CallArgument.labels, List.length_map] at labelled known
  rw [signatureFor, loweredSignature, List.length_map, ← known, labelled]

/-- Emitted instructions number their results in turn, and all is in order with them but for
the types of arguments. -/
theorem Emits.numbers {scopes : ScopeTable Binding} {target : Target}
    {available : List FunctionDecl} {parameters : List (String × ScalarType)}
    (names : NamesKnown scopes target available parameters)
    (slots : ∀ {name slot type}, scopes.lookup? name = some (.parameter slot type) →
      function.signature.params[slot]? = some type ∧ function.slots[slot]? = some type.bytes)
    {code after : Ir.Function} {part : Part} {insts : List Ir.Inst}
    (emits : Emits scopes code part insts after) (begins : after.Begins function) :
    Ir.Function.Numbers function.Admits code.values.size insts after.values.size := by
  induction emits with
  | literal code value span =>
      refine Ir.Function.numbers_define begins value.computes_lowered
        (by simp [value.operands_lowered]) value.wellTyped_lowered ?_
      intro type slot isLoad
      cases value <;> cases isLoad
  | identifier code name span slot type bound =>
      obtain ⟨isParameter, isSlot⟩ := slots bound
      refine Ir.Function.numbers_define begins rfl (List.forall_mem_nil _) ?_ ?_
      · simp [Ir.Function.wellTyped, isSlot]
      · intro other found isLoad
        cases isLoad
        exact isParameter
  | @unary code middle op expr operand insts selected span ofOperand selects ofNumbers =>
      have middleBegins := (middle.begins_define operand.type selected).trans begins
      have hasType := ofOperand.operands operand rfl
      have operands := UnaryOp.operands_of_select? selects
      refine (ofNumbers middleBegins).append (Ir.Function.numbers_define begins
        (UnaryOp.computes_of_select? selects) ?_
        (UnaryOp.wellTyped_of_select? selects (middleBegins.typeOf? hasType)) ?_)
      · rw [operands]
        exact List.forall_mem_singleton.mpr (Ir.Function.lt_of_typeOf? hasType)
      · rintro type slot rfl
        cases operands
  | @binary code middle last op lhs rhs left right leftInsts rightInsts selected type span ofLeft
      ofRight sameType selects leftNumbers rightNumbers =>
      have lastBegins := (last.begins_define type selected).trans begins
      have leftHasType := ofRight.begins.typeOf? (ofLeft.operands left rfl)
      have rightHasType := ofRight.operands right rfl
      rw [← sameType] at rightHasType
      have operands := BinaryOp.operands_of_select? selects
      refine ((leftNumbers (ofRight.begins.trans lastBegins)).append
        (rightNumbers lastBegins)).append (Ir.Function.numbers_define begins
          (BinaryOp.computes_of_select? selects) ?_
          (BinaryOp.wellTyped_of_select? selects (lastBegins.typeOf? leftHasType)
            (lastBegins.typeOf? rightHasType)) ?_)
      · rw [operands]
        exact List.forall_mem_cons.mpr ⟨Ir.Function.lt_of_typeOf? leftHasType,
          List.forall_mem_singleton.mpr (Ir.Function.lt_of_typeOf? rightHasType)⟩
      · rintro loaded slot rfl
        cases operands
  | @call code middle last name arguments children operands argumentInsts childInsts number
      signature span resolved ofArguments ofChildren argumentsNumber childrenNumber =>
      have lastBegins := (last.begins_addCall number true signature
        (operands.map Operand.value)).trans begins
      have oneEach := congrArg List.length (ofArguments.typed names)
      rw [List.length_map, List.length_map] at oneEach
      refine ((argumentsNumber (ofChildren.begins.trans lastBegins)).append
        (childrenNumber lastBegins)).append (numbers_call begins ?_ ?_)
      · intro operand member
        exact ofChildren.begins.typeOf? (ofArguments.operands operand member)
      · rw [oneEach, names.count_of_resolveCall resolved]
  | noArguments code => exact .nil _
  | argument ofFirst ofRest firstNumbers restNumbers =>
      exact (firstNumbers (ofRest.begins.trans begins)).append (restNumbers begins)
  | noStatements code => exact .nil _
  | statement ofFirst ofRest firstNumbers restNumbers =>
      exact (firstNumbers (ofRest.begins.trans begins)).append (restNumbers begins)

end Emitted

/-! ## Whole functions -/

theorem Ir.Function.Numbers.of_effects {Accepts : Nat → Ir.Inst → Prop} {defined : Nat}
    {insts : List Ir.Inst} (all : ∀ inst ∈ insts, inst.result = none ∧ Accepts defined inst) :
    Numbers Accepts defined insts defined := by
  induction insts with
  | nil => exact .nil defined
  | cons first rest inductionHypothesis =>
      obtain ⟨⟨isEffect, accepts⟩, ofRest⟩ := List.forall_mem_cons.mp all
      obtain ⟨result, op⟩ := first
      cases isEffect
      exact .effect accepts (inductionHypothesis ofRest)

theorem mem_storeInsts_iff {inst : Ir.Inst} (count : Nat) : ∀ {value slot},
    inst ∈ storeInsts count value slot ↔
      ∃ index < count, inst = ⟨none, .stackStore (value + index) (slot + index)⟩ := by
  induction count with
  | zero => simp [storeInsts]
  | succ count inductionHypothesis =>
      intro value slot
      rw [storeInsts, List.mem_cons, inductionHypothesis, Nat.exists_lt_succ_left]
      simp only [Nat.add_assoc, Nat.add_comm 1, Nat.add_zero]

theorem prefix_of_split {α : Type} {front rest before after : List α} {value : α}
    (same : front ++ rest = before ++ value :: after) (notInFront : value ∉ front) :
    front <+: before := by
  rcases List.append_eq_append_iff.mp same with ⟨others, rfl, -⟩ | ⟨others, rfl, isRest⟩
  · exact ⟨others, rfl⟩
  · cases others with
    | nil => exact ⟨[], by simp⟩
    | cons first others =>
        cases isRest
        exact absurd (by simp) notInFront

section Body

variable {scopes : ScopeTable Binding} {target : Target} {available : List FunctionDecl}
  {parameters : List (String × ScalarType)} {function : FunctionDecl} {types : List ScalarType}
  {result : Option ScalarType} {code : Ir.Function}

theorem EmitsResult.numbers (names : NamesKnown scopes target available parameters)
    (slots : ∀ {name slot type}, scopes.lookup? name = some (.parameter slot type) →
      code.signature.params[slot]? = some type ∧ code.slots[slot]? = some type.bytes)
    {middle : Ir.Function} {tail : List Ir.Inst}
    (ofResult : EmitsResult scopes function middle tail code) :
    ∃ insts values, tail = insts ++ [⟨none, .ret values⟩] ∧
      Ir.Function.Numbers code.Admits middle.values.size insts code.values.size ∧
      (∀ value ∈ values, value < code.values.size) ∧
        values.length = function.resultType.toList.length := by
  cases ofResult with
  | @value path expr operand insts extended declared returned ofExpr =>
      refine ⟨insts, [operand.value], rfl, ofExpr.numbers names slots (extended.begins_emit _),
        List.forall_mem_singleton.mpr ?_, ?_⟩
      · exact Ir.Function.lt_of_typeOf? (ofExpr.operands operand rfl)
      · rw [declared]
        rfl
  | nothing declared returned =>
      refine ⟨[], [], rfl, .nil _, List.forall_mem_nil _, ?_⟩
      rw [declared]
      rfl

theorem numbers_storeInsts (count : code.signature.params.length = types.length)
    (sameSlots : code.slots = (types.map fun type => type.lowered.bytes).toArray)
    (hasTypes : ∀ index (inside : index < types.length),
      code.typeOf? index = some types[index].lowered) :
    Ir.Function.Numbers code.Admits types.length (storeInsts types.length 0 0) types.length := by
  refine .of_effects ?_
  intro inst isStore
  obtain ⟨index, inside, rfl⟩ := (mem_storeInsts_iff _).mp isStore
  rw [Nat.zero_add]
  refine ⟨rfl, Ir.Function.admits_store inside (count ▸ inside) ?_⟩
  simp [Ir.Function.wellTyped, hasTypes index inside, sameSlots, inside]

/-- A load is no store, so all the stores come before it, that of its own slot too. -/
theorem store_mem_of_load {size slot : Nat} {insts start after : List Ir.Inst}
    {found : Option Ir.Value} {type : Ir.Ty}
    (same : storeInsts size 0 0 ++ insts = start ++ ⟨found, .stackLoad type slot⟩ :: after)
    (inside : slot < size) : ⟨none, .stackStore slot slot⟩ ∈ start := by
  have notStore : (⟨found, .stackLoad type slot⟩ : Ir.Inst) ∉ storeInsts size 0 0 := by
    intro isStore
    obtain ⟨index, -, isStore⟩ := (mem_storeInsts_iff _).mp isStore
    cases isStore
  obtain ⟨stores, rfl⟩ := prefix_of_split same notStore
  refine List.mem_append_left _ ((mem_storeInsts_iff _).mpr ⟨slot, inside, ?_⟩)
  rw [Nat.zero_add]

variable {lowering : Lowering} {before : List Callable}

/-- Whatever code is finished is well built. -/
theorem Registered.wellBuilt (registered : Registered lowering before)
    (denoteParameters : List.Forall₂ (fun parameter type => parameter.type.Denotes type)
      function.parameters types)
    (denoteResult : Option.Rel (fun path type => path.Denotes type) function.resultType result)
    {name : String} {insts tail : List Ir.Inst}
    (ofBody : EmitsBody lowering.scopes function types
      (.start name (loweredSignature lowering.target types result)) insts tail code) :
    code.WellBuilt := by
  have sameLength := denoteParameters.length_eq
  have names := registered.namesKnown sameLength
  have begins := ofBody.begins
  have sameSignature : code.signature = loweredSignature lowering.target types result :=
    begins.signature
  have sameParams : code.signature.params = types.map ScalarType.lowered := by
    rw [sameSignature]
    rfl
  have count : code.signature.params.length = types.length := by
    rw [sameParams, List.length_map]
  have parameters : code.signature.params <+: code.values.toList := by
    rw [sameSignature]
    exact begins.values
  have sameSlots : code.slots = (types.map fun type => type.lowered.bytes).toArray := begins.slots
  have slots : ∀ {name slot type}, (bindParameters (function.parameters.zip types) 0
      lowering.scopes.enter).lookup? name = some (.parameter slot type) →
      code.signature.params[slot]? = some type ∧ code.slots[slot]? = some type.bytes := by
    intro name slot type bound
    have isSlot := registered.slots_bytes sameLength bound
    rw [sameParams, sameSlots]
    exact ⟨registered.slots_types sameLength bound, by simpa using isSlot⟩
  obtain ⟨middle, ofStatements, ofResult⟩ := ofBody.emitted
  obtain ⟨resultInsts, values, rfl, resultNumbers, returned, oneResult⟩ :=
    ofResult.numbers names slots
  have statementNumbers := ofStatements.numbers names slots ofResult.begins
  have size : (storeValues types 0 (.start name (loweredSignature lowering.target types
      result))).values.size = types.length := by
    rw [storeValues_start]
    simp [Ir.Function.start, loweredSignature]
  rw [size] at statementNumbers
  have hasTypes : ∀ index (inside : index < types.length),
      code.typeOf? index = some types[index].lowered := by
    intro index inside
    refine begins.typeOf? ?_
    simp [Ir.Function.typeOf?, Ir.Function.start, loweredSignature, inside]
  have storeNumbers := numbers_storeInsts count sameSlots hasTypes
  have body : code.body.toList = (storeInsts types.length 0 0 ++ (insts ++ resultInsts)) ++
      [⟨none, .ret values⟩] := by
    rw [ofBody.body, List.append_assoc, List.append_assoc]
  have numbers := storeNumbers.append (statementNumbers.append resultNumbers)
  refine Ir.Function.wellBuilt_of_numbers body parameters (count ▸ numbers) ?_ returned ?_
  · intro start found type slot after same
    obtain ⟨_, isLoad⟩ := numbers.accepted
      (same ▸ List.mem_append_right _ List.mem_cons_self)
    have inside := (List.getElem?_eq_some_iff.mp (isLoad.loads rfl)).1
    exact store_mem_of_load same (count ▸ inside)
  · rw [oneResult, sameSignature, loweredSignature]
    generalize function.resultType = path at denoteResult ⊢
    cases denoteResult with
    | none => rfl
    | some denotes => rfl

end Body

theorem Builtin.wellBuilt_printCode (target : Target) : (printCode target 0).WellBuilt := by
  have addressed : (printCode target 0).Admits 1 ⟨some 1, .globalValue target.pointer 0⟩ :=
    Ir.Function.admits_of_computes rfl (List.forall_mem_nil _) (beq_self_eq_true _)
      fun isLoad => by cases isLoad
  have called : (printCode target 0).Admits 2 ⟨some 2, .call 0 [1, 0]⟩ :=
    Ir.Function.admits_call (by simp) ⟨systemSignature target, rfl, rfl, rfl⟩
  have numbers : Ir.Function.Numbers (printCode target 0).Admits 1
      [⟨some 1, .globalValue target.pointer 0⟩, ⟨some 2, .call 0 [1, 0]⟩] 3 :=
    .value addressed (.value called (.nil _))
  refine Ir.Function.wellBuilt_of_numbers rfl ⟨_, rfl⟩ numbers ?_ (List.forall_mem_nil _) rfl
  intro before result type slot after same
  have isLoad : (⟨result, .stackLoad type slot⟩ : Ir.Inst) ∈
      before ++ ⟨result, .stackLoad type slot⟩ :: after := by simp
  rw [← same] at isLoad
  simp at isLoad

/-! ## Arguments and results of other types -/

/-- Some call in the body of a function gives an argument of another type than the parameter
has, or its result has another type than it declares. -/
def FunctionDecl.Misfits (available : List FunctionDecl) (function : FunctionDecl) : Prop :=
  (∃ expr ∈ function.body.expressions, ∃ name arguments children span,
      (Expr.call name arguments children span).Within expr ∧
        ∃ callee, called? available name arguments = some callee ∧
          ∃ argument parameter, (argument, parameter) ∈ arguments.zip callee.parameters ∧
            argument.value.type? available function.typedParameters ≠ parameter.type.scalar?) ∨
    ∃ result, function.body.result = some result ∧
      result.type? available function.typedParameters ≠ function.scalarResult?

theorem Expr.fits_eq_false_iff {available : List FunctionDecl}
    {parameters : List (String × ScalarType)} {node : Expr} :
    node.fits available parameters = false ↔ ∃ name arguments children span,
      node = .call name arguments children span ∧
        ∃ callee, called? available name arguments = some callee ∧
          ∃ argument parameter, (argument, parameter) ∈ arguments.zip callee.parameters ∧
            argument.value.type? available parameters ≠ parameter.type.scalar? := by
  cases node with
  | call name arguments children span =>
      cases isCalled : called? available name arguments with
      | none => simp [fits, isCalled]
      | some callee => simp [fits, isCalled]
  | _ => simp [fits]

theorem FunctionDecl.fits_eq_false_iff {available : List FunctionDecl} {function : FunctionDecl} :
    function.fits available = false ↔ function.Misfits available := by
  rw [fits, Bool.and_eq_false_iff, List.all_eq_false]
  refine or_congr ?_ ?_
  · simp only [List.mem_flatMap, Bool.not_eq_true, Expr.fits_eq_false_iff]
    constructor
    · rintro ⟨node, ⟨expr, isExpr, isNode⟩, name, arguments, children, span, rfl, misfits⟩
      exact ⟨expr, isExpr, name, arguments, children, span, Expr.within_of_mem_nodes expr isNode,
        misfits⟩
    · rintro ⟨expr, isExpr, name, arguments, children, span, within, misfits⟩
      exact ⟨_, ⟨expr, isExpr, within.mem_nodes⟩, name, arguments, children, span, rfl, misfits⟩
  · cases function.body.result with
    | none => simp
    | some result => simp

/-! ## Rejected programs -/

theorem Lower.functions_append (left right : List FunctionDecl) :
    functions (left ++ right) = functions left >>= fun _ => functions right := by
  induction left with
  | nil => rfl
  | cons first rest inductionHypothesis =>
      rw [List.cons_append, functions_cons, functions_cons, inductionHypothesis, bind_assoc]

/-- Functions fail as the first of them does that cannot be lowered. -/
theorem Lower.functions_eq_error_iff {declarations : List FunctionDecl} {error : LoweringError}
    {lowering : Lowering} : outcomeOf (functions declarations lowering) = .error error ↔
      ∃ before declaration after state, declarations = before ++ declaration :: after ∧
        functions before lowering = .ok () state ∧
          outcomeOf (function declaration state) = .error error := by
  constructor
  · intro fails
    induction declarations generalizing lowering with
    | nil => cases fails
    | cons first rest inductionHypothesis =>
        rw [functions_cons] at fails
        cases outcome : function first lowering with
        | error failure after =>
            rw [bind_of_error outcome] at fails
            refine ⟨[], first, rest, lowering, rfl, rfl, ?_⟩
            rw [outcome]
            exact fails
        | ok done middle =>
            rw [bind_of_ok outcome] at fails
            obtain ⟨before, declaration, after, state, rfl, succeeds, fails⟩ :=
              inductionHypothesis fails
            refine ⟨first :: before, declaration, after, state, rfl, ?_, fails⟩
            rw [functions_cons, bind_of_ok outcome]
            exact succeeds
  · rintro ⟨before, declaration, after, state, rfl, succeeds, fails⟩
    rw [functions_append, bind_of_ok succeeds, functions_cons]
    cases outcome : function declaration state with
    | error failure left =>
        rw [outcome] at fails
        rw [bind_of_error outcome]
        exact fails
    | ok done left =>
        rw [outcome] at fails
        cases fails

/-- The functions lowered so far are known, whichever they are. -/
theorem Lower.registered_of_functions {target : Target} {before : List FunctionDecl}
    {state : Lowering} (succeeds : functions before (.withBuiltins target) = .ok () state) :
    state.target = target ∧ ∃ known, Registered state known ∧
      (Callable.print state.target :: known).map Callable.declaration =
        Builtin.print :: before := by
  obtain ⟨lowered, areFunctions, -, registered, -, sameTarget⟩ :=
    (functions_eq_ok_iff.mp succeeds).inOrder (.withBuiltins target)
  refine ⟨sameTarget, lowered.map Prod.fst, registered, ?_⟩
  rw [List.map_cons, List.map_map]
  exact congrArg (Builtin.print :: ·) areFunctions

/-- A function is rejected for ill-formed code exactly if its code is finished and some
argument or the result has another type. -/
theorem Registered.illFormed_iff {state : Lowering} {known : List Callable}
    (registered : Registered state known) (function : FunctionDecl) :
    Lower.outcomeOf (Lower.function function state) = .error .illFormed ↔
      (∃ finished next, Lower.finish function state = .ok finished next) ∧
        function.Misfits ((Callable.print state.target :: known).map Callable.declaration) := by
  have finishes : (∃ finished next, Lower.finish function state = .ok finished next) ↔
      function.codeFaults state.target
        ((Callable.print state.target :: known).map Callable.declaration) = [] := by
    rw [← (registered.reports_finish function).exists_ok_iff]
    cases Lower.finish function state with
    | ok finished next => simp [Lower.outcomeOf]
    | error failure next => simp [Lower.outcomeOf]
  rw [(registered.reports_function function).eq_error_iff, finishes, ← fits_eq_false_iff,
    FunctionDecl.faults]
  -- The faults before the check are never that of the check, so it is the first one only if
  -- there are none before it.
  have before : ∀ error ∈ function.codeFaults state.target
      ((Callable.print state.target :: known).map Callable.declaration),
      error.beforeCode = true := beforeCode_of_codeFaults
  generalize function.codeFaults _ _ = faults at before ⊢
  cases faults with
  | cons first rest =>
      have notLast := before first List.mem_cons_self
      simp only [List.cons_append, List.head?_cons, Option.some.injEq, reduceCtorEq, false_and,
        iff_false]
      rintro rfl
      cases notLast
  | nil =>
      rw [misfitFaults, duplicateFaults]
      generalize (named? _ function.lowLevelName).isSome = isNamed
      generalize function.fits _ = fits
      cases fits <;> cases isNamed <;> simp

/-- All code that is handed to the check, that of the built-in function and of every function
of a program that comes so far, is well built.  The check refuses it exactly if an argument
or the result has another type than is asked for, and a program is rejected for ill-formed
code exactly if this is so in a function whose code is finished, after others that were
lowered. -/
theorem finished_code_wellBuilt_but_for_types {target : Target} {lowering : Lowering}
    (starts : Lowering.start target = .ok lowering) (program : Module) (name : String) :
    ∃ middle, Lower.builtins lowering = .ok () middle ∧
      middle.recorded = #[Builtin.printCode target 0] ∧
      (Builtin.printCode target 0).WellBuilt ∧
      (∀ before function after state finished next,
        program.functions = before ++ function :: after →
        Lower.functions before middle = .ok () state →
        Lower.finish function state = .ok finished next →
          finished.code.WellBuilt ∧
            (finished.code.check = false ↔ function.Misfits (Builtin.print :: before))) ∧
      (program.compile target name = .error .illFormed ↔
        ∃ before function after state finished next,
          program.functions = before ++ function :: after ∧
          Lower.functions before middle = .ok () state ∧
          Lower.finish function state = .ok finished next ∧
            function.Misfits (Builtin.print :: before)) := by
  have sameOutcome : program.compile target name = .error .illFormed ↔
      Lower.outcomeOf (Lower.functions program.functions (.withBuiltins target)) =
        .error .illFormed := by
    rw [(program.reports_compile starts name).eq_error_iff,
      (reports_functions program.functions (.withBuiltins target)).eq_error_iff]
    rfl
  obtain ⟨-, rfl⟩ := Lowering.start_eq_ok_iff.mp starts
  refine ⟨_, Lower.builtins_eq target _, rfl, Builtin.wellBuilt_printCode target, ?_, ?_⟩
  · intro before function after state finished next _ succeeds finishes
    obtain ⟨-, known, registered, areKnown⟩ := Lower.registered_of_functions succeeds
    obtain ⟨denoteParameters, denoteResult, -, ofBody⟩ := Lower.finishes_of_finish finishes
    refine ⟨registered.wellBuilt denoteParameters denoteResult ofBody, ?_⟩
    rw [registered.check_eq_fits denoteParameters denoteResult ofBody, areKnown, fits_eq_false_iff]
  · rw [sameOutcome, Lower.functions_eq_error_iff]
    constructor
    · rintro ⟨before, function, after, state, isSplit, succeeds, fails⟩
      obtain ⟨-, known, registered, areKnown⟩ := Lower.registered_of_functions succeeds
      obtain ⟨⟨finished, next, finishes⟩, misfits⟩ :=
        (registered.illFormed_iff function).mp fails
      exact ⟨before, function, after, state, finished, next, isSplit, succeeds, finishes,
        areKnown ▸ misfits⟩
    · rintro ⟨before, function, after, state, finished, next, isSplit, succeeds, finishes, misfits⟩
      obtain ⟨-, known, registered, areKnown⟩ := Lower.registered_of_functions succeeds
      exact ⟨before, function, after, state, isSplit, succeeds,
        (registered.illFormed_iff function).mpr ⟨⟨finished, next, finishes⟩, areKnown ▸ misfits⟩⟩

def floatArgument : FunctionDecl where
  name := ⟨"float", .empty 0⟩
  parameters := [⟨⟨"a", .empty 0⟩, .simple ⟨"Float", .empty 0⟩⟩]
  resultType := none
  body :=
    { statements :=
        [.call ⟨"print_arg", .empty 0⟩ [⟨⟨"arg", .empty 0⟩, .identifier "a" (.empty 0)⟩] none
          (.empty 0)]
      result := none }

theorem finished_code_wellBuilt_but_for_types_float :
    let target : Target := ⟨"x86_64", .systemV, .i64, .elf, true⟩
    let program : Module := ⟨[ignoredArgument, floatArgument]⟩
    ∃ lowering middle, Lowering.start target = .ok lowering ∧
      Lower.builtins lowering = .ok () middle ∧
      program.compile target "float" = .error .illFormed ∧
      ∃ before function after state finished next,
        program.functions = before ++ function :: after ∧
        Lower.functions before middle = .ok () state ∧
        Lower.finish function state = .ok finished next ∧
        finished.code.WellBuilt ∧ finished.code.check = false ∧
          function.Misfits (Builtin.print :: before) := by
  intro target program
  have starts : Lowering.start target = .ok (.initial target) := rfl
  have rejected : program.compile target "float" = .error .illFormed := by decide +kernel
  obtain ⟨middle, begins, -, -, ofFinished, rejected_iff⟩ :=
    finished_code_wellBuilt_but_for_types starts program "float"
  obtain ⟨before, function, after, state, finished, next, isSplit, succeeds, finishes, misfits⟩ :=
    rejected_iff.mp rejected
  obtain ⟨wellBuilt, refused_iff⟩ :=
    ofFinished before function after state finished next isSplit succeeds finishes
  exact ⟨_, middle, starts, begins, rejected, before, function, after, state, finished, next,
    isSplit, succeeds, finishes, wellBuilt, refused_iff.mpr misfits, misfits⟩

end ScalarLang
