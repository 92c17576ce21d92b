import ScalarLang.Proofs.Execution.Simulation
import ScalarLang.Proofs.Lowering.Names

/-!
# Compiled programs compute what they mean

The code of a function first puts its arguments into the stack slots of the
parameters, then runs its statements and returns its result.  If the functions that it
can call do what they mean, so does it.  The functions of a program are lowered one
after the other, and each calls only earlier ones, so all of them do.
-/

set_option autoImplicit false

namespace ScalarLang

/-! ## Parameters -/

namespace Frame

def storeAll (frame : Frame) : List Datum → Nat → Frame
  | [], _ => frame
  | datum :: rest, slot => (frame.store slot datum).storeAll rest (slot + 1)

theorem storeAll_values (frame : Frame) (data : List Datum) (slot : Nat) :
    (frame.storeAll data slot).values = frame.values := by
  induction data generalizing frame slot with
  | nil => rfl
  | cons datum rest inductionHypothesis => exact inductionHypothesis _ _

theorem storeAll_slots (frame : Frame) (data : List Datum) (slot other : Nat) :
    (frame.storeAll data slot).slots other =
      if slot ≤ other ∧ other < slot + data.length then data[other - slot]?
      else frame.slots other := by
  induction data generalizing frame slot with
  | nil =>
      have outside : ¬ (slot ≤ other ∧ other < slot + ([] : List Datum).length) := by
        rw [List.length_nil]
        omega
      rw [storeAll, if_neg outside]
  | cons datum rest inductionHypothesis =>
      rw [storeAll, inductionHypothesis]
      by_cases same : other = slot
      · subst same
        have outside : ¬ (other + 1 ≤ other ∧ other < other + 1 + rest.length) := by omega
        rw [if_neg outside]
        simp [store]
      · by_cases inside : slot + 1 ≤ other ∧ other < slot + 1 + rest.length
        · have shifted : other - slot = other - (slot + 1) + 1 := by omega
          have alsoInside : slot ≤ other ∧ other < slot + (rest.length + 1) := by omega
          simp [inside, alsoInside, shifted]
        · have alsoOutside : ¬ (slot ≤ other ∧ other < slot + (rest.length + 1)) := by omega
          rw [if_neg inside, List.length_cons, if_neg alsoOutside]
          exact if_neg same

end Frame

theorem runInsts_stores {function : Ir.Function} {host : Host} {caller : Caller}
    (data : List Datum) : ∀ (frame : Frame) (value slot : Nat),
      (∀ index datum, data[index]? = some datum → frame.values (value + index) = some datum ∧
        function.slots[slot + index]? = some datum.type.bytes) →
      function.runInsts host caller frame (storeInsts data.length value slot) =
        pure (frame.storeAll data slot) := by
  induction data with
  | nil => intro frame value slot held; rfl
  | cons datum rest inductionHypothesis =>
      intro frame value slot held
      have isHeld : frame.values value = some datum := (held 0 datum rfl).1
      have fits : function.slots[slot]? = some datum.type.bytes := (held 0 datum rfl).2
      have stores : function.runInst host caller frame ⟨none, .stackStore value slot⟩ =
          pure (frame.store slot datum) := by
        simp only [Ir.Function.runInst, Frame.read_eq isHeld]
        exact if_pos fits
      simp only [List.length_cons, storeInsts, Ir.Function.runInsts, stores, pure_bind]
      refine inductionHypothesis (frame.store slot datum) (value + 1) (slot + 1) ?_
      intro index next found
      have ofNext := held (index + 1) next found
      rwa [show value + (index + 1) = value + 1 + index by omega,
        show slot + (index + 1) = slot + 1 + index by omega] at ofNext

theorem storeInsts_continues {count value slot : Nat} :
    ∀ inst ∈ storeInsts count value slot, Ir.Function.isReturn inst.op = false := by
  induction count generalizing value slot with
  | zero => simp [storeInsts]
  | succ count inductionHypothesis =>
      exact List.forall_mem_cons.mpr ⟨rfl, inductionHypothesis⟩

def Frame.ofArguments (data : List Datum) : Frame where
  values := fun value => data[value]?
  slots := fun slot => data[slot]?

theorem Frame.storeAll_start (data : List Datum) :
    (Frame.start data).storeAll data 0 = .ofArguments data := by
  have sameSlots : ((Frame.start data).storeAll data 0).slots = (Frame.ofArguments data).slots := by
    funext slot
    rw [storeAll_slots]
    split
    · rfl
    · rename_i outside
      have beyond : data.length ≤ slot := by omega
      exact (List.getElem?_eq_none beyond).symm
  have sameValues := storeAll_values (Frame.start data) data 0
  cases stored : (Frame.start data).storeAll data 0 with
  | mk values slots =>
      rw [stored] at sameSlots sameValues
      cases sameSlots
      cases sameValues
      rfl

/-- The first instructions of a function put its arguments into stack slots. -/
theorem runInsts_prologue {function : Ir.Function} {host : Host} {caller : Caller}
    {types : List ScalarType} {values : List Value}
    (sameTypes : values.map (·.type.lowered) = types.map ScalarType.lowered)
    (slots : function.slots = (types.map fun type => type.lowered.bytes).toArray) :
    function.runInsts host caller (.start (values.map Value.lowered))
        (storeInsts types.length 0 0) = pure (.ofArguments (values.map Value.lowered)) := by
  have sameLength : types.length = (values.map Value.lowered).length := by
    have lengths := congrArg List.length sameTypes
    simpa using lengths.symm
  rw [sameLength, ← Frame.storeAll_start]
  refine runInsts_stores _ _ 0 0 ?_
  intro index datum found
  rw [Nat.zero_add]
  refine ⟨found, ?_⟩
  obtain ⟨value, stands, rfl⟩ : ∃ value, values[index]? = some value ∧ value.lowered = datum := by
    rw [List.getElem?_map] at found
    exact Option.map_eq_some_iff.mp found
  have sameType := congrArg (fun list => list[index]?) sameTypes
  simp only [List.getElem?_map, stands, Option.map_some] at sameType
  obtain ⟨type, isType, sameLowered⟩ := Option.map_eq_some_iff.mp sameType.symm
  rw [slots, List.getElem?_toArray, List.getElem?_map, isType, Option.map_some, sameLowered,
    Value.type_lowered]

def InSlot (slots : Nat → Option Datum) (slot : Nat × Ir.Ty) (value : Value) : Prop :=
  value.type.lowered = slot.2 ∧ slots slot.1 = some value.lowered

/-! ## Functions -/

theorem find?_eq_some_of_unique {α : Type} {list : List α} {accepts : α → Bool} {index : Nat}
    {value : α} (stands : list[index]? = some value) (accepted : accepts value = true)
    (unique : ∀ other found, list[other]? = some found → accepts found = true → other = index) :
    list.find? accepts = some value := by
  cases found : list.find? accepts with
  | none =>
      have refused := List.find?_eq_none.mp found value (List.mem_of_getElem? stands)
      exact absurd accepted refused
  | some first =>
      obtain ⟨other, stands'⟩ := List.mem_iff_getElem?.mp (List.mem_of_find?_eq_some found)
      obtain rfl := unique other first stands' (List.find?_some found)
      exact stands'.symm.trans stands

structure Implements (caller : Caller) (known : List Meaning) (callables : List Callable) :
    Prop where
  declarations : known.map Meaning.declaration = callables.map Callable.declaration
  agrees : ∀ {index callable meaning}, callables[index]? = some callable →
    known[index]? = some meaning → ∀ values output,
      values.map (·.type.lowered) = callable.signature.params →
      Agrees (Returns callable.signature.results) (meaning.act values output)
        (caller (index + 1) (values.map Value.lowered) output)

section Function

variable {host : Host} {target : Target} {before : List Callable} {callable : Callable}
  {code : Ir.Function} {caller : Caller} {known : List Meaning}

/-- A call is evaluated with the function that lowering resolves it to. -/
theorem Implements.find?_eq {lowering : Lowering} (registered : Registered lowering before)
    (implements : Implements caller known (Callable.print lowering.target :: before))
    {index : Nat} {name : Ident} {arguments : List CallArgument}
    (stands : (Callable.print lowering.target :: before)[index]? = some callable)
    (sameName : callable.declaration.name.name = name.name)
    (sameLabels : callable.declaration.labels = CallArgument.labels arguments) :
    ∃ meaning, known[index]? = some meaning ∧
      known.find? (fun meaning => meaning.isCalledBy name arguments) = some meaning := by
  have sameDeclaration : ∀ position : Nat, (known[position]?).map Meaning.declaration =
      ((Callable.print lowering.target :: before)[position]?).map Callable.declaration := by
    intro position
    rw [← List.getElem?_map, ← List.getElem?_map, implements.declarations]
  obtain ⟨meaning, isKnown, ofCallable⟩ : ∃ meaning, known[index]? = some meaning ∧
      meaning.declaration = callable.declaration := by
    have same := sameDeclaration index
    rw [stands] at same
    exact Option.map_eq_some_iff.mp same
  refine ⟨meaning, isKnown, find?_eq_some_of_unique isKnown ?_ ?_⟩
  · simp [Meaning.isCalledBy, ofCallable, sameName, sameLabels]
  · intro other found isOther called
    simp only [Meaning.isCalledBy, Bool.and_eq_true, beq_iff_eq] at called
    have same := sameDeclaration other
    rw [isOther] at same
    obtain ⟨found', stands', ofFound⟩ := Option.map_eq_some_iff.mp same.symm
    have sameLowLevel : found'.name = callable.name := by
      apply lowLevelName_eq
      · rw [ofFound, called.1, sameName]
      · rw [ofFound, called.2, sameLabels]
    exact registered.index_eq stands' stands sameLowLevel

/-- The setting of the body of a function. -/
theorem LoweredAfter.setting {lowering : Lowering} {types : List ScalarType} {values : List Value}
    {declaration : FunctionDecl} {slots : Nat → Option Datum}
    (registered : Registered lowering before)
    (implements : Implements caller known (Callable.print lowering.target :: before))
    (sameLength : declaration.parameters.length = types.length)
    (sameTypes : values.map (·.type.lowered) = types.map ScalarType.lowered)
    (held : ∀ index value, values[index]? = some value → slots index = some value.lowered) :
    Setting (bindParameters (declaration.parameters.zip types) 0 lowering.scopes.enter) known
      (declaration.labels.zip values) caller slots := by
  refine ⟨?_, ?_⟩
  · intro name slot type bound
    rw [registered.lookup?_parameter] at bound
    have oneEach : types.length = values.length := by
      simpa using (congrArg List.length sameTypes).symm
    have inSlots : ∀ index type value, types[index]? = some type → values[index]? = some value →
        InSlot slots (0 + index, type.lowered) value := by
      intro index type value isType isValue
      have sameType := congrArg (fun list => list[index]?) sameTypes
      simp only [List.getElem?_map, isType, isValue, Option.map_some] at sameType
      rw [Nat.zero_add]
      exact ⟨Option.some.inj sameType, held index value isValue⟩
    have related :=
      lookup_reverse_related (parameterSlots_related sameLength oneEach inSlots) name
    rw [bound] at related
    exact exists_of_rel_some related
  · intro name arguments span number signature resolved
    obtain ⟨index, callable, stands, sameName, sameLabels, rfl, rfl⟩ :=
      registered.resolveCall_eq_ok_iff.mp resolved
    obtain ⟨meaning, isKnown, isFound⟩ :=
      implements.find?_eq registered stands sameName sameLabels
    exact ⟨meaning, isFound, implements.agrees stands isKnown⟩

theorem EmitsResult.agrees {scopes : ScopeTable Binding} {parameters : List (String × Value)}
    {slots : Nat → Option Datum} {declaration : FunctionDecl} {middle : Ir.Function}
    {tail : List Ir.Inst} (setting : Setting scopes known parameters caller slots)
    (ofResult : EmitsResult scopes declaration middle tail code) (checked : code.check = true)
    {frame : Frame} (sameSlots : frame.slots = slots) (output : List Int64) :
    Agrees (Returns code.signature.results)
      (declaration.evalResult host known parameters output)
      (code.runBody host caller frame tail output) := by
  have body := ofResult.body
  have typed := Ir.Function.callsTyped_of_check checked
  have results := Ir.Function.results_of_check checked
  rw [body] at typed results
  have tailTyped := (Ir.Function.callsTyped_append.mp typed).2
  cases ofResult with
  | @value path expr operand insts extended declared returned ofExpr =>
      have begins := extended.begins_emit (.ret [operand.value])
      have exprTyped := (Ir.Function.callsTyped_append.mp tailTyped).1
      have hasType := begins.typeOf? (ofExpr.operands operand rfl)
      have isResult := results [operand.value] (by simp)
      rw [List.map_singleton, hasType] at isResult
      rw [Ir.Function.runBody_append _ _ _ ofExpr.continues]
      simp only [FunctionDecl.evalResult, returned]
      refine (agrees_value (ofExpr.simulates setting begins exprTyped sameSlots output)).bind ?_
      rintro value after printed ⟨keeps, holds⟩
      have reads : after.readAll [operand.value] = pure [value.lowered] :=
        Frame.readAll_eq (.cons holds .nil)
      change Agrees _ _ (after.readAll [operand.value] printed)
      rw [reads]
      refine ⟨⟨rfl, ?_⟩, rfl⟩
      apply eq_of_map_some
      rw [← isResult, ← holds.2]
      rfl
  | nothing declared returned =>
      have isResult := results [] (by simp)
      simp only [FunctionDecl.evalResult, returned]
      exact ⟨⟨rfl, eq_of_map_some isResult⟩, rfl⟩

/-- The code of a function does what the function means, if the functions that it can
call do. -/
theorem LoweredAfter.run_agrees (lowered : LoweredAfter target before callable code)
    (implements : Implements caller known (Callable.print target :: before))
    (values : List Value) (sameTypes : values.map (·.type.lowered) = callable.signature.params)
    (output : List Int64) :
    Agrees (Returns callable.signature.results)
      (callable.declaration.eval host known values output)
      (code.run host caller (values.map Value.lowered) output) := by
  obtain ⟨registered, rfl, denoteParameters, denoteResult, hasSignature, ofBody, checked⟩ := lowered
  rename_i lowering types result insts tail
  have begins := ofBody.begins
  have body := ofBody.body
  obtain ⟨middle, ofStatements, ofResult⟩ := ofBody.emitted
  have argumentTypes : values.map (·.type.lowered) = types.map ScalarType.lowered := by
    rw [sameTypes, hasSignature]
    rfl
  have held : ∀ index value, values[index]? = some value →
      (Frame.ofArguments (values.map Value.lowered)).slots index = some value.lowered := by
    intro index value found
    change (values.map Value.lowered)[index]? = _
    rw [List.getElem?_map, found, Option.map_some]
  have setting := LoweredAfter.setting registered implements denoteParameters.length_eq
    argumentTypes held
  have typed := Ir.Function.callsTyped_of_check checked
  rw [body] at typed
  have statementsTyped := (Ir.Function.callsTyped_append.mp
    (Ir.Function.callsTyped_append.mp typed).2).1
  have sameData : (values.map Value.lowered).map Datum.type = code.signature.params := by
    rw [begins.signature, List.map_map]
    exact (List.map_congr_left fun value _ => value.type_lowered).trans sameTypes
  rw [Ir.Function.run, if_pos sameData, body,
    Ir.Function.runBody_append _ _ _ storeInsts_continues,
    runInsts_prologue argumentTypes begins.slots, pure_bind,
    Ir.Function.runBody_append _ _ _ ofStatements.continues]
  refine Agrees.bind
    (ofStatements.simulates setting ofResult.begins statementsTyped rfl output) ?_
  rintro ⟨⟩ after printed keeps
  have sameSignature : code.signature = callable.signature := begins.signature
  rw [← sameSignature]
  exact ofResult.agrees setting checked keeps.slots printed

end Function

/-! ## Programs -/

section Program

variable {host : Host} {final : Lowering}

theorem LoweredAfter.name {target : Target} {before : List Callable} {callable : Callable}
    {code : Ir.Function} (lowered : LoweredAfter target before callable code) :
    code.name = callable.name := by
  obtain ⟨registered, rfl, denoteParameters, denoteResult, hasSignature, ofBody, checked⟩ := lowered
  exact ofBody.begins.name

/-- The numbers of an object lead to the system, the built-in function and the code of
functions in order. -/
structure Routines (final : Lowering) (target : Target)
    (lowered : List (Callable × Ir.Function)) : Prop where
  system : final.routine? 0 = some .system
  print : final.routine? 1 = some (.code (Builtin.printCode target 0))
  ofCode : ∀ (index : Nat) pair, lowered[index]? = some pair →
    final.routine? (index + 2) = some (.code pair.2)

theorem run_printCode (target : Target) (caller : Caller) (bits : BitVec 64) :
    (Builtin.printCode target 0).run host caller [.i64 bits] = (do
      match ← caller 0 [.address target.pointer 0, .i64 bits] with
      | [_] => return []
      | _ => throw .stuck) := by
  have body : (Builtin.printCode target 0).body.toList =
      [⟨some 1, .globalValue target.pointer 0⟩, ⟨some 2, .call 0 [1, 0]⟩, ⟨none, .ret []⟩] := rfl
  have callee : (Builtin.printCode target 0).callees[0]? = some ⟨0, false, 0⟩ := rfl
  have sameTypes : [Datum.i64 bits].map Datum.type =
      (Builtin.printCode target 0).signature.params := rfl
  rw [Ir.Function.run, if_pos sameTypes, body]
  simp only [Ir.Function.runBody, Ir.Function.runInst, callee]
  change (caller 0 [.address target.pointer 0, .i64 bits] >>= _) >>= _ = _
  rw [bind_assoc]
  refine congrArg _ (funext fun data => ?_)
  rcases data with _ | ⟨first, _ | ⟨second, rest⟩⟩ <;> rfl

theorem Meaning.print_agrees {target : Target} {lowered : List (Callable × Ir.Function)}
    (routines : Routines final target lowered) {depth : Nat} (enough : 2 ≤ depth)
    (values : List Value) (output : List Int64)
    (sameTypes : values.map (·.type.lowered) = (Builtin.printSignature target).params) :
    Agrees (Returns (Builtin.printSignature target).results) (Meaning.print.act values output)
      (final.call host depth 1 (values.map Value.lowered) output) := by
  obtain ⟨rest, rfl⟩ : ∃ rest, depth = rest + 2 := ⟨depth - 2, by omega⟩
  obtain ⟨value, rfl⟩ : ∃ value, values = [.int value] := by
    match values, sameTypes with
    | [.int value], _ => exact ⟨value, rfl⟩
  have system : final.call host (rest + 1) 0
      [.address target.pointer 0, .i64 value.toBitVec] = (do
        Run.print value
        return [.i32 (host.printed value)]) := by
    simp only [Lowering.call, routines.system]
    rfl
  have calls : final.call host (rest + 2) 1 [.i64 value.toBitVec] =
      (Builtin.printCode target 0).run host (final.call host (rest + 1)) [.i64 value.toBitVec] := by
    simp only [Lowering.call, routines.print]
  change Agrees _ _ (final.call host (rest + 2) 1 [.i64 value.toBitVec] output)
  rw [calls, run_printCode, system]
  exact ⟨⟨rfl, rfl⟩, rfl⟩

/-- A program does what it means before its first function. -/
theorem Implements.print {target : Target} {lowered : List (Callable × Ir.Function)}
    (routines : Routines final target lowered) {depth : Nat} (enough : 2 ≤ depth) :
    Implements (final.call host depth) (meanings host []) [Callable.print target] := by
  refine ⟨rfl, ?_⟩
  intro index callable meaning stands isKnown values output sameTypes
  cases index with
  | zero =>
      cases stands
      cases isKnown
      exact Meaning.print_agrees routines enough values output sameTypes
  | succ index => simp at stands

/-- A program that does what it means so far still does with one more function. -/
theorem Implements.next {target : Target} {before : List Callable} {callable : Callable}
    {code : Ir.Function} (lowered : LoweredAfter target before callable code) {depth : Nat}
    (implements : Implements (final.call host depth)
      (meanings host (before.map Callable.declaration)) (Callable.print target :: before))
    (deeper : Implements (final.call host (depth + 1))
      (meanings host (before.map Callable.declaration)) (Callable.print target :: before))
    (isCode : final.routine? (before.length + 2) = some (.code code)) :
    Implements (final.call host (depth + 1))
      (meanings host ((before ++ [callable]).map Callable.declaration))
      (Callable.print target :: (before ++ [callable])) := by
  have known : meanings host ((before ++ [callable]).map Callable.declaration) =
      meanings host (before.map Callable.declaration) ++ [⟨callable.declaration,
        callable.declaration.eval host (meanings host (before.map Callable.declaration))⟩] := by
    rw [List.map_append]
    exact meanings_append_singleton host _ _
  have sameDeclarations := implements.declarations
  have sameLength : (meanings host (before.map Callable.declaration)).length =
      before.length + 1 := by
    simpa using congrArg List.length sameDeclarations
  rw [known, ← List.cons_append]
  refine ⟨?_, ?_⟩
  · rw [List.map_append, List.map_append, sameDeclarations]
    rfl
  · intro index found meaning stands isKnown values output sameTypes
    rcases Nat.lt_or_ge index (before.length + 1) with inside | outside
    · rw [List.getElem?_append_left (by simpa using inside)] at stands
      rw [List.getElem?_append_left (by omega)] at isKnown
      exact deeper.agrees stands isKnown values output sameTypes
    · obtain rfl : index = before.length + 1 := by
        have bounded := (List.getElem?_eq_some_iff.mp isKnown).1
        rw [List.length_append, sameLength, List.length_singleton] at bounded
        omega
      rw [List.getElem?_append_right (by simp)] at stands
      rw [List.getElem?_append_right (by omega), sameLength, Nat.sub_self] at isKnown
      obtain rfl : callable = found := by simpa using stands
      cases isKnown
      have calls : final.call host (depth + 1) (before.length + 1 + 1) =
          code.run host (final.call host depth) := by
        funext arguments
        simp only [Lowering.call, isCode]
      rw [calls]
      exact lowered.run_agrees implements values sameTypes output

theorem LoweredInOrder.implements {target : Target} {before : List Callable}
    {lowered : List (Callable × Ir.Function)} (inOrder : LoweredInOrder target before lowered) :
    (∀ (index : Nat) pair, lowered[index]? = some pair →
      final.routine? (before.length + index + 2) = some (.code pair.2)) →
    (∀ depth, before.length + 2 ≤ depth → Implements (final.call host depth)
      (meanings host (before.map Callable.declaration)) (Callable.print target :: before)) →
    ∀ depth, before.length + lowered.length + 2 ≤ depth → Implements (final.call host depth)
      (meanings host ((before ++ lowered.map Prod.fst).map Callable.declaration))
      (Callable.print target :: (before ++ lowered.map Prod.fst)) := by
  induction inOrder with
  | none before =>
      intro isCode base depth enough
      simpa using base depth enough
  | @next before callable code rest ofFirst ofRest inductionHypothesis =>
      intro isCode base depth enough
      have ofRest := inductionHypothesis ?_ ?_ depth ?_
      · simpa using ofRest
      · intro index pair stands
        have isNext := isCode (index + 1) pair stands
        rw [List.length_append, List.length_singleton]
        rwa [show before.length + (index + 1) + 2 = before.length + 1 + index + 2 by omega]
          at isNext
      · intro depth enough
        rw [List.length_append, List.length_singleton] at enough
        obtain ⟨shallower, rfl⟩ : ∃ shallower, depth = shallower + 1 := ⟨depth - 1, by omega⟩
        exact .next ofFirst (base shallower (by omega)) (base (shallower + 1) (by omega))
          (isCode 0 _ rfl)
      · rw [List.length_append, List.length_singleton]
        rw [List.length_cons] at enough
        omega

theorem LoweredInOrder.split {target : Target} {callable : Callable} {code : Ir.Function}
    {later : List (Callable × Ir.Function)} :
    ∀ {before : List Callable} {earlier : List (Callable × Ir.Function)},
      LoweredInOrder target before (earlier ++ (callable, code) :: later) →
      LoweredInOrder target before earlier ∧
        LoweredAfter target (before ++ earlier.map Prod.fst) callable code := by
  intro before earlier
  induction earlier generalizing before with
  | nil =>
      rintro ⟨⟩
      rename_i ofFirst ofRest
      exact ⟨.none before, by simpa using ofFirst⟩
  | cons first others inductionHypothesis =>
      rintro ⟨⟩
      rename_i ofFirst ofRest
      obtain ⟨ofOthers, ofCallable⟩ := inductionHypothesis ofRest
      exact ⟨.next ofFirst ofOthers, by simpa using ofCallable⟩

theorem LoweredInOrder.name_eq {target : Target} {before : List Callable}
    {lowered : List (Callable × Ir.Function)} (inOrder : LoweredInOrder target before lowered)
    {pair : Callable × Ir.Function} (member : pair ∈ lowered) : pair.2.name = pair.1.name := by
  induction inOrder with
  | none before => cases member
  | next ofFirst _ inductionHypothesis =>
      rcases List.mem_cons.mp member with rfl | member
      · exact ofFirst.name
      · exact inductionHypothesis member

theorem Lowering.codeOf?_eq {lowering : Lowering}
    (distinct : (lowering.recorded.toList.map Ir.Function.name).Nodup) {index : Nat}
    {code : Ir.Function} (stands : lowering.recorded.toList[index]? = some code) :
    lowering.codeOf? code.name = some code := by
  refine find?_eq_some_of_unique stands (by simp) ?_
  intro other found stands' sameName
  have inside : other < (lowering.recorded.toList.map Ir.Function.name).length := by
    rw [List.length_map]
    exact (List.getElem?_eq_some_iff.mp stands').1
  refine (List.getElem?_inj inside distinct).mp ?_
  rw [List.getElem?_map, List.getElem?_map, stands', stands]
  simpa using sameName

/-- The numbers of the functions of a program lead to their code. -/
theorem Registered.routines {lowered : List (Callable × Ir.Function)}
    (registered : Registered final (lowered.map Prod.fst))
    (inOrder : LoweredInOrder final.target [] lowered)
    (recorded : final.recorded.toList =
      Builtin.printCode final.target 0 :: lowered.map Prod.snd) :
    Routines final final.target lowered := by
  have names : final.recorded.toList.map Ir.Function.name =
      (Callable.print final.target :: lowered.map Prod.fst).map Callable.name := by
    rw [recorded, List.map_cons, List.map_cons, List.map_map, List.map_map]
    exact congrArg _ (List.map_congr_left fun pair member => inOrder.name_eq member)
  have distinct := names ▸ registered.distinct
  have entry : ∀ number : Nat, final.declarations.functions[number]? =
      (⟨Builtin.systemPrint, .imported, Builtin.systemSignature final.target, false⟩ ::
        ⟨Builtin.print.lowLevelName, .hidden, Builtin.printSignature final.target, true⟩ ::
          (lowered.map Prod.fst).map Callable.entry)[number]? := by
    intro number
    rw [← Array.getElem?_toList, registered.entries]
  refine ⟨?_, ?_, ?_⟩
  · simp only [Lowering.routine?, entry]
    rfl
  · have isPrint : final.recorded.toList[0]? = some (Builtin.printCode final.target 0) := by
      rw [recorded]
      rfl
    have isCode : final.codeOf? Builtin.print.lowLevelName = _ :=
      Lowering.codeOf?_eq distinct isPrint
    simp only [Lowering.routine?, entry, List.getElem?_cons_succ, List.getElem?_cons_zero, isCode]
    rfl
  · intro index pair stands
    have isRecorded : final.recorded.toList[index + 1]? = some pair.2 := by
      rw [recorded, List.getElem?_cons_succ, List.getElem?_map, stands, Option.map_some]
    have sameName : pair.2.name = pair.1.name := inOrder.name_eq (List.mem_of_getElem? stands)
    have isCode := Lowering.codeOf?_eq distinct isRecorded
    rw [sameName] at isCode
    simp only [Lowering.routine?, entry, List.getElem?_cons_succ, List.getElem?_map, stands,
      Option.map_some, Callable.entry, isCode]

theorem LoweredAfter.params_of_denotes {target : Target} {before : List Callable}
    {callable : Callable} {code : Ir.Function}
    (lowered : LoweredAfter target before callable code) {values : List Value}
    (given : List.Forall₂ (fun parameter value => parameter.type.Denotes value.type)
      callable.declaration.parameters values) :
    values.map (·.type.lowered) = callable.signature.params := by
  obtain ⟨registered, rfl, denoteParameters, denoteResult, hasSignature, ofBody, checked⟩ := lowered
  rw [hasSignature, loweredSignature,
    types_unique denoteParameters (List.forall₂_map_right_iff.mpr given), List.map_map]
  rfl

theorem Routines.implements (host : Host) {target : Target}
    {earlier rest : List (Callable × Ir.Function)}
    (routines : Routines final target (earlier ++ rest))
    (inOrder : LoweredInOrder target [] earlier) {depth : Nat}
    (enough : earlier.length + 2 ≤ depth) :
    Implements (final.call host depth)
      (meanings host ((earlier.map Prod.fst).map Callable.declaration))
      (Callable.print target :: earlier.map Prod.fst) := by
  refine inOrder.implements ?_ ?_ depth (by simpa using enough)
  · intro index pair stands
    rw [List.length_nil, Nat.zero_add]
    refine routines.ofCode index pair ?_
    rw [List.getElem?_append_left (List.getElem?_eq_some_iff.mp stands).1]
    exact stands
  · intro shallower enough
    exact .print routines enough

/-- The code of every function of a program that is lowered ends as the function is
evaluated: with the same value or the same trap, after the same printed integers. -/
theorem addProgram_preserves_meaning (host : Host) {target : Target} {program : Module}
    {start final : Lowering} (starts : Lowering.start target = .ok start)
    (accepted : start.addProgram program = (.ok (), final))
    {before after : List FunctionDecl} {function : FunctionDecl}
    (isFunction : program.functions = before ++ function :: after) {arguments : List Value}
    (typed : List.Forall₂ (fun parameter value => parameter.type.Denotes value.type)
      function.parameters arguments)
    {depth : Nat} (enough : before.length + 2 ≤ depth) (output : List Int64) :
    ∃ code, final.recorded[before.length + 1]? = some code ∧
      code.name = function.lowLevelName ∧
      final.routine? (before.length + 2) = some (.code code) ∧
      Agrees (fun (value : Option Value) data => data = value.toList.map Value.lowered)
        (function.eval host (meanings host before) arguments output)
        (code.run host (final.call host depth) (arguments.map Value.lowered) output) := by
  obtain ⟨-, rfl⟩ := Lowering.start_eq_ok_iff.mp starts
  have lowers := Lower.program_eq_ok_iff.mp (Lowering.addProgram_eq_ok_iff.mp accepted)
  obtain ⟨lowered, sameFunctions, inOrder, registered, recorded, sameTarget⟩ :=
    lowers.inOrder (.withBuiltins target)
  change final.target = target at sameTarget
  change LoweredInOrder target [] lowered at inOrder
  subst sameTarget
  rw [isFunction] at sameFunctions
  obtain ⟨earlier, fromHere, rfl, ofBefore, ofRest⟩ := List.map_eq_append_iff.mp sameFunctions
  obtain ⟨⟨callable, code⟩, later, rfl, isCallable, -⟩ := List.map_eq_cons_iff.mp ofRest
  obtain rfl : callable.declaration = function := isCallable
  have routines := registered.routines inOrder recorded
  obtain ⟨ofEarlier, ofCallable⟩ := inOrder.split
  have stands :
      (earlier ++ (callable, code) :: later)[earlier.length]? = some (callable, code) := by
    simp
  have sameLength : before.length = earlier.length := by
    rw [← ofBefore, List.length_map]
  have deepEnough : earlier.length + 2 ≤ depth := by omega
  have implements := routines.implements host ofEarlier deepEnough
  rw [List.map_map] at implements
  change Implements _ (meanings host (earlier.map fun pair => pair.1.declaration)) _ at implements
  rw [ofBefore] at implements
  refine ⟨code, ?_, ofCallable.name, ?_, ?_⟩
  · rw [← Array.getElem?_toList, recorded, sameLength]
    simp [Lowering.withBuiltins]
  · rw [sameLength]
    exact routines.ofCode _ _ stands
  · refine Agrees.mono ?_ (ofCallable.run_agrees implements arguments
      (ofCallable.params_of_denotes typed) output)
    rintro value data ⟨sameData, -⟩
    exact sameData

def lastOfTwo : FunctionDecl where
  name := ⟨"last", .empty 0⟩
  parameters :=
    [⟨⟨"n", .empty 0⟩, .simple ⟨"Int", .empty 0⟩⟩, ⟨⟨"n", .empty 0⟩, .simple ⟨"Int", .empty 0⟩⟩]
  resultType := some (.simple ⟨"Int", .empty 0⟩)
  body := ⟨[], some (.identifier "n" (.empty 0))⟩

def printedQuotient : FunctionDecl where
  name := ⟨"quotient", .empty 0⟩
  parameters :=
    [⟨⟨"a", .empty 0⟩, .simple ⟨"Int", .empty 0⟩⟩, ⟨⟨"b", .empty 0⟩, .simple ⟨"Int", .empty 0⟩⟩]
  resultType := some (.simple ⟨"Int", .empty 0⟩)
  body :=
    { statements :=
        [.call ⟨"print_arg", .empty 0⟩
          [⟨⟨"arg", .empty 0⟩, .call ⟨"last", .empty 0⟩
            [⟨⟨"n", .empty 0⟩, .identifier "a" (.empty 0)⟩,
              ⟨⟨"n", .empty 0⟩, .identifier "b" (.empty 0)⟩] none (.empty 0)⟩] none (.empty 0)]
      result := some (.binary .div (.identifier "a" (.empty 0)) (.identifier "b" (.empty 0))
        (.empty 0)) }

/-- The least integer divided by minus one stops after minus one was printed. -/
theorem addProgram_preserves_meaning_overflow :
    ∃ final, (Lowering.initial ⟨"x86_64", .systemV, .i64, .elf, true⟩).addProgram
        ⟨[lastOfTwo, printedQuotient]⟩ = (.ok (), final) ∧
      ∃ code, final.recorded[2]? = some code ∧ code.name = printedQuotient.lowLevelName ∧
        final.routine? 3 = some (.code code) ∧
        Agrees (fun (value : Option Value) data => data = value.toList.map Value.lowered)
          (.error (.trap .overflow) [-1])
          (code.run default (final.call default 3)
            ([.int Int64.minValue, .int (-1)].map Value.lowered) []) := by
  obtain ⟨final, accepted⟩ : ∃ final,
      (Lowering.initial ⟨"x86_64", .systemV, .i64, .elf, true⟩).addProgram
        ⟨[lastOfTwo, printedQuotient]⟩ = (.ok (), final) := by
    have succeeds : ((Lowering.initial ⟨"x86_64", .systemV, .i64, .elf, true⟩).addProgram
      ⟨[lastOfTwo, printedQuotient]⟩).1 = .ok () := by decide +kernel
    rw [← succeeds]
    exact ⟨_, (Prod.eta _).symm⟩
  have isFunction : [lastOfTwo, printedQuotient] = [lastOfTwo] ++ printedQuotient :: [] := rfl
  have typed : List.Forall₂ (fun parameter (value : Value) => parameter.type.Denotes value.type)
      printedQuotient.parameters [.int Int64.minValue, .int (-1)] :=
    .cons ⟨rfl, rfl⟩ (.cons ⟨rfl, rfl⟩ .nil)
  have enough : [lastOfTwo].length + 2 ≤ 3 := by decide
  have evaluated : printedQuotient.eval default (meanings default [lastOfTwo])
      [.int Int64.minValue, .int (-1)] [] = .error (.trap .overflow) [-1] := by rfl
  have starts : Lowering.start ⟨"x86_64", .systemV, .i64, .elf, true⟩ = .ok (.initial _) := rfl
  have agrees := addProgram_preserves_meaning default starts accepted isFunction typed enough []
  rw [evaluated] at agrees
  exact ⟨final, accepted, agrees⟩

end Program

end ScalarLang
