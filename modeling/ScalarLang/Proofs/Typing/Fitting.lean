import ScalarLang.Proofs.Lowering.Scopes
import ScalarLang.Proofs.Typing.Acceptance
import ScalarLang.Proofs.Typing.Faults

/-!
# Types of emitted code

The values of emitted code have the types that the walk over the tree gives to expressions,
and finished code is well formed exactly if all arguments and the result have the types that
are asked for.  So the check of the code can be made on the tree.
-/

set_option autoImplicit false

namespace ScalarLang

open FunctionDecl

/-! ## Types of functions -/

theorem TypePath.scalar?_eq_some_iff {path : TypePath} {type : ScalarType} :
    path.scalar? = some type ↔ path.Denotes type := by
  unfold scalar? Denotes
  rw [← ScalarType.ofName?_eq_some_iff]
  cases path.inner with
  | nil => simp
  | cons first rest => simp

theorem parameterTypes_eq {function : FunctionDecl} {types : List ScalarType}
    (denote : List.Forall₂ (fun parameter type => parameter.type.Denotes type)
      function.parameters types) : function.parameterTypes = types := by
  unfold parameterTypes
  generalize function.parameters = parameters at denote ⊢
  induction denote with
  | nil => rfl
  | cons denotes _ inductionHypothesis =>
      simp only [List.filterMap_cons, TypePath.scalar?_eq_some_iff.mpr denotes,
        inductionHypothesis]

theorem scalars_eq {parameters : List Parameter} {types : List ScalarType}
    (denote : List.Forall₂ (fun parameter type => parameter.type.Denotes type) parameters types) :
    (parameters.map fun parameter => parameter.type.scalar?) = types.map some := by
  induction denote with
  | nil => rfl
  | cons denotes _ inductionHypothesis =>
      rw [List.map_cons, List.map_cons, TypePath.scalar?_eq_some_iff.mpr denotes,
        inductionHypothesis]

theorem scalarResult?_eq {function : FunctionDecl} {result : Option ScalarType}
    (denote : Option.Rel (fun path type => path.Denotes type) function.resultType result) :
    function.scalarResult? = result := by
  unfold scalarResult?
  generalize function.resultType = path? at denote ⊢
  cases denote with
  | none => rfl
  | some denotes => exact TypePath.scalar?_eq_some_iff.mpr denotes

/-! ## Names -/

/-- The names in scope are some parameters, and behind them some functions of known types. -/
structure NamesKnown (scopes : ScopeTable Binding) (target : Target)
    (available : List FunctionDecl) (parameters : List (String × ScalarType)) : Prop where
  parameter : ∀ {name type}, parameters.reverse.lookup name = some type →
    ∃ slot, scopes.lookup? name = some (.parameter slot type.lowered)
  function : ∀ {name}, parameters.reverse.lookup name = none → (named? available name).isSome →
    ∃ declaration number signature,
      scopes.lookup? name = some (.function declaration number signature)
  unknown : ∀ {name}, parameters.reverse.lookup name = none → named? available name = none →
    scopes.lookup? name = none
  callee : ∀ {name declaration}, named? available name = some declaration →
    ∃ number, scopes.lookupWhere? name Binding.isFunction =
      some (.function declaration number (declaration.signatureFor target))
  noCallee : ∀ {name}, named? available name = none →
    scopes.lookupWhere? name Binding.isFunction = none
  typesKnown : ∀ declaration ∈ available,
    (declaration.parameters.map fun parameter => parameter.type.scalar?) =
      declaration.parameterTypes.map some

section Expressions

variable {scopes : ScopeTable Binding} {target : Target} {available : List FunctionDecl}
  {parameters : List (String × ScalarType)}

theorem NamesKnown.lookup_parameter (names : NamesKnown scopes target available parameters)
    {name : String} {slot : Nat} {lowered : Ir.Ty}
    (bound : scopes.lookup? name = some (.parameter slot lowered)) :
    ∃ type, parameters.reverse.lookup name = some type ∧ type.lowered = lowered := by
  cases isParameter : parameters.reverse.lookup name with
  | some type =>
      obtain ⟨found, isBound⟩ := names.parameter isParameter
      cases bound.symm.trans isBound
      exact ⟨type, rfl, rfl⟩
  | none =>
      cases isNamed : named? available name with
      | none => cases bound.symm.trans (names.unknown isParameter isNamed)
      | some declaration =>
          obtain ⟨_, _, _, isBound⟩ := names.function isParameter (by rw [isNamed]; rfl)
          cases bound.symm.trans isBound

theorem NamesKnown.resolveCall_of_called (names : NamesKnown scopes target available parameters)
    {name : Ident} {arguments : List CallArgument} {callee : FunctionDecl}
    (isCalled : called? available name arguments = some callee) (span : Span) :
    ∃ number, resolveCall scopes name arguments span =
      checkLabels callee name arguments >>= fun _ =>
        .ok (number, callee.signatureFor target) := by
  obtain ⟨number, found⟩ := names.callee isCalled
  refine ⟨number, ?_⟩
  simp only [resolveCall, found]
  cases checkLabels callee name arguments with
  | error failure => rfl
  | ok done => rfl

theorem NamesKnown.resolveCall_of_unknown (names : NamesKnown scopes target available parameters)
    {name : Ident} {arguments : List CallArgument}
    (isUnknown : called? available name arguments = none) (span : Span) :
    resolveCall scopes name arguments span =
      .error (.functionNotDefined name.name (CallArgument.lowLevelName name arguments) span) := by
  simp only [resolveCall, names.noCallee isUnknown]

theorem NamesKnown.exists_called (names : NamesKnown scopes target available parameters)
    {name : Ident} {arguments : List CallArgument} {span : Span} {number : Nat}
    {signature : Ir.Signature}
    (resolved : resolveCall scopes name arguments span = .ok (number, signature)) :
    ∃ callee, called? available name arguments = some callee ∧ callee ∈ available ∧
      callee.labels = CallArgument.labels arguments ∧ signature = callee.signatureFor target := by
  cases isCalled : called? available name arguments with
  | none =>
      rw [names.resolveCall_of_unknown isCalled] at resolved
      cases resolved
  | some callee =>
      obtain ⟨found, isBind⟩ := names.resolveCall_of_called isCalled span
      rw [isBind] at resolved
      cases checked : checkLabels callee name arguments with
      | error failure =>
          rw [checked] at resolved
          cases resolved
      | ok done =>
          rw [checked] at resolved
          cases resolved
          exact ⟨callee, rfl, List.mem_of_find?_eq_some isCalled,
            checkLabels_eq_ok_iff.mp checked, rfl⟩

/-! ## Types of emitted code -/

def Part.Typed (available : List FunctionDecl) (parameters : List (String × ScalarType)) :
    Part → Prop
  | .expression expr operand =>
    operand.map Operand.type = (expr.type? available parameters).map ScalarType.lowered
  | .arguments given operands => operands.map (fun operand => some operand.type) =
    given.map fun argument =>
      (argument.value.type? available parameters).map ScalarType.lowered
  | .statements _ => True

theorem Emits.typed (names : NamesKnown scopes target available parameters)
    {code after : Ir.Function} {part : Part} {insts : List Ir.Inst}
    (emits : Emits scopes code part insts after) : part.Typed available parameters := by
  induction emits with
  | literal code value span => cases value <;> rfl
  | identifier code name span slot lowered bound =>
      obtain ⟨type, isParameter, rfl⟩ := names.lookup_parameter bound
      simp [Part.Typed, Expr.type?, isParameter]
  | @unary code middle op expr operand insts selected span ofOperand selects operandTyped =>
      obtain ⟨type, isType, lowered⟩ := Option.map_eq_some_iff.mp operandTyped.symm
      rw [← lowered] at selects
      have supported := (UnaryOp.supports_iff operand.value).mpr ⟨selected, selects⟩
      simp only [Part.Typed, Expr.type?, isType, Option.filter_some, supported, if_true,
        Option.map_some, lowered]
  | @binary code middle last op lhs rhs left right leftInsts rightInsts selected resultType span
      ofLeft ofRight sameType selects leftTyped rightTyped =>
      obtain ⟨type, isType, lowered⟩ := Option.map_eq_some_iff.mp leftTyped.symm
      rw [← lowered] at selects
      obtain ⟨result, supported, isLowered⟩ := BinaryOp.exists_resultType? selects
      simp [Part.Typed, Expr.type?, isType, supported, isLowered]
  | @call code middle last name arguments children operands argumentInsts childInsts number
      signature span resolved ofArguments ofChildren argumentsTyped childrenTyped =>
      obtain ⟨callee, isCalled, -, -, rfl⟩ := names.exists_called resolved
      simp only [Part.Typed, Expr.type?, isCalled, Option.bind_some, signatureFor,
        loweredSignature]
      cases callee.scalarResult? <;> rfl
  | noArguments code => rfl
  | argument ofFirst ofRest firstTyped restTyped =>
      simp only [Part.Typed] at firstTyped restTyped ⊢
      rw [List.map_cons, List.map_cons, restTyped, ← firstTyped]
      rfl
  | noStatements code => trivial
  | statement ofFirst ofRest _ _ => trivial

def Part.Fits (available : List FunctionDecl) (parameters : List (String × ScalarType)) :
    Part → Prop
  | .expression expr _ => ∀ node ∈ expr.nodes, node.fits available parameters = true
  | .arguments given _ => ∀ node ∈ argumentsNodes given, node.fits available parameters = true
  | .statements list => ∀ node ∈ linesNodes list, node.fits available parameters = true

theorem callsTyped_call_iff {last final : Ir.Function} {number : Nat} {signature : Ir.Signature}
    {operands : List Operand} {result : Option Ir.Value}
    (begins : (last.addCall number true signature (operands.map Operand.value)).2.Begins final)
    (typed : ∀ operand ∈ operands, last.typeOf? operand.value = some operand.type) :
    final.CallsTyped [⟨result, .call last.callees.size (operands.map Operand.value)⟩] ↔
      operands.map Operand.type = signature.params :=
  ⟨argumentTypes_of_callsTyped begins typed, callsTyped_of_argumentTypes begins typed⟩

theorem map_eq_map_iff_zip {α β γ : Type} {left : List α} {right : List β} {ofLeft : α → γ}
    {ofRight : β → γ} (sameLength : left.length = right.length) :
    left.map ofLeft = right.map ofRight ↔
      ∀ pair ∈ left.zip right, ofLeft pair.1 = ofRight pair.2 := by
  rw [← List.forall₂_eq_eq_eq, List.forall₂_map_left_iff, List.forall₂_map_right_iff,
    List.forall₂_iff_zip]
  simp [sameLength]

theorem NamesKnown.fits_call_iff (names : NamesKnown scopes target available parameters)
    {name : Ident} {arguments : List CallArgument} {callee : FunctionDecl}
    {operands : List Operand} (isCalled : called? available name arguments = some callee)
    (sameLabels : callee.labels = CallArgument.labels arguments)
    (typed : (Part.arguments arguments operands).Typed available parameters)
    (children : Option (List Expr)) (span : Span) :
    (Expr.call name arguments children span).fits available parameters = true ↔
      operands.map Operand.type = (callee.signatureFor target).params := by
  have known := names.typesKnown callee (List.mem_of_find?_eq_some isCalled)
  have sameLength : arguments.length = callee.parameters.length := by
    simpa [FunctionDecl.labels, CallArgument.labels] using (congrArg List.length sameLabels).symm
  have loweredInjective : Function.Injective (Option.map ScalarType.lowered) :=
    Option.map_injective fun _ _ => ScalarType.lowered_injective
  have sameTypes : (arguments.map fun argument => argument.value.type? available parameters) =
      callee.parameterTypes.map some ↔
        operands.map (fun operand => some operand.type) =
          (callee.parameterTypes.map ScalarType.lowered).map some := by
    rw [typed, ← (List.map_injective_iff.mpr loweredInjective).eq_iff, List.map_map, List.map_map,
      List.map_map]
    rfl
  have inPairs : (arguments.map fun argument => argument.value.type? available parameters) =
      callee.parameters.map (fun parameter => parameter.type.scalar?) ↔
        ∀ pair ∈ arguments.zip callee.parameters,
          pair.1.value.type? available parameters = pair.2.type.scalar? :=
    map_eq_map_iff_zip sameLength
  simp only [Expr.fits, isCalled, List.all_eq_true, beq_iff_eq]
  rw [← inPairs, known, sameTypes]
  exact ⟨fun same => eq_of_map_some ((List.map_map ..).trans same),
    fun same => (List.map_map ..).symm.trans (congrArg (List.map some) same)⟩

theorem Emits.callsTyped_iff (names : NamesKnown scopes target available parameters)
    {code after final : Ir.Function} {part : Part} {insts : List Ir.Inst}
    (emits : Emits scopes code part insts after) (begins : after.Begins final) :
    final.CallsTyped insts ↔ part.Fits available parameters := by
  have noCalls : final.CallsTyped [] ↔ True :=
    iff_true_intro fun _ _ _ member => nomatch member
  induction emits with
  | literal code value span =>
      have computes := value.computes_lowered
      simp [Part.Fits, Expr.nodes, Expr.fits, callsTyped_of_computes computes]
  | identifier code name span slot lowered bound =>
      have typed : final.CallsTyped [⟨some code.values.size, .stackLoad lowered slot⟩] :=
        callsTyped_of_computes rfl
      simp [Part.Fits, Expr.nodes, Expr.fits, typed]
  | @unary code middle op expr operand insts selected span ofOperand selects operandFits =>
      have middleBegins := (middle.begins_define operand.type selected).trans begins
      have typed : final.CallsTyped [⟨some middle.values.size, selected⟩] :=
        callsTyped_of_computes (UnaryOp.computes_of_select? selects)
      refine Ir.Function.callsTyped_append.trans
        ((and_congr (operandFits middleBegins) (iff_true_intro typed)).trans ?_)
      simp [Part.Fits, Expr.nodes, Expr.fits]
  | @binary code middle last op lhs rhs left right leftInsts rightInsts selected type span ofLeft
      ofRight sameType selects leftFits rightFits =>
      have lastBegins := (last.begins_define type selected).trans begins
      have typed : final.CallsTyped [⟨some last.values.size, selected⟩] :=
        callsTyped_of_computes (BinaryOp.computes_of_select? selects)
      have bothFit := Ir.Function.callsTyped_append.trans
        (and_congr (leftFits (ofRight.begins.trans lastBegins)) (rightFits lastBegins))
      refine Ir.Function.callsTyped_append.trans
        ((and_congr bothFit (iff_true_intro typed)).trans ?_)
      simp [Part.Fits, Expr.nodes, Expr.fits, or_imp, forall_and]
  | @call code middle last name arguments children operands argumentInsts childInsts number
      signature span resolved ofArguments ofChildren argumentsFit childrenFit =>
      have lastBegins := (last.begins_addCall number true signature
        (operands.map Operand.value)).trans begins
      have operandTypes : ∀ operand ∈ operands, last.typeOf? operand.value = some operand.type :=
        fun operand member => ofChildren.begins.typeOf? (ofArguments.operands operand member)
      obtain ⟨callee, isCalled, -, sameLabels, rfl⟩ := names.exists_called resolved
      -- The call itself comes last in the code and first among the nodes.
      have bothFit := Ir.Function.callsTyped_append.trans
        (and_congr (argumentsFit (ofChildren.begins.trans lastBegins)) (childrenFit lastBegins))
      have callFits := names.fits_call_iff isCalled sameLabels (ofArguments.typed names)
        children span
      refine Ir.Function.callsTyped_append.trans ((and_congr bothFit
        ((callsTyped_call_iff begins operandTypes).trans callFits.symm)).trans ?_)
      simp only [Part.Fits, Expr.nodes, List.forall_mem_cons, List.forall_mem_append]
      rw [childrenNodes_eq, linesNodes_eq, and_comm]
  | noArguments code => simp [noCalls, Part.Fits, argumentsNodes]
  | @argument code middle after first rest operand operands firstInsts restInsts ofFirst ofRest
      firstFits restFits =>
      obtain ⟨label, value⟩ := first
      refine Ir.Function.callsTyped_append.trans
        ((and_congr (firstFits (ofRest.begins.trans begins)) (restFits begins)).trans ?_)
      simp only [Part.Fits, argumentsNodes, List.forall_mem_append]
  | noStatements code => simp [noCalls, Part.Fits, linesNodes]
  | statement ofFirst ofRest firstFits restFits =>
      refine Ir.Function.callsTyped_append.trans
        ((and_congr (firstFits (ofRest.begins.trans begins)) (restFits begins)).trans ?_)
      simp only [Part.Fits, linesNodes, List.forall_mem_append]

end Expressions

/-! ## Known functions -/

namespace Registered

variable {lowering : Lowering} {before : List Callable}

theorem named?_eq_some_iff (registered : Registered lowering before) {name : String}
    {declaration : FunctionDecl} :
    named? ((Callable.print lowering.target :: before).map Callable.declaration) name =
        some declaration ↔
      ∃ callable ∈ Callable.print lowering.target :: before,
        callable.name = name ∧ callable.declaration = declaration := by
  have ofFound : ∀ {callable : Callable}, (Callable.print lowering.target :: before).find?
      ((fun function => function.lowLevelName == name) ∘ Callable.declaration) = some callable →
        callable ∈ Callable.print lowering.target :: before ∧ callable.name = name := by
    intro callable found
    have holds := List.find?_some found
    rw [Function.comp_apply, beq_iff_eq] at holds
    exact ⟨List.mem_of_find?_eq_some found, holds⟩
  unfold named?
  rw [List.find?_map, Option.map_eq_some_iff]
  constructor
  · rintro ⟨callable, found, isDeclaration⟩
    obtain ⟨isKnown, isName⟩ := ofFound found
    exact ⟨callable, isKnown, isName, isDeclaration⟩
  · rintro ⟨callable, isKnown, isName, isDeclaration⟩
    cases found : (Callable.print lowering.target :: before).find?
        ((fun function => function.lowLevelName == name) ∘ Callable.declaration) with
    | none =>
        have isOther := List.find?_eq_none.mp found callable isKnown
        exact absurd isName (by simpa [Callable.name] using isOther)
    | some other =>
        obtain ⟨isOther, otherName⟩ := ofFound found
        have same := registered.eq_of_name_eq isKnown isOther (isName.trans otherName.symm)
        exact ⟨other, rfl, same ▸ isDeclaration⟩

theorem signature_eq (registered : Registered lowering before) {callable : Callable}
    (isKnown : callable ∈ Callable.print lowering.target :: before) :
    callable.signature = callable.declaration.signatureFor lowering.target := by
  obtain ⟨denoteParameters, denoteResult, hasSignature⟩ := registered.declared callable isKnown
  rw [hasSignature, signatureFor, parameterTypes_eq denoteParameters, scalarResult?_eq denoteResult]

theorem lookupWhere?_eq_outermost (registered : Registered lowering before)
    (parameters : List (Parameter × ScalarType)) (name : String) :
    (bindParameters parameters 0 lowering.scopes.enter).lookupWhere? name Binding.isFunction =
      lowering.scopes.outermost.find? name := by
  ext binding
  rw [registered.lookupWhere?_function, registered.bindings]

theorem namesKnown (registered : Registered lowering before) {function : FunctionDecl}
    {types : List ScalarType} (sameLength : function.parameters.length = types.length) :
    NamesKnown (bindParameters (function.parameters.zip types) 0 lowering.scopes.enter)
      lowering.target ((Callable.print lowering.target :: before).map Callable.declaration)
      (function.labels.zip types) := by
  -- Look-ups go to the slots of the parameters, then to the outermost scope; both are known.
  have noSlot : ∀ {name}, (function.labels.zip types).reverse.lookup name = none →
      (parameterSlots (function.parameters.zip types) 0).reverse.lookup name = none := by
    intro name isNone
    have related := slotsHaveTypes sameLength name
    rw [isNone] at related
    generalize (parameterSlots (function.parameters.zip types) 0).reverse.lookup name = slot?
      at related ⊢
    cases related
    rfl
  have ofNamed : ∀ {name declaration}, named? ((Callable.print lowering.target :: before).map
      Callable.declaration) name = some declaration → ∃ number,
        lowering.scopes.outermost.find? name = some (.function declaration number
          (declaration.signatureFor lowering.target)) := by
    intro name declaration isNamed
    obtain ⟨callable, isKnown, isName, rfl⟩ := registered.named?_eq_some_iff.mp isNamed
    obtain ⟨index, stands⟩ := List.mem_iff_getElem?.mp isKnown
    refine ⟨index + 1, (registered.bindings name _).mpr ⟨index, callable, stands, isName, ?_⟩⟩
    rw [registered.signature_eq isKnown]
  have ofUnnamed : ∀ {name}, named? ((Callable.print lowering.target :: before).map
      Callable.declaration) name = none → lowering.scopes.outermost.find? name = none := by
    intro name isUnnamed
    cases found : lowering.scopes.outermost.find? name with
    | none => rfl
    | some binding =>
        obtain ⟨index, callable, stands, isName, -⟩ := (registered.bindings name binding).mp found
        cases isUnnamed.symm.trans (registered.named?_eq_some_iff.mpr
          ⟨callable, List.mem_of_getElem? stands, isName, rfl⟩)
  refine ⟨(registered.namesTyped sameLength).isParameter, ?_, ?_, ?_, ?_, ?_⟩
  · intro name isNone isNamed
    obtain ⟨declaration, isNamed⟩ := Option.isSome_iff_exists.mp isNamed
    obtain ⟨number, found⟩ := ofNamed isNamed
    refine ⟨declaration, number, declaration.signatureFor lowering.target, ?_⟩
    rw [ScopeTable.lookup?, registered.lookupWhere?_body, noSlot isNone, found]
    rfl
  · intro name isNone isUnnamed
    rw [ScopeTable.lookup?, registered.lookupWhere?_body, noSlot isNone, ofUnnamed isUnnamed]
    rfl
  · intro name declaration isNamed
    rw [registered.lookupWhere?_eq_outermost]
    exact ofNamed isNamed
  · intro name isUnnamed
    rw [registered.lookupWhere?_eq_outermost]
    exact ofUnnamed isUnnamed
  · intro declaration isAvailable
    obtain ⟨callable, isKnown, rfl⟩ := List.mem_map.mp isAvailable
    obtain ⟨denoteParameters, -, -⟩ := registered.declared callable isKnown
    rw [scalars_eq denoteParameters, parameterTypes_eq denoteParameters]

end Registered

/-! ## Finished code -/

section Check

variable {function : FunctionDecl} {types : List ScalarType} {result : Option ScalarType}

/-- The result of a function is well formed at the end of its code exactly if its calls and
its own type are as asked for. -/
theorem EmitsResult.fits_iff {scopes : ScopeTable Binding} {target : Target}
    {available : List FunctionDecl} {parameters : List (String × ScalarType)}
    (names : NamesKnown scopes target available parameters) {middle code : Ir.Function}
    {tail : List Ir.Inst} (ofResult : EmitsResult scopes function middle tail code)
    (denoteResult : Option.Rel (fun path type => path.Denotes type) function.resultType result) :
    (code.CallsTyped tail ∧ ∀ values, ⟨none, .ret values⟩ ∈ tail →
        values.map code.typeOf? = (result.map ScalarType.lowered).toList.map some) ↔
      (∀ node ∈ function.body.result.toList.flatMap Expr.nodes,
          node.fits available parameters = true) ∧
        function.body.result.all (fun expr => expr.type? available parameters == result) =
          true := by
  have ofReturn : ∀ values : List Ir.Value, code.CallsTyped [⟨none, .ret values⟩] := by
    intro values found callee given member
    cases List.mem_singleton.mp member
  cases ofResult with
  | @value path expr operand insts extended declared returned ofExpr =>
      rw [declared] at denoteResult
      obtain ⟨type, rfl, -⟩ := exists_of_rel_some denoteResult
      have begins := extended.begins_emit (.ret [operand.value])
      have resultFits := ofExpr.callsTyped_iff names begins
      obtain ⟨found, isFound, isLowered⟩ := Option.map_eq_some_iff.mp (ofExpr.typed names).symm
      have operandType := begins.typeOf? (ofExpr.operands operand rfl)
      have onlyReturn : (∀ values, ⟨none, .ret values⟩ ∈ insts ++ [⟨none, .ret [operand.value]⟩] →
          values.map (extended.emit (.ret [operand.value])).typeOf? = [some type.lowered]) ↔
            found = type := by
        constructor
        · intro results
          have isResult := results [operand.value] (by simp)
          rw [List.map_singleton, operandType, ← isLowered] at isResult
          exact ScalarType.lowered_injective (by simpa using isResult)
        · rintro rfl values member
          rcases List.mem_append.mp member with member | member
          · cases ofExpr.continues _ member
          · cases List.mem_singleton.mp member
            rw [List.map_singleton, operandType, isLowered]
      rw [Ir.Function.callsTyped_append, returned]
      refine and_congr (((and_iff_left (ofReturn _)).trans resultFits).trans ?_)
        (onlyReturn.trans ?_)
      · simp [Part.Fits]
      · simp [isFound]
  | nothing declared returned =>
      rw [declared] at denoteResult
      cases denoteResult
      rw [returned]
      refine iff_of_true ⟨ofReturn [], ?_⟩ ⟨List.forall_mem_nil _, rfl⟩
      intro values member
      cases List.mem_singleton.mp member
      rfl

variable {lowering : Lowering} {before : List Callable}

/-- The finished code of a function is well formed exactly if all arguments and the result
have the types that are asked for. -/
theorem Registered.check_eq_fits (registered : Registered lowering before)
    (denoteParameters : List.Forall₂ (fun parameter type => parameter.type.Denotes type)
      function.parameters types)
    (denoteResult : Option.Rel (fun path type => path.Denotes type) function.resultType result)
    {name : String} {insts tail : List Ir.Inst} {code : Ir.Function}
    (ofBody : EmitsBody lowering.scopes function types
      (.start name (loweredSignature lowering.target types result)) insts tail code) :
    code.check = function.fits
      ((Callable.print lowering.target :: before).map Callable.declaration) := by
  have sameLength := denoteParameters.length_eq
  obtain rfl := parameterTypes_eq denoteParameters
  have names := registered.namesKnown sameLength
  obtain ⟨middle, ofStatements, ofResult⟩ := ofBody.emitted
  have statementsFit := ofStatements.callsTyped_iff names ofResult.begins
  have resultFits := ofResult.fits_iff names denoteResult
  rw [Part.Fits, linesNodes_eq] at statementsFit
  rw [Bool.eq_iff_iff, ofBody.check_iff rfl (registered.slots_bytes sameLength), fits,
    Bool.and_eq_true, List.all_eq_true, scalarResult?_eq denoteResult, Block.expressions,
    List.flatMap_append, List.forall_mem_append, and_assoc, and_assoc]
  exact and_congr statementsFit resultFits

end Check

end ScalarLang
