import ScalarLang.Lowering.Program
import ScalarLang.Proofs.Lowering.Emission
import ScalarLang.Proofs.Outcome
import Mathlib.Data.List.Forall2
import Mathlib.Data.Option.Defs

/-!
# What lowering a function does

A function is lowered in a scope of its own, which is left again, so a successful
lowering changes the state in three places: the function is declared and defined,
its code is recorded, and its low-level name is bound in the outermost scope.
-/

set_option autoImplicit false

namespace ScalarLang

namespace ScopeTable

variable {α : Type}

theorem lookupWhere?_enter (table : ScopeTable α) (name : String) (accepts : α → Bool) :
    table.enter.lookupWhere? name accepts = table.lookupWhere? name accepts := rfl

end ScopeTable

/-! ## Types -/

def TypePath.Denotes (path : TypePath) (type : ScalarType) : Prop :=
  path.inner = [] ∧ path.head.name = type.name

namespace ScalarType

theorem ofName?_eq_some_iff {name : String} {type : ScalarType} :
    ofName? name = some type ↔ name = type.name := by
  unfold ofName?
  constructor
  · intro found
    split at found
    · cases found; assumption
    · split at found
      · cases found; assumption
      · split at found
        · cases found; assumption
        · cases found
  · rintro rfl
    cases type <;> decide

theorem name_injective {type other : ScalarType} (same : type.name = other.name) :
    type = other := by
  cases type <;> cases other <;> simp_all [name]

theorem ofPath_eq_ok_iff {path : TypePath} {type : ScalarType} :
    ofPath path = .ok type ↔ path.Denotes type := by
  unfold ofPath TypePath.Denotes
  rw [← ofName?_eq_some_iff]
  cases path.inner with
  | nil => cases ofName? path.head.name <;> simp
  | cons first rest => simp

theorem ofParameters_eq_ok_iff {parameters : List Parameter} {types : List ScalarType} :
    ofParameters parameters = .ok types ↔
      List.Forall₂ (fun parameter type => parameter.type.Denotes type) parameters types := by
  induction parameters generalizing types with
  | nil => simp [ofParameters, eq_comm]
  | cons first rest inductionHypothesis =>
      rw [ofParameters, List.forall₂_cons_left_iff]
      cases firstType : ofPath first.type with
      | error failure =>
          simp only [reduceCtorEq, false_iff, not_exists, not_and]
          intro type others denotes
          cases firstType.symm.trans (ofPath_eq_ok_iff.mpr denotes)
      | ok type =>
          have denotes := ofPath_eq_ok_iff.mp firstType
          cases restTypes : ofParameters rest with
          | error failure =>
              simp only [reduceCtorEq, false_iff, not_exists, not_and]
              intro _ others _ denoteRest
              cases restTypes.symm.trans (inductionHypothesis.mpr denoteRest)
          | ok others =>
              have denoteRest := inductionHypothesis.mp restTypes
              constructor
              · intro same
                cases same
                exact ⟨type, others, denotes, denoteRest, rfl⟩
              · rintro ⟨type', others', denotes', denoteRest', rfl⟩
                cases firstType.symm.trans (ofPath_eq_ok_iff.mpr denotes')
                cases restTypes.symm.trans (inductionHypothesis.mpr denoteRest')
                rfl

theorem ofResult_eq_ok_iff {path? : Option TypePath} {type? : Option ScalarType} :
    ofResult path? = .ok type? ↔
      Option.Rel (fun path type => path.Denotes type) path? type? := by
  cases path? with
  | none =>
      cases type? with
      | none => simp [ofResult]
      | some type => simp [ofResult]
  | some path =>
      rw [ofResult]
      cases pathType : ofPath path with
      | error failure =>
          simp only [reduceCtorEq, false_iff]
          rintro ⟨denotes⟩
          cases pathType.symm.trans (ofPath_eq_ok_iff.mpr denotes)
      | ok type =>
          have denotes := ofPath_eq_ok_iff.mp pathType
          constructor
          · intro same
            cases same
            exact .some denotes
          · rintro ⟨denotes'⟩
            cases pathType.symm.trans (ofPath_eq_ok_iff.mpr denotes')
            rfl

end ScalarType

theorem TypePath.Denotes.unique {path : TypePath} {type other : ScalarType}
    (denotes : path.Denotes type) (denotesOther : path.Denotes other) : type = other :=
  ScalarType.name_injective (denotes.2.symm.trans denotesOther.2)

theorem types_unique {parameters : List Parameter} {types others : List ScalarType}
    (denote : List.Forall₂ (fun parameter type => parameter.type.Denotes type) parameters types)
    (denoteOthers : List.Forall₂ (fun parameter type => parameter.type.Denotes type)
      parameters others) :
    types = others := by
  induction denote generalizing others with
  | nil =>
      cases denoteOthers
      rfl
  | cons denotes _ inductionHypothesis =>
      cases denoteOthers with
      | cons denotesOther rest => rw [denotes.unique denotesOther, inductionHypothesis rest]

theorem result_unique {path : Option TypePath} {type other : Option ScalarType}
    (denote : Option.Rel (fun path type => path.Denotes type) path type)
    (denoteOther : Option.Rel (fun path type => path.Denotes type) path other) :
    type = other := by
  cases denote with
  | none =>
      cases denoteOther
      rfl
  | some denotes =>
      cases denoteOther with
      | some denotesOther => rw [denotes.unique denotesOther]

/-! ## Parameters -/

def bindParameters : List (Parameter × ScalarType) → Nat → ScopeTable Binding →
    ScopeTable Binding
  | [], _, scopes => scopes
  | (parameter, type) :: rest, slot, scopes =>
    bindParameters rest (slot + 1)
      (scopes.insert parameter.name.name (.parameter slot type.lowered))

def storeValues : List ScalarType → Ir.Value → Ir.Function → Ir.Function
  | [], _, code => code
  | type :: rest, value, code =>
    storeValues rest (value + 1)
      ((code.addSlot type.lowered).2.emit (.stackStore value code.slots.size))

def storeInsts : Nat → Ir.Value → Nat → List Ir.Inst
  | 0, _, _ => []
  | count + 1, value, slot =>
    ⟨none, .stackStore value slot⟩ :: storeInsts count (value + 1) (slot + 1)

theorem storeValues_eq (types : List ScalarType) : ∀ value code, storeValues types value code =
    { code with
      slots := code.slots ++ (types.map fun type => type.lowered.bytes).toArray
      body := code.body ++ (storeInsts types.length value code.slots.size).toArray } := by
  induction types with
  | nil => intro value code; simp [storeValues, storeInsts]
  | cons type rest inductionHypothesis =>
      intro value code
      rw [storeValues, inductionHypothesis]
      simp [Ir.Function.addSlot, Ir.Function.emit, storeInsts]

theorem storeValues_start (types : List ScalarType) (name : String) (signature : Ir.Signature) :
    storeValues types 0 (.start name signature) =
      { Ir.Function.start name signature with
        slots := (types.map fun type => type.lowered.bytes).toArray
        body := (storeInsts types.length 0 0).toArray } := by
  rw [storeValues_eq]
  simp [Ir.Function.start]

theorem bindParameters_exit (parameters : List (Parameter × ScalarType)) :
    ∀ slot inner rest outermost,
      (bindParameters parameters slot ⟨inner :: rest, outermost⟩).exit = .ok ⟨rest, outermost⟩ := by
  induction parameters with
  | nil => intro slot inner rest outermost; rfl
  | cons first others inductionHypothesis =>
      intro slot inner rest outermost
      exact inductionHypothesis _ _ rest outermost

/-! ## Bodies -/

/-- The result of a function is put at the end of its code, which it is if and only if
a result type is declared. -/
inductive EmitsResult (scopes : ScopeTable Binding) (function : FunctionDecl)
    (code : Ir.Function) : List Ir.Inst → Ir.Function → Prop where
  | value {path : TypePath} {expr : Expr} {operand : Operand} {insts : List Ir.Inst}
      {extended : Ir.Function} (declared : function.resultType = some path)
      (returned : function.body.result = some expr)
      (ofExpr : Emits scopes code (.expression expr (some operand)) insts extended) :
      EmitsResult scopes function code (insts ++ [⟨none, .ret [operand.value]⟩])
        (extended.emit (.ret [operand.value]))
  | nothing (declared : function.resultType = none) (returned : function.body.result = none) :
      EmitsResult scopes function code [⟨none, .ret []⟩] (code.emit (.ret []))

theorem EmitsResult.begins {scopes : ScopeTable Binding} {function : FunctionDecl}
    {code final : Ir.Function} {insts : List Ir.Inst}
    (ofResult : EmitsResult scopes function code insts final) : code.Begins final := by
  cases ofResult with
  | value declared returned ofExpr => exact ofExpr.begins.trans (Ir.Function.begins_emit _ _)
  | nothing declared returned => exact Ir.Function.begins_emit _ _

theorem EmitsResult.body {scopes : ScopeTable Binding} {function : FunctionDecl}
    {code final : Ir.Function} {insts : List Ir.Inst}
    (ofResult : EmitsResult scopes function code insts final) :
    final.body.toList = code.body.toList ++ insts := by
  cases ofResult with
  | value declared returned ofExpr => simp [Ir.Function.emit, ofExpr.body]
  | nothing declared returned => simp [Ir.Function.emit]

/-- The body of a function is lowered: its parameters are stored, its statements
lowered and its result returned. -/
structure EmitsBody (scopes : ScopeTable Binding) (function : FunctionDecl)
    (types : List ScalarType) (start : Ir.Function) (insts tail : List Ir.Inst)
    (final : Ir.Function) : Prop where
  emitted : ∃ middle,
    Emits (bindParameters (function.parameters.zip types) start.slots.size scopes.enter)
      (storeValues types 0 start) (.statements function.body.statements) insts middle ∧
    EmitsResult (bindParameters (function.parameters.zip types) start.slots.size scopes.enter)
      function middle tail final

section EmitsBody

variable {scopes : ScopeTable Binding} {function : FunctionDecl} {types : List ScalarType}
  {name : String} {signature : Ir.Signature} {insts tail : List Ir.Inst} {final : Ir.Function}

theorem EmitsBody.begins
    (ofBody : EmitsBody scopes function types (.start name signature) insts tail final) :
    Ir.Function.Begins
      { Ir.Function.start name signature with
        slots := (types.map fun type => type.lowered.bytes).toArray
        body := (storeInsts types.length 0 0).toArray } final := by
  obtain ⟨middle, ofStatements, ofResult⟩ := ofBody.emitted
  rw [← storeValues_start]
  exact ofStatements.begins.trans ofResult.begins

theorem EmitsBody.body
    (ofBody : EmitsBody scopes function types (.start name signature) insts tail final) :
    final.body.toList = storeInsts types.length 0 0 ++ (insts ++ tail) := by
  obtain ⟨middle, ofStatements, ofResult⟩ := ofBody.emitted
  rw [ofResult.body, ofStatements.body, storeValues_start, List.append_assoc]

end EmitsBody

namespace Lower

theorem storeParameters_eq (parameters : List (Parameter × ScalarType)) :
    ∀ value code lowering, storeParameters parameters value code lowering =
      .ok (storeValues (parameters.map Prod.snd) value code)
        { lowering with scopes := bindParameters parameters code.slots.size lowering.scopes } := by
  induction parameters with
  | nil => intro value code lowering; rfl
  | cons first others inductionHypothesis =>
      intro value code lowering
      obtain ⟨parameter, type⟩ := first
      let scopes :=
        lowering.scopes.insert parameter.name.name (.parameter code.slots.size type.lowered)
      let extended := (code.addSlot type.lowered).2.emit (.stackStore value code.slots.size)
      have stored := inductionHypothesis (value + 1) extended { lowering with scopes }
      have size : extended.slots.size = code.slots.size + 1 := by
        simp [extended, Ir.Function.addSlot, Ir.Function.emit]
      rw [size] at stored
      exact stored

section Steps

variable {α : Type} {lowering after : Lowering}

theorem ofExcept_eq_ok_iff {outcome : Except LoweringError α} {value : α} :
    ofExcept outcome lowering = .ok value after ↔ outcome = .ok value ∧ lowering = after := by
  cases outcome with
  | error failure => simp [ofExcept]
  | ok found => simp [ofExcept]

theorem build_eq_ok_iff {code extended : Ir.Function} {step : ScopeTable Binding → Build α}
    {value : α} :
    build code step lowering = .ok (value, extended) after ↔
      step lowering.scopes code = .ok (value, extended) ∧ lowering = after :=
  ofExcept_eq_ok_iff

theorem inScope_eq_ok_iff {action : Lower α} {value : α} :
    inScope action lowering = .ok value after ↔
      ∃ inside scopes, action { lowering with scopes := lowering.scopes.enter } =
        .ok value inside ∧ inside.scopes.exit = .ok scopes ∧ { inside with scopes } = after := by
  unfold inScope
  cases action { lowering with scopes := lowering.scopes.enter } with
  | ok found inside =>
      cases exits : inside.scopes.exit with
      | ok scopes =>
          simp only [leaveScope, exits]
          constructor
          · intro success
            cases success
            exact ⟨inside, scopes, rfl, exits, rfl⟩
          · rintro ⟨_, _, same, others, rfl⟩
            cases same
            cases exits.symm.trans others
            rfl
      | error failure =>
          simp only [leaveScope, exits]
          constructor
          · intro success
            cases success
          · rintro ⟨_, _, same, others, _⟩
            cases same
            cases exits.symm.trans others
  | error failure inside =>
      simp only [leaveScope]
      cases inside.scopes.exit with
      | ok scopes => simp
      | error failure => simp

theorem blockStatements_eq_ok_iff {block : Block} {code extended : Ir.Function} :
    blockStatements block code lowering = .ok extended after ↔
      (∃ insts, Emits lowering.scopes code (.statements block.statements) insts extended) ∧
        lowering = after := by
  have sameLookups : ∀ name accepts, lowering.scopes.enter.lookupWhere? name accepts =
      lowering.scopes.lookupWhere? name accepts :=
    lowering.scopes.lookupWhere?_enter
  unfold blockStatements
  rw [inScope_eq_ok_iff]
  constructor
  · rintro ⟨inside, scopes, success, exits, rfl⟩
    obtain ⟨⟨⟨⟩, built⟩, middle, building, success⟩ := bind_eq_ok_iff.mp success
    obtain ⟨statementsLowered, rfl⟩ := build_eq_ok_iff.mp building
    obtain ⟨rfl, rfl⟩ := pure_eq_ok_iff.mp success
    obtain ⟨insts, emits⟩ := lowerStatements_eq_ok_iff.mp statementsLowered
    refine ⟨⟨insts, emits.of_lookups fun name accepts => (sameLookups name accepts).symm⟩, ?_⟩
    cases exits
    rfl
  · rintro ⟨⟨insts, emits⟩, rfl⟩
    refine ⟨{ lowering with scopes := lowering.scopes.enter }, lowering.scopes, ?_, rfl, rfl⟩
    have statementsLowered :=
      lowerStatements_eq_ok_iff.mpr ⟨insts, emits.of_lookups sameLookups⟩
    exact bind_eq_ok_iff.mpr
      ⟨((), extended), _, build_eq_ok_iff.mpr ⟨statementsLowered, rfl⟩, rfl⟩

theorem functionResult_eq_ok_iff {function : FunctionDecl} {code final : Ir.Function} :
    functionResult function code lowering = .ok final after ↔
      (∃ insts, EmitsResult lowering.scopes function code insts final) ∧ lowering = after := by
  unfold functionResult
  constructor
  · intro success
    cases declared : function.resultType with
    | none =>
        cases returned : function.body.result with
        | none =>
            rw [declared, returned] at success
            obtain ⟨rfl, rfl⟩ := pure_eq_ok_iff.mp success
            exact ⟨⟨_, .nothing declared returned⟩, rfl⟩
        | some expr =>
            rw [declared, returned] at success
            cases success
    | some path =>
        cases returned : function.body.result with
        | none =>
            rw [declared, returned] at success
            cases success
        | some expr =>
            rw [declared, returned] at success
            obtain ⟨⟨operand, extended⟩, middle, building, success⟩ := bind_eq_ok_iff.mp success
            obtain ⟨exprLowered, rfl⟩ := build_eq_ok_iff.mp building
            obtain ⟨rfl, rfl⟩ := pure_eq_ok_iff.mp success
            obtain ⟨insts, emits⟩ := lowerExpr_eq_ok_iff.mp (Build.value_eq_ok_iff.mp exprLowered)
            exact ⟨⟨_, .value declared returned emits⟩, rfl⟩
  · rintro ⟨⟨insts, emits⟩, rfl⟩
    cases emits with
    | value declared returned ofExpr =>
        rw [declared, returned]
        have exprLowered := lowerExpr_eq_ok_iff.mpr ⟨_, ofExpr⟩
        exact bind_eq_ok_iff.mpr ⟨(_, _), _,
          build_eq_ok_iff.mpr ⟨Build.value_eq_ok_iff.mpr exprLowered, rfl⟩, rfl⟩
    | nothing declared returned =>
        rw [declared, returned]
        rfl

theorem inScope_functionBody_eq_ok_iff {function : FunctionDecl} {types : List ScalarType}
    {start final : Ir.Function} (sameLength : function.parameters.length = types.length) :
    inScope (functionBody function types start) lowering = .ok final after ↔
      (∃ insts tail, EmitsBody lowering.scopes function types start insts tail final) ∧
        lowering = after := by
  have allTypes : (function.parameters.zip types).map Prod.snd = types :=
    List.map_snd_zip (Nat.le_of_eq sameLength.symm)
  have exits : (bindParameters (function.parameters.zip types) start.slots.size
      lowering.scopes.enter).exit = .ok lowering.scopes :=
    bindParameters_exit _ _ _ _ _
  rw [inScope_eq_ok_iff]
  constructor
  · rintro ⟨inside, scopes, success, inside_exits, rfl⟩
    obtain ⟨stored, second, storing, success⟩ := bind_eq_ok_iff.mp success
    rw [storeParameters_eq, allTypes] at storing
    cases storing
    obtain ⟨middle, third, blockLowered, success⟩ := bind_eq_ok_iff.mp success
    obtain ⟨⟨insts, ofStatements⟩, rfl⟩ := blockStatements_eq_ok_iff.mp blockLowered
    obtain ⟨⟨tail, ofResult⟩, rfl⟩ := functionResult_eq_ok_iff.mp success
    cases exits.symm.trans inside_exits
    exact ⟨⟨insts, tail, ⟨middle, ofStatements, ofResult⟩⟩, rfl⟩
  · rintro ⟨⟨insts, tail, ⟨middle, ofStatements, ofResult⟩⟩, rfl⟩
    refine ⟨{ lowering with scopes := bindParameters _ _ lowering.scopes.enter },
      lowering.scopes, ?_, exits, rfl⟩
    refine bind_eq_ok_iff.mpr ⟨_, _, storeParameters_eq _ _ _ _, ?_⟩
    rw [allTypes]
    refine bind_eq_ok_iff.mpr ⟨middle, _, ?_, functionResult_eq_ok_iff.mpr ⟨⟨tail, ofResult⟩, rfl⟩⟩
    exact blockStatements_eq_ok_iff.mpr ⟨⟨insts, ofStatements⟩, rfl⟩

theorem ofExcept_ok_bind {β : Type} (value : α) (next : α → Lower β) (lowering : Lowering) :
    (ofExcept (.ok value) >>= next) lowering = next value lowering := rfl

theorem clearContext_bind (next : Unit → Lower α) (lowering : Lowering) :
    (clearContext >>= next) lowering =
      next () { lowering with context := .cleared lowering.target.convention } := rfl

theorem signContext_bind (name : String) (params results : List Ir.Ty) (next : Unit → Lower α)
    (lowering : Lowering) : (signContext name params results >>= next) lowering =
      next () { lowering with context := lowering.context.sign name params results } := rfl

theorem openContext_bind (next : Unit → Lower α) (lowering : Lowering) :
    (openContext >>= next) lowering =
      next () { lowering with context := lowering.context.openBlock } := rfl

theorem setContext_bind (code : Ir.Function) (next : Unit → Lower α) (lowering : Lowering) :
    (setContext code >>= next) lowering = next () { lowering with context := code } := rfl

theorem declareFunction_eq_ok_iff {name : String} {linkage : Linkage}
    {signature : Ir.Signature} {number : Nat} :
    declareFunction name linkage signature lowering = .ok number after ↔
      ∃ declarations, lowering.declarations.declareFunction name linkage signature =
        .ok (number, declarations) ∧ { lowering with declarations } = after := by
  unfold declareFunction declareFunctionOn
  rw [BackEnd.standard_declareFunction]
  cases lowering.declarations.declareFunction name linkage signature with
  | error failure => simp
  | ok pair =>
      obtain ⟨found, declarations⟩ := pair
      constructor
      · intro success
        cases success
        exact ⟨declarations, rfl, rfl⟩
      · rintro ⟨_, same, rfl⟩
        cases same
        rfl

theorem defineFunction_eq_ok_iff {number : Nat} {code : Ir.Function} :
    defineFunction number code lowering = .ok () after ↔
      code.check = true ∧ ∃ declarations, lowering.declarations.defineFunction number =
        .ok declarations ∧
          { lowering with declarations, recorded := lowering.recorded.push code } = after := by
  unfold defineFunction defineFunctionOn
  rw [BackEnd.standard_verify, BackEnd.standard_defineFunction]
  by_cases checked : code.check = true
  · rw [if_pos checked]
    simp only [checked, true_and]
    cases lowering.declarations.defineFunction number with
    | error failure => simp
    | ok declarations => simp
  · rw [if_neg checked]
    simp [checked]

end Steps

end Lower

/-! ## Functions -/

def loweredSignature (target : Target) (types : List ScalarType) (result : Option ScalarType) :
    Ir.Signature :=
  ⟨types.map ScalarType.lowered, (result.map ScalarType.lowered).toList, target.convention⟩

/-- What lowering a function does to the state: the function is declared, its checked
code is recorded, and its low-level name is bound. -/
inductive LowersFunction (lowering : Lowering) (function : FunctionDecl) : Lowering → Prop where
  | step {types : List ScalarType} {result : Option ScalarType} {number : Nat}
      {declared defined : Declarations} {insts tail : List Ir.Inst} {code : Ir.Function}
      (denoteParameters : List.Forall₂ (fun parameter type => parameter.type.Denotes type)
        function.parameters types)
      (denoteResult : Option.Rel (fun path type => path.Denotes type) function.resultType result)
      (declares : lowering.declarations.declareFunction function.lowLevelName .exported
        (loweredSignature lowering.target types result) = .ok (number, declared))
      (ofBody : EmitsBody lowering.scopes function types
        (.start function.lowLevelName (loweredSignature lowering.target types result)) insts tail
        code)
      (checked : code.check = true)
      (defines : declared.defineFunction number = .ok defined) :
      LowersFunction lowering function
        { lowering with
          declarations := defined
          scopes := lowering.scopes.insert function.lowLevelName
            (.function function number (loweredSignature lowering.target types result))
          recorded := lowering.recorded.push code
          context := code }

inductive LowersFunctions : Lowering → List FunctionDecl → Lowering → Prop where
  | none (lowering : Lowering) : LowersFunctions lowering [] lowering
  | next {lowering middle after : Lowering} {first : FunctionDecl} {rest : List FunctionDecl}
      (ofFirst : LowersFunction lowering first middle)
      (ofRest : LowersFunctions middle rest after) :
      LowersFunctions lowering (first :: rest) after

namespace Lower

variable {lowering after : Lowering}

theorem function_eq_ok_iff {declaration : FunctionDecl} :
    function declaration lowering = .ok () after ↔
      LowersFunction lowering declaration after := by
  constructor
  · intro success
    obtain ⟨types, _, ofTypes, success⟩ := bind_eq_ok_iff.mp success
    obtain ⟨typesResolved, rfl⟩ := ofExcept_eq_ok_iff.mp ofTypes
    obtain ⟨result, _, ofResult, success⟩ := bind_eq_ok_iff.mp success
    obtain ⟨resultResolved, rfl⟩ := ofExcept_eq_ok_iff.mp ofResult
    rw [clearContext_bind, signContext_bind, get_bind] at success
    obtain ⟨number, _, declaring, success⟩ := bind_eq_ok_iff.mp success
    obtain ⟨declared, declares, rfl⟩ := declareFunction_eq_ok_iff.mp declaring
    rw [openContext_bind, get_bind] at success
    obtain ⟨code, _, lowered, success⟩ := bind_eq_ok_iff.mp success
    have denoteParameters := ScalarType.ofParameters_eq_ok_iff.mp typesResolved
    obtain ⟨⟨insts, tail, ofBody⟩, rfl⟩ :=
      (inScope_functionBody_eq_ok_iff denoteParameters.length_eq).mp lowered
    rw [Ir.Function.openBlock_sign_cleared] at ofBody
    rw [setContext_bind, get_bind] at success
    obtain ⟨_, _, defining, success⟩ := bind_eq_ok_iff.mp success
    obtain ⟨checked, defined, defines, rfl⟩ := defineFunction_eq_ok_iff.mp defining
    cases success
    exact .step denoteParameters (ScalarType.ofResult_eq_ok_iff.mp resultResolved) declares
      ofBody checked defines
  · rintro ⟨denoteParameters, denoteResult, declares, ofBody, checked, defines⟩
    refine bind_eq_ok_iff.mpr ⟨_, lowering, ofExcept_eq_ok_iff.mpr
      ⟨ScalarType.ofParameters_eq_ok_iff.mpr denoteParameters, rfl⟩, ?_⟩
    refine bind_eq_ok_iff.mpr ⟨_, lowering, ofExcept_eq_ok_iff.mpr
      ⟨ScalarType.ofResult_eq_ok_iff.mpr denoteResult, rfl⟩, ?_⟩
    rw [clearContext_bind, signContext_bind, get_bind]
    refine bind_eq_ok_iff.mpr ⟨_, _, declareFunction_eq_ok_iff.mpr ⟨_, declares, rfl⟩, ?_⟩
    rw [openContext_bind, get_bind]
    rw [← Ir.Function.openBlock_sign_cleared] at ofBody
    refine bind_eq_ok_iff.mpr ⟨_, _,
      (inScope_functionBody_eq_ok_iff denoteParameters.length_eq).mpr ⟨⟨_, _, ofBody⟩, rfl⟩, ?_⟩
    rw [setContext_bind, get_bind]
    exact bind_eq_ok_iff.mpr ⟨(), _, defineFunction_eq_ok_iff.mpr ⟨checked, _, defines, rfl⟩, rfl⟩

theorem functions_eq_ok_iff {declarations : List FunctionDecl} :
    functions declarations lowering = .ok () after ↔
      LowersFunctions lowering declarations after := by
  induction declarations generalizing lowering with
  | nil =>
      constructor
      · intro success
        cases success
        exact .none _
      · intro lowers
        cases lowers
        rfl
  | cons first rest inductionHypothesis =>
      rw [functions_cons]
      constructor
      · intro success
        obtain ⟨_, middle, firstLowered, restLowered⟩ := bind_eq_ok_iff.mp success
        exact .next (function_eq_ok_iff.mp firstLowered) (inductionHypothesis.mp restLowered)
      · intro lowers
        cases lowers with
        | next ofFirst ofRest =>
            exact bind_eq_ok_iff.mpr
              ⟨(), _, function_eq_ok_iff.mpr ofFirst, inductionHypothesis.mpr ofRest⟩

end Lower

end ScalarLang
