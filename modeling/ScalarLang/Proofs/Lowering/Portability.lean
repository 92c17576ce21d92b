import ScalarLang.Proofs.Lexing.FirstRule
import ScalarLang.Proofs.Lexing.Streams
import ScalarLang.Proofs.Lowering.BackEnd
import ScalarLang.Proofs.Lowering.LowLevelNames
import ScalarLang.Proofs.Reading.Programs

/-!
# Any back end compiles alike

Two back ends that meet what lowering relies on take the same steps: the context is cleared
before each function, so nothing is left of what a definition made of the code before, and a
name that is declared again ends in an error whatever its linkage is.  A source is therefore
compiled to the same object or refused with the same error by every such back end, and what is
said about `compile` is said about all of them.
-/

set_option autoImplicit false

namespace ScalarLang

/-! ## Runs on any back end -/

namespace Lower

variable {α β : Type}

/-- Runs end alike: with one value in states that differ in the context at most, or with one
error after the same code was recorded. -/
inductive Alike : EStateM.Result LoweringError Lowering α →
    EStateM.Result LoweringError Lowering α → Prop where
  | ok (value : α) (after : Lowering) (context : Ir.Function) :
      Alike (.ok value { after with context }) (.ok value after)
  | error (failure : LoweringError) {left right : Lowering}
      (recorded : left.recorded = right.recorded) :
      Alike (.error failure left) (.error failure right)

theorem Alike.bind {action other : Lower α} {next otherNext : α → Lower β}
    {lowering otherLowering : Lowering} (alike : Alike (action lowering) (other otherLowering))
    (continues : ∀ value after context, other otherLowering = .ok value after →
      Alike (next value { after with context }) (otherNext value after)) :
    Alike ((action >>= next) lowering) ((other >>= otherNext) otherLowering) := by
  generalize outcome : action lowering = result at alike
  generalize otherOutcome : other otherLowering = otherResult at alike
  cases alike with
  | ok value after context =>
      rw [bind_of_ok outcome, bind_of_ok otherOutcome]
      exact continues value after context otherOutcome
  | error failure recorded =>
      rw [bind_of_error outcome, bind_of_error otherOutcome]
      exact .error failure recorded

section Steps

variable {backEnd : BackEnd} {function : FunctionDecl} {types : List ScalarType}
  {result : Option ScalarType} {lowering : Lowering} {number : Nat} {declared : Declarations}

theorem declareFunctionOn_of_declared {name : String} {linkage : Linkage}
    {signature : Ir.Signature} (lowering : Lowering)
    (declares : backEnd.declareFunction lowering.declarations name linkage signature =
      .ok (number, declared)) :
    declareFunctionOn backEnd name linkage signature lowering =
      .ok number { lowering with declarations := declared } := by
  simp only [declareFunctionOn, declares]

theorem declareFunctionOn_of_refused {name : String} {linkage : Linkage}
    {signature : Ir.Signature} {error : ObjectError} (lowering : Lowering)
    (refused : backEnd.declareFunction lowering.declarations name linkage signature =
      .error error) :
    declareFunctionOn backEnd name linkage signature lowering =
      .error (.object error) lowering := by
  simp only [declareFunctionOn, refused]

theorem functionOn_of_unresolved {failure : LoweringError}
    (unresolved : ScalarType.ofParameters function.parameters = .error failure ∨
      (∃ types, ScalarType.ofParameters function.parameters = .ok types) ∧
        ScalarType.ofResult function.resultType = .error failure) (lowering : Lowering) :
    functionOn backEnd function lowering = .error failure lowering := by
  unfold functionOn
  rcases unresolved with noTypes | ⟨⟨types, typesResolved⟩, noResult⟩
  · rw [noTypes]
    rfl
  · rw [typesResolved, noResult]
    rfl

theorem functionOn_of_undeclared
    (typesResolved : ScalarType.ofParameters function.parameters = .ok types)
    (resultResolved : ScalarType.ofResult function.resultType = .ok result) {error : ObjectError}
    (refused : backEnd.declareFunction lowering.declarations function.lowLevelName .exported
      (loweredSignature lowering.target types result) = .error error) (context : Ir.Function) :
    ∃ left, functionOn backEnd function { lowering with context } = .error (.object error) left ∧
      left.recorded = lowering.recorded := by
  unfold functionOn
  rw [typesResolved, resultResolved, ofExcept_ok_bind, ofExcept_ok_bind,
    clearContext_bind, signContext_bind, get_bind]
  have fails := fun signed : Ir.Function =>
    declareFunctionOn_of_refused { lowering with context := signed } refused
  exact ⟨_, bind_of_error (fails _), rfl⟩

/-- The context is cleared, so the body is lowered into the same code whatever was there. -/
theorem functionOn_of_declared
    (typesResolved : ScalarType.ofParameters function.parameters = .ok types)
    (resultResolved : ScalarType.ofResult function.resultType = .ok result)
    (declares : backEnd.declareFunction lowering.declarations function.lowLevelName .exported
      (loweredSignature lowering.target types result) = .ok (number, declared))
    (context : Ir.Function) :
    functionOn backEnd function { lowering with context } =
      (inScope (functionBody function types (.start function.lowLevelName
          (loweredSignature lowering.target types result))) >>= fun code =>
        setContext code >>= fun _ => defineFunctionOn backEnd number code >>= fun _ =>
          Lower.bind function.lowLevelName (.function function number
            (loweredSignature lowering.target types result)))
        { lowering with
          declarations := declared
          context := .start function.lowLevelName
            (loweredSignature lowering.target types result) } := by
  unfold functionOn
  rw [typesResolved, resultResolved, ofExcept_ok_bind, ofExcept_ok_bind,
    clearContext_bind, signContext_bind, get_bind]
  have succeeds := fun signed : Ir.Function =>
    declareFunctionOn_of_declared { lowering with context := signed } declares
  refine (bind_of_ok (succeeds _)).trans ?_
  rw [openContext_bind, get_bind, Ir.Function.openBlock_sign_cleared]
  rfl

theorem defineFunctionOn_of_refused {code : Ir.Function} (refused : backEnd.verify code = false) :
    defineFunctionOn backEnd number code lowering = .error .illFormed lowering := by
  unfold defineFunctionOn
  rw [refused]
  rfl

theorem defineFunctionOn_of_defined {code : Ir.Function} {defined : Declarations}
    (verified : backEnd.verify code = true)
    (defines : backEnd.defineFunction lowering.declarations number = .ok defined) :
    defineFunctionOn backEnd number code lowering = .ok ()
      ⟨lowering.target, defined, lowering.scopes, lowering.recorded.push code,
        backEnd.optimized lowering.context⟩ := by
  simp only [defineFunctionOn, verified, if_true, defines]

theorem defineFunctionOn_of_duplicate {code : Ir.Function} {error : ObjectError}
    (verified : backEnd.verify code = true)
    (fails : backEnd.defineFunction lowering.declarations number = .error error) :
    defineFunctionOn backEnd number code lowering = .error (.object error)
      { lowering with
        recorded := lowering.recorded.push code
        context := backEnd.optimized lowering.context } := by
  simp only [defineFunctionOn, verified, if_true, fails]

end Steps

end Lower

section Functions

variable {backEnd : BackEnd} {lowering : Lowering} {before : List Callable}
  {function : FunctionDecl} {types : List ScalarType} {result : Option ScalarType}

theorem Registered.distinct_functions (registered : Registered lowering before) :
    lowering.declarations.Distinct := by
  have names : lowering.declarations.functions.toList.map FunctionEntry.name =
      Builtin.systemPrint :: (Callable.print lowering.target :: before).map Callable.name := by
    rw [registered.entries]
    simp [Callable.entry, Callable.print, Callable.name, Function.comp_def]
  rw [Declarations.Distinct, names, List.nodup_cons]
  refine ⟨?_, registered.distinct⟩
  intro member
  obtain ⟨callable, -, isSystem⟩ := List.mem_map.mp member
  exact lowLevelName_ne_systemPrint callable.declaration isSystem

/-- A body fails with one error or gives one code, whatever is declared and whatever the context
holds, and it changes neither. -/
theorem Registered.body_cases (registered : Registered lowering before)
    (denoteParameters : List.Forall₂ (fun parameter type => parameter.type.Denotes type)
      function.parameters types)
    (denoteResult : Option.Rel (fun path type => path.Denotes type) function.resultType result) :
    (∃ failure, ∀ declarations context, Lower.inScope (Lower.functionBody function types
        (.start function.lowLevelName (loweredSignature lowering.target types result)))
          { lowering with declarations, context } =
            .error failure { lowering with declarations, context }) ∨
      ∃ code : Ir.Function, code.WellBuilt ∧ ∀ declarations context,
        Lower.inScope (Lower.functionBody function types
          (.start function.lowLevelName (loweredSignature lowering.target types result)))
            { lowering with declarations, context } =
              .ok code { lowering with declarations, context } := by
  generalize started : Ir.Function.start function.lowLevelName
    (loweredSignature lowering.target types result) = start
  have sameLength := denoteParameters.length_eq
  obtain ⟨faults, reports⟩ : ∃ faults, ∀ declarations context, Reports faults
      (Lower.outcomeOf (Lower.inScope (Lower.functionBody function types start)
        { lowering with declarations, context })) := by
    obtain rfl := parameterTypes_eq denoteParameters
    have names := registered.namesKnown sameLength
    subst started
    exact ⟨_, fun declarations context =>
      Lower.reports_inScope_functionBody { lowering with declarations, context } names _ _⟩
  cases outcome : Lower.inScope (Lower.functionBody function types start) lowering with
  | ok code after =>
      right
      obtain ⟨⟨insts, tail, ofBody⟩, -⟩ :=
        (Lower.inScope_functionBody_eq_ok_iff sameLength).mp outcome
      refine ⟨code, ?_, ?_⟩
      · rw [← started] at ofBody
        exact registered.wellBuilt denoteParameters denoteResult ofBody
      · intro declarations context
        exact (Lower.inScope_functionBody_eq_ok_iff sameLength).mpr ⟨⟨insts, tail, ofBody⟩, rfl⟩
  | error failure after =>
      left
      refine ⟨failure, ?_⟩
      intro declarations context
      have isFirst := ((reports lowering.declarations lowering.context).eq_error_iff failure).mp
        (by rw [outcome]; rfl)
      have fails := ((reports declarations context).eq_error_iff failure).mpr isFirst
      have left := (Lower.staysInside_functionBody function types start).left_inScope
        { lowering with declarations, context }
      generalize Lower.inScope _ _ = otherOutcome at fails left ⊢
      cases otherOutcome with
      | ok code other => cases fails
      | error otherFailure other =>
          cases fails
          cases left
          rfl

theorem Declarations.FunctionAt.setFunction {declarations : Declarations} {number : Nat}
    {entry : FunctionEntry} (stands : declarations.FunctionAt number entry)
    (other : FunctionEntry) : (declarations.setFunction number other).FunctionAt number other := by
  obtain ⟨inside, -⟩ := Array.getElem?_eq_some_iff.mp stands
  simp [FunctionAt, Declarations.setFunction, inside]

/-- Only the data of the built-in function is declared. -/
def Lowering.OnlyFormat (lowering : Lowering) : Prop :=
  lowering.declarations.data = #[⟨Builtin.formatName, .hidden, true⟩]

theorem Registered.unused (registered : Registered lowering before)
    (onlyFormat : lowering.OnlyFormat) (apart : function.lowLevelName ≠ Builtin.formatName)
    (fresh : function.lowLevelName ∉
      (Callable.print lowering.target :: before).map Callable.name) :
    lowering.declarations.Unused function.lowLevelName where
  function := Declarations.findFunction?_eq_none_iff.mp ((registered.fresh_iff function).mpr fresh)
  data := by
    rw [onlyFormat]
    intro entry member
    rw [List.mem_singleton.mp member]
    exact apart.symm

namespace BackEnd.Meets

/-- Once a function is declared with one number, it ends alike if its definition does. -/
theorem alike_of_declared (meets : backEnd.Meets) (registered : Registered lowering before)
    (typesResolved : ScalarType.ofParameters function.parameters = .ok types)
    (resultResolved : ScalarType.ofResult function.resultType = .ok result)
    {number : Nat} {declared otherDeclared : Declarations}
    (declares : backEnd.declareFunction lowering.declarations function.lowLevelName .exported
      (loweredSignature lowering.target types result) = .ok (number, declared))
    (otherDeclares : standard.declareFunction lowering.declarations function.lowLevelName .exported
      (loweredSignature lowering.target types result) = .ok (number, otherDeclared))
    (defines : (∃ error, backEnd.defineFunction declared number = .error error ∧
        standard.defineFunction otherDeclared number = .error error) ∨
      ∃ defined, backEnd.defineFunction declared number = .ok defined ∧
        standard.defineFunction otherDeclared number = .ok defined)
    (context : Ir.Function) :
    Lower.Alike (Lower.functionOn backEnd function { lowering with context })
      (Lower.function function lowering) := by
  change Lower.Alike _ (Lower.functionOn standard function { lowering with
    context := lowering.context })
  rw [Lower.functionOn_of_declared typesResolved resultResolved declares,
    Lower.functionOn_of_declared typesResolved resultResolved otherDeclares]
  rcases registered.body_cases (ScalarType.ofParameters_eq_ok_iff.mp typesResolved)
    (ScalarType.ofResult_eq_ok_iff.mp resultResolved) with
    ⟨failure, fails⟩ | ⟨code, wellBuilt, gives⟩
  · rw [bind_of_error (fails _ _), bind_of_error (fails _ _)]
    exact .error failure rfl
  rw [bind_of_ok (gives _ _), bind_of_ok (gives _ _), Lower.setContext_bind, Lower.setContext_bind]
  have verdict := meets.verifies.verify_eq wellBuilt
  have otherVerdict := standard_meets.verifies.verify_eq wellBuilt
  cases checked : code.check with
  | false =>
      rw [checked] at verdict otherVerdict
      rw [bind_of_error (Lower.defineFunctionOn_of_refused verdict),
        bind_of_error (Lower.defineFunctionOn_of_refused otherVerdict)]
      exact .error .illFormed rfl
  | true =>
      rw [checked] at verdict otherVerdict
      rcases defines with ⟨error, fails, otherFails⟩ | ⟨defined, succeeds, otherSucceeds⟩
      · rw [bind_of_error (Lower.defineFunctionOn_of_duplicate verdict fails),
          bind_of_error (Lower.defineFunctionOn_of_duplicate otherVerdict otherFails)]
        exact .error _ rfl
      · rw [bind_of_ok (Lower.defineFunctionOn_of_defined verdict succeeds),
          bind_of_ok (Lower.defineFunctionOn_of_defined otherVerdict otherSucceeds)]
        exact .ok () ⟨lowering.target, defined, lowering.scopes.insert function.lowLevelName
          (.function function number (loweredSignature lowering.target types result)),
          lowering.recorded.push code, code⟩ (backEnd.optimized code)

/-- A name that is declared again is refused: by its signature, or once its body is lowered. -/
theorem alike_of_known (meets : backEnd.Meets) (registered : Registered lowering before)
    (typesResolved : ScalarType.ofParameters function.parameters = .ok types)
    (resultResolved : ScalarType.ofResult function.resultType = .ok result)
    (known : function.lowLevelName ∈
      (Callable.print lowering.target :: before).map Callable.name) (context : Ir.Function) :
    Lower.Alike (Lower.functionOn backEnd function { lowering with context })
      (Lower.function function lowering) := by
  have distinct := registered.distinct_functions
  obtain ⟨callable, isKnown, sameName⟩ := List.mem_map.mp known
  obtain ⟨entry, number, -, stands, isName, -, isDefined⟩ := registered.exists_entry isKnown
  rw [sameName] at isName
  by_cases same : entry.signature = loweredSignature lowering.target types result
  · obtain ⟨merged, declares⟩ := meets.declares.again .exported distinct stands
    obtain ⟨otherMerged, otherDeclares⟩ := standard_meets.declares.again .exported distinct stands
    rw [isName, same] at declares otherDeclares
    refine meets.alike_of_declared registered typesResolved resultResolved declares otherDeclares
      (.inl ⟨.duplicateDefinition function.lowLevelName, ?_, ?_⟩) context
    · exact meets.defines.twice (Declarations.FunctionAt.setFunction stands _) isDefined
    · exact standard_meets.defines.twice (Declarations.FunctionAt.setFunction stands _) isDefined
  · have clashes := meets.declares.clash .exported distinct stands same
    have otherClashes := standard_meets.declares.clash .exported distinct stands same
    rw [isName] at clashes otherClashes
    obtain ⟨left, fails, recorded⟩ :=
      Lower.functionOn_of_undeclared typesResolved resultResolved clashes context
    obtain ⟨otherLeft, otherFails, otherRecorded⟩ := Lower.functionOn_of_undeclared
      typesResolved resultResolved otherClashes lowering.context
    change Lower.Alike _ (Lower.functionOn standard function { lowering with
      context := lowering.context })
    rw [fails, otherFails]
    exact .error _ (recorded.trans otherRecorded.symm)

theorem defineFunction_of_pushed (meets : backEnd.Meets) {declarations : Declarations}
    {entry : FunctionEntry} (notImported : entry.linkage ≠ .imported)
    (undefined : entry.defined = false) :
    backEnd.defineFunction ⟨declarations.functions.push entry, declarations.data⟩
      declarations.functions.size =
        .ok (Declarations.setFunction ⟨declarations.functions.push entry, declarations.data⟩
          declarations.functions.size { entry with defined := true }) :=
  meets.defines.once (by simp [Declarations.FunctionAt]) notImported undefined

theorem alike_functionOn (meets : backEnd.Meets) (registered : Registered lowering before)
    (onlyFormat : lowering.OnlyFormat) (apart : function.lowLevelName ≠ Builtin.formatName)
    (context : Ir.Function) :
    Lower.Alike (Lower.functionOn backEnd function { lowering with context })
      (Lower.function function lowering) := by
  cases typesResolved : ScalarType.ofParameters function.parameters with
  | error failure =>
      rw [Lower.function, Lower.functionOn_of_unresolved (.inl typesResolved),
        Lower.functionOn_of_unresolved (.inl typesResolved)]
      exact .error failure rfl
  | ok types =>
  cases resultResolved : ScalarType.ofResult function.resultType with
  | error failure =>
      rw [Lower.function,
        Lower.functionOn_of_unresolved (.inr ⟨⟨types, typesResolved⟩, resultResolved⟩),
        Lower.functionOn_of_unresolved (.inr ⟨⟨types, typesResolved⟩, resultResolved⟩)]
      exact .error failure rfl
  | ok result =>
  by_cases known :
      function.lowLevelName ∈ (Callable.print lowering.target :: before).map Callable.name
  · exact meets.alike_of_known registered typesResolved resultResolved known context
  · have unused := registered.unused onlyFormat apart known
    have notImported : Linkage.exported ≠ .imported := by decide
    exact meets.alike_of_declared registered typesResolved resultResolved
      (meets.declares.fresh _ _ unused) (standard_meets.declares.fresh _ _ unused)
      (.inr ⟨_, meets.defineFunction_of_pushed notImported rfl,
        standard_meets.defineFunction_of_pushed notImported rfl⟩) context

theorem alike_functionsOn (meets : backEnd.Meets) (functions : List FunctionDecl)
    (apart : ∀ function ∈ functions, function.lowLevelName ≠ Builtin.formatName) :
    ∀ {lowering before}, Registered lowering before → lowering.OnlyFormat → ∀ context,
      Lower.Alike (Lower.functionsOn backEnd functions { lowering with context })
        (Lower.functions functions lowering) := by
  induction functions with
  | nil => exact fun _ _ context => .ok () _ context
  | cons first rest inductionHypothesis =>
      intro lowering before registered onlyFormat context
      rw [Lower.functions_cons]
      have ofFirst := meets.alike_functionOn registered onlyFormat
        (apart first List.mem_cons_self) context
      refine ofFirst.bind ?_
      intro _ middle otherContext lowered
      have lowers := Lower.function_eq_ok_iff.mp lowered
      obtain ⟨-, callable, -, registeredMiddle⟩ := registered.of_lowersFunction lowers
      have onlyFormatMiddle : middle.OnlyFormat := by
        obtain ⟨-, _, _, _, _, _, -, -, -, -, rfl⟩ := registered.lowersFunction_iff.mp lowers
        exact onlyFormat
      exact inductionHypothesis (fun function isLater => apart function (.tail first isLater))
        registeredMiddle onlyFormatMiddle otherContext

end BackEnd.Meets

end Functions

/-! ## Programs on any back end -/

namespace Builtin

def systemDeclared (target : Target) : Declarations where
  functions := #[⟨systemPrint, .imported, systemSignature target, false⟩]
  data := #[]

def formatAdded (target : Target) : Declarations where
  functions := (systemDeclared target).functions
  data := #[⟨formatName, .hidden, true⟩]

def printEntry (target : Target) : FunctionEntry :=
  ⟨print.lowLevelName, .hidden, printSignature target, false⟩

def printDeclared (target : Target) : Declarations where
  functions := (formatAdded target).functions.push (printEntry target)
  data := (formatAdded target).data

theorem unused_formatName (target : Target) : (systemDeclared target).Unused formatName := by
  have different : systemPrint ≠ formatName := by decide
  refine ⟨?_, List.forall_mem_nil _⟩
  intro entry member
  rw [List.mem_singleton.mp member]
  exact different

theorem unused_print (target : Target) :
    (formatAdded target).Unused print.lowLevelName := by
  refine ⟨?_, ?_⟩
  · intro entry member
    rw [List.mem_singleton.mp member]
    exact (lowLevelName_ne_systemPrint print).symm
  · intro entry member
    rw [List.mem_singleton.mp member]
    decide

end Builtin

section Programs

variable {backEnd : BackEnd}

namespace BackEnd.Meets

theorem declareFunction_system (meets : backEnd.Meets) (target : Target) :
    backEnd.declareFunction .empty Builtin.systemPrint .imported (Builtin.systemSignature target) =
      .ok (0, Builtin.systemDeclared target) :=
  meets.declares.fresh _ _ ⟨List.forall_mem_nil _, List.forall_mem_nil _⟩

theorem defineDataOn_format (meets : backEnd.Meets) (target : Target)
    (scopes : ScopeTable Binding) (recorded : Array Ir.Function) (context : Ir.Function) :
    Lower.defineDataOn backEnd Builtin.formatName
      ⟨target, Builtin.systemDeclared target, scopes, recorded, context⟩ =
        .ok () ⟨target, Builtin.formatAdded target, scopes, recorded, context⟩ := by
  obtain ⟨declared, declares, defines⟩ := meets.addsData (Builtin.unused_formatName target)
  simp only [Lower.defineDataOn, declares, defines]
  rfl

theorem defineFunction_print (meets : backEnd.Meets) (target : Target) :
    backEnd.defineFunction (Builtin.printDeclared target) 1 =
      .ok (Lowering.withBuiltins target).declarations := by
  have isPrint : (Builtin.printDeclared target).FunctionAt 1 (Builtin.printEntry target) := rfl
  have notImported : Linkage.hidden ≠ .imported := by decide
  exact meets.defines.once isPrint notImported rfl

theorem verify_printCode (meets : backEnd.Meets) (target : Target) :
    backEnd.verify (Builtin.printCode target 0) = true :=
  (meets.verifies.verify_eq (Builtin.wellBuilt_printCode target)).trans
    (Builtin.check_printCode target)

theorem builtinsOn_eq (meets : backEnd.Meets) (target : Target) (context : Ir.Function) :
    Lower.builtinsOn backEnd ⟨target, .empty, .empty, #[], context⟩ = .ok ()
      { Lowering.withBuiltins target with
        context := backEnd.optimized (Builtin.printCode target 0) } := by
  have declaresPrint := fun signed : Ir.Function => Lower.declareFunctionOn_of_declared
    ⟨target, Builtin.formatAdded target, .empty, #[], signed⟩
    (meets.declares.fresh .hidden (Builtin.printSignature target) (Builtin.unused_print target))
  unfold Lower.builtinsOn
  rw [get_bind,
    bind_of_ok (Lower.declareFunctionOn_of_declared _ (meets.declareFunction_system target)),
    bind_of_ok (meets.defineDataOn_format target _ _ _), Lower.clearContext_bind,
    Lower.signContext_bind, get_bind]
  refine (bind_of_ok (declaresPrint _)).trans ?_
  rw [Lower.openContext_bind, get_bind, Lower.setContext_bind, get_bind,
    Ir.Function.openBlock_sign_cleared]
  exact bind_of_ok (Lower.defineFunctionOn_of_defined (meets.verify_printCode target)
    (meets.defineFunction_print target))

theorem alike_programOn (meets : backEnd.Meets) (program : Module)
    (apart : ∀ function ∈ program.functions, function.lowLevelName ≠ Builtin.formatName)
    (target : Target) (context : Ir.Function) :
    Lower.Alike (Lower.programOn backEnd program ⟨target, .empty, .empty, #[], context⟩)
      (Lower.program program (.initial target)) := by
  unfold Lower.programOn
  rw [bind_of_ok (meets.builtinsOn_eq target context), Lowering.initial, Lower.program_eq]
  exact meets.alike_functionsOn program.functions apart (.withBuiltins target) rfl _

theorem compileOn_eq_of_apart (meets : backEnd.Meets) (program : Module)
    (apart : ∀ function ∈ program.functions, function.lowLevelName ≠ Builtin.formatName)
    (target : Target) (name : String) :
    program.compileOn backEnd target name = program.compile target name := by
  unfold Module.compile Module.compileOn
  cases starts : Lowering.start target with
  | error failure => rfl
  | ok lowering =>
      obtain ⟨-, rfl⟩ := Lowering.start_eq_ok_iff.mp starts
      have alike := meets.alike_programOn program apart target (.cleared target.convention)
      change Lower.Alike (Lower.programOn backEnd program (.initial target))
        (Lower.programOn standard program (.initial target)) at alike
      simp only [Lowering.addProgramOn]
      generalize Lower.programOn backEnd program (.initial target) = outcome at alike ⊢
      generalize Lower.programOn standard program (.initial target) = otherOutcome at alike ⊢
      cases alike with
      | ok value after context => rfl
      | error failure recorded => rfl

end BackEnd.Meets

end Programs

/-! ## Sources on any back end -/

theorem Lexeme.isWord_of_identifier {first : Char} {others : List Char} {lexeme : Lexeme}
    (scanned : Lexeme.scan first others = .ok lexeme) (isIdentifier : lexeme.kind = .identifier)
    (position : Position) : IsWord (lexeme.token position first others).text := by
  have begins := Lexeme.scan_begins first others
  rw [scanned] at begins
  cases begins with
  | @token rule found _ _ _ picks gives length =>
      rw [isIdentifier] at gives
      obtain rfl : rule = .word := by
        cases rule with
        | word => rfl
        | _ => cases gives
      obtain ⟨pattern, isPattern, picks⟩ := picks
      cases List.mem_singleton.mp isPattern
      have isFound : found = first :: others.take lexeme.tail := by
        rw [List.prefix_iff_eq_take.mp picks.begins, length, List.take_succ_cons]
      rw [isFound] at picks
      obtain ⟨start, parts, isText, isStart, areParts⟩ := TokenRule.mem_word.mp picks.isText
      have characters : (lexeme.token position first others).text.toList = start :: parts :=
        (lexeme.characters_token position first others).trans isText
      refine ⟨?_, ?_⟩
      · intro isEmpty
        rw [isEmpty] at characters
        cases characters
      · rw [characters]
        exact List.forall_mem_cons.mpr ⟨.inl isStart, areParts⟩

theorem Tiles.isWord_of_identifier {position after : Position} {text rest : List Char}
    {tokens : List Token} (tiles : Tiles position text tokens after rest) {token : Token}
    (member : token ∈ tokens) (isIdentifier : token.kind = .identifier) : IsWord token.text := by
  induction tiles with
  | none => cases member
  | next scanned _ inductionHypothesis =>
      rcases List.mem_cons.mp member with rfl | member
      · exact Lexeme.isWord_of_identifier scanned isIdentifier _
      · exact inductionHypothesis member

theorem mem_or_eq_of_mem_intercalate {α : Type} {separator value : α} {pieces : List (List α)}
    (member : value ∈ [separator].intercalate pieces) :
    (∃ piece ∈ pieces, value ∈ piece) ∨ value = separator := by
  induction pieces with
  | nil => cases member
  | cons first rest inductionHypothesis =>
      cases rest with
      | nil => exact .inl ⟨first, List.mem_cons_self, by simpa using member⟩
      | cons second others =>
          rw [List.intercalate_cons_cons, List.mem_append, List.mem_append,
            List.mem_singleton] at member
          rcases member with (inFirst | isSeparator) | later
          · exact .inl ⟨first, List.mem_cons_self, inFirst⟩
          · exact .inr isSeparator
          · refine (inductionHypothesis later).imp_left ?_
            rintro ⟨piece, isPiece, inPiece⟩
            exact ⟨piece, .tail first isPiece, inPiece⟩

def FunctionDecl.IsSpelled (function : FunctionDecl) : Prop :=
  IsWord function.name.name ∧ ∀ label ∈ function.labels, IsWord label

namespace FunctionDecl.IsSpelled

variable {function : FunctionDecl}

theorem isPart_or_hyphen (isSpelled : function.IsSpelled) {character : Char}
    (member : character ∈ function.lowLevelName.toList) :
    TokenRule.WordPart character ∨ character = '-' := by
  rw [lowLevelName, mangle, String.toList_append, String.toList_append, List.mem_append,
    List.mem_append, String.toList_intercalate] at member
  rcases member with (inName | inUnderscore) | inLabels
  · exact .inl (isSpelled.1.areParts character inName)
  · cases List.mem_singleton.mp inUnderscore
    exact .inl (by decide)
  · refine (mem_or_eq_of_mem_intercalate inLabels).imp_left ?_
    rintro ⟨piece, isPiece, inPiece⟩
    obtain ⟨label, isLabel, rfl⟩ := List.mem_map.mp isPiece
    exact (isSpelled.2 label isLabel).areParts character inPiece

/-- The name of the format has a point, which no word has. -/
theorem lowLevelName_ne_formatName (isSpelled : function.IsSpelled) :
    function.lowLevelName ≠ Builtin.formatName := by
  intro same
  have point : '.' ∈ function.lowLevelName.toList := by
    rw [same]
    decide
  exact absurd (isSpelled.isPart_or_hyphen point) (by decide)

end FunctionDecl.IsSpelled

namespace Grammar

theorem AreParameters.exists_label {parameters : List Parameter} {tokens : List Token}
    (areParameters : AreParameters parameters tokens) :
    ∀ parameter ∈ parameters, ∃ token ∈ tokens, token.kind = .identifier ∧
      parameter.name = token.ident := by
  have ofOne : ∀ {parameter tokens}, IsParameter parameter tokens → ∃ token ∈ tokens,
      token.kind = .identifier ∧ parameter.name = token.ident := by
    rintro _ _ ⟨isName, _, _⟩
    exact ⟨_, List.mem_cons_self, isName, rfl⟩
  induction areParameters with
  | none => simp
  | last isParameter =>
      intro parameter member
      rw [List.mem_singleton.mp member]
      exact ofOne isParameter
  | next isParameter _ _ _ inductionHypothesis =>
      refine List.forall_mem_cons.mpr ⟨?_, ?_⟩
      · obtain ⟨token, member, others⟩ := ofOne isParameter
        exact ⟨token, by simp [member], others⟩
      · intro parameter later
        obtain ⟨token, member, others⟩ := inductionHypothesis parameter later
        exact ⟨token, by simp [member], others⟩

theorem IsFunction.isSpelled {function : FunctionDecl} {tokens : List Token}
    (isFunction : IsFunction function tokens)
    (words : ∀ token ∈ tokens, token.kind = .identifier → IsWord token.text) :
    function.IsSpelled := by
  obtain ⟨isStart, isName, opens, skipped, areParameters, closes, isResult, isBody⟩ := isFunction
  refine ⟨words _ (by simp) isName, ?_⟩
  intro label isLabel
  obtain ⟨parameter, isParameter, rfl⟩ := List.mem_map.mp isLabel
  obtain ⟨token, member, isIdentifier, same⟩ := areParameters.exists_label parameter isParameter
  rw [same]
  exact words token (by simp [member]) isIdentifier

theorem AreFunctions.areSpelled {functions : List FunctionDecl} {tokens : List Token}
    (areFunctions : AreFunctions functions tokens)
    (words : ∀ token ∈ tokens, token.kind = .identifier → IsWord token.text) :
    ∀ function ∈ functions, function.IsSpelled := by
  induction areFunctions with
  | last isFunction _ =>
      intro function member
      rw [List.mem_singleton.mp member]
      exact isFunction.isSpelled fun token member => words token (by simp [member])
  | next isFunction _ _ _ inductionHypothesis =>
      refine List.forall_mem_cons.mpr ⟨?_, inductionHypothesis ?_⟩
      · exact isFunction.isSpelled fun token member => words token (by simp [member])
      · exact fun token member => words token (by simp [member])

end Grammar

/-- All names of a program that was read are words. -/
theorem Module.isSpelled_of_ofSource {source : Source} {program : Module}
    (accepted : Module.ofSource source = .ok program) :
    ∀ function ∈ program.functions, function.IsSpelled := by
  obtain ⟨tokens, position, isStream, isProgram⟩ :=
    (ofSource_eq_ok_iff_isProgram source program).mp accepted
  obtain ⟨all, after, rest, ending, tiles, -, isTiled⟩ :=
    Lexer.exists_tiles_ofText source.characters
  cases isProgram with
  | @intro functions leading spelling _ areFunctions =>
      have sameTokens : leading ++ spelling = all.filter (Lexer.gives false) :=
        congrArg TokenStream.tokens (isStream.symm.trans isTiled)
      refine areFunctions.areSpelled ?_
      intro token member isIdentifier
      have isToken : token ∈ all.filter (Lexer.gives false) := by
        rw [← sameTokens]
        exact List.mem_append_right leading member
      exact tiles.isWord_of_identifier (List.mem_of_mem_filter isToken) isIdentifier

/-- A source is compiled to the same object or refused with the same error by every back end
that meets what lowering relies on. -/
theorem BackEnd.Meets.compileOn_eq {backEnd : BackEnd} (meets : backEnd.Meets) (source : Source)
    (target : Target) : source.compileOn backEnd target = source.compile target := by
  unfold Source.compile Source.compileOn
  cases accepted : Module.ofSource source with
  | error failure => rfl
  | ok program =>
      have apart : ∀ function ∈ program.functions, function.lowLevelName ≠ Builtin.formatName :=
        fun function member =>
          (Module.isSpelled_of_ofSource accepted function member).lowLevelName_ne_formatName
      dsimp only
      rw [meets.compileOn_eq_of_apart program apart, Module.compileOn_standard]

end ScalarLang
