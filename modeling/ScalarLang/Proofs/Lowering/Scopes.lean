import Mathlib.Data.List.Nodup
import ScalarLang.Proofs.Lowering.Blame
import ScalarLang.Proofs.Lowering.Register

/-!
# Scopes are left however lowering ends

A step inside a scope changes the innermost scope only, and the scope is left whether the
step succeeds or fails.  So a function that cannot be lowered leaves the open scopes as they
were, with at most a declaration that is never defined, and the outermost scope binds
exactly the functions that were lowered.
-/

set_option autoImplicit false

namespace ScalarLang

/-- A name that is bound is bound in the innermost scope. -/
theorem ScopeTable.exit_insert {α : Type} (table : ScopeTable α) (name : String) (value : α) :
    (table.insert name value).exit = table.exit := by
  obtain ⟨inner, outermost⟩ := table
  cases inner with
  | nil => rfl
  | cons first rest => rfl

namespace Lower

variable {α β : Type} {lowering middle after : Lowering}

/-! ## Steps inside a scope -/

/-- The state that a step leaves, whether it succeeded or not. -/
def left : EStateM.Result LoweringError Lowering α → Lowering
  | .ok _ after => after
  | .error _ after => after

structure Inside (before after : Lowering) : Prop where
  target : after.target = before.target
  declarations : after.declarations = before.declarations
  recorded : after.recorded = before.recorded
  context : after.context = before.context
  exit : after.scopes.exit = before.scopes.exit

theorem Inside.refl (lowering : Lowering) : Inside lowering lowering :=
  ⟨rfl, rfl, rfl, rfl, rfl⟩

theorem Inside.trans (first : Inside lowering middle) (second : Inside middle after) :
    Inside lowering after where
  target := second.target.trans first.target
  declarations := second.declarations.trans first.declarations
  recorded := second.recorded.trans first.recorded
  context := second.context.trans first.context
  exit := second.exit.trans first.exit

/-- A step changes the innermost scope only, also if it fails. -/
def StaysInside (action : Lower α) : Prop :=
  ∀ lowering, Inside lowering (left (action lowering))

theorem staysInside_pure (value : α) : StaysInside (pure value) := Inside.refl

theorem staysInside_throw (error : LoweringError) : StaysInside (throw error : Lower α) :=
  Inside.refl

theorem staysInside_bind (name : String) (binding : Binding) :
    StaysInside (Lower.bind name binding) := fun lowering =>
  ⟨rfl, rfl, rfl, rfl, lowering.scopes.exit_insert name binding⟩

theorem staysInside_build (code : Ir.Function) (step : ScopeTable Binding → Build α) :
    StaysInside (build code step) := by
  intro lowering
  unfold build ofExcept
  split
  · exact .refl lowering
  · exact .refl lowering

theorem StaysInside.bind {action : Lower α} {next : α → Lower β} (first : StaysInside action)
    (second : ∀ value, StaysInside (next value)) : StaysInside (action >>= next) := by
  intro lowering
  have inside := first lowering
  cases outcome : action lowering with
  | ok value middle =>
      rw [outcome] at inside
      rw [bind_of_ok outcome]
      exact inside.trans (second value middle)
  | error failure middle =>
      rw [outcome] at inside
      rw [bind_of_error outcome]
      exact inside

/-- A step in a scope of its own leaves the whole state as it was. -/
theorem StaysInside.left_inScope {action : Lower α} (stays : StaysInside action)
    (lowering : Lowering) : left (inScope action lowering) = lowering := by
  have inside := stays { lowering with scopes := lowering.scopes.enter }
  unfold inScope
  generalize action _ = outcome at inside ⊢
  obtain ⟨target, declarations, scopes, recorded, context⟩ := lowering
  cases outcome with
  | ok value after =>
      obtain ⟨rfl, rfl, rfl, rfl, exits⟩ := inside
      rw [ScopeTable.exit_enter] at exits
      simp only [left] at exits
      simp only [leaveScope, exits, left]
  | error failure after =>
      obtain ⟨rfl, rfl, rfl, rfl, exits⟩ := inside
      rw [ScopeTable.exit_enter] at exits
      simp only [left] at exits
      simp only [leaveScope, exits, left]

theorem StaysInside.inScope {action : Lower α} (stays : StaysInside action) :
    StaysInside (inScope action) := by
  intro lowering
  rw [stays.left_inScope lowering]
  exact .refl lowering

/-! ## Functions -/

theorem staysInside_storeParameters (parameters : List (Parameter × ScalarType)) :
    ∀ value code, StaysInside (storeParameters parameters value code) := by
  induction parameters with
  | nil => exact fun value code => staysInside_pure code
  | cons first rest inductionHypothesis =>
      exact fun value code => (staysInside_bind _ _).bind fun _ => inductionHypothesis _ _

theorem staysInside_functionResult (declaration : FunctionDecl) (code : Ir.Function) :
    StaysInside (functionResult declaration code) := by
  unfold functionResult
  split
  · exact (staysInside_build _ _).bind fun _ => staysInside_pure _
  · exact staysInside_pure _
  · exact staysInside_throw _
  · exact staysInside_throw _

theorem staysInside_functionBody (declaration : FunctionDecl) (types : List ScalarType)
    (code : Ir.Function) : StaysInside (functionBody declaration types code) := by
  refine (staysInside_storeParameters _ _ _).bind fun stored => ?_
  refine StaysInside.bind ?_ fun extended => staysInside_functionResult _ _
  exact StaysInside.inScope ((staysInside_build _ _).bind fun _ => staysInside_pure _)

/-- What is left of a function that could not be lowered: at most its declaration. -/
structure Abandons (lowering : Lowering) (declaration : FunctionDecl) (after : Lowering) :
    Prop where
  target : after.target = lowering.target
  scopes : after.scopes = lowering.scopes
  functions : after.declarations.functions = lowering.declarations.functions ∨
    ∃ signature, after.declarations.functions = lowering.declarations.functions.push
      ⟨declaration.lowLevelName, .exported, signature, false⟩

/-- What the context held before does not matter. -/
theorem Abandons.of_context {context : Ir.Function} {declaration : FunctionDecl}
    (abandons : Abandons { lowering with context } declaration after) :
    Abandons lowering declaration after :=
  ⟨abandons.target, abandons.scopes, abandons.functions⟩

theorem Abandons.refl (lowering : Lowering) (declaration : FunctionDecl) :
    Abandons lowering declaration lowering := ⟨rfl, rfl, .inl rfl⟩

/-- What is left of a function that could not be lowered is never defined. -/
theorem Abandons.defined_iff {declaration : FunctionDecl}
    (abandons : Abandons lowering declaration after) {number : Nat} {entry : FunctionEntry}
    (isDefined : entry.defined = true) :
    after.declarations.functions[number]? = some entry ↔
      lowering.declarations.functions[number]? = some entry := by
  rcases abandons.functions with same | ⟨signature, pushed⟩
  · rw [same]
  · rw [pushed, Array.getElem?_push]
    split
    · rename_i isLast
      subst isLast
      constructor
      · intro isEntry
        cases isEntry
        cases isDefined
      · simp
    · rfl

theorem left_ofExcept (outcome : Except LoweringError α) (lowering : Lowering) :
    left (ofExcept outcome lowering) = lowering := by
  cases outcome with
  | ok value => rfl
  | error failure => rfl

theorem abandons_declareFunction (declaration : FunctionDecl) (signature : Ir.Signature)
    (lowering : Lowering) : Abandons lowering declaration
      (left (declareFunction declaration.lowLevelName .exported signature lowering)) := by
  unfold declareFunction declareFunctionOn
  rw [BackEnd.standard_declareFunction]
  unfold Declarations.declareFunction
  cases lowering.declarations.findFunction? declaration.lowLevelName with
  | none => exact ⟨rfl, rfl, .inr ⟨signature, rfl⟩⟩
  | some found =>
      dsimp only
      split <;> rename_i outcome <;> split at outcome <;> cases outcome <;> exact .refl _ _

theorem defineFunction_eq_error {number : Nat} {code : Ir.Function} {failure : LoweringError}
    (fails : defineFunction number code lowering = .error failure after) :
    after.target = lowering.target ∧ after.scopes = lowering.scopes ∧
      after.declarations = lowering.declarations := by
  unfold defineFunction defineFunctionOn at fails
  split at fails
  · dsimp only at fails
    split at fails <;> cases fails
    exact ⟨rfl, rfl, rfl⟩
  · cases fails
    exact ⟨rfl, rfl, rfl⟩

theorem left_of_error {action : Lower α} {failure : LoweringError}
    (fails : action lowering = .error failure after) : left (action lowering) = after := by
  rw [fails]
  rfl

theorem left_of_ok {action : Lower α} {value : α} (succeeds : action lowering = .ok value after) :
    left (action lowering) = after := by
  rw [succeeds]
  rfl

/-- A function that cannot be lowered leaves no scope open and binds no name. -/
theorem abandons_of_function_eq_error {declaration : FunctionDecl} {failure : LoweringError}
    (fails : function declaration lowering = .error failure after) :
    Abandons lowering declaration after := by
  rcases bind_eq_error_iff.mp fails with fails | ⟨types, middle, ofTypes, fails⟩
  · rw [← left_of_error fails, left_ofExcept]
    exact .refl lowering declaration
  obtain rfl : lowering = middle := by rw [← left_of_ok ofTypes, left_ofExcept]
  rcases bind_eq_error_iff.mp fails with fails | ⟨result, middle, ofResult, fails⟩
  · rw [← left_of_error fails, left_ofExcept]
    exact .refl lowering declaration
  obtain rfl : lowering = middle := by rw [← left_of_ok ofResult, left_ofExcept]
  rw [clearContext_bind, signContext_bind, get_bind] at fails
  rcases bind_eq_error_iff.mp fails with fails | ⟨number, declared, declares, fails⟩
  · rw [← left_of_error fails]
    exact (abandons_declareFunction declaration _ _).of_context
  have abandons : Abandons lowering declaration declared := by
    rw [← left_of_ok declares]
    exact (abandons_declareFunction declaration _ _).of_context
  rw [openContext_bind, get_bind] at fails
  -- From here on nothing but the finished code is recorded, and the name is bound last.
  have left_body : ∀ start opened, left (inScope (functionBody declaration types start) opened) =
      opened := fun start =>
    (staysInside_functionBody declaration types start).left_inScope
  rcases bind_eq_error_iff.mp fails with fails | ⟨code, middle, ofBody, fails⟩
  · rw [← left_of_error fails, left_body]
    exact ⟨abandons.target, abandons.scopes, abandons.functions⟩
  obtain rfl : _ = middle := by rw [← left_of_ok ofBody, left_body]
  rw [setContext_bind, get_bind] at fails
  rcases bind_eq_error_iff.mp fails with fails | ⟨_, defined, defines, fails⟩
  · obtain ⟨target, scopes, declarations⟩ := defineFunction_eq_error fails
    refine ⟨target.trans abandons.target, scopes.trans abandons.scopes, ?_⟩
    rw [declarations]
    exact abandons.functions
  · cases fails

/-! ## Runs -/

/-- Lowering functions one after the other up to the first failure, with those that
succeeded. -/
inductive Attempts : Lowering → List FunctionDecl → List FunctionDecl →
    Except LoweringError Unit → Lowering → Prop
  | done (lowering : Lowering) : Attempts lowering [] [] (.ok ()) lowering
  | fails {lowering after : Lowering} {first : FunctionDecl} {rest : List FunctionDecl}
      {failure : LoweringError} (failed : function first lowering = .error failure after) :
      Attempts lowering (first :: rest) [] (.error failure) after
  | succeeds {lowering middle after : Lowering} {first : FunctionDecl}
      {rest succeeded : List FunctionDecl} {outcome : Except LoweringError Unit}
      (lowered : function first lowering = .ok () middle)
      (attempts : Attempts middle rest succeeded outcome after) :
      Attempts lowering (first :: rest) (first :: succeeded) outcome after

def outcomeOf : EStateM.Result LoweringError Lowering α → Except LoweringError α
  | .ok value _ => .ok value
  | .error failure _ => .error failure

theorem exists_attempts (declarations : List FunctionDecl) : ∀ lowering, ∃ succeeded,
    Attempts lowering declarations succeeded (outcomeOf (functions declarations lowering))
      (left (functions declarations lowering)) := by
  induction declarations with
  | nil => exact fun lowering => ⟨[], .done lowering⟩
  | cons first rest inductionHypothesis =>
      intro lowering
      change ∃ succeeded, Attempts lowering (first :: rest) succeeded
        (outcomeOf ((function first >>= fun _ => functions rest) lowering))
        (left ((function first >>= fun _ => functions rest) lowering))
      cases outcome : function first lowering with
      | error failure after =>
          rw [bind_of_error outcome]
          exact ⟨[], .fails outcome⟩
      | ok done middle =>
          rw [bind_of_ok outcome]
          obtain ⟨succeeded, attempts⟩ := inductionHypothesis middle
          exact ⟨first :: succeeded, .succeeds outcome attempts⟩

/-- After any run the functions that succeeded are known, and one more at most was
abandoned. -/
theorem Attempts.registered {declarations succeeded : List FunctionDecl}
    {outcome : Except LoweringError Unit}
    (attempts : Attempts lowering declarations succeeded outcome after) :
    ∀ {before}, Registered lowering before → ∃ known middle failed,
      known.map Callable.declaration = succeeded ∧ Registered middle (before ++ known) ∧
        Abandons middle failed after := by
  induction attempts with
  | done lowering =>
      intro before registered
      exact ⟨[], lowering, Builtin.print, rfl, by simpa using registered, .refl _ _⟩
  | @fails lowering after first rest failure failed =>
      intro before registered
      exact ⟨[], lowering, first, rfl, by simpa using registered,
        abandons_of_function_eq_error failed⟩
  | @succeeds lowering middle after first rest succeeded outcome lowered _ inductionHypothesis =>
      intro before registered
      obtain ⟨fresh, types, result, insts, tail, code, denoteParameters, denoteResult, -, -, rfl⟩ :=
        registered.lowersFunction_iff.mp (function_eq_ok_iff.mp lowered)
      obtain ⟨known, middle, failed, areKnown, registered, abandons⟩ := inductionHypothesis
        (registered.withFunction code (.intro denoteParameters denoteResult rfl) fresh)
      refine ⟨⟨first, loweredSignature lowering.target types result⟩ :: known, middle, failed,
        ?_, ?_, abandons⟩
      · rw [List.map_cons, areKnown]
      · simpa using registered

end Lower

/-! ## Names in the outermost scope -/

/-- The outermost scope binds some functions and nothing else, each under its low-level
name to its own declaration and to the number under which the object has its definition. -/
def Lowering.BindsExactly (lowering : Lowering) (functions : List FunctionDecl) : Prop :=
  ∀ name binding, lowering.scopes.outermost.find? name = some binding ↔
    ∃ declaration ∈ functions, declaration.lowLevelName = name ∧
      ∃ number entry, lowering.declarations.functions[number]? = some entry ∧
        entry.name = name ∧ entry.defined = true ∧
          binding = .function declaration number entry.signature

namespace Registered

variable {lowering after : Lowering} {known : List Callable}

/-- The definitions in the object are those of the known functions, in their order. -/
theorem defined_iff (registered : Registered lowering known) {number : Nat}
    {name : String} {signature : Ir.Signature} :
    (∃ entry, lowering.declarations.functions[number]? = some entry ∧ entry.name = name ∧
        entry.signature = signature ∧ entry.defined = true) ↔
      ∃ index callable, number = index + 1 ∧
        (Callable.print lowering.target :: known)[index]? = some callable ∧
          callable.name = name ∧ callable.signature = signature := by
  rw [← Array.getElem?_toList, registered.entries]
  cases number with
  | zero => simp
  | succ index =>
      rw [List.getElem?_cons_succ]
      cases index with
      | zero => simp [Callable.print, Callable.name]
      | succ index => simp [Callable.entry]

/-- Two known functions of one name are the same one. -/
theorem eq_of_name_eq (registered : Registered lowering known) {callable other : Callable}
    (isKnown : callable ∈ Callable.print lowering.target :: known)
    (isOther : other ∈ Callable.print lowering.target :: known)
    (sameName : callable.name = other.name) : callable = other :=
  List.inj_on_of_nodup_map registered.distinct isKnown isOther sameName

theorem bindsExactly (registered : Registered lowering known) {failed : FunctionDecl}
    (abandons : Lower.Abandons lowering failed after) :
    after.BindsExactly (Builtin.print :: known.map Callable.declaration) := by
  have isDeclared : ∀ declaration, declaration ∈ Builtin.print :: known.map Callable.declaration ↔
      ∃ callable ∈ Callable.print lowering.target :: known,
        callable.declaration = declaration := by
    intro declaration
    rw [← List.mem_map, List.map_cons]
    rfl
  intro name binding
  rw [abandons.scopes, registered.bindings]
  constructor
  · rintro ⟨index, callable, stands, isName, rfl⟩
    obtain ⟨entry, isEntry, sameName, sameSignature, isDefined⟩ :=
      registered.defined_iff.mpr ⟨index, callable, rfl, stands, isName, rfl⟩
    refine ⟨callable.declaration, (isDeclared _).mpr ⟨callable, List.mem_of_getElem? stands, rfl⟩,
      isName, index + 1, entry, ?_, sameName, isDefined, by rw [sameSignature]⟩
    exact (abandons.defined_iff isDefined).mpr isEntry
  · rintro ⟨declaration, member, isName, number, entry, isEntry, sameName, isDefined, rfl⟩
    obtain ⟨callable, isKnown, rfl⟩ := (isDeclared _).mp member
    rw [abandons.defined_iff isDefined] at isEntry
    obtain ⟨index, other, rfl, stands, otherName, otherSignature⟩ :=
      registered.defined_iff.mp ⟨entry, isEntry, sameName, rfl, isDefined⟩
    have sameCallable := registered.eq_of_name_eq isKnown (List.mem_of_getElem? stands)
      (isName.trans otherName.symm)
    subst sameCallable
    exact ⟨index, callable, stands, isName, by rw [otherSignature]⟩

end Registered

/-- Lowering never fails because a scope cannot be left. -/
theorem Lower.functions_ne_scope (declarations : List FunctionDecl) (lowering : Lowering)
    (error : ScopeError) : outcomeOf (functions declarations lowering) ≠ .error (.scope error) := by
  have all : ∀ declaration ∈ declarations, declaration.AllSpans fun _ => True :=
    fun declaration _ => ⟨fun _ _ => trivial, fun _ _ _ _ _ _ => trivial⟩
  have settles := blames_functionsOn .standard all lowering
  change Settles _ _ (functions declarations lowering) at settles
  generalize functions declarations lowering = outcome at settles ⊢
  cases settles with
  | ok => exact nofun
  | error _ located =>
      intro isScope
      cases isScope
      obtain ⟨span, isSpan, -⟩ := located trivial
      cases isSpan

theorem Lowering.addProgram_eq {target : Target} {lowering : Lowering}
    (starts : Lowering.start target = .ok lowering) (program : Module) :
    lowering.addProgram program =
      (Lower.outcomeOf (Lower.functions program.functions (.withBuiltins target)),
        Lower.left (Lower.functions program.functions (.withBuiltins target))) := by
  obtain ⟨-, rfl⟩ := Lowering.start_eq_ok_iff.mp starts
  have isRun := Lower.program_eq program target (.cleared target.convention)
  unfold Lower.program at isRun
  unfold Lowering.addProgram Lowering.addProgramOn Lowering.initial
  rw [isRun]
  cases Lower.functions program.functions (.withBuiltins target) with
  | ok done after => rfl
  | error failure after => rfl

/-- However lowering a program ends, only the outermost scope is open, and it binds the
built-in function and the functions that were lowered; no scope is left that was not
entered, which would be an error that nothing catches. -/
theorem addProgram_balances_scopes {target : Target} {lowering : Lowering}
    (starts : Lowering.start target = .ok lowering) (program : Module) :
    ∃ middle succeeded, Lower.builtins lowering = .ok () middle ∧
      Lower.Attempts middle program.functions succeeded (lowering.addProgram program).1
        (lowering.addProgram program).2 ∧
      (lowering.addProgram program).2.scopes.depth = 1 ∧
      (lowering.addProgram program).2.BindsExactly (Builtin.print :: succeeded) ∧
      ∀ error, (lowering.addProgram program).1 ≠ .error (.scope error) := by
  rw [Lowering.addProgram_eq starts program]
  obtain ⟨-, rfl⟩ := Lowering.start_eq_ok_iff.mp starts
  obtain ⟨succeeded, attempts⟩ :=
    Lower.exists_attempts program.functions (.withBuiltins target)
  obtain ⟨known, middle, failed, rfl, registered, abandons⟩ :=
    attempts.registered (.withBuiltins target)
  refine ⟨_, _, Lower.builtins_eq target _, attempts, ?_, ?_, ?_⟩
  · rw [ScopeTable.depth, abandons.scopes, registered.noInner]
    rfl
  · exact registered.bindsExactly abandons
  · exact Lower.functions_ne_scope program.functions _

def strayName : FunctionDecl where
  name := ⟨"stray", .empty 0⟩
  parameters := [⟨⟨"a", .empty 0⟩, .simple ⟨"Int", .empty 0⟩⟩]
  resultType := none
  body :=
    { statements :=
        [.call ⟨"print_arg", .empty 0⟩ [⟨⟨"arg", .empty 0⟩, .identifier "a" (.empty 0)⟩] none
            (.empty 0),
          .call ⟨"print_arg", .empty 0⟩
            [⟨⟨"arg", .empty 0⟩, .unary .negate (.identifier "b" (.empty 9)) (.empty 0)⟩] none
            (.empty 0)]
      result := none }

def ignoredArgument : FunctionDecl where
  name := ⟨"ignored", .empty 0⟩
  parameters := [⟨⟨"b", .empty 0⟩, .simple ⟨"Int", .empty 0⟩⟩]
  resultType := none
  body := ⟨[], none⟩

theorem addProgram_balances_scopes_stray :
    let start : Lowering := .initial ⟨"x86_64", .systemV, .i64, .elf, true⟩
    let program : Module := ⟨[ignoredArgument, strayName, ignoredArgument]⟩
    (start.addProgram program).1 = .error (.variableNotDefined "b" (.empty 9)) ∧
      ∃ middle succeeded, Lower.builtins start = .ok () middle ∧
        Lower.Attempts middle program.functions succeeded (start.addProgram program).1
          (start.addProgram program).2 ∧
        (start.addProgram program).2.scopes.depth = 1 ∧
        (start.addProgram program).2.BindsExactly (Builtin.print :: succeeded) ∧
        ∀ error, (start.addProgram program).1 ≠ .error (.scope error) := by
  intro start program
  have failed : (start.addProgram program).1 = .error (.variableNotDefined "b" (.empty 9)) := by
    decide +kernel
  have starts : Lowering.start ⟨"x86_64", .systemV, .i64, .elf, true⟩ = .ok start := rfl
  exact ⟨failed, addProgram_balances_scopes starts program⟩

end ScalarLang
