import ScalarLang.Proofs.Typing.FirstFault

/-!
# What is recorded

The code of a function is recorded after it was checked and before the function is defined.
So what is recorded at the end is the code of the functions that were lowered, and one more
if it failed because its name was defined before.  A second program fails in the built-in
function, whose format is defined already, and changes nothing.
-/

set_option autoImplicit false

namespace ScalarLang

open FunctionDecl

namespace Lower

/-! ## Parts of the state that stay as they are -/

section Leaves

variable {α β γ : Type} {part : Lowering → γ}

/-- A step leaves a part of the state as it was, also if it fails. -/
def Leaves (part : Lowering → γ) (action : Lower α) : Prop :=
  ∀ lowering, part (left (action lowering)) = part lowering

theorem Leaves.bind {action : Lower α} {next : α → Lower β} (first : Leaves part action)
    (second : ∀ value, Leaves part (next value)) : Leaves part (action >>= next) := by
  intro lowering
  have same := first lowering
  cases outcome : action lowering with
  | ok value middle =>
      rw [outcome] at same
      rw [bind_of_ok outcome]
      exact (second value middle).trans same
  | error failure middle =>
      rw [outcome] at same
      rw [bind_of_error outcome]
      exact same

theorem leaves_pure (value : α) : Leaves part (pure value) := fun _ => rfl

theorem leaves_get : Leaves part get := fun _ => rfl

theorem leaves_ofExcept (outcome : Except LoweringError α) : Leaves part (ofExcept outcome) :=
  fun lowering => congrArg part (left_ofExcept outcome lowering)

theorem StaysInside.leaves {action : Lower α} (stays : StaysInside action) :
    Leaves part (Lower.inScope action) :=
  fun lowering => congrArg part (stays.left_inScope lowering)

theorem leaves_declareFunction
    (ofFunctions : ∀ lowering functions, part { lowering with
      declarations := ⟨functions, lowering.declarations.data⟩ } = part lowering)
    (name : String) (linkage : Linkage) (signature : Ir.Signature) :
    Leaves part (declareFunction name linkage signature) := by
  intro lowering
  unfold declareFunction declareFunctionOn
  rw [BackEnd.standard_declareFunction]
  unfold Declarations.declareFunction
  cases lowering.declarations.findFunction? name with
  | none => exact ofFunctions lowering _
  | some found =>
      dsimp only
      split <;> rename_i outcome <;> split at outcome <;> cases outcome <;> rfl

theorem leaves_finish
    (ofFunctions : ∀ lowering functions, part { lowering with
      declarations := ⟨functions, lowering.declarations.data⟩ } = part lowering)
    (ofContext : ∀ lowering context, part { lowering with context } = part lowering)
    (declaration : FunctionDecl) : Leaves part (finish declaration) := by
  have ofClear : Leaves part clearContext := fun lowering => ofContext lowering _
  have ofSign : ∀ name params results, Leaves part (signContext name params results) :=
    fun _ _ _ lowering => ofContext lowering _
  have ofOpen : Leaves part openContext := fun lowering => ofContext lowering _
  have ofSet : ∀ code, Leaves part (setContext code) := fun code lowering => ofContext lowering code
  refine (leaves_ofExcept _).bind fun types => (leaves_ofExcept _).bind fun result => ?_
  refine ofClear.bind fun _ => (ofSign _ _ _).bind fun _ => leaves_get.bind fun _ => ?_
  refine (leaves_declareFunction ofFunctions _ _ _).bind fun number => ?_
  refine ofOpen.bind fun _ => leaves_get.bind fun _ => ?_
  refine (staysInside_functionBody declaration types _).leaves.bind fun code => ?_
  exact (ofSet code).bind fun _ => leaves_pure _

theorem leaves_recorded_finish (declaration : FunctionDecl) :
    Leaves Lowering.recorded (finish declaration) :=
  leaves_finish (fun _ _ => rfl) (fun _ _ => rfl) declaration

end Leaves

/-- How checking, recording and defining finished code ends. -/
theorem settle_cases (declaration : FunctionDecl) (finished : Finished) (lowering : Lowering) :
    settle declaration finished lowering = .error .illFormed lowering ∨
      (∃ name, settle declaration finished lowering = .error (.object (.duplicateDefinition name))
        { lowering with recorded := lowering.recorded.push finished.code }) ∨
      ∃ functions scopes, settle declaration finished lowering = .ok ()
        ⟨lowering.target, ⟨functions, lowering.declarations.data⟩, scopes,
          lowering.recorded.push finished.code, lowering.context⟩ := by
  by_cases checked : finished.code.check = true
  · right
    cases defines : lowering.declarations.defineFunction finished.number with
    | error failure =>
        left
        have defining : defineFunction finished.number finished.code lowering =
            .error (.object failure)
              { lowering with recorded := lowering.recorded.push finished.code } := by
          simp only [defineFunction, defineFunctionOn, BackEnd.standard_verify,
            BackEnd.standard_defineFunction, BackEnd.standard_optimized, checked, if_true, defines]
        obtain ⟨name, rfl⟩ : ∃ name, failure = .duplicateDefinition name := by
          unfold Declarations.defineFunction at defines
          split at defines
          · split at defines <;> cases defines
            exact ⟨_, rfl⟩
          · cases defines
        exact ⟨name, bind_of_error defining⟩
    | ok declarations =>
        right
        have sameData : declarations.data = lowering.declarations.data := by
          unfold Declarations.defineFunction at defines
          split at defines
          · split at defines <;> cases defines
            rfl
          · cases defines
            rfl
        have defining : defineFunction finished.number finished.code lowering = .ok ()
            { lowering with declarations, recorded := lowering.recorded.push finished.code } := by
          simp only [defineFunction, defineFunctionOn, BackEnd.standard_verify,
            BackEnd.standard_defineFunction, BackEnd.standard_optimized, checked, if_true, defines]
        rw [← sameData]
        exact ⟨declarations.functions, _, bind_of_ok defining⟩
  · left
    have defining : defineFunction finished.number finished.code lowering =
        .error .illFormed lowering := by
      unfold defineFunction defineFunctionOn
      rw [BackEnd.standard_verify, if_neg checked]
    exact bind_of_error defining

theorem leaves_data_functions (declarations : List FunctionDecl) :
    Leaves (fun lowering => lowering.declarations.data) (functions declarations) := by
  have ofFinish : ∀ declaration,
      Leaves (fun lowering => lowering.declarations.data) (finish declaration) :=
    leaves_finish (fun _ _ => rfl) fun _ _ => rfl
  have ofSettle : ∀ declaration finished,
      Leaves (fun lowering => lowering.declarations.data) (settle declaration finished) := by
    intro declaration finished lowering
    rcases settle_cases declaration finished lowering with
      settled | ⟨name, settled⟩ | ⟨functions, scopes, settled⟩ <;> rw [settled] <;> rfl
  induction declarations with
  | nil => exact leaves_pure ()
  | cons first rest inductionHypothesis =>
      rw [functions_cons, function_eq]
      exact ((ofFinish first).bind (ofSettle first)).bind fun _ => inductionHypothesis

/-! ## Recorded functions -/

/-- The functions whose code is recorded: those that were lowered and, if it failed because
its name was defined before, the next one. -/
def listed (declarations succeeded : List FunctionDecl) (outcome : Except LoweringError Unit) :
    List FunctionDecl :=
  match outcome with
  | .error (.object (.duplicateDefinition _)) => declarations.take (succeeded.length + 1)
  | _ => succeeded

theorem listed_cons (first : FunctionDecl) (rest succeeded : List FunctionDecl)
    (outcome : Except LoweringError Unit) :
    listed (first :: rest) (first :: succeeded) outcome =
      first :: listed rest succeeded outcome := by
  unfold listed
  split <;> rfl

/-- Functions have some code: that of each is finished in the state after those before it,
and its listing is headed by its low-level name. -/
structure CodesOf (lowering : Lowering) (declarations : List FunctionDecl)
    (codes : List Ir.Function) : Prop where
  count : codes.length = declarations.length
  finished : ∀ before declaration after, declarations = before ++ declaration :: after →
    ∃ state finished next, functions before lowering = .ok () state ∧
      finish declaration state = .ok finished next ∧
      codes[before.length]? = some finished.code ∧
        ∃ rest, finished.code.listing = "function %" ++ declaration.lowLevelName ++ rest

theorem codesOf_nil (lowering : Lowering) : CodesOf lowering [] [] :=
  ⟨rfl, by simp⟩

theorem listing_of_finish {declaration : FunctionDecl} {lowering next : Lowering}
    {finished : Finished} (finishes : finish declaration lowering = .ok finished next) :
    ∃ rest, finished.code.listing = "function %" ++ declaration.lowLevelName ++ rest := by
  obtain ⟨-, -, -, ofBody⟩ := finishes_of_finish finishes
  unfold Ir.Function.listing
  rw [ofBody.begins.name]
  simp only [String.append_assoc]
  exact ⟨_, rfl⟩

theorem CodesOf.cons {lowering middle next : Lowering} {first : FunctionDecl}
    {rest : List FunctionDecl} {codes : List Ir.Function} {finished : Finished}
    (finishes : finish first lowering = .ok finished next)
    (lowered : function first lowering = .ok () middle) (ofRest : CodesOf middle rest codes) :
    CodesOf lowering (first :: rest) (finished.code :: codes) where
  count := congrArg Nat.succ ofRest.count
  finished := by
    refine forall_split_cons_iff.mpr ⟨?_, ?_⟩
    · exact ⟨lowering, finished, next, rfl, finishes, rfl, listing_of_finish finishes⟩
    · intro before declaration after same
      obtain ⟨state, ofState, left, succeeds, others⟩ :=
        ofRest.finished before declaration after same
      refine ⟨state, ofState, left, ?_, others⟩
      rw [functions_cons, bind_of_ok lowered]
      exact succeeds

theorem codesOf_singleton {lowering next : Lowering} {declaration : FunctionDecl}
    {finished : Finished} (finishes : finish declaration lowering = .ok finished next) :
    CodesOf lowering [declaration] [finished.code] where
  count := rfl
  finished := by
    refine forall_split_cons_iff.mpr ⟨?_, by simp⟩
    exact ⟨lowering, finished, next, rfl, finishes, rfl, listing_of_finish finishes⟩


section Runs

variable {lowering after : Lowering}

theorem recorded_of_finish {declaration : FunctionDecl} {finished : Finished}
    (finishes : finish declaration lowering = .ok finished after) :
    after.recorded = lowering.recorded := by
  rw [← left_of_ok finishes]
  exact leaves_recorded_finish declaration lowering

theorem recorded_of_function_eq_ok {declaration : FunctionDecl}
    (lowered : function declaration lowering = .ok () after) :
    ∃ finished next, finish declaration lowering = .ok finished next ∧
      after.recorded = lowering.recorded.push finished.code := by
  rw [function_eq] at lowered
  obtain ⟨finished, next, finishes, lowered⟩ := bind_eq_ok_iff.mp lowered
  refine ⟨finished, next, finishes, ?_⟩
  rcases settle_cases declaration finished next with
    settled | ⟨name, settled⟩ | ⟨functions, scopes, settled⟩
  · cases settled.symm.trans lowered
  · cases settled.symm.trans lowered
  · cases settled.symm.trans lowered
    rw [recorded_of_finish finishes]

/-- The code of a function that fails is recorded exactly if its name was defined before. -/
theorem recorded_of_function_eq_error {known : List Callable}
    (registered : Registered lowering known) {declaration : FunctionDecl}
    {failure : LoweringError} (fails : function declaration lowering = .error failure after) :
    ((∀ name, failure ≠ .object (.duplicateDefinition name)) ∧
        after.recorded = lowering.recorded) ∨
      ∃ name finished next, failure = .object (.duplicateDefinition name) ∧
        finish declaration lowering = .ok finished next ∧
          after.recorded = lowering.recorded.push finished.code := by
  rw [function_eq] at fails
  rcases bind_eq_error_iff.mp fails with fails | ⟨finished, next, finishes, fails⟩
  · -- What keeps code from being finished is a fault, and no fault is a second definition.
    left
    have isFirst := ((registered.reports_finish declaration).eq_error_iff failure).mp
      (by rw [fails]; rfl)
    have before := beforeCode_of_codeFaults failure (List.mem_of_head? isFirst)
    refine ⟨?_, ?_⟩
    · rintro name rfl
      cases before
    · rw [← left_of_error fails]
      exact leaves_recorded_finish declaration lowering
  · have sameRecord := recorded_of_finish finishes
    rcases settle_cases declaration finished next with
      settled | ⟨name, settled⟩ | ⟨functions, scopes, settled⟩
    · cases settled.symm.trans fails
      exact .inl ⟨nofun, sameRecord⟩
    · cases settled.symm.trans fails
      exact .inr ⟨name, finished, next, rfl, finishes, by rw [sameRecord]⟩
    · cases settled.symm.trans fails

/-- A run records the code of the functions that it lists. -/
theorem Attempts.recorded {declarations succeeded : List FunctionDecl}
    {outcome : Except LoweringError Unit}
    (attempts : Attempts lowering declarations succeeded outcome after) :
    ∀ {known}, Registered lowering known → ∃ codes,
      CodesOf lowering (listed declarations succeeded outcome) codes ∧
        after.recorded.toList = lowering.recorded.toList ++ codes := by
  induction attempts with
  | done lowering => exact fun _ => ⟨[], codesOf_nil lowering, (List.append_nil _).symm⟩
  | @fails lowering after first rest failure failed =>
      intro known registered
      rcases recorded_of_function_eq_error registered failed with
        ⟨isOther, sameRecord⟩ | ⟨name, finished, next, rfl, finishes, pushed⟩
      · have none : listed (first :: rest) [] (.error failure) = [] := by
          unfold listed
          split
          · rename_i name isError
            cases isError
            exact absurd rfl (isOther name)
          · rfl
        rw [none, sameRecord]
        exact ⟨[], codesOf_nil lowering, (List.append_nil _).symm⟩
      · refine ⟨[finished.code], codesOf_singleton finishes, ?_⟩
        rw [pushed, Array.toList_push]
  | @succeeds lowering middle after first rest succeeded outcome lowered _ inductionHypothesis =>
      intro known registered
      obtain ⟨finished, next, finishes, pushed⟩ := recorded_of_function_eq_ok lowered
      obtain ⟨-, callable, -, registeredMiddle⟩ :=
        registered.of_lowersFunction (function_eq_ok_iff.mp lowered)
      obtain ⟨codes, ofRest, recorded⟩ := inductionHypothesis registeredMiddle
      rw [listed_cons]
      refine ⟨finished.code :: codes, ofRest.cons finishes lowered, ?_⟩
      rw [recorded, pushed, Array.toList_push, List.append_assoc]
      rfl

end Runs

end Lower

/-! ## Further programs -/

namespace Lowering

def addPrograms (lowering : Lowering) : List Module → List (Except LoweringError Unit) × Lowering
  | [] => ([], lowering)
  | first :: rest =>
    let (outcome, middle) := lowering.addProgram first
    let (outcomes, after) := middle.addPrograms rest
    (outcome :: outcomes, after)

structure HasBuiltins (lowering : Lowering) : Prop where
  system : ∃ others, lowering.declarations.functions.toList =
    ⟨Builtin.systemPrint, .imported, Builtin.systemSignature lowering.target, false⟩ :: others
  format : lowering.declarations.data = #[⟨Builtin.formatName, .hidden, true⟩]

variable {lowering : Lowering}

theorem HasBuiltins.declareFunction_system (has : lowering.HasBuiltins) :
    lowering.declarations.declareFunction Builtin.systemPrint .imported
      (Builtin.systemSignature lowering.target) = .ok (0, lowering.declarations) := by
  obtain ⟨target, ⟨⟨functions⟩, data⟩, scopes, recorded, context⟩ := lowering
  obtain ⟨others, isFirst⟩ := has.system
  simp only at isFirst
  subst isFirst
  simp [Declarations.declareFunction, Declarations.findFunction?]

theorem HasBuiltins.defineData_format (has : lowering.HasBuiltins) :
    Lower.defineData Builtin.formatName lowering =
      .error (.object (.duplicateDefinition Builtin.formatName)) lowering := by
  obtain ⟨target, ⟨functions, data⟩, scopes, recorded, context⟩ := lowering
  have isFormat := has.format
  simp only at isFormat
  subst isFormat
  rfl

/-- A further program fails in the built-in function and changes nothing. -/
theorem HasBuiltins.addProgram_eq (has : lowering.HasBuiltins) (program : Module) :
    lowering.addProgram program =
      (.error (.object (.duplicateDefinition "print_arg_arg.format")), lowering) := by
  have declares : Lower.declareFunction Builtin.systemPrint .imported
      (Builtin.systemSignature lowering.target) lowering = .ok 0 lowering :=
    Lower.declareFunction_eq_ok_iff.mpr ⟨_, has.declareFunction_system, rfl⟩
  have fails : Lower.builtins lowering =
      .error (.object (.duplicateDefinition "print_arg_arg.format")) lowering := by
    unfold Lower.builtins Lower.builtinsOn
    rw [get_bind]
    exact (bind_of_ok declares).trans (bind_of_error has.defineData_format)
  have failsAtOnce : Lower.programOn .standard program lowering =
      .error (.object (.duplicateDefinition "print_arg_arg.format")) lowering := bind_of_error fails
  unfold addProgram addProgramOn
  rw [failsAtOnce]

theorem HasBuiltins.addPrograms_eq (has : lowering.HasBuiltins) (programs : List Module) :
    lowering.addPrograms programs =
      (programs.map fun _ => .error (.object (.duplicateDefinition "print_arg_arg.format")),
        lowering) := by
  induction programs with
  | nil => rfl
  | cons first rest inductionHypothesis =>
      rw [addPrograms, has.addProgram_eq first]
      dsimp only
      rw [inductionHypothesis]
      rfl

end Lowering

theorem Lower.hasBuiltins_functions (target : Target) (declarations : List FunctionDecl) :
    (left (functions declarations (.withBuiltins target))).HasBuiltins := by
  obtain ⟨succeeded, attempts⟩ := exists_attempts declarations (.withBuiltins target)
  obtain ⟨known, middle, failed, -, registered, abandons⟩ :=
    attempts.registered (.withBuiltins target)
  refine ⟨?_, leaves_data_functions declarations (.withBuiltins target)⟩
  rw [abandons.target]
  rcases abandons.functions with same | ⟨signature, pushed⟩
  · rw [same]
    exact ⟨_, registered.entries⟩
  · rw [pushed, Array.toList_push, registered.entries]
    exact ⟨_, rfl⟩

/-- Programs are lowered in turn.  Recorded is the code of the built-in function and of the
functions of the first program up to the one that fails, which is recorded too exactly if its
name was defined before; every further program fails with the same error and changes
nothing. -/
theorem addPrograms_record_what_was_reached {target : Target} {lowering : Lowering}
    (starts : Lowering.start target = .ok lowering) (first : Module) (others : List Module) :
    ∃ middle succeeded codes, Lower.builtins lowering = .ok () middle ∧
      Lower.Attempts middle first.functions succeeded (lowering.addProgram first).1
        (lowering.addProgram first).2 ∧
      Lower.CodesOf middle
        (Lower.listed first.functions succeeded (lowering.addProgram first).1) codes ∧
      (lowering.addPrograms (first :: others)).1 = (lowering.addProgram first).1 ::
        others.map (fun _ => .error (.object (.duplicateDefinition "print_arg_arg.format"))) ∧
      (lowering.addPrograms (first :: others)).2 = (lowering.addProgram first).2 ∧
      (lowering.addPrograms (first :: others)).2.ir =
        String.join ((Builtin.printCode target 0 :: codes).map fun code =>
          code.listing ++ "\n") := by
  have isRun := Lowering.addProgram_eq starts first
  obtain ⟨succeeded, attempts⟩ := Lower.exists_attempts first.functions (.withBuiltins target)
  obtain ⟨codes, ofListed, recorded⟩ := attempts.recorded (.withBuiltins target)
  have again := (Lower.hasBuiltins_functions target first.functions).addPrograms_eq others
  have inTurn : lowering.addPrograms (first :: others) =
      ((lowering.addProgram first).1 ::
        others.map (fun _ => .error (.object (.duplicateDefinition "print_arg_arg.format"))),
        (lowering.addProgram first).2) := by
    rw [Lowering.addPrograms, isRun]
    dsimp only
    rw [again]
  obtain ⟨-, rfl⟩ := Lowering.start_eq_ok_iff.mp starts
  refine ⟨_, succeeded, codes, Lower.builtins_eq target _, ?_, ?_, ?_, ?_, ?_⟩
  · rw [isRun]
    exact attempts
  · rw [isRun]
    exact ofListed
  · rw [inTurn]
  · rw [inTurn]
  · rw [inTurn, isRun, Lowering.ir, recorded]
    rfl

theorem addPrograms_record_what_was_reached_twice :
    let start : Lowering := .initial ⟨"x86_64", .systemV, .i64, .elf, true⟩
    let first : Module := ⟨[ignoredArgument, ignoredArgument, strayName]⟩
    Lowering.start start.target = .ok start ∧
      (start.addPrograms [first, ⟨[]⟩]).1 =
        [.error (.object (.duplicateDefinition "ignored_b")),
          .error (.object (.duplicateDefinition "print_arg_arg.format"))] ∧
      ∃ middle succeeded codes, Lower.builtins start = .ok () middle ∧
        Lower.Attempts middle first.functions succeeded
          (.error (.object (.duplicateDefinition "ignored_b"))) (start.addProgram first).2 ∧
        Lower.CodesOf middle (first.functions.take (succeeded.length + 1)) codes ∧
        (start.addPrograms [first, ⟨[]⟩]).2.ir =
          String.join ((Builtin.printCode start.target 0 :: codes).map fun code =>
            code.listing ++ "\n") := by
  intro start first
  have starts : Lowering.start start.target = .ok start := rfl
  have failed : (start.addProgram first).1 =
      .error (.object (.duplicateDefinition "ignored_b")) := by
    decide +kernel
  obtain ⟨middle, succeeded, codes, begins, attempts, ofListed, outcomes, -, listing⟩ :=
    addPrograms_record_what_was_reached starts first [⟨[]⟩]
  rw [failed] at attempts ofListed outcomes
  exact ⟨starts, outcomes, middle, succeeded, codes, begins, attempts, ofListed, listing⟩

end ScalarLang
