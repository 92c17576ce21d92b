import ScalarLang.Proofs.Lowering.Finished
import ScalarLang.Proofs.Typing.Fitting

/-!
# The first fault is reported

Lowering a part of a program fails with the first of its faults, and succeeds if there are
none.  The faults of two steps are those of the first and then those of the second, so each
step is compared with its own faults only.
-/

set_option autoImplicit false

namespace ScalarLang

open FunctionDecl

/-! ## Reports -/

/-- An outcome reports the first of some faults, and is a value if there are none. -/
inductive Reports {α : Type} : List LoweringError → Except LoweringError α → Prop where
  | nothing (value : α) : Reports [] (.ok value)
  | first (error : LoweringError) (others : List LoweringError) :
      Reports (error :: others) (.error error)

namespace Reports

variable {α : Type} {faults : List LoweringError} {outcome : Except LoweringError α}

theorem eq_error_iff (reports : Reports faults outcome) (error : LoweringError) :
    outcome = .error error ↔ faults.head? = some error := by
  cases reports with
  | nothing value => simp
  | first found others => simp

theorem exists_ok_iff (reports : Reports faults outcome) :
    (∃ value, outcome = .ok value) ↔ faults = [] := by
  cases reports with
  | nothing value => simp
  | first found others => simp

end Reports

theorem Reports.bind {α β : Type} {faults more : List LoweringError}
    {outcome : Except LoweringError α} {next : α → Except LoweringError β}
    (first : Reports faults outcome)
    (second : ∀ value, outcome = .ok value → Reports more (next value)) :
    Reports (faults ++ more) (outcome >>= next) := by
  cases first with
  | nothing value => exact second value rfl
  | first error others => exact .first error (others ++ more)

/-- What goes on without a failure reports no other faults. -/
theorem Reports.bind_total {α β : Type} {faults : List LoweringError}
    {outcome : Except LoweringError α} {next : α → Except LoweringError β}
    (first : Reports faults outcome) (total : ∀ value, ∃ result, next value = .ok result) :
    Reports faults (outcome >>= next) := by
  have reports : Reports (faults ++ []) (outcome >>= next) := by
    refine first.bind fun value _ => ?_
    obtain ⟨result, succeeds⟩ := total value
    rw [succeeds]
    exact .nothing result
  rwa [List.append_nil] at reports

namespace Build

variable {α β : Type} {faults more : List LoweringError} {code : Ir.Function}

theorem reports_bind {action : Build α} {next : α → Build β}
    (first : Reports faults (action code))
    (second : ∀ value middle, action code = .ok (value, middle) →
      Reports more (next value middle)) :
    Reports (faults ++ more) ((action >>= next) code) := by
  change Reports _ (action code >>= fun pair => next pair.1 pair.2)
  exact first.bind fun pair succeeds => second pair.1 pair.2 succeeds

theorem reports_bind_total {action : Build α} {next : α → Build β}
    (first : Reports faults (action code))
    (total : ∀ value middle, ∃ result, next value middle = .ok result) :
    Reports faults ((action >>= next) code) := by
  change Reports _ (action code >>= fun pair => next pair.1 pair.2)
  exact first.bind_total fun pair => total pair.1 pair.2

theorem reports_lift {outcome : Except LoweringError α} (reports : Reports faults outcome) :
    Reports faults ((liftM outcome : Build α) code) := by
  cases reports with
  | nothing value => exact .nothing (value, code)
  | first error others => exact .first error others

end Build

namespace Lower

variable {α β : Type} {faults more : List LoweringError} {lowering : Lowering}

theorem reports_bind {action : Lower α} {next : α → Lower β}
    (first : Reports faults (outcomeOf (action lowering)))
    (second : ∀ value middle, action lowering = .ok value middle →
      Reports more (outcomeOf (next value middle))) :
    Reports (faults ++ more) (outcomeOf ((action >>= next) lowering)) := by
  cases outcome : action lowering with
  | ok value middle =>
      rw [outcome] at first
      rw [bind_of_ok outcome]
      cases first
      exact second value middle outcome
  | error failure middle =>
      rw [outcome] at first
      rw [bind_of_error outcome]
      cases first
      exact .first failure _

theorem reports_bind_total {action : Lower α} {next : α → Lower β}
    (first : Reports faults (outcomeOf (action lowering)))
    (total : ∀ value middle, ∃ result after, next value middle = .ok result after) :
    Reports faults (outcomeOf ((action >>= next) lowering)) := by
  have reports : Reports (faults ++ []) (outcomeOf ((action >>= next) lowering)) := by
    refine reports_bind first fun value middle _ => ?_
    obtain ⟨result, after, succeeds⟩ := total value middle
    rw [succeeds]
    exact .nothing result
  rwa [List.append_nil] at reports

theorem reports_ofExcept {outcome : Except LoweringError α} (reports : Reports faults outcome) :
    Reports faults (outcomeOf (ofExcept outcome lowering)) := by
  cases reports with
  | nothing value => exact .nothing value
  | first error others => exact .first error others

end Lower

/-! ## Types and labels -/

theorem reports_ofPath (path : TypePath) : Reports path.faults (ScalarType.ofPath path) := by
  unfold TypePath.faults TypePath.scalar? ScalarType.ofPath
  cases path.inner with
  | nil =>
      cases ScalarType.ofName? path.head.name with
      | none => exact .first _ []
      | some type => exact .nothing type
  | cons first rest => exact .first _ []

theorem reports_ofParameters (parameters : List Parameter) :
    Reports (parameters.flatMap fun parameter => parameter.type.faults)
      (ScalarType.ofParameters parameters) := by
  induction parameters with
  | nil => exact .nothing []
  | cons first rest inductionHypothesis =>
      have isBind : ScalarType.ofParameters (first :: rest) =
          ScalarType.ofPath first.type >>= fun type =>
            ScalarType.ofParameters rest >>= fun types => .ok (type :: types) := by
        rw [ScalarType.ofParameters]
        cases ScalarType.ofPath first.type with
        | error failure => rfl
        | ok type => cases ScalarType.ofParameters rest <;> rfl
      rw [isBind, List.flatMap_cons]
      refine (reports_ofPath first.type).bind fun type _ => ?_
      exact inductionHypothesis.bind_total fun types => ⟨type :: types, rfl⟩

theorem reports_ofResult (path? : Option TypePath) :
    Reports (path?.toList.flatMap TypePath.faults) (ScalarType.ofResult path?) := by
  cases path? with
  | none => exact .nothing none
  | some path =>
      have isBind : ScalarType.ofResult (some path) =
          ScalarType.ofPath path >>= fun type => .ok (some type) := by
        rw [ScalarType.ofResult]
        cases ScalarType.ofPath path <;> rfl
      rw [isBind, Option.toList_some, List.flatMap_singleton]
      exact (reports_ofPath path).bind_total fun type => ⟨some type, rfl⟩

theorem reports_checkLabels (callee : FunctionDecl) (name : Ident)
    (arguments : List CallArgument) :
    Reports (callee.labelFaults name arguments) (checkLabels callee name arguments) := by
  unfold labelFaults checkLabels
  split
  · rw [← List.head?_filter]
    generalize (callee.parameters.zip arguments).filter
      (fun pair => pair.1.name.name != pair.2.label.name) = pairs
    cases pairs with
    | nil => exact .nothing ()
    | cons first rest => exact .first _ _
  · exact .first _ []

/-! ## Expressions -/

section Expressions

variable {scopes : ScopeTable Binding} {target : Target} {available : List FunctionDecl}
  {parameters : List (String × ScalarType)}

theorem NamesKnown.reports_resolveCall (names : NamesKnown scopes target available parameters)
    (name : Ident) (arguments : List CallArgument) (span : Span) :
    Reports (callFaults available name arguments span)
      (resolveCall scopes name arguments span) := by
  unfold callFaults
  cases isCalled : called? available name arguments with
  | none =>
      rw [names.resolveCall_of_unknown isCalled]
      exact .first _ []
  | some callee =>
      obtain ⟨number, isBind⟩ := names.resolveCall_of_called isCalled span
      rw [isBind]
      exact (reports_checkLabels callee name arguments).bind_total fun _ => ⟨_, rfl⟩

theorem NamesKnown.type_of_value (names : NamesKnown scopes target available parameters)
    {expr : Expr} {span : Span} {code after : Ir.Function} {operand : Operand}
    (succeeds : Build.value span (lowerExpr scopes expr) code = .ok (operand, after)) :
    ∃ type, expr.type? available parameters = some type ∧ type.lowered = operand.type := by
  obtain ⟨insts, emits⟩ := lowerExpr_eq_ok_iff.mp (Build.value_eq_ok_iff.mp succeeds)
  exact Option.map_eq_some_iff.mp (emits.typed names).symm

theorem NamesKnown.reports_value (names : NamesKnown scopes target available parameters)
    {expr : Expr} {code : Ir.Function} {faults : List LoweringError}
    (reports : Reports faults (lowerExpr scopes expr code)) :
    Reports (faults ++ expr.voidFaults available parameters)
      (Build.value expr.span (lowerExpr scopes expr) code) := by
  refine Build.reports_bind reports fun operand? middle succeeds => ?_
  obtain ⟨insts, emits⟩ := lowerExpr_eq_ok_iff.mp succeeds
  have typed : operand?.map Operand.type =
      (expr.type? available parameters).map ScalarType.lowered := emits.typed names
  unfold Expr.voidFaults
  cases operand? with
  | none =>
      rw [Option.map_eq_none_iff.mp typed.symm]
      exact .first _ []
  | some operand =>
      obtain ⟨type, isType, -⟩ := Option.map_eq_some_iff.mp typed.symm
      rw [isType]
      exact .nothing _

def ExpressionReports (scopes : ScopeTable Binding) (available : List FunctionDecl)
    (parameters : List (String × ScalarType)) (expr : Expr) : Prop :=
  ∀ code, Reports (expr.faults available parameters) (lowerExpr scopes expr code)

theorem NamesKnown.reports_lowerArguments
    (names : NamesKnown scopes target available parameters) {arguments : List CallArgument}
    (each : ∀ argument ∈ arguments,
      ExpressionReports scopes available parameters argument.value) :
    ∀ code, Reports (argumentsFaults available parameters arguments)
      (lowerArguments scopes arguments code) := by
  induction arguments with
  | nil => exact fun code => .nothing ([], code)
  | cons first rest inductionHypothesis =>
      intro code
      obtain ⟨label, value⟩ := first
      obtain ⟨ofFirst, ofRest⟩ := List.forall_mem_cons.mp each
      rw [argumentsFaults, lowerArguments]
      refine Build.reports_bind (names.reports_value (ofFirst code)) fun operand middle _ => ?_
      exact Build.reports_bind_total (inductionHypothesis ofRest middle) fun _ _ => ⟨_, rfl⟩

theorem reports_lowerStatements {statements : List Expr}
    (each : ∀ statement ∈ statements, ExpressionReports scopes available parameters statement) :
    ∀ code, Reports (statementsFaults available parameters statements)
      (lowerStatements scopes statements code) := by
  induction statements with
  | nil => exact fun code => .nothing ((), code)
  | cons first rest inductionHypothesis =>
      intro code
      obtain ⟨ofFirst, ofRest⟩ := List.forall_mem_cons.mp each
      rw [statementsFaults, lowerStatements]
      exact Build.reports_bind (ofFirst code) fun _ middle _ => inductionHypothesis ofRest middle

theorem NamesKnown.reports_lowerExpr (names : NamesKnown scopes target available parameters)
    (expr : Expr) : ExpressionReports scopes available parameters expr := by
  induction expr using Expr.induction with
  | literal value span => exact fun code => .nothing _
  | identifier name span =>
      intro code
      rw [Expr.faults, nameFaults, lowerExpr]
      cases isParameter : parameters.reverse.lookup name with
      | some type =>
          obtain ⟨slot, bound⟩ := names.parameter isParameter
          rw [bound]
          exact .nothing _
      | none =>
          cases isNamed : named? available name with
          | some declaration =>
              obtain ⟨_, _, _, bound⟩ := names.function isParameter (by rw [isNamed]; rfl)
              rw [bound]
              exact .first _ []
          | none =>
              rw [names.unknown isParameter isNamed]
              exact .first _ []
  | unary op operand span ofOperand =>
      intro code
      rw [Expr.faults, lowerExpr]
      refine Build.reports_bind (names.reports_value (ofOperand code)) ?_
      intro found middle lowered
      obtain ⟨type, isType, isLowered⟩ := names.type_of_value lowered
      rw [isType, UnaryOp.faults, ← isLowered]
      by_cases supported : op.supports type = true
      · obtain ⟨selected, selects⟩ := (UnaryOp.supports_iff found.value).mp supported
        rw [selects, if_pos supported]
        exact .nothing _
      · cases selects : op.select? type.lowered found.value with
        | some selected => exact absurd ((UnaryOp.supports_iff _).mpr ⟨_, selects⟩) supported
        | none =>
            rw [if_neg supported]
            exact .first _ []
  | binary op lhs rhs span ofLeft ofRight =>
      intro code
      rw [Expr.faults, lowerExpr]
      refine Build.reports_bind (names.reports_value (ofLeft code)) fun left middle lowered => ?_
      obtain ⟨type, isType, isLowered⟩ := names.type_of_value lowered
      refine Build.reports_bind (names.reports_value (ofRight middle))
        fun right last loweredRight => ?_
      obtain ⟨other, isOther, isLoweredOther⟩ := names.type_of_value loweredRight
      rw [isType, isOther, BinaryOp.faults, ← isLowered, ← isLoweredOther]
      -- The types are compared lowered, and different types stay different when lowered.
      by_cases same : type = other
      · subst same
        rw [if_pos rfl, if_pos rfl]
        cases selects : op.select? type.lowered left.value right.value with
        | some pair =>
            obtain ⟨result, supported, -⟩ := BinaryOp.exists_resultType? selects
            rw [supported]
            exact .nothing _
        | none =>
            cases supported : op.resultType? type with
            | some result =>
                obtain ⟨selected, selects'⟩ :=
                  (BinaryOp.resultType?_eq_some_iff left.value right.value).mp supported
                cases selects.symm.trans selects'
            | none => exact .first _ []
      · have different : type.lowered ≠ other.lowered :=
          fun equal => same (ScalarType.lowered_injective equal)
        rw [if_neg same, if_neg different]
        exact .first _ []
  | call name arguments children span ofArguments ofChildren =>
      intro code
      rw [Expr.faults, lowerExpr]
      refine Build.reports_bind (Build.reports_lift (names.reports_resolveCall name arguments span))
        fun callee middle _ => ?_
      refine Build.reports_bind (names.reports_lowerArguments ofArguments middle)
        fun values last _ => ?_
      have ofLines : Reports (childrenFaults available parameters children)
          (lowerChildren scopes children last) := by
        cases children with
        | none => exact .nothing ((), last)
        | some list => exact reports_lowerStatements ofChildren last
      exact Build.reports_bind_total ofLines fun _ _ => ⟨_, rfl⟩
  | conditional condition thenBlock elseBlock span _ _ _ =>
      intro code
      rw [Expr.faults, lowerExpr]
      exact .first _ []

end Expressions

/-! ## Declarations and definitions -/

namespace Registered

variable {lowering : Lowering} {before : List Callable}

/-- The entry of a known function in the object. -/
theorem exists_entry (registered : Registered lowering before) {callable : Callable}
    (isKnown : callable ∈ Callable.print lowering.target :: before) :
    ∃ entry number, lowering.declarations.findFunction? callable.name = some (entry, number) ∧
      lowering.declarations.functions[number]? = some entry ∧ entry.name = callable.name ∧
      entry.signature = callable.signature ∧ entry.defined = true := by
  cases found : lowering.declarations.findFunction? callable.name with
  | none =>
      have fresh := (registered.fresh_iff callable.declaration).mp found
      exact absurd (List.mem_map_of_mem isKnown) fresh
  | some pair =>
      obtain ⟨entry, number⟩ := pair
      obtain ⟨stands, isName⟩ := Declarations.findFunction?_eq_some found
      have member : entry ∈ lowering.declarations.functions.toList := by
        simpa using Array.mem_of_getElem? stands
      have ofCallable : ∃ other ∈ Callable.print lowering.target :: before,
          other.name = entry.name ∧ other.signature = entry.signature ∧ entry.defined = true := by
        rw [registered.entries] at member
        simp only [List.mem_cons, List.mem_map] at member
        rcases member with rfl | rfl | ⟨other, isOther, rfl⟩
        · exact absurd isName.symm (lowLevelName_ne_systemPrint callable.declaration)
        · exact ⟨Callable.print lowering.target, List.mem_cons_self, rfl, rfl, rfl⟩
        · exact ⟨other, List.mem_cons_of_mem _ isOther, rfl, rfl, rfl⟩
      obtain ⟨other, isOther, sameName, sameSignature, isDefined⟩ := ofCallable
      have same := registered.eq_of_name_eq isOther isKnown (sameName.trans isName)
      subst same
      exact ⟨entry, number, rfl, stands, isName, sameSignature.symm, isDefined⟩

variable {function : FunctionDecl}

theorem findFunction?_of_unnamed (registered : Registered lowering before)
    (isUnnamed : named? ((Callable.print lowering.target :: before).map Callable.declaration)
      function.lowLevelName = none) :
    lowering.declarations.findFunction? function.lowLevelName = none := by
  rw [registered.fresh_iff]
  intro member
  obtain ⟨callable, isKnown, isName⟩ := List.mem_map.mp member
  cases isUnnamed.symm.trans (registered.named?_eq_some_iff.mpr ⟨callable, isKnown, isName, rfl⟩)

theorem reports_declareFunction (registered : Registered lowering before)
    (context : Ir.Function) :
    Reports (function.clashFaults lowering.target
        ((Callable.print lowering.target :: before).map Callable.declaration))
      (Lower.outcomeOf (Lower.declareFunction function.lowLevelName .exported
        (function.signatureFor lowering.target) { lowering with context })) := by
  unfold clashFaults Lower.declareFunction Lower.declareFunctionOn
  rw [BackEnd.standard_declareFunction]
  unfold Declarations.declareFunction
  cases isNamed : named? ((Callable.print lowering.target :: before).map Callable.declaration)
      function.lowLevelName with
  | none =>
      rw [registered.findFunction?_of_unnamed isNamed]
      exact .nothing _
  | some previous =>
      obtain ⟨callable, isKnown, isName, rfl⟩ := registered.named?_eq_some_iff.mp isNamed
      obtain ⟨entry, number, found, -, -, isSignature, -⟩ := registered.exists_entry isKnown
      rw [isName] at found
      rw [found]
      dsimp only
      rw [isSignature, ← registered.signature_eq isKnown]
      by_cases same : callable.signature = function.signatureFor lowering.target
      · rw [if_pos same, if_pos same]
        exact .nothing _
      · rw [if_neg same, if_neg same]
        exact .first _ []

theorem reports_defineFunction (registered : Registered lowering before) {number : Nat}
    {declared : Declarations} {code context : Ir.Function}
    (declares : lowering.declarations.declareFunction function.lowLevelName .exported
      (function.signatureFor lowering.target) = .ok (number, declared)) :
    Reports ((if code.check then [] else [.illFormed]) ++
        function.duplicateFaults
          ((Callable.print lowering.target :: before).map Callable.declaration))
      (Lower.outcomeOf (Lower.defineFunction number code
        { lowering with declarations := declared, context })) := by
  unfold Lower.defineFunction Lower.defineFunctionOn duplicateFaults
  rw [BackEnd.standard_verify, BackEnd.standard_defineFunction]
  by_cases checked : code.check = true
  · rw [if_pos checked, if_pos checked, List.nil_append]
    dsimp only
    cases isNamed : named? ((Callable.print lowering.target :: before).map Callable.declaration)
        function.lowLevelName with
    | none =>
        rw [declareFunction_of_fresh (registered.findFunction?_of_unnamed isNamed)] at declares
        cases declares
        rw [defineFunction_of_declared _ _ _ rfl]
        exact .nothing _
    | some previous =>
        obtain ⟨callable, isKnown, isName, rfl⟩ := registered.named?_eq_some_iff.mp isNamed
        obtain ⟨entry, found, finds, stands, isEntryName, -, isDefined⟩ :=
          registered.exists_entry isKnown
        rw [isName] at finds isEntryName
        simp only [Declarations.declareFunction, finds] at declares
        split at declares
        · cases declares
          simp only [Declarations.defineFunction, stands, isDefined, if_true, isEntryName]
          exact .first _ []
        · cases declares
  · rw [if_neg checked, if_neg checked]
    exact .first _ _

end Registered

/-! ## Bodies -/

namespace Lower

variable {α : Type} {lowering : Lowering}

theorem StaysInside.outcomeOf_inScope {action : Lower α} (stays : StaysInside action)
    (lowering : Lowering) : outcomeOf (Lower.inScope action lowering) =
      outcomeOf (action { lowering with scopes := lowering.scopes.enter }) := by
  have inside := stays { lowering with scopes := lowering.scopes.enter }
  unfold Lower.inScope
  generalize action _ = outcome at inside ⊢
  have exits := inside.exit
  rw [ScopeTable.exit_enter] at exits
  cases outcome with
  | ok value after =>
      simp only [left] at exits
      simp only [leaveScope, exits, outcomeOf]
  | error failure after =>
      simp only [left] at exits
      simp only [leaveScope, exits, outcomeOf]

theorem reports_build {faults : List LoweringError} {code : Ir.Function}
    {step : ScopeTable Binding → Build α} (reports : Reports faults (step lowering.scopes code)) :
    Reports faults (outcomeOf (build code step lowering)) :=
  reports_ofExcept reports

variable {target : Target} {available : List FunctionDecl} {declaration : FunctionDecl}

theorem reports_blockStatements {block : Block} {parameters : List (String × ScalarType)}
    (names : NamesKnown lowering.scopes target available parameters) (code : Ir.Function) :
    Reports (statementsFaults available parameters block.statements)
      (outcomeOf (blockStatements block code lowering)) := by
  -- A scope without names of its own changes no look-up.
  have inner : NamesKnown lowering.scopes.enter target available parameters :=
    ⟨names.parameter, names.function, names.unknown, names.callee, names.noCallee,
      names.typesKnown⟩
  unfold blockStatements
  rw [StaysInside.outcomeOf_inScope]
  · refine reports_bind_total (reports_build ?_) fun _ _ => ⟨_, _, rfl⟩
    exact reports_lowerStatements (fun statement _ => inner.reports_lowerExpr statement) code
  · exact (staysInside_build _ _).bind fun _ => staysInside_pure _

theorem reports_functionResult
    (names : NamesKnown lowering.scopes target available declaration.typedParameters)
    (code : Ir.Function) :
    Reports (declaration.presenceFaults ++ declaration.resultFaults available)
      (outcomeOf (functionResult declaration code lowering)) := by
  unfold presenceFaults resultFaults functionResult
  cases declaration.resultType with
  | none =>
      cases declaration.body.result with
      | none => exact .nothing _
      | some result => exact .first _ _
  | some path =>
      cases declaration.body.result with
      | none => exact .first _ _
      | some result =>
          refine reports_bind_total (reports_build ?_) fun _ _ => ⟨_, _, rfl⟩
          exact names.reports_value (names.reports_lowerExpr result code)

theorem reports_inScope_functionBody (lowering : Lowering)
    (names : NamesKnown (bindParameters (declaration.parameters.zip declaration.parameterTypes) 0
      lowering.scopes.enter) target available declaration.typedParameters)
    (name : String) (signature : Ir.Signature) :
    Reports (statementsFaults available declaration.typedParameters declaration.body.statements ++
        (declaration.presenceFaults ++ declaration.resultFaults available))
      (outcomeOf (inScope (functionBody declaration declaration.parameterTypes
        (.start name signature)) lowering)) := by
  rw [(staysInside_functionBody _ _ _).outcomeOf_inScope]
  unfold functionBody
  rw [bind_of_ok (storeParameters_eq _ _ _ _)]
  refine reports_bind (reports_blockStatements names _) fun extended middle lowered => ?_
  obtain ⟨-, rfl⟩ := blockStatements_eq_ok_iff.mp lowered
  exact reports_functionResult names extended

end Lower

/-! ## Functions and programs -/

section Functions

variable {lowering : Lowering} {before : List Callable}

theorem Registered.reports_finish (registered : Registered lowering before)
    (function : FunctionDecl) :
    Reports (function.codeFaults lowering.target
        ((Callable.print lowering.target :: before).map Callable.declaration))
      (Lower.outcomeOf (Lower.finish function lowering)) := by
  unfold FunctionDecl.codeFaults Lower.finish
  refine Lower.reports_bind (Lower.reports_ofExcept (reports_ofParameters _)) ?_
  intro types middle ofTypes
  obtain ⟨typesResolved, rfl⟩ := Lower.ofExcept_eq_ok_iff.mp ofTypes
  have denoteParameters := ScalarType.ofParameters_eq_ok_iff.mp typesResolved
  obtain rfl := parameterTypes_eq denoteParameters
  refine Lower.reports_bind (Lower.reports_ofExcept (reports_ofResult _)) ?_
  intro result middle ofResult
  obtain ⟨resultResolved, rfl⟩ := Lower.ofExcept_eq_ok_iff.mp ofResult
  obtain rfl := scalarResult?_eq (ScalarType.ofResult_eq_ok_iff.mp resultResolved)
  rw [Lower.clearContext_bind, Lower.signContext_bind, get_bind]
  dsimp only
  rw [Ir.Function.signature_sign_cleared]
  refine Lower.reports_bind (registered.reports_declareFunction _) ?_
  intro number middle declaring
  obtain ⟨declared, declares, rfl⟩ := Lower.declareFunction_eq_ok_iff.mp declaring
  rw [Lower.openContext_bind, get_bind]
  dsimp only
  rw [Ir.Function.openBlock_sign_cleared]
  refine Lower.reports_bind_total ?_ fun _ _ => ⟨_, _, rfl⟩
  apply Lower.reports_inScope_functionBody
  exact registered.namesKnown denoteParameters.length_eq

theorem Registered.reports_function (registered : Registered lowering before)
    (function : FunctionDecl) :
    Reports (function.faults lowering.target
        ((Callable.print lowering.target :: before).map Callable.declaration))
      (Lower.outcomeOf (Lower.function function lowering)) := by
  rw [FunctionDecl.faults, Lower.function_eq]
  refine Lower.reports_bind (registered.reports_finish function) ?_
  intro finished middle succeeds
  obtain ⟨denoteParameters, denoteResult, declares, ofBody⟩ := Lower.finishes_of_finish succeeds
  refine Lower.reports_bind_total ?_ fun _ _ => ⟨_, _, rfl⟩
  rw [misfitFaults, ← registered.check_eq_fits denoteParameters denoteResult ofBody]
  obtain rfl := parameterTypes_eq denoteParameters
  obtain rfl := scalarResult?_eq denoteResult
  exact registered.reports_defineFunction declares

theorem reports_functions (functions : List FunctionDecl) :
    ∀ {lowering before}, Registered lowering before →
      Reports (functionsFaults lowering.target
          ((Callable.print lowering.target :: before).map Callable.declaration) functions)
        (Lower.outcomeOf (Lower.functions functions lowering)) := by
  induction functions with
  | nil => exact fun _ => .nothing ()
  | cons first rest inductionHypothesis =>
      intro lowering before registered
      refine Lower.reports_bind (registered.reports_function first) ?_
      intro _ middle lowered
      obtain ⟨sameTarget, callable, rfl, registeredAfter⟩ :=
        registered.of_lowersFunction (Lower.function_eq_ok_iff.mp lowered)
      have reports := inductionHypothesis registeredAfter
      rwa [sameTarget, ← List.cons_append, List.map_append] at reports

end Functions

theorem Module.reports_addProgram (program : Module) {target : Target} {lowering : Lowering}
    (starts : Lowering.start target = .ok lowering) :
    Reports (program.faults target) (lowering.addProgram program).1 := by
  rw [Lowering.addProgram_eq starts program]
  exact reports_functions program.functions (.withBuiltins target)

theorem Module.reports_compile (program : Module) {target : Target} {lowering : Lowering}
    (starts : Lowering.start target = .ok lowering) (name : String) :
    Reports (program.faults target) (program.compile target name) := by
  have reports := program.reports_addProgram starts
  unfold Module.compile Module.compileOn
  rw [starts]
  dsimp only
  rw [Lowering.addProgramOn_standard]
  generalize program.faults target = faults at reports ⊢
  generalize lowering.addProgram program = added at reports ⊢
  obtain ⟨outcome, after⟩ := added
  cases reports with
  | nothing value => exact .nothing _
  | first error others => exact .first error others

/-- For a target that lowering can start with, a program is rejected with the first of its
faults and with nothing else, and it is compiled if it has none. -/
theorem compile_reports_first_fault (program : Module) {target : Target} {lowering : Lowering}
    (starts : Lowering.start target = .ok lowering) (name : String) :
    (∀ error, program.compile target name = .error error ↔
        (program.faults target).head? = some error) ∧
      ((∃ compiled, program.compile target name = .ok compiled) ↔ program.faults target = []) := by
  have reports := program.reports_compile starts name
  exact ⟨reports.eq_error_iff, reports.exists_ok_iff⟩

def faultyFunction : FunctionDecl where
  name := ⟨"faulty", ⟨3, 9⟩⟩
  parameters := [⟨⟨"a", ⟨10, 11⟩⟩, .simple ⟨"Int", ⟨13, 16⟩⟩⟩]
  resultType := some (.simple ⟨"Float", ⟨21, 26⟩⟩)
  body :=
    { statements :=
        [.binary .add (.identifier "a" ⟨30, 31⟩)
          (.binary .sub (.literal (.float ⟨0⟩) ⟨35, 38⟩) (.identifier "b" ⟨41, 42⟩) ⟨35, 42⟩)
          ⟨30, 42⟩,
        .call ⟨"other", ⟨44, 49⟩⟩ [] none ⟨44, 51⟩]
      result := none }

theorem compile_reports_first_fault_faulty :
    let target : Target := ⟨"x86_64", .systemV, .i64, .elf, true⟩
    let program : Module := ⟨[ignoredArgument, faultyFunction]⟩
    ∃ lowering, Lowering.start target = .ok lowering ∧
      program.faults target = [.variableNotDefined "b" ⟨41, 42⟩, .voidValue ⟨41, 42⟩,
        .operandMismatch "+" .i64 .f64 ⟨30, 42⟩, .functionNotDefined "other" "other_" ⟨44, 51⟩,
        .missingResult ⟨"faulty", ⟨3, 9⟩⟩] ∧
      program.compile target "faulty" = .error (.variableNotDefined "b" ⟨41, 42⟩) := by
  intro target program
  have starts : Lowering.start target = .ok (.initial target) := rfl
  have faults : program.faults target =
      [.variableNotDefined "b" ⟨41, 42⟩, .voidValue ⟨41, 42⟩,
        .operandMismatch "+" .i64 .f64 ⟨30, 42⟩, .functionNotDefined "other" "other_" ⟨44, 51⟩,
        .missingResult ⟨"faulty", ⟨3, 9⟩⟩] := by
    decide +kernel
  refine ⟨_, starts, faults, ?_⟩
  rw [(compile_reports_first_fault program starts "faulty").1, faults]
  rfl

end ScalarLang
