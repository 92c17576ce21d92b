import ScalarLang.Compiler.Basic
import ScalarLang.Proofs.Outcome
import ScalarLang.Proofs.Reading.Spans

/-!
# Where errors of lowering are

An error of lowering that is about the text of a program has a span, and it is a span of
the program: of an expression, of the name or a label of a call, of the name of a function
or of a type.  Scopes are always left in the order they were entered, so the error that
they are not never comes up.
-/

set_option autoImplicit false

namespace ScalarLang

variable {α β : Type} {Holds : Span → Prop}

/-! ## Errors about the text -/

/-- An error is about the text of a program, and not about the target, the object or the
finished code. -/
def LoweringError.FromText : LoweringError → Prop
  | .unsupportedArchitecture _ => False
  | .object _ => False
  | .illFormed => False
  | _ => True

def LoweringError.Located (Holds : Span → Prop) (error : LoweringError) : Prop :=
  error.FromText → ∃ span, error.span? = some span ∧ Holds span

theorem LoweringError.located_of_span {error : LoweringError} {span : Span}
    (isSpan : error.span? = some span) (holds : Holds span) : error.Located Holds :=
  fun _ => ⟨span, isSpan, holds⟩

def Blames (Holds : Span → Prop) (outcome : Except LoweringError α) : Prop :=
  ∀ error, outcome = .error error → error.Located Holds

theorem blames_ok (value : α) : Blames Holds (.ok value) := fun _ fails => nomatch fails

theorem blames_error {error : LoweringError} (located : error.Located Holds) :
    Blames Holds (.error error : Except LoweringError α) := by
  intro other fails
  cases fails
  exact located

theorem blames_at {error : LoweringError} {span : Span} (isSpan : error.span? = some span)
    (holds : Holds span) : Blames Holds (.error error : Except LoweringError α) :=
  blames_error (LoweringError.located_of_span isSpan holds)

/-! ## Types -/

theorem blames_ofPath {path : TypePath} (holds : Holds path.span) :
    Blames Holds (ScalarType.ofPath path) := by
  unfold ScalarType.ofPath
  split
  · exact blames_ok _
  · exact blames_at rfl holds

theorem blames_ofParameters {parameters : List Parameter}
    (holds : ∀ parameter ∈ parameters, Holds parameter.type.span) :
    Blames Holds (ScalarType.ofParameters parameters) := by
  induction parameters with
  | nil => exact blames_ok _
  | cons first rest inductionHypothesis =>
      obtain ⟨ofFirst, ofRest⟩ := List.forall_mem_cons.mp holds
      have blames := blames_ofPath ofFirst
      have blamesRest := inductionHypothesis ofRest
      unfold ScalarType.ofParameters
      cases outcome : ScalarType.ofPath first.type with
      | error failure => exact blames_error (blames failure outcome)
      | ok type =>
          cases outcomeRest : ScalarType.ofParameters rest with
          | error failure => exact blames_error (blamesRest failure outcomeRest)
          | ok types => exact blames_ok _

theorem blames_ofResult {path? : Option TypePath} (holds : ∀ path ∈ path?, Holds path.span) :
    Blames Holds (ScalarType.ofResult path?) := by
  cases path? with
  | none => exact blames_ok _
  | some path =>
      have blames := blames_ofPath (holds path rfl)
      unfold ScalarType.ofResult
      dsimp only
      cases outcome : ScalarType.ofPath path with
      | error failure => exact blames_error (blames failure outcome)
      | ok type => exact blames_ok _

/-! ## Calls -/

theorem blames_checkLabels (function : FunctionDecl) {name : Ident}
    {arguments : List CallArgument} (ofName : Holds name.span)
    (ofLabels : ∀ argument ∈ arguments, Holds argument.label.span) :
    Blames Holds (checkLabels function name arguments) := by
  unfold checkLabels
  split
  · split
    · rename_i parameter argument found
      have isPair := List.mem_of_find?_eq_some found
      exact blames_at rfl (ofLabels argument (List.of_mem_zip isPair).2)
    · exact blames_ok _
  · exact blames_at rfl ofName

theorem blames_resolveCall (scopes : ScopeTable Binding) {name : Ident}
    {arguments : List CallArgument} {span : Span} (holds : Holds span) (ofName : Holds name.span)
    (ofLabels : ∀ argument ∈ arguments, Holds argument.label.span) :
    Blames Holds (resolveCall scopes name arguments span) := by
  unfold resolveCall
  dsimp only
  split
  · rename_i declaration number signature found
    have blames := blames_checkLabels declaration ofName ofLabels
    cases outcome : checkLabels declaration name arguments with
    | error failure => exact blames_error (blames failure outcome)
    | ok done => exact blames_ok _
  · exact blames_at rfl holds

/-! ## Expressions -/

namespace Build

def Blames (Holds : Span → Prop) (action : Build α) : Prop :=
  ∀ code, ScalarLang.Blames Holds (action code)

theorem blames_pure (value : α) : Blames Holds (pure value) := fun _ => blames_ok _

theorem blames_throw {error : LoweringError} {span : Span} (isSpan : error.span? = some span)
    (holds : Holds span) : Blames Holds (throw error : Build α) :=
  fun _ => blames_at isSpan holds

theorem blames_lift {outcome : Except LoweringError α} (blames : ScalarLang.Blames Holds outcome) :
    Blames Holds (liftM outcome : Build α) := by
  intro code
  cases outcome with
  | error failure => exact blames_error (blames failure rfl)
  | ok value => exact blames_ok _

/-- An instruction whose result is the value of an expression. -/
theorem blames_define (type : Ir.Ty) (op : Ir.Op) :
    Blames Holds (do return some (← define type op)) :=
  fun _ => blames_ok _

theorem blames_call (number : Nat) (signature : Ir.Signature) (arguments : List Ir.Value) :
    Blames Holds (call number signature arguments) :=
  fun _ => blames_ok _

theorem Blames.bind {action : Build α} {next : α → Build β} (first : Blames Holds action)
    (second : ∀ value, Blames Holds (next value)) : Blames Holds (action >>= next) := by
  intro code
  change ScalarLang.Blames Holds (action code >>= fun pair => next pair.1 pair.2)
  cases outcome : action code with
  | error failure => exact blames_error (first code failure outcome)
  | ok pair => exact second pair.1 pair.2

theorem Blames.value {action : Build (Option Operand)} (blames : Blames Holds action)
    {span : Span} (holds : Holds span) : Blames Holds (value span action) := by
  refine blames.bind fun operand? => ?_
  cases operand? with
  | none => exact blames_throw rfl holds
  | some operand => exact blames_pure operand

end Build

section Expressions

variable {scopes : ScopeTable Binding}

def ExpressionBlames (Holds : Span → Prop) (scopes : ScopeTable Binding) (expr : Expr) : Prop :=
  expr.AllSpans Holds → Build.Blames Holds (lowerExpr scopes expr)

theorem blames_lowerArguments {arguments : List CallArgument}
    (each : ∀ argument ∈ arguments, ExpressionBlames Holds scopes argument.value)
    (all : ∀ argument ∈ arguments, argument.value.AllSpans Holds) :
    Build.Blames Holds (lowerArguments scopes arguments) := by
  induction arguments with
  | nil => exact Build.blames_pure []
  | cons first rest inductionHypothesis =>
      obtain ⟨label, value⟩ := first
      obtain ⟨ofFirst, ofRest⟩ := List.forall_mem_cons.mp each
      obtain ⟨allFirst, allRest⟩ := List.forall_mem_cons.mp all
      rw [lowerArguments]
      refine ((ofFirst allFirst).value allFirst.span).bind fun operand => ?_
      exact (inductionHypothesis ofRest allRest).bind fun others => Build.blames_pure _

theorem blames_lowerStatements {statements : List Expr}
    (each : ∀ statement ∈ statements, ExpressionBlames Holds scopes statement)
    (all : ∀ statement ∈ statements, statement.AllSpans Holds) :
    Build.Blames Holds (lowerStatements scopes statements) := by
  induction statements with
  | nil => exact Build.blames_pure ()
  | cons first rest inductionHypothesis =>
      obtain ⟨ofFirst, ofRest⟩ := List.forall_mem_cons.mp each
      obtain ⟨allFirst, allRest⟩ := List.forall_mem_cons.mp all
      rw [lowerStatements]
      exact (ofFirst allFirst).bind fun _ => inductionHypothesis ofRest allRest

theorem blames_lowerExpr (scopes : ScopeTable Binding) (expr : Expr) :
    ExpressionBlames Holds scopes expr := by
  induction expr using Expr.induction with
  | literal value span => exact fun _ => Build.blames_define _ _
  | identifier name span =>
      intro all
      rw [lowerExpr]
      split
      · exact Build.blames_define _ _
      · exact Build.blames_throw rfl all.span
      · exact Build.blames_throw rfl all.span
  | unary op operand span ofOperand =>
      intro all
      have allOperand := all.part (List.mem_singleton_self operand)
      rw [lowerExpr]
      refine ((ofOperand allOperand).value allOperand.span).bind fun found => ?_
      split
      · exact Build.blames_define _ _
      · exact Build.blames_throw rfl all.span
  | binary op lhs rhs span ofLeft ofRight =>
      intro all
      have allLeft : lhs.AllSpans Holds := all.part List.mem_cons_self
      have allRight : rhs.AllSpans Holds := all.part (.tail _ List.mem_cons_self)
      rw [lowerExpr]
      refine ((ofLeft allLeft).value allLeft.span).bind fun left => ?_
      refine ((ofRight allRight).value allRight.span).bind fun right => ?_
      split
      · split
        · exact Build.blames_define _ _
        · exact Build.blames_throw rfl all.span
      · exact Build.blames_throw rfl all.span
  | call name arguments children span ofArguments ofChildren =>
      intro all
      obtain ⟨holds, ofNames⟩ := List.forall_mem_cons.mp all.own
      obtain ⟨ofName, ofLabels⟩ := List.forall_mem_cons.mp ofNames
      obtain ⟨allArguments, allChildren⟩ := List.forall_mem_append.mp fun part => all.part
      have resolves := blames_resolveCall scopes holds ofName (List.forall_mem_map.mp ofLabels)
      rw [lowerExpr]
      refine (Build.blames_lift resolves).bind fun _ => ?_
      refine (blames_lowerArguments ofArguments (List.forall_mem_map.mp allArguments)).bind
        fun values => ?_
      refine Build.Blames.bind ?_ fun _ => Build.blames_call _ _ _
      cases children with
      | none => exact Build.blames_pure ()
      | some list => exact blames_lowerStatements ofChildren allChildren
  | conditional condition thenBlock elseBlock span _ _ _ =>
      intro all
      rw [lowerExpr]
      exact Build.blames_throw rfl all.span

end Expressions

/-! ## Steps -/

namespace Lower

/-- A step leaves as many scopes open as there were, and fails only with an error at a span
with a property. -/
inductive Settles (Holds : Span → Prop) (depth : Nat) :
    EStateM.Result LoweringError Lowering α → Prop
  | ok {value : α} {after : Lowering} (sameDepth : after.scopes.depth = depth) :
      Settles Holds depth (.ok value after)
  | error {failure : LoweringError} {after : Lowering} (sameDepth : after.scopes.depth = depth)
      (located : failure.Located Holds) : Settles Holds depth (.error failure after)

def Blames (Holds : Span → Prop) (action : Lower α) : Prop :=
  ∀ lowering, Settles Holds lowering.scopes.depth (action lowering)

theorem blames_pure (value : α) : Blames Holds (pure value) := fun _ => .ok rfl

theorem blames_get : Blames Holds get := fun _ => .ok rfl

theorem blames_throw {error : LoweringError} (located : error.Located Holds) :
    Blames Holds (throw error : Lower α) :=
  fun _ => .error rfl located

theorem Blames.bind {action : Lower α} {next : α → Lower β} (first : Blames Holds action)
    (second : ∀ value, Blames Holds (next value)) : Blames Holds (action >>= next) := by
  intro lowering
  have settles := first lowering
  generalize outcome : action lowering = result at settles
  cases settles with
  | ok sameDepth =>
      rw [bind_of_ok outcome, ← sameDepth]
      exact second _ _
  | error sameDepth located =>
      rw [bind_of_error outcome]
      exact .error sameDepth located

theorem blames_ofExcept {outcome : Except LoweringError α}
    (blames : ScalarLang.Blames Holds outcome) : Blames Holds (ofExcept outcome) := by
  cases outcome with
  | ok value => exact blames_pure value
  | error failure => exact blames_throw (blames failure rfl)

section Steps

variable (backEnd : BackEnd)

theorem blames_declareFunctionOn (name : String) (linkage : Linkage) (signature : Ir.Signature) :
    Blames Holds (declareFunctionOn backEnd name linkage signature) := by
  intro lowering
  unfold declareFunctionOn
  split
  · exact .ok rfl
  · exact .error rfl False.elim

theorem blames_defineDataOn (name : String) : Blames Holds (defineDataOn backEnd name) := by
  intro lowering
  unfold defineDataOn
  dsimp only
  split
  · exact .ok rfl
  · exact .error rfl False.elim

theorem blames_defineFunctionOn (number : Nat) (code : Ir.Function) :
    Blames Holds (defineFunctionOn backEnd number code) := by
  intro lowering
  unfold defineFunctionOn
  split
  · dsimp only
    split
    · exact .ok rfl
    · exact .error rfl False.elim
  · exact .error rfl False.elim

end Steps

theorem blames_clearContext : Blames Holds clearContext := fun _ => .ok rfl

theorem blames_signContext (name : String) (params results : List Ir.Ty) :
    Blames Holds (signContext name params results) := fun _ => .ok rfl

theorem blames_openContext : Blames Holds openContext := fun _ => .ok rfl

theorem blames_setContext (code : Ir.Function) : Blames Holds (setContext code) := fun _ => .ok rfl

theorem blames_bind (name : String) (binding : Binding) :
    Blames Holds (Lower.bind name binding) :=
  fun _ => .ok (ScopeTable.depth_insert _ _ _)

/-- Some scope is open besides the outermost one, so it can be left. -/
theorem exists_exit {table : ScopeTable Binding} {depth : Nat} (isDepth : table.depth = depth + 1)
    (some : 0 < depth) : ∃ left, table.exit = .ok left ∧ left.depth = depth := by
  obtain ⟨inner, outermost⟩ := table
  cases inner with
  | nil =>
      simp only [ScopeTable.depth, List.length_nil] at isDepth
      omega
  | cons first rest =>
      simp only [ScopeTable.depth, List.length_cons] at isDepth
      exact ⟨⟨rest, outermost⟩, rfl, by simp only [ScopeTable.depth]; omega⟩

theorem Blames.inScope {action : Lower α} (blames : Blames Holds action) :
    Blames Holds (inScope action) := by
  intro lowering
  have settles := blames { lowering with scopes := lowering.scopes.enter }
  unfold Lower.inScope
  generalize action _ = result at settles ⊢
  have isOpen : 0 < lowering.scopes.depth := Nat.succ_pos _
  cases settles with
  | ok sameDepth =>
      obtain ⟨left, exits, isDepth⟩ := exists_exit sameDepth isOpen
      simp only [leaveScope, exits]
      exact .ok isDepth
  | error sameDepth located =>
      obtain ⟨left, exits, isDepth⟩ := exists_exit sameDepth isOpen
      simp only [leaveScope, exits]
      exact .error isDepth located

theorem blames_build (code : Ir.Function) {step : ScopeTable Binding → Build α}
    (blames : ∀ scopes, Build.Blames Holds (step scopes)) : Blames Holds (build code step) :=
  fun lowering => blames_ofExcept (blames lowering.scopes code) lowering

/-! ## Functions -/

theorem blames_storeParameters (parameters : List (Parameter × ScalarType)) :
    ∀ value code, Blames Holds (storeParameters parameters value code) := by
  induction parameters with
  | nil =>
      intro value code
      exact blames_pure code
  | cons first rest inductionHypothesis =>
      intro value code
      exact (blames_bind _ _).bind fun _ => inductionHypothesis _ _

theorem blames_blockStatements {block : Block} (code : Ir.Function)
    (all : ∀ expr ∈ block.expressions, expr.AllSpans Holds) :
    Blames Holds (blockStatements block code) := by
  obtain ⟨allStatements, -⟩ := List.forall_mem_append.mp all
  refine Blames.inScope ((blames_build code fun scopes => ?_).bind fun _ => blames_pure _)
  exact blames_lowerStatements (fun statement _ => blames_lowerExpr scopes statement) allStatements

theorem blames_functionResult {declaration : FunctionDecl} (code : Ir.Function)
    (all : declaration.AllSpans Holds) : Blames Holds (functionResult declaration code) := by
  obtain ⟨-, allResult⟩ := List.forall_mem_append.mp all.body
  unfold functionResult
  split
  · rename_i path result _ isResult
    have allSpans := allResult result (by rw [isResult]; exact List.mem_cons_self)
    refine (blames_build code fun scopes => ?_).bind fun _ => blames_pure _
    exact (blames_lowerExpr scopes result allSpans).value allSpans.span
  · exact blames_pure _
  · exact blames_throw (LoweringError.located_of_span rfl (all.head _ List.mem_cons_self))
  · rename_i result _ isResult
    have allSpans := allResult result (by rw [isResult]; exact List.mem_cons_self)
    exact blames_throw (LoweringError.located_of_span rfl allSpans.span)

theorem blames_functionOn (backEnd : BackEnd) {declaration : FunctionDecl}
    (all : declaration.AllSpans Holds) : Blames Holds (functionOn backEnd declaration) := by
  obtain ⟨ofParameters, ofResult⟩ :=
    List.forall_mem_append.mp (List.forall_mem_cons.mp all.head).2
  have blamesParameters := blames_ofParameters (List.forall_mem_map.mp ofParameters)
  have blamesResult : ScalarLang.Blames Holds (ScalarType.ofResult declaration.resultType) :=
    blames_ofResult fun path isPath =>
      List.forall_mem_map.mp ofResult path (Option.mem_toList.mpr isPath)
  refine (blames_ofExcept blamesParameters).bind fun types => ?_
  refine (blames_ofExcept blamesResult).bind fun result => blames_clearContext.bind fun _ => ?_
  refine (blames_signContext _ _ _).bind fun _ => blames_get.bind fun signed => ?_
  refine (blames_declareFunctionOn _ _ _ _).bind fun number => blames_openContext.bind fun _ => ?_
  refine blames_get.bind fun opened => Blames.bind (.inScope ?_) fun code =>
    (blames_setContext _).bind fun _ => blames_get.bind fun built =>
      (blames_defineFunctionOn _ _ _).bind fun _ => blames_bind _ _
  refine (blames_storeParameters _ _ _).bind fun stored => ?_
  exact (blames_blockStatements _ all.body).bind fun extended => blames_functionResult _ all

theorem blames_functionsOn (backEnd : BackEnd) {declarations : List FunctionDecl}
    (all : ∀ declaration ∈ declarations, declaration.AllSpans Holds) :
    Blames Holds (functionsOn backEnd declarations) := by
  induction declarations with
  | nil => exact blames_pure ()
  | cons first rest inductionHypothesis =>
      obtain ⟨allFirst, allRest⟩ := List.forall_mem_cons.mp all
      exact (blames_functionOn backEnd allFirst).bind fun _ => inductionHypothesis allRest

theorem blames_builtinsOn (backEnd : BackEnd) : Blames Holds (builtinsOn backEnd) := by
  refine blames_get.bind fun lowering => (blames_declareFunctionOn _ _ _ _).bind fun system => ?_
  refine (blames_defineDataOn _ _).bind fun _ => blames_clearContext.bind fun _ => ?_
  refine (blames_signContext _ _ _).bind fun _ => blames_get.bind fun signed => ?_
  refine (blames_declareFunctionOn _ _ _ _).bind fun number => blames_openContext.bind fun _ => ?_
  refine blames_get.bind fun opened => (blames_setContext _).bind fun _ => ?_
  exact blames_get.bind fun built => (blames_defineFunctionOn _ _ _).bind fun _ => blames_bind _ _

end Lower

/-- An error of lowering that is about the text has one of the spans of the program. -/
theorem Module.blames_compile {program : Module} {target : Target} {name : String}
    (all : ∀ function ∈ program.functions, function.AllSpans Holds) :
    Blames Holds (program.compile target name) := by
  intro error fails
  unfold Module.compile Module.compileOn Lowering.start Lowering.addProgramOn at fails
  by_cases supported : target.isSupported = true
  · by_cases writable : target.format.isSupported = true
    · simp only [if_pos supported, if_pos writable] at fails
      have settles := (Lower.blames_builtinsOn .standard).bind
        (fun _ => Lower.blames_functionsOn .standard all)
        (.initial target)
      change Lower.Settles Holds _ (Lower.programOn .standard program _) at settles
      generalize Lower.programOn .standard program _ = result at settles fails
      cases settles with
      | ok _ => cases fails
      | error _ located =>
          cases fails
          exact located
    · simp only [if_pos supported, if_neg writable] at fails
      cases fails
      exact False.elim
  · simp only [if_neg supported] at fails
    cases fails
    exact False.elim

end ScalarLang
