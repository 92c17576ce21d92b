import Mathlib.Data.Option.Defs
import ScalarLang.Lowering.Function
import ScalarLang.Proofs.Reading.ProgramOffsets
import ScalarLang.Proofs.Tree

/-!
# What lowering sees of a function

A call sees the name, the labels and the types of the function it means and nothing of
its body, and the spans of an expression come into its lowering only as the spans of
errors.  So an expression that is lowered with other bodies in scope, and at other
offsets, gives the same code or the same error at the other offsets.
-/

set_option autoImplicit false

namespace ScalarLang

/-! ## Interfaces -/

def TypePath.words (path : TypePath) : List String := path.names.map Ident.name

/-- What a function shows: its name, the names and types of its parameters, and the type
of its result. -/
structure Interface where
  name : String
  parameters : List (String × List String)
  result : Option (List String)
deriving DecidableEq

def FunctionDecl.interface (function : FunctionDecl) : Interface where
  name := function.name.name
  parameters := function.parameters.map fun parameter =>
    (parameter.name.name, parameter.type.words)
  result := function.resultType.map TypePath.words

variable {change : Nat → Nat}

theorem TypePath.words_mapOffsets (path : TypePath) :
    (path.mapOffsets change).words = path.words := by
  simp [words, names, mapOffsets, Ident.mapOffsets, Function.comp_def]

theorem FunctionDecl.interface_mapOffsets (function : FunctionDecl) :
    (function.mapOffsets change).interface = function.interface := by
  simp [interface, FunctionDecl.mapOffsets, Parameter.mapOffsets, Ident.mapOffsets,
    Function.comp_def, TypePath.words_mapOffsets]

section Interface

variable {function other : FunctionDecl}

theorem labels_eq_of_interface (same : function.interface = other.interface) :
    function.labels = other.labels := by
  have ofParameters := congrArg (fun shown => shown.parameters.map Prod.fst) same
  simpa [FunctionDecl.interface, FunctionDecl.labels, Function.comp_def] using ofParameters

theorem lowLevelName_eq_of_interface (same : function.interface = other.interface) :
    function.lowLevelName = other.lowLevelName := by
  have sameName : function.name.name = other.name.name := congrArg Interface.name same
  rw [FunctionDecl.lowLevelName, FunctionDecl.lowLevelName, sameName, labels_eq_of_interface same]

end Interface

/-! ## Errors at other offsets -/

def LoweringError.mapOffsets (change : Nat → Nat) : LoweringError → LoweringError
  | .unsupportedArchitecture name => .unsupportedArchitecture name
  | .object error => .object error
  | .illFormed => .illFormed
  | .scope error => .scope error
  | .unknownType path => .unknownType (path.mapOffsets change)
  | .functionNotDefined name lowLevelName span =>
    .functionNotDefined name lowLevelName (span.mapOffsets change)
  | .labelMismatch expected found span => .labelMismatch expected found (span.mapOffsets change)
  | .countMismatch name expected found span =>
    .countMismatch name expected found (span.mapOffsets change)
  | .missingResult name => .missingResult (name.mapOffsets change)
  | .unexpectedResult name span => .unexpectedResult name (span.mapOffsets change)
  | .variableNotDefined name span => .variableNotDefined name (span.mapOffsets change)
  | .notAValue name span => .notAValue name (span.mapOffsets change)
  | .voidValue span => .voidValue (span.mapOffsets change)
  | .operandMismatch op lhs rhs span => .operandMismatch op lhs rhs (span.mapOffsets change)
  | .unsupportedOperator op type span => .unsupportedOperator op type (span.mapOffsets change)
  | .unsupportedConditional span => .unsupportedConditional (span.mapOffsets change)

theorem LoweringError.mapOffsets_id (error : LoweringError) : error.mapOffsets id = error := by
  have ofIdent : Ident.mapOffsets id = id := rfl
  cases error <;>
    simp [mapOffsets, TypePath.mapOffsets, Span.mapOffsets, ofIdent]

abbrev atOffsets {α : Type} (change : Nat → Nat) (outcome : Except LoweringError α) :
    Except LoweringError α :=
  outcome.mapError (LoweringError.mapOffsets change)

/-! ## Scopes -/

/-- Two bindings are the same slot, or functions that show the same. -/
inductive Binding.Agrees : Binding → Binding → Prop
  | parameter (slot : Nat) (type : Ir.Ty) : Agrees (.parameter slot type) (.parameter slot type)
  | function {declaration other : FunctionDecl} (same : declaration.interface = other.interface)
      (number : Nat) (signature : Ir.Signature) :
      Agrees (.function declaration number signature) (.function other number signature)

theorem Binding.Agrees.refl (binding : Binding) : binding.Agrees binding := by
  cases binding with
  | parameter slot type => exact .parameter slot type
  | function declaration number signature => exact .function rfl number signature

theorem Binding.Agrees.symm {binding other : Binding} (agrees : binding.Agrees other) :
    other.Agrees binding := by
  cases agrees with
  | parameter slot type => exact .parameter slot type
  | function same number signature => exact .function same.symm number signature

theorem Binding.Agrees.isFunction_eq {binding other : Binding} (agrees : binding.Agrees other) :
    binding.isFunction = other.isFunction := by
  cases agrees <;> rfl

def Scope.Agrees (scope other : Scope Binding) : Prop :=
  ∀ name, Option.Rel Binding.Agrees (scope.find? name) (other.find? name)

theorem Scope.Agrees.insert {scope other : Scope Binding} {binding bound : Binding}
    (agrees : Scope.Agrees scope other) (agree : binding.Agrees bound) (name : String) :
    Scope.Agrees (scope.insert name binding) (other.insert name bound) := by
  intro found
  rw [find?_insert, find?_insert]
  split
  · exact .some agree
  · exact agrees found

structure ScopeTable.Agrees (table other : ScopeTable Binding) : Prop where
  inner : List.Forall₂ Scope.Agrees table.inner other.inner
  outermost : Scope.Agrees table.outermost other.outermost

namespace ScopeTable.Agrees

variable {table other : ScopeTable Binding}

theorem rel_refl (binding? : Option Binding) : Option.Rel Binding.Agrees binding? binding? := by
  cases binding? with
  | none => exact .none
  | some binding => exact .some (.refl binding)

theorem refl (table : ScopeTable Binding) : table.Agrees table := by
  refine ⟨List.forall₂_same.mpr ?_, ?_⟩
  · intro scope _ name
    exact rel_refl _
  · intro name
    exact rel_refl _

theorem rel_symm {binding? bound? : Option Binding}
    (related : Option.Rel Binding.Agrees binding? bound?) :
    Option.Rel Binding.Agrees bound? binding? := by
  cases related with
  | none => exact .none
  | some agrees => exact .some agrees.symm

theorem symm (agrees : table.Agrees other) : other.Agrees table := by
  refine ⟨agrees.inner.flip.imp ?_, ?_⟩
  · intro scope bound same name
    exact rel_symm (same name)
  · intro name
    exact rel_symm (agrees.outermost name)

theorem enter (agrees : table.Agrees other) : table.enter.Agrees other.enter :=
  ⟨.cons (fun _ => .none) agrees.inner, agrees.outermost⟩

theorem insert (agrees : table.Agrees other) {binding bound : Binding}
    (agree : binding.Agrees bound) (name : String) :
    (table.insert name binding).Agrees (other.insert name bound) := by
  obtain ⟨inner, outermost⟩ := table
  obtain ⟨otherInner, otherOutermost⟩ := other
  obtain ⟨sameInner, sameOutermost⟩ := agrees
  cases sameInner with
  | nil => exact ⟨.nil, sameOutermost.insert agree name⟩
  | cons first rest => exact ⟨.cons (first.insert agree name) rest, sameOutermost⟩

/-- Two tables that agree are left alike: none of them has a scope to leave, or both have. -/
theorem exit (agrees : table.Agrees other) :
    (∃ error, table.exit = .error error ∧ other.exit = .error error) ∨
      ∃ left right, table.exit = .ok left ∧ other.exit = .ok right ∧ left.Agrees right := by
  obtain ⟨inner, outermost⟩ := table
  obtain ⟨otherInner, otherOutermost⟩ := other
  obtain ⟨sameInner, sameOutermost⟩ := agrees
  cases sameInner with
  | nil => exact .inl ⟨_, rfl, rfl⟩
  | cons first rest => exact .inr ⟨_, _, rfl, rfl, rest, sameOutermost⟩

theorem scopes (agrees : table.Agrees other) :
    List.Forall₂ Scope.Agrees table.scopes other.scopes :=
  List.rel_append agrees.inner (.cons agrees.outermost .nil)

theorem lookupWhere? (agrees : table.Agrees other) (name : String) {accepts : Binding → Bool}
    (respects : ∀ binding bound, binding.Agrees bound → accepts binding = accepts bound) :
    Option.Rel Binding.Agrees (table.lookupWhere? name accepts)
      (other.lookupWhere? name accepts) := by
  unfold ScopeTable.lookupWhere?
  have areScopes := agrees.scopes
  generalize table.scopes = left at areScopes
  generalize other.scopes = right at areScopes
  induction areScopes with
  | nil => exact .none
  | @cons scope bound left right same _ inductionHypothesis =>
      have found := same name
      simp only [List.filterMap_cons]
      generalize scope.find? name = binding? at found
      generalize bound.find? name = bound? at found
      cases found with
      | none => exact inductionHypothesis
      | @some binding bound agree =>
          have sameTest := respects binding bound agree
          by_cases accepted : accepts binding = true
          · rw [List.find?_cons_of_pos accepted,
              List.find?_cons_of_pos (sameTest.symm.trans accepted)]
            exact .some agree
          · rw [List.find?_cons_of_neg accepted,
              List.find?_cons_of_neg (by rwa [← sameTest])]
            exact inductionHypothesis

end ScopeTable.Agrees

/-! ## Calls -/

theorem argumentsMapOffsets_eq_map (arguments : List CallArgument) :
    argumentsMapOffsets change arguments = arguments.map fun argument =>
      ⟨argument.label.mapOffsets change, argument.value.mapOffsets change⟩ := by
  induction arguments with
  | nil => rfl
  | cons first rest inductionHypothesis =>
      obtain ⟨label, value⟩ := first
      rw [argumentsMapOffsets, List.map_cons, inductionHypothesis]

theorem CallArgument.lowLevelName_mapOffsets (name : Ident) (arguments : List CallArgument) :
    CallArgument.lowLevelName (name.mapOffsets change) (argumentsMapOffsets change arguments) =
      CallArgument.lowLevelName name arguments := by
  simp [lowLevelName, labels, argumentsMapOffsets_eq_map, Ident.mapOffsets, Function.comp_def]

def firstMismatch? (labels : List String) (arguments : List CallArgument) :
    Option (String × CallArgument) :=
  (labels.zip arguments).find? fun pair => pair.1 != pair.2.label.name

theorem firstMismatch?_mapOffsets (labels : List String) :
    ∀ arguments, firstMismatch? labels (argumentsMapOffsets change arguments) =
      (firstMismatch? labels arguments).map fun pair =>
        (pair.1, ⟨pair.2.label.mapOffsets change, pair.2.value.mapOffsets change⟩) := by
  induction labels with
  | nil =>
      intro arguments
      rfl
  | cons label labels inductionHypothesis =>
      intro arguments
      cases arguments with
      | nil => rfl
      | cons first rest =>
          obtain ⟨found, value⟩ := first
          have ofRest := inductionHypothesis rest
          unfold firstMismatch? at ofRest ⊢
          rw [argumentsMapOffsets, List.zip_cons_cons, List.zip_cons_cons, List.find?_cons,
            List.find?_cons, ofRest]
          change (match label != found.name with | true => _ | false => _) = _
          cases label != found.name with
          | true => rfl
          | false => rfl

/-- Labels are compared with the labels of a function and nothing else of it. -/
theorem checkLabels_eq (function : FunctionDecl) (name : Ident) (arguments : List CallArgument) :
    checkLabels function name arguments =
      if function.labels.length = arguments.length then
        match firstMismatch? function.labels arguments with
        | some (label, argument) =>
          .error (.labelMismatch label argument.label.name argument.label.span)
        | none => .ok ()
      else
        .error (.countMismatch function.name.name function.labels.length arguments.length
          name.span) := by
  have found : firstMismatch? function.labels arguments =
      ((function.parameters.zip arguments).find? fun pair =>
        pair.1.name.name != pair.2.label.name).map fun pair => (pair.1.name.name, pair.2) := by
    unfold firstMismatch? FunctionDecl.labels
    rw [List.zip_map_left, List.find?_map]
    rfl
  unfold checkLabels
  rw [found, FunctionDecl.labels, List.length_map]
  cases (function.parameters.zip arguments).find? fun pair =>
      pair.1.name.name != pair.2.label.name with
  | none => rfl
  | some pair => rfl

theorem checkLabels_mapOffsets {function other : FunctionDecl}
    (same : function.interface = other.interface) (name : Ident) (arguments : List CallArgument) :
    checkLabels other (name.mapOffsets change) (argumentsMapOffsets change arguments) =
      atOffsets change (checkLabels function name arguments) := by
  have sameName : other.name.name = function.name.name := congrArg Interface.name same.symm
  have sameLength : (argumentsMapOffsets change arguments).length = arguments.length := by
    rw [argumentsMapOffsets_eq_map, List.length_map]
  rw [checkLabels_eq, checkLabels_eq, ← labels_eq_of_interface same, sameLength,
    firstMismatch?_mapOffsets, sameName]
  by_cases asMany : function.labels.length = arguments.length
  · rw [if_pos asMany, if_pos asMany]
    cases firstMismatch? function.labels arguments with
    | none => rfl
    | some pair => rfl
  · rw [if_neg asMany, if_neg asMany]
    rfl

theorem resolveCall_mapOffsets {scopes others : ScopeTable Binding} (agrees : scopes.Agrees others)
    (name : Ident) (arguments : List CallArgument) (span : Span) :
    resolveCall others (name.mapOffsets change) (argumentsMapOffsets change arguments)
        (span.mapOffsets change) =
      atOffsets change (resolveCall scopes name arguments span) := by
  unfold resolveCall
  rw [CallArgument.lowLevelName_mapOffsets]
  have found := agrees.lookupWhere? (CallArgument.lowLevelName name arguments)
    fun _ _ => Binding.Agrees.isFunction_eq
  dsimp only
  generalize scopes.lookupWhere? _ Binding.isFunction = binding? at found ⊢
  generalize others.lookupWhere? _ Binding.isFunction = bound? at found ⊢
  cases found with
  | none => rfl
  | some agree =>
      cases agree with
      | parameter slot type => rfl
      | @function declaration other same number signature =>
          dsimp only
          rw [checkLabels_mapOffsets same]
          cases checkLabels declaration name arguments with
          | error failure => rfl
          | ok done => rfl

/-! ## Expressions -/

namespace Build

variable {α β : Type}

/-- The second step does what the first does, with the error at other offsets. -/
def Matches (change : Nat → Nat) (action other : Build α) : Prop :=
  ∀ code, other code = atOffsets change (action code)

theorem matches_throw (error : LoweringError) :
    Matches change (throw error : Build α) (throw (error.mapOffsets change)) := fun _ => rfl

theorem matches_pure (value : α) : Matches change (pure value : Build α) (pure value) :=
  fun _ => rfl

theorem Matches.bind {action other : Build α} {next otherNext : α → Build β}
    (first : Matches change action other)
    (second : ∀ value, Matches change (next value) (otherNext value)) :
    Matches change (action >>= next) (other >>= otherNext) := by
  intro code
  change (other code >>= fun pair => otherNext pair.1 pair.2) =
    atOffsets change (action code >>= fun pair => next pair.1 pair.2)
  rw [first code]
  cases action code with
  | error failure => rfl
  | ok pair => exact second pair.1 pair.2

theorem Matches.value {action other : Build (Option Operand)}
    (matched : Matches change action other) (span : Span) :
    Matches change (value span action) (value (span.mapOffsets change) other) := by
  refine matched.bind fun operand? => ?_
  cases operand? with
  | none => exact matches_throw _
  | some operand => exact matches_pure operand

theorem matches_lift {outcome other : Except LoweringError α}
    (same : other = atOffsets change outcome) :
    Matches change (liftM outcome : Build α) (liftM other) := by
  intro code
  rw [same]
  cases outcome with
  | error failure => rfl
  | ok found => rfl

end Build

section Expressions

variable {scopes others : ScopeTable Binding}

/-- An expression is lowered alike with other bodies in scope and at other offsets. -/
def ExpressionMatches (change : Nat → Nat) (scopes others : ScopeTable Binding) (expr : Expr) :
    Prop :=
  Build.Matches change (lowerExpr scopes expr) (lowerExpr others (expr.mapOffsets change))

theorem matches_lowerArguments (arguments : List CallArgument)
    (each : ∀ argument ∈ arguments, ExpressionMatches change scopes others argument.value) :
    Build.Matches change (lowerArguments scopes arguments)
      (lowerArguments others (argumentsMapOffsets change arguments)) := by
  induction arguments with
  | nil => exact Build.matches_pure []
  | cons first rest inductionHypothesis =>
      obtain ⟨label, value⟩ := first
      have ofValue : ExpressionMatches change scopes others value := each ⟨label, value⟩ (.head _)
      have ofRest := inductionHypothesis fun argument member => each argument (.tail _ member)
      rw [argumentsMapOffsets, lowerArguments, lowerArguments, Expr.span_mapOffsets]
      exact (ofValue.value _).bind fun operand => ofRest.bind fun _ => Build.matches_pure _

theorem matches_lowerStatements (statements : List Expr)
    (each : ∀ statement ∈ statements, ExpressionMatches change scopes others statement) :
    Build.Matches change (lowerStatements scopes statements)
      (lowerStatements others (linesMapOffsets change statements)) := by
  induction statements with
  | nil => exact Build.matches_pure ()
  | cons first rest inductionHypothesis =>
      have ofRest := inductionHypothesis fun statement member => each statement (.tail _ member)
      rw [linesMapOffsets, lowerStatements, lowerStatements]
      exact (each first (.head _)).bind fun _ => ofRest

theorem matches_lowerExpr (agrees : scopes.Agrees others) (expr : Expr) :
    ExpressionMatches change scopes others expr := by
  unfold ExpressionMatches
  induction expr using Expr.induction with
  | literal value span => exact fun _ => rfl
  | identifier name span =>
      rw [Expr.mapOffsets, lowerExpr, lowerExpr]
      have found : Option.Rel Binding.Agrees (scopes.lookup? name) (others.lookup? name) :=
        agrees.lookupWhere? name fun _ _ _ => rfl
      generalize scopes.lookup? name = binding? at found ⊢
      generalize others.lookup? name = bound? at found ⊢
      cases found with
      | none => exact Build.matches_throw _
      | some agree =>
          cases agree with
          | parameter slot type => exact fun _ => rfl
          | function same number signature => exact Build.matches_throw _
  | unary op operand span ofOperand =>
      rw [Expr.mapOffsets, lowerExpr, lowerExpr, Expr.span_mapOffsets]
      refine (ofOperand.value _).bind fun found => ?_
      cases op.select? found.type found.value with
      | none => exact Build.matches_throw _
      | some selected => exact fun _ => rfl
  | binary op lhs rhs span ofLeft ofRight =>
      rw [Expr.mapOffsets, lowerExpr, lowerExpr, Expr.span_mapOffsets, Expr.span_mapOffsets]
      refine (ofLeft.value _).bind fun left => (ofRight.value _).bind fun right => ?_
      split
      · cases op.select? left.type left.value right.value with
        | none => exact Build.matches_throw _
        | some selected => exact fun _ => rfl
      · exact Build.matches_throw _
  | call name arguments children span ofArguments ofChildren =>
      rw [Expr.mapOffsets, lowerExpr, lowerExpr]
      refine (Build.matches_lift (resolveCall_mapOffsets agrees name arguments span)).bind ?_
      rintro ⟨number, signature⟩
      refine (matches_lowerArguments arguments ofArguments).bind fun values => ?_
      refine Build.Matches.bind ?_ fun _ => fun _ => rfl
      cases children with
      | none => exact Build.matches_pure ()
      | some list => exact matches_lowerStatements list ofChildren
  | conditional condition thenBlock elseBlock span _ _ _ =>
      rw [Expr.mapOffsets, lowerExpr, lowerExpr]
      exact Build.matches_throw _

end Expressions

end ScalarLang
