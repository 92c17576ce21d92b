import ScalarLang.Proofs.Lowering.Functions
import ScalarLang.Lowering.Program

/-!
# Well-typed programs

An expression has a type where some functions can be called and the parameters have
types.  A call of a function without a result has no type, so it is no operand,
argument or result.  There is no rule for a choice: a program that is lowered has none.
-/

set_option autoImplicit false

namespace ScalarLang

def UnaryOp.supports : UnaryOp → ScalarType → Bool
  | .negate, .int => true
  | .negate, .float => true
  | .not, .int => true
  | .not, .bool => true
  | _, _ => false

def BinaryOp.resultType? (op : BinaryOp) (type : ScalarType) : Option ScalarType :=
  match op, type with
  | .add, .int | .sub, .int | .mul, .int | .div, .int | .rem, .int => some .int
  | .add, .float | .sub, .float | .mul, .float | .div, .float => some .float
  | .equal, _ | .notEqual, _ => some .bool
  | .less, .int | .lessEqual, .int | .greater, .int | .greaterEqual, .int => some .bool
  | .less, .float | .lessEqual, .float | .greater, .float | .greaterEqual, .float => some .bool
  | .logicalAnd, .bool | .logicalOr, .bool => some .bool
  | _, _ => none

/-- An expression has a type, or none if it has no value. -/
inductive HasType (available : List FunctionDecl) (parameters : List (String × ScalarType)) :
    Expr → Option ScalarType → Prop where
  | integer (value : Int64) (span : Span) :
      HasType available parameters (.literal (.integer value) span) (some .int)
  | float (value : Binary64) (span : Span) :
      HasType available parameters (.literal (.float value) span) (some .float)
  | boolean (value : Bool) (span : Span) :
      HasType available parameters (.literal (.boolean value) span) (some .bool)
  | identifier {name : String} {type : ScalarType} (span : Span)
      (isLast : parameters.reverse.lookup name = some type) :
      HasType available parameters (.identifier name span) (some type)
  | unary {op : UnaryOp} {operand : Expr} {type : ScalarType} (span : Span)
      (ofOperand : HasType available parameters operand (some type))
      (supported : op.supports type = true) :
      HasType available parameters (.unary op operand span) (some type)
  | binary {op : BinaryOp} {lhs rhs : Expr} {type result : ScalarType} (span : Span)
      (ofLeft : HasType available parameters lhs (some type))
      (ofRight : HasType available parameters rhs (some type))
      (supported : op.resultType? type = some result) :
      HasType available parameters (.binary op lhs rhs span) (some result)
  | call {name : Ident} {arguments : List CallArgument} {children : Option (List Expr)}
      {callee : FunctionDecl} {types : List ScalarType} {result : Option ScalarType}
      (childType : Expr → Option ScalarType) (span : Span) (isAvailable : callee ∈ available)
      (sameName : callee.name.name = name.name)
      (sameLabels : callee.labels = CallArgument.labels arguments)
      (denoteParameters : List.Forall₂ (fun parameter type => parameter.type.Denotes type)
        callee.parameters types)
      (denoteResult : Option.Rel (fun path type => path.Denotes type) callee.resultType result)
      (ofArguments : ∀ pair ∈ arguments.zip types,
        HasType available parameters pair.1.value (some pair.2))
      (ofChildren : ∀ child ∈ children.getD [],
        HasType available parameters child (childType child)) :
      HasType available parameters (.call name arguments children span) result

inductive FunctionDecl.WellTyped (available : List FunctionDecl) (function : FunctionDecl) :
    Prop where
  | intro {types : List ScalarType} {result : Option ScalarType}
      (denoteParameters : List.Forall₂ (fun parameter type => parameter.type.Denotes type)
        function.parameters types)
      (denoteResult : Option.Rel (fun path type => path.Denotes type) function.resultType result)
      (ofStatements : ∀ statement ∈ function.body.statements,
        ∃ type, HasType available (function.labels.zip types) statement type)
      (ofResult : Option.Rel
        (fun expr type => HasType available (function.labels.zip types) expr (some type))
        function.body.result result)

/-- A program is well typed: its functions have low-level names of their own, and each
is well typed where the built-in function and those before it can be called. -/
structure Module.WellTyped (program : Module) : Prop where
  distinct : (program.functions.map FunctionDecl.lowLevelName).Nodup
  notBuiltin : ∀ function ∈ program.functions,
    function.lowLevelName ≠ Builtin.print.lowLevelName
  wellTyped : ∀ before function after, program.functions = before ++ function :: after →
    function.WellTyped (Builtin.print :: before)

/-! ## Types and operators of the intermediate code -/

theorem ScalarType.lowered_injective {type other : ScalarType}
    (same : type.lowered = other.lowered) : type = other := by
  cases type <;> cases other <;> simp_all [lowered]

theorem UnaryOp.supports_iff {op : UnaryOp} {type : ScalarType} (operand : Ir.Value) :
    op.supports type = true ↔ ∃ selected, op.select? type.lowered operand = some selected := by
  cases op <;> cases type <;> simp [supports, select?, ScalarType.lowered]

theorem BinaryOp.resultType?_eq_some_iff {op : BinaryOp} {type result : ScalarType}
    (lhs rhs : Ir.Value) :
    op.resultType? type = some result ↔
      ∃ selected, op.select? type.lowered lhs rhs = some (selected, result.lowered) := by
  cases op <;> cases type <;> cases result <;>
    simp [resultType?, select?, ScalarType.lowered, floatOp?, intOp?, boolOp?, comparison?]

theorem BinaryOp.exists_resultType? {op : BinaryOp} {type : ScalarType} {lhs rhs : Ir.Value}
    {selected : Ir.Op} {lowered : Ir.Ty}
    (selects : op.select? type.lowered lhs rhs = some (selected, lowered)) :
    ∃ result, op.resultType? type = some result ∧ result.lowered = lowered := by
  cases op <;> cases type <;> cases selects <;> exact ⟨_, rfl, rfl⟩

end ScalarLang
