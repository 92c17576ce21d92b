import ScalarLang.Ir.Function
import ScalarLang.Lowering.ScalarType
import ScalarLang.Tree.Basic

/-!
# Lowering expressions

An expression becomes instructions at the end of a function, and perhaps a value.
Operands and arguments come from left to right, and the children of a call after
its arguments.  A name is a parameter; a call is resolved by its low-level name
among the functions in scope, whose labels are then compared with the call.
-/

set_option autoImplicit false

namespace ScalarLang

inductive Binding where
  /-- A parameter, in a stack slot. -/
  | parameter (slot : Nat) (type : Ir.Ty)
  /-- A function, under its low-level name. -/
  | function (declaration : FunctionDecl) (number : Nat) (signature : Ir.Signature)

def Binding.isFunction : Binding → Bool
  | .parameter _ _ => false
  | .function _ _ _ => true

structure Operand where
  value : Ir.Value
  type : Ir.Ty
deriving DecidableEq, Repr

abbrev Build := StateT Ir.Function (Except LoweringError)

namespace Build

def define (type : Ir.Ty) (op : Ir.Op) : Build Operand := fun function =>
  let (value, extended) := function.define type op
  .ok (⟨value, type⟩, extended)

def call (number : Nat) (signature : Ir.Signature) (arguments : List Ir.Value) :
    Build (Option Operand) := fun function =>
  let (result, extended) := function.addCall number true signature arguments
  .ok (result.map fun (value, type) => ⟨value, type⟩, extended)

def value (span : Span) (lowered : Build (Option Operand)) : Build Operand := do
  match ← lowered with
  | some operand => return operand
  | none => throw (.voidValue span)

end Build

/-! ## Operators -/

def BinaryOp.comparison? : BinaryOp → Option Ir.Comparison
  | .equal => some .equal
  | .notEqual => some .notEqual
  | .less => some .less
  | .lessEqual => some .lessEqual
  | .greater => some .greater
  | .greaterEqual => some .greaterEqual
  | _ => none

def BinaryOp.floatOp? : BinaryOp → Option Ir.BinaryOp
  | .add => some .fadd
  | .sub => some .fsub
  | .mul => some .fmul
  | .div => some .fdiv
  | _ => none

def BinaryOp.boolOp? : BinaryOp → Option Ir.BinaryOp
  | .logicalAnd => some .band
  | .logicalOr => some .bor
  | _ => none

def BinaryOp.intOp? : BinaryOp → Option Ir.BinaryOp
  | .add => some .iadd
  | .sub => some .isub
  | .mul => some .imul
  | .div => some .sdiv
  | .rem => some .srem
  | _ => none

def BinaryOp.select? (op : BinaryOp) (type : Ir.Ty) (lhs rhs : Ir.Value) :
    Option (Ir.Op × Ir.Ty) :=
  match type with
  | .f64 =>
    match op.floatOp?, op.comparison? with
    | some float, _ => some (.binary float lhs rhs, .f64)
    | none, some comparison => some (.floatCompare comparison lhs rhs, .i8)
    | none, none => none
  | .i8 =>
    match op.boolOp?, op with
    | some bool, _ => some (.binary bool lhs rhs, .i8)
    | none, .equal => some (.intCompare .equal lhs rhs, .i8)
    | none, .notEqual => some (.intCompare .notEqual lhs rhs, .i8)
    | none, _ => none
  | type =>
    match op.intOp?, op.comparison? with
    | some int, _ => some (.binary int lhs rhs, type)
    | none, some comparison => some (.intCompare comparison lhs rhs, .i8)
    | none, none => none

def UnaryOp.select? (op : UnaryOp) (type : Ir.Ty) (operand : Ir.Value) : Option Ir.Op :=
  match op, type with
  | .negate, .i64 => some (.unary .ineg operand)
  | .negate, .f64 => some (.unary .fneg operand)
  | .not, .i8 => some (.xorConst operand 1)
  | .not, .i64 => some (.unary .bnot operand)
  | _, _ => none

/-! ## Calls -/

/-- Compares the labels of a call with the parameters of a function, the number of
them first. -/
def checkLabels (function : FunctionDecl) (name : Ident) (arguments : List CallArgument) :
    Except LoweringError Unit :=
  if function.parameters.length = arguments.length then
    match (function.parameters.zip arguments).find? fun pair =>
        pair.1.name.name != pair.2.label.name with
    | some (parameter, argument) =>
      .error (.labelMismatch parameter.name.name argument.label.name argument.label.span)
    | none => .ok ()
  else
    .error (.countMismatch function.name.name function.parameters.length arguments.length
      name.span)

def resolveCall (scopes : ScopeTable Binding) (name : Ident) (arguments : List CallArgument)
    (span : Span) : Except LoweringError (Nat × Ir.Signature) :=
  let lowLevelName := CallArgument.lowLevelName name arguments
  match scopes.lookupWhere? lowLevelName Binding.isFunction with
  | some (.function declaration number signature) =>
    match checkLabels declaration name arguments with
    | .ok () => .ok (number, signature)
    | .error error => .error error
  | _ => .error (.functionNotDefined name.name lowLevelName span)

/-! ## Expressions -/

def Literal.lowered : Literal → Ir.Op × Ir.Ty
  | .integer value => (.intConst .i64 value, .i64)
  | .float value => (.floatConst value, .f64)
  | .boolean value => (.intConst .i8 (if value then 1 else 0), .i8)

mutual

def lowerExpr (scopes : ScopeTable Binding) : Expr → Build (Option Operand)
  | .literal literal _ => do
    let (op, type) := literal.lowered
    return some (← Build.define type op)
  | .identifier name span =>
    match scopes.lookup? name with
    | some (.parameter slot type) => do
      return some (← Build.define type (.stackLoad type slot))
    | some (.function _ _ _) => throw (.notAValue name span)
    | none => throw (.variableNotDefined name span)
  | .unary op operand span => do
    let operand ← Build.value operand.span (lowerExpr scopes operand)
    match op.select? operand.type operand.value with
    | some selected => return some (← Build.define operand.type selected)
    | none => throw (.unsupportedOperator op.text operand.type span)
  | .binary op lhs rhs span => do
    let lhs ← Build.value lhs.span (lowerExpr scopes lhs)
    let rhs ← Build.value rhs.span (lowerExpr scopes rhs)
    if lhs.type = rhs.type then
      match op.select? lhs.type lhs.value rhs.value with
      | some (selected, type) => return some (← Build.define type selected)
      | none => throw (.unsupportedOperator op.text lhs.type span)
    else
      throw (.operandMismatch op.text lhs.type rhs.type span)
  | .call name arguments children span => do
    let (number, signature) ← liftM (resolveCall scopes name arguments span)
    let values ← lowerArguments scopes arguments
    lowerChildren scopes children
    Build.call number signature values
  | .conditional _ _ _ span => throw (.unsupportedConditional span)

def lowerArguments (scopes : ScopeTable Binding) : List CallArgument → Build (List Ir.Value)
  | [] => return []
  | ⟨_, argument⟩ :: rest => do
    let operand ← Build.value argument.span (lowerExpr scopes argument)
    let others ← lowerArguments scopes rest
    return operand.value :: others

def lowerChildren (scopes : ScopeTable Binding) : Option (List Expr) → Build Unit
  | none => return ()
  | some children => lowerStatements scopes children

def lowerStatements (scopes : ScopeTable Binding) : List Expr → Build Unit
  | [] => return ()
  | statement :: rest => do
    let _ ← lowerExpr scopes statement
    lowerStatements scopes rest

end

end ScalarLang
