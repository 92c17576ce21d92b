import ScalarLang.Proofs.Execution.Machine

/-!
# The meaning of a program

A program is evaluated on its tree.  Integers are computed exactly and then brought
back to 64 bits; a quotient that does not fit and a zero divisor stop the evaluation.
A function is known by its declaration and by what it does with arguments, and may
call the functions before it and the built-in function.
-/

set_option autoImplicit false

namespace ScalarLang

inductive Value where
  | int (value : Int64)
  | float (value : Binary64)
  | bool (value : Bool)
deriving DecidableEq, Repr

def Value.type : Value → ScalarType
  | .int _ => .int
  | .float _ => .float
  | .bool _ => .bool

def Literal.denote : Literal → Value
  | .integer value => .int value
  | .float value => .float value
  | .boolean value => .bool value

/-! ## Operators -/

def UnaryOp.eval (host : Host) : UnaryOp → Value → Except Stop Value
  | .negate, .int operand => .ok (.int (.ofInt (-operand.toInt)))
  | .negate, .float operand => .ok (.float (host.negate operand))
  | .not, .int operand => .ok (.int (~~~operand))
  | .not, .bool operand => .ok (.bool !operand)
  | _, _ => .error .stuck

namespace BinaryOp

def evalInts (op : BinaryOp) (lhs rhs : Int) : Except Stop Value :=
  match op with
  | .add => .ok (.int (.ofInt (lhs + rhs)))
  | .sub => .ok (.int (.ofInt (lhs - rhs)))
  | .mul => .ok (.int (.ofInt (lhs * rhs)))
  | .div =>
    if rhs = 0 then .error (.trap .divisionByZero)
    else if Int64.maxValue.toInt < lhs.tdiv rhs then .error (.trap .overflow)
    else .ok (.int (.ofInt (lhs.tdiv rhs)))
  | .rem =>
    if rhs = 0 then .error (.trap .divisionByZero) else .ok (.int (.ofInt (lhs.tmod rhs)))
  | .equal => .ok (.bool (lhs = rhs))
  | .notEqual => .ok (.bool (lhs ≠ rhs))
  | .less => .ok (.bool (lhs < rhs))
  | .lessEqual => .ok (.bool (lhs ≤ rhs))
  | .greater => .ok (.bool (rhs < lhs))
  | .greaterEqual => .ok (.bool (rhs ≤ lhs))
  | _ => .error .stuck

def evalFloats (host : Host) (op : BinaryOp) (lhs rhs : Binary64) : Except Stop Value :=
  match op with
  | .add => .ok (.float (host.add lhs rhs))
  | .sub => .ok (.float (host.sub lhs rhs))
  | .mul => .ok (.float (host.mul lhs rhs))
  | .div => .ok (.float (host.div lhs rhs))
  | .equal => .ok (.bool (host.compare .equal lhs rhs))
  | .notEqual => .ok (.bool (host.compare .notEqual lhs rhs))
  | .less => .ok (.bool (host.compare .less lhs rhs))
  | .lessEqual => .ok (.bool (host.compare .lessEqual lhs rhs))
  | .greater => .ok (.bool (host.compare .greater lhs rhs))
  | .greaterEqual => .ok (.bool (host.compare .greaterEqual lhs rhs))
  | _ => .error .stuck

def evalBools (op : BinaryOp) (lhs rhs : Bool) : Except Stop Value :=
  match op with
  | .logicalAnd => .ok (.bool (lhs && rhs))
  | .logicalOr => .ok (.bool (lhs || rhs))
  | .equal => .ok (.bool (lhs == rhs))
  | .notEqual => .ok (.bool (lhs != rhs))
  | _ => .error .stuck

def eval (host : Host) (op : BinaryOp) : Value → Value → Except Stop Value
  | .int lhs, .int rhs => op.evalInts lhs.toInt rhs.toInt
  | .float lhs, .float rhs => op.evalFloats host lhs rhs
  | .bool lhs, .bool rhs => op.evalBools lhs rhs
  | _, _ => .error .stuck

end BinaryOp

/-! ## Expressions -/

structure Meaning where
  declaration : FunctionDecl
  act : List Value → Run (Option Value)

def Meaning.isCalledBy (meaning : Meaning) (name : Ident) (arguments : List CallArgument) : Bool :=
  meaning.declaration.name.name == name.name &&
    meaning.declaration.labels == CallArgument.labels arguments

def Run.value (evaluated : Run (Option Value)) : Run Value := do
  Run.ofOption (← evaluated)

mutual

def Expr.eval (host : Host) (known : List Meaning) (parameters : List (String × Value)) :
    Expr → Run (Option Value)
  | .literal literal _ => return some literal.denote
  | .identifier name _ => do
    return some (← Run.ofOption (parameters.reverse.lookup name))
  | .unary op operand _ => do
    let operand ← Run.value (operand.eval host known parameters)
    return some (← Run.ofExcept (op.eval host operand))
  | .binary op lhs rhs _ => do
    let left ← Run.value (lhs.eval host known parameters)
    let right ← Run.value (rhs.eval host known parameters)
    return some (← Run.ofExcept (op.eval host left right))
  | .call name arguments children _ => do
    let callee ← Run.ofOption (known.find? fun meaning => meaning.isCalledBy name arguments)
    let values ← evalArguments host known parameters arguments
    evalChildren host known parameters children
    callee.act values
  | .conditional _ _ _ _ => throw .stuck

def evalArguments (host : Host) (known : List Meaning) (parameters : List (String × Value)) :
    List CallArgument → Run (List Value)
  | [] => return []
  | ⟨_, argument⟩ :: rest => do
    let value ← Run.value (argument.eval host known parameters)
    let others ← evalArguments host known parameters rest
    return value :: others

def evalChildren (host : Host) (known : List Meaning) (parameters : List (String × Value)) :
    Option (List Expr) → Run Unit
  | none => return ()
  | some children => evalStatements host known parameters children

def evalStatements (host : Host) (known : List Meaning) (parameters : List (String × Value)) :
    List Expr → Run Unit
  | [] => return ()
  | statement :: rest => do
    let _ ← statement.eval host known parameters
    evalStatements host known parameters rest

end

/-! ## Functions and programs -/

def FunctionDecl.evalResult (host : Host) (known : List Meaning)
    (parameters : List (String × Value)) (function : FunctionDecl) : Run (Option Value) :=
  match function.body.result with
  | some result => do return some (← Run.value (result.eval host known parameters))
  | none => return none

/-- Evaluates a function: its statements in order, and then its result. -/
def FunctionDecl.eval (host : Host) (known : List Meaning) (function : FunctionDecl)
    (arguments : List Value) : Run (Option Value) := do
  let parameters := function.labels.zip arguments
  evalStatements host known parameters function.body.statements
  function.evalResult host known parameters

def Meaning.print : Meaning where
  declaration := Builtin.print
  act
    | [.int value] => do
      Run.print value
      return none
    | _ => throw .stuck

/-- What functions mean, each with those before it; the built-in function is the first. -/
def meanings (host : Host) (functions : List FunctionDecl) : List Meaning :=
  functions.foldl (fun known function => known ++ [⟨function, function.eval host known⟩])
    [Meaning.print]

theorem meanings_append_singleton (host : Host) (functions : List FunctionDecl)
    (function : FunctionDecl) :
    meanings host (functions ++ [function]) =
      meanings host functions ++ [⟨function, function.eval host (meanings host functions)⟩] := by
  simp [meanings]

end ScalarLang
