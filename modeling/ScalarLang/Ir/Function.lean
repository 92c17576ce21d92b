import ScalarLang.Ir.Type
import ScalarLang.Numeric.Binary64

/-!
# Functions of the intermediate code

A function is one block of instructions.  Values are numbered: first the
parameters, then the results of instructions in their order.  A function also
lists its stack slots, the signatures and functions that its calls use, and the
symbols whose addresses it takes.  Each is known by its place in its list.
-/

set_option autoImplicit false

namespace ScalarLang

namespace Ir

abbrev Value := Nat

inductive UnaryOp where
  | ineg
  | fneg
  | bnot
deriving DecidableEq, Repr

def UnaryOp.text : UnaryOp → String
  | .ineg => "ineg"
  | .fneg => "fneg"
  | .bnot => "bnot"

inductive BinaryOp where
  | iadd
  | isub
  | imul
  | sdiv
  | srem
  | fadd
  | fsub
  | fmul
  | fdiv
  | band
  | bor
deriving DecidableEq, Repr

def BinaryOp.text : BinaryOp → String
  | .iadd => "iadd"
  | .isub => "isub"
  | .imul => "imul"
  | .sdiv => "sdiv"
  | .srem => "srem"
  | .fadd => "fadd"
  | .fsub => "fsub"
  | .fmul => "fmul"
  | .fdiv => "fdiv"
  | .band => "band"
  | .bor => "bor"

inductive Comparison where
  | equal
  | notEqual
  | less
  | lessEqual
  | greater
  | greaterEqual
deriving DecidableEq, Repr

def Comparison.intText : Comparison → String
  | .equal => "eq"
  | .notEqual => "ne"
  | .less => "slt"
  | .lessEqual => "sle"
  | .greater => "sgt"
  | .greaterEqual => "sge"

def Comparison.floatText : Comparison → String
  | .equal => "eq"
  | .notEqual => "ne"
  | .less => "lt"
  | .lessEqual => "le"
  | .greater => "gt"
  | .greaterEqual => "ge"

inductive Op where
  /-- A constant integer of a type. -/
  | intConst (type : Ty) (value : Int64)
  /-- A constant double. -/
  | floatConst (value : Binary64)
  /-- The content of a stack slot. -/
  | stackLoad (type : Ty) (slot : Nat)
  /-- Puts a value into a stack slot. -/
  | stackStore (value : Value) (slot : Nat)
  | unary (op : UnaryOp) (operand : Value)
  /-- Flips the bits of a value that a constant has. -/
  | xorConst (operand : Value) (bits : Int64)
  | binary (op : BinaryOp) (lhs rhs : Value)
  | intCompare (comparison : Comparison) (lhs rhs : Value)
  | floatCompare (comparison : Comparison) (lhs rhs : Value)
  /-- The address of a symbol. -/
  | globalValue (type : Ty) (symbol : Nat)
  /-- A call of one of the functions that are used. -/
  | call (callee : Nat) (arguments : List Value)
  /-- The end of the function, with its results. -/
  | ret (values : List Value)
deriving DecidableEq, Repr

def Op.operands : Op → List Value
  | .intConst _ _ => []
  | .floatConst _ => []
  | .stackLoad _ _ => []
  | .stackStore value _ => [value]
  | .unary _ operand => [operand]
  | .xorConst operand _ => [operand]
  | .binary _ lhs rhs => [lhs, rhs]
  | .intCompare _ lhs rhs => [lhs, rhs]
  | .floatCompare _ lhs rhs => [lhs, rhs]
  | .globalValue _ _ => []
  | .call _ arguments => arguments
  | .ret values => values

structure Inst where
  result : Option Value
  op : Op
deriving DecidableEq, Repr

/-- A function that calls use: its number in the object, whether it is in the same
object, and the place of its signature. -/
structure Callee where
  function : Nat
  colocated : Bool
  signature : Nat
deriving DecidableEq, Repr

structure Function where
  name : String
  signature : Signature
  /-- The sizes of the stack slots in bytes. -/
  slots : Array Nat
  /-- The symbols whose addresses are taken, by their numbers among the names from
  outside. -/
  symbols : Array Nat
  signatures : Array Signature
  callees : Array Callee
  values : Array Ty
  body : Array Inst
deriving DecidableEq, Repr

namespace Function

def start (name : String) (signature : Signature) : Function :=
  { name, signature, slots := #[], symbols := #[], signatures := #[], callees := #[]
    values := signature.params.toArray, body := #[] }

def cleared (convention : CallConvention) : Function :=
  { name := "", signature := ⟨[], [], convention⟩, slots := #[], symbols := #[]
    signatures := #[], callees := #[], values := #[], body := #[] }

def sign (function : Function) (name : String) (params results : List Ty) : Function :=
  { function with
    name
    signature := ⟨function.signature.params ++ params, function.signature.results ++ results,
      function.signature.convention⟩ }

def openBlock (function : Function) : Function :=
  { function with values := function.values ++ function.signature.params.toArray }

theorem signature_sign_cleared (name : String) (params results : List Ty)
    (convention : CallConvention) :
    ((cleared convention).sign name params results).signature = ⟨params, results, convention⟩ :=
  rfl

theorem openBlock_sign_cleared (name : String) (params results : List Ty)
    (convention : CallConvention) :
    ((cleared convention).sign name params results).openBlock =
      start name ⟨params, results, convention⟩ := by
  simp [cleared, sign, openBlock, start]

def emit (function : Function) (op : Op) : Function :=
  { function with body := function.body.push ⟨none, op⟩ }

def define (function : Function) (type : Ty) (op : Op) : Value × Function :=
  let value := function.values.size
  (value, { function with
    values := function.values.push type
    body := function.body.push ⟨some value, op⟩ })

def addSlot (function : Function) (type : Ty) : Nat × Function :=
  (function.slots.size, { function with slots := function.slots.push type.bytes })

def addCallee (function : Function) (number : Nat) (colocated : Bool)
    (signature : Signature) : Nat × Function :=
  (function.callees.size, { function with
    signatures := function.signatures.push signature
    callees := function.callees.push ⟨number, colocated, function.signatures.size⟩ })

def addSymbol (function : Function) (symbol : Nat) : Nat × Function :=
  (function.symbols.size, { function with symbols := function.symbols.push symbol })

/-- Adds a call, and gives the number and the type of its result if the signature
has one. -/
def addCall (function : Function) (number : Nat) (colocated : Bool)
    (signature : Signature) (arguments : List Value) : Option (Value × Ty) × Function :=
  let (callee, extended) := function.addCallee number colocated signature
  match signature.results with
  | [] => (none, extended.emit (.call callee arguments))
  | type :: _ =>
    let (value, called) := extended.define type (.call callee arguments)
    (some (value, type), called)

def typeOf? (function : Function) (value : Value) : Option Ty := function.values[value]?

end Function

end Ir

end ScalarLang
