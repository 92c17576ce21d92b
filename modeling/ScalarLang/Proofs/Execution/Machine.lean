import ScalarLang.Lowering.Program

/-!
# Running the intermediate code

Integers are two's complement words, and the operations on doubles are left open, as
is what the formatted output of the system returns.  A run of a function ends with its
results or stops, and in both cases leaves the integers that were printed.  A function
that is called is found by its number among the declarations of the object, and its
code is the recorded code of that name.
-/

set_option autoImplicit false

namespace ScalarLang

inductive Datum where
  | i8 (bits : BitVec 8)
  | i32 (bits : BitVec 32)
  | i64 (bits : BitVec 64)
  | f64 (value : Binary64)
  /-- The address of a symbol, in a type. -/
  | address (type : Ir.Ty) (symbol : Nat)
deriving DecidableEq, Repr

def Datum.type : Datum → Ir.Ty
  | .i8 _ => .i8
  | .i32 _ => .i32
  | .i64 _ => .i64
  | .f64 _ => .f64
  | .address type _ => type

def Datum.ofBool (value : Bool) : Datum := .i8 (if value then 1 else 0)

inductive Trap where
  | divisionByZero
  | overflow
deriving DecidableEq, Repr

inductive Stop where
  | trap (trap : Trap)
  /-- Code asks for something that has no meaning. -/
  | stuck
  /-- Calls are nested more deeply than allowed. -/
  | exhausted
deriving DecidableEq, Repr

/-- What the machine leaves open: the operations on doubles, and the result of the
formatted output of an integer. -/
structure Host where
  negate : Binary64 → Binary64
  add : Binary64 → Binary64 → Binary64
  sub : Binary64 → Binary64 → Binary64
  mul : Binary64 → Binary64 → Binary64
  div : Binary64 → Binary64 → Binary64
  compare : Ir.Comparison → Binary64 → Binary64 → Bool
  printed : Int64 → BitVec 32

instance : Inhabited Host where
  default :=
    { negate := id
      add := fun lhs _ => lhs
      sub := fun lhs _ => lhs
      mul := fun lhs _ => lhs
      div := fun lhs _ => lhs
      compare := fun _ _ _ => false
      printed := fun _ => 0 }

/-- A run: its state is the integers that were printed, in order. -/
abbrev Run := EStateM Stop (List Int64)

namespace Run

def ofExcept {α : Type} (outcome : Except Stop α) : Run α := fun output =>
  match outcome with
  | .ok value => .ok value output
  | .error stop => .error stop output

def ofOption {α : Type} : Option α → Run α
  | some value => pure value
  | none => throw .stuck

def print (value : Int64) : Run Unit := fun output => .ok () (output ++ [value])

end Run

namespace Ir

/-! ## Operations -/

def UnaryOp.onBits {width : Nat} (op : UnaryOp) (operand : BitVec width) :
    Except Stop (BitVec width) :=
  match op with
  | .ineg => .ok (-operand)
  | .bnot => .ok (~~~operand)
  | .fneg => .error .stuck

def UnaryOp.onDouble (host : Host) (op : UnaryOp) (operand : Binary64) : Except Stop Binary64 :=
  match op with
  | .fneg => .ok (host.negate operand)
  | _ => .error .stuck

def UnaryOp.apply (host : Host) (op : UnaryOp) : Datum → Except Stop Datum
  | .i8 operand => (op.onBits operand).map .i8
  | .i32 operand => (op.onBits operand).map .i32
  | .i64 operand => (op.onBits operand).map .i64
  | .f64 operand => (op.onDouble host operand).map .f64
  | .address _ _ => .error .stuck

/-- An operation on two integers.  A division stops at a zero divisor and where the
quotient does not fit; a remainder stops at a zero divisor only. -/
def BinaryOp.onBits {width : Nat} (op : BinaryOp) (lhs rhs : BitVec width) :
    Except Stop (BitVec width) :=
  match op with
  | .iadd => .ok (lhs + rhs)
  | .isub => .ok (lhs - rhs)
  | .imul => .ok (lhs * rhs)
  | .sdiv =>
    if rhs = .ofNat width 0 then .error (.trap .divisionByZero)
    else if lhs = BitVec.intMin width ∧ rhs = -.ofNat width 1 then .error (.trap .overflow)
    else .ok (lhs.sdiv rhs)
  | .srem => if rhs = .ofNat width 0 then .error (.trap .divisionByZero) else .ok (lhs.srem rhs)
  | .band => .ok (lhs &&& rhs)
  | .bor => .ok (lhs ||| rhs)
  | _ => .error .stuck

def BinaryOp.onDoubles (host : Host) (op : BinaryOp) (lhs rhs : Binary64) :
    Except Stop Binary64 :=
  match op with
  | .fadd => .ok (host.add lhs rhs)
  | .fsub => .ok (host.sub lhs rhs)
  | .fmul => .ok (host.mul lhs rhs)
  | .fdiv => .ok (host.div lhs rhs)
  | _ => .error .stuck

def BinaryOp.apply (host : Host) (op : BinaryOp) : Datum → Datum → Except Stop Datum
  | .i8 lhs, .i8 rhs => (op.onBits lhs rhs).map .i8
  | .i32 lhs, .i32 rhs => (op.onBits lhs rhs).map .i32
  | .i64 lhs, .i64 rhs => (op.onBits lhs rhs).map .i64
  | .f64 lhs, .f64 rhs => (op.onDoubles host lhs rhs).map .f64
  | _, _ => .error .stuck

def Comparison.onBits {width : Nat} (comparison : Comparison) (lhs rhs : BitVec width) : Bool :=
  match comparison with
  | .equal => lhs == rhs
  | .notEqual => lhs != rhs
  | .less => lhs.slt rhs
  | .lessEqual => lhs.sle rhs
  | .greater => rhs.slt lhs
  | .greaterEqual => rhs.sle lhs

def Comparison.apply (comparison : Comparison) : Datum → Datum → Except Stop Datum
  | .i8 lhs, .i8 rhs => .ok (.ofBool (comparison.onBits lhs rhs))
  | .i32 lhs, .i32 rhs => .ok (.ofBool (comparison.onBits lhs rhs))
  | .i64 lhs, .i64 rhs => .ok (.ofBool (comparison.onBits lhs rhs))
  | _, _ => .error .stuck

def Comparison.applyDoubles (host : Host) (comparison : Comparison) :
    Datum → Datum → Except Stop Datum
  | .f64 lhs, .f64 rhs => .ok (.ofBool (host.compare comparison lhs rhs))
  | _, _ => .error .stuck

def Ty.constant (value : Int64) : Ty → Except Stop Datum
  | .i8 => .ok (.i8 (.ofInt 8 value.toInt))
  | .i32 => .ok (.i32 (.ofInt 32 value.toInt))
  | .i64 => .ok (.i64 (.ofInt 64 value.toInt))
  | .f64 => .error .stuck

def flipBits (bits : Int64) : Datum → Except Stop Datum
  | .i8 operand => .ok (.i8 (operand ^^^ .ofInt 8 bits.toInt))
  | .i32 operand => .ok (.i32 (operand ^^^ .ofInt 32 bits.toInt))
  | .i64 operand => .ok (.i64 (operand ^^^ .ofInt 64 bits.toInt))
  | _ => .error .stuck

end Ir

/-! ## Functions -/

structure Frame where
  values : Ir.Value → Option Datum
  slots : Nat → Option Datum

namespace Frame

def start (arguments : List Datum) : Frame where
  values := fun value => arguments[value]?
  slots := fun _ => none

def read (frame : Frame) (value : Ir.Value) : Run Datum := .ofOption (frame.values value)

def readAll (frame : Frame) : List Ir.Value → Run (List Datum)
  | [] => return []
  | value :: rest => do
    let first ← frame.read value
    return first :: (← frame.readAll rest)

def define (frame : Frame) (value : Ir.Value) (datum : Datum) : Frame :=
  { frame with values := fun other => if other = value then some datum else frame.values other }

def store (frame : Frame) (slot : Nat) (datum : Datum) : Frame :=
  { frame with slots := fun other => if other = slot then some datum else frame.slots other }

/-- What an instruction that neither stores, calls nor returns computes. -/
def compute (frame : Frame) (host : Host) : Ir.Op → Run Datum
  | .intConst type value => .ofExcept (type.constant value)
  | .floatConst value => return .f64 value
  | .stackLoad type slot => do
    let datum ← .ofOption (frame.slots slot)
    if datum.type = type then return datum else throw .stuck
  | .unary op operand => do
    .ofExcept (op.apply host (← frame.read operand))
  | .xorConst operand bits => do
    .ofExcept (Ir.flipBits bits (← frame.read operand))
  | .binary op lhs rhs => do
    let left ← frame.read lhs
    let right ← frame.read rhs
    .ofExcept (op.apply host left right)
  | .intCompare comparison lhs rhs => do
    let left ← frame.read lhs
    let right ← frame.read rhs
    .ofExcept (comparison.apply left right)
  | .floatCompare comparison lhs rhs => do
    let left ← frame.read lhs
    let right ← frame.read rhs
    .ofExcept (comparison.applyDoubles host left right)
  | .globalValue type symbol => return .address type symbol
  | .stackStore _ _ => throw .stuck
  | .call _ _ => throw .stuck
  | .ret _ => throw .stuck

end Frame

abbrev Caller := Nat → List Datum → Run (List Datum)

namespace Ir.Function

def runInst (function : Function) (host : Host) (caller : Caller) (frame : Frame) (inst : Inst) :
    Run Frame :=
  match inst.op with
  | .stackStore value slot => do
    let datum ← frame.read value
    if function.slots[slot]? = some datum.type.bytes then return frame.store slot datum
    else throw .stuck
  | .call callee arguments => do
    let used ← .ofOption function.callees[callee]?
    let data ← frame.readAll arguments
    match inst.result, ← caller used.function data with
    | some value, [datum] => return frame.define value datum
    | none, [] => return frame
    | _, _ => throw .stuck
  | op => do
    let value ← .ofOption inst.result
    return frame.define value (← frame.compute host op)

def runBody (function : Function) (host : Host) (caller : Caller) :
    Frame → List Inst → Run (List Datum)
  | _, [] => throw .stuck
  | frame, inst :: rest =>
    match inst.op with
    | .ret values => frame.readAll values
    | _ => do runBody function host caller (← function.runInst host caller frame inst) rest

def run (function : Function) (host : Host) (caller : Caller) (arguments : List Datum) :
    Run (List Datum) :=
  if arguments.map Datum.type = function.signature.params then
    function.runBody host caller (.start arguments) function.body.toList
  else throw .stuck

end Ir.Function

/-! ## Objects -/

inductive Routine where
  /-- The formatted output of the system. -/
  | system
  | code (function : Ir.Function)

namespace Lowering

def codeOf? (lowering : Lowering) (name : String) : Option Ir.Function :=
  lowering.recorded.toList.find? fun code => code.name == name

def routine? (lowering : Lowering) (number : Nat) : Option Routine :=
  match lowering.declarations.functions[number]? with
  | none => none
  | some entry =>
    match entry.linkage with
    | .imported => if entry.name = Builtin.systemPrint then some .system else none
    | _ => (lowering.codeOf? entry.name).map .code

/-- Calls the function of a number, with calls nested up to a depth. -/
def call (lowering : Lowering) (host : Host) : Nat → Caller
  | 0, _, _ => throw .exhausted
  | depth + 1, number, arguments =>
    match lowering.routine? number with
    | some (.code function) => function.run host (lowering.call host depth) arguments
    | some .system =>
      match arguments with
      | [.address _ _, .i64 value] => do
        Run.print ⟨⟨value⟩⟩
        return [.i32 (host.printed ⟨⟨value⟩⟩)]
      | _ => throw .stuck
    | none => throw .stuck

end Lowering

end ScalarLang
