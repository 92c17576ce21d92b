import ScalarLang.Ir.Function

/-!
# Well-formed functions

A function is well formed if its only return is its last instruction, every value
is defined once and before it is used, and the operands and the result of every
instruction have the types that it asks for.
-/

set_option autoImplicit false

namespace ScalarLang

namespace Ir

def Ty.isInt : Ty → Bool
  | .f64 => false
  | _ => true

def UnaryOp.takes : UnaryOp → Ty → Bool
  | .fneg, type => !type.isInt
  | _, type => type.isInt

def BinaryOp.takes : BinaryOp → Ty → Bool
  | .fadd, type => !type.isInt
  | .fsub, type => !type.isInt
  | .fmul, type => !type.isInt
  | .fdiv, type => !type.isInt
  | _, type => type.isInt

namespace Function

def haveTypes (function : Function) (values : List Value) (types : List Ty) : Bool :=
  values.map function.typeOf? == types.map some

def calleeSignature? (function : Function) (callee : Nat) : Option Signature :=
  match function.callees[callee]? with
  | some used => function.signatures[used.signature]?
  | none => none

def wellTyped (function : Function) (op : Op) (result : Option Ty) : Bool :=
  match op with
  | .intConst type _ => type.isInt && result == some type
  | .floatConst _ => result == some .f64
  | .stackLoad type slot =>
    function.slots[slot]? == some type.bytes && result == some type
  | .stackStore value slot =>
    match function.typeOf? value with
    | some type => function.slots[slot]? == some type.bytes && result == none
    | none => false
  | .unary op operand =>
    match function.typeOf? operand with
    | some type => op.takes type && result == some type
    | none => false
  | .xorConst operand _ =>
    match function.typeOf? operand with
    | some type => type.isInt && result == some type
    | none => false
  | .binary op lhs rhs =>
    match function.typeOf? lhs with
    | some type =>
      function.typeOf? rhs == some type && op.takes type && result == some type
    | none => false
  | .intCompare _ lhs rhs =>
    match function.typeOf? lhs with
    | some type => function.typeOf? rhs == some type && type.isInt && result == some .i8
    | none => false
  | .floatCompare _ lhs rhs =>
    function.haveTypes [lhs, rhs] [.f64, .f64] && result == some .i8
  | .globalValue type _ => result == some type
  | .call callee arguments =>
    match function.calleeSignature? callee with
    | some signature =>
      function.haveTypes arguments signature.params && result == signature.results.head?
    | none => false
  | .ret values => function.haveTypes values function.signature.results && result == none

def isReturn : Op → Bool
  | .ret _ => true
  | _ => false

/-- Whether an instruction that comes after some number of values uses only these,
numbers its result as the next one, and is well typed. -/
def checkInst (function : Function) (defined : Nat) (inst : Inst) : Bool :=
  inst.op.operands.all (· < defined) &&
    (match inst.result with
      | some value => value == defined && function.wellTyped inst.op (function.typeOf? value)
      | none => function.wellTyped inst.op none)

/-- Whether instructions that come after some number of values are well formed and
end in their only return. -/
def checkBody (function : Function) : Nat → List Inst → Bool
  | _, [] => false
  | defined, inst :: rest =>
    function.checkInst defined inst &&
      (if isReturn inst.op then rest.isEmpty
      else
        match inst.result with
        | some _ => checkBody function (defined + 1) rest
        | none => checkBody function defined rest)

def check (function : Function) : Bool :=
  let params := function.signature.params
  function.values.toList.take params.length == params &&
    function.checkBody params.length function.body.toList

end Function

end Ir

end ScalarLang
