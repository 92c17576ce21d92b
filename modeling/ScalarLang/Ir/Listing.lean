import ScalarLang.Ir.Function
import ScalarLang.Numeric.DecimalText

/-!
# Listings

The text of a function: its header, what it uses, and its block.  An instruction that uses
constants shows their values after it.  Small integers are written in base ten, others as the
sixty-four bits of their two's complement in groups of four digits of base sixteen.  Doubles are
written with their exact fraction in base sixteen.
-/

set_option autoImplicit false

namespace ScalarLang

/-! ## Constants -/

namespace Ir

def paddedHex (width number : Nat) : String :=
  let digits := Nat.toDigits 16 number
  Binary64.zeros (width - digits.length) ++ String.ofList digits

/-- The four groups of sixteen bits of a word, the highest first. -/
def wordGroups (word : Nat) : List Nat :=
  [3, 2, 1, 0].map fun place => word / Nat.pow 2 (16 * place) % Nat.pow 2 16

/-- A word in groups of four digits of base sixteen, without the zero groups at
its start. -/
def groupedHex (word : Nat) : String :=
  "0x" ++ "_".intercalate (((wordGroups word).dropWhile (· == 0)).map (paddedHex 4))

def intText (value : Int64) : String :=
  if -10000 < value.toInt ∧ value.toInt < 10000 then toString value.toInt
  else groupedHex value.toUInt64.toNat

/-- The text of a constant double that is not negative. -/
def floatText (value : Binary64) : String :=
  if value.isInfinite then "+Inf"
  else if value.significand = 0 then "0.0"
  else if value.exponentField = 0 then "0x0." ++ paddedHex 13 value.fraction ++ "p-1022"
  else
    "0x1." ++ paddedHex 13 value.fraction ++ "p" ++
      toString ((value.exponentField : Int) - 1023)

end Ir

/-! ## Functions -/

namespace Ir

def valueText (value : Value) : String := "v" ++ toString value

def valuesText (values : List Value) : String := ", ".intercalate (values.map valueText)

def Op.text : Op → String
  | .intConst type value => "iconst." ++ type.text ++ " " ++ intText value
  | .floatConst value => "f64const " ++ floatText value
  | .stackLoad type slot => "stack_load." ++ type.text ++ " ss" ++ toString slot
  | .stackStore value slot => "stack_store " ++ valueText value ++ ", ss" ++ toString slot
  | .unary op operand => op.text ++ " " ++ valueText operand
  | .xorConst operand bits => "bxor_imm " ++ valueText operand ++ ", " ++ intText bits
  | .binary op lhs rhs => op.text ++ " " ++ valuesText [lhs, rhs]
  | .intCompare comparison lhs rhs =>
    "icmp " ++ comparison.intText ++ " " ++ valuesText [lhs, rhs]
  | .floatCompare comparison lhs rhs =>
    "fcmp " ++ comparison.floatText ++ " " ++ valuesText [lhs, rhs]
  | .globalValue type symbol => "global_value." ++ type.text ++ " gv" ++ toString symbol
  | .call callee arguments => "call fn" ++ toString callee ++ "(" ++ valuesText arguments ++ ")"
  | .ret values => if values.isEmpty then "return" else "return " ++ valuesText values

def Op.constantText? : Op → Option String
  | .intConst _ value => some (intText value)
  | .floatConst value => some (floatText value)
  | _ => none

namespace Function

def constantText? (function : Function) (value : Value) : Option String :=
  match function.body.find? fun inst => inst.result == some value with
  | some inst => inst.op.constantText?
  | none => none

def notes (function : Function) (op : Op) : List String :=
  op.operands.filterMap fun value =>
    (function.constantText? value).map fun text => valueText value ++ " = " ++ text

def instText (function : Function) (inst : Inst) : String :=
  let result :=
    match inst.result with
    | some value => valueText value ++ " = "
    | none => ""
  let notes := function.notes inst.op
  let remark := if notes.isEmpty then "" else "  ; " ++ ", ".intercalate notes
  "    " ++ result ++ inst.op.text ++ remark ++ "\n"

def numbered {α : Type} (items : Array α) : List (Nat × α) :=
  items.toList.zipIdx.map fun item => (item.2, item.1)

def preamble (function : Function) : List String :=
  (numbered function.slots).map (fun (place, size) =>
    "    ss" ++ toString place ++ " = explicit_slot " ++ toString size ++ "\n") ++
  (numbered function.symbols).map (fun (place, symbol) =>
    "    gv" ++ toString place ++ " = symbol colocated userextname" ++ toString symbol ++ "\n") ++
  (numbered function.signatures).map (fun (place, signature) =>
    "    sig" ++ toString place ++ " = " ++ signature.text ++ "\n") ++
  (numbered function.callees).map (fun (place, callee) =>
    "    fn" ++ toString place ++ " = " ++ (if callee.colocated then "colocated " else "") ++
      "u0:" ++ toString callee.function ++ " sig" ++ toString callee.signature ++ "\n")

def blockHeader (function : Function) : String :=
  let params := function.signature.params.zipIdx.map fun (type, place) =>
    valueText place ++ ": " ++ type.text
  if params.isEmpty then "block0:\n" else "block0(" ++ ", ".intercalate params ++ "):\n"

def listing (function : Function) : String :=
  let preamble := function.preamble
  "function %" ++ function.name ++ function.signature.text ++ " \x7b\n" ++
    String.join preamble ++ (if preamble.isEmpty then "" else "\n") ++
    function.blockHeader ++
    String.join (function.body.toList.map function.instText) ++ "\x7d\n"

end Function

end Ir

end ScalarLang
