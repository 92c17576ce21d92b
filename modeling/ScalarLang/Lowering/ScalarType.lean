import ScalarLang.Lowering.Error

/-!
# Scalar types

The types of the language.  A path names one only if it is a single name.
-/

set_option autoImplicit false

namespace ScalarLang

inductive ScalarType where
  | int
  | float
  | bool
deriving DecidableEq, Repr

namespace ScalarType

def name : ScalarType → String
  | .int => "Int"
  | .float => "Float"
  | .bool => "Bool"

def ofName? (name : String) : Option ScalarType :=
  if name = "Int" then some .int
  else if name = "Float" then some .float
  else if name = "Bool" then some .bool
  else none

/-- The type of the values of a type; a truth value takes a byte. -/
def lowered : ScalarType → Ir.Ty
  | .int => .i64
  | .float => .f64
  | .bool => .i8

def ofPath (path : TypePath) : Except LoweringError ScalarType :=
  match path.inner, ofName? path.head.name with
  | [], some type => .ok type
  | _, _ => .error (.unknownType path)

def ofParameters : List Parameter → Except LoweringError (List ScalarType)
  | [] => .ok []
  | parameter :: rest =>
    match ofPath parameter.type with
    | .error error => .error error
    | .ok type =>
      match ofParameters rest with
      | .error error => .error error
      | .ok types => .ok (type :: types)

def ofResult : Option TypePath → Except LoweringError (Option ScalarType)
  | none => .ok none
  | some path =>
    match ofPath path with
    | .error error => .error error
    | .ok type => .ok (some type)

end ScalarType

end ScalarLang
