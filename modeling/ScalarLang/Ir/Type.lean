/-!
# Types and signatures of the intermediate code

Values are integers of one, four or eight bytes, or doubles.  A signature is what
a call has to know of a function: the types of its parameters and results and how
they are passed.
-/

set_option autoImplicit false

namespace ScalarLang

namespace Ir

inductive Ty where
  | i8
  | i32
  | i64
  | f64
deriving DecidableEq, Repr

def Ty.text : Ty → String
  | .i8 => "i8"
  | .i32 => "i32"
  | .i64 => "i64"
  | .f64 => "f64"

def Ty.bytes : Ty → Nat
  | .i8 => 1
  | .i32 => 4
  | .i64 => 8
  | .f64 => 8

inductive CallConvention where
  | systemV
  | windowsFastcall
deriving DecidableEq, Repr

def CallConvention.text : CallConvention → String
  | .systemV => "system_v"
  | .windowsFastcall => "windows_fastcall"

structure Signature where
  params : List Ty
  results : List Ty
  convention : CallConvention
deriving DecidableEq, Repr

def Ty.listText (types : List Ty) : String := ", ".intercalate (types.map Ty.text)

def Signature.text (signature : Signature) : String :=
  let results :=
    if signature.results.isEmpty then "" else "-> " ++ Ty.listText signature.results ++ " "
  "(" ++ Ty.listText signature.params ++ ") " ++ results ++ signature.convention.text

end Ir

end ScalarLang
