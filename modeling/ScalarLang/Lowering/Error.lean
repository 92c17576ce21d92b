import ScalarLang.Object.Declarations
import ScalarLang.Scope.Table
import ScalarLang.Tree.Render

/-!
# Errors of lowering a program

Errors that come from the text of a program carry the span they are about.
-/

set_option autoImplicit false

namespace ScalarLang

inductive LoweringError where
  | unsupportedArchitecture (name : String)
  /-- The object refuses its format, a declaration or a definition. -/
  | object (error : ObjectError)
  /-- The code of a function is not well formed. -/
  | illFormed
  /-- The scopes are not left in the order they were entered. -/
  | scope (error : ScopeError)
  | unknownType (path : TypePath)
  | functionNotDefined (name lowLevelName : String) (span : Span)
  | labelMismatch (expected found : String) (span : Span)
  | countMismatch (name : String) (expected found : Nat) (span : Span)
  | missingResult (name : Ident)
  | unexpectedResult (name : String) (span : Span)
  | variableNotDefined (name : String) (span : Span)
  | notAValue (name : String) (span : Span)
  | voidValue (span : Span)
  | operandMismatch (op : String) (lhs rhs : Ir.Ty) (span : Span)
  | unsupportedOperator (op : String) (type : Ir.Ty) (span : Span)
  | unsupportedConditional (span : Span)
deriving DecidableEq, Repr

namespace LoweringError

def typesText (types : List Ir.Ty) : String :=
  let one (type : Ir.Ty) : String :=
    "AbiParam \x7b value_type: types::" ++ type.text.toUpper ++
      ", purpose: Normal, extension: None \x7d"
  "[" ++ ", ".intercalate (types.map one) ++ "]"

def signatureText (signature : Ir.Signature) : String :=
  let convention :=
    match signature.convention with
    | .systemV => "SystemV"
    | .windowsFastcall => "WindowsFastcall"
  "Signature \x7b params: " ++ typesText signature.params ++ ", returns: " ++
    typesText signature.results ++ ", call_conv: " ++ convention ++ " \x7d"

def formatMessage : ObjectFormat → String
  | .unknown => "binary format is unknown"
  | .wasm => "binary format wasm is unsupported"
  | format => "binary format " ++ format.text ++ " not recognized"

def objectMessage : ObjectError → String
  | .unsupportedFormat format => "Backend error: " ++ formatMessage format
  | .incompatibleSignature name previous requested =>
    "Function " ++ name ++ " signature " ++ signatureText requested ++
      " is incompatible with previous declaration " ++ signatureText previous
  | .duplicateDefinition name => "Duplicate definition of identifier: " ++ name

def message : LoweringError → String
  | .unsupportedArchitecture name => "unsupported architecture: " ++ name
  | .object error => objectMessage error
  | .illFormed => "Verifier errors"
  | .scope error => error.message
  | .unknownType path => "unknown type `" ++ path.render ++ "`"
  | .functionNotDefined name _ _ => "function `" ++ name ++ "` is not defined"
  | .labelMismatch expected found _ =>
    "argument `" ++ found ++ "` does not match `" ++ expected ++ "`"
  | .countMismatch name expected found _ =>
    "function `" ++ name ++ "` takes " ++ toString expected ++ " argument(s) but " ++
      toString found ++ " were given"
  | .missingResult name =>
    "function `" ++ name.name ++ "` declares a return type but has no return expression"
  | .unexpectedResult name _ =>
    "function `" ++ name ++ "` has a return expression but declares no return type"
  | .variableNotDefined name _ => "`" ++ name ++ "` is not defined"
  | .notAValue name _ => "`" ++ name ++ "` is a function, not a value"
  | .voidValue _ => "expression does not produce a value"
  | .operandMismatch op lhs rhs _ =>
    "mismatched operand types `" ++ lhs.text ++ "` and `" ++ rhs.text ++ "` for `" ++ op ++ "`"
  | .unsupportedOperator op type _ =>
    "operator `" ++ op ++ "` is not supported for `" ++ type.text ++ "`"
  | .unsupportedConditional _ => "if expressions are not yet supported"

def span? : LoweringError → Option Span
  | .unsupportedArchitecture _ => none
  | .object _ => none
  | .illFormed => none
  | .scope _ => none
  | .unknownType path => some path.span
  | .functionNotDefined _ _ span => some span
  | .labelMismatch _ _ span => some span
  | .countMismatch _ _ _ span => some span
  | .missingResult name => some name.span
  | .unexpectedResult _ span => some span
  | .variableNotDefined _ span => some span
  | .notAValue _ span => some span
  | .voidValue span => some span
  | .operandMismatch _ _ _ span => some span
  | .unsupportedOperator _ _ span => some span
  | .unsupportedConditional span => some span

end LoweringError

end ScalarLang
