import ScalarLang.Numeric.Binary64
import ScalarLang.Source.Basic

/-!
# The tree of a program

A program is a list of functions.  A function has named parameters with types, an optional result
type and a block; a block is a list of expressions and an optional result.  Every name and every
expression carries the span of the source text it was read from.  Functions of one name are told
apart by the labels of their parameters: the low-level name of a function is its name, an
underscore and its labels joined by hyphens.
-/

set_option autoImplicit false

namespace ScalarLang

structure Ident where
  name : String
  span : Span
deriving DecidableEq, Repr

/-- A path of type names, outermost first. -/
structure TypePath where
  head : Ident
  inner : List Ident
  /-- The span of the token that was read last. -/
  last : Span
deriving DecidableEq, Repr

namespace TypePath

def simple (name : Ident) : TypePath := ⟨name, [], name.span⟩

def names (path : TypePath) : List Ident := path.head :: path.inner

/-- The span from the first name to the token that was read last. -/
def span (path : TypePath) : Span := path.head.span.union path.last

end TypePath

inductive Literal where
  | integer (value : Int64)
  | float (value : Binary64)
  | boolean (value : Bool)
deriving DecidableEq, Repr

inductive BinaryOp where
  | logicalOr
  | logicalAnd
  | equal
  | notEqual
  | less
  | lessEqual
  | greater
  | greaterEqual
  | rangeInclusive
  | rangeExclusive
  | add
  | sub
  | mul
  | div
  | rem
deriving DecidableEq, Repr

def BinaryOp.text : BinaryOp → String
  | .logicalOr => "||"
  | .logicalAnd => "&&"
  | .equal => "=="
  | .notEqual => "!="
  | .less => "<"
  | .lessEqual => "<="
  | .greater => ">"
  | .greaterEqual => ">="
  | .rangeInclusive => "..."
  | .rangeExclusive => "..<"
  | .add => "+"
  | .sub => "-"
  | .mul => "*"
  | .div => "/"
  | .rem => "%"

inductive UnaryOp where
  | not
  | negate
deriving DecidableEq, Repr

def UnaryOp.text : UnaryOp → String
  | .not => "!"
  | .negate => "-"

mutual

inductive Expr where
  /-- A choice between two blocks. -/
  | conditional (condition : Expr) (thenBlock : Block) (elseBlock : Option Block) (span : Span)
  /-- A call of a function by its name and the labels of the arguments, with
  children between braces or without. -/
  | call (name : Ident) (arguments : List CallArgument) (children : Option (List Expr))
      (span : Span)
  | binary (op : BinaryOp) (lhs rhs : Expr) (span : Span)
  | unary (op : UnaryOp) (operand : Expr) (span : Span)
  | identifier (name : String) (span : Span)
  | literal (value : Literal) (span : Span)

/-- Expressions in order, and perhaps one whose value is returned. -/
structure Block where
  statements : List Expr
  result : Option Expr

/-- A value for the parameter that the label names. -/
structure CallArgument where
  label : Ident
  value : Expr

end

namespace Expr

def span : Expr → Span
  | .conditional _ _ _ span => span
  | .call _ _ _ span => span
  | .binary _ _ _ span => span
  | .unary _ _ span => span
  | .identifier _ span => span
  | .literal _ span => span

def withSpan (span : Span) : Expr → Expr
  | .conditional condition thenBlock elseBlock _ =>
    .conditional condition thenBlock elseBlock span
  | .call name arguments children _ => .call name arguments children span
  | .binary op lhs rhs _ => .binary op lhs rhs span
  | .unary op operand _ => .unary op operand span
  | .identifier name _ => .identifier name span
  | .literal value _ => .literal value span

@[simp]
theorem span_withSpan (span : Span) (expr : Expr) : (expr.withSpan span).span = span := by
  cases expr <;> rfl

end Expr

structure Parameter where
  name : Ident
  type : TypePath
deriving DecidableEq, Repr

structure FunctionDecl where
  name : Ident
  parameters : List Parameter
  resultType : Option TypePath
  body : Block

structure Module where
  functions : List FunctionDecl

/-! ## Low-level names -/

def mangle (name : String) (labels : List String) : String :=
  name ++ "_" ++ "-".intercalate labels

namespace FunctionDecl

def labels (function : FunctionDecl) : List String :=
  function.parameters.map fun parameter => parameter.name.name

def lowLevelName (function : FunctionDecl) : String :=
  mangle function.name.name function.labels

end FunctionDecl

namespace CallArgument

def labels (arguments : List CallArgument) : List String :=
  arguments.map fun argument => argument.label.name

def lowLevelName (name : Ident) (arguments : List CallArgument) : String :=
  mangle name.name (labels arguments)

end CallArgument

end ScalarLang
