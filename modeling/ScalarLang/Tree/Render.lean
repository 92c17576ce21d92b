import ScalarLang.Numeric.DecimalText
import ScalarLang.Tree.Basic

/-!
# The text of a tree

Every operator with its operands stands in parentheses, so the text shows how an
expression was grouped.
-/

set_option autoImplicit false

namespace ScalarLang

def TypePath.render (path : TypePath) : String :=
  ".".intercalate (path.names.map Ident.name)

def Literal.render : Literal → String
  | .integer value => toString value.toInt
  | .float value => value.text
  | .boolean value => if value then "true" else "false"

mutual

def Expr.render : Expr → String
  | .conditional condition thenBlock elseBlock _ =>
    "(if " ++ condition.render ++ " " ++ thenBlock.render ++ renderElse elseBlock ++ ")"
  | .call name arguments children _ =>
    name.name ++ "(" ++ renderArguments arguments ++ ")" ++ renderChildren children
  | .binary op lhs rhs _ => "(" ++ lhs.render ++ " " ++ op.text ++ " " ++ rhs.render ++ ")"
  | .unary op operand _ => "(" ++ op.text ++ operand.render ++ ")"
  | .identifier name _ => name
  | .literal value _ => value.render

def Block.render : Block → String
  | ⟨statements, result⟩ =>
    "\x7b" ++ renderStatements statements ++ renderResult result ++ " \x7d"

def renderElse : Option Block → String
  | none => ""
  | some block => " else " ++ block.render

def renderArguments : List CallArgument → String
  | [] => ""
  | [⟨label, value⟩] => label.name ++ ": " ++ value.render
  | ⟨label, value⟩ :: rest =>
    label.name ++ ": " ++ value.render ++ ", " ++ renderArguments rest

def renderChildren : Option (List Expr) → String
  | none => ""
  | some children => " \x7b" ++ renderEach children ++ " \x7d"

def renderEach : List Expr → String
  | [] => ""
  | child :: rest => " " ++ child.render ++ renderEach rest

def renderStatements : List Expr → String
  | [] => ""
  | statement :: rest => " " ++ statement.render ++ ";" ++ renderStatements rest

def renderResult : Option Expr → String
  | none => ""
  | some result => " return " ++ result.render

end

end ScalarLang
