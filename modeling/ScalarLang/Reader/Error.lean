import ScalarLang.Source.Excerpt
import ScalarLang.Token.Lexer

/-!
# Errors of reading a program

A syntax error says what is wrong at which span, line and column.  Its full text
adds the name of the file and an excerpt of the source.
-/

set_option autoImplicit false

namespace ScalarLang

inductive Expectation where
  | token (kind : TokenKind)
  /-- The end of a line after a function. -/
  | newline
  | expression
deriving DecidableEq, Repr

def Expectation.text : Expectation → String
  | .token kind => kind.name
  | .newline => "a newline"
  | .expression => "an expression"

/-- The parts of a program that are known and cannot be read yet. -/
inductive Construct where
  | imports
  | structures
  | exports
deriving DecidableEq, Repr

def Construct.text : Construct → String
  | .imports => "import statements"
  | .structures => "struct declarations"
  | .exports => "export statements"

inductive SyntaxFault where
  /-- A token, or the end of the text, where something else is needed. -/
  | expected (wanted : Expectation) (found : Option (TokenKind × String))
  /-- A text that is no token. -/
  | lexical (fault : LexFault)
  /-- A constant that has no value. -/
  | invalidLiteral (kind : TokenKind) (text : String)
  | notYetSupported (construct : Construct)
deriving DecidableEq, Repr

def SyntaxFault.message : SyntaxFault → String
  | .expected wanted found =>
    let got :=
      match found with
      | some (kind, text) => kind.describe text
      | none => "end of input"
    "expected " ++ wanted.text ++ ", but got " ++ got
  | .lexical fault => fault.message
  | .invalidLiteral kind text => "invalid " ++ kind.withText text
  | .notYetSupported construct => construct.text ++ " are not yet supported"

structure SyntaxError where
  fault : SyntaxFault
  span : Span
  line : Nat
  column : Nat
deriving DecidableEq, Repr

namespace SyntaxError

def ofLexError (error : LexError) : SyntaxError :=
  ⟨.lexical error.fault, error.span, error.position.line, error.position.column⟩

def excerpt (error : SyntaxError) (source : Source) : Excerpt :=
  source.excerpt error.line error.column

def render (error : SyntaxError) (source : Source) : String :=
  error.fault.message ++ "\nat " ++ source.name ++ ", line " ++ toString error.line ++
    ", column " ++ toString error.column ++ "\n" ++ (error.excerpt source).render

end SyntaxError

end ScalarLang
