/-!
# Kinds of tokens

Keywords, operators and symbols are fixed words; the other kinds of tokens are
classes of texts.  Every kind has a category, and a name under which it is
asked for in messages.
-/

set_option autoImplicit false

namespace ScalarLang

inductive Keyword where
  | kwImport
  | kwAs
  | kwStruct
  | kwPub
  | kwConst
  | kwVar
  | kwFn
  | kwExport
  | kwReturn
  | kwIf
  | kwElse
  | kwThrows
  | kwAsync
deriving DecidableEq, Repr

namespace Keyword

def text : Keyword → String
  | .kwImport => "import"
  | .kwAs => "as"
  | .kwStruct => "struct"
  | .kwPub => "pub"
  | .kwConst => "const"
  | .kwVar => "var"
  | .kwFn => "fn"
  | .kwExport => "export"
  | .kwReturn => "return"
  | .kwIf => "if"
  | .kwElse => "else"
  | .kwThrows => "throws"
  | .kwAsync => "async"

def all : List Keyword :=
  [.kwImport, .kwAs, .kwStruct, .kwPub, .kwConst, .kwVar, .kwFn, .kwExport, .kwReturn,
    .kwIf, .kwElse, .kwThrows, .kwAsync]

def ofWord? (word : String) : Option Keyword :=
  all.find? fun keyword => keyword.text == word

end Keyword

inductive Operator where
  | add
  | sub
  | mul
  | div
  | rem
  | caret
  | bang
  | assign
  | less
  | greater
  | amp
  | pipe
  | equal
  | notEqual
  | lessEqual
  | greaterEqual
  | andAnd
  | orOr
  | rangeInclusive
  | rangeExclusive
deriving DecidableEq, Repr

def Operator.text : Operator → String
  | .add => "+"
  | .sub => "-"
  | .mul => "*"
  | .div => "/"
  | .rem => "%"
  | .caret => "^"
  | .bang => "!"
  | .assign => "="
  | .less => "<"
  | .greater => ">"
  | .amp => "&"
  | .pipe => "|"
  | .equal => "=="
  | .notEqual => "!="
  | .lessEqual => "<="
  | .greaterEqual => ">="
  | .andAnd => "&&"
  | .orOr => "||"
  | .rangeInclusive => "..."
  | .rangeExclusive => "..<"

inductive Symbol where
  | leftBrace
  | rightBrace
  | leftParen
  | rightParen
  | leftBracket
  | rightBracket
  | comma
  | dot
  | colon
  | semicolon
  | arrow
  | slashGreater
  | lessSlash
deriving DecidableEq, Repr

def Symbol.text : Symbol → String
  | .leftBrace => "\x7b"
  | .rightBrace => "\x7d"
  | .leftParen => "("
  | .rightParen => ")"
  | .leftBracket => "["
  | .rightBracket => "]"
  | .comma => ","
  | .dot => "."
  | .colon => ":"
  | .semicolon => ";"
  | .arrow => "->"
  | .slashGreater => "/>"
  | .lessSlash => "</"

inductive TokenKind where
  | keyword (word : Keyword)
  | typeName
  | identifier
  | integer
  | float
  | boolean
  | string
  | whitespace
  | newline
  | comment
  | operator (sign : Operator)
  | symbol (sign : Symbol)
deriving DecidableEq, Repr

namespace TokenKind

def isTrivia : TokenKind → Bool
  | .whitespace => true
  | .comment => true
  | _ => false

def category : TokenKind → String
  | .keyword _ => "keyword"
  | .typeName => "type name"
  | .identifier => "identifier"
  | .integer => "integer literal"
  | .float => "float literal"
  | .boolean => "boolean literal"
  | .string => "string literal"
  | .whitespace => "whitespace"
  | .newline => "newline"
  | .comment => "comment"
  | .operator _ => "operator"
  | .symbol _ => "symbol"

def fixedText? : TokenKind → Option String
  | .keyword word => some word.text
  | .operator sign => some sign.text
  | .symbol sign => some sign.text
  | _ => none

def withText (kind : TokenKind) (text : String) : String :=
  kind.category ++ " `" ++ text ++ "`"

def name (kind : TokenKind) : String :=
  match kind.fixedText? with
  | some text => kind.withText text
  | none => kind.category

def describe (kind : TokenKind) (text : String) : String :=
  match kind with
  | .newline => "newline"
  | kind => kind.withText text

end TokenKind

end ScalarLang
