import ScalarLang.Text.Escaped
import ScalarLang.Token.Kind

/-!
# The lexeme at the start of a text

A text that is not empty starts with a lexeme: a word, a number, a string, a run
of blanks, a newline, a comment, a cluster of signs or a single sign, tried in
this order.  A lexeme is given by its kind and by the number of its characters
after the first, so every lexeme has at least one character.
-/

set_option autoImplicit false

namespace ScalarLang

inductive LexFault where
  | unexpectedChar (character : Char)
  | unterminatedString
  | unterminatedComment
deriving DecidableEq, Repr

def LexFault.message : LexFault → String
  | .unexpectedChar character => "unexpected character " ++ Text.quoted character
  | .unterminatedString => "unterminated string literal"
  | .unterminatedComment => "unterminated block comment"

/-- The kind of a lexeme and the number of its characters after the first. -/
structure Lexeme where
  kind : TokenKind
  tail : Nat
deriving DecidableEq, Repr

namespace Lexeme

/-! ## Classes of characters -/

def isDigit (character : Char) : Bool := '0' ≤ character && character ≤ '9'

def isUpper (character : Char) : Bool := 'A' ≤ character && character ≤ 'Z'

def isLower (character : Char) : Bool := 'a' ≤ character && character ≤ 'z'

def isWordStart (character : Char) : Bool :=
  isUpper character || isLower character || character == '_'

def isWordPart (character : Char) : Bool := isWordStart character || isDigit character

/-- The characters that separate without ending a line. -/
def isBlank (character : Char) : Bool :=
  character == ' ' || character == '\t' || character == '\r'

/-! ## Words and numbers -/

/-- The kind of a word: a keyword, a truth value, a type name if it starts with
a capital, and an identifier otherwise. -/
def kindOfWord (first : Char) (word : String) : TokenKind :=
  match Keyword.ofWord? word with
  | some keyword => .keyword keyword
  | none =>
    if word == "true" || word == "false" then .boolean
    else if isUpper first then .typeName
    else .identifier

def wordKind (first : Char) (rest : List Char) : TokenKind :=
  kindOfWord first (String.ofList (first :: rest))

def word (first : Char) (rest : List Char) : Lexeme :=
  let others := rest.takeWhile isWordPart
  ⟨wordKind first others, others.length⟩

def decimals : List Char → List Char
  | '.' :: rest => rest.takeWhile isDigit
  | _ => []

/-- The number that starts with a digit: a point belongs to it only with a digit
after it. -/
def number (rest : List Char) : Lexeme :=
  let whole := rest.takeWhile isDigit
  let fraction := decimals (rest.drop whole.length)
  if fraction.isEmpty then ⟨.integer, whole.length⟩
  else ⟨.float, whole.length + 1 + fraction.length⟩

/-! ## Strings and comments -/

/-- The number of characters up to and with the quote that closes a string; a
backslash takes the character after it along. -/
def stringTail : List Char → Option Nat
  | [] => none
  | character :: rest =>
    if character = '"' then some 1
    else if character = '\\' then
      match rest with
      | [] => none
      | _ :: others => (stringTail others).map (· + 2)
    else (stringTail rest).map (· + 1)

def commentTail : List Char → Option Nat
  | [] => none
  | character :: rest =>
    if character = '*' ∧ rest.head? = some '/' then some 2
    else (commentTail rest).map (· + 1)

/-! ## Signs -/

/-- The signs of several characters, longer ones before their prefixes. -/
def clusters : List (List Char × TokenKind) :=
  [(['.', '.', '.'], .operator .rangeInclusive),
    (['.', '.', '<'], .operator .rangeExclusive),
    (['-', '>'], .symbol .arrow),
    (['/', '>'], .symbol .slashGreater),
    (['<', '/'], .symbol .lessSlash),
    (['=', '='], .operator .equal),
    (['!', '='], .operator .notEqual),
    (['<', '='], .operator .lessEqual),
    (['>', '='], .operator .greaterEqual),
    (['&', '&'], .operator .andAnd),
    (['|', '|'], .operator .orOr)]

def singleKind? (character : Char) : Option TokenKind :=
  match character with
  | '\x7b' => some (.symbol .leftBrace)
  | '\x7d' => some (.symbol .rightBrace)
  | '(' => some (.symbol .leftParen)
  | ')' => some (.symbol .rightParen)
  | '[' => some (.symbol .leftBracket)
  | ']' => some (.symbol .rightBracket)
  | ',' => some (.symbol .comma)
  | '.' => some (.symbol .dot)
  | ':' => some (.symbol .colon)
  | ';' => some (.symbol .semicolon)
  | '+' => some (.operator .add)
  | '-' => some (.operator .sub)
  | '*' => some (.operator .mul)
  | '/' => some (.operator .div)
  | '%' => some (.operator .rem)
  | '^' => some (.operator .caret)
  | '!' => some (.operator .bang)
  | '=' => some (.operator .assign)
  | '<' => some (.operator .less)
  | '>' => some (.operator .greater)
  | '&' => some (.operator .amp)
  | '|' => some (.operator .pipe)
  | _ => none

def sign? (first : Char) (rest : List Char) : Option Lexeme :=
  match clusters.find? fun cluster => cluster.1.isPrefixOf (first :: rest) with
  | some (text, kind) => some ⟨kind, text.length - 1⟩
  | none => (singleKind? first).map fun kind => ⟨kind, 0⟩

/-! ## The first rule that matches -/

def scan (first : Char) (rest : List Char) : Except LexFault Lexeme :=
  if isWordStart first then .ok (word first rest)
  else if isDigit first then .ok (number rest)
  else if first = '"' then
    match stringTail rest with
    | some tail => .ok ⟨.string, tail⟩
    | none => .error .unterminatedString
  else if isBlank first then .ok ⟨.whitespace, (rest.takeWhile isBlank).length⟩
  else if first = '\n' then .ok ⟨.newline, 0⟩
  else if first = '/' ∧ rest.head? = some '/' then
    .ok ⟨.comment, (rest.takeWhile (· != '\n')).length⟩
  else if first = '/' ∧ rest.head? = some '*' then
    match commentTail (rest.drop 1) with
    | some tail => .ok ⟨.comment, tail + 1⟩
    | none => .error .unterminatedComment
  else
    match sign? first rest with
    | some lexeme => .ok lexeme
    | none => .error (.unexpectedChar first)

end Lexeme

end ScalarLang
