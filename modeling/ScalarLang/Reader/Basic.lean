import ScalarLang.Reader.Error
import ScalarLang.Tree.Basic

/-!
# The reader of a token stream

A reader looks at the first of the tokens that are still to be read.  A step over the last token
before a fault reports the fault and leaves the token in place; after that the stream is over, at
the position of the fault.  A failed step keeps the reader it left, so reading can go on after a
failure.  The digits of a constant give a whole number: an integer has to fit in sixty-four bits,
where a negative one may reach one further than a positive one, and a fraction is the nearest
double.
-/

set_option autoImplicit false

namespace ScalarLang

/-- The tokens that are still to be read, and what the reader remembers. -/
structure Reader where
  tokens : List Token
  ending : Ending
  /-- The span of the last token that was passed. -/
  previous : Span
  /-- Whether a call may have children here. -/
  childrenAllowed : Bool
deriving DecidableEq, Repr

inductive ReadFailure where
  /-- The program is wrong. -/
  | rejected (error : SyntaxError)
  /-- The bound on the depth of the recursion was too small. -/
  | exhausted
deriving DecidableEq, Repr

abbrev Read := EStateM ReadFailure Reader

namespace Reader

/-! ## Looking ahead -/

def current? (reader : Reader) : Option Token := reader.tokens.head?

def isAt (reader : Reader) (kind : TokenKind) : Bool :=
  match reader.current? with
  | some token => token.kind == kind
  | none => false

def atEnd (reader : Reader) : Bool := reader.tokens.isEmpty

def errorHere (reader : Reader) (fault : SyntaxFault) : SyntaxError :=
  match reader.current? with
  | some token => ⟨fault, token.span, token.position.line, token.position.column⟩
  | none =>
    let position := reader.ending.position
    ⟨fault, .empty position.offset, position.line, position.column⟩

end Reader

namespace Read

variable {α : Type}

/-! ## Failures -/

def fail (fault : SyntaxFault) : Read α := fun reader =>
  .error (.rejected (reader.errorHere fault)) reader

def unexpected (wanted : Expectation) : Read α := fun reader =>
  let found := reader.current?.map fun token => (token.kind, token.text)
  .error (.rejected (reader.errorHere (.expected wanted found))) reader

def exhausted : Read α := fun reader => .error .exhausted reader

/-! ## Steps over tokens -/

def advance : Read Unit := fun reader =>
  match reader.tokens, reader.ending with
  | [], .finished _ => .ok () reader
  | token :: next :: rest, _ =>
    .ok () { reader with tokens := next :: rest, previous := token.span }
  | [token], .finished _ => .ok () { reader with tokens := [], previous := token.span }
  | _, .fault error =>
    .error (.rejected (.ofLexError error)) { reader with ending := .finished error.position }

def expect (kind : TokenKind) : Read Token := do
  match (← get).current? with
  | some token =>
    if token.kind = kind then
      advance
      return token
    else
      unexpected (.token kind)
  | none => unexpected (.token kind)

/-- Passes the next token if it has a kind, and says whether it did. -/
def eat (kind : TokenKind) : Read Bool := do
  if (← get).isAt kind then
    advance
    return true
  else
    return false

/-- Passes the newlines at the start of some tokens, which are the tokens of the
reader. -/
def skipNewlinesOf : List Token → Read Unit
  | [] => pure ()
  | token :: rest =>
    if token.kind = .newline then do
      advance
      skipNewlinesOf rest
    else
      pure ()

def skipNewlines : Read Unit := do
  skipNewlinesOf (← get).tokens

/-- Reads with children allowed or not, and restores what was allowed before. -/
def withChildren (allowed : Bool) (action : Read α) : Read α := fun reader =>
  match action { reader with childrenAllowed := allowed } with
  | .ok value after => .ok value { after with childrenAllowed := reader.childrenAllowed }
  | .error failure after =>
    .error failure { after with childrenAllowed := reader.childrenAllowed }

def identifier : Read Ident := do
  let token ← expect .identifier
  return ⟨token.text, token.span⟩

end Read

/-! ## Values of constants -/

namespace Text

def digitsValue (digits : List Char) : Nat :=
  digits.foldl (fun value digit => 10 * value + (digit.toNat - '0'.toNat)) 0

end Text

namespace Literal

def positiveInteger? (text : String) : Option Int64 :=
  let value := Text.digitsValue text.toList
  if value < 0x8000000000000000 then some (Int64.ofNat value) else none

def negativeInteger? (text : String) : Option Int64 :=
  let value := Text.digitsValue text.toList
  if value ≤ 0x8000000000000000 then some (Int64.ofInt (-(value : Int))) else none

def floatOfText (text : String) : Binary64 :=
  let whole := text.toList.takeWhile (· != '.')
  let decimals := (text.toList.dropWhile (· != '.')).drop 1
  Binary64.ofDecimal (Text.digitsValue (whole ++ decimals)) decimals.length

end Literal

namespace Read

def integerValue (value? : Option Int64) (token : Token) : Read Int64 :=
  match value? with
  | some value => pure value
  | none => fail (.invalidLiteral token.kind token.text)

end Read

end ScalarLang
