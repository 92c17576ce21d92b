import ScalarLang.Source.Basic
import ScalarLang.Token.Scan

/-!
# Tokens and the lexer

A token is a piece of a source text with its kind and the position at which it starts.  A lexer
holds the text that is still to be read and the position it starts at.  Each call of `next` gives
one token, with or without the trivia between the tokens.  After the end of the text or after the
first fault a lexer gives nothing more, and its position stays where it is.
-/

set_option autoImplicit false

namespace ScalarLang

/-! ## Tokens -/

structure Token where
  kind : TokenKind
  text : String
  position : Position
deriving DecidableEq, Repr

namespace Token

def span (token : Token) : Span :=
  ⟨token.position.offset, token.position.offset + Text.byteLength token.text.toList⟩

def describe (token : Token) : String := token.kind.describe token.text

def render (token : Token) (file : String) : String :=
  token.describe ++ " at " ++ file ++ ", line " ++ toString token.position.line ++
    ", column " ++ toString token.position.column

end Token

/-! ## Lexers -/

/-- A fault at the first character of the text that is still to be read. -/
structure LexError where
  fault : LexFault
  position : Position
  width : Nat
deriving DecidableEq, Repr

/-- The one character at which no lexeme starts. -/
def LexError.span (error : LexError) : Span :=
  ⟨error.position.offset, error.position.offset + error.width⟩

structure Lexer where
  rest : List Char
  position : Position
  keepsTrivia : Bool
  finished : Bool
deriving DecidableEq, Repr

namespace Lexer

def ofText (text : List Char) : Lexer := ⟨text, .initial, false, false⟩

def withTrivia (lexer : Lexer) : Lexer := { lexer with keepsTrivia := true }

/-- The position of a lexer as an empty span with its line and its column, which is
where the text ends once the lexer has given everything. -/
def eofPosition (lexer : Lexer) : Span × Nat × Nat :=
  (.empty lexer.position.offset, lexer.position.line, lexer.position.column)

def consume (lexer : Lexer) (text rest : List Char) : Lexer :=
  { lexer with rest, position := lexer.position.advance text }

def next (lexer : Lexer) : Option (Except LexError Token) × Lexer :=
  if lexer.finished then
    (none, lexer)
  else
    match shape : lexer.rest with
    | [] => (none, { lexer with finished := true })
    | first :: others =>
      match Lexeme.scan first others with
      | .error fault =>
        (some (.error ⟨fault, lexer.position, first.utf8Size⟩),
          { lexer with finished := true })
      | .ok lexeme =>
        let text := first :: others.take lexeme.tail
        let after := lexer.consume text (others.drop lexeme.tail)
        have shorter : after.rest.length < lexer.rest.length := by
          simp only [after, consume, shape, List.length_drop, List.length_cons]
          omega
        if lexeme.kind.isTrivia && !lexer.keepsTrivia then
          next after
        else
          (some (.ok ⟨lexeme.kind, String.ofList text, lexer.position⟩), after)
termination_by lexer.rest.length

/-- A token is at least one character long. -/
theorem next_rest_length {lexer after : Lexer} {token : Token}
    (result : lexer.next = (some (.ok token), after)) :
    after.rest.length < lexer.rest.length := by
  fun_induction next lexer with
  | case1 => simp at result
  | case2 => simp at result
  | case3 => simp at result
  | case4 lexer _ first others shape lexeme _ text after shorter _ inductionHypothesis =>
      exact Nat.lt_trans (inductionHypothesis result) shorter
  | case5 lexer _ first others shape lexeme _ text after shorter _ =>
      simp only [Prod.mk.injEq] at result
      exact result.2 ▸ shorter

end Lexer

/-! ## Streams -/

inductive Ending where
  /-- The text is over at a position. -/
  | finished (position : Position)
  /-- The text goes on with a fault. -/
  | fault (error : LexError)
deriving DecidableEq, Repr

def Ending.position : Ending → Position
  | .finished position => position
  | .fault error => error.position

structure TokenStream where
  tokens : List Token
  ending : Ending
deriving DecidableEq, Repr

namespace Lexer

def stream (lexer : Lexer) : TokenStream :=
  match result : lexer.next with
  | (none, after) => ⟨[], .finished after.position⟩
  | (some (.error error), _) => ⟨[], .fault error⟩
  | (some (.ok token), after) =>
    have := next_rest_length result
    let others := stream after
    ⟨token :: others.tokens, others.ending⟩
termination_by lexer.rest.length

end Lexer

def TokenStream.ofText (text : List Char) : TokenStream := (Lexer.ofText text).stream

end ScalarLang
