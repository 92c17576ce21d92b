import ScalarLang.Proofs.Reading.Grouping

/-!
# The grammar of programs

Which rows of tokens are a program, and which tree each of them has.  The rules are
those of the language:

    program    := NL* function (NL+ function)* NL*
    function   := 'fn' IDENT '(' NL* parameters ')' ['->' type] block
    parameters := [parameter (',' NL* parameter)* [',' NL*]]
    parameter  := IDENT ':' type
    type       := TYPE ['.' type]
    block      := '{' NL* lines ['return' expr(yes) NL*] '}'
    lines      := [expr(yes) (NL+ expr(yes))* NL*]
    expr(c)    := unary(c) (BINOP NL* unary(c))*
    unary(c)   := ['!' | '-'] primary(c)
    primary(c) := IDENT | INT | FLOAT | BOOL | '(' NL* expr(yes) NL* ')'
                | IDENT '(' NL* arguments ')' ['{' NL* lines '}' only for c = yes]
                | 'if' expr(no) block ['else' block]
    arguments  := [argument (NL* ',' NL* argument)* NL* [',' NL*]]
    argument   := IDENT ':' expr(yes)

The parameter `c` says whether a call may have children.  Lists are written with one
rule for each way to go on after an element.
-/

set_option autoImplicit false

namespace ScalarLang

namespace Token

def ident (token : Token) : Ident := ⟨token.text, token.span⟩

def number (token : Token) : Nat := Text.digitsValue token.text.toList

end Token

def BinaryOp.sign : BinaryOp → Operator
  | .logicalOr => .orOr
  | .logicalAnd => .andAnd
  | .equal => .equal
  | .notEqual => .notEqual
  | .less => .less
  | .lessEqual => .lessEqual
  | .greater => .greater
  | .greaterEqual => .greaterEqual
  | .rangeInclusive => .rangeInclusive
  | .rangeExclusive => .rangeExclusive
  | .add => .add
  | .sub => .sub
  | .mul => .mul
  | .div => .div
  | .rem => .rem

namespace Grammar

def Newlines (tokens : List Token) : Prop := ∀ token ∈ tokens, token.kind = .newline

/-! ## Expressions and blocks -/

/-- The parts of a program from the block of a function down, each with its tree. -/
inductive Phrase where
  | expression (children : Bool) (tree : Expr)
  /-- The operations after the first operand of an expression. -/
  | operations (children : Bool) (others : List (BinaryOp × Expr))
  | unary (children : Bool) (tree : Expr)
  | primary (children : Bool) (tree : Expr)
  | arguments (arguments : List CallArgument)
  | lines (trees : List Expr)
  | block (block : Block)

inductive Derives : Phrase → List Token → Prop
  /-- The tree of an expression groups its row of operands by precedence. -/
  | expression {children : Bool} {grouping : Grouping} {operand others : List Token}
      (first : Derives (.unary children grouping.first) operand)
      (rest : Derives (.operations children grouping.others) others)
      (grouped : grouping.WellGrouped) :
      Derives (.expression children grouping.tree) (operand ++ others)
  | noOperation {children : Bool} : Derives (.operations children []) []
  | operation {children : Bool} {op : BinaryOp} {next : Expr} {others : List (BinaryOp × Expr)}
      {sign : Token} {newlines operand more : List Token}
      (isSign : sign.kind = .operator op.sign) (skipped : Newlines newlines)
      (right : Derives (.unary children next) operand)
      (rest : Derives (.operations children others) more) :
      Derives (.operations children ((op, next) :: others))
        (sign :: newlines ++ operand ++ more)
  | plain {children : Bool} {tree : Expr} {tokens : List Token}
      (operand : Derives (.primary children tree) tokens) :
      Derives (.unary children tree) tokens
  | not {children : Bool} {tree : Expr} {sign : Token} {tokens : List Token}
      (isSign : sign.kind = .operator .bang)
      (operand : Derives (.primary children tree) tokens) :
      Derives (.unary children (.unary .not tree (sign.span.union tree.span))) (sign :: tokens)
  /-- A minus directly before an integer belongs to the constant, which may then reach
  one further. -/
  | negative {children : Bool} {value : Int64} {sign digits : Token}
      (isSign : sign.kind = .operator .sub) (isInteger : digits.kind = .integer)
      (fits : digits.number ≤ 0x8000000000000000) (denotes : value.toInt = -digits.number) :
      Derives (.unary children (.literal (.integer value) (sign.span.union digits.span)))
        [sign, digits]
  | negate {children : Bool} {tree : Expr} {sign first : Token} {tokens : List Token}
      (isSign : sign.kind = .operator .sub) (noInteger : first.kind ≠ .integer)
      (operand : Derives (.primary children tree) (first :: tokens)) :
      Derives (.unary children (.unary .negate tree (sign.span.union tree.span)))
        (sign :: first :: tokens)
  | identifier {children : Bool} {name : Token} (isName : name.kind = .identifier) :
      Derives (.primary children (.identifier name.text name.span)) [name]
  | integer {children : Bool} {value : Int64} {digits : Token}
      (isInteger : digits.kind = .integer) (fits : digits.number ≤ 0x7FFFFFFFFFFFFFFF)
      (denotes : value.toInt = digits.number) :
      Derives (.primary children (.literal (.integer value) digits.span)) [digits]
  | float {children : Bool} {digits : Token} (isFloat : digits.kind = .float) :
      Derives (.primary children
        (.literal (.float (Literal.floatOfText digits.text)) digits.span)) [digits]
  | boolean {children : Bool} {word : Token} (isBoolean : word.kind = .boolean) :
      Derives (.primary children (.literal (.boolean (word.text == "true")) word.span)) [word]
  /-- Parentheses leave only their span in the tree. -/
  | parentheses {children : Bool} {tree : Expr} {opening closing : Token}
      {leading tokens trailing : List Token}
      (opens : opening.kind = .symbol .leftParen) (skipped : Newlines leading)
      (inner : Derives (.expression true tree) tokens)
      (skippedAfter : Newlines trailing) (closes : closing.kind = .symbol .rightParen) :
      Derives (.primary children (tree.withSpan (opening.span.union closing.span)))
        (opening :: leading ++ tokens ++ trailing ++ [closing])
  | call {children : Bool} {arguments : List CallArgument} {name opening closing : Token}
      {leading tokens : List Token}
      (isName : name.kind = .identifier) (opens : opening.kind = .symbol .leftParen)
      (skipped : Newlines leading) (inner : Derives (.arguments arguments) tokens)
      (closes : closing.kind = .symbol .rightParen) :
      Derives
        (.primary children (.call name.ident arguments none (name.span.union closing.span)))
        (name :: opening :: leading ++ tokens ++ [closing])
  | callWithChildren {arguments : List CallArgument} {trees : List Expr}
      {name opening closing openingBrace closingBrace : Token}
      {leading tokens leadingLines lines : List Token}
      (isName : name.kind = .identifier) (opens : opening.kind = .symbol .leftParen)
      (skipped : Newlines leading) (inner : Derives (.arguments arguments) tokens)
      (closes : closing.kind = .symbol .rightParen)
      (opensBrace : openingBrace.kind = .symbol .leftBrace) (skippedLines : Newlines leadingLines)
      (innerLines : Derives (.lines trees) lines)
      (closesBrace : closingBrace.kind = .symbol .rightBrace) :
      Derives
        (.primary true (.call name.ident arguments (some trees)
          ((name.span.union closing.span).union closingBrace.span)))
        ((name :: opening :: leading ++ tokens ++ [closing]) ++
          (openingBrace :: leadingLines ++ lines ++ [closingBrace]))
  | conditional {children : Bool} {condition : Expr} {thenBlock : Block}
      {start closing : Token} {tokens body : List Token}
      (isIf : start.kind = .keyword .kwIf) (test : Derives (.expression false condition) tokens)
      (yes : Derives (.block thenBlock) (body ++ [closing])) :
      Derives
        (.primary children (.conditional condition thenBlock none (start.span.union closing.span)))
        (start :: tokens ++ (body ++ [closing]))
  | conditionalElse {children : Bool} {condition : Expr} {thenBlock elseBlock : Block}
      {start middle closing : Token} {tokens first second : List Token}
      (isIf : start.kind = .keyword .kwIf) (test : Derives (.expression false condition) tokens)
      (yes : Derives (.block thenBlock) first) (isElse : middle.kind = .keyword .kwElse)
      (no : Derives (.block elseBlock) (second ++ [closing])) :
      Derives
        (.primary children
          (.conditional condition thenBlock (some elseBlock) (start.span.union closing.span)))
        (start :: tokens ++ first ++ middle :: (second ++ [closing]))
  | noArgument : Derives (.arguments []) []
  | lastArgument {value : Expr} {label colon : Token} {tokens trailing : List Token}
      (isLabel : label.kind = .identifier) (isColon : colon.kind = .symbol .colon)
      (inner : Derives (.expression true value) tokens) (skipped : Newlines trailing) :
      Derives (.arguments [⟨label.ident, value⟩]) (label :: colon :: tokens ++ trailing)
  | nextArgument {value : Expr} {others : List CallArgument} {label colon comma : Token}
      {tokens trailing leading more : List Token}
      (isLabel : label.kind = .identifier) (isColon : colon.kind = .symbol .colon)
      (inner : Derives (.expression true value) tokens) (skipped : Newlines trailing)
      (isComma : comma.kind = .symbol .comma) (skippedAfter : Newlines leading)
      (rest : Derives (.arguments others) more) :
      Derives (.arguments (⟨label.ident, value⟩ :: others))
        (label :: colon :: tokens ++ trailing ++ comma :: leading ++ more)
  | noLine : Derives (.lines []) []
  | lastLine {tree : Expr} {tokens : List Token} (inner : Derives (.expression true tree) tokens) :
      Derives (.lines [tree]) tokens
  | nextLine {tree : Expr} {others : List Expr} {tokens newlines more : List Token}
      (inner : Derives (.expression true tree) tokens)
      (skipped : Newlines newlines) (ended : newlines ≠ [])
      (rest : Derives (.lines others) more) :
      Derives (.lines (tree :: others)) (tokens ++ newlines ++ more)
  | block {statements : List Expr} {opening closing : Token} {leading lines : List Token}
      (opens : opening.kind = .symbol .leftBrace) (skipped : Newlines leading)
      (inner : Derives (.lines statements) lines)
      (closes : closing.kind = .symbol .rightBrace) :
      Derives (.block ⟨statements, none⟩) (opening :: leading ++ lines ++ [closing])
  | blockWithResult {statements : List Expr} {result : Expr} {opening word closing : Token}
      {leading lines tokens trailing : List Token}
      (opens : opening.kind = .symbol .leftBrace) (skipped : Newlines leading)
      (inner : Derives (.lines statements) lines) (isReturn : word.kind = .keyword .kwReturn)
      (returned : Derives (.expression true result) tokens) (skippedAfter : Newlines trailing)
      (closes : closing.kind = .symbol .rightBrace) :
      Derives (.block ⟨statements, some result⟩)
        (opening :: leading ++ lines ++ word :: tokens ++ trailing ++ [closing])

/-! ## First and last tokens -/

def startsPrimary : TokenKind → Bool
  | .identifier => true
  | .integer => true
  | .float => true
  | .boolean => true
  | .symbol .leftParen => true
  | .keyword .kwIf => true
  | _ => false

def startsExpression (kind : TokenKind) : Bool :=
  startsPrimary kind || kind == .operator .bang || kind == .operator .sub

def Starts (kinds : TokenKind → Bool) (tokens : List Token) : Prop :=
  ∃ first rest, tokens = first :: rest ∧ kinds first.kind = true

namespace Derives

variable {children : Bool} {tree : Expr} {tokens : List Token}

theorem primary_starts (derives : Derives (.primary children tree) tokens) :
    Starts startsPrimary tokens := by
  cases derives with
  | identifier isName => exact ⟨_, _, rfl, by simp [startsPrimary, isName]⟩
  | integer isInteger _ _ => exact ⟨_, _, rfl, by simp [startsPrimary, isInteger]⟩
  | float isFloat => exact ⟨_, _, rfl, by simp [startsPrimary, isFloat]⟩
  | boolean isBoolean => exact ⟨_, _, rfl, by simp [startsPrimary, isBoolean]⟩
  | parentheses opens _ _ _ _ => exact ⟨_, _, rfl, by simp [startsPrimary, opens]⟩
  | call isName _ _ _ _ => exact ⟨_, _, rfl, by simp [startsPrimary, isName]⟩
  | callWithChildren isName _ _ _ _ _ _ _ _ =>
      exact ⟨_, _, rfl, by simp [startsPrimary, isName]⟩
  | conditional isIf _ _ => exact ⟨_, _, rfl, by simp [startsPrimary, isIf]⟩
  | conditionalElse isIf _ _ _ _ => exact ⟨_, _, rfl, by simp [startsPrimary, isIf]⟩

theorem unary_starts (derives : Derives (.unary children tree) tokens) :
    Starts startsExpression tokens := by
  cases derives with
  | plain operand =>
      obtain ⟨first, rest, rfl, starts⟩ := operand.primary_starts
      exact ⟨first, rest, rfl, by simp [startsExpression, starts]⟩
  | not isSign _ => exact ⟨_, _, rfl, by simp [startsExpression, isSign]⟩
  | negative isSign _ _ _ => exact ⟨_, _, rfl, by simp [startsExpression, isSign]⟩
  | negate isSign _ _ => exact ⟨_, _, rfl, by simp [startsExpression, isSign]⟩

theorem expression_starts (derives : Derives (.expression children tree) tokens) :
    Starts startsExpression tokens := by
  cases derives with
  | expression first _ _ =>
      obtain ⟨token, rest, rfl, starts⟩ := first.unary_starts
      exact ⟨token, _, rfl, starts⟩

theorem arguments_start {arguments : List CallArgument}
    (derives : Derives (.arguments arguments) tokens) :
    tokens = [] ∨ ∃ first rest, tokens = first :: rest ∧ first.kind = .identifier := by
  cases derives with
  | noArgument => exact .inl rfl
  | lastArgument isLabel _ _ _ => exact .inr ⟨_, _, rfl, isLabel⟩
  | nextArgument isLabel _ _ _ _ _ _ => exact .inr ⟨_, _, rfl, isLabel⟩

theorem lines_start {trees : List Expr} (derives : Derives (.lines trees) tokens) :
    tokens = [] ∨ Starts startsExpression tokens := by
  cases derives with
  | noLine => exact .inl rfl
  | lastLine inner => exact .inr inner.expression_starts
  | nextLine inner _ _ _ =>
      obtain ⟨first, rest, rfl, starts⟩ := inner.expression_starts
      exact .inr ⟨first, _, rfl, starts⟩

theorem block_opens {block : Block} (derives : Derives (.block block) tokens) :
    ∃ opening rest, tokens = opening :: rest ∧ opening.kind = .symbol .leftBrace := by
  cases derives with
  | block opens _ _ _ => exact ⟨_, _, rfl, opens⟩
  | blockWithResult opens _ _ _ _ _ _ => exact ⟨_, _, rfl, opens⟩

theorem block_closes {block : Block} (derives : Derives (.block block) tokens) :
    ∃ body closing, tokens = body ++ [closing] := by
  cases derives with
  | block _ _ _ _ => exact ⟨_, _, rfl⟩
  | blockWithResult _ _ _ _ _ _ _ => exact ⟨_, _, rfl⟩

end Derives

/-! ## Functions and programs -/

inductive IsType : TypePath → List Token → Prop
  | name {name : Token} (isName : name.kind = .typeName) : IsType (.simple name.ident) [name]
  | inner {path : TypePath} {name dot : Token} {tokens : List Token}
      (isName : name.kind = .typeName) (isDot : dot.kind = .symbol .dot)
      (rest : IsType path tokens) :
      IsType ⟨name.ident, path.names, path.last⟩ (name :: dot :: tokens)

/-- The token of a path that is read last is its last name. -/
theorem IsType.exists_last {path : TypePath} {tokens : List Token} (isType : IsType path tokens) :
    ∃ front last, tokens = front ++ [last] ∧ path.last = last.span ∧
      path.inner.getLastD path.head = last.ident := by
  induction isType with
  | @name name _ => exact ⟨[], name, rfl, rfl, rfl⟩
  | @inner path name dot tokens _ _ rest inductionHypothesis =>
      obtain ⟨front, last, rfl, isSpan, isIdent⟩ := inductionHypothesis
      refine ⟨name :: dot :: front, last, rfl, isSpan, ?_⟩
      rw [TypePath.names, List.getLastD_cons, isIdent]

inductive IsParameter : Parameter → List Token → Prop
  | intro {type : TypePath} {name colon : Token} {tokens : List Token}
      (isName : name.kind = .identifier) (isColon : colon.kind = .symbol .colon)
      (isType : IsType type tokens) : IsParameter ⟨name.ident, type⟩ (name :: colon :: tokens)

inductive AreParameters : List Parameter → List Token → Prop
  | none : AreParameters [] []
  | last {parameter : Parameter} {tokens : List Token}
      (isParameter : IsParameter parameter tokens) :
      AreParameters [parameter] tokens
  | next {parameter : Parameter} {others : List Parameter} {comma : Token}
      {tokens leading more : List Token}
      (isParameter : IsParameter parameter tokens) (isComma : comma.kind = .symbol .comma)
      (skipped : Newlines leading) (rest : AreParameters others more) :
      AreParameters (parameter :: others) (tokens ++ comma :: leading ++ more)

theorem AreParameters.start {parameters : List Parameter} {tokens : List Token}
    (areParameters : AreParameters parameters tokens) :
    tokens = [] ∨ ∃ first rest, tokens = first :: rest ∧ first.kind = .identifier := by
  cases areParameters with
  | none => exact .inl rfl
  | last isParameter =>
      obtain ⟨isName, _, _⟩ := isParameter
      exact .inr ⟨_, _, rfl, isName⟩
  | next isParameter _ _ _ =>
      obtain ⟨isName, _, _⟩ := isParameter
      exact .inr ⟨_, _, rfl, isName⟩

inductive IsResult : Option TypePath → List Token → Prop
  | none : IsResult none []
  | some {type : TypePath} {arrow : Token} {tokens : List Token}
      (isArrow : arrow.kind = .symbol .arrow) (isType : IsType type tokens) :
      IsResult (some type) (arrow :: tokens)

inductive IsFunction : FunctionDecl → List Token → Prop
  | intro {parameters : List Parameter} {result : Option TypePath} {block : Block}
      {start name opening closing : Token} {leading list arrow body : List Token}
      (isStart : start.kind = .keyword .kwFn) (isName : name.kind = .identifier)
      (opens : opening.kind = .symbol .leftParen) (skipped : Newlines leading)
      (areParameters : AreParameters parameters list)
      (closes : closing.kind = .symbol .rightParen)
      (isResult : IsResult result arrow) (isBody : Derives (.block block) body) :
      IsFunction ⟨name.ident, parameters, result, block⟩
        (start :: name :: opening :: leading ++ list ++ closing :: arrow ++ body)

inductive AreFunctions : List FunctionDecl → List Token → Prop
  | last {function : FunctionDecl} {tokens trailing : List Token}
      (isFunction : IsFunction function tokens) (skipped : Newlines trailing) :
      AreFunctions [function] (tokens ++ trailing)
  | next {function : FunctionDecl} {others : List FunctionDecl}
      {tokens newlines more : List Token}
      (isFunction : IsFunction function tokens) (skipped : Newlines newlines)
      (ended : newlines ≠ []) (rest : AreFunctions others more) :
      AreFunctions (function :: others) (tokens ++ newlines ++ more)

inductive IsProgram : Module → List Token → Prop
  | intro {functions : List FunctionDecl} {leading tokens : List Token}
      (skipped : Newlines leading) (areFunctions : AreFunctions functions tokens) :
      IsProgram ⟨functions⟩ (leading ++ tokens)

theorem AreFunctions.ne_nil {functions : List FunctionDecl} {tokens : List Token}
    (areFunctions : AreFunctions functions tokens) : tokens ≠ [] := by
  cases areFunctions with
  | last isFunction _ =>
      obtain ⟨_, _, _, _, _, _, _, _⟩ := isFunction
      simp
  | next isFunction _ _ _ =>
      obtain ⟨_, _, _, _, _, _, _, _⟩ := isFunction
      simp

theorem IsProgram.ne_nil {program : Module} {tokens : List Token}
    (isProgram : IsProgram program tokens) : tokens ≠ [] := by
  obtain ⟨_, areFunctions⟩ := isProgram
  simp [areFunctions.ne_nil]

end Grammar

end ScalarLang
