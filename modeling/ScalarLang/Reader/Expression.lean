import ScalarLang.Reader.Basic

/-!
# Reading expressions and blocks

Binary operators are read by precedence climbing: the right operand of an
operator takes only operators that bind tighter, so operators of one level group
to the left.  The functions call each other, and the first argument of each
bounds the depth of these calls.
-/

set_option autoImplicit false

namespace ScalarLang

/-- How tightly an operator binds; every operator binds tighter than zero. -/
def BinaryOp.precedence : BinaryOp → Nat
  | .logicalOr => 1
  | .logicalAnd => 2
  | .equal => 3
  | .notEqual => 3
  | .less => 4
  | .lessEqual => 4
  | .greater => 4
  | .greaterEqual => 4
  | .rangeInclusive => 5
  | .rangeExclusive => 5
  | .add => 6
  | .sub => 6
  | .mul => 7
  | .div => 7
  | .rem => 7

def Operator.binary? : Operator → Option BinaryOp
  | .orOr => some .logicalOr
  | .andAnd => some .logicalAnd
  | .equal => some .equal
  | .notEqual => some .notEqual
  | .less => some .less
  | .lessEqual => some .lessEqual
  | .greater => some .greater
  | .greaterEqual => some .greaterEqual
  | .rangeInclusive => some .rangeInclusive
  | .rangeExclusive => some .rangeExclusive
  | .add => some .add
  | .sub => some .sub
  | .mul => some .mul
  | .div => some .div
  | .rem => some .rem
  | _ => none

def Operator.unary? : Operator → Option UnaryOp
  | .bang => some .not
  | .sub => some .negate
  | _ => none

namespace Reader

/-- The operation of the next token, if it binds tighter than a bound. -/
def binaryOp? (reader : Reader) (bound : Nat) : Option BinaryOp :=
  match reader.current? with
  | some ⟨.operator sign, _, _⟩ => sign.binary?.filter fun op => bound < op.precedence
  | _ => none

def unaryOp? (reader : Reader) : Option (UnaryOp × Span) :=
  match reader.current? with
  | some token =>
    match token.kind with
    | .operator sign => sign.unary?.map fun op => (op, token.span)
    | _ => none
  | none => none

/-- The integer token that a minus directly before it makes negative. -/
def negated? (reader : Reader) (op : UnaryOp) : Option Token :=
  match op with
  | .negate => reader.current?.filter fun token => token.kind == .integer
  | .not => none

def hasStatement (reader : Reader) : Bool :=
  !(reader.atEnd || reader.isAt (.keyword .kwReturn) || reader.isAt (.symbol .rightBrace))

def hasChild (reader : Reader) : Bool :=
  !(reader.atEnd || reader.isAt (.symbol .rightBrace))

end Reader

namespace Read

mutual

/-- An expression whose operators outside of parentheses bind tighter than a
bound. -/
def expression : Nat → Nat → Read Expr
  | 0, _ => exhausted
  | fuel + 1, bound => do
    let first ← unary fuel
    operations fuel bound first

def operations : Nat → Nat → Expr → Read Expr
  | 0, _, _ => exhausted
  | fuel + 1, bound, left => do
    match (← get).binaryOp? bound with
    | none => return left
    | some op =>
      advance
      skipNewlines
      let right ← expression fuel op.precedence
      operations fuel bound (.binary op left right (left.span.union right.span))

/-- An operand, perhaps after an operator; a minus directly before an integer
belongs to the constant. -/
def unary : Nat → Read Expr
  | 0 => exhausted
  | fuel + 1 => do
    match (← get).unaryOp? with
    | none => primary fuel
    | some (op, span) =>
      advance
      match (← get).negated? op with
      | some token =>
        let value ← integerValue (Literal.negativeInteger? token.text) token
        advance
        return .literal (.integer value) (span.union token.span)
      | none =>
        let operand ← primary fuel
        return .unary op operand (span.union operand.span)

def primary : Nat → Read Expr
  | 0 => exhausted
  | fuel + 1 => do
    match (← get).current? with
    | none => unexpected .expression
    | some token =>
      match token.kind with
      | .identifier =>
        advance
        if (← get).isAt (.symbol .leftParen) then
          call fuel ⟨token.text, token.span⟩
        else
          return .identifier token.text token.span
      | .integer =>
        let value ← integerValue (Literal.positiveInteger? token.text) token
        advance
        return .literal (.integer value) token.span
      | .float =>
        advance
        return .literal (.float (Literal.floatOfText token.text)) token.span
      | .boolean =>
        advance
        return .literal (.boolean (token.text == "true")) token.span
      | .symbol .leftParen =>
        advance
        skipNewlines
        let inner ← withChildren true (expression fuel 0)
        skipNewlines
        let close ← expect (.symbol .rightParen)
        return inner.withSpan (token.span.union close.span)
      | .keyword .kwIf => conditional fuel
      | _ => unexpected .expression

/-- The arguments of a call, and its children where they are allowed. -/
def call : Nat → Ident → Read Expr
  | 0, _ => exhausted
  | fuel + 1, name => do
    let _ ← expect (.symbol .leftParen)
    skipNewlines
    let arguments ← callArguments fuel
    let close ← expect (.symbol .rightParen)
    let span := name.span.union close.span
    let reader ← get
    if reader.childrenAllowed && reader.isAt (.symbol .leftBrace) then
      let _ ← expect (.symbol .leftBrace)
      skipNewlines
      let children ← childList fuel
      let _ ← expect (.symbol .rightBrace)
      return .call name arguments (some children) (span.union (← get).previous)
    else
      return .call name arguments none span

def callArguments : Nat → Read (List CallArgument)
  | 0 => exhausted
  | fuel + 1 => do
    if (← get).isAt .identifier then
      let label ← identifier
      let _ ← expect (.symbol .colon)
      let value ← withChildren true (expression fuel 0)
      skipNewlines
      if ← eat (.symbol .comma) then
        skipNewlines
        let others ← callArguments fuel
        return ⟨label, value⟩ :: others
      else
        return [⟨label, value⟩]
    else
      return []

def childList : Nat → Read (List Expr)
  | 0 => exhausted
  | fuel + 1 => do
    if (← get).hasChild then
      let child ← expression fuel 0
      if (← get).isAt .newline then
        skipNewlines
        let others ← childList fuel
        return child :: others
      else
        return [child]
    else
      return []

/-- A choice.  Its condition takes no children, so a brace after it opens the
first block. -/
def conditional : Nat → Read Expr
  | 0 => exhausted
  | fuel + 1 => do
    let start ← expect (.keyword .kwIf)
    let condition ← withChildren false (expression fuel 0)
    let thenBlock ← block fuel
    if ← eat (.keyword .kwElse) then
      let elseBlock ← block fuel
      return .conditional condition thenBlock (some elseBlock)
        (start.span.union (← get).previous)
    else
      return .conditional condition thenBlock none (start.span.union (← get).previous)

def block : Nat → Read Block
  | 0 => exhausted
  | fuel + 1 => withChildren true do
    let _ ← expect (.symbol .leftBrace)
    skipNewlines
    let statements ← statementList fuel
    if ← eat (.keyword .kwReturn) then
      let result ← expression fuel 0
      skipNewlines
      let _ ← expect (.symbol .rightBrace)
      return ⟨statements, some result⟩
    else
      let _ ← expect (.symbol .rightBrace)
      return ⟨statements, none⟩

def statementList : Nat → Read (List Expr)
  | 0 => exhausted
  | fuel + 1 => do
    if (← get).hasStatement then
      let statement ← expression fuel 0
      if (← get).isAt .newline then
        skipNewlines
        let others ← statementList fuel
        return statement :: others
      else
        return [statement]
    else
      return []

end

end Read

end ScalarLang
