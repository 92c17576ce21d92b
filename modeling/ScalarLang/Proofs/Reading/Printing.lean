import ScalarLang.Proofs.Lexing.Spelling
import ScalarLang.Proofs.Reading.Offsets
import ScalarLang.Proofs.Reading.Programs
import ScalarLang.Tree.Render

/-!
# Reading the text of a tree

The text of a tree is read back as the tree.  Parentheses stand around every operation, so
no precedence is left to decide, and they vanish again when the text is read.  Two things
have no text of their own: a minus before the digits of an integer is always a part of the
integer, and children of a call are told apart by newlines, which the text does not have.
-/

set_option autoImplicit false

namespace ScalarLang

open Computability Grammar

/-! ## Rows of tokens with a tree -/

theorem Text.digitsValue_repr (number : Nat) : digitsValue number.repr.toList = number := by
  rw [Nat.toList_repr, digitsValue, ← Nat.ofDigitChars_eq_foldl]
  exact Nat.ofDigitChars_toDigits (by decide) (by decide)

theorem Token.number_of_text {token : Token} {number : Nat} (isText : token.text = number.repr) :
    token.number = number := by
  rw [Token.number, isText, Text.digitsValue_repr]

def Expr.spanless (tree : Expr) : Expr := tree.mapOffsets fun _ => 0

/-- The rows of tokens that are a phrase with the tree, up to spans. -/
def Expr.readings (phrase : Bool → Expr → Phrase) (tree : Expr) : Language Token :=
  {row | ∃ read, Derives (phrase true read) row ∧ read.spanless = tree.spanless}

def argumentReadings (arguments : List CallArgument) : Language Token :=
  {row | ∃ read, Derives (.arguments read) row ∧
    argumentsMapOffsets (fun _ => 0) read = argumentsMapOffsets (fun _ => 0) arguments}

def labelled (label : Ident) (value : Expr) : Language Token :=
  Token.alone .identifier label.name *
    (Token.alone (.symbol .colon) ":" * value.readings .expression)

def applied (name : Ident) (arguments : List CallArgument) : Language Token :=
  Token.alone .identifier name.name * (Token.alone (.symbol .leftParen) "(" *
    (argumentReadings arguments * Token.alone (.symbol .rightParen) ")"))

def lineReadings (trees : List Expr) : Language Token :=
  {row | ∃ read, Derives (.lines read) row ∧
    linesMapOffsets (fun _ => 0) read = linesMapOffsets (fun _ => 0) trees}

namespace Expr

variable {tree operand lhs rhs value : Expr} {span : Span}

theorem spanless_withSpan (span : Span) (tree : Expr) :
    (tree.withSpan span).spanless = tree.spanless := by
  cases tree <;> rfl

/-! ### Constants and names -/

theorem identifier_mem (name : String) :
    ∀ row ∈ Token.alone .identifier name, row ∈ (identifier name span).readings .primary := by
  rintro _ ⟨token, rfl, isName, rfl⟩
  exact ⟨_, .identifier isName, rfl⟩

theorem boolean_mem (value : Bool) :
    ∀ row ∈ Token.alone .boolean (Literal.boolean value).render,
      row ∈ (literal (.boolean value) span).readings .primary := by
  rintro _ ⟨token, rfl, isBoolean, isText⟩
  have isValue : (token.text == "true") = value := by
    rw [isText]
    cases value <;> rfl
  refine ⟨_, .boolean isBoolean, ?_⟩
  rw [isValue]
  rfl

theorem integer_mem {value : Int64} {number : Nat} (isNumber : value.toInt = number) :
    ∀ row ∈ Token.alone .integer number.repr,
      row ∈ (literal (.integer value) span).readings .primary := by
  rintro _ ⟨token, rfl, isInteger, isText⟩
  have bound := value.toInt_lt
  have sameNumber := Token.number_of_text isText
  have denotes : value.toInt = token.number := by rw [sameNumber, isNumber]
  exact ⟨_, .integer isInteger (by omega) denotes, rfl⟩

theorem negative_mem {value : Int64} {number : Nat} (isNumber : value.toInt = -number) :
    ∀ row ∈ Token.alone (.operator .sub) "-" * Token.alone .integer number.repr,
      row ∈ (literal (.integer value) span).readings .unary := by
  rintro _ ⟨_, ⟨sign, rfl, isSign, -⟩, _, ⟨token, rfl, isInteger, isText⟩, rfl⟩
  have bound := value.le_toInt
  have sameNumber := Token.number_of_text isText
  have denotes : value.toInt = -token.number := by rw [sameNumber, isNumber]
  exact ⟨_, .negative isSign isInteger (by omega) denotes, rfl⟩

/-! ### Operations -/

theorem unary_of_primary : ∀ row ∈ tree.readings .primary, row ∈ tree.readings .unary := by
  rintro row ⟨read, derives, same⟩
  exact ⟨read, .plain derives, same⟩

theorem expression_of_unary : ∀ row ∈ tree.readings .unary, row ∈ tree.readings .expression := by
  rintro row ⟨read, derives, same⟩
  have expression : Derives (.expression true (Grouping.operand read).tree) (row ++ []) :=
    .expression derives .noOperation trivial
  rw [List.append_nil] at expression
  exact ⟨read, expression, same⟩

/-- Parentheses around an expression leave its tree as it is. -/
theorem parentheses_mem : ∀ row ∈ Token.alone (.symbol .leftParen) "(" *
      (tree.readings .expression * Token.alone (.symbol .rightParen) ")"),
    row ∈ tree.readings .primary := by
  rintro _ ⟨_, ⟨opening, rfl, opens, -⟩, _, ⟨row, ⟨read, derives, same⟩, _,
    ⟨closing, rfl, closes, -⟩, rfl⟩, rfl⟩
  have primary : Derives (.primary true (read.withSpan (opening.span.union closing.span)))
      (opening :: [] ++ row ++ [] ++ [closing]) :=
    .parentheses opens (List.forall_mem_nil _) derives (List.forall_mem_nil _) closes
  simp only [List.append_nil] at primary
  exact ⟨_, primary, (spanless_withSpan _ read).trans same⟩

theorem binary_mem (op : BinaryOp) : ∀ row ∈ lhs.readings .unary *
      (Token.alone (.operator op.sign) op.text * rhs.readings .unary),
    row ∈ (binary op lhs rhs span).readings .expression := by
  rintro _ ⟨row, ⟨left, derivesLeft, sameLeft⟩, _, ⟨_, ⟨sign, rfl, isSign, -⟩, more,
    ⟨right, derivesRight, sameRight⟩, rfl⟩, rfl⟩
  let grouping : Grouping := .operation op (.operand left) (.operand right)
  have rest : Derives (.operations true grouping.others) (sign :: [] ++ more ++ []) :=
    .operation isSign (List.forall_mem_nil _) derivesRight .noOperation
  rw [List.append_nil] at rest
  -- Neither operand is an operation outside parentheses.
  have grouped : grouping.WellGrouped := by
    simp [grouping, Grouping.WellGrouped, Grouping.root?]
  have first : Derives (.unary true grouping.first) row := derivesLeft
  refine ⟨grouping.tree, .expression first rest grouped, ?_⟩
  simp only [spanless] at sameLeft sameRight
  simp only [spanless, grouping, Grouping.tree, mapOffsets, sameLeft, sameRight]
  rfl

def integer? : Expr → Option Int64
  | .literal (.integer value) _ => some value
  | _ => none

theorem integer?_spanless (tree : Expr) : tree.spanless.integer? = tree.integer? := by
  cases tree with
  | literal value span => cases value <;> rfl
  | _ => rfl

theorem integer?_of_derives {first : Token} {row : List Token}
    (derives : Derives (.primary true tree) (first :: row)) (isInteger : first.kind = .integer) :
    tree.integer? ≠ none := by
  cases derives <;> simp_all [integer?]

theorem not_mem : ∀ row ∈ Token.alone (.operator .bang) "!" * operand.readings .primary,
    row ∈ (unary .not operand span).readings .unary := by
  rintro _ ⟨_, ⟨sign, rfl, isSign, -⟩, row, ⟨read, derives, same⟩, rfl⟩
  exact ⟨_, .not isSign derives, congrArg (unary .not · ⟨0, 0⟩) same⟩

theorem negate_mem (noInteger : operand.integer? = none) :
    ∀ row ∈ Token.alone (.operator .sub) "-" * operand.readings .primary,
      row ∈ (unary .negate operand span).readings .unary := by
  rintro _ ⟨_, ⟨sign, rfl, isSign, -⟩, row, ⟨read, derives, same⟩, rfl⟩
  obtain ⟨first, others, rfl, -⟩ := derives.primary_starts
  have otherKind : first.kind ≠ .integer := by
    intro isInteger
    refine integer?_of_derives derives isInteger ?_
    rw [← integer?_spanless, same, integer?_spanless, noInteger]
  exact ⟨_, .negate isSign otherKind derives, congrArg (unary .negate · ⟨0, 0⟩) same⟩

/-! ### Calls -/

theorem noArgument_mem : [] ∈ argumentReadings [] := ⟨[], .noArgument, rfl⟩

theorem lastArgument_mem (label : Ident) :
    ∀ row ∈ labelled label value, row ∈ argumentReadings [⟨label, value⟩] := by
  rintro _ ⟨_, ⟨name, rfl, isName, isText⟩, _, ⟨_, ⟨colon, rfl, isColon, -⟩, row,
    ⟨read, derives, same⟩, rfl⟩, rfl⟩
  have arguments : Derives (.arguments [⟨name.ident, read⟩]) (name :: colon :: row ++ []) :=
    .lastArgument isName isColon derives (List.forall_mem_nil _)
  rw [List.append_nil] at arguments
  refine ⟨_, arguments, ?_⟩
  simp only [spanless] at same
  simp only [argumentsMapOffsets, Ident.mapOffsets, Token.ident, isText, same]
  rfl

theorem nextArgument_mem (label : Ident) (others : List CallArgument) :
    ∀ row ∈ labelled label value * (Token.alone (.symbol .comma) "," * argumentReadings others),
      row ∈ argumentReadings (⟨label, value⟩ :: others) := by
  rintro _ ⟨_, ⟨_, ⟨name, rfl, isName, isText⟩, _, ⟨_, ⟨colon, rfl, isColon, -⟩, row,
    ⟨read, derives, same⟩, rfl⟩, rfl⟩, _, ⟨_, ⟨comma, rfl, isComma, -⟩, more,
    ⟨readOthers, derivesOthers, sameOthers⟩, rfl⟩, rfl⟩
  have arguments : Derives (.arguments (⟨name.ident, read⟩ :: readOthers))
      (name :: colon :: row ++ [] ++ comma :: [] ++ more) :=
    .nextArgument isName isColon derives (List.forall_mem_nil _) isComma
      (List.forall_mem_nil _) derivesOthers
  simp only [List.append_nil, List.cons_append, List.append_assoc, List.nil_append] at arguments
  refine ⟨_, arguments, ?_⟩
  simp only [spanless] at same
  simp only [argumentsMapOffsets, Ident.mapOffsets, Token.ident, isText, same, sameOthers]
  rfl

theorem noLine_mem : [] ∈ lineReadings [] := ⟨[], .noLine, rfl⟩

theorem line_mem : ∀ row ∈ tree.readings .expression, row ∈ lineReadings [tree] := by
  rintro row ⟨read, derives, same⟩
  exact ⟨[read], .lastLine derives, congrArg ([·]) same⟩

theorem call_mem (name : Ident) (arguments : List CallArgument) :
    ∀ row ∈ applied name arguments,
      row ∈ (call name arguments none span).readings .primary := by
  rintro _ ⟨_, ⟨word, rfl, isName, isText⟩, _, ⟨_, ⟨opening, rfl, opens, -⟩, _, ⟨row,
    ⟨read, derives, same⟩, _, ⟨closing, rfl, closes, -⟩, rfl⟩, rfl⟩, rfl⟩
  refine ⟨_, .call isName opens (List.forall_mem_nil _) derives closes, ?_⟩
  simp only [spanless, mapOffsets, Ident.mapOffsets, Token.ident, isText, same]
  rfl

theorem callWithChildren_mem (name : Ident) (arguments : List CallArgument) (trees : List Expr) :
    ∀ row ∈ applied name arguments * (Token.alone (.symbol .leftBrace) "\x7b" *
      (lineReadings trees * Token.alone (.symbol .rightBrace) "\x7d")),
    row ∈ (call name arguments (some trees) span).readings .primary := by
  rintro _ ⟨_, ⟨_, ⟨word, rfl, isName, isText⟩, _, ⟨_, ⟨opening, rfl, opens, -⟩, _, ⟨row,
    ⟨read, derives, same⟩, _, ⟨closing, rfl, closes, -⟩, rfl⟩, rfl⟩, rfl⟩, _, ⟨_,
    ⟨openingBrace, rfl, opensBrace, -⟩, _, ⟨lines, ⟨readTrees, derivesTrees, sameTrees⟩, _,
    ⟨closingBrace, rfl, closesBrace, -⟩, rfl⟩, rfl⟩, rfl⟩
  refine ⟨_, .callWithChildren isName opens (List.forall_mem_nil _) derives closes opensBrace
    (List.forall_mem_nil _) derivesTrees closesBrace, ?_⟩
  simp only [spanless, mapOffsets, Ident.mapOffsets, Token.ident, isText, same, sameTrees,
    childrenMapOffsets]
  rfl

end Expr

/-! ## Texts of trees -/

theorem BinaryOp.text_sign (op : BinaryOp) : op.sign.text = op.text := by
  cases op <;> rfl

/-- A text begins as an expression does, with no blank and nothing that a sign before it
could take up. -/
def Opens (text : List Char) : Prop :=
  ∃ first others, text = first :: others ∧
    (Lexeme.isWordPart first = true ∨ first = '(' ∨ first = '-')

theorem Opens.append {text : List Char} (opens : Opens text) (more : List Char) :
    Opens (text ++ more) := by
  obtain ⟨first, others, rfl, isFirst⟩ := opens
  exact ⟨first, others ++ more, rfl, isFirst⟩

theorem Opens.ne_of {text : List Char} (opens : Opens text) {other : Char}
    (noPart : Lexeme.isWordPart other = false) (noParen : other ≠ '(') (noMinus : other ≠ '-') :
    ∀ next ∈ text.head?, next ≠ other := by
  obtain ⟨first, others, rfl, isFirst⟩ := opens
  rintro _ ⟨⟩ rfl
  rcases isFirst with isPart | isParen | isMinus
  · rw [noPart] at isPart
    cases isPart
  · exact noParen isParen
  · exact noMinus isMinus

theorem Opens.noBlank {text : List Char} (opens : Opens text) :
    ∀ next ∈ text.head?, Lexeme.isBlank next = false := by
  intro next isNext
  have noSpace : next ≠ ' ' := opens.ne_of rfl (by decide) (by decide) next isNext
  have noTab : next ≠ '\t' := opens.ne_of rfl (by decide) (by decide) next isNext
  have noReturn : next ≠ '\r' := opens.ne_of rfl (by decide) (by decide) next isNext
  simp [Lexeme.isBlank, noSpace, noTab, noReturn]

theorem Opens.noCluster {text : List Char} (opens : Opens text) :
    ∀ next ∈ text.head?, next ≠ '>' ∧ next ≠ '=' := fun next isNext =>
  ⟨opens.ne_of rfl (by decide) (by decide) next isNext,
    opens.ne_of rfl (by decide) (by decide) next isNext⟩

namespace Expr

/-- The text of a tree is read as a phrase with the tree, whatever closed text follows. -/
def Prints (phrase : Bool → Expr → Phrase) (tree : Expr) : Prop :=
  ∀ rest, Closed rest → Spells tree.render.toList rest (tree.readings phrase)

/-- Trees of names, integers, truth values, operations and calls whose text says all of
them: no minus stands before an integer that would take it up, no sign before a minus, and no
call has several children. -/
inductive Printable : Expr → Prop
  | identifier {name : String} {span : Span} (isName : IsIdentifier name) :
      Printable (.identifier name span)
  | integer {value : Int64} {span : Span} : Printable (.literal (.integer value) span)
  | boolean {value : Bool} {span : Span} : Printable (.literal (.boolean value) span)
  | unary {op : UnaryOp} {operand : Expr} {span : Span} (printable : Printable operand)
      (noNegative : ∀ value ∈ operand.integer?, 0 ≤ value.toInt)
      (noNegated : op = .negate → operand.integer? = none) :
      Printable (.unary op operand span)
  | binary {op : BinaryOp} {lhs rhs : Expr} {span : Span} (printableLeft : Printable lhs)
      (printableRight : Printable rhs) : Printable (.binary op lhs rhs span)
  | call {name : Ident} {arguments : List CallArgument} {children : Option (List Expr)}
      {span : Span} (isName : IsIdentifier name.name)
      (areLabels : ∀ argument ∈ arguments, IsIdentifier argument.label.name)
      (printableValues : ∀ argument ∈ arguments, Printable argument.value)
      (atMostOne : ∀ trees ∈ children, trees.length ≤ 1)
      (printableChildren : ∀ trees ∈ children, ∀ child ∈ trees, Printable child) :
      Printable (.call name arguments children span)

variable {tree operand lhs rhs : Expr} {span : Span}

theorem render_unary (op : UnaryOp) : (unary op operand span).render.toList =
    '(' :: ((op.text.toList ++ operand.render.toList) ++ [')']) := by
  simp [render]

theorem render_binary (op : BinaryOp) : (binary op lhs rhs span).render.toList =
    '(' :: ((lhs.render.toList ++ (' ' :: (op.text.toList ++ ' ' :: rhs.render.toList))) ++
      [')']) := by
  simp [render]

theorem render_call (name : Ident) (arguments : List CallArgument)
    (children : Option (List Expr)) : (call name arguments children span).render.toList =
      (name.name.toList ++ ('(' :: ((renderArguments arguments).toList ++ [')']))) ++
        (renderChildren children).toList := by
  simp [render]

theorem render_natural {value : Int64} {number : Nat} (isNumber : value.toInt = .ofNat number) :
    (literal (.integer value) span).render = number.repr := by
  rw [render, Literal.render, isNumber, Int.toString_eq_repr, Int.repr]

theorem render_negative {value : Int64} {number : Nat} (isNumber : value.toInt = .negSucc number) :
    (literal (.integer value) span).render = "-" ++ number.succ.repr := by
  rw [render, Literal.render, isNumber, Int.toString_eq_repr, Int.repr]

theorem Prints.unary (prints : tree.Prints .primary) : tree.Prints .unary := fun rest closed =>
  (prints rest closed).mono unary_of_primary

/-! ### Operations -/

theorem prints_parentheses {inner : List Char}
    (isText : tree.render.toList = '(' :: (inner ++ [')']))
    (spells : ∀ rest, Closed rest → Spells inner rest (tree.readings .expression)) :
    tree.Prints .primary := by
  intro rest closed
  have opening : Spells Symbol.leftParen.text.toList (inner ++ [')'] ++ rest)
      (Token.alone (.symbol .leftParen) "(") := Spells.symbol rfl
  have closing : Spells Symbol.rightParen.text.toList rest
      (Token.alone (.symbol .rightParen) ")") := Spells.symbol rfl
  rw [isText]
  exact (opening.append ((spells _ (.cons ')' rfl (by decide) rest)).append
    closing)).mono parentheses_mem

theorem prints_unary {op : UnaryOp} (isOperand : operand.Prints .primary)
    (opens : Opens operand.render.toList) (noNegated : op = .negate → operand.integer? = none) :
    (unary op operand span).Prints .primary := by
  refine prints_parentheses (render_unary op) fun rest closed => ?_
  have noCluster := (opens.append rest).noCluster
  cases op with
  | not =>
      have sign : Spells Operator.bang.text.toList (operand.render.toList ++ rest)
          (Token.alone (.operator .bang) "!") := Spells.operator_before (.inl rfl) noCluster
      exact ((sign.append (isOperand rest closed)).mono not_mem).mono expression_of_unary
  | negate =>
      have sign : Spells Operator.sub.text.toList (operand.render.toList ++ rest)
          (Token.alone (.operator .sub) "-") := Spells.operator_before (.inr rfl) noCluster
      exact ((sign.append (isOperand rest closed)).mono (negate_mem (noNegated rfl))).mono
        expression_of_unary

theorem prints_binary (op : BinaryOp) (printsLeft : lhs.Prints .unary)
    (printsRight : rhs.Prints .unary) (opens : Opens rhs.render.toList) :
    (binary op lhs rhs span).Prints .primary := by
  refine prints_parentheses (render_binary op) fun rest closed => ?_
  have sign : Spells op.text.toList (' ' :: (rhs.render.toList ++ rest))
      (Token.alone (.operator op.sign) op.text) := by
    rw [← op.text_sign]
    exact Spells.operator op.sign
  have right := (printsRight rest closed).after_blank (opens.append rest).noBlank
  have noBlank : ∀ next ∈ (op.text.toList ++ ' ' :: rhs.render.toList ++ rest).head?,
      Lexeme.isBlank next = false := by
    cases op <;> (rintro _ ⟨⟩; rfl)
  have left := printsLeft _
    (.cons ' ' rfl (by decide) (op.text.toList ++ ' ' :: rhs.render.toList ++ rest))
  exact (left.append ((sign.append right).after_blank noBlank)).mono (binary_mem op)

/-! ### Calls -/

theorem prints_argument {label : Ident} (isLabel : IsIdentifier label.name)
    (prints : tree.Prints .unary) (opens : Opens tree.render.toList) (rest : List Char)
    (closed : Closed rest) :
    Spells (label.name.toList ++ (':' :: ' ' :: tree.render.toList)) rest
      (labelled label tree) := by
  have name := Spells.identifier isLabel
    (.cons ':' rfl (by decide) (' ' :: tree.render.toList ++ rest))
  have colon : Spells Symbol.colon.text.toList (' ' :: tree.render.toList ++ rest)
      (Token.alone (.symbol .colon) ":") := Spells.symbol rfl
  have value := ((prints rest closed).mono expression_of_unary).after_blank
    (opens.append rest).noBlank
  exact name.append (colon.append value)

end Expr

theorem IsIdentifier.opens {name : String} (isIdentifier : IsIdentifier name) :
    Opens name.toList := by
  obtain ⟨first, others, isText, isStart, -⟩ := TokenRule.mem_word.mp isIdentifier.isWord
  exact ⟨first, others, isText, .inl (Lexeme.isWordPart_iff.mpr (.inl isStart))⟩

theorem renderArguments_singleton (label : Ident) (value : Expr) :
    (renderArguments [⟨label, value⟩]).toList =
      label.name.toList ++ (':' :: ' ' :: value.render.toList) := by
  simp [renderArguments]

theorem renderArguments_cons (label : Ident) (value : Expr) (next : CallArgument)
    (others : List CallArgument) : (renderArguments (⟨label, value⟩ :: next :: others)).toList =
      (label.name.toList ++ (':' :: ' ' :: value.render.toList)) ++
        (',' :: ' ' :: (renderArguments (next :: others)).toList) := by
  simp [renderArguments]

theorem renderArguments_opens {first : CallArgument} (isLabel : IsIdentifier first.label.name)
    (others : List CallArgument) : Opens (renderArguments (first :: others)).toList := by
  obtain ⟨label, value⟩ := first
  cases others with
  | nil =>
      rw [renderArguments_singleton]
      exact isLabel.opens.append _
  | cons second others =>
      rw [renderArguments_cons, List.append_assoc]
      exact isLabel.opens.append _

theorem prints_arguments {arguments : List CallArgument}
    (areLabels : ∀ argument ∈ arguments, IsIdentifier argument.label.name)
    (prints : ∀ argument ∈ arguments, argument.value.Prints .unary)
    (opens : ∀ argument ∈ arguments, Opens argument.value.render.toList) (rest : List Char)
    (closed : Closed rest) :
    Spells (renderArguments arguments).toList rest (argumentReadings arguments) := by
  induction arguments with
  | nil => exact Spells.nil Expr.noArgument_mem
  | cons argument others inductionHypothesis =>
      obtain ⟨label, value⟩ := argument
      have first := Expr.prints_argument (areLabels _ List.mem_cons_self)
        (prints _ List.mem_cons_self) (opens _ List.mem_cons_self)
      cases others with
      | nil =>
          rw [renderArguments_singleton]
          exact (first rest closed).mono (Expr.lastArgument_mem label)
      | cons next others =>
          have more := inductionHypothesis
            (fun argument member => areLabels argument (.tail _ member))
            (fun argument member => prints argument (.tail _ member))
            (fun argument member => opens argument (.tail _ member))
          have isLabel : IsIdentifier next.label.name := areLabels next (by simp)
          have noBlank := ((renderArguments_opens isLabel others).append rest).noBlank
          have comma : Spells Symbol.comma.text.toList
              (' ' :: (renderArguments (next :: others)).toList ++ rest)
              (Token.alone (.symbol .comma) ",") := Spells.symbol rfl
          rw [renderArguments_cons]
          exact ((first _ (.cons ',' rfl (by decide) _)).append
            (comma.append (more.after_blank noBlank))).mono (Expr.nextArgument_mem label _)

theorem prints_children {trees : List Expr} (atMostOne : trees.length ≤ 1)
    (prints : ∀ child ∈ trees, child.Prints .unary)
    (opens : ∀ child ∈ trees, Opens child.render.toList) (rest : List Char)
    (closed : Closed rest) : Spells (renderEach trees).toList rest (lineReadings trees) := by
  cases trees with
  | nil => exact Spells.nil Expr.noLine_mem
  | cons child others =>
      obtain rfl : others = [] := by
        simpa using atMostOne
      have isText : (renderEach [child]).toList = ' ' :: child.render.toList := by
        simp [renderEach]
      rw [isText]
      have line := (prints child List.mem_cons_self rest closed).mono Expr.expression_of_unary
      exact (line.after_blank ((opens child List.mem_cons_self).append rest).noBlank).mono
        Expr.line_mem

namespace Expr

variable {span : Span}

theorem spells_applied {name : Ident} {arguments : List CallArgument}
    (isName : IsIdentifier name.name) (printsArguments : ∀ rest, Closed rest →
      Spells (renderArguments arguments).toList rest (argumentReadings arguments))
    (rest : List Char) :
    Spells (name.name.toList ++ ('(' :: ((renderArguments arguments).toList ++ [')']))) rest
      (applied name arguments) := by
  have word := Spells.identifier isName
    (.cons '(' rfl (by decide) ((renderArguments arguments).toList ++ [')'] ++ rest))
  have opening : Spells Symbol.leftParen.text.toList
      ((renderArguments arguments).toList ++ [')'] ++ rest)
      (Token.alone (.symbol .leftParen) "(") := Spells.symbol rfl
  have list := printsArguments _ (.cons ')' rfl (by decide) rest)
  have closing : Spells Symbol.rightParen.text.toList rest
      (Token.alone (.symbol .rightParen) ")") := Spells.symbol rfl
  exact word.append (opening.append (list.append closing))

theorem prints_call {name : Ident} {arguments : List CallArgument} {children : Option (List Expr)}
    (isName : IsIdentifier name.name) (printsArguments : ∀ rest, Closed rest →
      Spells (renderArguments arguments).toList rest (argumentReadings arguments))
    (printsChildren : ∀ trees ∈ children, ∀ rest, Closed rest →
      Spells (renderEach trees).toList rest (lineReadings trees)) :
    (call name arguments children span).Prints .primary := by
  intro rest closed
  have head := spells_applied isName printsArguments
  cases children with
  | none =>
      have noText : (renderChildren none).toList = [] := rfl
      rw [render_call, noText, List.append_nil]
      exact (head rest).mono (call_mem name arguments)
  | some trees =>
      have isText : (renderChildren (some trees)).toList =
          ' ' :: '\x7b' :: ((renderEach trees).toList ++ [' ', '\x7d']) := by
        simp [renderChildren]
      have opening : Spells Symbol.leftBrace.text.toList
          ((renderEach trees).toList ++ [' ', '\x7d'] ++ rest)
          (Token.alone (.symbol .leftBrace) "\x7b") := Spells.symbol rfl
      have lines := printsChildren trees rfl _ (.cons ' ' rfl (by decide) ('\x7d' :: rest))
      have closing : Spells Symbol.rightBrace.text.toList rest
          (Token.alone (.symbol .rightBrace) "\x7d") := Spells.symbol rfl
      have closingLast := closing.after_blank (by rintro _ ⟨⟩; rfl)
      have braces := (opening.append (lines.append closingLast)).after_blank
        (by rintro _ ⟨⟩; rfl)
      rw [render_call, isText]
      exact ((head _).append braces).mono (callWithChildren_mem name arguments trees)

end Expr

/-! ## Trees that are read back -/

theorem opens_repr (number : Nat) : Opens number.repr.toList := by
  obtain ⟨first, tail, areCharacters, isDigit, -⟩ := exists_digits number
  refine ⟨first, tail, areCharacters, .inl ?_⟩
  rw [Lexeme.isWordPart, isDigit, Bool.or_true]

namespace Expr

variable {tree : Expr} {span : Span}

theorem Printable.opens (printable : tree.Printable) : Opens tree.render.toList := by
  cases printable with
  | identifier isName => exact isName.opens
  | @integer value span =>
      cases isNumber : value.toInt with
      | ofNat number =>
          rw [render_natural isNumber]
          exact opens_repr number
      | negSucc number =>
          rw [render_negative isNumber, String.toList_append]
          exact ⟨'-', _, rfl, .inr (.inr rfl)⟩
  | @boolean value span =>
      rw [render]
      cases value with
      | false => exact ⟨'f', ['a', 'l', 's', 'e'], by decide, .inl rfl⟩
      | true => exact ⟨'t', ['r', 'u', 'e'], by decide, .inl rfl⟩
  | unary =>
      rw [render_unary]
      exact ⟨'(', _, rfl, .inr (.inl rfl)⟩
  | binary =>
      rw [render_binary]
      exact ⟨'(', _, rfl, .inr (.inl rfl)⟩
  | call isName =>
      rw [render_call, List.append_assoc]
      exact isName.opens.append _

/-- The text of a printable tree is an operand, and one without a sign unless it is a
negative integer. -/
theorem Printable.prints (printable : tree.Printable) : tree.Prints .unary ∧
    ((∀ value ∈ tree.integer?, 0 ≤ value.toInt) → tree.Prints .primary) := by
  induction printable with
  | @identifier name span isName =>
      have prints : (Expr.identifier name span).Prints .primary := fun rest closed =>
        (Spells.identifier isName closed).mono (identifier_mem name)
      exact ⟨prints.unary, fun _ => prints⟩
  | @integer value span =>
      cases isNumber : value.toInt with
      | ofNat number =>
          have prints : (literal (.integer value) span).Prints .primary := by
            intro rest closed
            rw [render_natural isNumber]
            exact (Spells.digits number closed).mono (integer_mem isNumber)
          exact ⟨prints.unary, fun _ => prints⟩
      | negSucc number =>
          refine ⟨fun rest closed => ?_, fun natural => ?_⟩
          · have sign : Spells Operator.sub.text.toList (number.succ.repr.toList ++ rest)
                (Token.alone (.operator .sub) "-") :=
              Spells.operator_before (.inr rfl) ((opens_repr _).append rest).noCluster
            rw [render_negative isNumber, String.toList_append]
            exact (sign.append (Spells.digits _ closed)).mono (negative_mem isNumber)
          · have atLeast := natural value rfl
            omega
  | @boolean value span =>
      have isTruth : (Literal.boolean value).render = "true" ∨
          (Literal.boolean value).render = "false" := by
        cases value
        · exact .inr rfl
        · exact .inl rfl
      have prints : (literal (.boolean value) span).Prints .primary := fun rest closed =>
        (Spells.boolean isTruth closed).mono (boolean_mem value)
      exact ⟨prints.unary, fun _ => prints⟩
  | @unary op operand span printableOperand noNegative noNegated ofOperand =>
      have prints : (Expr.unary op operand span).Prints .primary :=
        prints_unary (ofOperand.2 noNegative) printableOperand.opens noNegated
      exact ⟨prints.unary, fun _ => prints⟩
  | @binary op lhs rhs span printableLeft printableRight ofLeft ofRight =>
      have prints : (Expr.binary op lhs rhs span).Prints .primary :=
        prints_binary op ofLeft.1 ofRight.1 printableRight.opens
      exact ⟨prints.unary, fun _ => prints⟩
  | @call name arguments children span isName areLabels printableValues atMostOne
      printableChildren ofValues ofChildren =>
      have printsArguments := prints_arguments areLabels
        (fun argument member => (ofValues argument member).1)
        fun argument member => (printableValues argument member).opens
      have prints : (Expr.call name arguments children span).Prints .primary :=
        prints_call isName printsArguments fun trees isTrees =>
          prints_children (atMostOne trees isTrees)
            (fun child member => (ofChildren trees isTrees child member).1)
            fun child member => (printableChildren trees isTrees child member).opens
      exact ⟨prints.unary, fun _ => prints⟩

end Expr

/-- The text of a printable tree is read as the tree, up to spans, and no part of the text
is left over. -/
theorem readExpression_render (tree : Expr) (printable : tree.Printable) (name : String) :
    ∃ reader read after,
      Reader.ofSource (.ofText name tree.render) = .ok reader ∧
      reader.readExpression = (.ok read, after) ∧ read.spanless = tree.spanless ∧
      after.atEnd = true ∧
      after.ending = .finished (Position.initial.advance tree.render.toList) := by
  obtain ⟨tokens, stop, tiles, read, derives, same⟩ :=
    (printable.prints.1 [] .nil).mono Expr.expression_of_unary .initial
  rw [List.append_nil] at tiles
  obtain rfl : stop = Position.initial.advance tree.render.toList := by
    rw [tiles.position_eq, tiles.text_eq, List.append_nil]
  let reader : Reader := ⟨tokens.filter (Lexer.gives false),
    .finished (Position.initial.advance tree.render.toList), .empty 0, true⟩
  have isStream : TokenStream.ofText tree.render.toList = ⟨reader.tokens, reader.ending⟩ :=
    Lexer.stream_eq tiles .finished false
  have started : Reader.ofSource (.ofText name tree.render) = .ok reader := by
    rw [Reader.ofSource, Source.characters_ofText, isStream]
    exact Reader.ofStream_eq_ok_iff.mpr ⟨rfl, fun _ => ⟨_, rfl⟩⟩
  obtain ⟨after, reads, atEnd, finished⟩ := reader.readExpression_of_derives derives rfl
  exact ⟨reader, read, after, started, reads, same, atEnd, finished⟩

def signedCall : Expr :=
  let span : Span := ⟨0, 0⟩
  .binary .less
    (.unary .negate
      (.call ⟨"f", span⟩
        [⟨⟨"a", span⟩, .literal (.integer (-9223372036854775808)) span⟩,
          ⟨⟨"b", span⟩, .unary .not (.identifier "x" span) span⟩]
        (some [.binary .sub (.literal (.integer 1) span) (.literal (.integer (-2)) span) span])
        span) span)
    (.literal (.boolean true) span) span

theorem readExpression_render_signedCall :
    signedCall.render = "((-f(a: -9223372036854775808, b: (!x)) \x7b (1 - -2) \x7d) < true)" ∧
    signedCall.Printable ∧
    ∃ reader read after,
      Reader.ofSource (.ofText "signed" signedCall.render) = .ok reader ∧
      reader.readExpression = (.ok read, after) ∧ read.spanless = signedCall.spanless ∧
      after.atEnd = true ∧
      after.ending = .finished (Position.initial.advance signedCall.render.toList) := by
  have printable : signedCall.Printable := by
    refine .binary (.unary (.call (by decide) (by decide) ?_ ?_ ?_) (by simp [Expr.integer?])
      fun _ => rfl) .boolean
    · refine List.forall_mem_cons.mpr ⟨.integer, List.forall_mem_singleton.mpr ?_⟩
      exact .unary (.identifier (by decide)) (by simp [Expr.integer?]) (by simp)
    · rintro _ ⟨⟩
      decide
    · rintro _ ⟨⟩
      exact List.forall_mem_singleton.mpr (.binary .integer .integer)
  exact ⟨by decide, printable, readExpression_render signedCall printable "signed"⟩

end ScalarLang
