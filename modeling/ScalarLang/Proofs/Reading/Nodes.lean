import Mathlib.Data.List.Infix
import ScalarLang.Proofs.Reading.Grammar
import ScalarLang.Proofs.Tree

/-!
# The tokens of a node

Every expression at any depth of a program is read from a part of its tokens that stand
next to each other.  They are an expression on their own, and the span of the node goes
from the start of the first to the end of the last of them.
-/

set_option autoImplicit false

namespace ScalarLang

open Grammar

/-! ## Nodes -/

def Expr.parts : Expr → List Expr
  | .conditional condition thenBlock elseBlock _ =>
    condition :: (thenBlock.expressions ++ elseBlock.toList.flatMap Block.expressions)
  | .call _ arguments children _ => arguments.map CallArgument.value ++ children.getD []
  | .binary _ lhs rhs _ => [lhs, rhs]
  | .unary _ operand _ => [operand]
  | .identifier _ _ => []
  | .literal _ _ => []

inductive Expr.Within : Expr → Expr → Prop where
  | self {expr : Expr} : Within expr expr
  | part {node part whole : Expr} (isPart : part ∈ whole.parts) (within : Within node part) :
      Within node whole

def Module.HasNode (program : Module) (node : Expr) : Prop :=
  ∃ function ∈ program.functions, ∃ expr ∈ function.body.expressions, node.Within expr

theorem Expr.parts_withSpan (expr : Expr) (span : Span) :
    (expr.withSpan span).parts = expr.parts := by
  cases expr <;> rfl

namespace Grammar

/-! ## Rows of operations -/

/-- The tokens of the operations after an operand, with what each of their operands is. -/
inductive Row (Operand : Expr → List Token → Prop) :
    List (BinaryOp × Expr) → List Token → Prop where
  | none : Row Operand [] []
  | next {op : BinaryOp} {tree : Expr} {others : List (BinaryOp × Expr)} {sign : Token}
      {newlines operand more : List Token} (isSign : sign.kind = .operator op.sign)
      (skipped : Newlines newlines) (right : Operand tree operand)
      (rest : Row Operand others more) :
      Row Operand ((op, tree) :: others) (sign :: newlines ++ operand ++ more)

variable {Operand : Expr → List Token → Prop}

theorem Row.split {op : BinaryOp} {tree : Expr} {left right : List (BinaryOp × Expr)} :
    ∀ {tokens : List Token}, Row Operand (left ++ (op, tree) :: right) tokens →
    ∃ before sign newlines operand more,
      tokens = before ++ (sign :: newlines ++ operand ++ more) ∧ Row Operand left before ∧
      sign.kind = .operator op.sign ∧ Newlines newlines ∧ Operand tree operand ∧
      Row Operand right more := by
  induction left with
  | nil =>
      intro tokens row
      cases row with
      | next isSign skipped isOperand rest =>
          exact ⟨[], _, _, _, _, rfl, .none, isSign, skipped, isOperand, rest⟩
  | cons first left inductionHypothesis =>
      intro tokens row
      cases row with
      | @next _ _ _ sign newlines operand _ isSign skipped isOperand rest =>
          obtain ⟨before, sign', newlines', operand', more, rfl, rowLeft, isRest⟩ :=
            inductionHypothesis rest
          refine ⟨sign :: newlines ++ operand ++ before, sign', newlines', operand', more, ?_,
            .next isSign skipped isOperand rowLeft, isRest⟩
          simp

theorem Row.derives {children : Bool} {others : List (BinaryOp × Expr)} {tokens : List Token}
    (isOperand : ∀ {tree tokens}, Operand tree tokens → Derives (.unary children tree) tokens)
    (row : Row Operand others tokens) : Derives (.operations children others) tokens := by
  induction row with
  | none => exact .noOperation
  | next isSign skipped right _ inductionHypothesis =>
      exact .operation isSign skipped (isOperand right) inductionHypothesis

/-! ## Spans -/

/-- No token starts or stops before one that comes earlier. -/
def InOrder (tokens : List Token) : Prop :=
  tokens.Pairwise fun left right =>
    left.span.start ≤ right.span.start ∧ left.span.stop ≤ right.span.stop

def Spans (tokens : List Token) (span : Span) : Prop :=
  ∃ first ∈ tokens.head?, ∃ last ∈ tokens.getLast?, span = ⟨first.span.start, last.span.stop⟩

theorem spans_singleton (token : Token) : Spans [token] token.span :=
  ⟨token, rfl, token, rfl, rfl⟩

theorem Spans.union {left middle right : List Token} {first second : Span}
    (inOrder : InOrder (left ++ middle ++ right)) (spansLeft : Spans left first)
    (spansRight : Spans right second) :
    Spans (left ++ middle ++ right) (first.union second) := by
  obtain ⟨start, isStart, lastLeft, isLastLeft, rfl⟩ := spansLeft
  obtain ⟨firstRight, isFirstRight, stop, isStop, rfl⟩ := spansRight
  have ordered : ∀ token ∈ left, ∀ other ∈ right,
      token.span.start ≤ other.span.start ∧ token.span.stop ≤ other.span.stop := by
    intro token inLeft other inRight
    exact (List.pairwise_append.mp inOrder).2.2 token (List.mem_append_left _ inLeft) other inRight
  have starts := (ordered start (List.mem_of_mem_head? isStart) firstRight
    (List.mem_of_mem_head? isFirstRight)).1
  have stops := (ordered lastLeft (List.mem_of_mem_getLast? isLastLeft) stop
    (List.mem_of_mem_getLast? isStop)).2
  refine ⟨start, ?_, stop, ?_, ?_⟩
  · rw [List.append_assoc, List.head?_append, Option.mem_def.mp isStart]
    rfl
  · rw [List.getLast?_append, Option.mem_def.mp isStop]
    rfl
  · simp only [Span.union, Nat.min_eq_left starts, Nat.max_eq_right stops]

def SpansTree (tree : Expr) (tokens : List Token) : Prop :=
  InOrder tokens → Spans tokens tree.span

theorem InOrder.left {left right : List Token} (inOrder : InOrder (left ++ right)) : InOrder left :=
  (List.pairwise_append.mp inOrder).1

theorem InOrder.right {left right : List Token} (inOrder : InOrder (left ++ right)) :
    InOrder right :=
  (List.pairwise_append.mp inOrder).2.1

theorem spansTree_grouping (grouping : Grouping) : ∀ {operand others : List Token},
    SpansTree grouping.first operand → Row SpansTree grouping.others others →
      SpansTree grouping.tree (operand ++ others) := by
  induction grouping with
  | operand tree =>
      intro operand others spans row
      cases row
      rw [List.append_nil]
      exact spans
  | operation op left right ofLeft ofRight =>
      intro operand others spans row
      obtain ⟨before, sign, newlines, second, more, rfl, rowLeft, -, -, spansSecond, rowRight⟩ :=
        row.split
      have spansLeft := ofLeft spans rowLeft
      have spansRight := ofRight spansSecond rowRight
      have regroup : operand ++ (before ++ (sign :: newlines ++ second ++ more)) =
          operand ++ before ++ (sign :: newlines) ++ (second ++ more) := by simp
      rw [regroup]
      intro inOrder
      exact .union inOrder (spansLeft inOrder.left.left) (spansRight inOrder.right)

def Spanned : Phrase → List Token → Prop
  | .expression _ tree, tokens => SpansTree tree tokens
  | .operations _ others, tokens => Row SpansTree others tokens
  | .unary _ tree, tokens => SpansTree tree tokens
  | .primary _ tree, tokens => SpansTree tree tokens
  | .arguments _, _ => True
  | .lines _, _ => True
  | .block _, _ => True

theorem Derives.spanned {phrase : Phrase} {tokens : List Token} (derives : Derives phrase tokens) :
    Spanned phrase tokens := by
  induction derives with
  | @expression _ grouping _ _ _ _ _ first rest => exact spansTree_grouping grouping first rest
  | noOperation => exact .none
  | operation isSign skipped _ _ right rest => exact .next isSign skipped right rest
  | plain _ operand => exact operand
  | @not _ _ sign tokens _ _ operand =>
      intro inOrder
      have inOrder : InOrder ([sign] ++ [] ++ tokens) := inOrder
      exact .union inOrder (spans_singleton sign) (operand inOrder.right)
  | @negative _ _ sign digits _ _ _ _ =>
      intro inOrder
      have inOrder : InOrder ([sign] ++ [] ++ [digits]) := inOrder
      exact .union inOrder (spans_singleton sign) (spans_singleton digits)
  | @negate _ _ sign first tokens _ _ _ operand =>
      intro inOrder
      have inOrder : InOrder ([sign] ++ [] ++ (first :: tokens)) := inOrder
      exact .union inOrder (spans_singleton sign) (operand inOrder.right)
  | @identifier _ name _ => exact fun _ => spans_singleton name
  | @integer _ _ digits _ _ _ => exact fun _ => spans_singleton digits
  | @float _ digits _ => exact fun _ => spans_singleton digits
  | @boolean _ word _ => exact fun _ => spans_singleton word
  | @parentheses _ _ opening closing leading tokens trailing =>
      intro inOrder
      have regroup : opening :: leading ++ tokens ++ trailing ++ [closing] =
          [opening] ++ (leading ++ tokens ++ trailing) ++ [closing] := rfl
      rw [regroup, Expr.span_withSpan]
      exact .union inOrder (spans_singleton opening) (spans_singleton closing)
  | @call _ _ name opening closing leading tokens =>
      intro inOrder
      have regroup : name :: opening :: leading ++ tokens ++ [closing] =
          [name] ++ (opening :: leading ++ tokens) ++ [closing] := rfl
      rw [regroup] at inOrder ⊢
      exact .union inOrder (spans_singleton name) (spans_singleton closing)
  | @callWithChildren _ _ name opening closing openingBrace closingBrace leading tokens leadingLines
      lines =>
      intro inOrder
      have regroup : name :: opening :: leading ++ tokens ++ [closing] ++
          (openingBrace :: leadingLines ++ lines ++ [closingBrace]) =
          [name] ++ (opening :: leading ++ tokens) ++ [closing] ++
            (openingBrace :: leadingLines ++ lines) ++ [closingBrace] := by simp
      rw [regroup] at inOrder ⊢
      exact .union inOrder (.union inOrder.left.left (spans_singleton name)
        (spans_singleton closing)) (spans_singleton closingBrace)
  | @conditional _ _ _ start closing tokens body =>
      intro inOrder
      have regroup : start :: tokens ++ (body ++ [closing]) =
          [start] ++ (tokens ++ body) ++ [closing] := by simp
      rw [regroup] at inOrder ⊢
      exact .union inOrder (spans_singleton start) (spans_singleton closing)
  | @conditionalElse _ _ _ _ start middle closing tokens first second =>
      intro inOrder
      have regroup : start :: tokens ++ first ++ middle :: (second ++ [closing]) =
          [start] ++ (tokens ++ first ++ middle :: second) ++ [closing] := by simp
      rw [regroup] at inOrder ⊢
      exact .union inOrder (spans_singleton start) (spans_singleton closing)
  | noArgument => trivial
  | lastArgument => trivial
  | nextArgument => trivial
  | noLine => trivial
  | lastLine => trivial
  | nextLine => trivial
  | block => trivial
  | blockWithResult => trivial

/-! ## Tokens of inner nodes -/

def Finds (expr : Expr) (tokens : List Token) : Prop :=
  ∀ node, node.Within expr → ∃ part, part <:+: tokens ∧ Derives (.expression true node) part

theorem Finds.mono {expr : Expr} {tokens more : List Token} (finds : Finds expr tokens)
    (inside : tokens <:+: more) : Finds expr more := by
  intro node within
  obtain ⟨part, isPart, derives⟩ := finds node within
  exact ⟨part, isPart.trans inside, derives⟩

theorem Finds.part {expr part : Expr} {tokens : List Token} (finds : Finds expr tokens)
    (isPart : part ∈ expr.parts) : Finds part tokens :=
  fun node within => finds node (.part isPart within)

def FindsAll (exprs : List Expr) (tokens : List Token) : Prop :=
  ∀ expr ∈ exprs, Finds expr tokens

namespace FindsAll

variable {exprs others : List Expr} {tokens more : List Token}

theorem nil : FindsAll [] tokens := fun _ member => nomatch member

theorem cons {expr : Expr} (first : Finds expr tokens) (rest : FindsAll exprs tokens) :
    FindsAll (expr :: exprs) tokens :=
  List.forall_mem_cons.mpr ⟨first, rest⟩

theorem append (first : FindsAll exprs tokens) (second : FindsAll others tokens) :
    FindsAll (exprs ++ others) tokens :=
  List.forall_mem_append.mpr ⟨first, second⟩

theorem mono (finds : FindsAll exprs tokens) (inside : tokens <:+: more) : FindsAll exprs more :=
  fun expr member => (finds expr member).mono inside

end FindsAll

theorem finds_of_parts {expr : Expr} {tokens : List Token}
    (derives : Derives (.expression true expr) tokens) (parts : FindsAll expr.parts tokens) :
    Finds expr tokens := by
  intro node within
  cases within with
  | self => exact ⟨tokens, List.infix_rfl, derives⟩
  | part isPart within => exact parts _ isPart node within

theorem Derives.expression_of_unary {children : Bool} {tree : Expr} {tokens : List Token}
    (derives : Derives (.unary children tree) tokens) :
    Derives (.expression children tree) tokens := by
  have isRow := @Derives.expression children (.operand tree) _ _ derives .noOperation trivial
  rwa [List.append_nil] at isRow

/-- An operand is found, and it is one where calls may have children too. -/
def FindsOperand (tree : Expr) (tokens : List Token) : Prop :=
  Derives (.unary true tree) tokens ∧ Finds tree tokens

theorem findsOperand_of_parts {tree : Expr} {tokens : List Token}
    (derives : Derives (.unary true tree) tokens) (parts : FindsAll tree.parts tokens) :
    FindsOperand tree tokens :=
  ⟨derives, finds_of_parts derives.expression_of_unary parts⟩

theorem finds_grouping (grouping : Grouping) : ∀ {operand others : List Token},
    grouping.WellGrouped → FindsOperand grouping.first operand →
      Row FindsOperand grouping.others others → Finds grouping.tree (operand ++ others) := by
  induction grouping with
  | operand tree =>
      intro operand others _ finds row
      cases row
      rw [List.append_nil]
      exact finds.2
  | operation op left right ofLeft ofRight =>
      intro operand others grouped finds row
      have derives := @Derives.expression true (.operation op left right) _ _ finds.1
        (row.derives And.left) grouped
      obtain ⟨-, -, groupedLeft, groupedRight⟩ := grouped
      obtain ⟨before, sign, newlines, second, more, rfl, rowLeft, -, -, findsSecond, rowRight⟩ :=
        row.split
      have findsLeft := ofLeft groupedLeft finds rowLeft
      have findsRight := ofRight groupedRight findsSecond rowRight
      refine finds_of_parts derives (.cons (findsLeft.mono ?_) (.cons (findsRight.mono ?_) .nil))
      · exact ⟨[], sign :: newlines ++ second ++ more, by simp⟩
      · exact ⟨operand ++ before ++ (sign :: newlines), [], by simp⟩

def Located : Phrase → List Token → Prop
  | .expression _ tree, tokens => Finds tree tokens
  | .operations _ others, tokens => Row FindsOperand others tokens
  | .unary _ tree, tokens => FindsOperand tree tokens
  | .primary _ tree, tokens => Derives (.primary true tree) tokens ∧ Finds tree tokens
  | .arguments list, tokens => FindsAll (list.map CallArgument.value) tokens
  | .lines trees, tokens => FindsAll trees tokens
  | .block body, tokens => FindsAll body.expressions tokens

theorem located_primary {children : Bool} {tree : Expr} {tokens : List Token}
    (derives : Derives (.primary true tree) tokens) (parts : FindsAll tree.parts tokens) :
    Located (.primary children tree) tokens :=
  ⟨derives, finds_of_parts (Derives.plain derives).expression_of_unary parts⟩

theorem Derives.located {phrase : Phrase} {tokens : List Token} (derives : Derives phrase tokens) :
    Located phrase tokens := by
  -- Each inner phrase stands in the middle of the tokens of its rule.
  induction derives with
  | @expression _ grouping _ _ _ _ grouped first rest =>
      exact finds_grouping grouping grouped first rest
  | noOperation => exact .none
  | operation isSign skipped _ _ right rest => exact .next isSign skipped right rest
  | plain _ operand => exact ⟨.plain operand.1, operand.2⟩
  | not isSign _ operand =>
      refine findsOperand_of_parts (.not isSign operand.1) (.cons ?_ .nil)
      exact operand.2.mono (List.infix_cons List.infix_rfl)
  | negative isSign isInteger fits denotes =>
      exact findsOperand_of_parts (.negative isSign isInteger fits denotes) .nil
  | negate isSign noInteger _ operand =>
      refine findsOperand_of_parts (.negate isSign noInteger operand.1) (.cons ?_ .nil)
      exact operand.2.mono (List.infix_cons List.infix_rfl)
  | identifier isName => exact located_primary (.identifier isName) .nil
  | integer isInteger fits denotes =>
      exact located_primary (.integer isInteger fits denotes) .nil
  | float isFloat => exact located_primary (.float isFloat) .nil
  | boolean isBoolean => exact located_primary (.boolean isBoolean) .nil
  | @parentheses _ tree opening closing leading _ trailing opens skipped derivesInner skippedAfter
      closes inner =>
      refine located_primary (.parentheses opens skipped derivesInner skippedAfter closes) ?_
      intro part isPart
      rw [Expr.parts_withSpan] at isPart
      exact (inner.part isPart).mono ⟨opening :: leading, trailing ++ [closing], by simp⟩
  | @call _ _ name opening closing leading _ isName opens skipped derivesInner closes inner =>
      refine located_primary (.call isName opens skipped derivesInner closes) (.append ?_ .nil)
      exact inner.mono ⟨name :: opening :: leading, [closing], by simp⟩
  | @callWithChildren _ _ name opening closing openingBrace closingBrace leading tokens leadingLines
      lines isName opens skipped derivesInner closes opensBrace skippedLines derivesLines
      closesBrace inner innerLines =>
      refine located_primary (.callWithChildren isName opens skipped derivesInner closes opensBrace
        skippedLines derivesLines closesBrace) (.append (inner.mono ?_) (innerLines.mono ?_))
      · exact ⟨name :: opening :: leading,
          closing :: openingBrace :: leadingLines ++ lines ++ [closingBrace], by simp⟩
      · exact ⟨name :: opening :: leading ++ tokens ++ closing :: openingBrace :: leadingLines,
          [closingBrace], by simp⟩
  | @conditional _ _ _ start closing tokens body isIf derivesTest derivesYes test yes =>
      refine located_primary (.conditional isIf derivesTest derivesYes)
        (.cons (test.mono ?_) (.append (yes.mono ?_) .nil))
      · exact ⟨[start], body ++ [closing], rfl⟩
      · exact ⟨start :: tokens, [], by simp⟩
  | @conditionalElse _ _ _ _ start middle closing tokens first second isIf derivesTest derivesYes
      isElse derivesNo test yes no =>
      refine located_primary (.conditionalElse isIf derivesTest derivesYes isElse derivesNo)
        (.cons (test.mono ?_) (.append (yes.mono ?_) (.append (no.mono ?_) .nil)))
      · exact ⟨[start], first ++ middle :: (second ++ [closing]), by simp⟩
      · exact ⟨start :: tokens, middle :: (second ++ [closing]), rfl⟩
      · exact ⟨start :: tokens ++ first ++ [middle], [], by simp⟩
  | noArgument => exact .nil
  | @lastArgument _ label colon _ trailing _ _ _ _ inner =>
      exact .cons (inner.mono ⟨[label, colon], trailing, rfl⟩) .nil
  | @nextArgument _ _ label colon comma tokens trailing leading more _ _ _ _ _ _ _ inner rest =>
      refine .cons (inner.mono ?_) (FindsAll.mono rest ?_)
      · exact ⟨[label, colon], trailing ++ comma :: leading ++ more, by simp⟩
      · exact ⟨label :: colon :: tokens ++ trailing ++ comma :: leading, [], by simp⟩
  | noLine => exact .nil
  | lastLine _ inner => exact .cons inner .nil
  | @nextLine _ _ tokens newlines more _ _ _ _ inner rest =>
      refine .cons (inner.mono ?_) (FindsAll.mono rest ?_)
      · exact ⟨[], newlines ++ more, by simp⟩
      · exact ⟨tokens ++ newlines, [], by simp⟩
  | @block _ opening closing leading _ _ _ _ _ inner =>
      exact .append (FindsAll.mono inner ⟨opening :: leading, [closing], rfl⟩) .nil
  | @blockWithResult _ _ opening word closing leading lines tokens trailing _ _ _ _ _ _ _ inner
      returned =>
      refine .append (FindsAll.mono inner ?_) (.cons (returned.mono ?_) .nil)
      · exact ⟨opening :: leading, word :: tokens ++ trailing ++ [closing], by simp⟩
      · exact ⟨opening :: leading ++ lines ++ [word], trailing ++ [closing], by simp⟩

/-! ## Programs -/

theorem IsFunction.finds {function : FunctionDecl} {tokens : List Token}
    (isFunction : IsFunction function tokens) : FindsAll function.body.expressions tokens := by
  obtain ⟨_, _, _, _, _, _, _, isBody⟩ := isFunction
  exact FindsAll.mono isBody.located (List.suffix_append _ _).isInfix

theorem AreFunctions.finds {functions : List FunctionDecl} {tokens : List Token}
    (areFunctions : AreFunctions functions tokens) :
    ∀ function ∈ functions, FindsAll function.body.expressions tokens := by
  induction areFunctions with
  | last isFunction _ =>
      intro function member
      rw [List.mem_singleton.mp member]
      exact isFunction.finds.mono (List.prefix_append _ _).isInfix
  | next isFunction _ _ _ inductionHypothesis =>
      intro function member
      rcases List.mem_cons.mp member with rfl | member
      · rw [List.append_assoc]
        exact isFunction.finds.mono (List.prefix_append _ _).isInfix
      · exact (inductionHypothesis function member).mono (List.suffix_append _ _).isInfix

/-- Every node of a program is read from some of its tokens as an expression. -/
theorem IsProgram.finds {program : Module} {tokens : List Token}
    (isProgram : IsProgram program tokens) {node : Expr} (hasNode : program.HasNode node) :
    ∃ part, part <:+: tokens ∧ Derives (.expression true node) part := by
  obtain ⟨skipped, areFunctions⟩ := isProgram
  obtain ⟨function, isFunction, expr, isExpr, within⟩ := hasNode
  have finds := areFunctions.finds function isFunction
  exact finds.mono (List.suffix_append _ _).isInfix expr isExpr node within

end Grammar

end ScalarLang
