import Mathlib.Data.List.Forall2
import Mathlib.Order.Lattice
import ScalarLang.Proofs.Reading.Completeness

/-!
# Moving the offsets of a tree

Spans come into a tree from the tokens alone, as spans of single tokens and unions of
them.  So if the offsets of the tokens change in a way that keeps their order, the spans
of the tree change in the same way and nothing else does.
-/

set_option autoImplicit false

namespace ScalarLang

open Grammar

/-! ## Trees -/

def Span.mapOffsets (change : Nat → Nat) (span : Span) : Span :=
  ⟨change span.start, change span.stop⟩

def Ident.mapOffsets (change : Nat → Nat) (ident : Ident) : Ident :=
  ⟨ident.name, ident.span.mapOffsets change⟩

mutual

def Expr.mapOffsets (change : Nat → Nat) : Expr → Expr
  | .conditional condition thenBlock elseBlock span =>
    .conditional (condition.mapOffsets change) (thenBlock.mapOffsets change)
      (elseMapOffsets change elseBlock) (span.mapOffsets change)
  | .call name arguments children span =>
    .call (name.mapOffsets change) (argumentsMapOffsets change arguments)
      (childrenMapOffsets change children) (span.mapOffsets change)
  | .binary op lhs rhs span =>
    .binary op (lhs.mapOffsets change) (rhs.mapOffsets change) (span.mapOffsets change)
  | .unary op operand span => .unary op (operand.mapOffsets change) (span.mapOffsets change)
  | .identifier name span => .identifier name (span.mapOffsets change)
  | .literal value span => .literal value (span.mapOffsets change)

def Block.mapOffsets (change : Nat → Nat) : Block → Block
  | ⟨statements, result⟩ => ⟨linesMapOffsets change statements, resultMapOffsets change result⟩

def elseMapOffsets (change : Nat → Nat) : Option Block → Option Block
  | none => none
  | some block => some (block.mapOffsets change)

def argumentsMapOffsets (change : Nat → Nat) : List CallArgument → List CallArgument
  | [] => []
  | ⟨label, value⟩ :: rest =>
    ⟨label.mapOffsets change, value.mapOffsets change⟩ :: argumentsMapOffsets change rest

def childrenMapOffsets (change : Nat → Nat) : Option (List Expr) → Option (List Expr)
  | none => none
  | some children => some (linesMapOffsets change children)

def linesMapOffsets (change : Nat → Nat) : List Expr → List Expr
  | [] => []
  | line :: rest => line.mapOffsets change :: linesMapOffsets change rest

def resultMapOffsets (change : Nat → Nat) : Option Expr → Option Expr
  | none => none
  | some result => some (result.mapOffsets change)

end

variable {change : Nat → Nat}

theorem Expr.span_mapOffsets (expr : Expr) :
    (expr.mapOffsets change).span = expr.span.mapOffsets change := by
  cases expr <;> rfl

theorem Expr.withSpan_mapOffsets (expr : Expr) (span : Span) :
    (expr.withSpan span).mapOffsets change =
      (expr.mapOffsets change).withSpan (span.mapOffsets change) := by
  cases expr <;> rfl

theorem Span.union_mapOffsets (monotone : Monotone change) (left right : Span) :
    (left.union right).mapOffsets change =
      (left.mapOffsets change).union (right.mapOffsets change) := by
  simp only [Span.union, Span.mapOffsets, monotone.map_min, monotone.map_max]

/-! ## Groupings -/

namespace Grouping

def mapOffsets (change : Nat → Nat) : Grouping → Grouping
  | .operand tree => .operand (tree.mapOffsets change)
  | .operation op left right => .operation op (left.mapOffsets change) (right.mapOffsets change)

def operationsMapOffsets (change : Nat → Nat) (operations : List (BinaryOp × Expr)) :
    List (BinaryOp × Expr) :=
  operations.map fun operation => (operation.1, operation.2.mapOffsets change)

theorem tree_mapOffsets (monotone : Monotone change) (grouping : Grouping) :
    (grouping.mapOffsets change).tree = grouping.tree.mapOffsets change := by
  induction grouping with
  | operand tree => rfl
  | operation op left right ofLeft ofRight =>
      simp only [mapOffsets, tree, Expr.mapOffsets, ofLeft, ofRight, Expr.span_mapOffsets,
        Span.union_mapOffsets monotone]

theorem first_mapOffsets (grouping : Grouping) :
    (grouping.mapOffsets change).first = grouping.first.mapOffsets change := by
  induction grouping with
  | operand tree => rfl
  | operation op left right ofLeft _ => exact ofLeft

theorem others_mapOffsets (grouping : Grouping) :
    (grouping.mapOffsets change).others = operationsMapOffsets change grouping.others := by
  induction grouping with
  | operand tree => rfl
  | operation op left right ofLeft ofRight =>
      simp [mapOffsets, others, ofLeft, ofRight, first_mapOffsets, operationsMapOffsets]

theorem root?_mapOffsets (grouping : Grouping) :
    (grouping.mapOffsets change).root? = grouping.root? := by
  cases grouping <;> rfl

theorem WellGrouped.mapOffsets {grouping : Grouping} (grouped : grouping.WellGrouped) :
    (grouping.mapOffsets change).WellGrouped := by
  induction grouping with
  | operand tree => trivial
  | operation op left right ofLeft ofRight =>
      obtain ⟨onLeft, onRight, groupedLeft, groupedRight⟩ := grouped
      refine ⟨?_, ?_, ofLeft groupedLeft, ofRight groupedRight⟩
      · rwa [root?_mapOffsets]
      · rwa [root?_mapOffsets]

end Grouping

/-! ## Tokens -/

structure Token.Moves (change : Nat → Nat) (token moved : Token) : Prop where
  kind : moved.kind = token.kind
  text : moved.text = token.text
  span : moved.span = token.span.mapOffsets change

theorem Token.Moves.ident {token moved : Token} (moves : token.Moves change moved) :
    moved.ident = token.ident.mapOffsets change := by
  simp [Token.ident, Ident.mapOffsets, moves.text, moves.span]

theorem Token.Moves.number {token moved : Token} (moves : token.Moves change moved) :
    moved.number = token.number := by
  rw [Token.number, Token.number, moves.text]

theorem forall₂_append_left_iff {α β : Type} {Related : α → β → Prop} {left right : List α}
    {both : List β} : List.Forall₂ Related (left ++ right) both ↔
      ∃ first second, List.Forall₂ Related left first ∧ List.Forall₂ Related right second ∧
        both = first ++ second := by
  induction left generalizing both with
  | nil => simp
  | cons head left inductionHypothesis =>
      simp only [List.cons_append, List.forall₂_cons_left_iff, inductionHypothesis]
      constructor
      · rintro ⟨other, _, related, ⟨first, second, ofLeft, ofRight, rfl⟩, rfl⟩
        exact ⟨other :: first, second, ⟨other, first, related, ofLeft, rfl⟩, ofRight, rfl⟩
      · rintro ⟨_, second, ⟨other, first, related, ofLeft, rfl⟩, ofRight, rfl⟩
        exact ⟨other, first ++ second, related, ⟨first, second, ofLeft, ofRight, rfl⟩, rfl⟩

theorem forall₂_singleton_left_iff {α β : Type} {Related : α → β → Prop} {value : α}
    {others : List β} : List.Forall₂ Related [value] others ↔
      ∃ other, Related value other ∧ others = [other] := by
  simp [List.forall₂_cons_left_iff]

theorem Grammar.Newlines.moves {tokens moved : List Token} (newlines : Newlines tokens)
    (moves : List.Forall₂ (Token.Moves change) tokens moved) : Newlines moved := by
  induction moves with
  | nil => exact newlines
  | @cons token other tokens moved same _ inductionHypothesis =>
      intro found member
      rcases List.mem_cons.mp member with rfl | member
      · exact same.kind.trans (newlines token (.head _))
      · exact inductionHypothesis (fun token member => newlines token (.tail _ member)) found member

/-! ## Phrases -/

def Grammar.Phrase.mapOffsets (change : Nat → Nat) : Phrase → Phrase
  | .expression children tree => .expression children (tree.mapOffsets change)
  | .operations children others =>
    .operations children (Grouping.operationsMapOffsets change others)
  | .unary children tree => .unary children (tree.mapOffsets change)
  | .primary children tree => .primary children (tree.mapOffsets change)
  | .arguments list => .arguments (argumentsMapOffsets change list)
  | .lines trees => .lines (linesMapOffsets change trees)
  | .block body => .block (body.mapOffsets change)

namespace Grammar

/-- A phrase is read from tokens that were moved, with its own offsets moved too. -/
def Movable (change : Nat → Nat) (phrase : Phrase) (tokens : List Token) : Prop :=
  ∀ moved, List.Forall₂ (Token.Moves change) tokens moved →
    Derives (phrase.mapOffsets change) moved

section Movable

variable {children : Bool}

theorem movable_expression (monotone : Monotone change) {grouping : Grouping}
    {operand others : List Token}
    (first : Movable change (.unary children grouping.first) operand)
    (rest : Movable change (.operations children grouping.others) others)
    (grouped : grouping.WellGrouped) :
    Movable change (.expression children grouping.tree) (operand ++ others) := by
  intro moved moves
  obtain ⟨operand', others', movesOperand, movesOthers, rfl⟩ := forall₂_append_left_iff.mp moves
  have isFirst := first operand' movesOperand
  have isRest := rest others' movesOthers
  simp only [Phrase.mapOffsets] at isFirst isRest ⊢
  rw [← Grouping.first_mapOffsets] at isFirst
  rw [← Grouping.others_mapOffsets] at isRest
  rw [← Grouping.tree_mapOffsets monotone]
  exact .expression isFirst isRest grouped.mapOffsets

theorem movable_operation {op : BinaryOp} {next : Expr} {others : List (BinaryOp × Expr)}
    {sign : Token} {newlines operand more : List Token} (isSign : sign.kind = .operator op.sign)
    (skipped : Newlines newlines) (right : Movable change (.unary children next) operand)
    (rest : Movable change (.operations children others) more) :
    Movable change (.operations children ((op, next) :: others))
      (sign :: newlines ++ operand ++ more) := by
  intro moved moves
  simp only [List.cons_append, List.forall₂_cons_left_iff, forall₂_append_left_iff] at moves
  obtain ⟨sign', _, movesSign, ⟨_, more', ⟨newlines', operand', movesNewlines, movesOperand, rfl⟩,
    movesMore, rfl⟩, rfl⟩ := moves
  exact .operation (movesSign.kind.trans isSign) (skipped.moves movesNewlines)
    (right operand' movesOperand) (rest more' movesMore)

/-! ### Operands -/

theorem movable_not (monotone : Monotone change) {tree : Expr} {sign : Token} {tokens : List Token}
    (isSign : sign.kind = .operator .bang)
    (operand : Movable change (.primary children tree) tokens) :
    Movable change (.unary children (.unary .not tree (sign.span.union tree.span)))
      (sign :: tokens) := by
  intro moved moves
  obtain ⟨sign', tokens', movesSign, movesTokens, rfl⟩ := List.forall₂_cons_left_iff.mp moves
  have derives := Derives.not (movesSign.kind.trans isSign) (operand tokens' movesTokens)
  rw [movesSign.span, Expr.span_mapOffsets, ← Span.union_mapOffsets monotone] at derives
  exact derives

theorem movable_negative (monotone : Monotone change) {value : Int64} {sign digits : Token}
    (isSign : sign.kind = .operator .sub) (isInteger : digits.kind = .integer)
    (fits : digits.number ≤ 0x8000000000000000) (denotes : value.toInt = -digits.number) :
    Movable change (.unary children (.literal (.integer value) (sign.span.union digits.span)))
      [sign, digits] := by
  intro moved moves
  obtain ⟨sign', _, movesSign, movesRest, rfl⟩ := List.forall₂_cons_left_iff.mp moves
  obtain ⟨digits', movesDigits, rfl⟩ := forall₂_singleton_left_iff.mp movesRest
  rw [← movesDigits.number] at fits denotes
  have derives := @Derives.negative children _ _ _ (movesSign.kind.trans isSign)
    (movesDigits.kind.trans isInteger) fits denotes
  rw [movesSign.span, movesDigits.span, ← Span.union_mapOffsets monotone] at derives
  exact derives

theorem movable_negate (monotone : Monotone change) {tree : Expr} {sign first : Token}
    {tokens : List Token} (isSign : sign.kind = .operator .sub) (noInteger : first.kind ≠ .integer)
    (operand : Movable change (.primary children tree) (first :: tokens)) :
    Movable change (.unary children (.unary .negate tree (sign.span.union tree.span)))
      (sign :: first :: tokens) := by
  intro moved moves
  obtain ⟨sign', _, movesSign, movesRest, rfl⟩ := List.forall₂_cons_left_iff.mp moves
  have isOperand := operand _ movesRest
  obtain ⟨first', _, movesFirst, -, rfl⟩ := List.forall₂_cons_left_iff.mp movesRest
  have derives := Derives.negate (movesSign.kind.trans isSign) (movesFirst.kind ▸ noInteger)
    isOperand
  rw [movesSign.span, Expr.span_mapOffsets, ← Span.union_mapOffsets monotone] at derives
  exact derives

theorem movable_identifier {name : Token} (isName : name.kind = .identifier) :
    Movable change (.primary children (.identifier name.text name.span)) [name] := by
  intro moved moves
  obtain ⟨name', movesName, rfl⟩ := forall₂_singleton_left_iff.mp moves
  have derives := @Derives.identifier children _ (movesName.kind.trans isName)
  rw [movesName.text, movesName.span] at derives
  exact derives

theorem movable_integer {value : Int64} {digits : Token} (isInteger : digits.kind = .integer)
    (fits : digits.number ≤ 0x7FFFFFFFFFFFFFFF) (denotes : value.toInt = digits.number) :
    Movable change (.primary children (.literal (.integer value) digits.span)) [digits] := by
  intro moved moves
  obtain ⟨digits', movesDigits, rfl⟩ := forall₂_singleton_left_iff.mp moves
  rw [← movesDigits.number] at fits denotes
  have derives := @Derives.integer children _ _ (movesDigits.kind.trans isInteger) fits denotes
  rw [movesDigits.span] at derives
  exact derives

theorem movable_float {digits : Token} (isFloat : digits.kind = .float) :
    Movable change (.primary children
      (.literal (.float (Literal.floatOfText digits.text)) digits.span)) [digits] := by
  intro moved moves
  obtain ⟨digits', movesDigits, rfl⟩ := forall₂_singleton_left_iff.mp moves
  have derives := @Derives.float children _ (movesDigits.kind.trans isFloat)
  rw [movesDigits.text, movesDigits.span] at derives
  exact derives

theorem movable_boolean {word : Token} (isBoolean : word.kind = .boolean) :
    Movable change (.primary children (.literal (.boolean (word.text == "true")) word.span))
      [word] := by
  intro moved moves
  obtain ⟨word', movesWord, rfl⟩ := forall₂_singleton_left_iff.mp moves
  have derives := @Derives.boolean children _ (movesWord.kind.trans isBoolean)
  rw [movesWord.text, movesWord.span] at derives
  exact derives

theorem movable_parentheses (monotone : Monotone change) {tree : Expr} {opening closing : Token}
    {leading tokens trailing : List Token} (opens : opening.kind = .symbol .leftParen)
    (skipped : Newlines leading) (inner : Movable change (.expression true tree) tokens)
    (skippedAfter : Newlines trailing) (closes : closing.kind = .symbol .rightParen) :
    Movable change (.primary children (tree.withSpan (opening.span.union closing.span)))
      (opening :: leading ++ tokens ++ trailing ++ [closing]) := by
  intro moved moves
  simp only [List.cons_append, List.forall₂_cons_left_iff, forall₂_append_left_iff,
    List.forall₂_nil_left_iff] at moves
  obtain ⟨opening', _, movesOpening, ⟨_, _, ⟨_, trailing', ⟨leading', tokens', movesLeading,
    movesTokens, rfl⟩, movesTrailing, rfl⟩, ⟨closing', _, movesClosing, rfl, rfl⟩, rfl⟩,
    rfl⟩ := moves
  have derives := @Derives.parentheses children _ _ _ _ _ _ (movesOpening.kind.trans opens)
    (skipped.moves movesLeading) (inner tokens' movesTokens) (skippedAfter.moves movesTrailing)
    (movesClosing.kind.trans closes)
  rw [movesOpening.span, movesClosing.span, ← Span.union_mapOffsets monotone,
    ← Expr.withSpan_mapOffsets] at derives
  exact derives

/-! ### Calls -/

theorem movable_call (monotone : Monotone change) {arguments : List CallArgument}
    {name opening closing : Token} {leading tokens : List Token} (isName : name.kind = .identifier)
    (opens : opening.kind = .symbol .leftParen) (skipped : Newlines leading)
    (inner : Movable change (.arguments arguments) tokens)
    (closes : closing.kind = .symbol .rightParen) :
    Movable change
      (.primary children (.call name.ident arguments none (name.span.union closing.span)))
      (name :: opening :: leading ++ tokens ++ [closing]) := by
  intro moved moves
  simp only [List.cons_append, List.forall₂_cons_left_iff, forall₂_append_left_iff,
    List.forall₂_nil_left_iff] at moves
  obtain ⟨name', _, movesName, ⟨opening', _, movesOpening, ⟨_, _, ⟨leading', tokens', movesLeading,
    movesTokens, rfl⟩, ⟨closing', _, movesClosing, rfl, rfl⟩, rfl⟩, rfl⟩, rfl⟩ := moves
  have derives := @Derives.call children _ _ _ _ _ _ (movesName.kind.trans isName)
    (movesOpening.kind.trans opens) (skipped.moves movesLeading) (inner tokens' movesTokens)
    (movesClosing.kind.trans closes)
  rw [movesName.ident, movesName.span, movesClosing.span, ← Span.union_mapOffsets monotone]
    at derives
  exact derives

theorem movable_callWithChildren (monotone : Monotone change) {arguments : List CallArgument}
    {trees : List Expr} {name opening closing openingBrace closingBrace : Token}
    {leading tokens leadingLines lines : List Token} (isName : name.kind = .identifier)
    (opens : opening.kind = .symbol .leftParen) (skipped : Newlines leading)
    (inner : Movable change (.arguments arguments) tokens)
    (closes : closing.kind = .symbol .rightParen)
    (opensBrace : openingBrace.kind = .symbol .leftBrace) (skippedLines : Newlines leadingLines)
    (innerLines : Movable change (.lines trees) lines)
    (closesBrace : closingBrace.kind = .symbol .rightBrace) :
    Movable change (.primary true (.call name.ident arguments (some trees)
        ((name.span.union closing.span).union closingBrace.span)))
      ((name :: opening :: leading ++ tokens ++ [closing]) ++
        (openingBrace :: leadingLines ++ lines ++ [closingBrace])) := by
  intro moved moves
  simp only [List.cons_append, List.forall₂_cons_left_iff, forall₂_append_left_iff,
    List.forall₂_nil_left_iff] at moves
  obtain ⟨name', _, movesName, ⟨opening', _, movesOpening, ⟨_, _, ⟨_, _, ⟨leading', tokens',
    movesLeading, movesTokens, rfl⟩, ⟨closing', _, movesClosing, rfl, rfl⟩, rfl⟩,
    ⟨openingBrace', _, movesOpeningBrace, ⟨_, _, ⟨leadingLines', lines', movesLeadingLines,
    movesLines, rfl⟩, ⟨closingBrace', _, movesClosingBrace, rfl, rfl⟩, rfl⟩, rfl⟩, rfl⟩,
    rfl⟩, rfl⟩ := moves
  have derives := Derives.callWithChildren (movesName.kind.trans isName)
    (movesOpening.kind.trans opens) (skipped.moves movesLeading) (inner tokens' movesTokens)
    (movesClosing.kind.trans closes) (movesOpeningBrace.kind.trans opensBrace)
    (skippedLines.moves movesLeadingLines) (innerLines lines' movesLines)
    (movesClosingBrace.kind.trans closesBrace)
  rw [movesName.ident, movesName.span, movesClosing.span, movesClosingBrace.span,
    ← Span.union_mapOffsets monotone, ← Span.union_mapOffsets monotone] at derives
  exact derives

theorem movable_lastArgument {value : Expr} {label colon : Token} {tokens trailing : List Token}
    (isLabel : label.kind = .identifier) (isColon : colon.kind = .symbol .colon)
    (inner : Movable change (.expression true value) tokens) (skipped : Newlines trailing) :
    Movable change (.arguments [⟨label.ident, value⟩]) (label :: colon :: tokens ++ trailing) := by
  intro moved moves
  simp only [List.cons_append, List.forall₂_cons_left_iff, forall₂_append_left_iff] at moves
  obtain ⟨label', _, movesLabel, ⟨colon', _, movesColon, ⟨tokens', trailing', movesTokens,
    movesTrailing, rfl⟩, rfl⟩, rfl⟩ := moves
  have derives := Derives.lastArgument (movesLabel.kind.trans isLabel)
    (movesColon.kind.trans isColon) (inner tokens' movesTokens) (skipped.moves movesTrailing)
  rw [movesLabel.ident] at derives
  exact derives

theorem movable_nextArgument {value : Expr} {others : List CallArgument} {label colon comma : Token}
    {tokens trailing leading more : List Token} (isLabel : label.kind = .identifier)
    (isColon : colon.kind = .symbol .colon) (inner : Movable change (.expression true value) tokens)
    (skipped : Newlines trailing) (isComma : comma.kind = .symbol .comma)
    (skippedAfter : Newlines leading) (rest : Movable change (.arguments others) more) :
    Movable change (.arguments (⟨label.ident, value⟩ :: others))
      (label :: colon :: tokens ++ trailing ++ comma :: leading ++ more) := by
  intro moved moves
  simp only [List.cons_append, List.forall₂_cons_left_iff, forall₂_append_left_iff] at moves
  obtain ⟨label', _, movesLabel, ⟨colon', _, movesColon, ⟨_, more', ⟨_, _, ⟨tokens', trailing',
    movesTokens, movesTrailing, rfl⟩, ⟨comma', leading', movesComma, movesLeading, rfl⟩, rfl⟩,
    movesMore, rfl⟩, rfl⟩, rfl⟩ := moves
  have derives := Derives.nextArgument (movesLabel.kind.trans isLabel)
    (movesColon.kind.trans isColon) (inner tokens' movesTokens) (skipped.moves movesTrailing)
    (movesComma.kind.trans isComma) (skippedAfter.moves movesLeading) (rest more' movesMore)
  rw [movesLabel.ident] at derives
  exact derives

/-! ### Blocks -/

theorem movable_nextLine {tree : Expr} {others : List Expr} {tokens newlines more : List Token}
    (inner : Movable change (.expression true tree) tokens) (skipped : Newlines newlines)
    (ended : newlines ≠ []) (rest : Movable change (.lines others) more) :
    Movable change (.lines (tree :: others)) (tokens ++ newlines ++ more) := by
  intro moved moves
  simp only [forall₂_append_left_iff] at moves
  obtain ⟨_, more', ⟨tokens', newlines', movesTokens, movesNewlines, rfl⟩, movesMore, rfl⟩ := moves
  refine .nextLine (inner tokens' movesTokens) (skipped.moves movesNewlines) ?_
    (rest more' movesMore)
  rintro rfl
  exact ended (List.forall₂_nil_right_iff.mp movesNewlines)

theorem movable_block {statements : List Expr} {opening closing : Token}
    {leading lines : List Token} (opens : opening.kind = .symbol .leftBrace)
    (skipped : Newlines leading) (inner : Movable change (.lines statements) lines)
    (closes : closing.kind = .symbol .rightBrace) :
    Movable change (.block ⟨statements, none⟩) (opening :: leading ++ lines ++ [closing]) := by
  intro moved moves
  simp only [List.cons_append, List.forall₂_cons_left_iff, forall₂_append_left_iff,
    List.forall₂_nil_left_iff] at moves
  obtain ⟨opening', _, movesOpening, ⟨_, _, ⟨leading', lines', movesLeading, movesLines, rfl⟩,
    ⟨closing', _, movesClosing, rfl, rfl⟩, rfl⟩, rfl⟩ := moves
  exact .block (movesOpening.kind.trans opens) (skipped.moves movesLeading)
    (inner lines' movesLines) (movesClosing.kind.trans closes)

theorem movable_blockWithResult {statements : List Expr} {result : Expr}
    {opening word closing : Token} {leading lines tokens trailing : List Token}
    (opens : opening.kind = .symbol .leftBrace) (skipped : Newlines leading)
    (inner : Movable change (.lines statements) lines) (isReturn : word.kind = .keyword .kwReturn)
    (returned : Movable change (.expression true result) tokens) (skippedAfter : Newlines trailing)
    (closes : closing.kind = .symbol .rightBrace) :
    Movable change (.block ⟨statements, some result⟩)
      (opening :: leading ++ lines ++ word :: tokens ++ trailing ++ [closing]) := by
  intro moved moves
  simp only [List.cons_append, List.forall₂_cons_left_iff, forall₂_append_left_iff,
    List.forall₂_nil_left_iff] at moves
  obtain ⟨opening', _, movesOpening, ⟨_, _, ⟨_, trailing', ⟨_, _, ⟨leading', lines', movesLeading,
    movesLines, rfl⟩, ⟨word', tokens', movesWord, movesTokens, rfl⟩, rfl⟩, movesTrailing, rfl⟩,
    ⟨closing', _, movesClosing, rfl, rfl⟩, rfl⟩, rfl⟩ := moves
  exact .blockWithResult (movesOpening.kind.trans opens) (skipped.moves movesLeading)
    (inner lines' movesLines) (movesWord.kind.trans isReturn) (returned tokens' movesTokens)
    (skippedAfter.moves movesTrailing) (movesClosing.kind.trans closes)

theorem movable_conditional (monotone : Monotone change) {condition : Expr} {thenBlock : Block}
    {start closing : Token} {tokens body : List Token} (isIf : start.kind = .keyword .kwIf)
    (test : Movable change (.expression false condition) tokens)
    (yes : Movable change (.block thenBlock) (body ++ [closing])) :
    Movable change
      (.primary children (.conditional condition thenBlock none (start.span.union closing.span)))
      (start :: tokens ++ (body ++ [closing])) := by
  intro moved moves
  rw [List.cons_append, List.forall₂_cons_left_iff] at moves
  obtain ⟨start', _, movesStart, movesRest, rfl⟩ := moves
  obtain ⟨tokens', _, movesTokens, movesBlock, rfl⟩ := forall₂_append_left_iff.mp movesRest
  -- The block keeps its closing brace apart, since the span of the expression ends there.
  have isBlock := yes _ movesBlock
  obtain ⟨body', _, -, movesLast, rfl⟩ := forall₂_append_left_iff.mp movesBlock
  obtain ⟨closing', movesClosing, rfl⟩ := forall₂_singleton_left_iff.mp movesLast
  have derives := @Derives.conditional children _ _ _ _ _ _ (movesStart.kind.trans isIf)
    (test tokens' movesTokens) isBlock
  rw [movesStart.span, movesClosing.span, ← Span.union_mapOffsets monotone] at derives
  exact derives

theorem movable_conditionalElse (monotone : Monotone change) {condition : Expr}
    {thenBlock elseBlock : Block} {start middle closing : Token} {tokens first second : List Token}
    (isIf : start.kind = .keyword .kwIf)
    (test : Movable change (.expression false condition) tokens)
    (yes : Movable change (.block thenBlock) first) (isElse : middle.kind = .keyword .kwElse)
    (no : Movable change (.block elseBlock) (second ++ [closing])) :
    Movable change
      (.primary children
        (.conditional condition thenBlock (some elseBlock) (start.span.union closing.span)))
      (start :: tokens ++ first ++ middle :: (second ++ [closing])) := by
  intro moved moves
  rw [List.cons_append, List.cons_append, List.append_assoc, List.forall₂_cons_left_iff] at moves
  obtain ⟨start', _, movesStart, movesRest, rfl⟩ := moves
  obtain ⟨tokens', _, movesTokens, movesBlocks, rfl⟩ := forall₂_append_left_iff.mp movesRest
  obtain ⟨first', _, movesFirst, movesElse, rfl⟩ := forall₂_append_left_iff.mp movesBlocks
  obtain ⟨middle', _, movesMiddle, movesBlock, rfl⟩ := List.forall₂_cons_left_iff.mp movesElse
  have isBlock := no _ movesBlock
  obtain ⟨second', _, -, movesLast, rfl⟩ := forall₂_append_left_iff.mp movesBlock
  obtain ⟨closing', movesClosing, rfl⟩ := forall₂_singleton_left_iff.mp movesLast
  have derives := @Derives.conditionalElse children _ _ _ _ _ _ _ _ _
    (movesStart.kind.trans isIf) (test tokens' movesTokens) (yes first' movesFirst)
    (movesMiddle.kind.trans isElse) isBlock
  rw [movesStart.span, movesClosing.span, ← Span.union_mapOffsets monotone,
    List.cons_append, List.cons_append, List.append_assoc] at derives
  exact derives

end Movable

theorem Derives.movable (monotone : Monotone change) {phrase : Phrase} {tokens : List Token}
    (derives : Derives phrase tokens) : Movable change phrase tokens := by
  induction derives with
  | expression _ _ grouped first rest => exact movable_expression monotone first rest grouped
  | noOperation =>
      intro moved moves
      rw [List.forall₂_nil_left_iff.mp moves]
      exact .noOperation
  | operation isSign skipped _ _ right rest => exact movable_operation isSign skipped right rest
  | plain _ operand => exact fun moved moves => .plain (operand moved moves)
  | not isSign _ operand => exact movable_not monotone isSign operand
  | negative isSign isInteger fits denotes =>
      exact movable_negative monotone isSign isInteger fits denotes
  | negate isSign noInteger _ operand => exact movable_negate monotone isSign noInteger operand
  | identifier isName => exact movable_identifier isName
  | integer isInteger fits denotes => exact movable_integer isInteger fits denotes
  | float isFloat => exact movable_float isFloat
  | boolean isBoolean => exact movable_boolean isBoolean
  | parentheses opens skipped _ skippedAfter closes inner =>
      exact movable_parentheses monotone opens skipped inner skippedAfter closes
  | call isName opens skipped _ closes inner =>
      exact movable_call monotone isName opens skipped inner closes
  | callWithChildren isName opens skipped _ closes opensBrace skippedLines _ closesBrace inner
      innerLines =>
      exact movable_callWithChildren monotone isName opens skipped inner closes opensBrace
        skippedLines innerLines closesBrace
  | conditional isIf _ _ test yes => exact movable_conditional monotone isIf test yes
  | conditionalElse isIf _ _ isElse _ test yes no =>
      exact movable_conditionalElse monotone isIf test yes isElse no
  | noArgument =>
      intro moved moves
      rw [List.forall₂_nil_left_iff.mp moves]
      exact .noArgument
  | lastArgument isLabel isColon _ skipped inner =>
      exact movable_lastArgument isLabel isColon inner skipped
  | nextArgument isLabel isColon _ skipped isComma skippedAfter _ inner rest =>
      exact movable_nextArgument isLabel isColon inner skipped isComma skippedAfter rest
  | noLine =>
      intro moved moves
      rw [List.forall₂_nil_left_iff.mp moves]
      exact .noLine
  | lastLine _ inner => exact fun moved moves => .lastLine (inner moved moves)
  | nextLine _ skipped ended _ inner rest => exact movable_nextLine inner skipped ended rest
  | block opens skipped _ closes inner => exact movable_block opens skipped inner closes
  | blockWithResult opens skipped _ isReturn _ skippedAfter closes inner returned =>
      exact movable_blockWithResult opens skipped inner isReturn returned skippedAfter closes

end Grammar

/-! ## Reading all tokens -/

namespace Reader

variable {reader : Reader} {position : Position}

theorem Passes.ending_eq {tokens : List Token} {reader after : Reader}
    (passes : Passes reader tokens after) : after.ending = reader.ending := by
  induction passes with
  | none => rfl
  | next present passed _ inductionHypothesis =>
      obtain ⟨_, -, -, rfl⟩ := advance_eq_ok present passed
      exact inductionHypothesis

theorem endsExpression_of_no_tokens (noTokens : reader.tokens = []) : reader.EndsExpression := by
  have notAt : ∀ kind, reader.isAt kind = false := by
    intro kind
    simp [isAt, current?, noTokens]
  refine ⟨⟨notAt _, ?_, notAt _⟩, ?_⟩
  · rw [notAt, Bool.and_false]
  · simp [nextOp?, binaryOp?, current?, noTokens]

/-- A reader whose tokens are those of an expression reads it and passes all of them. -/
theorem readExpression_of_derives {tree : Expr}
    (derives : Derives (.expression reader.childrenAllowed tree) reader.tokens)
    (finished : reader.ending = .finished position) :
    ∃ after, reader.readExpression = (.ok tree, after) ∧ after.atEnd = true ∧
      after.ending = .finished position := by
  obtain ⟨after, passes, noTokens⟩ := exists_passes (List.append_nil _).symm finished
  refine ⟨after, ?_, ?_, ?_⟩
  · rw [readExpression_eq_ok_iff]
    exact Read.complete derives reader after rfl passes (endsExpression_of_no_tokens noTokens)
  · rw [atEnd, noTokens]
    rfl
  · rw [passes.ending_eq, finished]

end Reader

/-- Tokens have at most one tree. -/
theorem Grammar.Derives.expression_unique {children : Bool} {tree other : Expr}
    {tokens : List Token} (derives : Derives (.expression children tree) tokens)
    (derivesOther : Derives (.expression children other) tokens) : tree = other := by
  -- A reader of just these tokens gives each tree of theirs.
  let reader : Reader := ⟨tokens, .finished .initial, .empty 0, children⟩
  obtain ⟨after, reads, -, -⟩ := reader.readExpression_of_derives derives rfl
  obtain ⟨afterOther, readsOther, -, -⟩ := reader.readExpression_of_derives derivesOther rfl
  rw [reads] at readsOther
  cases readsOther
  rfl

end ScalarLang
