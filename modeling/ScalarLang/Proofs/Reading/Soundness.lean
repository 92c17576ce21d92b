import ScalarLang.Proofs.Reading.Climbing
import ScalarLang.Proofs.Reading.Steps

/-!
# What is read is in the grammar

Whenever a reading function succeeds, the tokens it passed are the phrase of the
grammar with the tree it gives.
-/

set_option autoImplicit false

namespace ScalarLang

open Grammar

/-! ## Signs and constants -/

def UnaryOp.sign : UnaryOp → Operator
  | .not => .bang
  | .negate => .sub

theorem Operator.unary?_eq_some_iff {sign : Operator} {op : UnaryOp} :
    sign.unary? = some op ↔ sign = op.sign := by
  cases sign <;> cases op <;> simp [Operator.unary?, UnaryOp.sign]

theorem Operator.binary?_eq_some_iff {sign : Operator} {op : BinaryOp} :
    sign.binary? = some op ↔ sign = op.sign := by
  cases sign <;> cases op <;> simp [Operator.binary?, BinaryOp.sign]

namespace Literal

variable {text : String} {value : Int64}

theorem positiveInteger?_eq_some_iff : positiveInteger? text = some value ↔
    Text.digitsValue text.toList ≤ 0x7FFFFFFFFFFFFFFF ∧ value.toInt = Text.digitsValue text.toList := by
  unfold positiveInteger?
  dsimp only
  split
  · rename_i fits
    have denotes := Int64.toInt_ofNat_of_lt fits
    rw [Option.some_inj, ← Int64.toInt_inj, denotes]
    omega
  · simp only [reduceCtorEq, false_iff]
    omega

theorem negativeInteger?_eq_some_iff : negativeInteger? text = some value ↔
    Text.digitsValue text.toList ≤ 0x8000000000000000 ∧ value.toInt = -Text.digitsValue text.toList := by
  unfold negativeInteger?
  dsimp only
  split
  · rename_i fits
    have denotes : (Int64.ofInt (-(Text.digitsValue text.toList : Int))).toInt =
        -Text.digitsValue text.toList := Int64.toInt_ofInt_of_le (by omega) (by omega)
    rw [Option.some_inj, ← Int64.toInt_inj, denotes]
    omega
  · simp only [reduceCtorEq, false_iff]
    omega

end Literal

namespace Reader

variable {reader middle after : Reader} {op : BinaryOp}

theorem nextOp?_eq_some_iff : reader.nextOp? = some op ↔
    ∃ token, reader.current? = some token ∧ token.kind = .operator op.sign := by
  unfold nextOp? binaryOp?
  split
  · rename_i sign text position present
    simp [present, Option.filter_eq_some_iff, BinaryOp.precedence_pos,
      Operator.binary?_eq_some_iff]
  · rename_i other
    simp only [reduceCtorEq, false_iff, not_exists, not_and]
    rintro ⟨kind, text, position⟩ present rfl
    exact other _ _ _ present

theorem unaryOp?_eq_some_iff {op : UnaryOp} {span : Span} :
    reader.unaryOp? = some (op, span) ↔
      ∃ sign, reader.current? = some sign ∧ sign.kind = .operator op.sign ∧ sign.span = span := by
  unfold unaryOp?
  cases reader.current? with
  | none => simp
  | some token =>
      cases isKind : token.kind <;> simp [isKind, Operator.unary?_eq_some_iff]

theorem negated?_eq_some_iff {op : UnaryOp} {digits : Token} :
    reader.negated? op = some digits ↔
      op = .negate ∧ reader.current? = some digits ∧ digits.kind = .integer := by
  cases op <;> simp [negated?, Option.filter_eq_some_iff]

theorem passesOperator_iff : PassesOperator reader op after ↔
    ∃ sign newlines, sign.kind = .operator op.sign ∧ Newlines newlines ∧
      Passes reader (sign :: newlines) after ∧ after.isAt .newline = false := by
  unfold PassesOperator
  rw [nextOp?_eq_some_iff]
  constructor
  · rintro ⟨⟨sign, present, isSign⟩, middle, passed, skipped⟩
    obtain ⟨newlines, areNewlines, passes, stopped⟩ := Read.skipNewlines_eq_ok_iff.mp skipped
    exact ⟨sign, newlines, isSign, areNewlines, .next present passed passes, stopped⟩
  · rintro ⟨sign, newlines, isSign, areNewlines, passes, stopped⟩
    cases passes with
    | @next _ middle _ _ _ present passed passesRest =>
        refine ⟨⟨sign, present, isSign⟩, middle, passed, ?_⟩
        exact Read.skipNewlines_eq_ok_iff.mpr ⟨newlines, areNewlines, passesRest, stopped⟩

end Reader

namespace Read

open Reader

def Reads (phrase : Phrase) (reader after : Reader) : Prop :=
  ∃ tokens, Passes reader tokens after ∧ Derives phrase tokens

def ReadsOperand (reader : Reader) (tree : Expr) (after : Reader) : Prop :=
  Reads (.unary reader.childrenAllowed tree) reader after

/-! ## Lines -/

theorem ne_nil_of_skipped {reader after : Reader} {newlines : List Token}
    (passes : Passes reader newlines after) (atNewline : reader.isAt .newline = true)
    (stopped : after.isAt .newline = false) : newlines ≠ [] := by
  rintro rfl
  rw [passes_nil_iff.mp passes, stopped] at atNewline
  cases atNewline

def line (fuel : Nat) (rest : Read (List Expr)) : Read (List Expr) := do
  let tree ← expression fuel 0
  if (← get).isAt .newline then
    skipNewlines
    let others ← rest
    return tree :: others
  else
    return [tree]

theorem childList_succ (fuel : Nat) (reader : Reader) : childList (fuel + 1) reader =
    if reader.hasChild then line fuel (childList fuel) reader else .ok [] reader := by
  rw [childList, get_bind]
  split <;> rfl

theorem statementList_succ (fuel : Nat) (reader : Reader) : statementList (fuel + 1) reader =
    if reader.hasStatement then line fuel (statementList fuel) reader else .ok [] reader := by
  rw [statementList, get_bind]
  split <;> rfl

/-! ## Expressions and blocks -/

structure Sound (fuel : Nat) : Prop where
  expression : ∀ {reader tree after}, expression fuel 0 reader = .ok tree after →
    Reads (.expression reader.childrenAllowed tree) reader after
  unary : ∀ {reader tree after}, unary fuel reader = .ok tree after →
    Reads (.unary reader.childrenAllowed tree) reader after
  primary : ∀ {reader tree after}, primary fuel reader = .ok tree after →
    Reads (.primary reader.childrenAllowed tree) reader after
  call : ∀ {name : Token} {reader tree after}, name.kind = .identifier →
    call fuel name.ident reader = .ok tree after →
    ∃ tokens, Passes reader tokens after ∧
      Derives (.primary reader.childrenAllowed tree) (name :: tokens)
  callArguments : ∀ {reader arguments after}, callArguments fuel reader = .ok arguments after →
    Reads (.arguments arguments) reader after
  childList : ∀ {reader trees after}, reader.childrenAllowed = true →
    childList fuel reader = .ok trees after → Reads (.lines trees) reader after
  conditional : ∀ {reader tree after}, conditional fuel reader = .ok tree after →
    Reads (.primary reader.childrenAllowed tree) reader after
  block : ∀ {reader block after}, Read.block fuel reader = .ok block after →
    Reads (.block block) reader after
  statementList : ∀ {reader trees after}, reader.childrenAllowed = true →
    statementList fuel reader = .ok trees after → Reads (.lines trees) reader after

section Step

variable {fuel : Nat} {reader after : Reader} {tree : Expr}

theorem reads_operations {others : List (BinaryOp × Expr)}
    (reads : ReadsOperations ReadsOperand reader others after) :
    Reads (.operations reader.childrenAllowed others) reader after := by
  induction reads with
  | none => exact ⟨[], .none, .noOperation⟩
  | @next reader middle later after op right others isOperator isOperand rest inductionHypothesis =>
      obtain ⟨sign, newlines, isSign, areNewlines, passesSign, -⟩ :=
        passesOperator_iff.mp isOperator
      obtain ⟨operand, passesOperand, ofOperand⟩ := isOperand
      obtain ⟨more, passesMore, ofMore⟩ := inductionHypothesis
      rw [passesOperand.childrenAllowed_eq] at ofMore
      rw [passesSign.childrenAllowed_eq] at ofOperand ofMore
      exact ⟨_, (passesSign.append passesOperand).append passesMore,
        .operation isSign areNewlines ofOperand ofMore⟩

theorem expression_sound {bound : Nat}
    (ofUnary : ∀ smaller < fuel, ∀ {reader tree after}, unary smaller reader = .ok tree after →
      ReadsOperand reader tree after)
    (succeeds : expression fuel bound reader = .ok tree after) :
    Reads (.expression reader.childrenAllowed tree) reader after := by
  obtain ⟨grouping, ⟨middle, readsFirst, readsOthers⟩, -, grouped, -, rfl⟩ :=
    (groups fuel ofUnary).expression succeeds
  obtain ⟨operand, passesOperand, ofOperand⟩ := readsFirst
  obtain ⟨others, passesOthers, ofOthers⟩ := reads_operations readsOthers
  rw [passesOperand.childrenAllowed_eq] at ofOthers
  exact ⟨operand ++ others, passesOperand.append passesOthers,
    .expression ofOperand ofOthers grouped⟩

/-- Reading with children allowed or not passes the same tokens. -/
theorem withChildren_expression_sound (sound : Sound fuel) {allowed : Bool}
    (succeeds : withChildren allowed (expression fuel 0) reader = .ok tree after) :
    Reads (.expression allowed tree) reader after := by
  obtain ⟨inner, readsInner, rfl⟩ := withChildren_eq_ok_iff.mp succeeds
  obtain ⟨tokens, passes, derives⟩ := sound.expression readsInner
  exact ⟨tokens, passes.allow reader.childrenAllowed, derives⟩

theorem unary_sound (sound : Sound fuel) (succeeds : unary (fuel + 1) reader = .ok tree after) :
    Reads (.unary reader.childrenAllowed tree) reader after := by
  rw [unary, get_bind] at succeeds
  cases found : reader.unaryOp? with
  | none =>
      rw [found] at succeeds
      obtain ⟨tokens, passes, derives⟩ := sound.primary succeeds
      exact ⟨tokens, passes, .plain derives⟩
  | some both =>
      obtain ⟨op, span⟩ := both
      obtain ⟨sign, present, isSign, rfl⟩ := unaryOp?_eq_some_iff.mp found
      rw [found, bind_eq_ok_iff] at succeeds
      obtain ⟨_, middle, passed, succeeds⟩ := succeeds
      have passesSign : Passes reader [sign] middle := passes_singleton_iff.mpr ⟨present, passed⟩
      rw [get_bind] at succeeds
      cases negated : middle.negated? op with
      | some digits =>
          obtain ⟨rfl, presentDigits, isInteger⟩ := negated?_eq_some_iff.mp negated
          simp only [negated, bind_eq_ok_iff, integerValue_eq_ok_iff, pure_eq_ok_iff] at succeeds
          obtain ⟨value, _, ⟨denotes, rfl⟩, _, _, passedDigits, rfl, rfl⟩ := succeeds
          obtain ⟨fits, denotes⟩ := Literal.negativeInteger?_eq_some_iff.mp denotes
          refine ⟨[sign, digits], passesSign.cons ?_, .negative isSign isInteger fits denotes⟩
          exact passes_singleton_iff.mpr ⟨presentDigits, passedDigits⟩
      | none =>
          simp only [negated, bind_eq_ok_iff, pure_eq_ok_iff] at succeeds
          obtain ⟨operand, _, readsOperand, rfl, rfl⟩ := succeeds
          obtain ⟨tokens, passes, derives⟩ := sound.primary readsOperand
          rw [passesSign.childrenAllowed_eq] at derives
          refine ⟨sign :: tokens, passesSign.cons passes, ?_⟩
          cases op with
          | not => exact .not isSign derives
          | negate =>
              obtain ⟨first, rest, rfl, -⟩ := derives.primary_starts
              refine .negate isSign ?_ derives
              intro isInteger
              have isNegated := negated?_eq_some_iff.mpr ⟨rfl, passes.current?_eq, isInteger⟩
              rw [negated] at isNegated
              cases isNegated

theorem primary_sound (sound : Sound fuel)
    (succeeds : primary (fuel + 1) reader = .ok tree after) :
    Reads (.primary reader.childrenAllowed tree) reader after := by
  rw [primary, get_bind] at succeeds
  cases present : reader.current? with
  | none =>
      rw [present] at succeeds
      cases succeeds
  | some token =>
      rw [present] at succeeds
      dsimp only at succeeds
      generalize isKind : token.kind = kind at succeeds
      split at succeeds
      · rw [bind_eq_ok_iff] at succeeds
        obtain ⟨_, middle, passed, succeeds⟩ := succeeds
        have passesName : Passes reader [token] middle := passes_singleton_iff.mpr ⟨present, passed⟩
        rw [get_bind] at succeeds
        split at succeeds
        · obtain ⟨tokens, passes, derives⟩ := sound.call isKind succeeds
          rw [passesName.childrenAllowed_eq] at derives
          exact ⟨token :: tokens, passesName.cons passes, derives⟩
        · obtain ⟨rfl, rfl⟩ := pure_eq_ok_iff.mp succeeds
          exact ⟨[token], passesName, .identifier isKind⟩
      · simp only [bind_eq_ok_iff, integerValue_eq_ok_iff, pure_eq_ok_iff] at succeeds
        obtain ⟨value, _, ⟨denotes, rfl⟩, _, _, passed, rfl, rfl⟩ := succeeds
        obtain ⟨fits, denotes⟩ := Literal.positiveInteger?_eq_some_iff.mp denotes
        exact ⟨[token], passes_singleton_iff.mpr ⟨present, passed⟩, .integer isKind fits denotes⟩
      · simp only [bind_eq_ok_iff, pure_eq_ok_iff] at succeeds
        obtain ⟨_, _, passed, rfl, rfl⟩ := succeeds
        exact ⟨[token], passes_singleton_iff.mpr ⟨present, passed⟩, .float isKind⟩
      · simp only [bind_eq_ok_iff, pure_eq_ok_iff] at succeeds
        obtain ⟨_, _, passed, rfl, rfl⟩ := succeeds
        exact ⟨[token], passes_singleton_iff.mpr ⟨present, passed⟩, .boolean isKind⟩
      · simp only [bind_eq_ok_iff, skipNewlines_eq_ok_iff, expect_eq_ok_iff, pure_eq_ok_iff]
          at succeeds
        obtain ⟨_, second, passed, _, third, ⟨leading, skipped, passesLeading, -⟩, inner, fourth,
          readsInner, _, fifth, ⟨trailing, skippedAfter, passesTrailing, -⟩, closing, _,
          ⟨closes, passesClosing⟩, rfl, rfl⟩ := succeeds
        obtain ⟨tokens, passes, derives⟩ := withChildren_expression_sound sound readsInner
        have passesOpening : Passes reader [token] second :=
          passes_singleton_iff.mpr ⟨present, passed⟩
        exact ⟨_, (((passesOpening.cons passesLeading).append passes).append passesTrailing).append
          passesClosing, .parentheses isKind skipped derives skippedAfter closes⟩
      · exact sound.conditional succeeds
      · cases succeeds

theorem call_sound (sound : Sound fuel) {name : Token} (isName : name.kind = .identifier)
    (succeeds : call (fuel + 1) name.ident reader = .ok tree after) :
    ∃ tokens, Passes reader tokens after ∧
      Derives (.primary reader.childrenAllowed tree) (name :: tokens) := by
  simp only [call, bind_eq_ok_iff, skipNewlines_eq_ok_iff, expect_eq_ok_iff, get_eq_ok_iff]
    at succeeds
  obtain ⟨opening, second, ⟨opens, passesOpening⟩, _, third, ⟨leading, skipped, passesLeading, -⟩,
    arguments, fourth, readsArguments, closing, fifth, ⟨closes, passesClosing⟩, _, _,
    ⟨rfl, rfl⟩, succeeds⟩ := succeeds
  obtain ⟨tokens, passes, derives⟩ := sound.callArguments readsArguments
  have passesCall :=
    ((passesOpening.cons passesLeading).append passes).append passesClosing
  split at succeeds
  · rename_i allowed
    have allowedHere : fifth.childrenAllowed = true := (Bool.and_eq_true_iff.mp allowed).1
    simp only [bind_eq_ok_iff, skipNewlines_eq_ok_iff, expect_eq_ok_iff, get_eq_ok_iff,
      pure_eq_ok_iff] at succeeds
    obtain ⟨openingBrace, sixth, ⟨opensBrace, passesBrace⟩, _, seventh,
      ⟨leadingLines, skippedLines, passesLeadingLines, -⟩, trees, eighth, readsChildren,
      closingBrace, ninth, ⟨closesBrace, passesClosingBrace⟩, _, _, ⟨rfl, rfl⟩, rfl, rfl⟩ :=
      succeeds
    have passesStart := passesBrace.cons passesLeadingLines
    have allowedInside := passesStart.childrenAllowed_eq.trans allowedHere
    obtain ⟨lines, passesLines, derivesLines⟩ := sound.childList allowedInside readsChildren
    have passesChildren := (passesStart.append passesLines).append passesClosingBrace
    rw [passesChildren.previous_eq, ← passesCall.childrenAllowed_eq, allowedHere]
    exact ⟨_, passesCall.append passesChildren, .callWithChildren isName opens skipped derives
      closes opensBrace skippedLines derivesLines closesBrace⟩
  · obtain ⟨rfl, rfl⟩ := pure_eq_ok_iff.mp succeeds
    exact ⟨_, passesCall, .call isName opens skipped derives closes⟩

theorem callArguments_sound (sound : Sound fuel) {arguments : List CallArgument}
    (succeeds : callArguments (fuel + 1) reader = .ok arguments after) :
    Reads (.arguments arguments) reader after := by
  rw [callArguments, get_bind] at succeeds
  split at succeeds
  · simp only [bind_eq_ok_iff, identifier_eq_ok_iff, expect_eq_ok_iff, skipNewlines_eq_ok_iff]
      at succeeds
    obtain ⟨_, second, ⟨label, isLabel, rfl, passesLabel⟩, colon, third, ⟨isColon, passesColon⟩,
      value, fourth, readsValue, _, fifth, ⟨trailing, skipped, passesTrailing, -⟩, more, sixth,
      eaten, succeeds⟩ := succeeds
    obtain ⟨tokens, passes, derives⟩ := withChildren_expression_sound sound readsValue
    have passesArgument :=
      ((passesLabel.cons (passesColon.cons passes))).append passesTrailing
    cases more with
    | true =>
        obtain ⟨comma, isComma, passesComma⟩ := eat_eq_true_iff.mp eaten
        simp only [if_true, bind_eq_ok_iff, skipNewlines_eq_ok_iff, pure_eq_ok_iff] at succeeds
        obtain ⟨_, seventh, ⟨leading, skippedAfter, passesLeading, -⟩, others, _, readsOthers, rfl,
          rfl⟩ := succeeds
        obtain ⟨rest, passesRest, derivesRest⟩ := sound.callArguments readsOthers
        exact ⟨_, (passesArgument.append (passesComma.cons passesLeading)).append passesRest,
          .nextArgument isLabel isColon derives skipped isComma skippedAfter derivesRest⟩
    | false =>
        obtain ⟨-, rfl⟩ := eat_eq_false_iff.mp eaten
        obtain ⟨rfl, rfl⟩ := pure_eq_ok_iff.mp succeeds
        exact ⟨_, passesArgument, .lastArgument isLabel isColon derives skipped⟩
  · obtain ⟨rfl, rfl⟩ := pure_eq_ok_iff.mp succeeds
    exact ⟨[], .none, .noArgument⟩

theorem line_sound (sound : Sound fuel) {rest : Read (List Expr)} {trees : List Expr}
    (ofRest : ∀ {reader trees after}, reader.childrenAllowed = true →
      rest reader = .ok trees after → Reads (.lines trees) reader after)
    (allowed : reader.childrenAllowed = true)
    (succeeds : line fuel rest reader = .ok trees after) : Reads (.lines trees) reader after := by
  simp only [line, bind_eq_ok_iff, get_eq_ok_iff] at succeeds
  obtain ⟨tree, middle, readsTree, _, _, ⟨rfl, rfl⟩, succeeds⟩ := succeeds
  obtain ⟨tokens, passes, derives⟩ := sound.expression readsTree
  rw [allowed] at derives
  split at succeeds
  · rename_i atNewline
    simp only [bind_eq_ok_iff, skipNewlines_eq_ok_iff, pure_eq_ok_iff] at succeeds
    obtain ⟨_, later, ⟨newlines, skipped, passesNewlines, stopped⟩, others, _, readsOthers, rfl,
      rfl⟩ := succeeds
    have passesLine := passes.append passesNewlines
    have ended := ne_nil_of_skipped passesNewlines atNewline stopped
    obtain ⟨more, passesMore, derivesMore⟩ :=
      ofRest (passesLine.childrenAllowed_eq.trans allowed) readsOthers
    exact ⟨_, passesLine.append passesMore, .nextLine derives skipped ended derivesMore⟩
  · obtain ⟨rfl, rfl⟩ := pure_eq_ok_iff.mp succeeds
    exact ⟨tokens, passes, .lastLine derives⟩

theorem childList_sound (sound : Sound fuel) {trees : List Expr}
    (allowed : reader.childrenAllowed = true)
    (succeeds : childList (fuel + 1) reader = .ok trees after) :
    Reads (.lines trees) reader after := by
  rw [childList_succ] at succeeds
  split at succeeds
  · exact line_sound sound sound.childList allowed succeeds
  · cases succeeds
    exact ⟨[], .none, .noLine⟩

theorem statementList_sound (sound : Sound fuel) {trees : List Expr}
    (allowed : reader.childrenAllowed = true)
    (succeeds : statementList (fuel + 1) reader = .ok trees after) :
    Reads (.lines trees) reader after := by
  rw [statementList_succ] at succeeds
  split at succeeds
  · exact line_sound sound sound.statementList allowed succeeds
  · cases succeeds
    exact ⟨[], .none, .noLine⟩

theorem conditional_sound (sound : Sound fuel)
    (succeeds : conditional (fuel + 1) reader = .ok tree after) :
    Reads (.primary reader.childrenAllowed tree) reader after := by
  simp only [conditional, bind_eq_ok_iff, expect_eq_ok_iff] at succeeds
  obtain ⟨start, second, ⟨isIf, passesIf⟩, condition, third, readsCondition, thenBlock, fourth,
    readsThen, more, fifth, eaten, succeeds⟩ := succeeds
  obtain ⟨tokens, passes, derives⟩ := withChildren_expression_sound sound readsCondition
  obtain ⟨_, passesThen, derivesThen⟩ := sound.block readsThen
  cases more with
  | true =>
      obtain ⟨middle, isElse, passesElse⟩ := eat_eq_true_iff.mp eaten
      simp only [if_true, bind_eq_ok_iff, get_eq_ok_iff, pure_eq_ok_iff] at succeeds
      obtain ⟨elseBlock, _, readsElse, _, _, ⟨rfl, rfl⟩, rfl, rfl⟩ := succeeds
      obtain ⟨_, passesSecond, derivesElse⟩ := sound.block readsElse
      obtain ⟨second, closing, rfl⟩ := derivesElse.block_closes
      rw [passesSecond.previous_eq]
      exact ⟨_, ((passesIf.cons passes).append passesThen).append (passesElse.cons passesSecond),
        .conditionalElse isIf derives derivesThen isElse derivesElse⟩
  | false =>
      obtain ⟨-, rfl⟩ := eat_eq_false_iff.mp eaten
      simp only [Bool.false_eq_true, if_false, bind_eq_ok_iff, get_eq_ok_iff, pure_eq_ok_iff]
        at succeeds
      obtain ⟨_, _, ⟨rfl, rfl⟩, rfl, rfl⟩ := succeeds
      obtain ⟨body, closing, rfl⟩ := derivesThen.block_closes
      rw [passesThen.previous_eq]
      exact ⟨_, (passesIf.cons passes).append passesThen, .conditional isIf derives derivesThen⟩

theorem block_sound (sound : Sound fuel) {block : Block}
    (succeeds : Read.block (fuel + 1) reader = .ok block after) :
    Reads (.block block) reader after := by
  rw [Read.block, withChildren_eq_ok_iff] at succeeds
  obtain ⟨inner, succeeds, rfl⟩ := succeeds
  suffices reads : Reads (.block block) (reader.allow true) inner by
    obtain ⟨tokens, passes, derives⟩ := reads
    exact ⟨tokens, passes.allow reader.childrenAllowed, derives⟩
  simp only [bind_eq_ok_iff, expect_eq_ok_iff, skipNewlines_eq_ok_iff] at succeeds
  obtain ⟨opening, second, ⟨opens, passesOpening⟩, _, third, ⟨leading, skipped, passesLeading, -⟩,
    statements, fourth, readsStatements, more, fifth, eaten, succeeds⟩ := succeeds
  have passesStart := passesOpening.cons passesLeading
  have allowedInside : third.childrenAllowed = true := passesStart.childrenAllowed_eq
  obtain ⟨lines, passesLines, derivesLines⟩ := sound.statementList allowedInside readsStatements
  have passesBoth := passesStart.append passesLines
  cases more with
  | true =>
      obtain ⟨word, isReturn, passesReturn⟩ := eat_eq_true_iff.mp eaten
      simp only [if_true, bind_eq_ok_iff, expect_eq_ok_iff, skipNewlines_eq_ok_iff,
        pure_eq_ok_iff] at succeeds
      obtain ⟨result, sixth, readsResult, _, seventh, ⟨trailing, skippedAfter, passesTrailing, -⟩,
        closing, _, ⟨closes, passesClosing⟩, rfl, rfl⟩ := succeeds
      obtain ⟨tokens, passes, derives⟩ := sound.expression readsResult
      rw [(passesBoth.append passesReturn).childrenAllowed_eq] at derives
      exact ⟨_, ((passesBoth.append (passesReturn.cons passes)).append passesTrailing).append
        passesClosing,
        .blockWithResult opens skipped derivesLines isReturn derives skippedAfter closes⟩
  | false =>
      obtain ⟨-, rfl⟩ := eat_eq_false_iff.mp eaten
      simp only [Bool.false_eq_true, if_false, bind_eq_ok_iff, expect_eq_ok_iff, pure_eq_ok_iff]
        at succeeds
      obtain ⟨closing, _, ⟨closes, passesClosing⟩, rfl, rfl⟩ := succeeds
      exact ⟨_, passesBoth.append passesClosing, .block opens skipped derivesLines closes⟩

end Step

theorem sound (fuel : Nat) : Sound fuel := by
  -- An expression reads its operands within any smaller bound, not only the next one.
  induction fuel using Nat.strong_induction_on with
  | h fuel inductionHypothesis =>
      have ofExpression : ∀ {reader tree after}, expression fuel 0 reader = .ok tree after →
          Reads (.expression reader.childrenAllowed tree) reader after :=
        expression_sound fun smaller below => (inductionHypothesis smaller below).unary
      cases fuel with
      | zero =>
          refine ⟨ofExpression, ?_, ?_, ?_, ?_, ?_, ?_, ?_, ?_⟩
          all_goals
            intros
            rename_i succeeds
            cases succeeds
      | succ fuel =>
          have sound := inductionHypothesis fuel (Nat.lt_succ_self fuel)
          exact {
            expression := ofExpression
            unary := unary_sound sound
            primary := primary_sound sound
            call := call_sound sound
            callArguments := callArguments_sound sound
            childList := childList_sound sound
            conditional := conditional_sound sound
            block := block_sound sound
            statementList := statementList_sound sound }

end Read

end ScalarLang
