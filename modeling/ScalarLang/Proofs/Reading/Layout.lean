import ScalarLang.Proofs.Outcome
import ScalarLang.Proofs.Reading.Slices
import ScalarLang.Proofs.Reading.Spans

/-!
# How the spans of a program lie

Every span in a program goes from the start of one token to the end of another.  The parts
of a node lie inside the node, one after the other in the order in which they are written,
and so do the names, the types and the expressions of a function.  Two functions do not even
touch, since a newline stands between them.

A row of spans is `Laid` over a row of tokens if each span covers some tokens that come after
those of the span before it.  This is proved along the rules of the grammar, and everything
about offsets follows from it for tokens that do not overlap.
-/

set_option autoImplicit false

namespace ScalarLang

open Grammar

/-! ## Spans of a tree -/

def Span.Inside (inner outer : Span) : Prop :=
  outer.start ≤ inner.start ∧ inner.stop ≤ outer.stop

/-- The spans of what stands in a node, in the order in which it is written: of the parts, and
of the names in a call. -/
def Expr.partSpans : Expr → List Span
  | .conditional condition thenBlock elseBlock _ =>
    condition.span :: (thenBlock.expressions.map Expr.span ++
      elseBlock.toList.flatMap fun block => block.expressions.map Expr.span)
  | .call name arguments children _ =>
    name.span :: (arguments.flatMap (fun argument => [argument.label.span, argument.value.span]) ++
      (children.getD []).map Expr.span)
  | .binary _ lhs rhs _ => [lhs.span, rhs.span]
  | .unary _ operand _ => [operand.span]
  | .identifier _ _ => []
  | .literal _ _ => []

theorem Expr.partSpans_withSpan (expr : Expr) (span : Span) :
    (expr.withSpan span).partSpans = expr.partSpans := by
  cases expr <;> rfl

theorem Expr.eq_or_mem_of_mem_ownSpans (expr : Expr) {span : Span}
    (isOwn : span ∈ expr.ownSpans) : span = expr.span ∨ span ∈ expr.partSpans := by
  cases expr with
  | call name arguments children whole =>
      simp only [Expr.ownSpans, List.mem_cons, List.mem_map] at isOwn
      rcases isOwn with rfl | rfl | ⟨argument, isArgument, rfl⟩
      · exact .inl rfl
      · exact .inr List.mem_cons_self
      · refine .inr (List.mem_cons_of_mem _ (List.mem_append_left _ ?_))
        exact List.mem_flatMap.mpr ⟨argument, isArgument, List.mem_cons_self⟩
  | _ => exact .inl (List.mem_singleton.mp isOwn)

/-- The paths that some names of types make: all of them, all but the first, and so on. -/
def TypePath.ofNames (last : Span) : List Ident → List TypePath
  | [] => []
  | head :: inner => ⟨head, inner, last⟩ :: ofNames last inner

def TypePath.spans (path : TypePath) : List Span :=
  (TypePath.ofNames path.last path.names).map TypePath.span ++ path.names.map Ident.span

namespace FunctionDecl

def types (function : FunctionDecl) : List TypePath :=
  function.parameters.map Parameter.type ++ function.resultType.toList

/-- The spans of what stands in a function, in the order in which it is written: of its name,
of the names and types of its parameters, of its result type, and of the expressions of its
body. -/
def partSpans (function : FunctionDecl) : List Span :=
  function.name.span ::
    (function.parameters.flatMap (fun parameter => [parameter.name.span, parameter.type.span]) ++
      (function.resultType.toList.map TypePath.span ++
        function.body.expressions.map Expr.span))

inductive HasSpan (function : FunctionDecl) : Span → Prop where
  | name : HasSpan function function.name.span
  | parameter {parameter : Parameter} (isParameter : parameter ∈ function.parameters) :
      HasSpan function parameter.name.span
  | type {path : TypePath} {span : Span} (isType : path ∈ function.types)
      (inPath : span ∈ path.spans) : HasSpan function span
  | node {expr node : Expr} {span : Span} (isExpr : expr ∈ function.body.expressions)
      (within : node.Within expr) (own : span ∈ node.ownSpans) : HasSpan function span

end FunctionDecl

/-- A span of a source covers some of it, from the start of a token to the end of one, none
of which is a blank or a comment. -/
structure Source.Delimits (source : Source) (span : Span) : Prop where
  filled : span.start < span.stop
  inside : span.stop ≤ source.byteLength
  starts : ∃ token ∈ (TokenStream.ofText source.characters).tokens,
    token.kind.isTrivia = false ∧ token.span.start = span.start
  stops : ∃ token ∈ (TokenStream.ofText source.characters).tokens,
    token.kind.isTrivia = false ∧ token.span.stop = span.stop

/-- The spans of a program are spans of its source, each node holds all spans inside it, and
what stands side by side is in order. -/
structure Module.LaidOut (source : Source) (program : Module) : Prop where
  delimited : ∀ function ∈ program.functions, ∀ span, function.HasSpan span →
    source.Delimits span
  nested : ∀ node, program.HasNode node → node.AllSpans fun span => span.Inside node.span
  types : ∀ function ∈ program.functions, ∀ path ∈ function.types, ∀ span ∈ path.spans,
    span.Inside path.span
  parts : ∀ node, program.HasNode node → node.partSpans.Pairwise Span.Precedes
  functionParts : ∀ function ∈ program.functions, function.partSpans.Pairwise Span.Precedes
  functions : program.functions.Pairwise fun earlier later => ∀ span other,
    earlier.HasSpan span → later.HasSpan other → span.stop < other.start

/-! ## Spans over tokens -/

namespace Grammar

def Covers (tokens : List Token) (span : Span) : Prop :=
  ∃ part, part <:+: tokens ∧ Spans part span

theorem covers_token {tokens : List Token} {token : Token} (member : token ∈ tokens) :
    Covers tokens token.span := by
  obtain ⟨before, after, rfl⟩ := List.append_of_mem member
  exact ⟨[token], ⟨before, after, by simp⟩, spans_singleton token⟩

theorem Covers.mono {tokens more : List Token} {span : Span} (covers : Covers tokens span)
    (inside : tokens <:+: more) : Covers more span := by
  obtain ⟨part, isPart, spans⟩ := covers
  exact ⟨part, isPart.trans inside, spans⟩

theorem Covers.exists_tokens {tokens : List Token} {span : Span} (covers : Covers tokens span) :
    (∃ token ∈ tokens, token.span.start = span.start) ∧
      ∃ token ∈ tokens, token.span.stop = span.stop := by
  obtain ⟨part, isPart, first, isFirst, last, isLast, rfl⟩ := covers
  exact ⟨⟨first, isPart.subset (List.mem_of_mem_head? isFirst), rfl⟩,
    ⟨last, isPart.subset (List.mem_of_mem_getLast? isLast), rfl⟩⟩

/-- What covers the first of two rows precedes what covers the second. -/
theorem Covers.precedes {left right : List Token} {span other : Span}
    (successive : Successive (left ++ right)) (covers : Covers left span)
    (coversOther : Covers right other) : span.Precedes other := by
  obtain ⟨-, last, inLeft, isStop⟩ := covers.exists_tokens
  obtain ⟨⟨first, inRight, isStart⟩, -⟩ := coversOther.exists_tokens
  rw [Span.Precedes, ← isStop, ← isStart]
  exact (List.pairwise_append.mp successive).2.2 last inLeft first inRight

theorem Covers.filled {tokens : List Token} {span : Span} (inOrder : InOrder tokens)
    (filled : ∀ token ∈ tokens, token.span.start < token.span.stop) (covers : Covers tokens span) :
    span.start < span.stop := by
  obtain ⟨part, isPart, first, isFirst, last, isLast, rfl⟩ := covers
  have isFilled := filled first (isPart.subset (List.mem_of_mem_head? isFirst))
  obtain ⟨rest, rfl⟩ := List.head?_eq_some_iff.mp isFirst
  rcases List.mem_cons.mp (List.mem_of_mem_getLast? isLast) with rfl | inRest
  · exact isFilled
  · have ordered := inOrder.sublist isPart.sublist
    exact Nat.lt_of_lt_of_le isFilled ((List.pairwise_cons.mp ordered).1 last inRest).2

theorem Covers.inside {tokens : List Token} {span whole : Span} (inOrder : InOrder tokens)
    (covers : Covers tokens span) (spans : Spans tokens whole) : span.Inside whole := by
  obtain ⟨⟨first, isFirst, isStart⟩, last, isLast, isStop⟩ := covers.exists_tokens
  obtain ⟨start, isHead, stop, isEnd, rfl⟩ := spans
  rw [Span.Inside, ← isStart, ← isStop]
  constructor
  · obtain ⟨rest, rfl⟩ := List.head?_eq_some_iff.mp isHead
    rcases List.mem_cons.mp isFirst with rfl | inRest
    · exact Nat.le_refl _
    · exact ((List.pairwise_cons.mp inOrder).1 first inRest).1
  · obtain ⟨rest, rfl⟩ := List.getLast?_eq_some_iff.mp isEnd
    rcases List.mem_append.mp isLast with inRest | isEnd
    · exact ((List.pairwise_append.mp inOrder).2.2 last inRest stop (List.mem_singleton_self _)).2
    · rw [List.mem_singleton.mp isEnd]

/-- The span from the first to the last token. -/
theorem spans_of_ends {tokens : List Token} {first last : Token} (inOrder : InOrder tokens)
    (isFirst : tokens.head? = some first) (isLast : tokens.getLast? = some last) :
    Spans tokens (first.span.union last.span) := by
  have coversFirst := covers_token (List.mem_of_mem_head? isFirst)
  have coversLast := covers_token (List.mem_of_mem_getLast? isLast)
  have whole : Spans tokens ⟨first.span.start, last.span.stop⟩ :=
    ⟨first, isFirst, last, isLast, rfl⟩
  have starts := (coversLast.inside inOrder whole).1
  have stops := (coversFirst.inside inOrder whole).2
  rwa [Span.union, Nat.min_eq_left starts, Nat.max_eq_right stops]

/-- Each of some spans covers tokens of a row, and those of a later span come later. -/
inductive Laid : List Span → List Token → Prop where
  | none {tokens : List Token} : Laid [] tokens
  | next {span : Span} {others : List Span} {tokens more : List Token}
      (covers : Covers tokens span) (rest : Laid others more) :
      Laid (span :: others) (tokens ++ more)

namespace Laid

variable {spans others : List Span} {tokens more : List Token}

theorem before (laid : Laid spans tokens) (skipped : List Token) :
    Laid spans (skipped ++ tokens) := by
  cases laid with
  | none => exact .none
  | next covers rest =>
      rw [← List.append_assoc]
      exact .next (covers.mono (List.suffix_append _ _).isInfix) rest

theorem append (laid : Laid spans tokens) (laidOthers : Laid others more) :
    Laid (spans ++ others) (tokens ++ more) := by
  induction laid with
  | none => exact laidOthers.before _
  | next covers _ inductionHypothesis =>
      rw [List.cons_append, List.append_assoc]
      exact .next covers inductionHypothesis

theorem after (laid : Laid spans tokens) (skipped : List Token) :
    Laid spans (tokens ++ skipped) := by
  have both := laid.append (@Laid.none skipped)
  rwa [List.append_nil] at both

theorem one {span : Span} (spanned : Spans tokens span) : Laid [span] tokens := by
  have laid := Laid.next ⟨tokens, List.infix_rfl, spanned⟩ (@Laid.none [])
  rwa [List.append_nil] at laid

theorem covers (laid : Laid spans tokens) : ∀ span ∈ spans, Covers tokens span := by
  induction laid with
  | none => exact List.forall_mem_nil _
  | next covers _ inductionHypothesis =>
      refine List.forall_mem_cons.mpr ⟨covers.mono (List.prefix_append _ _).isInfix, ?_⟩
      intro other member
      exact (inductionHypothesis other member).mono (List.suffix_append _ _).isInfix

theorem pairwise (laid : Laid spans tokens) (successive : Successive tokens) :
    spans.Pairwise Span.Precedes := by
  induction laid with
  | none => exact .nil
  | next covers rest inductionHypothesis =>
      refine .cons ?_ (inductionHypothesis (List.pairwise_append.mp successive).2.1)
      intro other member
      exact covers.precedes successive (rest.covers other member)

end Laid

/-! ## Expressions and blocks -/

theorem InOrder.of_part {part tokens : List Token} (inOrder : InOrder tokens)
    (isPart : part <:+: tokens) : InOrder part :=
  inOrder.sublist isPart.sublist

def Phrase.partSpans : Phrase → List Span
  | .expression _ tree => tree.partSpans
  | .operations _ _ => []
  | .unary _ tree => tree.partSpans
  | .primary _ tree => tree.partSpans
  | .arguments list => list.flatMap fun argument => [argument.label.span, argument.value.span]
  | .lines trees => trees.map Expr.span
  | .block body => body.expressions.map Expr.span

theorem laid_grouping (grouping : Grouping) {operand others : List Token}
    (laid : Laid grouping.first.partSpans operand) (spansFirst : SpansTree grouping.first operand)
    (row : Row SpansTree grouping.others others) (inOrder : InOrder (operand ++ others)) :
    Laid grouping.tree.partSpans (operand ++ others) := by
  cases grouping with
  | operand tree => exact laid.after others
  | operation op left right =>
      obtain ⟨before, sign, newlines, second, more, rfl, rowLeft, -, -, spansSecond, rowRight⟩ :=
        row.split
      have regroup : operand ++ (before ++ (sign :: newlines ++ second ++ more)) =
          operand ++ before ++ (sign :: newlines ++ (second ++ more)) := by simp
      rw [regroup] at inOrder ⊢
      have spansLeft := spansTree_grouping left spansFirst rowLeft inOrder.left
      have spansRight := spansTree_grouping right spansSecond rowRight inOrder.right.right
      exact (Laid.one spansLeft).append ((Laid.one spansRight).before (sign :: newlines))

theorem Derives.spans {children : Bool} {tree : Expr} {part tokens : List Token}
    (derives : Derives (.expression children tree) part) (inOrder : InOrder tokens)
    (isPart : part <:+: tokens) : Spans part tree.span :=
  derives.spanned (inOrder.of_part isPart)

theorem Derives.laid {phrase : Phrase} {tokens : List Token} (derives : Derives phrase tokens)
    (inOrder : InOrder tokens) : Laid phrase.partSpans tokens := by
  induction derives with
  | @expression _ grouping _ _ first rest _ laidFirst _ =>
      exact laid_grouping grouping (laidFirst inOrder.left) first.spanned rest.spanned inOrder
  | noOperation => exact .none
  | operation => exact .none
  | plain _ operand => exact operand inOrder
  | @not _ _ sign tokens _ operand _ =>
      have spans : Spans tokens _ :=
        operand.spanned (inOrder.of_part (List.suffix_cons _ _).isInfix)
      exact (Laid.one spans).before [sign]
  | negative => exact .none
  | @negate _ _ sign first tokens _ _ operand _ =>
      have spans : Spans (first :: tokens) _ :=
        operand.spanned (inOrder.of_part (List.suffix_cons _ _).isInfix)
      exact (Laid.one spans).before [sign]
  | identifier => exact .none
  | integer => exact .none
  | float => exact .none
  | boolean => exact .none
  | @parentheses _ tree opening closing leading tokens trailing _ _ _ _ _ inner =>
      have regroup : opening :: leading ++ tokens ++ trailing ++ [closing] =
          opening :: leading ++ (tokens ++ (trailing ++ [closing])) := by simp
      rw [regroup] at inOrder ⊢
      rw [Phrase.partSpans, Expr.partSpans_withSpan]
      exact ((inner inOrder.right.left).after _).before _
  | @call _ _ name opening closing leading tokens _ _ _ _ _ inner =>
      have regroup : name :: opening :: leading ++ tokens ++ [closing] =
          [name] ++ (opening :: leading ++ (tokens ++ [closing])) := by simp
      rw [regroup] at inOrder ⊢
      have laid := (inner inOrder.right.right.left).after [closing]
      rw [Phrase.partSpans, Expr.partSpans, Option.getD_none, List.map_nil, List.append_nil]
      exact (Laid.one (spans_singleton name)).append (laid.before _)
  | @callWithChildren _ _ name opening closing openingBrace closingBrace leading tokens leadingLines
      lines _ _ _ _ _ _ _ _ _ inner innerLines =>
      have regroup : name :: opening :: leading ++ tokens ++ [closing] ++
          (openingBrace :: leadingLines ++ lines ++ [closingBrace]) =
          [name] ++ (opening :: leading ++ (tokens ++
            (closing :: openingBrace :: leadingLines ++ (lines ++ [closingBrace])))) := by simp
      rw [regroup] at inOrder ⊢
      have inCall := inOrder.right.right
      have laid := inner inCall.left
      have laidLines := (innerLines inCall.right.right.left).after [closingBrace]
      exact (Laid.one (spans_singleton name)).append ((laid.append (laidLines.before _)).before _)
  | @conditional _ _ _ start closing tokens body _ test _ _ yes =>
      have spans := test.spans inOrder ⟨[start], body ++ [closing], rfl⟩
      have laid := yes inOrder.right
      rw [Phrase.partSpans, Expr.partSpans, Option.toList_none, List.flatMap_nil, List.append_nil]
      exact ((Laid.one spans).before [start]).append laid
  | @conditionalElse _ _ _ _ start middle closing tokens first second _ test _ _ _ _ yes no =>
      have spans := test.spans inOrder ⟨[start], first ++ middle :: (second ++ [closing]), by simp⟩
      have laid := yes inOrder.left.right
      have inElse : InOrder (second ++ [closing]) :=
        inOrder.right.of_part (List.suffix_cons _ _).isInfix
      have laidElse := (no inElse).before [middle]
      rw [Phrase.partSpans, Expr.partSpans, Option.toList_some, List.flatMap_singleton,
        ← List.cons_append]
      exact (((Laid.one spans).before [start]).append laid).append laidElse
  | noArgument => exact .none
  | @lastArgument _ label colon tokens trailing _ _ inner _ _ =>
      have spans := inner.spans inOrder ⟨[label, colon], trailing, rfl⟩
      exact (Laid.one (spans_singleton label)).append
        (((Laid.one spans).before [colon]).after trailing)
  | @nextArgument _ _ label colon comma tokens trailing leading more _ _ inner _ _ _ _ _ rest =>
      have spans := inner.spans inOrder
        ⟨[label, colon], trailing ++ comma :: leading ++ more, by simp⟩
      have laid := rest inOrder.right
      have laidFirst := (Laid.one (spans_singleton label)).append ((Laid.one spans).before [colon])
      exact ((laidFirst.after trailing).after (comma :: leading)).append laid
  | noLine => exact .none
  | lastLine inner _ => exact .one (inner.spanned inOrder)
  | @nextLine _ _ tokens newlines more inner _ _ _ _ rest =>
      have spans := inner.spanned inOrder.left.left
      exact ((Laid.one spans).after newlines).append (rest inOrder.right)
  | @block _ opening closing leading lines _ _ _ _ inner =>
      have laid := inner inOrder.left.right
      rw [Phrase.partSpans, Block.expressions, Option.toList_none, List.append_nil]
      exact (laid.before (opening :: leading)).after [closing]
  | @blockWithResult _ _ opening word closing leading lines tokens trailing _ _ _ _ returned _ _
      inner _ =>
      have regroup : opening :: leading ++ lines ++ word :: tokens ++ trailing ++ [closing] =
          opening :: leading ++ (lines ++ (word :: tokens ++ (trailing ++ [closing]))) := by simp
      rw [regroup] at inOrder ⊢
      have laid := inner inOrder.right.left
      have spans := returned.spans inOrder.right.right ⟨[word], trailing ++ [closing], rfl⟩
      have laidResult := ((Laid.one spans).before [word]).after (trailing ++ [closing])
      rw [Phrase.partSpans, Block.expressions, Option.toList_some, List.map_append]
      exact (laid.append laidResult).before (opening :: leading)

/-- Every span that stands in a node covers some of its tokens. -/
theorem Derives.covers_own {children : Bool} {node : Expr} {tokens : List Token}
    (derives : Derives (.expression children node) tokens) (inOrder : InOrder tokens) :
    ∀ span ∈ node.ownSpans, Covers tokens span := by
  intro span isOwn
  rcases node.eq_or_mem_of_mem_ownSpans isOwn with rfl | isPart
  · exact ⟨tokens, List.infix_rfl, derives.spanned inOrder⟩
  · exact (derives.laid inOrder).covers span isPart

/-! ## Types and parameters -/

theorem IsType.ends {path : TypePath} {tokens : List Token} (isType : IsType path tokens) :
    ∃ first last, tokens.head? = some first ∧ tokens.getLast? = some last ∧
      path.head = first.ident ∧ path.last = last.span := by
  obtain ⟨front, last, isRow, isSpan, -⟩ := isType.exists_last
  have isLast : tokens.getLast? = some last := by
    rw [isRow, List.getLast?_concat]
  cases isType with
  | @name name _ => exact ⟨name, last, rfl, isLast, rfl, isSpan⟩
  | @inner _ name _ _ _ _ _ => exact ⟨name, last, rfl, isLast, rfl, isSpan⟩

theorem IsType.spans {path : TypePath} {tokens : List Token} (isType : IsType path tokens)
    (inOrder : InOrder tokens) : Spans tokens path.span := by
  obtain ⟨first, last, isFirst, isLast, isHead, isSpan⟩ := isType.ends
  rw [TypePath.span, isSpan, isHead]
  exact spans_of_ends inOrder isFirst isLast

theorem IsType.covers {path : TypePath} {tokens : List Token} (isType : IsType path tokens)
    (inOrder : InOrder tokens) : ∀ span ∈ path.spans, Covers tokens span := by
  refine List.forall_mem_append.mpr ⟨List.forall_mem_map.mpr ?_, List.forall_mem_map.mpr ?_⟩
  · induction isType with
    | name isName =>
        have spans := (IsType.name isName).spans inOrder
        exact List.forall_mem_singleton.mpr ⟨_, List.infix_rfl, spans⟩
    | @inner path name dot tokens isName isDot rest inductionHypothesis =>
        have spans := (IsType.inner isName isDot rest).spans inOrder
        have inside : tokens <:+: name :: dot :: tokens := ⟨[name, dot], [], by simp⟩
        refine List.forall_mem_cons.mpr ⟨⟨_, List.infix_rfl, spans⟩, ?_⟩
        intro path isInner
        exact (inductionHypothesis (inOrder.of_part inside) path isInner).mono inside
  · exact isType.holds fun token member => covers_token member

theorem IsParameter.laid {parameter : Parameter} {tokens : List Token}
    (isParameter : IsParameter parameter tokens) (inOrder : InOrder tokens) :
    Laid [parameter.name.span, parameter.type.span] tokens := by
  cases isParameter with
  | @intro _ name colon tokens _ _ isType =>
      have spans := isType.spans (inOrder.of_part ⟨[name, colon], [], by simp⟩)
      exact (Laid.one (spans_singleton name)).append ((Laid.one spans).before [colon])

theorem AreParameters.laid {parameters : List Parameter} {tokens : List Token}
    (areParameters : AreParameters parameters tokens) (inOrder : InOrder tokens) :
    Laid (parameters.flatMap fun parameter => [parameter.name.span, parameter.type.span])
      tokens := by
  induction areParameters with
  | none => exact .none
  | last isParameter => exact isParameter.laid inOrder
  | next isParameter _ _ _ inductionHypothesis =>
      exact ((isParameter.laid inOrder.left.left).after _).append
        (inductionHypothesis inOrder.right)

theorem AreParameters.finds_type {parameters : List Parameter} {tokens : List Token}
    (areParameters : AreParameters parameters tokens) :
    ∀ parameter ∈ parameters, ∃ part, part <:+: tokens ∧ IsType parameter.type part := by
  have ofOne : ∀ {parameter : Parameter} {tokens : List Token}, IsParameter parameter tokens →
      ∃ part, part <:+: tokens ∧ IsType parameter.type part := by
    intro _ _ isParameter
    cases isParameter with
    | @intro _ name colon tokens _ _ isType =>
        exact ⟨tokens, ⟨[name, colon], [], by simp⟩, isType⟩
  induction areParameters with
  | none => exact List.forall_mem_nil _
  | last isParameter => exact List.forall_mem_singleton.mpr (ofOne isParameter)
  | next isParameter _ _ _ inductionHypothesis =>
      refine List.forall_mem_cons.mpr ⟨?_, ?_⟩
      · obtain ⟨part, isPart, isType⟩ := ofOne isParameter
        rw [List.append_assoc]
        exact ⟨part, isPart.trans (List.prefix_append _ _).isInfix, isType⟩
      · intro parameter member
        obtain ⟨part, isPart, isType⟩ := inductionHypothesis parameter member
        exact ⟨part, isPart.trans (List.suffix_append _ _).isInfix, isType⟩

/-! ## Functions -/

theorem IsFunction.laid {function : FunctionDecl} {tokens : List Token}
    (isFunction : IsFunction function tokens) (inOrder : InOrder tokens) :
    Laid function.partSpans tokens := by
  cases isFunction with
  | @intro parameters result block start name opening closing leading list arrow body _ _ _ _
      areParameters _ isResult isBody =>
      have regroup : start :: name :: opening :: leading ++ list ++ closing :: arrow ++ body =
          [start] ++ ([name] ++ (opening :: leading ++ (list ++ ([closing] ++ (arrow ++ body))))) :=
        by simp
      rw [regroup] at inOrder ⊢
      have inList := inOrder.right.right.right
      have inResult := inList.right.right
      have laidList := areParameters.laid inList.left
      have laidBody := isBody.laid inResult.right
      have laidResult : Laid (result.toList.map TypePath.span) arrow := by
        cases isResult with
        | none => exact .none
        | @some type arrow tokens _ isType =>
            have inType := inResult.left.of_part (List.suffix_cons _ _).isInfix
            exact (Laid.one (isType.spans inType)).before [arrow]
      have laidRest := laidList.append ((laidResult.append laidBody).before [closing])
      have laidName :=
        (Laid.one (spans_singleton name)).append (laidRest.before (opening :: leading))
      exact laidName.before [start]

theorem IsFunction.finds_type {function : FunctionDecl} {tokens : List Token}
    (isFunction : IsFunction function tokens) :
    ∀ path ∈ function.types, ∃ part, part <:+: tokens ∧ IsType path part := by
  cases isFunction with
  | @intro parameters result block start name opening closing leading list arrow body _ _ _ _
      areParameters _ isResult isBody =>
      refine List.forall_mem_append.mpr ⟨List.forall_mem_map.mpr ?_, ?_⟩
      · intro parameter member
        obtain ⟨part, isPart, isType⟩ := areParameters.finds_type parameter member
        refine ⟨part, isPart.trans ?_, isType⟩
        exact ⟨start :: name :: opening :: leading, closing :: arrow ++ body, by simp⟩
      · cases isResult with
        | none => exact List.forall_mem_nil _
        | @some type arrow tokens _ isType =>
            refine List.forall_mem_singleton.mpr ⟨tokens, ?_, isType⟩
            exact ⟨start :: name :: opening :: leading ++ list ++ [closing, arrow], body, by simp⟩

/-- Every span in a function covers some of its tokens. -/
theorem IsFunction.covers {function : FunctionDecl} {tokens : List Token}
    (isFunction : IsFunction function tokens) (inOrder : InOrder tokens) {span : Span}
    (hasSpan : function.HasSpan span) : Covers tokens span := by
  have laid := (isFunction.laid inOrder).covers
  cases hasSpan with
  | name => exact laid _ List.mem_cons_self
  | @parameter parameter isParameter =>
      refine laid _ (List.mem_cons_of_mem _ (List.mem_append_left _ ?_))
      exact List.mem_flatMap.mpr ⟨parameter, isParameter, List.mem_cons_self⟩
  | type isType inPath =>
      obtain ⟨part, isPart, isType⟩ := isFunction.finds_type _ isType
      exact (isType.covers (inOrder.of_part isPart) span inPath).mono isPart
  | node isExpr within own =>
      obtain ⟨part, isPart, derives⟩ := isFunction.finds _ isExpr _ within
      exact (derives.covers_own (inOrder.of_part isPart) span own).mono isPart

theorem AreFunctions.finds_function {functions : List FunctionDecl} {tokens : List Token}
    (areFunctions : AreFunctions functions tokens) :
    ∀ function ∈ functions, ∃ part, part <:+: tokens ∧ IsFunction function part := by
  induction areFunctions with
  | last isFunction _ =>
      exact List.forall_mem_singleton.mpr ⟨_, (List.prefix_append _ _).isInfix, isFunction⟩
  | next isFunction _ _ _ inductionHypothesis =>
      refine List.forall_mem_cons.mpr ⟨⟨_, ?_, isFunction⟩, ?_⟩
      · rw [List.append_assoc]
        exact (List.prefix_append _ _).isInfix
      · intro function member
        obtain ⟨part, isPart, isFunction⟩ := inductionHypothesis function member
        exact ⟨part, isPart.trans (List.suffix_append _ _).isInfix, isFunction⟩

theorem IsProgram.finds_function {program : Module} {tokens : List Token}
    (isProgram : IsProgram program tokens) :
    ∀ function ∈ program.functions, ∃ part, part <:+: tokens ∧ IsFunction function part := by
  obtain ⟨_, areFunctions⟩ := isProgram
  intro function member
  obtain ⟨part, isPart, isFunction⟩ := areFunctions.finds_function function member
  exact ⟨part, isPart.trans (List.suffix_append _ _).isInfix, isFunction⟩

/-- Two functions are apart by the newlines between them. -/
theorem AreFunctions.pairwise {functions : List FunctionDecl} {tokens : List Token}
    (areFunctions : AreFunctions functions tokens) (successive : Successive tokens)
    (filled : ∀ token ∈ tokens, token.span.start < token.span.stop) :
    functions.Pairwise fun earlier later => ∀ span other,
      earlier.HasSpan span → later.HasSpan other → span.stop < other.start := by
  induction areFunctions with
  | last _ _ => exact List.pairwise_singleton _ _
  | @next function others tokens newlines more isFunction skipped ended rest inductionHypothesis =>
      obtain ⟨inFirst, inRest, across⟩ := List.pairwise_append.mp successive
      obtain ⟨inTokens, -, -⟩ := List.pairwise_append.mp inFirst
      obtain ⟨newline, isNewline⟩ := List.exists_mem_of_ne_nil newlines ended
      have filledRest := (List.forall_mem_append.mp filled).2
      refine .cons ?_ (inductionHypothesis inRest filledRest)
      intro later isLater span other hasSpan hasOther
      obtain ⟨part, isPart, isFunctionLater⟩ := rest.finds_function later isLater
      have inPart := (Successive.inOrder inRest).of_part isPart
      have covers := isFunction.covers (Successive.inOrder inTokens) hasSpan
      have coversOther := (isFunctionLater.covers inPart hasOther).mono isPart
      have before : span.Precedes newline.span := covers.precedes inFirst (covers_token isNewline)
      have after : newline.span.Precedes other :=
        (covers_token (List.mem_append_right tokens isNewline)).precedes successive coversOther
      have isFilled := filled newline (by simp [isNewline])
      exact Nat.lt_of_le_of_lt before (Nat.lt_of_lt_of_le isFilled after)

/-! ## Programs -/

theorem IsProgram.pairwise {program : Module} {tokens : List Token}
    (isProgram : IsProgram program tokens) (successive : Successive tokens)
    (filled : ∀ token ∈ tokens, token.span.start < token.span.stop) :
    program.functions.Pairwise fun earlier later => ∀ span other,
      earlier.HasSpan span → later.HasSpan other → span.stop < other.start := by
  obtain ⟨_, areFunctions⟩ := isProgram
  have inFunctions := (List.pairwise_append.mp successive).2.1
  exact areFunctions.pairwise inFunctions (List.forall_mem_append.mp filled).2

/-- The spans of a program over its tokens, if what covers tokens is a span of the source. -/
theorem IsProgram.laidOut {source : Source} {program : Module} {tokens : List Token}
    (isProgram : IsProgram program tokens) (successive : Successive tokens)
    (filled : ∀ token ∈ tokens, token.span.start < token.span.stop)
    (delimits : ∀ span, Covers tokens span → source.Delimits span) :
    program.LaidOut source where
  delimited := by
    intro function member span hasSpan
    obtain ⟨part, isPart, isFunction⟩ := isProgram.finds_function function member
    have inPart := successive.inOrder.of_part isPart
    exact delimits span ((isFunction.covers inPart hasSpan).mono isPart)
  nested := by
    intro node hasNode inner within span own
    obtain ⟨part, isPart, derives⟩ := isProgram.finds hasNode
    obtain ⟨innerPart, isInner, derivesInner⟩ := derives.located inner within
    have inPart := successive.inOrder.of_part isPart
    have covers := (derivesInner.covers_own (inPart.of_part isInner) span own).mono isInner
    exact covers.inside inPart (derives.spanned inPart)
  types := by
    intro function member path isType span inPath
    obtain ⟨part, isPart, isFunction⟩ := isProgram.finds_function function member
    obtain ⟨inner, isInner, isType⟩ := isFunction.finds_type path isType
    have inInner := successive.inOrder.of_part (isInner.trans isPart)
    exact (isType.covers inInner span inPath).inside inInner (isType.spans inInner)
  parts := by
    intro node hasNode
    obtain ⟨part, isPart, derives⟩ := isProgram.finds hasNode
    have inPart := successive.sublist isPart.sublist
    exact (derives.laid (Successive.inOrder inPart)).pairwise inPart
  functionParts := by
    intro function member
    obtain ⟨part, isPart, isFunction⟩ := isProgram.finds_function function member
    have inPart := successive.sublist isPart.sublist
    exact (isFunction.laid (Successive.inOrder inPart)).pairwise inPart
  functions := isProgram.pairwise successive filled

end Grammar

theorem Tiles.stop_le {text rest : List Char} {tokens : List Token} {after : Position}
    (tiles : Tiles .initial text tokens after rest) {token : Token} (member : token ∈ tokens) :
    token.span.stop ≤ Text.byteLength text := by
  obtain ⟨left, right, rfl⟩ := List.append_of_mem member
  rw [List.append_cons] at tiles
  obtain ⟨middle, between, tilesLeft, -⟩ := Tiles.append_iff.mp tiles
  have isStop : token.span.stop = middle.offset := by
    rw [← tilesLeft.lastStop_eq]
    simp [lastStop]
  rw [isStop, tilesLeft.offset_eq, tilesLeft.text_eq, Text.byteLength_append]
  exact Nat.le_add_right _ _

/-- Tokens of a text stand in order, and none of them is empty, trivia or outside the text. -/
structure PlainTokens (text : List Char) (tokens : List Token) : Prop where
  successive : Successive tokens
  filled : ∀ token ∈ tokens, token.span.start < token.span.stop
  inside : ∀ token ∈ tokens, token.span.stop ≤ Text.byteLength text
  plain : ∀ token ∈ tokens, token.kind.isTrivia = false

theorem TokenStream.plainTokens (text : List Char) :
    PlainTokens text (TokenStream.ofText text).tokens := by
  obtain ⟨all, after, rest, ending, tiles, -, isStream⟩ := Lexer.exists_tiles_ofText text
  rw [isStream]
  refine ⟨tiles.successive.filter _, ?_, ?_, ?_⟩
  · exact fun token member => tiles.filled (List.mem_of_mem_filter member)
  · exact fun token member => tiles.stop_le (List.mem_of_mem_filter member)
  · intro token member
    simpa [Lexer.gives] using (List.mem_filter.mp member).2

theorem Source.delimits_of_covers {source : Source} {span : Span}
    (covers : Covers (TokenStream.ofText source.characters).tokens span) :
    source.Delimits span := by
  obtain ⟨successive, filled, inside, plain⟩ := TokenStream.plainTokens source.characters
  obtain ⟨⟨first, isFirst, isStart⟩, last, isLast, isStop⟩ := covers.exists_tokens
  refine ⟨covers.filled successive.inOrder filled, ?_, ?_, ?_⟩
  · rw [← isStop]
    exact inside last isLast
  · exact ⟨first, isFirst, plain first isFirst, isStart⟩
  · exact ⟨last, isLast, plain last isLast, isStop⟩

/-- The spans of a program that is read from a source are spans of the source, those inside
a node lie inside its span, those side by side are apart and in the order of the source, and
those of a function end before any of a later one starts. -/
theorem Module.ofSource_laidOut (source : Source) (program : Module)
    (accepted : Module.ofSource source = .ok program) : program.LaidOut source := by
  have isProgram := Module.isProgram_ofSource accepted
  have tokens := TokenStream.plainTokens source.characters
  exact isProgram.laidOut tokens.successive tokens.filled fun _ => Source.delimits_of_covers

def crowdedSource : Source :=
  .ofText "crowded" "fn f(a: Int, b: Outer.Inner.Int,) -> Int \x7b
  g(x: (a /* é */ + b), y: -b) \x7b h() \x7d
  return a * 2 - 1
\x7d

fn g() \x7b if a \x7b 1 \x7d else \x7b return 2 \x7d \x7d"

theorem crowdedSource_laidOut : ∃ program, Module.ofSource crowdedSource = .ok program ∧
    program.functions.length = 2 ∧ program.LaidOut crowdedSource := by
  have found : (Module.ofSource crowdedSource).toOption.any (fun program =>
      program.functions.length == 2) = true := by
    decide +kernel
  obtain ⟨program, accepted, isPair⟩ := exists_ok_of_any found
  exact ⟨program, accepted, beq_iff_eq.mp isPair,
    Module.ofSource_laidOut crowdedSource program accepted⟩

end ScalarLang
