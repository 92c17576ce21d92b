import ScalarLang.Proofs.Lexing.Streams
import ScalarLang.Proofs.Reading.Nodes
import ScalarLang.Proofs.Reading.Offsets
import ScalarLang.Proofs.Reading.Programs

/-!
# Reading the text of a node again

The text that a node of a program covers is made of the same tokens as in the program,
only closer to the start, so reading it gives the node again.
-/

set_option autoImplicit false

namespace ScalarLang

open Grammar

/-! ## Filtered lists -/

section Filter

variable {α : Type} {accepts : α → Bool} {all : List α}

theorem exists_split_of_filter {before after : List α} {value : α}
    (isFilter : all.filter accepts = before ++ value :: after) :
    ∃ left right, all = left ++ value :: right ∧ left.filter accepts = before ∧
      accepts value = true ∧ right.filter accepts = after := by
  obtain ⟨left, rest, rfl, isBefore, isRest⟩ := List.filter_eq_append_iff.mp isFilter
  obtain ⟨skipped, right, rfl, noneAccepted, isAccepted, isAfter⟩ :=
    List.filter_eq_cons_iff.mp isRest
  refine ⟨left ++ skipped, right, (List.append_assoc _ _ _).symm, ?_, isAccepted, isAfter⟩
  rw [List.filter_append, isBefore, List.filter_eq_nil_iff.mpr noneAccepted, List.append_nil]

/-- A part of a filtered list comes from a part of the list that has the same ends. -/
theorem exists_trimmed {part : List α} (isPart : part <:+: all.filter accepts) (some : part ≠ []) :
    ∃ left middle right, all = left ++ (middle ++ right) ∧ middle.filter accepts = part ∧
      middle.head? = part.head? ∧ middle.getLast? = part.getLast? := by
  obtain ⟨before, after, isFilter⟩ := isPart
  obtain ⟨first, others, rfl⟩ := List.exists_cons_of_ne_nil some
  rw [List.append_assoc, List.cons_append] at isFilter
  obtain ⟨left, rest, rfl, -, isFirst, isRest⟩ := exists_split_of_filter isFilter.symm
  rcases List.eq_nil_or_concat others with rfl | ⟨inner, last, rfl⟩
  · refine ⟨left, [first], rest, rfl, ?_, rfl, rfl⟩
    exact List.filter_eq_self.mpr (by simpa using isFirst)
  · rw [List.concat_eq_append, List.append_assoc, List.singleton_append] at isRest
    obtain ⟨middle, right, rfl, isInner, isLast, -⟩ := exists_split_of_filter isRest
    refine ⟨left, first :: (middle ++ [last]), right, by simp, ?_, rfl, ?_⟩
    · simp [isFirst, isInner, isLast]
    · simp [List.getLast?_cons]

end Filter

/-! ## Tokens at other offsets -/

structure Token.Shifted (shift : Nat) (token other : Token) : Prop where
  kind : token.kind = other.kind
  text : token.text = other.text
  offset : token.position.offset = other.position.offset + shift

namespace Token.Shifted

variable {shift : Nat} {token other : Token}

theorem left (shifted : Token.Shifted shift token other) : token.Moves (· - shift) other where
  kind := shifted.kind.symm
  text := shifted.text.symm
  span := by
    simp only [Token.span, Span.mapOffsets, shifted.offset, shifted.text, Span.mk.injEq]
    omega

theorem right (shifted : Token.Shifted shift token other) : other.Moves (· + shift) token where
  kind := shifted.kind
  text := shifted.text
  span := by
    simp only [Token.span, Span.mapOffsets, shifted.offset, shifted.text, Span.mk.injEq, true_and]
    omega

end Token.Shifted

theorem Token.start_le_stop (token : Token) : token.span.start ≤ token.span.stop :=
  Nat.le_add_right _ _

def Span.Precedes (left right : Span) : Prop := left.stop ≤ right.start

def Successive (tokens : List Token) : Prop :=
  tokens.Pairwise fun left right => left.span.Precedes right.span

theorem Successive.inOrder {tokens : List Token} (successive : Successive tokens) :
    InOrder tokens := by
  refine successive.imp ?_
  intro left right precedes
  exact ⟨Nat.le_trans left.start_le_stop precedes, Nat.le_trans precedes right.start_le_stop⟩

namespace Tiles

variable {position after : Position} {text rest : List Char} {tokens : List Token}

/-- A text has the same tokens wherever it stands. -/
theorem shifted {shift : Nat} (tiles : Tiles position text tokens after rest) :
    ∀ start : Position, position.offset = start.offset + shift →
      ∃ others stop, Tiles start text others stop rest ∧
        List.Forall₂ (Token.Shifted shift) tokens others := by
  induction tiles with
  | none =>
      intro start _
      exact ⟨[], start, .none, .nil⟩
  | @next position after first others rest lexeme tokens scanned tiles inductionHypothesis =>
      intro start isOffset
      have offset_next : (position.advance (first :: others.take lexeme.tail)).offset =
          (start.advance (first :: others.take lexeme.tail)).offset + shift := by
        rw [Position.advance_offset, Position.advance_offset, isOffset]
        omega
      obtain ⟨moved, stop, tilesMoved, areShifted⟩ := inductionHypothesis _ offset_next
      exact ⟨_, stop, .next scanned tilesMoved, .cons ⟨rfl, rfl, isOffset⟩ areShifted⟩

theorem offset_le (tiles : Tiles position text tokens after rest) {token : Token}
    (member : token ∈ tokens) : position.offset ≤ token.span.start := by
  induction tiles with
  | none => cases member
  | next scanned _ inductionHypothesis =>
      rcases List.mem_cons.mp member with rfl | member
      · exact Nat.le_refl _
      · refine Nat.le_trans ?_ (inductionHypothesis member)
        rw [Position.advance_offset]
        exact Nat.le_add_right _ _

theorem successive (tiles : Tiles position text tokens after rest) : Successive tokens := by
  induction tiles with
  | none => exact .nil
  | @next position after first others rest lexeme tokens scanned tiles inductionHypothesis =>
      refine .cons ?_ inductionHypothesis
      intro token member
      rw [Span.Precedes, Token.span_stop, Lexeme.characters_token]
      exact tiles.offset_le member

theorem inOrder (tiles : Tiles position text tokens after rest) : InOrder tokens :=
  tiles.successive.inOrder

end Tiles

/-- The text from the first to the last of some tokens of a text without trivia has these
tokens and no others. -/
theorem stream_of_slice {text rest : List Char} {all part : List Token} {after : Position}
    {span : Span} (tiles : Tiles .initial text all after rest)
    (isPart : part <:+: all.filter (Lexer.gives false)) (spans : Spans part span) :
    ∃ slice others stop, Text.slice? text span.start span.stop = some slice ∧
      TokenStream.ofText slice = ⟨others, .finished stop⟩ ∧
      List.Forall₂ (Token.Shifted span.start) part others := by
  obtain ⟨first, isFirst, last, isLast, rfl⟩ := spans
  have some : part ≠ [] := by
    rintro rfl
    cases isFirst
  -- Trivia inside the part stays in the slice, trivia around it does not.
  obtain ⟨left, middle, right, rfl, isFilter, sameHead, sameLast⟩ := exists_trimmed isPart some
  obtain ⟨start, between, tilesLeft, tilesRest⟩ := Tiles.append_iff.mp tiles
  obtain ⟨stop, later, tilesMiddle, -⟩ := Tiles.append_iff.mp tilesRest
  have isStart : start.offset = first.span.start := by
    obtain ⟨inner, rfl⟩ := List.head?_eq_some_iff.mp (sameHead.trans isFirst)
    rw [← tilesMiddle.head_position]
    rfl
  have isStop : stop.offset = last.span.stop := by
    obtain ⟨inner, rfl⟩ := List.getLast?_eq_some_iff.mp (sameLast.trans isLast)
    obtain ⟨before, _, -, tilesLast⟩ := Tiles.append_iff.mp tilesMiddle
    rw [tilesLast.position_eq, ← tilesLast.head_position, Token.span_stop]
    simp
  have isSlice :
      Text.slice? text first.span.start last.span.stop = .some (charactersOf middle) := by
    rw [← isStart, ← isStop, tilesMiddle.position_eq, Position.advance_offset, tilesLeft.offset_eq,
      tilesLeft.text_eq, tilesMiddle.text_eq]
    exact Text.slice?_append _ _ _
  -- What follows the slice is cut off, and a lexeme that ended before it ends there still.
  have tilesSlice : Tiles start (charactersOf middle) middle stop [] := by
    have alone := @Tiles.of_append _ _ _ _ [] later tilesMiddle
    rwa [List.append_nil] at alone
  have fromStart : start.offset = Position.initial.offset + first.span.start := by
    rw [isStart]
    exact (Nat.zero_add _).symm
  obtain ⟨others, end_, tilesOthers, areShifted⟩ := tilesSlice.shifted .initial fromStart
  refine ⟨charactersOf middle, others.filter (Lexer.gives false), end_, isSlice,
    Lexer.stream_eq tilesOthers .finished false, ?_⟩
  rw [← isFilter]
  refine List.rel_filter ?_ areShifted
  intro token other shifted
  simp [Lexer.gives, shifted.kind]

/-! ## Nodes -/

theorem Module.isProgram_ofSource {source : Source} {program : Module}
    (accepted : Module.ofSource source = .ok program) :
    IsProgram program (TokenStream.ofText source.characters).tokens := by
  unfold Module.ofSource Reader.ofSource at accepted
  cases started : Reader.ofStream (.ofText source.characters) with
  | error failure =>
      rw [started] at accepted
      cases accepted
  | ok reader =>
      rw [started] at accepted
      obtain ⟨isProgram, -⟩ := Reader.isProgram_of_readProgram accepted
      obtain ⟨rfl, -⟩ := Reader.ofStream_eq_ok_iff.mp started
      exact isProgram

/-- An accepted source has no fault. -/
theorem Module.finished_ofSource {source : Source} {program : Module}
    (accepted : Module.ofSource source = .ok program) :
    ∃ position, (TokenStream.ofText source.characters).ending = .finished position := by
  unfold Module.ofSource Reader.ofSource at accepted
  cases started : Reader.ofStream (.ofText source.characters) with
  | error failure =>
      rw [started] at accepted
      cases accepted
  | ok reader =>
      rw [started] at accepted
      obtain ⟨-, finished⟩ := Reader.isProgram_of_readProgram accepted
      obtain ⟨rfl, -⟩ := Reader.ofStream_eq_ok_iff.mp started
      exact finished

theorem Module.ofSource_of_isProgram {source : Source} {program : Module} {tokens : List Token}
    {position : Position}
    (isStream : TokenStream.ofText source.characters = ⟨tokens, .finished position⟩)
    (isProgram : IsProgram program tokens) : Module.ofSource source = .ok program := by
  unfold Module.ofSource Reader.ofSource
  have started : Reader.ofStream (.ofText source.characters) =
      .ok ⟨tokens, .finished position, .empty 0, true⟩ := by
    rw [isStream]
    exact Reader.ofStream_eq_ok_iff.mpr ⟨rfl, fun _ => ⟨position, rfl⟩⟩
  rw [started]
  exact Reader.readProgram_of_isProgram isProgram rfl

/-- The text that a node of an accepted source covers is read as that node, with every
span moved to the left by the start of the text, and no token is left over. -/
theorem readExpression_slice_of_node (source : Source) (program : Module)
    (accepted : Module.ofSource source = .ok program) (node : Expr)
    (hasNode : program.HasNode node) (name : String) :
    ∃ text reader after position,
      Text.slice? source.characters node.span.start node.span.stop = some text ∧
      Reader.ofSource (.ofText name (.ofList text)) = .ok reader ∧
      reader.readExpression = (.ok (node.mapOffsets (· - node.span.start)), after) ∧
      after.atEnd = true ∧ after.ending = .finished position ∧
      (node.mapOffsets (· - node.span.start)).mapOffsets (· + node.span.start) = node := by
  obtain ⟨all, stop, rest, ending, tiles, ends⟩ := exists_tiles source.characters .initial
  have areTokens : (TokenStream.ofText source.characters).tokens = all.filter (Lexer.gives false) :=
    congrArg TokenStream.tokens (Lexer.stream_eq tiles ends false)
  have isProgram := Module.isProgram_ofSource accepted
  rw [areTokens] at isProgram
  obtain ⟨part, isPart, derives⟩ := isProgram.finds hasNode
  have inOrder : InOrder part :=
    (tiles.inOrder.filter _).sublist isPart.sublist
  obtain ⟨text, others, position, isSlice, isStream, shifted⟩ :=
    stream_of_slice tiles isPart (derives.spanned inOrder)
  have movedLeft := derives.movable (fun _ _ atMost => Nat.sub_le_sub_right atMost node.span.start)
    others (shifted.imp fun _ _ => Token.Shifted.left)
  -- Moving back gives the node itself, so no subtraction was cut short at zero.
  have movedBack := movedLeft.movable
    (fun _ _ atMost => Nat.add_le_add_right atMost node.span.start)
    part (shifted.flip.imp fun _ _ => Token.Shifted.right)
  let reader : Reader := ⟨others, .finished position, .empty 0, true⟩
  have started : Reader.ofSource (.ofText name (.ofList text)) = .ok reader := by
    rw [Reader.ofSource, Source.characters_ofText, String.toList_ofList, isStream]
    exact Reader.ofStream_eq_ok_iff.mpr ⟨rfl, fun _ => ⟨position, rfl⟩⟩
  obtain ⟨after, reads, atEnd, finished⟩ := reader.readExpression_of_derives movedLeft rfl
  exact ⟨text, reader, after, position, isSlice, started, reads, atEnd, finished,
    movedBack.expression_unique derives⟩

def nestedSource : Source :=
  .ofText "nested" "fn f(a: Int) -> Int \x7b
  if g(x: (a /* é */ + 1) * 2) \x7b h() \x7d
  return -a
\x7d"

theorem nestedSource_accepted : ∃ program node, Module.ofSource nestedSource = .ok program ∧
    program.HasNode node ∧ node.span = ⟨32, 48⟩ := by
  have found : (Module.ofSource nestedSource).toOption.any (fun program =>
      program.functions.any fun function => function.body.expressions.any fun expr =>
        expr.parts.any fun condition => condition.parts.any fun value =>
          value.parts.any fun node => node.span == ⟨32, 48⟩) = true := by
    decide +kernel
  cases accepted : Module.ofSource nestedSource with
  | error failure =>
      rw [accepted] at found
      cases found
  | ok program =>
      rw [accepted] at found
      simp only [Except.toOption, Option.any_some, List.any_eq_true, beq_iff_eq] at found
      obtain ⟨function, isFunction, expr, isExpr, condition, isCondition, value, isValue, node,
        isNode, isSpan⟩ := found
      exact ⟨program, node, rfl, ⟨function, isFunction, expr, isExpr,
        .part isCondition (.part isValue (.part isNode .self))⟩, isSpan⟩

theorem readExpression_slice_of_nested_node : ∃ program node,
    Module.ofSource nestedSource = .ok program ∧ program.HasNode node ∧ node.span = ⟨32, 48⟩ ∧
    ∃ text reader after position,
      Text.slice? nestedSource.characters 32 48 = some text ∧
      Reader.ofSource (.ofText "slice" (.ofList text)) = .ok reader ∧
      reader.readExpression = (.ok (node.mapOffsets (· - 32)), after) ∧
      after.atEnd = true ∧ after.ending = .finished position ∧
      (node.mapOffsets (· - 32)).mapOffsets (· + 32) = node := by
  obtain ⟨program, node, accepted, hasNode, isSpan⟩ := nestedSource_accepted
  have reads := readExpression_slice_of_node nestedSource program accepted node hasNode "slice"
  rw [isSpan] at reads
  exact ⟨program, node, accepted, hasNode, isSpan, reads⟩

end ScalarLang
