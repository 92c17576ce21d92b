import Mathlib.Data.List.TakeWhile
import ScalarLang.Proofs.Lexing.Separation

/-!
# Trivia between tokens

What a text has outside of trivia does not depend on where it stands.  Blanks and comments
in front of a text add nothing to it, and a blank after a text ends its last token without a
change.  So the tokens on both sides of a gap stay the same, whatever trivia are in the gap.
-/

set_option autoImplicit false

namespace ScalarLang

/-! ## Texts without their trivia -/

def plainShapes (tokens : List Token) : List (TokenKind × String) :=
  (tokens.filter (Lexer.gives false)).map Token.shape

section PlainShapes

variable {token : Token} {tokens : List Token}

theorem plainShapes_of_trivia (isTrivia : token.kind.isTrivia = true) :
    plainShapes (token :: tokens) = plainShapes tokens := by
  simp [plainShapes, Lexer.gives, isTrivia]

theorem plainShapes_of_plain (noTrivia : token.kind.isTrivia = false) :
    plainShapes (token :: tokens) = token.shape :: plainShapes tokens := by
  simp [plainShapes, Lexer.gives, noTrivia]

theorem plainShapes_append (left right : List Token) :
    plainShapes (left ++ right) = plainShapes left ++ plainShapes right := by
  simp [plainShapes]

end PlainShapes

def Ending.fault? : Ending → Option LexFault
  | .finished _ => none
  | .fault error => some error.fault

/-- What a text has outside of trivia: the kinds and the texts of its tokens, and the fault
that stops them. -/
inductive Outlines : List Char → List (TokenKind × String) → Option LexFault → Prop
  | finished : Outlines [] [] none
  | fault {first : Char} {others : List Char} {fault : LexFault}
      (refused : Lexeme.scan first others = .error fault) :
      Outlines (first :: others) [] (some fault)
  | trivia {first : Char} {others : List Char} {lexeme : Lexeme}
      {shapes : List (TokenKind × String)} {fault : Option LexFault}
      (scanned : Lexeme.scan first others = .ok lexeme) (isTrivia : lexeme.kind.isTrivia = true)
      (rest : Outlines (others.drop lexeme.tail) shapes fault) :
      Outlines (first :: others) shapes fault
  | token {first : Char} {others : List Char} {lexeme : Lexeme}
      {shapes : List (TokenKind × String)} {fault : Option LexFault}
      (scanned : Lexeme.scan first others = .ok lexeme) (noTrivia : lexeme.kind.isTrivia = false)
      (rest : Outlines (others.drop lexeme.tail) shapes fault) :
      Outlines (first :: others)
        ((lexeme.kind, .ofList (first :: others.take lexeme.tail)) :: shapes) fault

section Outlines

variable {position after : Position} {text rest : List Char} {tokens : List Token}
  {ending : Ending} {shapes : List (TokenKind × String)} {fault : Option LexFault}

theorem Tiles.outlines (tiles : Tiles position text tokens after rest)
    (outlines : Outlines rest shapes fault) :
    Outlines text (plainShapes tokens ++ shapes) fault := by
  induction tiles with
  | none => exact outlines
  | @next position after first others rest lexeme tokens scanned tiles inductionHypothesis =>
      cases isTrivia : lexeme.kind.isTrivia with
      | true =>
          rw [plainShapes_of_trivia isTrivia]
          exact .trivia scanned isTrivia (inductionHypothesis outlines)
      | false =>
          rw [plainShapes_of_plain isTrivia]
          exact .token scanned isTrivia (inductionHypothesis outlines)

theorem Ends.outlines (ends : Ends position rest ending) : Outlines rest [] ending.fault? := by
  cases ends with
  | finished => exact .finished
  | fault refused => exact .fault refused

theorem exists_outlines (text : List Char) : ∃ shapes fault, Outlines text shapes fault := by
  obtain ⟨tokens, after, rest, ending, tiles, ends⟩ := exists_tiles text .initial
  exact ⟨_, _, tiles.outlines ends.outlines⟩

namespace Outlines

theorem exists_tiles (outlines : Outlines text shapes fault) : ∀ position : Position,
    ∃ tokens after rest ending, Tiles position text tokens after rest ∧
      Ends after rest ending ∧ plainShapes tokens = shapes ∧ ending.fault? = fault := by
  induction outlines with
  | finished => exact fun position => ⟨[], position, [], _, .none, .finished, rfl, rfl⟩
  | fault refused => exact fun position => ⟨[], position, _, _, .none, .fault refused, rfl, rfl⟩
  | trivia scanned isTrivia _ inductionHypothesis =>
      intro position
      obtain ⟨tokens, after, rest, ending, tiles, ends, areShapes, isFault⟩ :=
        inductionHypothesis (position.advance _)
      exact ⟨_, after, rest, ending, .next scanned tiles, ends,
        (plainShapes_of_trivia isTrivia).trans areShapes, isFault⟩
  | token scanned noTrivia _ inductionHypothesis =>
      intro position
      obtain ⟨tokens, after, rest, ending, tiles, ends, areShapes, isFault⟩ :=
        inductionHypothesis (position.advance _)
      exact ⟨_, after, rest, ending, .next scanned tiles, ends,
        (plainShapes_of_plain noTrivia).trans (congrArg _ areShapes), isFault⟩

/-- The stream of a text shows its tokens and its fault. -/
theorem of_stream (outlines : Outlines text shapes fault) :
    (TokenStream.ofText text).tokens.map Token.shape = shapes ∧
      (TokenStream.ofText text).ending.fault? = fault := by
  obtain ⟨tokens, after, rest, ending, tiles, ends, areShapes, isFault⟩ :=
    outlines.exists_tiles .initial
  have isStream : TokenStream.ofText text = ⟨tokens.filter (Lexer.gives false), ending⟩ :=
    Lexer.stream_eq tiles ends false
  rw [isStream]
  exact ⟨areShapes, isFault⟩

/-! ## Trivia in front of a text -/

variable {first : Char} {inner : List Char}

/-- A blank joins the blanks at the start of a text. -/
theorem after_blank (outlines : Outlines text shapes fault)
    (isSpace : Lexeme.isBlank first = true) : Outlines (first :: text) shapes fault := by
  refine .trivia (Lexeme.scan_of_blank isSpace) rfl ?_
  cases text with
  | nil => exact outlines
  | cons next others =>
      by_cases nextBlank : Lexeme.isBlank next = true
      · rw [List.takeWhile_cons_of_pos nextBlank]
        have isNext := @Lexeme.scan_of_blank next others nextBlank
        cases outlines with
        | fault refused => cases refused.symm.trans isNext
        | trivia scanned _ rest =>
            cases scanned.symm.trans isNext
            exact rest
        | token scanned noTrivia _ =>
            cases scanned.symm.trans isNext
            cases noTrivia
      · rw [List.takeWhile_cons_of_neg nextBlank]
        exact outlines

theorem after_blanks (outlines : Outlines text shapes fault) {blanks : List Char}
    (areBlanks : ∀ character ∈ blanks, Lexeme.isBlank character = true) :
    Outlines (blanks ++ text) shapes fault := by
  induction blanks with
  | nil => exact outlines
  | cons first others inductionHypothesis =>
      obtain ⟨isSpace, areOthers⟩ := List.forall_mem_cons.mp areBlanks
      exact (inductionHypothesis areOthers).after_blank isSpace

theorem after_blockComment (outlines : Outlines text shapes fault)
    (closes : Lexeme.commentTail inner = some inner.length) :
    Outlines ('/' :: '*' :: (inner ++ text)) shapes fault := by
  have scanned : Lexeme.scan '/' ('*' :: (inner ++ text)) = .ok ⟨.comment, inner.length + 1⟩ :=
    Lexeme.scan_blockComment_iff.mpr ⟨_, Lexeme.commentTail_append inner _ closes, rfl⟩
  refine .trivia scanned rfl ?_
  rw [List.drop_succ_cons, List.drop_left]
  exact outlines

theorem after_lineComment (outlines : Outlines text shapes fault) (onLine : '\n' ∉ inner)
    (ended : ∀ next ∈ text.head?, next = '\n') :
    Outlines ('/' :: '/' :: (inner ++ text)) shapes fault := by
  refine .trivia (Lexeme.scan_lineComment onLine ended) rfl ?_
  rw [List.drop_succ_cons, List.drop_left]
  exact outlines

end Outlines

end Outlines

/-! ## Gaps -/

/-- Blanks and closed comments that stand before a text; a comment up to the end of its line
has a newline or nothing after it. -/
inductive IsGap (right : List Char) : List Char → Prop
  | none : IsGap right []
  | blank {character : Char} {gap : List Char} (isSpace : Lexeme.isBlank character = true)
      (rest : IsGap right gap) : IsGap right (character :: gap)
  | blockComment {inner gap : List Char} (closes : Lexeme.commentTail inner = some inner.length)
      (rest : IsGap right gap) : IsGap right ('/' :: '*' :: (inner ++ gap))
  | lineComment {inner : List Char} (onLine : '\n' ∉ inner)
      (ended : ∀ next ∈ right.head?, next = '\n') : IsGap right ('/' :: '/' :: inner)

/-- The last token is not a comment up to the end of its line. -/
def OpensNoLine (tokens : List Token) : Prop :=
  ∀ last ∈ tokens.getLast?, ¬ ['/', '/'] <+: last.characters

/-- A text is two texts with a gap between them.  A token of the first ends before the gap
already, or it does so because the gap begins with a blank. -/
inductive Apart (left right : List Char) : List Char → Prop
  | split {gap : List Char} {tokens : List Token} {middle : Position} (isGap : IsGap right gap)
      (splits : Tiles .initial (left ++ (gap ++ right)) tokens middle (gap ++ right)) :
      Apart left right (left ++ (gap ++ right))
  | blank {character : Char} {gap : List Char} {tokens : List Token} {stop : Position}
      (tiles : Tiles .initial left tokens stop []) (opensNoLine : OpensNoLine tokens)
      (isSpace : Lexeme.isBlank character = true) (isGap : IsGap right gap) :
      Apart left right (left ++ character :: (gap ++ right))

section Gaps

variable {left right text gap : List Char} {shapes : List (TokenKind × String)}
  {fault : Option LexFault}

theorem IsGap.outlines (isGap : IsGap right gap) (outlines : Outlines right shapes fault) :
    Outlines (gap ++ right) shapes fault := by
  induction isGap with
  | none => exact outlines
  | blank isSpace _ inductionHypothesis => exact inductionHypothesis.after_blank isSpace
  | blockComment closes _ inductionHypothesis =>
      rw [List.cons_append, List.cons_append, List.append_assoc]
      exact inductionHypothesis.after_blockComment closes
  | lineComment onLine ended => exact outlines.after_lineComment onLine ended

theorem OpensNoLine.tail {token : Token} {tokens : List Token}
    (opensNoLine : OpensNoLine (token :: tokens)) : OpensNoLine tokens := by
  cases tokens with
  | nil => exact nofun
  | cons next others => exact opensNoLine

section BeforeBlank

variable {position after : Position} {tokens : List Token} {first blank : Char}
  {others more : List Char} {lexeme : Lexeme}

theorem Lexeme.outlines_blanks (isSpace : isBlank first = true)
    (scanned : scan first others = .ok lexeme)
    (outlines : Outlines (others.drop lexeme.tail ++ text) shapes fault) :
    Outlines (first :: others ++ text) shapes fault := by
  obtain rfl : ⟨.whitespace, (others.takeWhile isBlank).length⟩ = lexeme :=
    Except.ok.inj ((scan_of_blank isSpace).symm.trans scanned)
  have isTaken : others.takeWhile isBlank = others.take (others.takeWhile isBlank).length :=
    List.prefix_iff_eq_take.mp (List.takeWhile_prefix isBlank)
  have areBlanks : ∀ character ∈ first :: others.take (others.takeWhile isBlank).length,
      isBlank character = true := by
    rw [← isTaken]
    exact List.forall_mem_cons.mpr ⟨isSpace, fun _ => List.mem_takeWhile_imp⟩
  have isAll := outlines.after_blanks areBlanks
  rwa [List.cons_append, ← List.append_assoc, List.take_append_drop] at isAll

/-- A comment up to the end of its line ends before a newline, whatever comes later. -/
theorem Lexeme.outlines_line (scanned : scan '/' ('/' :: others) = .ok lexeme)
    (goesOn : ('/' :: others).drop lexeme.tail ≠ [])
    (outlines : Outlines (('/' :: others).drop lexeme.tail ++ text) shapes fault) :
    Outlines ('/' :: '/' :: others ++ text) shapes fault := by
  by_cases breaks : '\n' ∈ others
  · obtain ⟨line, rest, rfl, onLine⟩ := List.eq_append_cons_of_mem breaks
    have isLine := @scan_lineComment _ ('\n' :: rest) onLine (by simp)
    cases scanned.symm.trans isLine
    rw [List.drop_succ_cons, List.drop_left] at outlines
    simpa using outlines.after_lineComment onLine (by simp)
  · have isWhole := @scan_lineComment _ [] breaks (by simp)
    rw [List.append_nil] at isWhole
    cases scanned.symm.trans isWhole
    exact absurd (by simp) goesOn

/-- One lexeme of a text is found again if the blank comes later, and also right before the
blank unless it is a comment up to the end of the line. -/
theorem Lexeme.outlines_before_blank (scanned : scan first others = .ok lexeme)
    (opensNoLine : others.drop lexeme.tail = [] →
      ¬ ['/', '/'] <+: first :: others.take lexeme.tail)
    (isSpace : isBlank blank = true)
    (outlines : Outlines (others.drop lexeme.tail ++ blank :: more) shapes fault) :
    Outlines (first :: others ++ blank :: more)
      (plainShapes [lexeme.token position first others] ++ shapes) fault := by
  by_cases firstBlank : isBlank first = true
  · have isAll := outlines_blanks firstBlank scanned outlines
    cases scanned.symm.trans (scan_of_blank firstBlank)
    exact isAll
  by_cases isLine : first = '/' ∧ others.head? = some '/'
  · obtain ⟨rfl, isSlash⟩ := isLine
    obtain ⟨inner, rfl⟩ := List.head?_eq_some_iff.mp isSlash
    have goesOn : ('/' :: inner).drop lexeme.tail ≠ [] := by
      intro noneLeft
      refine opensNoLine noneLeft ⟨inner, ?_⟩
      rw [List.take_of_length_le (List.drop_eq_nil_iff.mp noneLeft)]
      rfl
    have isAll := outlines_line scanned goesOn outlines
    cases scanned
    exact isAll
  have again := @scan_append_of_endsAt _ _ _ more _ scanned
    (.inr ⟨isSpace, Bool.eq_false_of_not_eq_true firstBlank, isLine⟩)
  have inside := scan_tail_le scanned
  have tiles : Tiles position (first :: (others ++ blank :: more))
      [lexeme.token position first (others ++ blank :: more)] _ _ := .next again .none
  rw [List.drop_append_of_le_length inside] at tiles
  have isAll := tiles.outlines outlines
  rw [token, List.take_append_of_le_length inside] at isAll
  exact isAll

/-- The tokens of a text are found again before a blank, but a comment up to the end of the
line would go on with it. -/
theorem Tiles.outlines_before_blank (tiles : Tiles position left tokens after [])
    (opensNoLine : OpensNoLine tokens) (isSpace : Lexeme.isBlank blank = true)
    (outlines : Outlines (blank :: more) shapes fault) :
    Outlines (left ++ blank :: more) (plainShapes tokens ++ shapes) fault := by
  induction tokens generalizing position left with
  | nil =>
      cases tiles
      exact outlines
  | cons token tokens inductionHypothesis =>
      cases tiles with
      | @next _ _ first others _ lexeme _ scanned tiles =>
          have ofRest := inductionHypothesis tiles opensNoLine.tail
          have areShapes := plainShapes_append [lexeme.token position first others] tokens
          rw [List.singleton_append] at areShapes
          rw [areShapes, List.append_assoc]
          refine Lexeme.outlines_before_blank scanned ?_ isSpace ofRest
          intro noneLeft
          rw [noneLeft] at tiles
          cases tiles
          rw [← Lexeme.characters_token]
          exact opensNoLine _ rfl

end BeforeBlank

/-- The tokens before a boundary are those of the text up to it. -/
theorem Tiles.of_boundary {tokens : List Token} {middle : Position}
    (tiles : Tiles .initial (left ++ right) tokens middle right) :
    Tiles .initial left tokens middle [] := by
  have isLeft : left = charactersOf tokens := List.append_cancel_right tiles.text_eq
  have boundary : Tiles .initial (left ++ right) tokens middle ([] ++ right) := tiles
  have tilesLeft := boundary.of_append
  rwa [List.append_nil, ← isLeft] at tilesLeft

theorem Tiles.plainShapes_eq {tokens : List Token} {stop : Position}
    (tiles : Tiles .initial left tokens stop []) :
    plainShapes tokens = (TokenStream.ofText left).tokens.map Token.shape := by
  have isStream : TokenStream.ofText left = ⟨tokens.filter (Lexer.gives false), .finished stop⟩ :=
    Lexer.stream_eq tiles .finished false
  rw [isStream]
  rfl

/-- What stands on both sides of a gap is all that the text has. -/
theorem Apart.outlines (apart : Apart left right text) (outlines : Outlines right shapes fault) :
    Outlines text ((TokenStream.ofText left).tokens.map Token.shape ++ shapes) fault := by
  cases apart with
  | split isGap splits =>
      rw [← splits.of_boundary.plainShapes_eq]
      exact splits.outlines (isGap.outlines outlines)
  | blank tiles opensNoLine isSpace isGap =>
      rw [← tiles.plainShapes_eq]
      exact tiles.outlines_before_blank opensNoLine isSpace
        ((isGap.outlines outlines).after_blank isSpace)

end Gaps

end ScalarLang
