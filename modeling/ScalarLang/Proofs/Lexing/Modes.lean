import ScalarLang.Proofs.Lexing.Streams

/-!
# Lexers with and without trivia

A lexer gives a finite row of items, tokens and perhaps a fault at the end, and then
nothing.  Every call of `next` takes the first item off the row that is left, so what a
lexer does in all its calls is read off its stream.  With and without trivia the rows
differ by the trivia only, and both lexers come to rest at the same position.
-/

set_option autoImplicit false

namespace ScalarLang

def Ending.items : Ending → List (Except LexError Token)
  | .finished _ => []
  | .fault error => [.error error]

def TokenStream.items (stream : TokenStream) : List (Except LexError Token) :=
  stream.tokens.map .ok ++ stream.ending.items

namespace Lexer

/-! ## One call -/

/-- A call gives the first of the items that are left, if there is one, and leaves the
others; it does not change where the lexer will come to rest. -/
theorem next_takes_item (lexer : Lexer) :
    lexer.next.1 = lexer.stream.items.head? ∧
      lexer.next.2.stream.items = lexer.stream.items.tail ∧
      lexer.next.2.stream.ending.position = lexer.stream.ending.position := by
  cases result : lexer.next with
  | mk given after =>
      cases given with
      | none =>
          rw [stream_of_next_none result, stream_of_finished (finished_of_next_none result)]
          exact ⟨rfl, rfl, rfl⟩
      | some given =>
          cases given with
          | error error =>
              obtain ⟨isFinished, isPosition⟩ := finished_of_next_error result
              rw [stream_of_next_error result, stream_of_finished isFinished]
              exact ⟨rfl, rfl, isPosition.symm⟩
          | ok token =>
              rw [stream_of_next_ok result]
              exact ⟨rfl, rfl, rfl⟩

/-! ## All calls -/

theorem items_after (lexer : Lexer) (count : Nat) :
    (lexer.after count).stream.items = lexer.stream.items.drop count := by
  induction count with
  | zero => rfl
  | succ count inductionHypothesis =>
      rw [Lexer.after, (next_takes_item _).2.1, inductionHypothesis, List.tail_drop]

theorem ending_position_after (lexer : Lexer) (count : Nat) :
    (lexer.after count).stream.ending.position = lexer.stream.ending.position := by
  induction count with
  | zero => rfl
  | succ count inductionHypothesis =>
      rw [Lexer.after, (next_takes_item _).2.2, inductionHypothesis]

/-- Each call gives the item of its number, and the calls after the last item nothing. -/
theorem next_after_eq (lexer : Lexer) (call : Nat) :
    (lexer.after call).next.1 = lexer.stream.items[call]? := by
  rw [(next_takes_item _).1, items_after, List.head?_drop]

/-- A lexer comes to rest once a call has given nothing. -/
theorem position_after (lexer : Lexer) (more : Nat) :
    (lexer.after (lexer.stream.items.length + 1 + more)).position =
      lexer.stream.ending.position := by
  have noneLeft : (lexer.after lexer.stream.items.length).next.1 = none := by
    rw [next_after_eq, List.getElem?_eq_none (Nat.le_refl _)]
  have isFinished : (lexer.after (lexer.stream.items.length + 1)).finished = true :=
    finished_of_next_none (Prod.ext noneLeft rfl)
  have isEnding := ending_position_after lexer (lexer.stream.items.length + 1)
  rw [stream_of_finished isFinished] at isEnding
  rw [after_add, after_of_finished isFinished]
  exact isEnding

end Lexer

/-! ## The two modes -/

theorem Lexer.filter_gives_true (tokens : List Token) : tokens.filter (gives true) = tokens :=
  List.filter_eq_self.mpr fun _ _ => rfl

/-- The tokens that a lexer leaves out are the blanks and the comments. -/
theorem Lexer.gives_false_iff (token : Token) :
    gives false token = true ↔ token.kind ≠ .whitespace ∧ token.kind ≠ .comment := by
  cases isKind : token.kind <;> simp [gives, TokenKind.isTrivia, isKind]

/-- Without trivia the calls of a lexer give what they give with trivia but for the blanks
and the comments, up to the same fault or the same end, and the lexer comes to rest at the
same position. -/
theorem lexing_modes_agree (source : Source) :
    let plain := Lexer.ofText source.characters
    let full := plain.withTrivia
    (∀ call, (plain.after call).next.1 = plain.stream.items[call]?) ∧
    (∀ call, (full.after call).next.1 = full.stream.items[call]?) ∧
    plain.stream.tokens = full.stream.tokens.filter
      (fun token => token.kind ≠ .whitespace ∧ token.kind ≠ .comment) ∧
    plain.stream.ending = full.stream.ending ∧
    ∀ more others, (plain.after (plain.stream.items.length + 1 + more)).eofPosition =
      (full.after (full.stream.items.length + 1 + others)).eofPosition := by
  intro plain full
  obtain ⟨tokens, after, rest, ending, tiles, ends⟩ := exists_tiles source.characters .initial
  have isPlain : plain.stream = ⟨tokens.filter (Lexer.gives false), ending⟩ :=
    Lexer.stream_eq tiles ends false
  have isFull : full.stream = ⟨tokens.filter (Lexer.gives true), ending⟩ :=
    Lexer.stream_eq tiles ends true
  rw [Lexer.filter_gives_true] at isFull
  refine ⟨plain.next_after_eq, full.next_after_eq, ?_, ?_, ?_⟩
  · rw [isPlain, isFull]
    refine List.filter_congr fun token _ => ?_
    rw [Bool.eq_iff_iff, Lexer.gives_false_iff, decide_eq_true_iff]
  · rw [isPlain, isFull]
  · intro more others
    unfold Lexer.eofPosition
    rw [plain.position_after, full.position_after, isPlain, isFull]

end ScalarLang
