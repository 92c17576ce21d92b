import Mathlib.Data.List.Chain
import ScalarLang.Proofs.Lexing.Scanning
import ScalarLang.Source.Basic
import ScalarLang.Token.Lexer

/-!
# Tokens tile a text

With trivia, the tokens of a text follow each other without a gap up to the end or to
the first character at which no lexeme starts.  `Tiles` says so for the tokens between
two places of a text, whatever comes after the second place, and both streams of a
lexer are read off it: the one with trivia gives all these tokens and the one without
leaves out some.
-/

set_option autoImplicit false

namespace ScalarLang

/-! ## Slices and offsets -/

namespace Text

theorem slice?_append (before middle after : List Char) :
    slice? (before ++ (middle ++ after)) (byteLength before)
      (byteLength before + byteLength middle) = some middle := by
  unfold slice?
  rw [if_neg (by omega), splitAt?_byteLength]
  dsimp only
  rw [Nat.add_sub_cancel_left, splitAt?_byteLength]
  rfl

end Text

theorem Position.advance_offset (text : List Char) : ∀ position : Position,
    (position.advance text).offset = position.offset + Text.byteLength text := by
  induction text with
  | nil =>
      intro position
      rfl
  | cons first others inductionHypothesis =>
      intro position
      have ofStep : (position.step first).offset = position.offset + first.utf8Size := by
        unfold Position.step
        by_cases isNewline : first = '\n'
        · subst isNewline
          rfl
        · rw [if_neg isNewline]
      rw [Position.advance_cons, inductionHypothesis, ofStep, Text.byteLength_cons]
      omega

/-! ## Tokens in a row -/

def Lexeme.token (lexeme : Lexeme) (position : Position) (first : Char) (others : List Char) :
    Token :=
  ⟨lexeme.kind, .ofList (first :: others.take lexeme.tail), position⟩

def Token.characters (token : Token) : List Char := token.text.toList

def charactersOf (tokens : List Token) : List Char := tokens.flatMap Token.characters

@[simp]
theorem charactersOf_nil : charactersOf [] = [] := rfl

@[simp]
theorem charactersOf_cons (token : Token) (tokens : List Token) :
    charactersOf (token :: tokens) = token.characters ++ charactersOf tokens := rfl

theorem Lexeme.characters_token (lexeme : Lexeme) (position : Position) (first : Char)
    (others : List Char) :
    (lexeme.token position first others).characters = first :: others.take lexeme.tail :=
  String.toList_ofList

theorem Token.span_stop (token : Token) :
    token.span.stop = (token.position.advance token.characters).offset :=
  (Position.advance_offset _ _).symm

/-- Reading from a position of a text passes the tokens and comes to another position,
with the rest of the text after it. -/
inductive Tiles : Position → List Char → List Token → Position → List Char → Prop where
  | none {position : Position} {text : List Char} : Tiles position text [] position text
  | next {position after : Position} {first : Char} {others rest : List Char} {lexeme : Lexeme}
      {tokens : List Token} (scanned : Lexeme.scan first others = .ok lexeme)
      (tiles : Tiles (position.advance (first :: others.take lexeme.tail))
        (others.drop lexeme.tail) tokens after rest) :
      Tiles position (first :: others) (lexeme.token position first others :: tokens) after rest

/-- No token starts at a position: the text is over, or it goes on with a fault. -/
inductive Ends : Position → List Char → Ending → Prop where
  | finished {position : Position} : Ends position [] (.finished position)
  | fault {position : Position} {first : Char} {others : List Char} {fault : LexFault}
      (refused : Lexeme.scan first others = .error fault) :
      Ends position (first :: others) (.fault ⟨fault, position, first.utf8Size⟩)

theorem exists_tiles (text : List Char) : ∀ position : Position, ∃ tokens after rest ending,
    Tiles position text tokens after rest ∧ Ends after rest ending := by
  -- Every lexeme has a first character, so the text after it is shorter.
  induction length : text.length using Nat.strong_induction_on generalizing text with
  | h count inductionHypothesis =>
      intro position
      cases text with
      | nil => exact ⟨[], position, [], _, .none, .finished⟩
      | cons first others =>
          cases scanned : Lexeme.scan first others with
          | error fault => exact ⟨[], position, first :: others, _, .none, .fault scanned⟩
          | ok lexeme =>
              have shorter : (others.drop lexeme.tail).length < count := by
                rw [List.length_cons] at length
                rw [List.length_drop]
                omega
              obtain ⟨tokens, after, rest, ending, tiles, ends⟩ :=
                inductionHypothesis _ shorter _ rfl
                  (position.advance (first :: others.take lexeme.tail))
              exact ⟨_, after, rest, ending, .next scanned tiles, ends⟩

namespace Tiles

variable {position middle after : Position} {text rest : List Char} {tokens left right : List Token}

theorem text_eq (tiles : Tiles position text tokens after rest) :
    text = charactersOf tokens ++ rest := by
  induction tiles with
  | none => rfl
  | @next position after first others rest lexeme tokens scanned tiles inductionHypothesis =>
      rw [charactersOf_cons, Lexeme.characters_token, List.append_assoc, ← inductionHypothesis,
        List.cons_append, List.take_append_drop]

theorem position_eq (tiles : Tiles position text tokens after rest) :
    after = position.advance (charactersOf tokens) := by
  induction tiles with
  | none => rfl
  | next scanned tiles inductionHypothesis =>
      rw [charactersOf_cons, Lexeme.characters_token, Position.advance_append]
      exact inductionHypothesis

theorem append_iff : Tiles position text (left ++ right) after rest ↔
    ∃ middle between, Tiles position text left middle between ∧
      Tiles middle between right after rest := by
  constructor
  · intro tiles
    induction left generalizing position text with
    | nil => exact ⟨position, text, .none, tiles⟩
    | cons token left inductionHypothesis =>
        rw [List.cons_append] at tiles
        cases tiles with
        | next scanned tiles =>
            obtain ⟨middle, between, tilesLeft, tilesRight⟩ := inductionHypothesis tiles
            exact ⟨middle, between, .next scanned tilesLeft, tilesRight⟩
  · rintro ⟨middle, between, tilesLeft, tilesRight⟩
    induction tilesLeft with
    | none => exact tilesRight
    | next scanned _ inductionHypothesis => exact .next scanned (inductionHypothesis tilesRight)

/-- The first token stands at the position from which reading starts. -/
theorem head_position {token : Token} (tiles : Tiles position text (token :: tokens) after rest) :
    token.position = position := by
  cases tiles
  rfl

theorem characters_ne_nil (tiles : Tiles position text tokens after rest) {token : Token}
    (member : token ∈ tokens) : token.characters ≠ [] := by
  induction tiles with
  | none => cases member
  | next scanned _ inductionHypothesis =>
      rcases List.mem_cons.mp member with rfl | member
      · rw [Lexeme.characters_token]
        exact List.cons_ne_nil _ _
      · exact inductionHypothesis member

theorem cons {first : Char} {taken more : List Char} {lexeme : Lexeme}
    (scanned : Lexeme.scan first (taken ++ more) = .ok lexeme)
    (length : taken.length = lexeme.tail)
    (tiles : Tiles (position.advance (first :: taken)) more tokens after rest) :
    Tiles position (first :: (taken ++ more))
      (lexeme.token position first taken :: tokens) after rest := by
  have isTaken : (taken ++ more).take lexeme.tail = taken := List.take_left' length
  have isMore : (taken ++ more).drop lexeme.tail = more := List.drop_left' length
  have sameToken : lexeme.token position first (taken ++ more) =
      lexeme.token position first taken := by
    simp only [Lexeme.token, isTaken, List.take_of_length_le (Nat.le_of_eq length)]
  rw [← sameToken]
  refine .next scanned ?_
  rw [isTaken, isMore]
  exact tiles

/-- The tokens of a text do not depend on what comes after them. -/
theorem of_append {shorter more : List Char}
    (tiles : Tiles position text tokens after (shorter ++ more)) :
    Tiles position (charactersOf tokens ++ shorter) tokens after shorter := by
  induction tokens generalizing position text with
  | nil =>
      obtain rfl := tiles.position_eq
      exact .none
  | cons token tokens inductionHypothesis =>
      cases tiles with
      | @next _ _ first others _ lexeme _ scanned tiles =>
          have length : (others.take lexeme.tail).length = lexeme.tail :=
            List.length_take_of_le (Lexeme.scan_tail_le scanned)
          have areOthers : others = others.take lexeme.tail ++
              (charactersOf tokens ++ shorter) ++ more := by
            rw [List.append_assoc, List.append_assoc, ← tiles.text_eq, List.take_append_drop]
          have scannedShorter : Lexeme.scan first
              (others.take lexeme.tail ++ (charactersOf tokens ++ shorter)) = .ok lexeme := by
            rw [areOthers] at scanned
            refine Lexeme.scan_of_append scanned ?_
            rw [List.length_append, length]
            exact Nat.le_add_right _ _
          have isNext := cons scannedShorter length (inductionHypothesis tiles)
          have sameToken : lexeme.token position first (others.take lexeme.tail) =
              lexeme.token position first others := by
            simp only [Lexeme.token, List.take_take, Nat.min_self]
          rw [sameToken] at isNext
          rw [charactersOf_cons, Lexeme.characters_token, List.append_assoc]
          exact isNext

end Tiles

end ScalarLang
