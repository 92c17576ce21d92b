import Mathlib.Data.Nat.Digits.Defs
import ScalarLang.Proofs.Lexing.Gaps
import ScalarLang.Proofs.Lexing.Spelling
import ScalarLang.Reader.Basic

/-!
# Numerals and the trivia before them

A numeral is a text of decimal digits, as long as one likes and with zeros in front.  After
trivia, and after a minus with trivia behind it, a numeral is one token with all of its
digits, at the place where they are.
-/

set_option autoImplicit false

namespace ScalarLang

open Computability

structure IsNumeral (text : String) : Prop where
  notEmpty : text.toList ≠ []
  areDigits : ∀ character ∈ text.toList, Lexeme.isDigit character = true

theorem isNumeral_iff {text : String} :
    IsNumeral text ↔ text.toList ≠ [] ∧ text.toList.all Lexeme.isDigit = true := by
  rw [List.all_eq_true]
  exact ⟨fun isNumeral => ⟨isNumeral.notEmpty, isNumeral.areDigits⟩, fun both => ⟨both.1, both.2⟩⟩

instance (text : String) : Decidable (IsNumeral text) := decidable_of_iff _ isNumeral_iff.symm

def numeralValue (text : String) : Nat :=
  Nat.ofDigits 10 (text.toList.reverse.map fun digit => digit.toNat - '0'.toNat)

theorem Text.digitsValue_toList (text : String) : digitsValue text.toList = numeralValue text := by
  unfold numeralValue
  induction text.toList using List.reverseRecOn with
  | nil => rfl
  | append_singleton digits digit inductionHypothesis =>
      have isNext : digitsValue (digits ++ [digit]) =
          10 * digitsValue digits + (digit.toNat - '0'.toNat) := by
        simp [digitsValue]
      rw [isNext, inductionHypothesis, List.reverse_append, List.reverse_singleton,
        List.singleton_append, List.map_cons, Nat.ofDigits_cons, Nat.add_comm]

theorem isNumeral_repr (number : Nat) : IsNumeral number.repr := by
  obtain ⟨first, tail, areCharacters, isFirst, areTail⟩ := exists_digits number
  constructor
  · rw [areCharacters]
    exact List.cons_ne_nil first tail
  · rw [areCharacters]
    exact List.forall_mem_cons.mpr ⟨isFirst, areTail⟩

/-! ## Trivia that leave nothing behind -/

namespace Spells

variable {text inner rest : List Char} {rows : Language Token}

theorem exists_tiles (spells : Spells text rest rows) (position : Position) :
    ∃ tokens, Tiles position (text ++ rest) tokens (position.advance text) rest ∧
      tokens.filter (Lexer.gives false) ∈ rows := by
  obtain ⟨tokens, after, tiles, isRow⟩ := spells position
  have isText : text = charactersOf tokens := List.append_cancel_right tiles.text_eq
  have isAfter : after = position.advance text := by rw [tiles.position_eq, isText]
  exact ⟨tokens, isAfter ▸ tiles, isRow⟩

theorem trivia {kind : TokenKind} {first : Char} {tail : List Char}
    (scanned : Lexeme.scan first (tail ++ rest) = .ok ⟨kind, tail.length⟩)
    (isTrivia : kind.isTrivia = true) :
    Spells (first :: tail) rest 1 := by
  intro position
  refine ⟨_, _, .cons scanned rfl .none, ?_⟩
  have left : Lexer.gives false (Lexeme.token ⟨kind, tail.length⟩ position first tail) = false := by
    simp [Lexer.gives, Lexeme.token, isTrivia]
  rw [List.filter_cons_of_neg (by simp [left])]
  exact Language.nil_mem_one

theorem blanks (areBlanks : ∀ character ∈ text, Lexeme.isBlank character = true)
    (noBlank : ∀ next ∈ rest.head?, Lexeme.isBlank next = false) : Spells text rest 1 := by
  cases text with
  | nil => exact .nil Language.nil_mem_one
  | cons first tail =>
      obtain ⟨isBlank, areTail⟩ := List.forall_mem_cons.mp areBlanks
      have scanned := @Lexeme.scan_of_blank first (tail ++ rest) isBlank
      rw [Lexeme.takeWhile_of_run areTail noBlank] at scanned
      exact trivia scanned rfl

theorem blockComment (closes : Lexeme.commentTail inner = some inner.length) :
    Spells ('/' :: '*' :: inner) rest 1 := by
  have closesBefore := @Lexeme.commentTail_append rest inner _ closes
  exact trivia (Lexeme.scan_blockComment_iff.mpr ⟨_, closesBefore, rfl⟩) rfl

theorem lineComment (onLine : '\n' ∉ inner) (ended : ∀ next ∈ rest.head?, next = '\n') :
    Spells ('/' :: '/' :: inner) rest 1 :=
  trivia (Lexeme.scan_lineComment onLine ended) rfl

end Spells

/-- A gap before a text that begins with no blank leaves nothing behind. -/
theorem IsGap.spells {gap right : List Char} (isGap : IsGap right gap)
    (noBlank : ∀ next ∈ right.head?, Lexeme.isBlank next = false) : Spells gap right 1 := by
  -- The blanks that were met already are one token with those that come next.
  suffices ∀ blanks : List Char, (∀ character ∈ blanks, Lexeme.isBlank character = true) →
      Spells (blanks ++ gap) right 1 from this [] (List.forall_mem_nil _)
  induction isGap with
  | none =>
      intro blanks areBlanks
      rw [List.append_nil]
      exact .blanks areBlanks noBlank
  | @blank character gap isSpace _ inductionHypothesis =>
      intro blanks areBlanks
      have spells := inductionHypothesis (blanks ++ [character])
        (List.forall_mem_append.mpr ⟨areBlanks, List.forall_mem_singleton.mpr isSpace⟩)
      rwa [List.append_assoc] at spells
  | @blockComment inner gap closes _ inductionHypothesis =>
      intro blanks areBlanks
      have comment : Spells ('/' :: '*' :: inner) (gap ++ right) 1 := .blockComment closes
      have spells := (Spells.blanks areBlanks (by rintro _ ⟨⟩; rfl)).append
        (comment.append (inductionHypothesis [] (List.forall_mem_nil _)))
      rwa [one_mul, one_mul] at spells
  | lineComment onLine ended =>
      intro blanks areBlanks
      have spells := (Spells.blanks areBlanks (by rintro _ ⟨⟩; rfl)).append
        (Spells.lineComment onLine ended)
      rwa [one_mul] at spells

/-! ## Numerals -/

namespace IsNumeral

variable {text : String} {gap : List Char}

theorem head_mem (isNumeral : IsNumeral text) :
    ∀ next ∈ text.toList.head?, next ∈ "0123456789".toList := fun next isNext =>
  Lexeme.isDigit_iff.mp (isNumeral.areDigits next (List.mem_of_mem_head? isNext))

theorem noBlank (isNumeral : IsNumeral text) :
    ∀ next ∈ text.toList.head?, Lexeme.isBlank next = false := by
  intro next isNext
  have noBlanks : ∀ digit ∈ "0123456789".toList, (!Lexeme.isBlank digit) = true :=
    List.all_eq_true.mp (by decide)
  simpa using noBlanks next (isNumeral.head_mem next isNext)

/-- Neither trivia nor digits make an arrow of a minus before them. -/
theorem noArrow (isNumeral : IsNumeral text) (isGap : IsGap text.toList gap) :
    ∀ next ∈ (gap ++ text.toList).head?, next ≠ '>' := by
  cases isGap with
  | none =>
      intro next isNext
      have noArrows : ∀ digit ∈ "0123456789".toList, (digit != '>') = true :=
        List.all_eq_true.mp (by decide)
      simpa using noArrows next (isNumeral.head_mem next isNext)
  | blank isSpace _ =>
      rintro _ ⟨⟩ rfl
      cases isSpace
  | blockComment _ _ | lineComment _ _ =>
      rintro _ ⟨⟩
      decide

theorem tiles (isNumeral : IsNumeral text) (position : Position) :
    Tiles position text.toList [⟨.integer, text, position⟩] (position.advance text.toList) [] := by
  obtain ⟨first, tail, areCharacters⟩ := List.exists_cons_of_ne_nil isNumeral.notEmpty
  have areDigits := isNumeral.areDigits
  rw [areCharacters] at areDigits
  obtain ⟨isFirst, areTail⟩ := List.forall_mem_cons.mp areDigits
  let token : Token := ⟨.integer, text, position⟩
  have tiles : Tiles position (token.characters ++ []) [token]
      (position.advance token.characters) [] :=
    .cons_at areCharacters (Lexeme.scan_digits isFirst areTail .nil) .none
  rwa [List.append_nil] at tiles

/-- A gap and a numeral are cut into trivia and one token. -/
theorem exists_tiles (isNumeral : IsNumeral text) (isGap : IsGap text.toList gap)
    (position : Position) :
    ∃ tokens, Tiles position (gap ++ text.toList) tokens
        (position.advance (gap ++ text.toList)) [] ∧
      tokens.filter (Lexer.gives false) = [⟨.integer, text, position.advance gap⟩] := by
  obtain ⟨trivia, tilesGap, noToken⟩ := (isGap.spells isNumeral.noBlank).exists_tiles position
  refine ⟨trivia ++ [⟨.integer, text, position.advance gap⟩], ?_, ?_⟩
  · rw [Position.advance_append]
    exact Tiles.append_iff.mpr ⟨_, _, tilesGap, isNumeral.tiles _⟩
  · rw [List.filter_append, (Language.mem_one _).mp noToken]
    rfl

/-- The stream of a numeral after trivia. -/
theorem stream_eq (isNumeral : IsNumeral text) (isGap : IsGap text.toList gap) :
    TokenStream.ofText (gap ++ text.toList) =
      ⟨[⟨.integer, text, Position.initial.advance gap⟩],
        .finished (Position.initial.advance (gap ++ text.toList))⟩ := by
  obtain ⟨tokens, tiles, areTokens⟩ := isNumeral.exists_tiles isGap .initial
  rw [← areTokens]
  exact Lexer.stream_eq tiles .finished false

/-- The stream of a minus and a numeral with trivia between them. -/
theorem stream_minus_eq (isNumeral : IsNumeral text) (isGap : IsGap text.toList gap) :
    TokenStream.ofText ('-' :: (gap ++ text.toList)) =
      ⟨[⟨.operator .sub, "-", .initial⟩,
          ⟨.integer, text, Position.initial.advance ('-' :: gap)⟩],
        .finished (Position.initial.advance ('-' :: (gap ++ text.toList)))⟩ := by
  obtain ⟨tokens, tiles, areTokens⟩ :=
    isNumeral.exists_tiles isGap (Position.initial.advance ['-'])
  let sign : Token := ⟨.operator .sub, "-", .initial⟩
  have areCharacters : sign.characters = ['-'] := by decide
  have tilesBoth : Tiles .initial (sign.characters ++ (gap ++ text.toList)) (sign :: tokens)
      ((Position.initial.advance ['-']).advance (gap ++ text.toList)) [] :=
    .cons_at areCharacters (Lexeme.scan_minus (isNumeral.noArrow isGap)) (areCharacters ▸ tiles)
  rw [areCharacters] at tilesBoth
  have isStream := Lexer.stream_eq tilesBoth .finished false
  rw [List.filter_cons_of_pos rfl, areTokens] at isStream
  exact isStream

end IsNumeral

end ScalarLang
