import Mathlib.Computability.Language
import ScalarLang.Proofs.Lexing.FirstRule
import ScalarLang.Proofs.Lexing.Separation

/-!
# Texts put together from pieces

A text that is written piece by piece is cut into the tokens of its pieces, if each piece
ends where the next one begins.  A word or a number needs a character after it that does not
go on with it, a sign needs one that makes no cluster with it, and a bracket needs nothing.
What a piece is cut into is said by a language of tokens, so the language of a text is the
product of those of its pieces.
-/

set_option autoImplicit false

namespace ScalarLang

open Computability TokenRule

/-- The beginning of a text, before the rest of it, is cut into tokens that are a row of a
language once trivia are left out. -/
def Spells (text rest : List Char) (rows : Language Token) : Prop :=
  ∀ position, ∃ tokens after, Tiles position (text ++ rest) tokens after rest ∧
    tokens.filter (Lexer.gives false) ∈ rows

def Token.alone (kind : TokenKind) (text : String) : Language Token :=
  {row | ∃ token : Token, row = [token] ∧ token.kind = kind ∧ token.text = text}

namespace Spells

variable {text left right rest : List Char} {rows others : Language Token}

theorem mono (spells : Spells text rest rows) (within : ∀ row ∈ rows, row ∈ others) :
    Spells text rest others := by
  intro position
  obtain ⟨tokens, after, tiles, isRow⟩ := spells position
  exact ⟨tokens, after, tiles, within _ isRow⟩

theorem nil (isRow : [] ∈ rows) : Spells [] rest rows := fun position =>
  ⟨[], position, .none, isRow⟩

theorem append (spellsLeft : Spells left (right ++ rest) rows)
    (spellsRight : Spells right rest others) : Spells (left ++ right) rest (rows * others) := by
  intro position
  obtain ⟨first, middle, tilesLeft, isRow⟩ := spellsLeft position
  obtain ⟨second, after, tilesRight, isOther⟩ := spellsRight middle
  refine ⟨first ++ second, after, ?_, ?_⟩
  · rw [List.append_assoc]
    exact Tiles.append_iff.mpr ⟨middle, _, tilesLeft, tilesRight⟩
  · rw [List.filter_append]
    exact Language.append_mem_mul isRow isOther

theorem token {kind : TokenKind} {word : String} {first : Char} {tail : List Char}
    (areCharacters : word.toList = first :: tail) (noTrivia : kind.isTrivia = false)
    (scanned : Lexeme.scan first (tail ++ rest) = .ok ⟨kind, tail.length⟩) :
    Spells word.toList rest (Token.alone kind word) := by
  intro position
  let token : Token := ⟨kind, word, position⟩
  have given : Lexer.gives false token = true := by simp [Lexer.gives, token, noTrivia]
  have tiles : Tiles position (token.characters ++ rest) [token]
      (position.advance token.characters) rest :=
    .cons_at areCharacters scanned .none
  refine ⟨[token], _, tiles, ?_⟩
  rw [List.filter_cons_of_pos given]
  exact ⟨token, rfl, rfl, rfl⟩

/-- A single blank before a piece leaves nothing behind. -/
theorem after_blank (spells : Spells text rest rows)
    (noBlank : ∀ next ∈ (text ++ rest).head?, Lexeme.isBlank next = false) :
    Spells (' ' :: text) rest rows := by
  intro position
  obtain ⟨tokens, after, tiles, isRow⟩ := spells (position.advance [' '])
  have noMore : (text ++ rest).takeWhile Lexeme.isBlank = [] := by
    cases isText : text ++ rest with
    | nil => rfl
    | cons next others => simp [noBlank next (by simp [isText])]
  have scanned : Lexeme.scan ' ' (text ++ rest) = .ok ⟨.whitespace, 0⟩ := by
    unfold Lexeme.scan
    rw [noMore]
    rfl
  have tilesBlank : Tiles position (' ' :: ([] ++ (text ++ rest))) _ after rest :=
    .cons scanned rfl tiles
  exact ⟨_, after, tilesBlank, isRow⟩

end Spells

/-! ## Words and numbers -/

/-- Neither a word nor a number goes on with a text. -/
def Closed (rest : List Char) : Prop :=
  ∀ next ∈ rest.head?, Lexeme.isWordPart next = false ∧ next ≠ '.'

theorem Closed.nil : Closed [] := by
  simp [Closed]

theorem Closed.cons (next : Char) (noPart : Lexeme.isWordPart next = false) (noPoint : next ≠ '.')
    (others : List Char) : Closed (next :: others) := by
  simp [Closed, noPart, noPoint]

/-- A word that names something: it is not reserved, and does not begin with a capital. -/
structure IsIdentifier (name : String) : Prop where
  isWord : name.toList ∈ one WordStart * (one WordPart)∗
  isKind : WordKind name.toList .identifier

theorem cons_mem_word {first : Char} {tail : List Char} :
    first :: tail ∈ one WordStart * (one WordPart)∗ ↔
      Lexeme.isWordStart first = true ∧ tail.all Lexeme.isWordPart = true := by
  constructor
  · intro isWord
    obtain ⟨_, _, ⟨⟩, isStart, areParts⟩ := mem_word.mp isWord
    exact ⟨Lexeme.isWordStart_iff.mpr isStart, List.all_eq_true.mpr fun character member =>
      Lexeme.isWordPart_iff.mpr (areParts character member)⟩
  · rintro ⟨isStart, areParts⟩
    exact mem_word.mpr ⟨first, tail, rfl, Lexeme.isWordStart_iff.mp isStart,
      fun character member => Lexeme.isWordPart_iff.mp
        (List.all_eq_true.mp areParts character member)⟩

theorem isIdentifier_iff {name : String} {first : Char} {tail : List Char}
    (areCharacters : name.toList = first :: tail) : IsIdentifier name ↔
      (Lexeme.isWordStart first = true ∧ tail.all Lexeme.isWordPart = true) ∧
        Lexeme.wordKind first tail = .identifier := by
  have isKind := Lexeme.wordKind_eq first tail
  rw [← cons_mem_word]
  constructor
  · rintro ⟨isWord, isIdentifier⟩
    rw [areCharacters] at isWord isIdentifier
    exact ⟨isWord, isKind.unique isIdentifier⟩
  · rintro ⟨isWord, isIdentifier⟩
    rw [isIdentifier] at isKind
    exact ⟨areCharacters ▸ isWord, areCharacters ▸ isKind⟩

instance (name : String) : Decidable (IsIdentifier name) :=
  match areCharacters : name.toList with
  | [] => isFalse fun isIdentifier => by
      obtain ⟨first, tail, isCons, -⟩ := mem_word.mp isIdentifier.isWord
      rw [areCharacters] at isCons
      cases isCons
  | _ :: _ => decidable_of_iff _ (isIdentifier_iff areCharacters).symm

theorem exists_digits (number : Nat) : ∃ first tail, number.repr.toList = first :: tail ∧
    Lexeme.isDigit first = true ∧ ∀ character ∈ tail, Lexeme.isDigit character = true := by
  obtain ⟨first, tail, areCharacters⟩ : ∃ first tail, number.repr.toList = first :: tail := by
    rw [Nat.toList_repr]
    exact List.exists_cons_of_ne_nil Nat.toDigits_ne_nil
  have areDigits : ∀ character ∈ first :: tail, Lexeme.isDigit character = true := by
    intro character member
    rw [← areCharacters, Nat.toList_repr] at member
    exact Nat.isDigit_of_mem_toDigits (by decide) (by decide) member
  exact ⟨first, tail, areCharacters, List.forall_mem_cons.mp areDigits⟩

/-- A run of digits is an integer, if neither a digit nor a point comes after it. -/
theorem Lexeme.scan_digits {first : Char} {tail rest : List Char} (isFirst : isDigit first = true)
    (areTail : ∀ character ∈ tail, isDigit character = true) (closed : Closed rest) :
    scan first (tail ++ rest) = .ok ⟨.integer, tail.length⟩ := by
  have noWord : ¬ isWordStart first = true := by
    rw [isDigit_iff] at isFirst
    have noStart : ∀ digit ∈ "0123456789".toList, (!isWordStart digit) = true :=
      List.all_eq_true.mp (by decide)
    simpa using noStart first isFirst
  have taken : (tail ++ rest).takeWhile isDigit = tail := by
    refine takeWhile_of_run areTail fun next isNext => ?_
    have noPart := (closed next isNext).1
    rw [isWordPart, Bool.or_eq_false_iff] at noPart
    exact noPart.2
  have noDecimals : decimals rest = [] := by
    unfold decimals
    split
    · exact absurd rfl (closed '.' rfl).2
    · rfl
  rw [scan, if_neg noWord, if_pos isFirst, number, taken, List.drop_left, noDecimals]
  rfl

namespace Spells

variable {rest : List Char}

theorem word {name : String} {kind : TokenKind}
    (isWord : name.toList ∈ one WordStart * (one WordPart)∗) (isKind : WordKind name.toList kind)
    (closed : Closed rest) : Spells name.toList rest (Token.alone kind name) := by
  obtain ⟨first, tail, areCharacters, isStart, areParts⟩ := mem_word.mp isWord
  have noTrivia : kind.isTrivia = false := by cases isKind <;> rfl
  refine token areCharacters noTrivia ?_
  have taken : (tail ++ rest).takeWhile Lexeme.isWordPart = tail :=
    Lexeme.takeWhile_of_run (fun character member => Lexeme.isWordPart_iff.mpr (areParts character member))
      fun next isNext => (closed next isNext).1
  rw [areCharacters] at isKind
  rw [Lexeme.scan, if_pos (Lexeme.isWordStart_iff.mpr isStart), Lexeme.word, taken,
    isKind.unique (Lexeme.wordKind_eq first tail)]

theorem identifier {name : String} (isIdentifier : IsIdentifier name) (closed : Closed rest) :
    Spells name.toList rest (Token.alone .identifier name) :=
  word isIdentifier.isWord isIdentifier.isKind closed

theorem boolean {truth : String} (isTruth : truth = "true" ∨ truth = "false")
    (closed : Closed rest) : Spells truth.toList rest (Token.alone .boolean truth) := by
  have noKeyword : ∀ keyword : Keyword, keyword.text.toList ≠ truth.toList := by
    rcases isTruth with rfl | rfl <;> intro keyword <;> cases keyword <;> decide
  have isWord : truth.toList ∈ one WordStart * (one WordPart)∗ := by
    have isTrue : ['t', 'r', 'u', 'e'] ∈ one WordStart * (one WordPart)∗ :=
      cons_mem_word.mpr (by decide)
    have isFalse : ['f', 'a', 'l', 's', 'e'] ∈ one WordStart * (one WordPart)∗ :=
      cons_mem_word.mpr (by decide)
    rcases isTruth with rfl | rfl
    · exact isTrue
    · exact isFalse
  exact word isWord (.boolean noKeyword (isTruth.imp (congrArg _) (congrArg _))) closed

/-- The digits of a number are one token. -/
theorem digits (number : Nat) (closed : Closed rest) :
    Spells number.repr.toList rest (Token.alone .integer number.repr) := by
  obtain ⟨first, tail, areCharacters, isFirst, areTail⟩ := exists_digits number
  exact token areCharacters rfl (Lexeme.scan_digits isFirst areTail closed)

end Spells

/-! ## Signs -/

def Symbol.standsAlone : Symbol → Bool
  | .leftBrace | .rightBrace | .leftParen | .rightParen | .comma | .colon => true
  | _ => false

/-- A minus is a sign alone unless it begins an arrow. -/
theorem Lexeme.scan_minus {rest : List Char} (noArrow : ∀ next ∈ rest.head?, next ≠ '>') :
    scan '-' rest = .ok ⟨.operator .sub, 0⟩ := by
  cases rest with
  | nil => rfl
  | cons next others =>
      have isSign : sign? '-' (next :: others) = some ⟨.operator .sub, 0⟩ := by
        simp [sign?, clusters, singleKind?, (noArrow next rfl).symm]
      rw [scan, isSign]
      rfl

namespace Spells

variable {rest : List Char}

theorem symbol {symbol : Symbol} (alone : symbol.standsAlone = true) :
    Spells symbol.text.toList rest (Token.alone (.symbol symbol) symbol.text) := by
  cases symbol with
  | leftBrace | rightBrace | leftParen | rightParen | comma | colon => exact token rfl rfl rfl
  | _ => cases alone

theorem operator (sign : Operator) :
    Spells sign.text.toList (' ' :: rest) (Token.alone (.operator sign) sign.text) := by
  cases sign <;> exact token rfl rfl (Lexeme.scan_append_separator rfl (.inr ⟨rfl, rfl⟩))

/-- A minus or an exclamation mark is a token alone before all but two characters. -/
theorem operator_before {sign : Operator} (isUnary : sign = .bang ∨ sign = .sub)
    (noCluster : ∀ next ∈ rest.head?, next ≠ '>' ∧ next ≠ '=') :
    Spells sign.text.toList rest (Token.alone (.operator sign) sign.text) := by
  cases rest with
  | nil => rcases isUnary with rfl | rfl <;> exact token rfl rfl rfl
  | cons next others =>
      obtain ⟨noArrow, noEqual⟩ := noCluster next rfl
      rcases isUnary with rfl | rfl
      · have areCharacters : Operator.bang.text.toList = ['!'] := rfl
        have isSign : Lexeme.sign? '!' (next :: others) = some ⟨.operator .bang, 0⟩ := by
          simp [Lexeme.sign?, Lexeme.clusters, Lexeme.singleKind?, noEqual.symm]
        refine token areCharacters rfl ?_
        rw [List.nil_append, Lexeme.scan, isSign]
        rfl
      · have areCharacters : Operator.sub.text.toList = ['-'] := rfl
        exact token areCharacters rfl (Lexeme.scan_minus (by simpa using noArrow))

end Spells

end ScalarLang
