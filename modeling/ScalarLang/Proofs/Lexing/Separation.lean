import Mathlib.Data.List.Find
import ScalarLang.Proofs.Lexing.Streams

/-!
# Characters that separate lexemes

A newline ends every lexeme that stands at the end of a text, and a blank ends every one
that is not trivia.  So the tokens of a text stay the same when a newline and any other
text are put after it, and tokens joined by blanks are found again.
-/

set_option autoImplicit false

namespace ScalarLang

namespace Lexeme

variable {first separator : Char} {left right : List Char} {lexeme : Lexeme}

/-- A character that no lexeme of the kind goes on with. -/
def Separates (kind : TokenKind) (separator : Char) : Prop :=
  separator = '\n' ∨ isBlank separator = true ∧ kind.isTrivia = false

/-! ## Runs of characters -/

theorem takeWhile_append_separator {accepts : Char → Bool} (refused : accepts separator = false) :
    (left ++ separator :: right).takeWhile accepts = left.takeWhile accepts := by
  rw [List.takeWhile_append, List.takeWhile_cons_of_neg (by simp [refused]), List.append_nil]
  split
  · rename_i whole
    exact ((List.takeWhile_prefix accepts).eq_of_length whole).symm
  · rfl

theorem takeWhile_of_run {accepts : Char → Bool} {run : List Char}
    (accepted : ∀ character ∈ run, accepts character = true)
    (refused : ∀ next ∈ right.head?, accepts next = false) :
    (run ++ right).takeWhile accepts = run := by
  rw [List.takeWhile_append_of_pos accepted]
  cases right with
  | nil => simp
  | cons next others => simp [refused next rfl]

theorem takeWhile_line (onLine : '\n' ∉ left) (ended : ∀ next ∈ right.head?, next = '\n') :
    (left ++ right).takeWhile (· != '\n') = left := by
  refine takeWhile_of_run ?_ ?_
  · intro character member
    rw [bne_iff_ne]
    rintro rfl
    exact onLine member
  · intro next isNext
    rw [ended next isNext]
    rfl

theorem decimals_append_separator (noPoint : separator ≠ '.')
    (noDigit : isDigit separator = false) :
    decimals (left ++ separator :: right) = decimals left := by
  cases left with
  | nil => simp [decimals, noPoint]
  | cons first others =>
      by_cases isPoint : first = '.'
      · subst isPoint
        exact takeWhile_append_separator noDigit
      · simp [decimals, isPoint]

theorem number_append_separator (noPoint : separator ≠ '.') (noDigit : isDigit separator = false) :
    number (left ++ separator :: right) = number left := by
  have whole := length_takeWhile_le isDigit left
  unfold number
  dsimp only
  rw [takeWhile_append_separator noDigit, List.drop_append_of_le_length whole,
    decimals_append_separator noPoint noDigit]

/-! ## Strings and comments -/

theorem stringTail_append (text : List Char) : ∀ tail, stringTail text = some tail →
    stringTail (text ++ right) = some tail := by
  fun_induction stringTail text with
  | case1 => simp
  | case2 rest =>
      intro tail found
      rwa [List.cons_append, stringTail_quote]
  | case3 => simp
  | case4 taken others _ inductionHypothesis =>
      intro tail found
      obtain ⟨count, isCount, rfl⟩ := Option.map_eq_some_iff.mp found
      rw [List.cons_append, List.cons_append, stringTail_escape, inductionHypothesis count isCount]
      rfl
  | case5 character rest notQuote notEscape inductionHypothesis =>
      intro tail found
      obtain ⟨count, isCount, rfl⟩ := Option.map_eq_some_iff.mp found
      rw [List.cons_append, stringTail_other notQuote notEscape, inductionHypothesis count isCount]
      rfl

theorem commentTail_append (text : List Char) : ∀ tail, commentTail text = some tail →
    commentTail (text ++ right) = some tail := by
  fun_induction commentTail text with
  | case1 => simp
  | case2 character rest closes =>
      intro tail found
      rwa [List.cons_append, commentTail, if_pos ⟨closes.1, head?_append_of_some closes.2⟩]
  | case3 character rest goesOn inductionHypothesis =>
      intro tail found
      obtain ⟨count, isCount, rfl⟩ := Option.map_eq_some_iff.mp found
      -- The comment is closed later, so there is a next character and it is the same.
      have some : rest ≠ [] := by
        rintro rfl
        cases isCount
      rw [List.cons_append, commentTail, head?_of_append some, if_neg goesOn,
        inductionHypothesis count isCount]
      rfl

/-! ## Signs -/

theorem prefix_append_separator_iff {text : List Char} (absent : separator ∉ text) :
    text <+: left ++ separator :: right ↔ text <+: left := by
  constructor
  · intro starts
    rcases List.prefix_or_prefix_of_prefix starts (List.prefix_append left _) with
      inside | ⟨rest, rfl⟩
    · exact inside
    · rw [List.prefix_append_right_inj] at starts
      cases rest with
      | nil => exact (List.append_nil left).symm ▸ List.prefix_rfl
      | cons next others =>
          obtain rfl : next = separator := (List.cons_prefix_cons.mp starts).1
          exact absurd (by simp) absent
  · intro starts
    exact starts.trans (List.prefix_append left _)

theorem sign?_append_separator (absent : ∀ cluster ∈ clusters, separator ∉ cluster.1) :
    sign? first (left ++ separator :: right) = sign? first left := by
  have sameCluster :
      clusters.find? (fun cluster => cluster.1.isPrefixOf (first :: (left ++ separator :: right))) =
        clusters.find? (fun cluster => cluster.1.isPrefixOf (first :: left)) := by
    refine List.find?_congr ?_
    intro cluster member
    rw [Bool.eq_iff_iff, List.isPrefixOf_iff_prefix, List.isPrefixOf_iff_prefix,
      ← List.cons_append]
    exact prefix_append_separator_iff (absent cluster member)
  unfold sign?
  rw [sameCluster]

/-! ## Lexemes -/

theorem eq_of_isBlank (isSpace : isBlank first = true) :
    first = ' ' ∨ first = '\t' ∨ first = '\r' := by
  simpa [isBlank, or_assoc] using isSpace

theorem scan_of_blank (isSpace : isBlank first = true) :
    scan first left = .ok ⟨.whitespace, (left.takeWhile isBlank).length⟩ := by
  rcases eq_of_isBlank isSpace with rfl | rfl | rfl <;> rfl

theorem scan_lineComment (onLine : '\n' ∉ left) (ended : ∀ next ∈ right.head?, next = '\n') :
    scan '/' ('/' :: (left ++ right)) = .ok ⟨.comment, left.length + 1⟩ := by
  have taken : scan '/' ('/' :: (left ++ right)) =
      .ok ⟨.comment, ((left ++ right).takeWhile (· != '\n')).length + 1⟩ := rfl
  rw [taken, takeWhile_line onLine ended]

theorem scan_quote_iff : scan '"' left = .ok lexeme ↔
    ∃ tail, stringTail left = some tail ∧ lexeme = ⟨.string, tail⟩ := by
  have isQuote : scan '"' left = (stringTail left).elim (.error .unterminatedString)
      fun tail => .ok ⟨.string, tail⟩ := by
    cases found : stringTail left <;> simp [scan, found, isWordStart, isUpper, isLower, isDigit]
  rw [isQuote]
  cases stringTail left <;> simp [eq_comm]

theorem scan_blockComment_iff : scan '/' ('*' :: left) = .ok lexeme ↔
    ∃ tail, commentTail left = some tail ∧ lexeme = ⟨.comment, tail + 1⟩ := by
  have isComment : scan '/' ('*' :: left) = (commentTail left).elim (.error .unterminatedComment)
      fun tail => .ok ⟨.comment, tail + 1⟩ := by
    cases found : commentTail left <;>
      simp [scan, found, isWordStart, isUpper, isLower, isDigit, isBlank]
  rw [isComment]
  cases commentTail left <;> simp [eq_comm]

/-- A newline ends what starts with a character, and so does a blank, unless it goes on with
other blanks or with a comment. -/
def EndsAt (first : Char) (left : List Char) (separator : Char) : Prop :=
  separator = '\n' ∨ isBlank separator = true ∧ isBlank first = false ∧
    ¬ (first = '/' ∧ left.head? = some '/')

/-- What is read before a separator does not depend on it, if no quote and no `/*` opens it. -/
theorem scan_append_separator_eq (notQuoted : first ≠ '"')
    (notOpen : ¬ (first = '/' ∧ left.head? = some '*'))
    (endsAt : EndsAt first left separator) :
    scan first (left ++ separator :: right) = scan first left := by
  have isSeparator : separator = '\n' ∨ separator = ' ' ∨ separator = '\t' ∨ separator = '\r' :=
    endsAt.imp_right fun blank => eq_of_isBlank blank.1
  have noWord : isWordPart separator = false := by
    rcases isSeparator with rfl | rfl | rfl | rfl <;> decide
  have noDigit : isDigit separator = false := by
    rcases isSeparator with rfl | rfl | rfl | rfl <;> decide
  have noSign : separator ≠ '.' ∧ separator ≠ '/' ∧ separator ≠ '*' := by
    rcases isSeparator with rfl | rfl | rfl | rfl <;> decide
  have noCluster : ∀ cluster ∈ clusters, separator ∉ cluster.1 := by
    rcases isSeparator with rfl | rfl | rfl | rfl <;> decide
  -- The separator opens no comment with a slash before it.
  have sameHead : ∀ sign, sign ≠ separator →
      ((left ++ separator :: right).head? = some sign ↔ left.head? = some sign) := by
    intro sign different
    cases left with
    | nil => simp [different.symm]
    | cons next others => simp
  unfold scan
  simp only [sameHead '/' noSign.2.1.symm, sameHead '*' noSign.2.2.symm, notQuoted, notOpen,
    sign?_append_separator noCluster, number_append_separator noSign.1 noDigit, word,
    takeWhile_append_separator noWord, if_false]
  rcases endsAt with rfl | ⟨-, notBlank, notLine⟩
  · rw [takeWhile_append_separator (by decide), takeWhile_append_separator (by decide)]
  · simp only [notBlank, notLine, if_false, Bool.false_eq_true]

theorem scan_append_of_endsAt (scanned : scan first left = .ok lexeme)
    (endsAt : EndsAt first left separator) :
    scan first (left ++ separator :: right) = .ok lexeme := by
  by_cases isQuoted : first = '"'
  · subst isQuoted
    obtain ⟨tail, found, rfl⟩ := scan_quote_iff.mp scanned
    exact scan_quote_iff.mpr ⟨tail, stringTail_append left tail found, rfl⟩
  by_cases isOpen : first = '/' ∧ left.head? = some '*'
  · obtain ⟨rfl, isStar⟩ := isOpen
    obtain ⟨others, rfl⟩ := List.head?_eq_some_iff.mp isStar
    obtain ⟨tail, found, rfl⟩ := scan_blockComment_iff.mp scanned
    exact scan_blockComment_iff.mpr ⟨tail, commentTail_append others tail found, rfl⟩
  rw [scan_append_separator_eq isQuoted isOpen endsAt, scanned]

/-- A lexeme ends before a character that separates, whatever comes after it. -/
theorem scan_append_separator (scanned : scan first left = .ok lexeme)
    (separates : Separates lexeme.kind separator) :
    scan first (left ++ separator :: right) = .ok lexeme := by
  refine scan_append_of_endsAt scanned (separates.imp_right ?_)
  rintro ⟨isSpace, noTrivia⟩
  refine ⟨isSpace, ?_, ?_⟩
  · by_contra firstBlank
    rw [Bool.not_eq_false] at firstBlank
    rw [scan_of_blank firstBlank] at scanned
    cases scanned
    cases noTrivia
  · rintro ⟨rfl, isSlash⟩
    obtain ⟨others, rfl⟩ := List.head?_eq_some_iff.mp isSlash
    cases scanned
    cases noTrivia

end Lexeme

/-! ## Tokens -/

namespace Tiles

variable {position after : Position} {text : List Char} {tokens : List Token}

/-- The tokens of a whole text are those before a newline and any other text. -/
theorem append_newline (tiles : Tiles position text tokens after []) (more : List Char) :
    Tiles position (text ++ '\n' :: more) tokens after ('\n' :: more) := by
  induction tokens generalizing position text with
  | nil =>
      cases tiles
      exact .none
  | cons token tokens inductionHypothesis =>
      cases tiles with
      | @next _ _ first others _ lexeme _ scanned tiles =>
          have inside := Lexeme.scan_tail_le scanned
          have sameTaken : (others ++ '\n' :: more).take lexeme.tail = others.take lexeme.tail :=
            List.take_append_of_le_length inside
          have sameToken : lexeme.token position first others =
              lexeme.token position first (others ++ '\n' :: more) := by
            simp only [Lexeme.token, sameTaken]
          rw [sameToken, List.cons_append]
          refine .next (Lexeme.scan_append_separator scanned (.inl rfl)) ?_
          rw [sameTaken, List.drop_append_of_le_length inside]
          exact inductionHypothesis tiles

end Tiles

namespace Token

def shape (token : Token) : TokenKind × String := (token.kind, token.text)

/-- The text of a token is a lexeme of its kind and of nothing more. -/
def IsLexeme (token : Token) : Prop :=
  match token.characters with
  | [] => False
  | first :: others => Lexeme.scan first others = .ok ⟨token.kind, others.length⟩

end Token

theorem Tiles.isLexeme {position after : Position} {text rest : List Char} {tokens : List Token}
    (tiles : Tiles position text tokens after rest) {token : Token} (member : token ∈ tokens) :
    token.IsLexeme := by
  induction tiles with
  | none => cases member
  | @next position after first others rest lexeme tokens scanned tiles inductionHypothesis =>
      rcases List.mem_cons.mp member with rfl | member
      · have length := List.length_take_of_le (Lexeme.scan_tail_le scanned)
        rw [← List.take_append_drop lexeme.tail others] at scanned
        have alone := Lexeme.scan_of_append scanned (Nat.le_of_eq length.symm)
        unfold Token.IsLexeme
        rw [Lexeme.characters_token]
        dsimp only
        rw [alone, length]
        rfl
      · exact inductionHypothesis member

def Token.IsPlain (token : Token) : Prop := token.IsLexeme ∧ token.kind.isTrivia = false

theorem Source.isPlain_of_mem {source : Source} {token : Token}
    (member : token ∈ (TokenStream.ofText source.characters).tokens) : token.IsPlain := by
  obtain ⟨all, after, rest, ending, tiles, ends, isStream⟩ :=
    Lexer.exists_tiles_ofText source.characters
  rw [isStream] at member
  obtain ⟨inAll, isGiven⟩ := List.mem_filter.mp member
  exact ⟨tiles.isLexeme inAll, by simpa [Lexer.gives] using isGiven⟩

def joined (tokens : List Token) : List Char :=
  [' '].intercalate (tokens.map Token.characters)

section Joined

variable {token next : Token} {tokens : List Token}

theorem joined_singleton : joined [token] = token.characters := by
  simp [joined, List.intercalate]

theorem joined_cons_cons :
    joined (token :: next :: tokens) = token.characters ++ ' ' :: joined (next :: tokens) := by
  simp [joined, List.intercalate]

/-- A token that is not trivia does not begin with a blank. -/
theorem Token.IsLexeme.exists_first (isLexeme : token.IsLexeme)
    (noTrivia : token.kind.isTrivia = false) :
    ∃ first others, token.characters = first :: others ∧ Lexeme.isBlank first = false ∧
      Lexeme.scan first others = .ok ⟨token.kind, others.length⟩ := by
  unfold Token.IsLexeme at isLexeme
  split at isLexeme
  · exact isLexeme.elim
  · rename_i first others areCharacters
    refine ⟨first, others, areCharacters, ?_, isLexeme⟩
    by_contra isBlank
    rw [Bool.not_eq_false] at isBlank
    rw [Lexeme.scan_of_blank isBlank] at isLexeme
    obtain ⟨isKind, -⟩ := Lexeme.mk.inj (Except.ok.inj isLexeme)
    rw [← isKind] at noTrivia
    cases noTrivia

def Token.at (token : Token) (position : Position) : Token := ⟨token.kind, token.text, position⟩

theorem Tiles.cons_at {position after : Position} {first : Char} {others more rest : List Char}
    (areCharacters : token.characters = first :: others)
    (scanned : Lexeme.scan first (others ++ more) = .ok ⟨token.kind, others.length⟩)
    (tiles : Tiles (position.advance token.characters) more tokens after rest) :
    Tiles position (token.characters ++ more) (token.at position :: tokens) after rest := by
  have isToken : Lexeme.token ⟨token.kind, others.length⟩ position first others =
      token.at position := by
    simp [Lexeme.token, Token.at, ← areCharacters, Token.characters]
  rw [← isToken]
  rw [areCharacters] at tiles ⊢
  exact .cons scanned rfl tiles

/-- Tokens with single blanks between them are found again, with the blanks as trivia. -/
theorem exists_tiles_joined (areLexemes : ∀ token ∈ tokens, token.IsLexeme)
    (noTrivia : ∀ token ∈ tokens, token.kind.isTrivia = false) :
    ∀ position, ∃ all stop, Tiles position (joined tokens) all stop [] ∧
      (all.filter (Lexer.gives false)).map Token.shape = tokens.map Token.shape := by
  induction tokens with
  | nil =>
      intro position
      exact ⟨[], position, .none, rfl⟩
  | cons token tokens inductionHypothesis =>
      intro position
      have noTriviaHere := noTrivia token (.head _)
      obtain ⟨first, others, areCharacters, -, scanned⟩ :=
        (areLexemes token (.head _)).exists_first noTriviaHere
      have given : Lexer.gives false (token.at position) = true := by
        simp [Lexer.gives, Token.at, noTriviaHere]
      cases tokens with
      | nil =>
          refine ⟨[token.at position], position.advance token.characters, ?_, ?_⟩
          · have tiles : Tiles position (token.characters ++ []) [token.at position]
                (position.advance token.characters) [] :=
              .cons_at areCharacters (by simpa using scanned) .none
            rw [List.append_nil] at tiles
            rwa [joined_singleton]
          · rw [List.filter_cons_of_pos given]
            rfl
      | cons next tokens =>
          obtain ⟨all, stop, tiles, sameShapes⟩ := inductionHypothesis
            (fun token member => areLexemes token (.tail _ member))
            (fun token member => noTrivia token (.tail _ member))
            ((position.advance token.characters).advance [' '])
          -- The next token does not begin with a blank, so the blank before it stands alone.
          have blank : Lexeme.scan ' ' (joined (next :: tokens)) = .ok ⟨.whitespace, 0⟩ := by
            obtain ⟨start, rest, areNext, noBlank, -⟩ :=
              (areLexemes next (by simp)).exists_first (noTrivia next (by simp))
            obtain ⟨more, isText⟩ : ∃ more, joined (next :: tokens) = start :: more := by
              cases tokens with
              | nil => exact ⟨rest, by rw [joined_singleton, areNext]⟩
              | cons third tokens => exact ⟨_, by rw [joined_cons_cons, areNext, List.cons_append]⟩
            rw [isText]
            unfold Lexeme.scan
            rw [List.takeWhile_cons_of_neg (by simp [noBlank])]
            rfl
          let blankToken : Token := ⟨.whitespace, .ofList [' '], .initial⟩
          have areBlank : blankToken.characters = [' '] := String.toList_ofList
          have tilesBlank : Tiles (position.advance token.characters)
              (blankToken.characters ++ joined (next :: tokens))
              (blankToken.at (position.advance token.characters) :: all) stop [] :=
            .cons_at areBlank blank (areBlank ▸ tiles)
          refine ⟨token.at position :: blankToken.at (position.advance token.characters) :: all,
            stop, ?_, ?_⟩
          · rw [areBlank] at tilesBlank
            rw [joined_cons_cons]
            refine .cons_at areCharacters ?_ tilesBlank
            exact Lexeme.scan_append_separator scanned (.inr ⟨rfl, noTriviaHere⟩)
          · have skipped : ¬ Lexer.gives false (blankToken.at
                (position.advance token.characters)) = true :=
              Bool.false_ne_true
            rw [List.filter_cons_of_pos given, List.filter_cons_of_neg skipped, List.map_cons,
              sameShapes]
            rfl

theorem stream_joined (areLexemes : ∀ token ∈ tokens, token.IsLexeme)
    (noTrivia : ∀ token ∈ tokens, token.kind.isTrivia = false) :
    ∃ found stop, TokenStream.ofText (joined tokens) = ⟨found, .finished stop⟩ ∧
      found.map Token.shape = tokens.map Token.shape := by
  obtain ⟨all, stop, tiles, sameShapes⟩ := exists_tiles_joined areLexemes noTrivia .initial
  exact ⟨_, stop, Lexer.stream_eq tiles .finished false, sameShapes⟩

theorem Token.IsPlain.stream_characters (isPlain : token.IsPlain) :
    TokenStream.ofText token.characters =
      ⟨[token.at .initial], .finished (Position.initial.advance token.characters)⟩ := by
  obtain ⟨isLexeme, noTrivia⟩ := isPlain
  obtain ⟨first, others, areCharacters, -, scanned⟩ := isLexeme.exists_first noTrivia
  have tiles : Tiles .initial (token.characters ++ []) [token.at .initial]
      (Position.initial.advance token.characters) [] :=
    .cons_at areCharacters (by rwa [List.append_nil]) .none
  rw [List.append_nil] at tiles
  have isStream := Lexer.stream_eq tiles .finished false
  rwa [List.filter_cons_of_pos (by simp [Lexer.gives, Token.at, noTrivia])] at isStream

end Joined

/-- The tokens of a source with single blanks between them are read again as the same
kinds and texts up to the end, and the text of each of them alone as this token. -/
theorem joined_tokens_relex (source : Source) :
    let tokens := (TokenStream.ofText source.characters).tokens
    (∃ found stop, TokenStream.ofText (joined tokens) = ⟨found, .finished stop⟩ ∧
      found.map Token.shape = tokens.map Token.shape) ∧
    ∀ token ∈ tokens, TokenStream.ofText token.characters =
      ⟨[token.at .initial], .finished (Position.initial.advance token.characters)⟩ := by
  intro tokens
  have arePlain : ∀ token ∈ tokens, token.IsPlain := fun _ => source.isPlain_of_mem
  exact ⟨stream_joined (fun token member => (arePlain token member).1)
    fun token member => (arePlain token member).2,
    fun token member => (arePlain token member).stream_characters⟩

/-- A source of clusters that share their beginnings, a number before a range, points that
are no range, and a string over two lines. -/
def clusteredSource : Source := .ofText "clustered" "1..<2.5 .. <//c===\n\"a\n\\\"\""

theorem joined_tokens_relex_clustered :
    let tokens := (TokenStream.ofText clusteredSource.characters).tokens
    joined tokens = "1 ..< 2.5 . . </ / c == = \n \"a\n\\\"\"".toList ∧
    (∃ found stop, TokenStream.ofText (joined tokens) = ⟨found, .finished stop⟩ ∧
      found.map Token.shape = tokens.map Token.shape) ∧
    ∃ token ∈ tokens, token.shape = (.string, "\"a\n\\\"\"") ∧
      TokenStream.ofText token.characters = ⟨[token.at .initial], .finished ⟨6, 2, 4⟩⟩ := by
  intro tokens
  obtain ⟨relexed, alone⟩ := joined_tokens_relex clusteredSource
  have found : (tokens.any fun token => token.shape == (.string, "\"a\n\\\"\"")) = true := by
    decide +kernel
  obtain ⟨token, member, isShape⟩ := List.any_eq_true.mp found
  have same : token.shape = (.string, "\"a\n\\\"\"") := eq_of_beq isShape
  have isStop : Position.initial.advance token.characters = ⟨6, 2, 4⟩ := by
    rw [Token.characters, (Prod.mk.inj same).2]
    decide +kernel
  refine ⟨by decide +kernel, relexed, token, member, same, ?_⟩
  rw [← isStop]
  exact alone token member

end ScalarLang
