import ScalarLang.Proofs.Lexing.Patterns

/-!
# Scanning follows the rules of tokens

The lexeme at the start of a text is what the first rule takes that matches a beginning
of the text.  Only a quote that opens no string and a sign that opens no comment are
faults of their own, although the second begins with a sign that is a token.
-/

set_option autoImplicit false

namespace ScalarLang

open TokenRule

/-! ## The first character of what a rule matches -/

namespace TokenRule

variable {rule : TokenRule} {first : Char} {rest : List Char}

/-- What a text has to begin with for a rule to match; only the rules for numbers, strings
and comments ask for more. -/
def Starts (rule : TokenRule) (first : Char) (rest : List Char) : Prop :=
  match rule with
  | .word => WordStart first
  | .float | .integer => Digit first
  | .string => first = '"'
  | .blanks => Blank first
  | .newline => first = '\n'
  | .comment => first = '/' ∧ (rest.head? = some '/' ∨ rest.head? = some '*')
  | .cluster => ∃ cluster ∈ Lexeme.clusters, cluster.1 <+: first :: rest
  | .sign => first ∈ signs.toList

theorem Applies.starts (applies : rule.Applies (first :: rest)) : rule.Starts first rest := by
  obtain ⟨pattern, isPattern, found, isFound⟩ := applies
  have starts : ∀ {start others}, found = start :: others → first = start := fun isText =>
    (List.cons_prefix_cons.mp (isText ▸ isFound.begins)).1.symm
  cases rule with
  | word =>
      obtain rfl := List.mem_singleton.mp isPattern
      obtain ⟨start, others, isText, isStart, -⟩ := mem_word.mp isFound.isText
      exact (starts isText).symm ▸ isStart
  | float =>
      obtain rfl := List.mem_singleton.mp isPattern
      obtain ⟨whole, _, isText, someWhole, -, areDigits, -⟩ := mem_float.mp isFound.isText
      obtain ⟨start, others, rfl⟩ := List.exists_cons_of_ne_nil someWhole
      exact (starts isText).symm ▸ areDigits start List.mem_cons_self
  | integer =>
      obtain rfl := List.mem_singleton.mp isPattern
      obtain ⟨someDigit, areDigits⟩ := mem_repeated_one.mp isFound.isText
      obtain ⟨start, others, rfl⟩ := List.exists_cons_of_ne_nil someDigit
      exact (starts rfl).symm ▸ areDigits start List.mem_cons_self
  | string =>
      obtain rfl := List.mem_singleton.mp isPattern
      obtain ⟨quoted, isText, -⟩ := mem_string.mp isFound.isText
      exact starts isText
  | blanks =>
      obtain rfl := List.mem_singleton.mp isPattern
      obtain ⟨someBlank, areBlanks⟩ := mem_repeated_one.mp isFound.isText
      obtain ⟨start, others, rfl⟩ := List.exists_cons_of_ne_nil someBlank
      exact (starts rfl).symm ▸ areBlanks start List.mem_cons_self
  | newline =>
      obtain rfl := List.mem_singleton.mp isPattern
      exact starts (mem_exactly.mp isFound.isText)
  | comment =>
      rcases Lexeme.comment_matches ⟨pattern, isPattern, isFound⟩ with
        ⟨body, more, isText⟩ | ⟨body, more, isText⟩ <;> cases isText
      · exact ⟨rfl, .inl rfl⟩
      · exact ⟨rfl, .inr rfl⟩
  | cluster => exact Lexeme.cluster_applies_iff.mp ⟨pattern, isPattern, found, isFound⟩
  | sign =>
      obtain rfl := List.mem_singleton.mp isPattern
      obtain ⟨start, isSign, isText⟩ := isFound.isText
      exact (starts isText).symm ▸ isSign

/-- A rule is the first one where no earlier rule could start. -/
theorem Applies.isFirst (applies : rule.Applies (first :: rest))
    (noEarlier : ∀ earlier ∈ order.takeWhile (· ≠ rule), ¬ earlier.Starts first rest) :
    rule.IsFirst (first :: rest) where
  applies := applies
  noEarlier := fun earlier member earlierApplies => noEarlier earlier member earlierApplies.starts

end TokenRule

/-! ## What a text begins with -/

inductive Unterminated (text : List Char) : LexFault → Prop
  | string (opens : ['"'] <+: text) (noString : ¬ TokenRule.string.Applies text) :
      Unterminated text .unterminatedString
  | comment (opens : ['/', '*'] <+: text) (noComment : ¬ TokenRule.comment.Applies text) :
      Unterminated text .unterminatedComment

/-- The token that a text begins with by the first rule that matches, or its fault. -/
inductive Begins (text : List Char) : Except LexFault Lexeme → Prop
  | token {rule : TokenRule} {found : List Char} {lexeme : Lexeme}
      (closed : ∀ fault, ¬ Unterminated text fault) (isFirst : rule.IsFirst text)
      (picks : rule.Picks text found) (gives : rule.Gives found lexeme.kind)
      (length : found.length = lexeme.tail + 1) : Begins text (.ok lexeme)
  | unterminated {fault : LexFault} (opened : Unterminated text fault) : Begins text (.error fault)
  | unexpected {first : Char} {rest : List Char} (isText : text = first :: rest)
      (closed : ∀ fault, ¬ Unterminated text fault) (noRule : ∀ rule : TokenRule,
        ¬ rule.Applies text) : Begins text (.error (.unexpectedChar first))

section Begins

variable {first : Char} {rest : List Char}

theorem not_unterminated (closesString : first = '"' → TokenRule.string.Applies (first :: rest))
    (closesComment : first = '/' ∧ rest.head? = some '*' →
      TokenRule.comment.Applies (first :: rest)) (fault : LexFault) :
    ¬ Unterminated (first :: rest) fault := by
  rintro (⟨opens, noString⟩ | ⟨opens, noComment⟩)
  · exact noString (closesString (List.cons_prefix_cons.mp opens).1.symm)
  · obtain ⟨rfl, more, rfl⟩ := List.cons_prefix_cons.mp opens
    exact noComment (closesComment ⟨rfl, rfl⟩)

/-- A token begins a text that opens neither a string nor a comment. -/
theorem Begins.of_picks {rule : TokenRule} {found : List Char} {lexeme : Lexeme}
    (noQuote : first ≠ '"') (noComment : ¬ (first = '/' ∧ rest.head? = some '*'))
    (isFirst : rule.IsFirst (first :: rest)) (picks : rule.Picks (first :: rest) found)
    (gives : rule.Gives found lexeme.kind) (length : found.length = lexeme.tail + 1) :
    Begins (first :: rest) (.ok lexeme) :=
  .token (not_unterminated (fun isQuote => absurd isQuote noQuote)
    fun isComment => absurd isComment noComment) isFirst picks gives length

namespace Lexeme

theorem wordKind_eq (first : Char) (others : List Char) :
    WordKind (first :: others) (wordKind first others) := by
  have isKeyword_iff : ∀ keyword : Keyword,
      (keyword.text == String.ofList (first :: others)) = true ↔
        keyword.text.toList = first :: others := by
    intro keyword
    rw [beq_iff_eq, ← String.toList_inj, String.toList_ofList]
  have isTruth_iff : ∀ word : String, (String.ofList (first :: others) == word) = true ↔
      first :: others = word.toList := by
    intro word
    rw [beq_iff_eq, ← String.toList_inj, String.toList_ofList]
  unfold wordKind kindOfWord
  split
  · rename_i keyword isKeyword
    unfold Keyword.ofWord? at isKeyword
    have isWord := List.find?_some isKeyword
    exact .keyword keyword ((isKeyword_iff keyword).mp isWord)
  rename_i isKeyword
  have noKeyword : ∀ keyword : Keyword, keyword.text.toList ≠ first :: others := by
    intro keyword isWord
    have member : keyword ∈ Keyword.all := by cases keyword <;> decide
    exact List.find?_eq_none.mp isKeyword keyword member ((isKeyword_iff keyword).mpr isWord)
  split <;> rename_i truth <;> rw [Bool.or_eq_true, isTruth_iff, isTruth_iff] at truth
  · exact .boolean noKeyword truth
  have noTruth := not_or.mp truth
  split <;> rename_i capital <;> rw [isUpper_iff] at capital
  · exact .typeName noKeyword noTruth ⟨first, others, rfl, capital⟩
  · refine .identifier noKeyword noTruth ?_
    rintro _ _ ⟨⟩ isCapital
    exact capital isCapital

theorem word_begins (isStart : isWordStart first = true) :
    Begins (first :: rest) (.ok (word first rest)) := by
  have start := isWordStart_iff.mp isStart
  refine .of_picks ?_ ?_ ((picks_word start).applies.isFirst ?_) (picks_word start)
    (wordKind_eq first _) rfl
  · rintro rfl
    exact absurd start (by decide)
  · rintro ⟨rfl, -⟩
    exact absurd start (by decide)
  · intro earlier member
    cases member

theorem number_begins (noWord : ¬ isWordStart first = true) (isStart : isDigit first = true) :
    Begins (first :: rest) (.ok (number rest)) := by
  have start := isDigit_iff.mp isStart
  have noQuote : first ≠ '"' := by
    rintro rfl
    exact absurd start (by decide)
  have noComment : ¬ (first = '/' ∧ rest.head? = some '*') := by
    rintro ⟨rfl, -⟩
    exact absurd start (by decide)
  have noWordApplies : ¬ TokenRule.word.Applies (first :: rest) := fun applies =>
    noWord (isWordStart_iff.mpr applies.starts)
  unfold number
  dsimp only
  split <;> rename_i fraction
  · -- No decimals follow, so the rule for floats that comes first does not match.
    have picks : TokenRule.integer.Picks (first :: rest) _ :=
      ⟨_, List.mem_singleton_self _, picks_run (fun _ => isDigit_iff) start⟩
    refine .of_picks noQuote noComment ⟨picks.applies, ?_⟩ picks rfl rfl
    have noFloat : ¬ TokenRule.float.Applies (first :: rest) := by
      rintro ⟨pattern, isPattern, found, isFound⟩
      exact (float_matches ⟨pattern, isPattern, isFound⟩).1 (List.isEmpty_iff.mp fraction)
    intro earlier member
    rcases List.mem_pair.mp member with rfl | rfl
    · exact noWordApplies
    · exact noFloat
  · have picks := picks_float start (mt List.isEmpty_iff.mpr fraction)
    refine .of_picks noQuote noComment ⟨picks.applies, ?_⟩ picks rfl ?_
    · intro earlier member
      obtain rfl := List.mem_singleton.mp member
      exact noWordApplies
    · simp only [List.length_append, List.length_cons]
      omega

theorem string_begins {tail : Nat} (isTail : stringTail rest = some tail) :
    Begins ('"' :: rest) (.ok ⟨.string, tail⟩) := by
  obtain ⟨found, picks, length⟩ := picks_string isTail
  refine .token (not_unterminated (fun _ => picks.applies) ?_) (picks.applies.isFirst ?_)
    picks rfl length
  · rintro ⟨isSlash, -⟩
    exact absurd isSlash (by decide)
  · intro earlier member
    have isEarlier : earlier ∈ [.word, .float, .integer] := member
    simp only [List.mem_cons, List.not_mem_nil, or_false] at isEarlier
    rcases isEarlier with rfl | rfl | rfl <;> simp only [Starts] <;> decide

theorem openString_begins (noTail : stringTail rest = none) :
    Begins ('"' :: rest) (.error .unterminatedString) := by
  refine .unterminated (.string (by simp) fun applies => ?_)
  obtain ⟨tail, isTail⟩ := string_applies_iff.mp applies
  rw [noTail] at isTail
  cases isTail

theorem blanks_begin (noWord : ¬ isWordStart first = true) (noNumber : ¬ isDigit first = true)
    (noQuote : first ≠ '"') (isStart : isBlank first = true) :
    Begins (first :: rest) (.ok ⟨.whitespace, (rest.takeWhile isBlank).length⟩) := by
  have picks : TokenRule.blanks.Picks (first :: rest) _ :=
    ⟨_, List.mem_singleton_self _, picks_run (fun _ => isBlank_iff) (isBlank_iff.mp isStart)⟩
  rw [isWordStart_iff] at noWord
  rw [isDigit_iff] at noNumber
  refine .of_picks noQuote ?_ (picks.applies.isFirst ?_) picks rfl rfl
  · rintro ⟨rfl, -⟩
    exact absurd isStart (by decide)
  · simp [order, Starts, noWord, noNumber, noQuote]

theorem newline_begins : Begins ('\n' :: rest) (.ok ⟨.newline, 0⟩) := by
  have picks : TokenRule.newline.Picks ('\n' :: rest) ['\n'] := by
    refine ⟨_, List.mem_singleton_self _, ⟨by simp, rfl⟩, ?_⟩
    intro other found
    rw [mem_exactly.mp found.isText]
    exact Nat.le_refl 1
  refine .of_picks (by decide) ?_ (picks.applies.isFirst ?_) picks rfl rfl
  · rintro ⟨isSlash, -⟩
    exact absurd isSlash (by decide)
  · intro earlier member
    have isEarlier : earlier ∈ [.word, .float, .integer, .string, .blanks] := member
    simp only [List.mem_cons, List.not_mem_nil, or_false] at isEarlier
    rcases isEarlier with rfl | rfl | rfl | rfl | rfl <;> simp only [Starts] <;> decide

theorem slash_isFirst {text : List Char} (applies : TokenRule.comment.Applies ('/' :: text)) :
    TokenRule.comment.IsFirst ('/' :: text) := by
  refine applies.isFirst ?_
  intro earlier member
  have isEarlier : earlier ∈ [.word, .float, .integer, .string, .blanks, .newline] := member
  simp only [List.mem_cons, List.not_mem_nil, or_false] at isEarlier
  rcases isEarlier with rfl | rfl | rfl | rfl | rfl | rfl <;> simp only [Starts] <;> decide

theorem lineComment_begins : Begins ('/' :: '/' :: rest)
    (.ok ⟨.comment, (('/' :: rest).takeWhile (· != '\n')).length⟩) := by
  have picks := @picks_lineComment rest
  exact .of_picks (by decide) (by simp) (slash_isFirst picks.applies) picks rfl rfl

theorem blockComment_begins {tail : Nat} (isTail : commentTail rest = some tail) :
    Begins ('/' :: '*' :: rest) (.ok ⟨.comment, tail + 1⟩) := by
  obtain ⟨found, picks, length⟩ := picks_blockComment isTail
  refine .token (not_unterminated ?_ fun _ => picks.applies) (slash_isFirst picks.applies)
    picks rfl length
  intro isQuote
  exact absurd isQuote (by decide)

theorem openComment_begins (noTail : commentTail rest = none) :
    Begins ('/' :: '*' :: rest) (.error .unterminatedComment) := by
  refine .unterminated (.comment (by simp) fun applies => ?_)
  obtain ⟨tail, isTail⟩ := blockComment_applies_iff.mp applies
  rw [noTail] at isTail
  cases isTail

def OnlySigns (first : Char) (rest : List Char) : Prop :=
  ∀ rule : TokenRule, rule ≠ .cluster → rule ≠ .sign → ¬ rule.Starts first rest

theorem OnlySigns.noComment (onlySigns : OnlySigns first rest) :
    ¬ (first = '/' ∧ rest.head? = some '*') := fun opens =>
  onlySigns .comment (by decide) (by decide) ⟨opens.1, .inr opens.2⟩

theorem OnlySigns.noQuote (onlySigns : OnlySigns first rest) : first ≠ '"' :=
  onlySigns .string (by decide) (by decide)

theorem OnlySigns.not_applies {rule : TokenRule} (onlySigns : OnlySigns first rest)
    (noCluster : rule ≠ .cluster) (noSign : rule ≠ .sign) : ¬ rule.Applies (first :: rest) :=
  fun applies => onlySigns rule noCluster noSign applies.starts

theorem sign_begins {lexeme : Lexeme} (onlySigns : OnlySigns first rest)
    (isLexeme : sign? first rest = some lexeme) : Begins (first :: rest) (.ok lexeme) := by
  unfold sign? at isLexeme
  split at isLexeme
  · rename_i text kind isFound
    cases isLexeme
    have isCluster := List.mem_of_find?_eq_some isFound
    have starts := List.find?_some isFound
    have picks := picks_cluster isCluster (List.isPrefixOf_iff_prefix.mp starts)
    refine .of_picks onlySigns.noQuote onlySigns.noComment ⟨picks.applies, ?_⟩ picks
      (clusters_fixedText _ isCluster) ?_
    · intro earlier member
      apply onlySigns.not_applies <;> rintro rfl <;> exact absurd member (by decide)
    · have someText : ∀ cluster ∈ clusters, cluster.1.length ≠ 0 := by decide
      exact (Nat.succ_pred (someText _ isCluster)).symm
  · rename_i noCluster
    obtain ⟨kind, isKind, rfl⟩ := Option.map_eq_some_iff.mp isLexeme
    obtain ⟨isSign, isText⟩ := singleKind?_eq_some isKind
    have picks := @picks_sign first rest isSign
    refine .of_picks onlySigns.noQuote onlySigns.noComment ⟨picks.applies, ?_⟩ picks isText rfl
    intro earlier member
    by_cases isCluster : earlier = .cluster
    · rw [isCluster]
      exact find?_cluster_eq_none_iff.mp noCluster
    · apply onlySigns.not_applies isCluster
      rintro rfl
      exact absurd member (by decide)

theorem noSign_begins (onlySigns : OnlySigns first rest) (noLexeme : sign? first rest = none) :
    Begins (first :: rest) (.error (.unexpectedChar first)) := by
  unfold sign? at noLexeme
  split at noLexeme
  · cases noLexeme
  rename_i noCluster
  have noKind := Option.map_eq_none_iff.mp noLexeme
  refine .unexpected rfl (not_unterminated (fun isQuote => absurd isQuote onlySigns.noQuote)
    fun isComment => absurd isComment onlySigns.noComment) ?_
  intro rule
  by_cases isCluster : rule = .cluster
  · rw [isCluster]
    exact find?_cluster_eq_none_iff.mp noCluster
  by_cases isSign : rule = .sign
  · rw [isSign]
    intro applies
    have some := exists_singleKind? first applies.starts
    rw [noKind] at some
    cases some
  exact onlySigns.not_applies isCluster isSign

/-! ## Scanning -/

theorem scan_begins (first : Char) (rest : List Char) :
    Begins (first :: rest) (scan first rest) := by
  unfold scan
  split
  · rename_i isStart
    exact word_begins isStart
  rename_i noWord
  split
  · rename_i isStart
    exact number_begins noWord isStart
  rename_i noNumber
  split
  · rename_i isQuote
    subst isQuote
    split <;> rename_i isTail
    · exact string_begins isTail
    · exact openString_begins isTail
  rename_i noQuote
  split
  · rename_i isStart
    exact blanks_begin noWord noNumber noQuote isStart
  rename_i noBlank
  split
  · rename_i isNewline
    subst isNewline
    exact newline_begins
  rename_i noNewline
  split
  · rename_i opens
    obtain ⟨rfl, isRest⟩ := opens
    obtain ⟨others, rfl⟩ := List.head?_eq_some_iff.mp isRest
    exact lineComment_begins
  rename_i noLine
  split
  · rename_i opens
    obtain ⟨rfl, isRest⟩ := opens
    obtain ⟨others, rfl⟩ := List.head?_eq_some_iff.mp isRest
    split <;> rename_i isTail
    · exact blockComment_begins isTail
    · exact openComment_begins isTail
  rename_i noBlock
  have onlySigns : OnlySigns first rest := by
    intro rule noCluster noSign starts
    cases rule with
    | word => exact noWord (isWordStart_iff.mpr starts)
    | float => exact noNumber (isDigit_iff.mpr starts)
    | integer => exact noNumber (isDigit_iff.mpr starts)
    | string => exact noQuote starts
    | blanks => exact noBlank (isBlank_iff.mpr starts)
    | newline => exact noNewline starts
    | comment => exact starts.2.elim (noLine ⟨starts.1, ·⟩) (noBlock ⟨starts.1, ·⟩)
    | cluster => exact noCluster rfl
    | sign => exact noSign rfl
  split <;> rename_i isLexeme
  · exact sign_begins onlySigns isLexeme
  · exact noSign_begins onlySigns isLexeme

end Lexeme

end Begins

/-! ## Only one token begins a text -/

def Lexeme.kindOf? : List Char → Option TokenKind
  | [] => none
  | first :: rest => (Lexeme.scan first rest).toOption.map Lexeme.kind

theorem TokenKind.kindOf?_fixedText {kind : TokenKind} {text : String}
    (isText : kind.fixedText? = some text) : Lexeme.kindOf? text.toList = some kind := by
  cases kind <;> cases isText
  case keyword word => cases word <;> rfl
  case operator sign => cases sign <;> rfl
  case symbol sign => cases sign <;> rfl

theorem TokenKind.fixedText?_inj {kind other : TokenKind} {text : String}
    (isText : kind.fixedText? = some text) (isOther : other.fixedText? = some text) :
    kind = other := by
  have same := kindOf?_fixedText isText
  rw [kindOf?_fixedText isOther] at same
  exact (Option.some.inj same).symm

namespace TokenRule

variable {text found other : List Char}

theorem WordKind.unique {kind otherKind : TokenKind} (isKind : WordKind text kind)
    (isOther : WordKind text otherKind) : kind = otherKind := by
  cases isKind with
  | keyword word isWord =>
      cases isOther with
      | keyword otherWord isOtherWord =>
          have sameText : otherWord.text = word.text :=
            String.toList_inj.mp (isOtherWord.trans isWord.symm)
          exact TokenKind.fixedText?_inj rfl (congrArg some sameText)
      | _ noKeyword => exact absurd isWord (noKeyword word)
  | boolean noKeyword isTruth =>
      cases isOther with
      | keyword word isWord => exact absurd isWord (noKeyword word)
      | boolean => rfl
      | _ _ noTruth => exact absurd isTruth (not_or.mpr noTruth)
  | typeName noKeyword noTruth capital =>
      cases isOther with
      | keyword word isWord => exact absurd isWord (noKeyword word)
      | boolean _ isTruth => exact absurd isTruth (not_or.mpr noTruth)
      | typeName => rfl
      | identifier _ _ noCapital =>
          obtain ⟨first, rest, isText, isCapital⟩ := capital
          exact absurd isCapital (noCapital first rest isText)
  | identifier noKeyword noTruth noCapital =>
      cases isOther with
      | keyword word isWord => exact absurd isWord (noKeyword word)
      | boolean _ isTruth => exact absurd isTruth (not_or.mpr noTruth)
      | typeName _ _ capital =>
          obtain ⟨first, rest, isText, isCapital⟩ := capital
          exact absurd isCapital (noCapital first rest isText)
      | identifier => rfl

theorem Gives.unique {rule : TokenRule} {kind otherKind : TokenKind}
    (gives : rule.Gives text kind) (givesOther : rule.Gives text otherKind) :
    kind = otherKind := by
  cases rule with
  | word => exact WordKind.unique gives givesOther
  | cluster => exact TokenKind.fixedText?_inj gives givesOther
  | sign => exact TokenKind.fixedText?_inj gives givesOther
  | _ => exact gives.trans givesOther.symm

/-- The two alternatives of a comment differ in the second character. -/
theorem pattern_unique {rule : TokenRule} {pattern otherPattern : TokenPattern}
    (isPattern : pattern ∈ rule.patterns) (isOther : otherPattern ∈ rule.patterns)
    (isFound : pattern.Matches text found) (isFoundOther : otherPattern.Matches text other) :
    pattern = otherPattern := by
  by_cases isComment : rule = .comment
  · subst isComment
    have different : ∀ line block, '/' :: '/' :: line <+: text →
        ¬ '/' :: '*' :: block <+: text := by
      intro line block begins beginsOther
      rcases List.prefix_or_prefix_of_prefix begins beginsOther with shorter | longer
      · simp at shorter
      · simp at longer
    rcases List.mem_pair.mp isPattern with rfl | rfl <;>
      rcases List.mem_pair.mp isOther with rfl | rfl
    · rfl
    · obtain ⟨line, rfl, -⟩ := mem_lineComment.mp isFound.isText
      obtain ⟨block, rfl⟩ := mem_blockComment.mp isFoundOther.isText
      exact absurd isFoundOther.begins (different _ _ isFound.begins)
    · obtain ⟨block, rfl⟩ := mem_blockComment.mp isFound.isText
      obtain ⟨line, rfl, -⟩ := mem_lineComment.mp isFoundOther.isText
      exact absurd isFound.begins (different _ _ isFoundOther.begins)
    · rfl
  · have single : ∃ only, rule.patterns = [only] := by
      cases rule <;> first | exact ⟨_, rfl⟩ | exact absurd rfl isComment
    obtain ⟨only, isOnly⟩ := single
    rw [isOnly, List.mem_singleton] at isPattern isOther
    rw [isPattern, isOther]

theorem Picks.found_unique {rule : TokenRule} (picks : rule.Picks text found)
    (picksOther : rule.Picks text other) : found = other := by
  obtain ⟨pattern, isPattern, picks⟩ := picks
  obtain ⟨otherPattern, isOther, picksOther⟩ := picksOther
  obtain rfl := pattern_unique isPattern isOther picks.toMatches picksOther.toMatches
  exact picks.unique picksOther

end TokenRule

theorem Unterminated.unique {text : List Char} {fault other : LexFault}
    (opened : Unterminated text fault) (openedOther : Unterminated text other) :
    fault = other := by
  cases opened with
  | string opens =>
      cases openedOther with
      | string => rfl
      | comment opensOther =>
          obtain ⟨more, rfl⟩ := opens
          simp at opensOther
  | comment opens =>
      cases openedOther with
      | string opensOther =>
          obtain ⟨more, rfl⟩ := opens
          simp at opensOther
      | comment => rfl

theorem Begins.unique {text : List Char} {outcome other : Except LexFault Lexeme}
    (begins : Begins text outcome) (beginsOther : Begins text other) : outcome = other := by
  cases begins with
  | @token rule found lexeme closed isFirst picks gives length =>
      cases beginsOther with
      | @token otherRule otherFound otherLexeme _ isFirstOther picksOther givesOther lengthOther =>
          obtain rfl := isFirst.unique isFirstOther
          obtain rfl := picks.found_unique picksOther
          have sameKind := gives.unique givesOther
          have sameTail : lexeme.tail = otherLexeme.tail := by omega
          cases lexeme
          cases otherLexeme
          simp_all
      | unterminated opened => exact absurd opened (closed _)
      | unexpected _ _ noRule => exact absurd isFirst.applies (noRule rule)
  | unterminated opened =>
      cases beginsOther with
      | token closed => exact absurd opened (closed _)
      | unterminated openedOther => rw [opened.unique openedOther]
      | unexpected _ closed => exact absurd opened (closed _)
  | unexpected isText closed noRule =>
      cases beginsOther with
      | @token otherRule _ _ _ isFirst => exact absurd isFirst.applies (noRule otherRule)
      | unterminated opened => exact absurd opened (closed _)
      | unexpected isTextOther =>
          cases isText.symm.trans isTextOther
          rfl

namespace Lexeme

theorem scan_eq_iff {first : Char} {rest : List Char} {outcome : Except LexFault Lexeme} :
    scan first rest = outcome ↔ Begins (first :: rest) outcome := by
  constructor
  · rintro rfl
    exact scan_begins first rest
  · intro begins
    exact (scan_begins first rest).unique begins

/-- A text begins with a lexeme exactly if some rule is the first one to match there, and
the lexeme is what this rule takes; a fault is a string or a comment that is never closed,
or a character at which no rule matches. -/
theorem scan_follows_rules (first : Char) (rest : List Char) :
    (∀ lexeme, scan first rest = .ok lexeme ↔
      (∀ fault, ¬ Unterminated (first :: rest) fault) ∧
        ∃ rule : TokenRule, rule.IsFirst (first :: rest) ∧
          ∃ found, rule.Picks (first :: rest) found ∧ rule.Gives found lexeme.kind ∧
            found.length = lexeme.tail + 1) ∧
      (scan first rest = .error .unterminatedString ↔
        ['"'] <+: first :: rest ∧ ¬ TokenRule.string.Applies (first :: rest)) ∧
      (scan first rest = .error .unterminatedComment ↔
        ['/', '*'] <+: first :: rest ∧ ¬ TokenRule.comment.Applies (first :: rest)) ∧
      ∀ character, scan first rest = .error (.unexpectedChar character) ↔
        character = first ∧ (∀ fault, ¬ Unterminated (first :: rest) fault) ∧
          ∀ rule : TokenRule, ¬ rule.Applies (first :: rest) := by
  simp only [scan_eq_iff]
  refine ⟨fun lexeme => ⟨?_, ?_⟩, ⟨?_, ?_⟩, ⟨?_, ?_⟩, fun character => ⟨?_, ?_⟩⟩
  · intro begins
    cases begins with
    | token closed isFirst picks gives length =>
        exact ⟨closed, _, isFirst, _, picks, gives, length⟩
  · rintro ⟨closed, rule, isFirst, found, picks, gives, length⟩
    exact .token closed isFirst picks gives length
  · intro begins
    cases begins with
    | unterminated opened =>
        cases opened with
        | string opens noString => exact ⟨opens, noString⟩
  · rintro ⟨opens, noString⟩
    exact .unterminated (.string opens noString)
  · intro begins
    cases begins with
    | unterminated opened =>
        cases opened with
        | comment opens noComment => exact ⟨opens, noComment⟩
  · rintro ⟨opens, noComment⟩
    exact .unterminated (.comment opens noComment)
  · intro begins
    cases begins with
    | unterminated opened => cases opened
    | unexpected isText closed noRule =>
        cases isText
        exact ⟨rfl, closed, noRule⟩
  · rintro ⟨rfl, closed, noRule⟩
    exact .unexpected rfl closed noRule

/-- A point without a digit after it is not part of a number. -/
example : scan '1' "..<5".toList = .ok ⟨.integer, 0⟩ := by decide

/-- The sign that opens a comment does not close it. -/
example : scan '/' "*/".toList = .error .unterminatedComment := by decide

end Lexeme

end ScalarLang
