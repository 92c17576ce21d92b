import Mathlib.Data.List.TakeWhile
import ScalarLang.Proofs.Lexing.Rules
import ScalarLang.Proofs.Lexing.Scanning

/-!
# What the scanners of tokens take

Each rule of tokens has a scanner of its own: a longest run of characters, the decimals of
a number, a search for what closes a string or a comment, a table of signs.  What it takes
from a text is what the rule picks, and it takes nothing exactly where the rule matches
nothing.
-/

set_option autoImplicit false

namespace ScalarLang

open TokenRule

/-! ## Classes of characters -/

namespace Lexeme

variable {character first : Char} {rest : List Char}

theorem mem_of_between {low high : Char} (atLeast : low ≤ character) (atMost : character ≤ high) :
    character ∈ (List.range' low.toNat (high.toNat + 1 - low.toNat)).map Char.ofNat := by
  refine List.mem_map.mpr ⟨character.toNat, ?_, Char.ofNat_toNat character⟩
  have above : low.toNat ≤ character.toNat := atLeast
  have below : character.toNat ≤ high.toNat := atMost
  rw [List.mem_range'_1]
  omega

theorem isDigit_iff : isDigit character = true ↔ Digit character := by
  constructor
  · intro isDigit
    simp only [Lexeme.isDigit, Bool.and_eq_true, decide_eq_true_eq] at isDigit
    exact mem_of_between isDigit.1 isDigit.2
  · exact List.all_eq_true.mp (by decide) character

theorem isUpper_iff : isUpper character = true ↔ Capital character := by
  constructor
  · intro isUpper
    simp only [Lexeme.isUpper, Bool.and_eq_true, decide_eq_true_eq] at isUpper
    exact mem_of_between isUpper.1 isUpper.2
  · exact List.all_eq_true.mp (by decide) character

theorem isLower_iff : isLower character = true ↔ Lowercase character := by
  constructor
  · intro isLower
    simp only [Lexeme.isLower, Bool.and_eq_true, decide_eq_true_eq] at isLower
    exact mem_of_between isLower.1 isLower.2
  · exact List.all_eq_true.mp (by decide) character

theorem isWordStart_iff : isWordStart character = true ↔ WordStart character := by
  simp only [isWordStart, WordStart, Bool.or_eq_true, beq_iff_eq, isUpper_iff, isLower_iff,
    or_assoc]

theorem isWordPart_iff : isWordPart character = true ↔ WordPart character := by
  simp only [isWordPart, WordPart, Bool.or_eq_true, isWordStart_iff, isDigit_iff]

theorem isBlank_iff : isBlank character = true ↔ Blank character := by
  simp [isBlank, Blank, or_assoc]

/-! ## Words and blanks -/

/-- A run of accepted characters is no longer than the longest one. -/
theorem length_le_takeWhile {accepts : Char → Bool} {run text : List Char} (begins : run <+: text)
    (accepted : ∀ character ∈ run, accepts character = true) :
    run.length ≤ (text.takeWhile accepts).length := by
  obtain ⟨more, rfl⟩ := begins
  rw [List.takeWhile_append_of_pos accepted, List.length_append]
  exact Nat.le_add_right _ _

theorem takeWhile_begins (accepts : Char → Bool) :
    first :: rest.takeWhile accepts <+: first :: rest :=
  List.cons_prefix_cons.mpr ⟨rfl, List.takeWhile_prefix accepts⟩

theorem picks_word (isStart : WordStart first) :
    TokenRule.word.Picks (first :: rest) (first :: rest.takeWhile isWordPart) := by
  refine ⟨_, List.mem_singleton_self _, ⟨takeWhile_begins isWordPart, mem_word.mpr ?_⟩, ?_⟩
  · refine ⟨first, _, rfl, isStart, ?_⟩
    intro character member
    exact isWordPart_iff.mp (List.mem_takeWhile_imp member)
  · intro other found
    obtain ⟨start, others, rfl, -, areParts⟩ := mem_word.mp found.isText
    have begins := (List.cons_prefix_cons.mp found.begins).2
    have bound := length_le_takeWhile begins fun character member =>
      isWordPart_iff.mpr (areParts character member)
    simpa using bound

/-- The longest run of the characters of a class. -/
theorem picks_run {accepts : Char → Bool} {inClass : Char → Prop}
    (accepts_iff : ∀ character, accepts character = true ↔ inClass character)
    (isFirst : inClass first) :
    TokenPattern.Picks ⟨repeated (one inClass), true⟩ (first :: rest)
      (first :: rest.takeWhile accepts) := by
  refine ⟨⟨takeWhile_begins accepts, mem_repeated_one.mpr ⟨by simp, ?_⟩⟩, ?_⟩
  · refine List.forall_mem_cons.mpr ⟨isFirst, ?_⟩
    intro character member
    exact (accepts_iff character).mp (List.mem_takeWhile_imp member)
  · intro other found
    obtain ⟨-, areInClass⟩ := mem_repeated_one.mp found.isText
    have bound := length_le_takeWhile found.begins fun character member =>
      (accepts_iff character).mpr (areInClass character member)
    rwa [List.takeWhile_cons_of_pos ((accepts_iff first).mpr isFirst)] at bound

/-! ## Numbers -/

/-- What the rule for floats finds is the digits, the point and some of the decimals that
are read. -/
theorem float_matches {found : List Char}
    (isFound : ∃ pattern ∈ TokenRule.float.patterns, pattern.Matches (first :: rest) found) :
    decimals (rest.drop (rest.takeWhile isDigit).length) ≠ [] ∧
      found.length ≤ (rest.takeWhile isDigit).length + 2 +
        (decimals (rest.drop (rest.takeWhile isDigit).length)).length := by
  obtain ⟨pattern, isPattern, found⟩ := isFound
  obtain rfl := List.mem_singleton.mp isPattern
  obtain ⟨whole, fraction, rfl, someWhole, someFraction, areDigits, areDecimals⟩ :=
    mem_float.mp found.isText
  obtain ⟨start, others, rfl⟩ := List.exists_cons_of_ne_nil someWhole
  obtain ⟨-, more, isRest⟩ := List.cons_prefix_cons.mp found.begins
  obtain rfl : others ++ '.' :: fraction ++ more = rest := isRest
  have othersAreDigits : ∀ character ∈ others, isDigit character = true := fun character member =>
    isDigit_iff.mpr (areDigits character (List.mem_cons_of_mem _ member))
  have sameWhole : (others ++ '.' :: fraction ++ more).takeWhile isDigit = others := by
    rw [List.append_assoc, List.takeWhile_append_of_pos othersAreDigits, List.cons_append,
      List.takeWhile_cons_of_neg (by decide), List.append_nil]
  have sameDecimals : decimals ((others ++ '.' :: fraction ++ more).drop others.length) =
      (fraction ++ more).takeWhile isDigit := by
    rw [List.append_assoc, List.drop_left]
    rfl
  have bound : fraction.length ≤ ((fraction ++ more).takeWhile isDigit).length :=
    length_le_takeWhile (List.prefix_append fraction more) fun character member =>
      isDigit_iff.mpr (areDecimals character member)
  rw [sameWhole, sameDecimals]
  refine ⟨?_, ?_⟩
  · intro none
    rw [none] at bound
    exact someFraction (List.length_eq_zero_iff.mp (Nat.le_zero.mp bound))
  · simp only [List.length_append, List.length_cons]
    omega

theorem exists_point_of_decimals {text : List Char} (some : decimals text ≠ []) :
    ∃ more, text = '.' :: more ∧ decimals text = more.takeWhile isDigit := by
  unfold decimals at some ⊢
  split at some
  · exact ⟨_, rfl, rfl⟩
  · exact absurd rfl some

theorem picks_float (isFirst : Digit first)
    (some : decimals (rest.drop (rest.takeWhile isDigit).length) ≠ []) :
    TokenRule.float.Picks (first :: rest) (first :: rest.takeWhile isDigit ++
      '.' :: decimals (rest.drop (rest.takeWhile isDigit).length)) := by
  refine ⟨_, List.mem_singleton_self _, ⟨?_, mem_float.mpr ?_⟩, ?_⟩
  · obtain ⟨more, isRest, isFraction⟩ := exists_point_of_decimals some
    refine List.cons_prefix_cons.mpr ⟨rfl, ?_⟩
    calc rest.takeWhile isDigit ++ '.' :: decimals (rest.drop (rest.takeWhile isDigit).length)
        <+: rest.takeWhile isDigit ++ rest.drop (rest.takeWhile isDigit).length := by
          rw [isFraction, isRest]
          exact (List.prefix_append_right_inj _).mpr
            (List.cons_prefix_cons.mpr ⟨rfl, List.takeWhile_prefix isDigit⟩)
      _ = rest := List.prefix_iff_eq_append.mp (List.takeWhile_prefix isDigit)
  · refine ⟨_, _, rfl, by simp, some, ?_, ?_⟩
    · refine List.forall_mem_cons.mpr ⟨isFirst, fun character member => ?_⟩
      exact isDigit_iff.mp (List.mem_takeWhile_imp member)
    · obtain ⟨more, -, isFraction⟩ := exists_point_of_decimals some
      rw [isFraction]
      intro character member
      exact isDigit_iff.mp (List.mem_takeWhile_imp member)
  · intro other found
    have bound := (float_matches ⟨_, List.mem_singleton_self _, found⟩).2
    simp only [List.length_append, List.length_cons]
    exact Nat.le_trans bound (by omega)

/-! ## Strings and comments -/

/-- A string is closed after the characters that are read, or never. -/
theorem stringTail_eq_some_iff {tail : Nat} :
    stringTail rest = some tail ↔ ∃ quoted, Quoted quoted ∧ quoted <+: rest ∧
      quoted.length = tail := by
  constructor
  · fun_induction stringTail rest generalizing tail with
    | case1 => simp
    | case2 rest =>
        intro isTail
        cases isTail
        exact ⟨['"'], .close, by simp, rfl⟩
    | case3 => simp
    | case4 taken others _ inductionHypothesis =>
        intro isTail
        obtain ⟨count, isCount, rfl⟩ := Option.map_eq_some_iff.mp isTail
        obtain ⟨quoted, isQuoted, begins, rfl⟩ := inductionHypothesis isCount
        exact ⟨'\\' :: taken :: quoted, .escaped isQuoted, by simpa using begins, rfl⟩
    | case5 character rest noQuote noEscape inductionHypothesis =>
        intro isTail
        obtain ⟨count, isCount, rfl⟩ := Option.map_eq_some_iff.mp isTail
        obtain ⟨quoted, isQuoted, begins, rfl⟩ := inductionHypothesis isCount
        exact ⟨character :: quoted, .plain noQuote noEscape isQuoted, by simpa using begins, rfl⟩
  · rintro ⟨quoted, isQuoted, ⟨more, rfl⟩, rfl⟩
    induction isQuoted with
    | close => exact stringTail_quote more
    | plain noQuote noEscape _ inductionHypothesis =>
        rw [List.cons_append, stringTail_other noQuote noEscape, inductionHypothesis]
        rfl
    | escaped _ inductionHypothesis =>
        rw [List.cons_append, List.cons_append, stringTail_escape, inductionHypothesis]
        rfl

theorem string_applies_iff :
    TokenRule.string.Applies ('"' :: rest) ↔ ∃ tail, stringTail rest = some tail := by
  constructor
  · rintro ⟨pattern, isPattern, found, isFound⟩
    obtain rfl := List.mem_singleton.mp isPattern
    obtain ⟨quoted, rfl, isQuoted⟩ := mem_string.mp isFound.isText
    have begins := (List.cons_prefix_cons.mp isFound.begins).2
    exact ⟨quoted.length, stringTail_eq_some_iff.mpr ⟨quoted, isQuoted, begins, rfl⟩⟩
  · rintro ⟨tail, isTail⟩
    obtain ⟨quoted, isQuoted, begins, -⟩ := stringTail_eq_some_iff.mp isTail
    exact ⟨_, List.mem_singleton_self _, '"' :: quoted,
      List.cons_prefix_cons.mpr ⟨rfl, begins⟩, mem_string.mpr ⟨quoted, rfl, isQuoted⟩⟩

theorem picks_string {tail : Nat} (isTail : stringTail rest = some tail) :
    ∃ found, TokenRule.string.Picks ('"' :: rest) found ∧ found.length = tail + 1 := by
  obtain ⟨quoted, isQuoted, begins, rfl⟩ := stringTail_eq_some_iff.mp isTail
  refine ⟨'"' :: quoted, ⟨_, List.mem_singleton_self _,
    ⟨List.cons_prefix_cons.mpr ⟨rfl, begins⟩, mem_string.mpr ⟨quoted, rfl, isQuoted⟩⟩, ?_⟩, rfl⟩
  intro other found
  obtain ⟨others, rfl, areQuoted⟩ := mem_string.mp found.isText
  have alsoTail := stringTail_eq_some_iff.mpr
    ⟨others, areQuoted, (List.cons_prefix_cons.mp found.begins).2, rfl⟩
  rw [isTail] at alsoTail
  exact Nat.le_of_eq (by simpa using alsoTail.symm)

theorem exists_body_of_commentTail {text : List Char} {tail : Nat}
    (isTail : commentTail text = some tail) :
    ∃ body, body ++ ['*', '/'] <+: text ∧ tail = body.length + 2 := by
  fun_induction commentTail text generalizing tail with
  | case1 => simp at isTail
  | case2 character rest closes =>
      cases isTail
      obtain ⟨rfl, startsRest⟩ := closes
      obtain ⟨others, rfl⟩ := List.head?_eq_some_iff.mp startsRest
      exact ⟨[], by simp, rfl⟩
  | case3 character rest goesOn inductionHypothesis =>
      obtain ⟨count, isCount, rfl⟩ := Option.map_eq_some_iff.mp isTail
      obtain ⟨body, begins, rfl⟩ := inductionHypothesis isCount
      exact ⟨character :: body, List.cons_prefix_cons.mpr ⟨rfl, begins⟩, rfl⟩

/-- A comment is closed at the first place at which it can be. -/
theorem commentTail_le_of_body (body more : List Char) :
    ∃ tail, commentTail (body ++ ['*', '/'] ++ more) = some tail ∧ tail ≤ body.length + 2 := by
  induction body with
  | nil => exact ⟨2, rfl, Nat.le_refl 2⟩
  | cons character body inductionHypothesis =>
      obtain ⟨tail, isTail, bound⟩ := inductionHypothesis
      rw [List.cons_append, List.cons_append, commentTail]
      split
      · exact ⟨2, rfl, by omega⟩
      · exact ⟨tail + 1, by rw [isTail]; rfl, by rw [List.length_cons]; omega⟩

/-- What matches the rule for comments is a comment up to the end of its line, or one
between signs. -/
theorem comment_matches {text found : List Char}
    (isFound : ∃ pattern ∈ TokenRule.comment.patterns, pattern.Matches text found) :
    (∃ body more, text = '/' :: '/' :: (body ++ more)) ∨
      ∃ body more, text = '/' :: '*' :: (body ++ ['*', '/'] ++ more) := by
  obtain ⟨pattern, isPattern, ⟨more, rfl⟩, isText⟩ := isFound
  rcases List.mem_pair.mp isPattern with rfl | rfl
  · obtain ⟨body, rfl, -⟩ := mem_lineComment.mp isText
    exact .inl ⟨body, more, rfl⟩
  · obtain ⟨body, rfl⟩ := mem_blockComment.mp isText
    exact .inr ⟨body, more, rfl⟩

theorem picks_lineComment :
    TokenRule.comment.Picks ('/' :: '/' :: rest) ('/' :: '/' :: rest.takeWhile (· != '\n')) := by
  refine ⟨_, List.mem_cons_self, ⟨?_, mem_lineComment.mpr ⟨_, rfl, ?_⟩⟩, ?_⟩
  · exact List.cons_prefix_cons.mpr ⟨rfl, takeWhile_begins _⟩
  · intro character member
    simpa using List.mem_takeWhile_imp member
  · intro other found
    obtain ⟨body, rfl, noNewline⟩ := mem_lineComment.mp found.isText
    have begins := (List.cons_prefix_cons.mp (List.cons_prefix_cons.mp found.begins).2).2
    have bound : body.length ≤ (rest.takeWhile (· != '\n')).length :=
      length_le_takeWhile begins (by simpa using noNewline)
    simpa using bound

theorem blockComment_applies_iff :
    TokenRule.comment.Applies ('/' :: '*' :: rest) ↔ ∃ tail, commentTail rest = some tail := by
  constructor
  · rintro ⟨pattern, isPattern, found, isFound⟩
    rcases comment_matches ⟨pattern, isPattern, isFound⟩ with ⟨_, _, isText⟩ | ⟨body, more, isText⟩
    · simp at isText
    · cases isText
      obtain ⟨tail, isTail, -⟩ := commentTail_le_of_body body more
      exact ⟨tail, isTail⟩
  · rintro ⟨tail, isTail⟩
    obtain ⟨body, begins, -⟩ := exists_body_of_commentTail isTail
    exact ⟨_, List.mem_cons_of_mem _ List.mem_cons_self, '/' :: '*' :: (body ++ ['*', '/']),
      by simpa using begins, mem_blockComment.mpr ⟨body, rfl⟩⟩

theorem picks_blockComment {tail : Nat} (isTail : commentTail rest = some tail) :
    ∃ found, TokenRule.comment.Picks ('/' :: '*' :: rest) found ∧ found.length = tail + 2 := by
  obtain ⟨body, begins, rfl⟩ := exists_body_of_commentTail isTail
  refine ⟨'/' :: '*' :: (body ++ ['*', '/']), ⟨_, List.mem_cons_of_mem _ List.mem_cons_self,
    ⟨by simpa using begins, mem_blockComment.mpr ⟨body, rfl⟩⟩, ?_⟩, by simp⟩
  intro other found
  obtain ⟨otherBody, rfl⟩ := mem_blockComment.mp found.isText
  obtain ⟨more, isText⟩ := found.begins
  obtain rfl : otherBody ++ ['*', '/'] ++ more = rest := by simpa using isText
  obtain ⟨otherTail, isOther, bound⟩ := commentTail_le_of_body otherBody more
  have same : body.length + 2 = otherTail := by
    rw [isTail] at isOther
    exact Option.some.inj isOther
  simp only [Bool.false_eq_true, if_false, List.length_cons, List.length_append, List.length_nil]
  omega

/-! ## Signs -/

theorem clusterTexts_eq : clusterTexts.map String.toList = clusters.map Prod.fst := by
  decide

theorem isCluster_iff {text : List Char} :
    String.ofList text ∈ clusterTexts ↔ ∃ cluster ∈ clusters, cluster.1 = text := by
  rw [← List.mem_map, ← clusterTexts_eq, List.mem_map]
  constructor
  · intro member
    exact ⟨_, member, String.toList_ofList⟩
  · rintro ⟨word, member, rfl⟩
    rwa [String.ofList_toList]

theorem clusters_fixedText :
    ∀ cluster ∈ clusters, cluster.2.fixedText? = some (.ofList cluster.1) := by
  decide

/-- No cluster begins with another one, so at most one begins a text. -/
theorem cluster_unique {cluster other : List Char × TokenKind} {text : List Char}
    (isCluster : cluster ∈ clusters) (isOther : other ∈ clusters) (begins : cluster.1 <+: text)
    (beginsOther : other.1 <+: text) : cluster = other := by
  have distinct : ∀ left ∈ clusters, ∀ right ∈ clusters, left.1 <+: right.1 → left = right := by
    decide
  rcases List.prefix_or_prefix_of_prefix begins beginsOther with shorter | longer
  · exact distinct cluster isCluster other isOther shorter
  · exact (distinct other isOther cluster isCluster longer).symm

theorem picks_cluster {cluster : List Char × TokenKind} {text : List Char}
    (isCluster : cluster ∈ clusters) (begins : cluster.1 <+: text) :
    TokenRule.cluster.Picks text cluster.1 := by
  refine ⟨_, List.mem_singleton_self _, ⟨begins, isCluster_iff.mpr ⟨_, isCluster, rfl⟩⟩, ?_⟩
  intro other found
  obtain ⟨otherCluster, isOther, rfl⟩ := isCluster_iff.mp found.isText
  rw [cluster_unique isCluster isOther begins found.begins]
  exact Nat.le_refl _

theorem cluster_applies_iff {text : List Char} :
    TokenRule.cluster.Applies text ↔ ∃ cluster ∈ clusters, cluster.1 <+: text := by
  constructor
  · rintro ⟨pattern, isPattern, found, isFound⟩
    obtain rfl := List.mem_singleton.mp isPattern
    obtain ⟨cluster, isCluster, rfl⟩ := isCluster_iff.mp isFound.isText
    exact ⟨cluster, isCluster, isFound.begins⟩
  · rintro ⟨cluster, isCluster, begins⟩
    exact (picks_cluster isCluster begins).applies

theorem find?_cluster_eq_none_iff {text : List Char} :
    clusters.find? (fun cluster => cluster.1.isPrefixOf text) = none ↔
      ¬ TokenRule.cluster.Applies text := by
  rw [cluster_applies_iff, List.find?_eq_none]
  simp [List.isPrefixOf_iff_prefix]

theorem singleKind?_eq_some {kind : TokenKind} (isKind : singleKind? first = some kind) :
    first ∈ signs.toList ∧ kind.fixedText? = some (.ofList [first]) := by
  unfold singleKind? at isKind
  split at isKind <;> cases isKind <;> decide

theorem exists_singleKind? : ∀ character ∈ signs.toList, (singleKind? character).isSome :=
  List.all_eq_true.mp (by decide)

theorem picks_sign (isSign : first ∈ signs.toList) :
    TokenRule.sign.Picks (first :: rest) [first] := by
  refine ⟨_, List.mem_singleton_self _, ⟨by simp, mem_one.mpr isSign⟩, ?_⟩
  intro other found
  obtain ⟨character, -, rfl⟩ := found.isText
  exact Nat.le_refl 1

end Lexeme

end ScalarLang
