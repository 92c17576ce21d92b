import ScalarLang.Token.Scan

/-!
# Lexemes depend on nothing after them

The lexeme at the start of a text ends inside the text.  It is found again in every
shorter text that still holds it, whatever the character is that follows it there, so
a text that is cut between two lexemes keeps those before the cut.
-/

set_option autoImplicit false

namespace ScalarLang

namespace Lexeme

variable {left right : List Char}

/-! ## Runs of characters -/

theorem takeWhile_of_append {accepts : Char → Bool}
    (inside : ((left ++ right).takeWhile accepts).length ≤ left.length) :
    left.takeWhile accepts = (left ++ right).takeWhile accepts := by
  rw [List.takeWhile_append] at inside ⊢
  by_cases whole : (left.takeWhile accepts).length = left.length
  · rw [if_pos whole] at inside ⊢
    have noMore : right.takeWhile accepts = [] := by
      rw [← List.length_eq_zero_iff]
      rw [List.length_append] at inside
      omega
    rw [noMore, List.append_nil]
    exact (List.takeWhile_prefix accepts).eq_of_length whole
  · rw [if_neg whole]

theorem length_takeWhile_le (accepts : Char → Bool) (text : List Char) :
    (text.takeWhile accepts).length ≤ text.length :=
  (List.takeWhile_prefix accepts).length_le

/-! ## Numbers -/

theorem decimals_le (text : List Char) : decimals text = [] ∨
    1 + (decimals text).length ≤ text.length := by
  unfold decimals
  split
  · right
    rename_i rest
    have := length_takeWhile_le isDigit rest
    rw [List.length_cons]
    omega
  · exact .inl rfl

theorem decimals_of_append
    (inside : decimals (left ++ right) = [] ∨ 1 + (decimals (left ++ right)).length ≤ left.length) :
    decimals left = decimals (left ++ right) := by
  cases left with
  | nil =>
      rcases inside with none | inside
      · exact none.symm
      · simp at inside
  | cons first others =>
      by_cases isPoint : first = '.'
      · subst isPoint
        simp only [decimals, List.cons_append, List.length_cons] at inside ⊢
        apply takeWhile_of_append
        rcases inside with none | inside
        · rw [none]
          exact Nat.zero_le _
        · omega
      · simp [decimals, isPoint]

theorem number_tail_le (rest : List Char) : (number rest).tail ≤ rest.length := by
  have whole := length_takeWhile_le isDigit rest
  unfold number
  dsimp only
  split
  · exact whole
  · rename_i some
    rcases decimals_le (rest.drop (rest.takeWhile isDigit).length) with none | inside
    · simp [none] at some
    · rw [List.length_drop] at inside
      dsimp only
      omega

theorem number_of_append (inside : (number (left ++ right)).tail ≤ left.length) :
    number left = number (left ++ right) := by
  have whole : ((left ++ right).takeWhile isDigit).length ≤ left.length := by
    unfold number at inside
    dsimp only at inside
    split at inside
    · exact inside
    · dsimp only at inside
      omega
  have sameWhole := takeWhile_of_append whole
  have sameDecimals : decimals (left.drop ((left ++ right).takeWhile isDigit).length) =
      decimals ((left ++ right).drop ((left ++ right).takeWhile isDigit).length) := by
    rw [List.drop_append_of_le_length whole]
    apply decimals_of_append
    rw [← List.drop_append_of_le_length whole, List.length_drop]
    unfold number at inside
    dsimp only at inside
    split at inside
    · rename_i none
      exact .inl (List.isEmpty_iff.mp none)
    · right
      dsimp only at inside
      omega
  unfold number
  dsimp only
  rw [sameWhole, sameDecimals]

/-! ## Strings and comments -/

theorem stringTail_quote (rest : List Char) : stringTail ('"' :: rest) = some 1 := by
  rw [stringTail.eq_def]
  simp

theorem stringTail_escape (taken : Char) (rest : List Char) :
    stringTail ('\\' :: taken :: rest) = (stringTail rest).map (· + 2) := by
  rw [stringTail.eq_def]
  simp

theorem stringTail_other {character : Char} (notQuote : ¬ character = '"')
    (notEscape : ¬ character = '\\') (rest : List Char) :
    stringTail (character :: rest) = (stringTail rest).map (· + 1) := by
  rw [stringTail.eq_def]
  simp [notQuote, notEscape]

theorem stringTail_bounds (text : List Char) :
    ∀ tail, stringTail text = some tail → 0 < tail ∧ tail ≤ text.length := by
  fun_induction stringTail text with
  | case1 => simp
  | case2 => simp
  | case3 => simp
  | case4 taken others _ inductionHypothesis =>
      intro tail found
      obtain ⟨count, isCount, rfl⟩ := Option.map_eq_some_iff.mp found
      have := inductionHypothesis count isCount
      simp only [List.length_cons]
      omega
  | case5 character rest notQuote notEscape inductionHypothesis =>
      intro tail found
      obtain ⟨count, isCount, rfl⟩ := Option.map_eq_some_iff.mp found
      have := inductionHypothesis count isCount
      simp only [List.length_cons]
      omega

theorem stringTail_of_append (text : List Char) : ∀ tail,
    stringTail (text ++ right) = some tail → tail ≤ text.length → stringTail text = some tail := by
  fun_induction stringTail text with
  | case1 =>
      intro tail found inside
      have := (stringTail_bounds _ tail found).1
      simp at inside
      omega
  | case2 rest =>
      intro tail found _
      rwa [List.cons_append, stringTail_quote] at found
  | case3 =>
      intro tail found inside
      -- A lone backslash takes a character along that only the longer text has.
      cases right with
      | nil => exact found
      | cons taken others =>
          rw [List.singleton_append, stringTail_escape] at found
          obtain ⟨count, -, rfl⟩ := Option.map_eq_some_iff.mp found
          simp at inside
  | case4 taken others _ inductionHypothesis =>
      intro tail found inside
      rw [List.cons_append, List.cons_append, stringTail_escape] at found
      obtain ⟨count, isCount, rfl⟩ := Option.map_eq_some_iff.mp found
      rw [List.length_cons, List.length_cons] at inside
      rw [inductionHypothesis count isCount (by omega)]
      rfl
  | case5 character rest notQuote notEscape inductionHypothesis =>
      intro tail found inside
      rw [List.cons_append, stringTail_other notQuote notEscape] at found
      obtain ⟨count, isCount, rfl⟩ := Option.map_eq_some_iff.mp found
      rw [List.length_cons] at inside
      rw [inductionHypothesis count isCount (by omega)]
      rfl

theorem commentTail_bounds (text : List Char) :
    ∀ tail, commentTail text = some tail → 1 < tail ∧ tail ≤ text.length := by
  fun_induction commentTail text with
  | case1 => simp
  | case2 character rest closes =>
      intro tail found
      obtain rfl : 2 = tail := by simpa using found
      obtain ⟨others, rfl⟩ := List.head?_eq_some_iff.mp closes.2
      simp
  | case3 character rest goesOn inductionHypothesis =>
      intro tail found
      obtain ⟨count, isCount, rfl⟩ := Option.map_eq_some_iff.mp found
      have := inductionHypothesis count isCount
      simp only [List.length_cons]
      omega

/-- What a text begins with is not changed by what is put after it. -/
theorem head?_append_of_some {character : Char} (isFirst : left.head? = some character) :
    (left ++ right).head? = some character := by
  simp [isFirst]

theorem head?_of_append (some : left ≠ []) : (left ++ right).head? = left.head? := by
  cases left with
  | nil => exact absurd rfl some
  | cons first others => rfl

theorem commentTail_of_append (text : List Char) : ∀ tail,
    commentTail (text ++ right) = some tail → tail ≤ text.length →
      commentTail text = some tail := by
  fun_induction commentTail text with
  | case1 =>
      intro tail found inside
      have := (commentTail_bounds _ tail found).1
      simp at inside
      omega
  | case2 character rest closes =>
      intro tail found _
      rw [List.cons_append, commentTail, if_pos ⟨closes.1, head?_append_of_some closes.2⟩] at found
      exact found
  | case3 character rest goesOn inductionHypothesis =>
      intro tail found inside
      rw [List.length_cons] at inside
      rw [List.cons_append, commentTail] at found
      by_cases closes : character = '*' ∧ (rest ++ right).head? = some '/'
      · rw [if_pos closes] at found
        obtain rfl : 2 = tail := by simpa using found
        have some : rest ≠ [] := by
          rintro rfl
          simp at inside
        rw [head?_of_append some] at closes
        exact absurd closes goesOn
      · rw [if_neg closes] at found
        obtain ⟨count, isCount, rfl⟩ := Option.map_eq_some_iff.mp found
        rw [inductionHypothesis count isCount (by omega)]
        rfl

/-! ## Signs -/

variable {first : Char} {rest : List Char} {lexeme : Lexeme}

theorem sign?_tail_le (found : sign? first rest = some lexeme) : lexeme.tail ≤ rest.length := by
  unfold sign? at found
  split at found
  · rename_i text kind isCluster
    cases found
    obtain ⟨starts, -⟩ := List.find?_eq_some_iff_append.mp isCluster
    have short : text.length ≤ (first :: rest).length :=
      (List.isPrefixOf_iff_prefix.mp starts).length_le
    rw [List.length_cons] at short
    exact Nat.sub_le_of_le_add short
  · obtain ⟨kind, -, rfl⟩ := Option.map_eq_some_iff.mp found
    exact Nat.zero_le _

theorem isPrefixOf_append {text : List Char} (starts : text.isPrefixOf (first :: left) = true) :
    text.isPrefixOf (first :: (left ++ right)) = true := by
  rw [List.isPrefixOf_iff_prefix] at starts ⊢
  exact starts.trans (List.prefix_append (first :: left) right)

theorem sign?_of_append (found : sign? first (left ++ right) = some lexeme)
    (inside : lexeme.tail ≤ left.length) : sign? first left = some lexeme := by
  unfold sign? at found ⊢
  split at found
  · rename_i text kind isCluster
    cases found
    dsimp only at inside
    obtain ⟨starts, earlier, later, areClusters, others⟩ :=
      List.find?_eq_some_iff_append.mp isCluster
    have startsLeft : text.isPrefixOf (first :: left) = true := by
      rw [List.isPrefixOf_iff_prefix] at starts ⊢
      refine List.prefix_of_prefix_length_le starts (List.prefix_append (first :: left) right) ?_
      rw [List.length_cons]
      omega
    have sameCluster : clusters.find? (fun cluster => cluster.1.isPrefixOf (first :: left)) =
        some (text, kind) := by
      refine List.find?_eq_some_iff_append.mpr ⟨startsLeft, earlier, later, areClusters, ?_⟩
      intro cluster member
      have notStarts := others cluster member
      cases startsHere : cluster.1.isPrefixOf (first :: left) with
      | false => rfl
      | true =>
          rw [isPrefixOf_append startsHere] at notStarts
          cases notStarts
    rw [sameCluster]
  · rename_i noCluster
    have noneHere :
        clusters.find? (fun cluster => cluster.1.isPrefixOf (first :: left)) = none := by
      refine List.find?_eq_none.mpr ?_
      intro cluster member starts
      exact List.find?_eq_none.mp noCluster cluster member (isPrefixOf_append starts)
    rw [noneHere]
    exact found

/-! ## Lexemes -/

theorem scan_tail_le (scanned : scan first rest = .ok lexeme) : lexeme.tail ≤ rest.length := by
  unfold scan at scanned
  split at scanned
  · cases scanned
    exact length_takeWhile_le isWordPart rest
  split at scanned
  · cases scanned
    exact number_tail_le rest
  split at scanned
  · split at scanned
    · rename_i tail isTail
      cases scanned
      exact (stringTail_bounds rest tail isTail).2
    · cases scanned
  split at scanned
  · cases scanned
    exact length_takeWhile_le isBlank rest
  split at scanned
  · cases scanned
    exact Nat.zero_le _
  split at scanned
  · cases scanned
    exact length_takeWhile_le _ rest
  split at scanned
  · split at scanned
    · rename_i tail isTail
      cases scanned
      have bounds := commentTail_bounds _ tail isTail
      rw [List.length_drop] at bounds
      dsimp only
      omega
    · cases scanned
  split at scanned
  · rename_i found isFound
    cases scanned
    exact sign?_tail_le isFound
  · cases scanned

/-- A lexeme is found again in every shorter text that still holds it. -/
theorem scan_of_append (scanned : scan first (left ++ right) = .ok lexeme)
    (inside : lexeme.tail ≤ left.length) : scan first left = .ok lexeme := by
  -- The rules that look at one more character see the same one, or none.
  have head : ∀ character, left.head? = some character →
      (left ++ right).head? = some character := fun _ => head?_append_of_some
  unfold scan at scanned ⊢
  by_cases isWord : isWordStart first = true
  · rw [if_pos isWord] at scanned ⊢
    cases scanned
    have same : left.takeWhile isWordPart = _ := takeWhile_of_append inside
    simp only [word, same]
  rw [if_neg isWord] at scanned ⊢
  by_cases isNumber : isDigit first = true
  · rw [if_pos isNumber] at scanned ⊢
    cases scanned
    rw [number_of_append inside]
  rw [if_neg isNumber] at scanned ⊢
  by_cases isString : first = '"'
  · rw [if_pos isString] at scanned ⊢
    split at scanned
    · rename_i tail isTail
      cases scanned
      rw [stringTail_of_append left tail isTail inside]
    · cases scanned
  rw [if_neg isString] at scanned ⊢
  by_cases isSpace : isBlank first = true
  · rw [if_pos isSpace] at scanned ⊢
    cases scanned
    have same : left.takeWhile isBlank = _ := takeWhile_of_append inside
    rw [same]
  rw [if_neg isSpace] at scanned ⊢
  by_cases isNewline : first = '\n'
  · rw [if_pos isNewline] at scanned ⊢
    exact scanned
  rw [if_neg isNewline] at scanned ⊢
  by_cases opensLine : first = '/' ∧ (left ++ right).head? = some '/'
  · rw [if_pos opensLine] at scanned
    cases scanned
    have some : left ≠ [] := by
      rintro rfl
      obtain ⟨-, starts⟩ := opensLine
      obtain ⟨others, isRest⟩ := List.head?_eq_some_iff.mp starts
      rw [isRest] at inside
      simp at inside
    have same : left.takeWhile (· != '\n') = _ := takeWhile_of_append inside
    rw [head?_of_append some] at opensLine
    rw [if_pos opensLine, same]
  rw [if_neg opensLine] at scanned
  rw [if_neg fun opens => opensLine ⟨opens.1, head _ opens.2⟩]
  by_cases opensComment : first = '/' ∧ (left ++ right).head? = some '*'
  · rw [if_pos opensComment] at scanned
    split at scanned
    · rename_i tail isTail
      cases scanned
      have some : left ≠ [] := by
        rintro rfl
        simp at inside
      rw [List.drop_append_of_le_length (List.length_pos_iff.mpr some)] at isTail
      rw [head?_of_append some] at opensComment
      have insideRest : tail ≤ (left.drop 1).length := by
        rw [List.length_drop]
        dsimp only at inside
        omega
      rw [if_pos opensComment, commentTail_of_append _ tail isTail insideRest]
    · cases scanned
  rw [if_neg opensComment] at scanned
  rw [if_neg fun opens => opensComment ⟨opens.1, head _ opens.2⟩]
  split at scanned
  · rename_i found isFound
    cases scanned
    rw [sign?_of_append isFound inside]
  · cases scanned

end Lexeme

end ScalarLang
