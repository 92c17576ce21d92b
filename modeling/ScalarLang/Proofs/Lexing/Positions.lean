import ScalarLang.Proofs.Lexing.Streams

/-!
# Running positions and the line index

The line and the column that a position counts up while it moves over a text are those
that the line index finds for its offset by searching the sorted offsets of the newlines.
-/

set_option autoImplicit false

namespace ScalarLang

namespace Text

/-! ## Searching sorted offsets -/

theorem lowerBoundIn_eq {entries : Array Nat} {bound low high : Nat} (inside : high ≤ entries.size)
    {count : Nat} (lower : low ≤ count) (upper : count ≤ high)
    (below : ∀ index (known : index < entries.size), index < count → entries[index] < bound)
    (above : ∀ index (known : index < entries.size), count ≤ index → ¬ entries[index] < bound) :
    lowerBoundIn entries bound low high inside = count := by
  fun_induction lowerBoundIn entries bound low high inside with
  | case1 low high inside isOpen middle known isBelow inductionHypothesis =>
      apply inductionHypothesis _ upper
      by_contra notBefore
      exact above middle known (by omega) isBelow
  | case2 low high inside isOpen middle known notBelow inductionHypothesis =>
      apply inductionHypothesis lower
      by_contra notAfter
      exact notBelow (below middle known (by omega))
  | case3 low high inside closed => omega

/-- The search counts the entries below the bound if they come first. -/
theorem lowerBound_append {left right : List Nat} {bound : Nat}
    (below : ∀ entry ∈ left, entry < bound) (above : ∀ entry ∈ right, bound ≤ entry) :
    lowerBound (left ++ right).toArray bound = left.length := by
  apply lowerBoundIn_eq
  · exact Nat.zero_le _
  · simp
  · intro index known isBefore
    simp only [List.getElem_toArray, List.getElem_append_left isBefore]
    exact below _ (List.getElem_mem _)
  · intro index known isAfter
    simp only [List.getElem_toArray, List.getElem_append_right isAfter, Nat.not_lt]
    exact above _ (List.getElem_mem _)

/-! ## Offsets of newlines -/

theorem newlineOffsets_append (left right : List Char) : ∀ offset,
    newlineOffsets offset (left ++ right) =
      newlineOffsets offset left ++ newlineOffsets (offset + byteLength left) right := by
  induction left with
  | nil =>
      intro offset
      rfl
  | cons first others inductionHypothesis =>
      intro offset
      by_cases isNewline : first = '\n'
      · simp [newlineOffsets, isNewline, inductionHypothesis, Nat.add_assoc]
      · simp [newlineOffsets, isNewline, inductionHypothesis, Nat.add_assoc]

theorem length_newlineOffsets (text : List Char) : ∀ offset,
    (newlineOffsets offset text).length = text.count '\n' := by
  induction text with
  | nil =>
      intro offset
      rfl
  | cons first others inductionHypothesis =>
      intro offset
      by_cases isNewline : first = '\n'
      · simp [newlineOffsets, isNewline, inductionHypothesis]
      · simp [newlineOffsets, isNewline, inductionHypothesis]

theorem mem_newlineOffsets_bounds {entry : Nat} (text : List Char) : ∀ offset,
    entry ∈ newlineOffsets offset text → offset ≤ entry ∧ entry < offset + byteLength text := by
  induction text with
  | nil =>
      intro offset member
      cases member
  | cons first others inductionHypothesis =>
      intro offset member
      have size := first.utf8Size_pos
      rw [byteLength_cons]
      have later : entry ∈ newlineOffsets (offset + first.utf8Size) others →
          offset ≤ entry ∧ entry < offset + (first.utf8Size + byteLength others) := by
        intro member
        have bounds := inductionHypothesis _ member
        omega
      by_cases isNewline : first = '\n'
      · rw [newlineOffsets, if_pos isNewline] at member
        rcases List.mem_cons.mp member with rfl | member
        · omega
        · exact later member
      · rw [newlineOffsets, if_neg isNewline] at member
        exact later member

/-- Either a text is one line, or it has a last newline. -/
theorem last_newline (text : List Char) : '\n' ∉ text ∨
    ∃ before line, text = before ++ '\n' :: line ∧ '\n' ∉ line := by
  by_cases member : '\n' ∈ text
  · right
    obtain ⟨line, before, isReverse, noNewline⟩ :=
      List.eq_append_cons_of_mem (List.mem_reverse.mpr member)
    refine ⟨before.reverse, line.reverse, ?_, by simpa using noNewline⟩
    rw [← text.reverse_reverse, isReverse]
    simp
  · exact .inl member

end Text

/-! ## Moving over a text -/

namespace Position

theorem advance_line (text : List Char) : ∀ position : Position,
    (position.advance text).line = position.line + text.count '\n' := by
  induction text with
  | nil =>
      intro position
      rfl
  | cons first others inductionHypothesis =>
      intro position
      rw [advance_cons, inductionHypothesis]
      by_cases isNewline : first = '\n'
      · simp only [step, isNewline, if_true, List.count_cons_self]
        omega
      · simp [step, isNewline]

theorem advance_column (text : List Char) (noNewline : '\n' ∉ text) : ∀ position : Position,
    (position.advance text).column = position.column + text.length := by
  induction text with
  | nil =>
      intro position
      rfl
  | cons first others inductionHypothesis =>
      intro position
      obtain ⟨notNewline, noNewline⟩ := not_or.mp (mt List.mem_cons.mpr noNewline)
      have isStep : (position.step first).column = position.column + 1 := by
        rw [step, if_neg (Ne.symm notNewline)]
      rw [advance_cons, inductionHypothesis noNewline, isStep, List.length_cons]
      omega

/-- After a newline the column is counted from the start of the line. -/
theorem advance_column_newline (position : Position) (before line : List Char)
    (noNewline : '\n' ∉ line) :
    (position.advance (before ++ '\n' :: line)).column = 1 + line.length := by
  rw [advance_append, advance_cons, advance_column line noNewline]
  rfl

end Position

/-! ## The line index -/

namespace Source

variable {source : Source} {before rest : List Char}

theorem lineBreaks_of_append (isText : source.characters = before ++ rest) :
    source.lineBreaks = (Text.newlineOffsets 0 before ++
      Text.newlineOffsets (Text.byteLength before) rest).toArray := by
  have split := Text.newlineOffsets_append before rest 0
  rw [Nat.zero_add, ← isText] at split
  rw [source.lineBreaks_eq, ← split]
  rfl

/-- The line of an offset is the number of newlines before it. -/
theorem lineIndex?_eq (isText : source.characters = before ++ rest) :
    source.lineIndex? (Text.byteLength before) = some (before.count '\n') := by
  have inside : ¬ source.byteLength < Text.byteLength before := by
    rw [byteLength, isText, Text.byteLength_append]
    omega
  rw [lineIndex?, if_neg inside, lineBreaks_of_append isText, Text.lowerBound_append]
  · rw [Text.length_newlineOffsets]
  · intro entry member
    have bounds := Text.mem_newlineOffsets_bounds before 0 member
    omega
  · intro entry member
    exact (Text.mem_newlineOffsets_bounds rest _ member).1

theorem lineStart?_newline {line : List Char}
    (isText : source.characters = before ++ '\n' :: line ++ rest) :
    source.lineStart? (before.count '\n' + 1) = some (Text.byteLength before + 1) := by
  rw [List.append_assoc] at isText
  rw [lineStart?, lineBreaks_of_append isText, ← Text.length_newlineOffsets before 0]
  simp [Text.newlineOffsets]

theorem lineColumn?_eq {offset line start : Nat} {text : List Char}
    (isLine : source.lineIndex? offset = some line) (isStart : source.lineStart? line = some start)
    (isSlice : Text.slice? source.characters start offset = some text) :
    source.lineColumn? offset = some (line + 1, text.length + 1) := by
  simp only [lineColumn?, isLine, isStart, isSlice]

/-- The position after the first part of a source has the line and the column that the
index gives for its offset. -/
theorem lineColumn?_advance (isText : source.characters = before ++ rest) :
    source.lineColumn? (Text.byteLength before) =
      some ((Position.initial.advance before).line, (Position.initial.advance before).column) := by
  have isLine := lineIndex?_eq isText
  rw [Position.advance_line]
  -- The first line starts at offset 0; every other one starts behind a newline, whose offset
  -- the index has kept.
  rcases Text.last_newline before with noNewline | ⟨earlier, line, rfl, noNewline⟩
  · rw [List.count_eq_zero.mpr noNewline] at isLine ⊢
    have isSlice : Text.slice? source.characters 0 (Text.byteLength before) = some before := by
      simpa [isText] using Text.slice?_append [] before rest
    rw [lineColumn?_eq isLine rfl isSlice, Position.advance_column before noNewline]
    simp [Position.initial, Nat.add_comm]
  · have lines : (earlier ++ '\n' :: line).count '\n' = earlier.count '\n' + 1 := by
      simp [List.count_eq_zero.mpr noNewline]
    have oneByte : '\n'.utf8Size = 1 := rfl
    have isSlice : Text.slice? source.characters (Text.byteLength earlier + 1)
        (Text.byteLength (earlier ++ '\n' :: line)) = some line := by
      simpa [isText, oneByte, Nat.add_assoc] using
        Text.slice?_append (earlier ++ ['\n']) line rest
    rw [lines] at isLine ⊢
    rw [lineColumn?_eq isLine (lineStart?_newline isText) isSlice,
      Position.advance_column_newline _ _ _ noNewline]
    simp [Position.initial, Nat.add_comm]

theorem lineColumn?_of_reaches {position : Position}
    (reaches : Lexer.Reaches source.characters position) :
    source.lineColumn? position.offset = some (position.line, position.column) := by
  obtain ⟨before, rest, isText, rfl⟩ := reaches
  have isOffset : (Position.initial.advance before).offset = Text.byteLength before := by
    rw [Position.advance_offset]
    exact Nat.zero_add _
  rw [isOffset]
  exact lineColumn?_advance isText

end Source

/-- With or without trivia, whatever a call of a lexer gives and wherever the lexer stands
after it, the line and the column are those of the line index. -/
theorem lexing_positions_indexed (source : Source) (keepsTrivia : Bool) (count : Nat) :
    let lexer := Lexer.after { Lexer.ofText source.characters with keepsTrivia } count
    (match lexer.next.1 with
      | none => True
      | some (.ok token) => source.lineColumn? token.span.start =
          some (token.position.line, token.position.column)
      | some (.error error) => source.lineColumn? error.span.start =
          some (error.position.line, error.position.column)) ∧
    ∃ offset line column, lexer.next.2.eofPosition = (.empty offset, line, column) ∧
      source.lineColumn? offset = some (line, column) := by
  intro lexer
  have stands : lexer.StandsIn source.characters :=
    (Lexer.StandsIn.start source.characters keepsTrivia).after count
  obtain ⟨standsNext, given⟩ := stands.next
  refine ⟨?_, _, _, _, rfl, Source.lineColumn?_of_reaches standsNext.reaches⟩
  cases isGiven : lexer.next.1 with
  | none => trivial
  | some result =>
      rw [isGiven] at given
      cases result with
      | ok token => exact Source.lineColumn?_of_reaches given
      | error error => exact Source.lineColumn?_of_reaches given

end ScalarLang
