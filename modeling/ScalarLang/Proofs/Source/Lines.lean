import Mathlib.Data.List.DropRight
import Mathlib.Data.Prod.Lex
import ScalarLang.Proofs.Lexing.Positions

/-!
# Byte offsets, lines and columns

A byte offset has a line and a column exactly if it lies between two characters or at an end
of the text.  They count the newlines before it and the characters since the last of these,
so they grow with the offset, and every line starts at an offset of that line.
-/

set_option autoImplicit false

namespace ScalarLang

/-! ## Bytes of a text -/

namespace Text

theorem byteLength_ofList (text : List Char) :
    byteLength text = (String.ofList text).utf8ByteSize := by
  induction text with
  | nil => simp
  | cons first others inductionHypothesis =>
      have isCons : String.ofList (first :: others) =
          String.singleton first ++ String.ofList others := by
        rw [String.singleton_eq_ofList, ← String.ofList_append]
        rfl
      rw [byteLength_cons, inductionHypothesis, isCons, String.utf8ByteSize_append,
        String.utf8ByteSize_singleton]

@[simp]
theorem byteLength_toList (text : String) : byteLength text.toList = text.utf8ByteSize := by
  rw [byteLength_ofList, String.ofList_toList]

/-- A slice stops between two characters. -/
theorem exists_append_of_slice? {start stop : Nat} {text slice : List Char}
    (isSlice : slice? text start stop = some slice) :
    ∃ before rest, text = before ++ rest ∧ byteLength before = stop := by
  unfold slice? at isSlice
  split at isSlice
  · cases isSlice
  · rename_i ordered
    split at isSlice
    · rename_i before after cut
      obtain ⟨⟨found, rest⟩, cutAgain, -⟩ := Option.map_eq_some_iff.mp isSlice
      obtain ⟨joined, measured⟩ := splitAt?_eq_some cut
      obtain ⟨joinedAgain, measuredAgain⟩ := splitAt?_eq_some cutAgain
      refine ⟨before ++ found, rest, ?_, ?_⟩
      · rw [← joined, ← joinedAgain, List.append_assoc]
      · rw [byteLength_append, measured, measuredAgain]
        omega
    · cases isSlice

/-! ## Newlines of a text -/

/-- The characters after the last newline. -/
theorem rtakeWhile_newline {before line : List Char} (noNewline : '\n' ∉ line) :
    (before ++ '\n' :: line).rtakeWhile (· != '\n') = line := by
  induction line using List.reverseRecOn with
  | nil => exact List.rtakeWhile_concat_neg _ _ _ (by decide)
  | append_singleton line last inductionHypothesis =>
      obtain ⟨noNewline, notNewline⟩ := not_or.mp (mt List.mem_append.mpr noNewline)
      have notNewline : last ≠ '\n' := fun same => notNewline (by simp [same])
      have isConcat : before ++ '\n' :: (line ++ [last]) = before ++ '\n' :: line ++ [last] := by
        simp
      rw [isConcat, List.rtakeWhile_concat_pos _ _ _ (by simpa using notNewline),
        inductionHypothesis noNewline]

/-- A text can be cut at each of its newlines. -/
theorem exists_newline_of_lt_count {index : Nat} (text : List Char)
    (inside : index < text.count '\n') :
    ∃ before rest, text = before ++ '\n' :: rest ∧ before.count '\n' = index := by
  induction text generalizing index with
  | nil => simp at inside
  | cons first others inductionHypothesis =>
      by_cases isNewline : first = '\n'
      · subst isNewline
        cases index with
        | zero => exact ⟨[], others, rfl, rfl⟩
        | succ index =>
            have insideOthers : index < others.count '\n' := by
              rw [List.count_cons_self] at inside
              omega
            obtain ⟨before, rest, rfl, isIndex⟩ := inductionHypothesis insideOthers
            exact ⟨'\n' :: before, rest, rfl, by rw [List.count_cons_self, isIndex]⟩
      · rw [List.count_cons_of_ne isNewline] at inside
        obtain ⟨before, rest, rfl, isIndex⟩ := inductionHypothesis inside
        exact ⟨first :: before, rest, rfl, by rw [List.count_cons_of_ne isNewline, isIndex]⟩

end Text

/-! ## Places grow -/

namespace Position

def place (position : Position) : Nat ×ₗ Nat := toLex (position.line, position.column)

theorem place_lt_step (position : Position) (character : Char) :
    position.place < (position.step character).place := by
  unfold place step
  rw [Prod.Lex.toLex_lt_toLex]
  split
  · exact .inl (Nat.lt_succ_self _)
  · exact .inr ⟨rfl, Nat.lt_succ_self _⟩

theorem place_lt_advance {text : List Char} (some : text ≠ []) : ∀ position : Position,
    position.place < (position.advance text).place := by
  induction text with
  | nil => exact absurd rfl some
  | cons first others inductionHypothesis =>
      intro position
      rw [advance_cons]
      by_cases isLast : others = []
      · subst isLast
        exact position.place_lt_step first
      · exact (position.place_lt_step first).trans (inductionHypothesis isLast _)

/-- From the start of a text, the column counts the characters after the last newline. -/
theorem column_initial_advance (text : List Char) :
    (initial.advance text).column = 1 + (text.rtakeWhile (· != '\n')).length := by
  rcases Text.last_newline text with noNewline | ⟨before, line, rfl, noNewline⟩
  · have isLine : text.rtakeWhile (· != '\n') = text := by
      rw [List.rtakeWhile_eq_self_iff]
      intro character member
      simpa using ne_of_mem_of_not_mem member noNewline
    rw [advance_column text noNewline, isLine]
    rfl
  · rw [advance_column_newline _ _ _ noNewline, Text.rtakeWhile_newline noNewline]

end Position

/-! ## The index -/

namespace Source

variable {source : Source} {offset : Nat}

/-- An offset between two characters is the number of bytes of the text before it. -/
theorem isValid_iff_exists_append : String.Pos.Raw.IsValid source.text ⟨offset⟩ ↔
    ∃ before rest, source.characters = before ++ rest ∧ Text.byteLength before = offset := by
  rw [String.Pos.Raw.isValid_iff_exists_append]
  constructor
  · rintro ⟨before, rest, isText, isOffset⟩
    refine ⟨before.toList, rest.toList, ?_, ?_⟩
    · rw [characters, isText, String.toList_append]
    · rw [Text.byteLength_toList]
      exact (congrArg String.Pos.Raw.byteIdx isOffset).symm
  · rintro ⟨before, rest, isText, isOffset⟩
    refine ⟨String.ofList before, String.ofList rest, ?_, ?_⟩
    · rw [← String.ofList_append, ← isText, characters, String.ofList_toList]
    · rw [String.Pos.Raw.ext_iff, ← isOffset, Text.byteLength_ofList]
      rfl

/-- Only an offset between two characters has a line and a column. -/
theorem exists_append_of_lineColumn? {place : Nat × Nat}
    (isPlace : source.lineColumn? offset = some place) :
    ∃ before rest, source.characters = before ++ rest ∧ Text.byteLength before = offset := by
  unfold lineColumn? at isPlace
  split at isPlace
  · cases isPlace
  · split at isPlace
    · cases isPlace
    · split at isPlace
      · cases isPlace
      · rename_i slice isSlice
        exact Text.exists_append_of_slice? isSlice

theorem isSome_lineColumn?_iff : (source.lineColumn? offset).isSome = true ↔
    offset ≤ source.text.utf8ByteSize ∧ String.Pos.Raw.IsValid source.text ⟨offset⟩ := by
  rw [isValid_iff_exists_append]
  constructor
  · intro isDefined
    obtain ⟨place, isPlace⟩ := Option.isSome_iff_exists.mp isDefined
    obtain ⟨before, rest, isText, isOffset⟩ := exists_append_of_lineColumn? isPlace
    refine ⟨?_, before, rest, isText, isOffset⟩
    rw [← Text.byteLength_toList, ← isOffset]
    change _ ≤ Text.byteLength source.characters
    rw [isText, Text.byteLength_append]
    exact Nat.le_add_right _ _
  · rintro ⟨-, before, rest, isText, rfl⟩
    rw [lineColumn?_advance isText]
    rfl

theorem lineColumn?_counts {before rest : String} (isText : source.text = before ++ rest) :
    source.lineColumn? before.utf8ByteSize = some (1 + before.toList.count '\n',
      1 + (before.toList.rtakeWhile (· != '\n')).length) := by
  have isAppend : source.characters = before.toList ++ rest.toList := by
    rw [characters, isText, String.toList_append]
  have isPlace := lineColumn?_advance isAppend
  rwa [Text.byteLength_toList, Position.advance_line, Position.column_initial_advance] at isPlace

theorem lineColumn?_place {before rest : List Char} (isText : source.characters = before ++ rest)
    {place : Nat × Nat} (isPlace : source.lineColumn? (Text.byteLength before) = some place) :
    toLex place = (Position.initial.advance before).place := by
  rw [lineColumn?_advance isText] at isPlace
  cases isPlace
  rfl

theorem lineColumn?_lt {later : Nat} {place laterPlace : Nat × Nat} (isBefore : offset < later)
    (isPlace : source.lineColumn? offset = some place)
    (isLaterPlace : source.lineColumn? later = some laterPlace) :
    toLex place < toLex laterPlace := by
  obtain ⟨first, rest, isText, rfl⟩ := exists_append_of_lineColumn? isPlace
  obtain ⟨second, laterRest, isLaterText, rfl⟩ := exists_append_of_lineColumn? isLaterPlace
  -- Of two parts before an offset the one with fewer bytes starts the other.
  have startsLater : first <+: second := by
    rcases List.prefix_or_prefix_of_prefix (List.prefix_append first rest)
      (isText ▸ isLaterText ▸ List.prefix_append second laterRest) with starts | ⟨between, rfl⟩
    · exact starts
    · rw [Text.byteLength_append] at isBefore
      omega
  obtain ⟨between, rfl⟩ := startsLater
  have some : between ≠ [] := by
    rintro rfl
    simp at isBefore
  rw [lineColumn?_place isText isPlace, lineColumn?_place isLaterText isLaterPlace,
    Position.advance_append]
  exact Position.place_lt_advance some _

theorem lineCount_eq (source : Source) : source.lineCount = 1 + source.text.toList.count '\n' := by
  rw [lineCount, source.lineBreaks_eq, List.size_toArray, Text.length_newlineOffsets, Nat.add_comm]

theorem lineStart?_of_lineCount_le {line : Nat} (outside : source.lineCount ≤ line) :
    source.lineStart? line = none := by
  cases line with
  | zero => simp [lineCount] at outside
  | succ line =>
      have beyond : source.lineBreaks.size ≤ line := Nat.le_of_succ_le_succ outside
      rw [lineStart?, Array.getElem?_eq_none beyond, Option.map_none]

theorem exists_lineStart? {line : Nat} (inside : line < source.lineCount) :
    ∃ start, source.lineStart? line = some start ∧ source.lineIndex? start = some line := by
  cases line with
  | zero => exact ⟨0, rfl, lineIndex?_eq (List.nil_append _).symm⟩
  | succ line =>
      have insideText : line < source.characters.count '\n' := by
        rw [lineCount_eq] at inside
        rw [characters]
        omega
      obtain ⟨before, rest, isText, rfl⟩ :=
        Text.exists_newline_of_lt_count source.characters insideText
      -- The line starts behind the newline that ends the one before.
      have isStart : source.lineStart? (before.count '\n' + 1) =
          some (Text.byteLength before + 1) := by
        refine lineStart?_newline (?_ : source.characters = before ++ '\n' :: [] ++ rest)
        rw [isText, List.append_assoc]
        rfl
      have isIndex : source.lineIndex? (Text.byteLength (before ++ ['\n'])) =
          some ((before ++ ['\n']).count '\n') := by
        refine lineIndex?_eq (?_ : source.characters = before ++ ['\n'] ++ rest)
        rw [isText, List.append_assoc]
        rfl
      rw [Text.byteLength_append, List.count_append] at isIndex
      exact ⟨_, isStart, isIndex⟩

structure IndexesLines (source : Source) : Prop where
  /-- Exactly the offsets between two characters have a line and a column. -/
  defined : ∀ offset, (source.lineColumn? offset).isSome = true ↔
    offset ≤ source.text.utf8ByteSize ∧ String.Pos.Raw.IsValid source.text ⟨offset⟩
  /-- The line counts the newlines before the offset, the column the characters after the
  last of them. -/
  counted : ∀ before rest : String, source.text = before ++ rest →
    source.lineColumn? before.utf8ByteSize = some (1 + before.toList.count '\n',
      1 + (before.toList.rtakeWhile (· != '\n')).length)
  increasing : ∀ offset later place laterPlace, offset < later →
    source.lineColumn? offset = some place → source.lineColumn? later = some laterPlace →
    toLex place < toLex laterPlace
  lineCount_eq : source.lineCount = 1 + source.text.toList.count '\n'
  /-- Every line starts at an offset of that line. -/
  started : ∀ line < source.lineCount, ∃ start, source.lineStart? line = some start ∧
    source.lineIndex? start = some line
  outside : ∀ line, ¬ line < source.lineCount → source.lineStart? line = none

end Source

/-- Byte offsets convert to lines and columns exactly. -/
theorem line_index_is_exact (source : Source) : source.IndexesLines where
  defined := fun _ => Source.isSome_lineColumn?_iff
  counted := fun _ _ => Source.lineColumn?_counts
  increasing := fun _ _ _ _ => Source.lineColumn?_lt
  lineCount_eq := source.lineCount_eq
  started := fun _ => Source.exists_lineStart?
  outside := fun _ outside => Source.lineStart?_of_lineCount_le (Nat.le_of_not_lt outside)

end ScalarLang
