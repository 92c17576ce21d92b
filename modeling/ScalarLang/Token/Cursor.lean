import ScalarLang.Token.Lexer

/-!
# Scanning by byte offsets

A cursor holds the whole text and the offset it has come to.  It finds the length of the lexeme
there in bytes, by searching and by adding up, and cuts the text at the offsets it has computed.  A
cut beyond the end or inside a character is an error of its own, which stops everything.
-/

set_option autoImplicit false

namespace ScalarLang

/-! ## The length of a lexeme -/

def Lexeme.measured (first : Char) (others : List Char) (lexeme : Lexeme) : TokenKind × Nat :=
  (lexeme.kind, Text.byteLength (first :: others.take lexeme.tail))

namespace Cursor

abbrev Scanned := Except LexFault (TokenKind × Nat)

def scanWord (first : Char) (rest : List Char) : Except Text.CutError Scanned := do
  let length := Text.runLength Lexeme.isWordPart rest
  let word ← Text.cutBefore rest length
  return .ok (Lexeme.kindOfWord first (String.ofList word), length)

def fractionLength : List Char → Nat
  | '.' :: digits => Text.runLength Lexeme.isDigit digits
  | _ => 0

def scanNumber (rest : List Char) : Except Text.CutError Scanned := do
  let whole := Text.runLength Lexeme.isDigit rest
  let after ← Text.cutFrom rest whole
  let fraction := fractionLength after
  if 0 < fraction then
    return .ok (.float, whole + 1 + fraction)
  else
    return .ok (.integer, whole)

/-- The offset after the quote that closes a string. -/
def closingQuote : List (Nat × Char) → Option Nat
  | [] => none
  | (index, character) :: rest =>
    if character = '"' then some (index + 1)
    else if character = '\\' then
      match rest with
      | [] => none
      | _ :: others => closingQuote others
    else closingQuote rest

def scanString (rest : List Char) : Scanned :=
  match closingQuote ((Text.charIndices 0 rest).drop 1) with
  | some length => .ok (.string, length)
  | none => .error .unterminatedString

def lineCommentLength (rest : List Char) : Nat :=
  (Text.find? (· == '\n') rest).getD (Text.byteLength rest)

def scanBlockComment (rest : List Char) : Except Text.CutError Scanned := do
  let inside ← Text.cutFrom rest 2
  match Text.findText? ['*', '/'] inside with
  | some stop => return .ok (.comment, stop + 4)
  | none => return .error .unterminatedComment

def scanSign (first : Char) (rest : List Char) : Scanned :=
  match Lexeme.clusters.find? fun cluster => cluster.1.isPrefixOf rest with
  | some (text, kind) => .ok (kind, Text.byteLength text)
  | none =>
    match Lexeme.singleKind? first with
    | some kind => .ok (kind, first.utf8Size)
    | none => .error (.unexpectedChar first)

def scan (rest : List Char) : Except Text.CutError Scanned :=
  match rest with
  | [] => .ok (.error (.unexpectedChar '\x00'))
  | first :: _ =>
    if Lexeme.isWordStart first then scanWord first rest
    else if Lexeme.isDigit first then scanNumber rest
    else if first = '"' then .ok (scanString rest)
    else if Lexeme.isBlank first then
      .ok (.ok (.whitespace, Text.runLength Lexeme.isBlank rest))
    else if first = '\n' then .ok (.ok (.newline, 1))
    else if first = '/' ∧ ['/', '/'].isPrefixOf rest then
      .ok (.ok (.comment, lineCommentLength rest))
    else if first = '/' ∧ ['/', '*'].isPrefixOf rest then scanBlockComment rest
    else .ok (scanSign first rest)

/-! ### The same lexeme in characters -/

section

variable {first : Char} {others : List Char}

theorem starts_iff (second : Char) :
    first = '/' ∧ ['/', second].isPrefixOf (first :: others) = true ↔
      first = '/' ∧ others.head? = some second := by
  refine and_congr_right ?_
  rintro rfl
  rw [List.isPrefixOf_iff_prefix, List.cons_prefix_cons]
  constructor
  · rintro ⟨-, rest, rfl⟩
    rfl
  · intro isSecond
    obtain ⟨rest, rfl⟩ := List.head?_eq_some_iff.mp isSecond
    exact ⟨rfl, rest, rfl⟩

theorem scanWord_eq (isStart : Lexeme.isWordStart first = true) :
    scanWord first (first :: others) =
      .ok (.ok ((Lexeme.word first others).measured first others)) := by
  have isPart : Lexeme.isWordPart first = true := by simp [Lexeme.isWordPart, isStart]
  have isWord : (first :: others).takeWhile Lexeme.isWordPart =
      first :: others.takeWhile Lexeme.isWordPart := List.takeWhile_cons_of_pos isPart
  have isCut := Text.cutBefore_append ((first :: others).takeWhile Lexeme.isWordPart)
    ((first :: others).dropWhile Lexeme.isWordPart)
  rw [List.takeWhile_append_dropWhile] at isCut
  unfold scanWord Lexeme.measured Lexeme.word
  dsimp only
  rw [Text.runLength_eq, isCut, isWord, Text.take_length_takeWhile]
  rfl

theorem fractionLength_eq (text : List Char) :
    fractionLength text = Text.byteLength (Lexeme.decimals text) := by
  cases text with
  | nil => rfl
  | cons first others =>
      by_cases isPoint : first = '.'
      · subst isPoint
        exact Text.runLength_eq _ _
      · simp [fractionLength, Lexeme.decimals, isPoint]

theorem decimals_take {text : List Char} (some : Lexeme.decimals text ≠ []) :
    text.take (1 + (Lexeme.decimals text).length) = '.' :: Lexeme.decimals text := by
  cases text with
  | nil => exact absurd rfl some
  | cons first others =>
      by_cases isPoint : first = '.'
      · subst isPoint
        simp only [Lexeme.decimals]
        rw [Nat.add_comm, List.take_succ_cons, Text.take_length_takeWhile]
      · simp [Lexeme.decimals, isPoint] at some

theorem scanNumber_eq (isFirst : Lexeme.isDigit first = true) :
    scanNumber (first :: others) =
      .ok (.ok ((Lexeme.number others).measured first others)) := by
  have isWhole : (first :: others).takeWhile Lexeme.isDigit =
      first :: others.takeWhile Lexeme.isDigit := List.takeWhile_cons_of_pos isFirst
  have isRest : (first :: others).dropWhile Lexeme.isDigit =
      others.drop (others.takeWhile Lexeme.isDigit).length := by
    rw [Text.drop_length_takeWhile, List.dropWhile_cons_of_pos isFirst]
  have isCut := Text.cutFrom_append ((first :: others).takeWhile Lexeme.isDigit)
    ((first :: others).dropWhile Lexeme.isDigit)
  rw [List.takeWhile_append_dropWhile, isRest] at isCut
  unfold scanNumber Lexeme.number
  dsimp only
  rw [Text.runLength_eq, isCut, isWhole]
  dsimp only [bind, Except.bind]
  rw [fractionLength_eq]
  by_cases none : Lexeme.decimals (others.drop (others.takeWhile Lexeme.isDigit).length) = []
  · simp [none, Lexeme.measured, Text.take_length_takeWhile]
    rfl
  · have positive : 0 < Text.byteLength
        (Lexeme.decimals (others.drop (others.takeWhile Lexeme.isDigit).length)) :=
      Text.byteLength_pos none
    rw [if_pos positive, if_neg (by simpa using none)]
    have isTaken : others.take ((others.takeWhile Lexeme.isDigit).length +
        (1 + (Lexeme.decimals (others.drop (others.takeWhile Lexeme.isDigit).length)).length)) =
        others.takeWhile Lexeme.isDigit ++
          '.' :: Lexeme.decimals (others.drop (others.takeWhile Lexeme.isDigit).length) := by
      rw [List.take_add, Text.take_length_takeWhile, decimals_take none]
    have isPoint : Char.utf8Size '.' = 1 := by decide
    simp only [Lexeme.measured, Nat.add_assoc, isTaken, Text.byteLength_cons,
      Text.byteLength_append, isPoint]
    rfl

theorem closingQuote_eq (text : List Char) : ∀ offset,
    closingQuote (Text.charIndices offset text) =
      (Lexeme.stringTail text).map fun tail => offset + Text.byteLength (text.take tail) := by
  fun_induction Lexeme.stringTail text with
  | case1 => intro offset; rfl
  | case2 rest =>
      intro offset
      have isQuote : Char.utf8Size '"' = 1 := by decide
      rw [Text.charIndices, closingQuote.eq_def]
      simp [isQuote]
  | case3 =>
      intro offset
      rfl
  | case4 taken others notQuote inductionHypothesis =>
      intro offset
      rw [Text.charIndices, Text.charIndices, closingQuote, if_neg (by decide), if_pos rfl,
        inductionHypothesis, Option.map_map]
      congr 1
      funext tail
      simp [Nat.add_assoc]
  | case5 character rest notQuote notEscape inductionHypothesis =>
      intro offset
      rw [Text.charIndices, closingQuote.eq_def]
      simp only [notQuote, notEscape, if_false]
      rw [inductionHypothesis, Option.map_map]
      congr 1
      funext tail
      simp [Nat.add_assoc]

theorem scanString_some {tail : Nat} (closes : Lexeme.stringTail others = some tail) :
    scanString (first :: others) = .ok (Lexeme.measured first others ⟨.string, tail⟩) := by
  have isFound := closingQuote_eq others first.utf8Size
  rw [closes] at isFound
  rw [scanString, Text.charIndices, List.drop_succ_cons, List.drop_zero, Nat.zero_add, isFound]
  rfl

theorem scanString_none (open_ : Lexeme.stringTail others = none) :
    scanString (first :: others) = .error .unterminatedString := by
  have isFound := closingQuote_eq others first.utf8Size
  rw [open_] at isFound
  rw [scanString, Text.charIndices, List.drop_succ_cons, List.drop_zero, Nat.zero_add, isFound]
  rfl

theorem lineCommentLength_eq (notNewline : first ≠ '\n') :
    lineCommentLength (first :: others) =
      Text.byteLength (first :: others.take (others.takeWhile (· != '\n')).length) := by
  have isRun := Text.runLength_eq (· != '\n') (first :: others)
  rw [List.takeWhile_cons_of_pos (by simpa using notNewline)] at isRun
  rw [Text.take_length_takeWhile, ← isRun]
  unfold lineCommentLength Text.runLength
  congr 2
  funext character
  exact (Bool.not_not _).symm

/-- A comment ends with the sign that closes it. -/
theorem findText?_closing (text : List Char) :
    (Text.findText? ['*', '/'] text).map (· + 2) =
      (Lexeme.commentTail text).map fun tail => Text.byteLength (text.take tail) := by
  fun_induction Lexeme.commentTail text with
  | case1 => rfl
  | case2 character rest closes =>
      obtain ⟨rfl, isSlash⟩ := closes
      obtain ⟨others, rfl⟩ := List.head?_eq_some_iff.mp isSlash
      have isStar : Char.utf8Size '*' = 1 := by decide
      have isSlash : Char.utf8Size '/' = 1 := by decide
      simp [Text.findText?, List.isPrefixOf, isStar, isSlash]
  | case3 character rest goesOn inductionHypothesis =>
      have notHere : ¬ ['*', '/'].isPrefixOf (character :: rest) = true := by
        intro isHere
        obtain ⟨others, isText⟩ := List.isPrefixOf_iff_prefix.mp isHere
        cases isText
        exact goesOn ⟨rfl, rfl⟩
      rw [Text.findText?, if_neg notHere, Option.map_map, Option.map_map]
      have shifted := congrArg (Option.map (character.utf8Size + ·)) inductionHypothesis
      rw [Option.map_map, Option.map_map] at shifted
      have sameStop : ((· + 2) ∘ fun offset : Nat => offset + character.utf8Size) =
          (character.utf8Size + ·) ∘ (· + 2) := by
        funext offset
        simp only [Function.comp_apply]
        omega
      rw [sameStop, shifted]
      rfl

theorem scanBlockComment_some {inside : List Char} {tail : Nat}
    (closes : Lexeme.commentTail inside = some tail) :
    scanBlockComment ('/' :: '*' :: inside) =
      .ok (.ok (Lexeme.measured '/' ('*' :: inside) ⟨.comment, tail + 1⟩)) := by
  have isCut : Text.cutFrom ('/' :: '*' :: inside) 2 = .ok inside :=
    Text.cutFrom_append ['/', '*'] inside
  have closing := findText?_closing inside
  rw [closes] at closing
  obtain ⟨stop, isStop, isEnd⟩ := Option.map_eq_some_iff.mp closing
  have isStar : Char.utf8Size '*' = 1 := by decide
  have isSlash : Char.utf8Size '/' = 1 := by decide
  have isLength : Text.byteLength ('/' :: ('*' :: inside).take (tail + 1)) = stop + 4 := by
    rw [List.take_succ_cons, Text.byteLength_cons, Text.byteLength_cons, isSlash, isStar]
    dsimp only at isEnd
    omega
  rw [scanBlockComment, isCut]
  dsimp only [bind, Except.bind]
  rw [isStop, Lexeme.measured, isLength]
  rfl

theorem scanBlockComment_none {inside : List Char} (open_ : Lexeme.commentTail inside = none) :
    scanBlockComment ('/' :: '*' :: inside) = .ok (.error .unterminatedComment) := by
  have isCut : Text.cutFrom ('/' :: '*' :: inside) 2 = .ok inside :=
    Text.cutFrom_append ['/', '*'] inside
  have closing := findText?_closing inside
  rw [open_, Option.map_none, Option.map_eq_none_iff] at closing
  rw [scanBlockComment, isCut]
  dsimp only [bind, Except.bind]
  rw [closing]
  rfl

theorem cluster_eq {text : List Char} {kind : TokenKind}
    (found : (Lexeme.clusters.find? fun cluster => cluster.1.isPrefixOf (first :: others)) =
      some (text, kind)) : text = first :: others.take (text.length - 1) := by
  have starts : text <+: first :: others := by simpa using List.find?_some found
  have notEmpty : ∀ cluster ∈ Lexeme.clusters, cluster.1 ≠ [] := by decide
  have isSome : text ≠ [] := notEmpty _ (List.mem_of_find?_eq_some found)
  obtain ⟨head, tail, rfl⟩ := List.exists_cons_of_ne_nil isSome
  obtain ⟨rfl, isTail⟩ := List.cons_prefix_cons.mp starts
  exact congrArg _ (List.prefix_iff_eq_take.mp isTail)

theorem scanSign_some {lexeme : Lexeme} (isSign : Lexeme.sign? first others = some lexeme) :
    scanSign first (first :: others) = .ok (lexeme.measured first others) := by
  unfold Lexeme.sign? at isSign
  unfold scanSign
  cases found : Lexeme.clusters.find? fun cluster => cluster.1.isPrefixOf (first :: others) with
  | some cluster =>
      rw [found] at isSign
      cases isSign
      dsimp only [Lexeme.measured]
      rw [← cluster_eq found]
  | none =>
      rw [found] at isSign
      obtain ⟨kind, isKind, rfl⟩ := Option.map_eq_some_iff.mp isSign
      dsimp only
      rw [isKind]
      rfl

theorem scanSign_none (noSign : Lexeme.sign? first others = none) :
    scanSign first (first :: others) = .error (.unexpectedChar first) := by
  unfold Lexeme.sign? at noSign
  unfold scanSign
  cases found : Lexeme.clusters.find? fun cluster => cluster.1.isPrefixOf (first :: others) with
  | some cluster =>
      rw [found] at noSign
      cases noSign
  | none =>
      rw [found] at noSign
      dsimp only
      rw [Option.map_eq_none_iff.mp noSign]

/-- Scanning by offsets finds the lexeme that scanning by characters finds, and its bytes. -/
theorem scan_cons (first : Char) (others : List Char) :
    scan (first :: others) =
      .ok ((Lexeme.scan first others).map (Lexeme.measured first others)) := by
  unfold scan Lexeme.scan
  dsimp only
  by_cases isWord : Lexeme.isWordStart first = true
  · rw [if_pos isWord, if_pos isWord, scanWord_eq isWord]
    rfl
  rw [if_neg isWord, if_neg isWord]
  by_cases isNumber : Lexeme.isDigit first = true
  · rw [if_pos isNumber, if_pos isNumber, scanNumber_eq isNumber]
    rfl
  rw [if_neg isNumber, if_neg isNumber]
  by_cases isQuote : first = '"'
  · rw [if_pos isQuote, if_pos isQuote]
    cases closes : Lexeme.stringTail others with
    | some tail =>
        rw [scanString_some closes]
        rfl
    | none =>
        rw [scanString_none closes]
        rfl
  rw [if_neg isQuote, if_neg isQuote]
  by_cases isBlank : Lexeme.isBlank first = true
  · rw [if_pos isBlank, if_pos isBlank, Text.runLength_eq, List.takeWhile_cons_of_pos isBlank]
    dsimp only [Except.map, Lexeme.measured]
    rw [Text.take_length_takeWhile]
  rw [if_neg isBlank, if_neg isBlank]
  by_cases isNewline : first = '\n'
  · rw [if_pos isNewline, if_pos isNewline, isNewline]
    rfl
  rw [if_neg isNewline, if_neg isNewline]
  by_cases isLine : first = '/' ∧ others.head? = some '/'
  · rw [if_pos isLine, if_pos ((starts_iff _).mpr isLine), lineCommentLength_eq isNewline]
    rfl
  rw [if_neg isLine, if_neg (mt (starts_iff _).mp isLine)]
  by_cases isBlock : first = '/' ∧ others.head? = some '*'
  · rw [if_pos isBlock, if_pos ((starts_iff _).mpr isBlock)]
    obtain ⟨rfl, isStar⟩ := isBlock
    obtain ⟨inside, rfl⟩ := List.head?_eq_some_iff.mp isStar
    rw [List.drop_succ_cons, List.drop_zero]
    cases closes : Lexeme.commentTail inside with
    | some tail =>
        rw [scanBlockComment_some closes]
        rfl
    | none =>
        rw [scanBlockComment_none closes]
        rfl
  rw [if_neg isBlock, if_neg (mt (starts_iff _).mp isBlock)]
  cases isSign : Lexeme.sign? first others with
  | some lexeme =>
      rw [scanSign_some isSign]
      rfl
  | none =>
      rw [scanSign_none isSign]
      rfl

theorem scan_length_pos {rest : List Char} {kind : TokenKind} {length : Nat}
    (scanned : scan rest = .ok (.ok (kind, length))) : 0 < length := by
  cases rest with
  | nil => cases scanned
  | cons first others =>
      rw [scan_cons] at scanned
      cases isLexeme : Lexeme.scan first others with
      | error fault =>
          rw [isLexeme] at scanned
          cases scanned
      | ok lexeme =>
          rw [isLexeme] at scanned
          cases scanned
          exact Text.byteLength_pos (List.cons_ne_nil _ _)

end

end Cursor

/-! ## Cursors -/

structure Cursor where
  text : List Char
  offset : Nat
  line : Nat
  column : Nat
  keepsTrivia : Bool
  finished : Bool
deriving DecidableEq, Repr

namespace Cursor

structure Piece where
  kind : TokenKind
  text : String
  span : Span
  line : Nat
  column : Nat
deriving DecidableEq, Repr

structure Failure where
  fault : LexFault
  span : Span
  line : Nat
  column : Nat
deriving DecidableEq, Repr

def ofText (text : List Char) : Cursor := ⟨text, 0, 1, 1, false, false⟩

def withTrivia (cursor : Cursor) : Cursor := { cursor with keepsTrivia := true }

def eofPosition (cursor : Cursor) : Span × Nat × Nat :=
  (.empty cursor.offset, cursor.line, cursor.column)

/-- Moves past some text: the column starts anew after its last newline. -/
def advance (cursor : Cursor) (passed : List Char) : Except Text.CutError Cursor := do
  let offset := cursor.offset + Text.byteLength passed
  match Text.findLast? (· == '\n') passed with
  | some newline =>
    let lastLine ← Text.cutFrom passed (newline + 1)
    return { cursor with
      offset, line := cursor.line + passed.count '\n', column := 1 + lastLine.length }
  | none => return { cursor with offset, column := cursor.column + passed.length }

def scanToken (cursor : Cursor) : Except Text.CutError (Except Failure Piece × Cursor) := do
  let rest ← Text.cutFrom cursor.text cursor.offset
  match ← scan rest with
  | .error fault =>
    let width := (rest.head?.map Char.utf8Size).getD 0
    return (.error ⟨fault, ⟨cursor.offset, cursor.offset + width⟩, cursor.line, cursor.column⟩,
      cursor)
  | .ok (kind, length) =>
    let text ← Text.cutBefore rest length
    let after ← cursor.advance text
    return (.ok ⟨kind, .ofList text, ⟨cursor.offset, cursor.offset + length⟩, cursor.line,
      cursor.column⟩, after)

theorem advance_eq_ok {cursor after : Cursor} {passed : List Char}
    (isAfter : cursor.advance passed = .ok after) :
    after.text = cursor.text ∧ after.offset = cursor.offset + Text.byteLength passed := by
  unfold advance at isAfter
  dsimp only at isAfter
  cases isLast : Text.findLast? (· == '\n') passed with
  | none =>
      rw [isLast] at isAfter
      cases isAfter
      exact ⟨rfl, rfl⟩
  | some newline =>
      rw [isLast] at isAfter
      dsimp only at isAfter
      cases isCut : Text.cutFrom passed (newline + 1) with
      | error cut =>
          rw [isCut] at isAfter
          cases isAfter
      | ok lastLine =>
          rw [isCut] at isAfter
          cases isAfter
          exact ⟨rfl, rfl⟩

/-- A piece has at least one byte, so the cursor moves on. -/
theorem scanToken_eq_ok {cursor after : Cursor} {piece : Piece}
    (isPiece : cursor.scanToken = .ok (.ok piece, after)) :
    after.text = cursor.text ∧ cursor.offset < after.offset := by
  unfold scanToken at isPiece
  cases isRest : Text.cutFrom cursor.text cursor.offset with
  | error cut =>
      rw [isRest] at isPiece
      cases isPiece
  | ok rest =>
      rw [isRest] at isPiece
      dsimp only [bind, Except.bind] at isPiece
      cases scanned : scan rest with
      | error cut =>
          rw [scanned] at isPiece
          cases isPiece
      | ok outcome =>
          rw [scanned] at isPiece
          dsimp only at isPiece
          cases outcome with
          | error fault => cases isPiece
          | ok lexeme =>
              obtain ⟨kind, length⟩ := lexeme
              dsimp only at isPiece
              unfold Text.cutBefore at isPiece
              cases isCut : Text.splitAt? length rest with
              | none =>
                  rw [isCut] at isPiece
                  cases isPiece
              | some parts =>
                  obtain ⟨text, others⟩ := parts
                  rw [isCut] at isPiece
                  dsimp only at isPiece
                  cases isAfter : cursor.advance text with
                  | error cut =>
                      rw [isAfter] at isPiece
                      cases isPiece
                  | ok moved =>
                      rw [isAfter] at isPiece
                      cases isPiece
                      obtain ⟨sameText, isOffset⟩ := advance_eq_ok isAfter
                      have isLength := (Text.splitAt?_eq_some isCut).2
                      have positive := scan_length_pos scanned
                      exact ⟨sameText, by omega⟩

def next (cursor : Cursor) : Except Text.CutError (Option (Except Failure Piece) × Cursor) :=
  if cursor.finished then
    .ok (none, cursor)
  else if inside : Text.byteLength cursor.text ≤ cursor.offset then
    .ok (none, { cursor with finished := true })
  else
    match result : cursor.scanToken with
    | .error cut => .error cut
    | .ok (.error failure, after) => .ok (some (.error failure), { after with finished := true })
    | .ok (.ok piece, after) =>
      have closer : Text.byteLength after.text - after.offset <
          Text.byteLength cursor.text - cursor.offset := by
        obtain ⟨sameText, moved⟩ := scanToken_eq_ok result
        rw [sameText]
        omega
      if piece.kind.isTrivia && !cursor.keepsTrivia then next after
      else .ok (some (.ok piece), after)
termination_by Text.byteLength cursor.text - cursor.offset

end Cursor

end ScalarLang
