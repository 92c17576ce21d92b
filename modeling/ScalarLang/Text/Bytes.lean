/-!
# Texts measured in bytes

Characters are measured by the length of their UTF-8 encoding.  A cut at a byte
offset exists only where the offset lies between two characters.  Searching a text
gives byte offsets.
-/

set_option autoImplicit false

namespace ScalarLang

namespace Text

def byteLength : List Char → Nat
  | [] => 0
  | character :: rest => character.utf8Size + byteLength rest

/-- The text before and the text from a byte offset, if the offset lies between
two characters or at an end. -/
def splitAt? : Nat → List Char → Option (List Char × List Char)
  | 0, text => some ([], text)
  | _ + 1, [] => none
  | offset + 1, character :: rest =>
    if character.utf8Size ≤ offset + 1 then
      match splitAt? (offset + 1 - character.utf8Size) rest with
      | some (before, after) => some (character :: before, after)
      | none => none
    else
      none

/-- The text between two byte offsets, if both lie between characters and in
this order. -/
def slice? (text : List Char) (start stop : Nat) : Option (List Char) :=
  if stop < start then
    none
  else
    match splitAt? start text with
    | some (_, after) => (splitAt? (stop - start) after).map Prod.fst
    | none => none

/-- A text was to be cut at an offset that is beyond its end or inside a character. -/
structure CutError where
  text : List Char
  offset : Nat
deriving DecidableEq, Repr

def cutBefore (text : List Char) (offset : Nat) : Except CutError (List Char) :=
  match splitAt? offset text with
  | some (before, _) => .ok before
  | none => .error ⟨text, offset⟩

def cutFrom (text : List Char) (offset : Nat) : Except CutError (List Char) :=
  match splitAt? offset text with
  | some (_, after) => .ok after
  | none => .error ⟨text, offset⟩

def find? (accepts : Char → Bool) : List Char → Option Nat
  | [] => none
  | character :: rest =>
    if accepts character then some 0 else (find? accepts rest).map (· + character.utf8Size)

def findLast? (accepts : Char → Bool) : List Char → Option Nat
  | [] => none
  | character :: rest =>
    match findLast? accepts rest with
    | some offset => some (offset + character.utf8Size)
    | none => if accepts character then some 0 else none

def findText? (pattern : List Char) : List Char → Option Nat
  | [] => if pattern.isEmpty then some 0 else none
  | character :: rest =>
    if pattern.isPrefixOf (character :: rest) then some 0
    else (findText? pattern rest).map (· + character.utf8Size)

/-- The number of bytes at the start of a text whose characters are all accepted. -/
def runLength (accepts : Char → Bool) (text : List Char) : Nat :=
  (find? (fun character => !accepts character) text).getD (byteLength text)

def charIndices : Nat → List Char → List (Nat × Char)
  | _, [] => []
  | offset, character :: rest =>
    (offset, character) :: charIndices (offset + character.utf8Size) rest

@[simp]
theorem byteLength_nil : byteLength [] = 0 := rfl

@[simp]
theorem byteLength_cons (character : Char) (rest : List Char) :
    byteLength (character :: rest) = character.utf8Size + byteLength rest := rfl

@[simp]
theorem byteLength_append (left right : List Char) :
    byteLength (left ++ right) = byteLength left + byteLength right := by
  induction left with
  | nil => simp
  | cons character rest inductionHypothesis =>
      simp [inductionHypothesis, Nat.add_assoc]

/-- A cut loses nothing: the two parts make up the text, and the first one has
as many bytes as the offset says. -/
theorem splitAt?_eq_some {offset : Nat} {text before after : List Char}
    (cut : splitAt? offset text = some (before, after)) :
    before ++ after = text ∧ byteLength before = offset := by
  induction text generalizing offset before with
  | nil =>
      cases offset with
      | zero => simp_all [splitAt?]
      | succ offset => simp [splitAt?] at cut
  | cons character rest inductionHypothesis =>
      cases offset with
      | zero =>
          simp only [splitAt?, Option.some.injEq, Prod.mk.injEq] at cut
          obtain ⟨rfl, rfl⟩ := cut
          simp
      | succ offset =>
          unfold splitAt? at cut
          split at cut
          · split at cut
            · rename_i fits _ tailBefore tailAfter tailCut
              simp only [Option.some.injEq, Prod.mk.injEq] at cut
              obtain ⟨rfl, rfl⟩ := cut
              obtain ⟨joined, measured⟩ := inductionHypothesis tailCut
              simp only [List.cons_append, joined, byteLength_cons, measured, true_and]
              omega
            · simp at cut
          · simp at cut

/-- A text cuts at the end of any of its prefixes. -/
theorem splitAt?_byteLength (before after : List Char) :
    splitAt? (byteLength before) (before ++ after) = some (before, after) := by
  induction before with
  | nil => simp [splitAt?]
  | cons character rest inductionHypothesis =>
      obtain ⟨size, sizeEquation⟩ : ∃ size, character.utf8Size = size + 1 :=
        Nat.exists_eq_add_one.mpr character.utf8Size_pos
      have shape : byteLength (character :: rest) = size + byteLength rest + 1 := by
        simp only [byteLength_cons, sizeEquation]
        omega
      rw [shape, List.cons_append, splitAt?]
      have fits : character.utf8Size ≤ size + byteLength rest + 1 := by omega
      have remaining : size + byteLength rest + 1 - character.utf8Size = byteLength rest := by
        omega
      rw [if_pos fits, remaining, inductionHypothesis]

/-! ## Cuts and runs -/

theorem byteLength_pos {text : List Char} (some : text ≠ []) : 0 < byteLength text := by
  obtain ⟨first, others, rfl⟩ := List.exists_cons_of_ne_nil some
  have := first.utf8Size_pos
  rw [byteLength_cons]
  omega

theorem runLength_eq (accepts : Char → Bool) (text : List Char) :
    runLength accepts text = byteLength (text.takeWhile accepts) := by
  induction text with
  | nil => rfl
  | cons character rest inductionHypothesis =>
      unfold runLength at inductionHypothesis ⊢
      by_cases accepted : accepts character = true
      · rw [List.takeWhile_cons_of_pos accepted, find?, if_neg (by simp [accepted]),
          byteLength_cons _ (rest.takeWhile accepts), ← inductionHypothesis]
        cases find? (fun character => !accepts character) rest with
        | none => simp
        | some offset => simp [Nat.add_comm]
      · rw [List.takeWhile_cons_of_neg accepted, find?, if_pos (by simp [accepted])]
        rfl

theorem cutBefore_append (before after : List Char) :
    cutBefore (before ++ after) (byteLength before) = .ok before := by
  rw [cutBefore, splitAt?_byteLength]

theorem cutFrom_append (before after : List Char) :
    cutFrom (before ++ after) (byteLength before) = .ok after := by
  rw [cutFrom, splitAt?_byteLength]

theorem take_length_takeWhile (accepts : Char → Bool) (text : List Char) :
    text.take (text.takeWhile accepts).length = text.takeWhile accepts :=
  (List.prefix_iff_eq_take.mp (List.takeWhile_prefix accepts)).symm

theorem drop_length_takeWhile (accepts : Char → Bool) (text : List Char) :
    text.drop (text.takeWhile accepts).length = text.dropWhile accepts := by
  have whole := List.takeWhile_append_dropWhile (p := accepts) (l := text)
  have dropped : (text.takeWhile accepts ++ text.dropWhile accepts).drop
      (text.takeWhile accepts).length = text.dropWhile accepts := List.drop_left
  rwa [whole] at dropped

end Text

end ScalarLang
