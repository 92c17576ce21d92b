/-!
# Similarity of texts

Two texts are compared by the characters that they share at nearly the same places.
A character of one matches an equal character of the other that is not matched yet
and not farther away than half of the longer text.  The similarity is the mean of
three shares: matched characters of the one text, matched characters of the other,
and matched characters that stand in the same order in both.
-/

set_option autoImplicit false

namespace ScalarLang

namespace Text

/-- A number between zero and one, as a quotient. -/
structure Share where
  numerator : Nat
  denominator : Nat
deriving DecidableEq, Repr

def Share.atLeast (share other : Share) : Bool :=
  other.numerator * share.denominator ≤ share.numerator * other.denominator

/-- Marks the first character in a range of places that is equal to a character and
not marked yet. -/
def markFirst? (character : Char) (low high place : Nat) :
    List (Char × Bool) → Option (List (Char × Bool))
  | [] => none
  | (other, marked) :: rest =>
    if low ≤ place && place ≤ high && other == character && !marked then
      some ((other, true) :: rest)
    else
      match markFirst? character low high (place + 1) rest with
      | some found => some ((other, marked) :: found)
      | none => none

/-- The characters of a text that match, in order, and the other text with the
characters marked that they match. -/
def markMatches (reach place : Nat) :
    List Char → List (Char × Bool) → List Char × List (Char × Bool)
  | [], other => ([], other)
  | character :: rest, other =>
    match markFirst? character (place - reach) (place + reach) 0 other with
    | some found =>
      let (matched, marked) := markMatches reach (place + 1) rest found
      (character :: matched, marked)
    | none => markMatches reach (place + 1) rest other

def similarity (left right : List Char) : Share :=
  let reach := max left.length right.length / 2 - 1
  let (matched, marked) :=
    markMatches reach 0 left (right.map fun character => (character, false))
  let counterparts := (marked.filter Prod.snd).map Prod.fst
  let moved := ((matched.zip counterparts).filter fun pair => pair.1 != pair.2).length / 2
  let count := matched.length
  if count = 0 then ⟨0, 1⟩
  else
    ⟨count * count * right.length + count * count * left.length +
        (count - moved) * (left.length * right.length),
      3 * (left.length * right.length * count)⟩

end Text

end ScalarLang
