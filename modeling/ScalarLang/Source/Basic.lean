import ScalarLang.Text.Bytes

/-!
# Places in a text and sources with a line index

A span is a half-open range of byte offsets into a text, and a position is a byte offset together
with the line and the column it falls on; both count from one, and a column counts characters.
A source is a named text together with the offsets of its newlines, which turn byte offsets into
lines and columns by a search through the sorted offsets.  Lines are numbered from zero here; the
public line and column of an offset count from one.
-/

set_option autoImplicit false

namespace ScalarLang

/-! ## Spans -/

/-- A half-open range of byte offsets. -/
structure Span where
  start : Nat
  stop : Nat
deriving DecidableEq, Repr

namespace Span

def empty (offset : Nat) : Span := ⟨offset, offset⟩

def union (left right : Span) : Span :=
  ⟨min left.start right.start, max left.stop right.stop⟩

/-- The number of bytes covered; a span that ends before it starts covers none. -/
def length (span : Span) : Nat := span.stop - span.start

def isEmpty (span : Span) : Bool := span.length == 0

@[simp]
theorem union_start (left right : Span) :
    (left.union right).start = min left.start right.start := rfl

@[simp]
theorem union_stop (left right : Span) :
    (left.union right).stop = max left.stop right.stop := rfl

end Span

/-! ## Positions -/

/-- A byte offset with its line and its column, both counted from one. -/
structure Position where
  offset : Nat
  line : Nat
  column : Nat
deriving DecidableEq, Repr

namespace Position

def initial : Position := ⟨0, 1, 1⟩

/-- The position after one character: a newline opens the next line. -/
def step (position : Position) (character : Char) : Position :=
  if character = '\n' then
    ⟨position.offset + 1, position.line + 1, 1⟩
  else
    ⟨position.offset + character.utf8Size, position.line, position.column + 1⟩

def advance (position : Position) (text : List Char) : Position :=
  text.foldl step position

@[simp]
theorem advance_nil (position : Position) : position.advance [] = position := rfl

@[simp]
theorem advance_cons (position : Position) (character : Char) (text : List Char) :
    position.advance (character :: text) = (position.step character).advance text := rfl

theorem advance_append (position : Position) (left right : List Char) :
    position.advance (left ++ right) = (position.advance left).advance right :=
  List.foldl_append

end Position

/-! ## Sources -/

namespace Text

def newlineOffsets : Nat → List Char → List Nat
  | _, [] => []
  | offset, character :: rest =>
    if character = '\n' then
      offset :: newlineOffsets (offset + character.utf8Size) rest
    else
      newlineOffsets (offset + character.utf8Size) rest

/-- The number of entries below a bound in the sorted segment from `low` to
`high`, found by halving; entries before `low` are below the bound and entries
from `high` on are not. -/
def lowerBoundIn (entries : Array Nat) (bound low high : Nat)
    (inside : high ≤ entries.size) : Nat :=
  if open_ : low < high then
    let middle := (low + high) / 2
    have middleInside : middle < entries.size := by omega
    if entries[middle] < bound then
      lowerBoundIn entries bound (middle + 1) high inside
    else
      lowerBoundIn entries bound low middle (by omega)
  else
    low
termination_by high - low

def lowerBound (entries : Array Nat) (bound : Nat) : Nat :=
  lowerBoundIn entries bound 0 entries.size (Nat.le_refl _)

/-- A text without its last character if that character is the given one. -/
def dropFinal (character : Char) (text : List Char) : List Char :=
  if text.getLast? = some character then text.dropLast else text

end Text

structure Source where
  name : String
  text : String
  lineBreaks : Array Nat
  lineBreaks_eq : lineBreaks = (Text.newlineOffsets 0 text.toList).toArray

namespace Source

def ofText (name text : String) : Source :=
  ⟨name, text, (Text.newlineOffsets 0 text.toList).toArray, rfl⟩

def characters (source : Source) : List Char := source.text.toList

def byteLength (source : Source) : Nat := Text.byteLength source.characters

/-- The number of lines; the text after the last newline is a line, even if it
is empty. -/
def lineCount (source : Source) : Nat := source.lineBreaks.size + 1

/-- The line that holds a byte offset; a newline belongs to the line it ends. -/
def lineIndex? (source : Source) (offset : Nat) : Option Nat :=
  if source.byteLength < offset then
    none
  else
    some (Text.lowerBound source.lineBreaks offset)

def lineStart? (source : Source) : Nat → Option Nat
  | 0 => some 0
  | line + 1 => source.lineBreaks[line]?.map (· + 1)

/-- The line and the column of a byte offset, both counted from one. -/
def lineColumn? (source : Source) (offset : Nat) : Option (Nat × Nat) :=
  match source.lineIndex? offset with
  | none => none
  | some line =>
    match source.lineStart? line with
    | none => none
    | some start =>
      match Text.slice? source.characters start offset with
      | none => none
      | some before => some (line + 1, before.length + 1)

/-- The text of a line without its newline and without a carriage return
before it. -/
def lineText? (source : Source) (line : Nat) : Option (List Char) :=
  match source.lineStart? line with
  | none => none
  | some start =>
    let stop := (source.lineStart? (line + 1)).getD source.byteLength
    (Text.slice? source.characters start stop).map fun text =>
      Text.dropFinal '\r' (Text.dropFinal '\n' text)

@[simp]
theorem name_ofText (name text : String) : (ofText name text).name = name := rfl

@[simp]
theorem text_ofText (name text : String) : (ofText name text).text = text := rfl

@[simp]
theorem characters_ofText (name text : String) :
    (ofText name text).characters = text.toList := rfl

end Source

end ScalarLang
