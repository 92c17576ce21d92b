/-!
# Visible text

A terminal obeys control characters and sequences of characters that an escape
character starts.  The visible part of a text is what is left without them; blanks
and the ends of lines stay.  Such a blank inside a sequence interrupts it: what
follows is shown up to the next control character, from which the sequence goes on.
-/

set_option autoImplicit false

namespace ScalarLang

namespace Text

inductive ControlState where
  /-- In no sequence. -/
  | ground
  /-- After the escape character. -/
  | escape
  /-- After an escape character and other characters before the last one. -/
  | intermediate
  /-- In a sequence with numbers, which a letter ends. -/
  | sequence
  /-- At the start of the head of a string for the device. -/
  | header
  /-- After a number in such a head. -/
  | headerNumber
  /-- After other characters in such a head. -/
  | headerIntermediate
  /-- In a string. -/
  | string
  /-- In a command, which a bell ends. -/
  | command
deriving DecidableEq, Repr

def isBetween (low high : Nat) (character : Char) : Bool :=
  low ≤ character.toNat && character.toNat ≤ high

/-- Whether a character is a control character that moves the place of writing as
blanks do. -/
def isBlankControl (character : Char) : Bool :=
  isBetween 0x09 0x0A character || isBetween 0x0C 0x0D character

namespace ControlState

def afterEscape (character : Char) : ControlState :=
  if isBetween 0x20 0x2F character then .intermediate
  else if character = '[' then .sequence
  else if character = ']' then .command
  else if character = 'P' then .header
  else if character = 'X' || character = '^' || character = '_' then .string
  else if isBetween 0x30 0x7E character then .ground
  else .escape

def next (state : ControlState) (character : Char) : ControlState :=
  if character.toNat = 0x1B then .escape
  else if character.toNat = 0x18 || character.toNat = 0x1A then .ground
  else
    match state with
    | .ground => .ground
    | .escape => afterEscape character
    | .intermediate => if isBetween 0x30 0x7E character then .ground else .intermediate
    | .sequence => if isBetween 0x40 0x7E character then .ground else .sequence
    | .header =>
      if isBetween 0x20 0x2F character then .headerIntermediate
      else if character = ':' || isBetween 0x40 0x7E character then .string
      else if isBetween 0x30 0x3F character then .headerNumber
      else .header
    | .headerNumber =>
      if isBetween 0x20 0x2F character then .headerIntermediate
      else if character = ':' || isBetween 0x3C 0x7E character then .string
      else .headerNumber
    | .headerIntermediate =>
      if isBetween 0x30 0x7E character then .string else .headerIntermediate
    | .string =>
      if (String.singleton character).toUTF8.toList.contains 0x9C then .ground else .string
    | .command => if character.toNat = 0x07 then .ground else .command

def shows (state : ControlState) (character : Char) : Bool :=
  match state with
  | .ground =>
    isBlankControl character || isBetween 0x20 0x7E character || 0x80 ≤ character.toNat
  | .escape => isBlankControl character
  | .intermediate => isBlankControl character
  | .sequence => isBlankControl character
  | _ => false

end ControlState

/-- The state after a character that is shown.  A character beyond the first 128 ends
a sequence that was interrupted. -/
def ControlState.afterShown (state : ControlState) (character : Char) : ControlState :=
  if 0x80 ≤ character.toNat then .ground else state

/-- The characters of a text that are shown from a state on, where the character
before was shown or not. -/
def visibleFrom (showing : Bool) (state : ControlState) : List Char → List Char
  | [] => []
  | character :: rest =>
    let view := if showing then ControlState.ground else state
    if view.shows character then
      character :: visibleFrom true (state.afterShown character) rest
    else visibleFrom false (state.next character) rest

def visible (text : String) : String := String.ofList (visibleFrom true .ground text.toList)

end Text

end ScalarLang
