import ScalarLang.Text.Ligature
import ScalarLang.Text.Picture
import ScalarLang.Text.WidthClass

/-!
# Display width

The number of columns that a text takes on a terminal.  Most characters take one
column, some take none, two or three, and some sequences take fewer columns than
their characters do one by one: a picture with its selector, its skin tone or its
tags, pictures and flags glued by joiners, and letters that are drawn as one.

The text is read from its end, and what has been read decides how a character
combines with the characters after it.
-/

set_option autoImplicit false

namespace ScalarLang

namespace Text

/-- What stands directly after a character, as far as it matters to its width. -/
inductive Following where
  /-- Nothing that combines with the character. -/
  | plain
  /-- A picture. -/
  | picture
  /-- A skin tone. -/
  | tone
  /-- The last letter of a flag. -/
  | indicator
  /-- Several letters of flags. -/
  | indicators
  /-- A joiner before a picture. -/
  | joined
  /-- A keycap before a joiner before a picture. -/
  | joinedKeycap
  /-- One letter of a flag before a joiner before a picture. -/
  | joinedIndicator
  /-- An even or odd number of letters of flags, more than one, before a joiner before
  a picture. -/
  | joinedIndicators (even : Bool)
  /-- Tags before a joiner before a picture: a number of digits, which come first, and
  a number of letters. -/
  | joinedTags (digits letters : Nat)
  /-- An alef, perhaps after marks. -/
  | alef
  /-- The last part of letters that are drawn as one, and whether a joiner stands
  before it. -/
  | ligature (tail : LigatureTail) (afterJoiner : Bool)
deriving DecidableEq, Repr

inductive Selector where
  | picture
  | text
deriving DecidableEq, Repr

structure WidthContext where
  following : Following
  selector : Option Selector
deriving DecidableEq, Repr

namespace Following

/-- Letters that are drawn as one reach across selectors. -/
def isLetter : Following → Bool
  | .alef => true
  | .ligature _ _ => true
  | _ => false

/-- A selector of pictures keeps a joiner after it, directly or after a keycap. -/
def isJoined : Following → Bool
  | .joined => true
  | .joinedKeycap => true
  | _ => false

/-- What a character is to the character before it when it does not combine with
what follows. -/
def ofCharacter (character : Char) : Following :=
  if isTone character then .tone
  else if isIndicator character then .indicator
  else if isPicture character then .picture
  else if isAlef character then .alef
  else
    match LigatureTail.ofCharacter? character with
    | some tail => .ligature tail false
    | none => .plain

/-- What tags before a joined picture become with one more character.  Tags that name
a region are three digits before at most four letters, or three to six letters. -/
def combineTags (digits letters : Nat) (character : Char) : Option (Int × Following) :=
  if isTagLetter character && digits == 0 && letters < 6 then
    some (0, .joinedTags 0 (letters + 1))
  else if isTagDigit character && (if digits == 0 then letters < 5 else digits < 3) then
    some (0, .joinedTags (digits + 1) letters)
  else if character == taggedFlag && (digits == 3 || digits == 0 && 3 ≤ letters) then
    some (0, .picture)
  else none

def combineJoined (character : Char) : Option (Int × Following) :=
  if character = keycap then some (0, .joinedKeycap)
  else if isIndicator character then some (1, .joinedIndicator)
  else if isTone character then some (0, .tone)
  else if character = tagEnd then some (0, .joinedTags 0 0)
  else if isPicture character then some (0, .picture)
  else none

/-- The columns that a character adds if it combines with what follows, and what they
are together to the character before them.  A flag takes the columns of its two
letters, and one that a joiner glues to a picture takes none. -/
def combine? (following : Following) (character : Char) : Option (Int × Following) :=
  match following with
  | .plain => none
  | .picture => if character = joiner then some (0, .joined) else none
  | .tone =>
    if character = joiner then some (0, .joined)
    else if isToneBase character then some (0, .picture)
    else none
  | .indicator => if isIndicator character then some (1, .indicators) else none
  | .indicators =>
    if character = joiner then some (0, .joined)
    else if isIndicator character then some (1, .indicators)
    else none
  | .joined => combineJoined character
  | .joinedKeycap => none
  | .joinedIndicator =>
    if isIndicator character then some (-1, .joinedIndicators true) else none
  | .joinedIndicators even =>
    if character = joiner then some (0, .joined)
    else if isIndicator character then
      some (if even then 3 else -1, .joinedIndicators !even)
    else none
  | .joinedTags digits letters => combineTags digits letters character
  | .alef =>
    if isLam character then some (0, .plain)
    else if isTransparent character then some (0, .alef)
    else none
  | .ligature tail afterJoiner =>
    if character = joiner then some (0, .ligature tail true)
    else if isHiddenMark character then some (0, .ligature tail afterJoiner)
    else
      match tail.extend? afterJoiner character with
      | some (columns, some extended) => some (columns, .ligature extended true)
      | some (columns, none) => some (columns, .plain)
      | none => none

end Following

namespace WidthContext

def ofFollowing (following : Following) : WidthContext := ⟨following, none⟩

def plain : WidthContext := ofFollowing .plain

def select (context : WidthContext) (selector : Selector) : WidthContext :=
  let kept :=
    context.following.isLetter ||
      (selector == .picture && context.following.isJoined)
  ⟨if kept then context.following else .plain, some selector⟩

/-- The columns that a character adds, and what they are together to the character
before them, if no selector asks for its picture. -/
def addUnselected (context : WidthContext) (character : Char) : Int × WidthContext :=
  if character = pictureSelector then (0, context.select .picture)
  else if character = textSelector then (0, context.select .text)
  else if context.selector == some .text && hasNarrowForm character then (1, plain)
  else
    match context.following.combine? character with
    | some (columns, following) => (columns, ofFollowing following)
    | none => (characterWidth character, ofFollowing (.ofCharacter character))

def add (context : WidthContext) (character : Char) : Int × WidthContext :=
  if context.selector = some .picture then
    if hasPictureForm character then
      (if context.following.isJoined then 0 else 2, ofFollowing .picture)
    else
      addUnselected
        (if context.following.isLetter then ofFollowing context.following else plain)
        character
  else addUnselected context character

end WidthContext

def widthState : List Char → Int × WidthContext
  | [] => (0, .plain)
  | character :: rest =>
    let (columns, context) := widthState rest
    let (added, extended) := context.add character
    (columns + added, extended)

def displayWidth (text : List Char) : Nat := (widthState text).1.toNat

end Text

end ScalarLang
