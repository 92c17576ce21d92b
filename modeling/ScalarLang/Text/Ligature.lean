import ScalarLang.Text.Picture
import ScalarLang.Text.WidthClass

/-!
# Letters that join

Some letters are drawn together with letters before them and then take fewer
columns.  Marks that are not shown may stand between them; a joiner may, and in some
scripts must.
-/

set_option autoImplicit false

namespace ScalarLang

namespace Text

/-- The last part of letters that are drawn as one. -/
inductive LigatureTail where
  /-- A Hebrew lamed. -/
  | lamed
  /-- A Buginese letter ya. -/
  | ya
  /-- A Buginese vowel sign, joined to the letter ya. -/
  | vowelYa
  /-- A Tifinagh consonant. -/
  | consonant
  /-- A Tifinagh consonant after the sign that joins consonants. -/
  | joinedConsonant
  /-- A Lisu tone letter that follows another. -/
  | tone
  /-- An Orkhon letter i. -/
  | orkhonI
  /-- A Khmer letter that is written below another. -/
  | subscript
deriving DecidableEq, Repr

def isLam (character : Char) : Bool :=
  inRanges [(0x0644, 0x0644), (0x06B5, 0x06B8), (0x076A, 0x076A), (0x08A6, 0x08A6),
    (0x08C7, 0x08C7)] character

def isAlef (character : Char) : Bool :=
  inRanges [(0x0622, 0x0623), (0x0625, 0x0625), (0x0627, 0x0627), (0x0671, 0x0673),
    (0x0675, 0x0675), (0x0773, 0x0774), (0x0870, 0x0882)] character

def isConsonant (character : Char) : Bool :=
  inRanges [(0x2D31, 0x2D65), (0x2D6F, 0x2D6F)] character

/-- Khmer letters that can be written below another. -/
def isSubscript (character : Char) : Bool :=
  inRanges [(0x1780, 0x1782), (0x1784, 0x1787), (0x1789, 0x178C), (0x178E, 0x1793),
    (0x1795, 0x1798), (0x179B, 0x179D), (0x17A0, 0x17A0), (0x17A2, 0x17A2),
    (0x17A7, 0x17A7), (0x17AB, 0x17AC), (0x17AF, 0x17AF)] character

/-- Marks that are not shown and that letters join across. -/
def isHiddenMark (character : Char) : Bool :=
  inRanges [(0x034F, 0x034F), (0x17B4, 0x17B5), (0x180B, 0x180D), (0x180F, 0x180F),
    (0xFE00, 0xFE0F), (0xE0100, 0xE01EF)] character

namespace LigatureTail

def ofCharacter? (character : Char) : Option LigatureTail :=
  if character = Char.ofNat 0x05DC then some .lamed
  else if character = Char.ofNat 0x1A10 then some .ya
  else if isConsonant character then some .consonant
  else if inRanges [(0xA4FC, 0xA4FD)] character then some .tone
  else if character = Char.ofNat 0x10C03 then some .orkhonI
  else if isSubscript character then some .subscript
  else none

/-- The columns that a character adds before a tail, and the tail they make together
if they still join to the left.  The flag says whether a joiner stands between. -/
def extend? (tail : LigatureTail) (joined : Bool) (character : Char) :
    Option (Int × Option LigatureTail) :=
  match tail with
  | .lamed =>
    if joined && character == Char.ofNat 0x05D0 then some (0, none) else none
  | .ya =>
    if joined && character == Char.ofNat 0x1A17 then some (0, some .vowelYa) else none
  | .vowelYa => if character = Char.ofNat 0x1A15 then some (0, none) else none
  | .consonant =>
    if character = Char.ofNat 0x2D7F then some (1, some .joinedConsonant)
    else if joined && isConsonant character then some (0, none)
    else none
  | .joinedConsonant => if isConsonant character then some (-1, none) else none
  | .tone => if inRanges [(0xA4F8, 0xA4FB)] character then some (0, none) else none
  | .orkhonI =>
    if joined && character == Char.ofNat 0x10C32 then some (0, none) else none
  | .subscript => if character = Char.ofNat 0x17D2 then some (-1, none) else none

end LigatureTail

end Text

end ScalarLang
