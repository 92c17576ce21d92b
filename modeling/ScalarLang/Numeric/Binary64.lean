/-!
# Double precision numbers

A double is kept as its bits.  The nearest double to a decimal fraction is found
in exact arithmetic: every finite double is a multiple of the least positive
one, so a fraction is measured in that unit, rounded to fifty-three significant
bits with halves going to the even neighbour, and packed.  Fractions are never
negative here, since a sign is an operator of the language.
-/

set_option autoImplicit false

namespace ScalarLang

structure Binary64 where
  bits : UInt64
deriving DecidableEq, Repr

namespace Binary64

def fractionBits : Nat := 52

def infinityBits : Nat := 0x7FF0000000000000

/-- A quotient rounded to the nearest whole number, halves to the even one. -/
def roundedQuotient (numerator denominator : Nat) : Nat :=
  let quotient := numerator / denominator
  let remainder := numerator % denominator
  if 2 * remainder < denominator then quotient
  else if denominator < 2 * remainder then quotient + 1
  else quotient + quotient % 2

/-- The bits of the double nearest to a fraction; a fraction too large for every
finite double gives infinity. -/
def nearestBits (numerator denominator : Nat) : Nat :=
  let scaled := numerator * Nat.pow 2 1074
  let exponent := Nat.log2 (scaled / denominator) - fractionBits
  let significand := roundedQuotient scaled (denominator * Nat.pow 2 exponent)
  min (exponent * Nat.pow 2 fractionBits + significand) infinityBits

/-- The double nearest to `digits / 10 ^ places`. -/
def ofDecimal (digits places : Nat) : Binary64 :=
  ⟨UInt64.ofNat (nearestBits digits (Nat.pow 10 places))⟩

def exponentField (number : Binary64) : Nat :=
  number.bits.toNat / Nat.pow 2 fractionBits % Nat.pow 2 11

def fraction (number : Binary64) : Nat := number.bits.toNat % Nat.pow 2 fractionBits

/-- Whether the number is an infinity (no other number with the greatest
exponent comes from a decimal fraction). -/
def isInfinite (number : Binary64) : Bool := number.exponentField == 0x7FF

def significand (number : Binary64) : Nat :=
  if number.exponentField = 0 then number.fraction
  else number.fraction + Nat.pow 2 fractionBits

def scale (number : Binary64) : Nat := number.exponentField - 1

end Binary64

end ScalarLang
