import ScalarLang.Numeric.Binary64

/-!
# Decimal text of doubles

The text of a double is the decimal with the fewest digits that is nearer to this double than to
any other.  The reals that round to a double form an interval, whose ends belong to it if the
significand is even.  On the grid of decimals with one digit, two digits and so on, the two
neighbours of the double are tried; the first grid with a neighbour inside the interval gives the
digits.  Numbers from one ten-thousandth up to ten to the sixteenth are written positionally, with
at least one digit after the point; all others are written with an exponent.
-/

set_option autoImplicit false

namespace ScalarLang

/-! ## Shortest decimals -/

namespace Binary64

/-- The interval of the reals that round to a positive double, in units of a
quarter of the least positive double, with the double itself in the middle. -/
structure RoundingInterval where
  low : Nat
  middle : Nat
  high : Nat
  closed : Bool
deriving DecidableEq, Repr

/-- The rounding interval of a positive double.  Below a power of two the
doubles lie twice as close as above it. -/
def roundingInterval (number : Binary64) : RoundingInterval :=
  let unit := Nat.pow 2 number.scale
  let gapBelow := if number.significand = Nat.pow 2 fractionBits then 1 else 2
  { low := (4 * number.significand - gapBelow) * unit
    middle := 4 * number.significand * unit
    high := (4 * number.significand + 2) * unit
    closed := number.significand % 2 == 0 }

structure Decimal where
  digits : Nat
  exponent : Int
deriving DecidableEq, Repr

/-- The quarters of the least positive double that make up the number one. -/
def unitsOfOne : Nat := Nat.pow 2 1076

/-- The factors by which a number of quarters and a whole number of tens to the
given power are multiplied before they are compared. -/
def gridFactors (exponent : Int) : Nat × Nat :=
  match exponent with
  | .ofNat power => (1, unitsOfOne * Nat.pow 10 power)
  | .negSucc power => (Nat.pow 10 (power + 1), unitsOfOne)

/-- The neighbour of a double on the grid of the multiples of a power of ten, if
one lies in the rounding interval: of two the nearer, and of two equally near
the greater. -/
def neighbour? (interval : RoundingInterval) (exponent : Int) : Option Nat :=
  let (factor, unit) := gridFactors exponent
  let below := interval.middle * factor / unit
  let inside (multiple : Nat) : Bool :=
    let place := multiple * unit
    let low := interval.low * factor
    let high := interval.high * factor
    if interval.closed then low ≤ place && place ≤ high else low < place && place < high
  let nearerBelow : Bool :=
    2 * (interval.middle * factor) < (2 * below + 1) * unit
  if inside below && inside (below + 1) then
    some (if nearerBelow then below else below + 1)
  else if inside below then some below
  else if inside (below + 1) then some (below + 1)
  else none

def magnitudeFrom (quarters : Nat) : Nat → Int → Int
  | 0, power => power
  | fuel + 1, power =>
    let (factor, unit) := gridFactors (power - 1)
    if quarters * factor < unit then magnitudeFrom quarters fuel (power - 1) else power

/-- The least power of ten above a positive number of quarters.  The number of
its binary digits gives a power at most three too large. -/
def magnitude (quarters : Nat) : Int :=
  let binary : Int := Int.ofNat (Nat.log2 quarters) - 1076
  magnitudeFrom quarters 4 (binary * 30103 / 100000 + 2)

def shortestFrom (interval : RoundingInterval) (top : Int) : Nat → Nat → Decimal
  | 0, count => ⟨interval.middle, top - count⟩
  | fuel + 1, count =>
    match neighbour? interval (top - count) with
    | some digits => ⟨digits, top - count⟩
    | none => shortestFrom interval top fuel (count + 1)

/-- The decimal with the fewest digits that rounds to a positive finite double. -/
def shortest (number : Binary64) : Decimal :=
  let interval := number.roundingInterval
  shortestFrom interval (magnitude interval.middle) 17 1

def Decimal.trimmed (decimal : Decimal) : Decimal :=
  go decimal.digits decimal.exponent
where
  /-- Drops one final zero at a time. -/
  go (digits : Nat) (exponent : Int) : Decimal :=
    if more : digits ≠ 0 ∧ digits % 10 = 0 then go (digits / 10) (exponent + 1)
    else ⟨digits, exponent⟩
  termination_by digits
  decreasing_by omega

end Binary64

/-! ## Texts -/

/-- The range of decimal exponents that are written positionally: the number is
at least ten to the power `least` and less than ten to the power `bound`. -/
structure PositionalRange where
  least : Int
  bound : Int
deriving DecidableEq, Repr

namespace Binary64

/-- Doubles in a listing of a program are positional from `0.0001` up to
`9999999999999998.0`. -/
def positional : PositionalRange := ⟨-4, 16⟩

def zeros (count : Nat) : String := String.ofList (List.replicate count '0')

def positionalText (digits : List Char) (point : Int) : String :=
  match point with
  | .negSucc missing => "0." ++ zeros (missing + 1) ++ String.ofList digits
  | .ofNat 0 => "0." ++ String.ofList digits
  | .ofNat count =>
    let whole := digits.take count
    let decimals := digits.drop count
    String.ofList whole ++ zeros (count - digits.length) ++ "." ++
      (if decimals.isEmpty then "0" else String.ofList decimals)

def exponentText (digits : List Char) (exponent : Int) : String :=
  match digits with
  | [] => ""
  | [digit] => digit.toString ++ "e" ++ toString exponent
  | first :: others =>
    first.toString ++ "." ++ String.ofList others ++ "e" ++ toString exponent

def text (number : Binary64) : String :=
  if number.isInfinite then "inf"
  else if number.significand = 0 then "0.0"
  else
    let decimal := number.shortest.trimmed
    let digits := Nat.toDigits 10 decimal.digits
    let point : Int := decimal.exponent + digits.length
    if positional.least < point ∧ point ≤ positional.bound then
      positionalText digits point
    else
      exponentText digits (point - 1)

def bitsText (number : Binary64) : String :=
  let digits := Nat.toDigits 16 number.bits.toNat
  zeros (16 - digits.length) ++ String.ofList digits

end Binary64

end ScalarLang
