import FeedForward.Decimal.Rounding

/-!
# The fewest digits that read back

Between a double and its two neighbours lie two midpoints; every number between the
midpoints is read as that double, and so is a midpoint itself when the mantissa of
the double is even. Of the decimal grids with one, two, … significant digits the
first with a point in that interval is taken, and on it the point nearest to the
double.
-/

namespace FeedForward.Decimal

/-- The quarter points around `mantissa * 2 ^ exponent`: in units of `2 ^ (exponent - 2)`
the lower midpoint, the number and the upper midpoint. Below a power of two the lower
neighbour is only half as far away. -/
def quarterPoints (mantissa : Nat) (exponent : Int) : Nat × Nat × Nat :=
  let below := if mantissa = 0x10000000000000 ∧ -1074 < exponent then 1 else 2
  (4 * mantissa - below, 4 * mantissa, 4 * mantissa + 2)

/-- The point of the grid with `count` significant digits that reads back as
`mantissa * 2 ^ exponent` and is nearest to it, if one reads back. -/
def readingBack? (mantissa : Nat) (exponent : Int) (power : Int) (count : Nat) : Option Digits :=
  let (low, mid, high) := quarterPoints mantissa exponent
  let step := power - ((count - 1 : Nat) : Int)
  let (unitNum, unitDen) := fractionOf 1 (exponent - 2)
  let (scale, den) := scaled unitNum unitDen step
  let inside (point : Nat) : Bool :=
    if mantissa % 2 = 0 then low * scale ≤ point * den && point * den ≤ high * scale
    else low * scale < point * den && point * den < high * scale
  let floor := mid * scale / den
  let rest := mid * scale - floor * den
  let upperIsNearer := den < 2 * rest || (2 * rest == den && floor % 2 == 1)
  let chosen : Option Nat :=
    match inside floor, inside (floor + 1) with
    | true, true => some (if upperIsNearer then floor + 1 else floor)
    | true, false => some floor
    | false, true => some (floor + 1)
    | false, false => none
  chosen.map fun digits => Digits.normal count digits power

/-- The fewest significant digits that read back as `mantissa * 2 ^ exponent`. -/
def shortest (mantissa : Nat) (exponent : Int) : Digits :=
  let (num, den) := fractionOf mantissa exponent
  let power := leadingPower num den
  ((List.range 17).findSome? fun n => readingBack? mantissa exponent power (n + 1)).getD
    (significant 17 num den)

end FeedForward.Decimal
