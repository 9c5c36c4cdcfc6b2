/-!
# Binary floating-point words

A double is read as a sign, a whole number and a power of two, which is all that its
decimal text depends on. Narrowing a double to a single rounds to the nearest single,
a tie to the even one; widening is exact. A word that stands for no number keeps its sign
and as much else as there is room for. Both work on the words alone, so that what they do
to a number can be reasoned about.
-/

namespace FeedForward.Numeric

/-- What a double stands for: `mantissa * 2 ^ exponent` with a sign when it is finite. -/
inductive Decoded where
  | nan
  | infinite (negative : Bool)
  | finite (negative : Bool) (mantissa : Nat) (exponent : Int)

/-- The parts of a double, given by its word. -/
def decodeBits (bits : UInt64) : Decoded :=
  let negative := bits >>> 63 == 1
  let field := ((bits >>> 52) &&& 0x7ff).toNat
  let fraction := (bits &&& 0xfffffffffffff).toNat
  if field = 0x7ff then (if fraction = 0 then .infinite negative else .nan)
  else if field = 0 then .finite negative fraction (-1074)
  else .finite negative (fraction + 0x10000000000000) ((field : Int) - 1075)

/-- `word / 2 ^ places` to the nearest whole number, a tie to the even one. -/
def roundedShift (word places : UInt64) : UInt64 :=
  let quotient := word >>> places
  let rest := word - (quotient <<< places)
  let half := (1 : UInt64) <<< (places - 1)
  if half < rest || (rest == half && quotient &&& 1 == 1) then quotient + 1 else quotient

/-- The word of the single nearest to the double with a given word. -/
def narrowBits (bits : UInt64) : UInt32 :=
  let sign := ((bits >>> 63) <<< 31).toUInt32
  let magnitude := bits &&& 0x7fffffffffffffff
  let field := magnitude >>> 52
  if 0x7ff0000000000000 < magnitude then
    sign ||| ((magnitude &&& 0x7ffffffffffff) >>> 29).toUInt32 ||| 0x7fc00000
  else if field < 873 then sign
  else if field < 897 then
    sign ||| (roundedShift ((magnitude &&& 0xfffffffffffff) ||| 0x10000000000000)
      (926 - field)).toUInt32
  else
    let rounded := roundedShift (magnitude - 0x3800000000000000) 29
    sign ||| (if rounded < 0x7f800000 then rounded.toUInt32 else 0x7f800000)

/-- The word of the double equal to the single with a given word. -/
def widenBits (bits : UInt32) : UInt64 :=
  let sign := (bits >>> 31).toUInt64 <<< 63
  let magnitude := (bits &&& 0x7fffffff).toUInt64
  if 0x7f800000 < magnitude then
    sign ||| ((magnitude &&& 0x3fffff) <<< 29) ||| 0x7ff8000000000000
  else if magnitude == 0x7f800000 then sign ||| 0x7ff0000000000000
  else if magnitude == 0 then sign
  else if magnitude < 0x800000 then
    let top := magnitude.log2
    sign ||| (((top + 874) <<< 52) + ((magnitude - ((1 : UInt64) <<< top)) <<< (52 - top)))
  else sign ||| ((magnitude <<< 29) + 0x3800000000000000)

/-- The word of the single `count / 2 ^ 24`, for `|count| ≤ 2 ^ 24`. -/
def fractionBits (count : Int) : UInt32 :=
  let sign : UInt32 := if count < 0 then 0x80000000 else 0
  let magnitude := count.natAbs.toUInt32
  if magnitude == 0 then 0
  else
    let top := magnitude.log2
    sign ||| (((top + 103) <<< 23) + ((magnitude - ((1 : UInt32) <<< top)) <<< (23 - top)))

end FeedForward.Numeric
