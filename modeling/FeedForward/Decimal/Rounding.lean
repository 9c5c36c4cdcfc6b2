import FeedForward.Numeric.Binary

/-!
# Rounding to decimal digits

A positive quotient is rounded to a number of significant decimal digits in exact
arithmetic, a tie to the even digit. The result is a whole number of exactly that
many digits and the power of ten of its first digit.
-/

namespace FeedForward.Decimal

/-- The number of decimal digits of a positive number. -/
def digitCount (n : Nat) : Nat := (Nat.toDigits 10 n).length

/-- `num / den` to the nearest whole number, a tie to the even one. -/
def roundDiv (num den : Nat) : Nat :=
  let quotient := num / den
  let rest := num % den
  if den < 2 * rest || (2 * rest == den && quotient % 2 == 1) then quotient + 1 else quotient

/-- The greatest `k` with `10 ^ k ≤ num / den`, for a positive quotient. -/
def leadingPower (num den : Nat) : Int :=
  if den ≤ num then ((digitCount (num / den) - 1 : Nat) : Int)
  else -((digitCount ((den + num - 1) / num - 1) : Nat) : Int)

/-- The quotient `num / den / 10 ^ power` as a numerator and a denominator. -/
def scaled (num den : Nat) (power : Int) : Nat × Nat :=
  if 0 ≤ power then (num, den * Nat.pow 10 power.toNat)
  else (num * Nat.pow 10 (-power).toNat, den)

/-- Some decimal digits and the power of ten that the first of them stands for. -/
structure Digits where
  digits : Nat
  power : Int

/-- A carry out of the first digit moves to the next power of ten. -/
def Digits.normal (count : Nat) (digits : Nat) (power : Int) : Digits :=
  if digits = Nat.pow 10 count then ⟨Nat.pow 10 (count - 1), power + 1⟩ else ⟨digits, power⟩

/-- The quotient `num / den` to `count` significant digits. -/
def significant (count num den : Nat) : Digits :=
  let power := leadingPower num den
  let (n, d) := scaled num den (power - ((count - 1 : Nat) : Int))
  Digits.normal count (roundDiv n d) power

/-- `mantissa * 2 ^ exponent` as a numerator and a denominator. -/
def fractionOf (mantissa : Nat) (exponent : Int) : Nat × Nat :=
  if 0 ≤ exponent then (mantissa <<< exponent.toNat, 1) else (mantissa, 1 <<< (-exponent).toNat)

end FeedForward.Decimal
