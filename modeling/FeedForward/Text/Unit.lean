/-!
# Sixteen-bit units

A character beyond the first 65536 is written as two units of sixteen bits, a high one and a
low one. A unit that stays alone is no character. It is kept as a character of the last plane,
where no text has characters of its own, so that it can be written as the same unit again.
-/

namespace FeedForward.Text

/-- Whether a unit is the first half of a character. -/
def isHighUnit (unit : Nat) : Bool := 0xd800 ≤ unit && unit < 0xdc00

/-- Whether a unit is the second half of a character. -/
def isLowUnit (unit : Nat) : Bool := 0xdc00 ≤ unit && unit < 0xe000

/-- The character of two halves. -/
def ofUnits (high low : Nat) : Char :=
  Char.ofNat (0x10000 + (high - 0xd800) * 0x400 + (low - 0xdc00))

/-- The character of a unit, or the one that keeps a half. -/
def ofUnit (unit : Nat) : Char :=
  Char.ofNat (if isHighUnit unit || isLowUnit unit then 0x100000 + unit else unit)

/-- The half that a character keeps, if it keeps one. -/
def keptUnit? (c : Char) : Option Nat :=
  if 0x10d800 ≤ c.toNat && c.toNat < 0x10e000 then some (c.toNat - 0x100000) else none

/-- The units of a character. -/
def units (c : Char) : List Nat :=
  match keptUnit? c with
  | some unit => [unit]
  | none =>
    if c.toNat < 0x10000 then [c.toNat]
    else [0xd800 + (c.toNat - 0x10000) / 0x400, 0xdc00 + (c.toNat - 0x10000) % 0x400]

end FeedForward.Text
