import FeedForward.Decimal.Written

/-!
# Scalars and stored numbers

Passes compute with scalars; weights and updates are kept as stored numbers, which may
be coarser. Nothing is assumed about the operations, so everything said of a network
for all scalars holds of doubles and singles as well as of exact numbers.
-/

namespace FeedForward

/-- The operations that a pass needs of its numbers. -/
class Scalar (α : Type) extends Add α, Sub α, Mul α, Div α, Neg α, Zero α, One α,
    OfScientific α where
  /-- Whether the first number is at most the second; false as soon as one is no number. -/
  le : α → α → Bool
  exp : α → α
  log : α → α
  tanh : α → α
  sqrt : α → α
  /-- What no number exceeds. -/
  infinity : α
  /-- The number nearest to a count. -/
  ofNat : Nat → α
  /-- Whether a count lies in the range of the numbers. -/
  fits : Nat → Bool
  /-- Thirty-two random bits as a fraction of one. -/
  fraction : UInt32 → α
  /-- The number as messages show it. -/
  text : α → String

namespace Scalar

variable {α : Type} [Scalar α]

/-- Strictly less. -/
def lt (a b : α) : Bool := le a b && !le b a

/-- Whether a value is no number: it is not even equal to itself. -/
def isNaN (a : α) : Bool := !le a a

/-- The greater of two numbers; a value that is no number wins over every number. -/
def maximum (a b : α) : α := if le b a || isNaN a then a else b

/-- The lesser of two numbers; a value that is no number wins over every number. -/
def minimum (a b : α) : α := if le a b || isNaN a then a else b

/-- The first of two numbers unless the second is greater. -/
def firstGreatest (a b : α) : α := if lt a b then b else a

end Scalar

/-- How scalars and stored numbers turn into each other. -/
class Precision (α β : Type) where
  /-- The stored number nearest to a scalar. -/
  narrow : α → β
  /-- The scalar equal to a stored number. -/
  widen : β → α
  /-- Thirty-two random bits as a stored number between minus one half and one half. -/
  centred : UInt32 → β

/-- How numbers are kept as words of a fixed number of bytes. -/
class Encoding (α : Type) where
  width : Nat
  word : α → Nat
  ofWord : Nat → α

instance : Encoding Double := ⟨8, fun x => x.word.toNat, fun n => ⟨.ofNat n⟩⟩

instance : Encoding Single := ⟨4, fun x => x.word.toNat, fun n => ⟨.ofNat n⟩⟩

instance : Scalar Double where
  le := Double.le
  exp := Double.lift Float.exp
  log := Double.lift Float.log
  tanh := Double.lift Float.tanh
  sqrt := Double.lift Float.sqrt
  infinity := Double.infinity
  ofNat := Double.ofNat
  fits n := (Double.ofNat n).isFinite
  fraction bits := ⟨(bits.toUInt64.toFloat / 4294967296.0).toBits⟩
  text := Decimal.message

/-- The top twenty-four of the random bits make the fraction, so the difference to one
half is a single. -/
instance : Precision Double Single where
  narrow := Single.ofDouble
  widen := Single.toDouble
  centred bits := ⟨Numeric.fractionBits ((bits >>> 8).toNat - 8388608)⟩

end FeedForward
