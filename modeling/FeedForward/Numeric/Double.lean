import FeedForward.Numeric.Binary

/-!
# Doubles and singles

A machine number is held as its word. Many words stand for no number, and what a caller put
into such a word is not lost: an operation gives the word of its first operand that is no
number, made quiet. An operation on numbers that has no result gives one fixed word, the
quiet one with a sign and nothing else in it. The sign of such a word means nothing but is
turned with every other sign.
-/

namespace FeedForward

/-- A double-precision number, held as its word. -/
structure Double where
  word : UInt64
  deriving DecidableEq, Inhabited, Repr

/-- A single-precision number, held as its word. -/
structure Single where
  word : UInt32
  deriving DecidableEq, Inhabited, Repr

namespace Double

/-- Whether a double is no number. -/
def isNaN (x : Double) : Bool := 0x7ff0000000000000 < x.word &&& 0x7fffffffffffffff

/-- Whether a double is a number within the range. -/
def isFinite (x : Double) : Bool := x.word &&& 0x7ff0000000000000 < 0x7ff0000000000000

/-- What is no number, as it is read from text. -/
def nan : Double := ⟨0x7ff8000000000000⟩

/-- What lies beyond the range of doubles. -/
def infinity : Double := ⟨0x7ff0000000000000⟩

/-- A double that is no number with its quiet bit set. -/
def quiet (x : Double) : Double := ⟨x.word ||| 0x0008000000000000⟩

/-- The result of an operation on numbers. -/
def ofResult (x : Float) : Double := if x.isNaN then ⟨0xfff8000000000000⟩ else ⟨x.toBits⟩

/-- The number that a double stands for. -/
def toFloat (x : Double) : Float := .ofBits x.word

/-- An operation on one number, carried over to what is no number. -/
@[inline] def lift (f : Float → Float) (x : Double) : Double :=
  if x.isNaN then x.quiet else ofResult (f x.toFloat)

/-- An operation on two numbers, carried over to what is no number. -/
@[inline] def lift₂ (f : Float → Float → Float) (x y : Double) : Double :=
  if x.isNaN then x.quiet else if y.isNaN then y.quiet else ofResult (f x.toFloat y.toFloat)

instance : Add Double := ⟨lift₂ (· + ·)⟩

instance : Sub Double := ⟨lift₂ (· - ·)⟩

instance : Mul Double := ⟨lift₂ (· * ·)⟩

instance : Div Double := ⟨lift₂ (· / ·)⟩

instance : Neg Double := ⟨fun x => ⟨x.word ^^^ 0x8000000000000000⟩⟩

instance : Zero Double := ⟨⟨0⟩⟩

instance : One Double := ⟨⟨0x3ff0000000000000⟩⟩

instance : OfScientific Double := ⟨fun digits down power =>
  ⟨(Float.ofScientific digits down power).toBits⟩⟩

/-- The double nearest to a count. -/
def ofNat (n : Nat) : Double := ⟨(Float.ofNat n).toBits⟩

/-- The double nearest to a whole number. -/
def ofInt (n : Int) : Double := ⟨(Float.ofInt n).toBits⟩

/-- The sine of a number. -/
def sin (x : Double) : Double := x.lift Float.sin

/-- Whether two doubles are the same number; what is no number is the same as nothing. -/
def equals (x y : Double) : Bool := x.toFloat == y.toFloat

/-- Whether a double is at most another one; false as soon as one is no number. -/
def le (x y : Double) : Bool := x.toFloat ≤ y.toFloat

/-- The whole number that a double is, if it is one. -/
def toInt? (x : Double) : Option Int :=
  match Numeric.decodeBits x.word with
  | .finite negative mantissa exponent =>
    let places := (-exponent).toNat
    let whole := (mantissa <<< exponent.toNat) >>> places
    if whole <<< places = mantissa <<< exponent.toNat then
      some (if negative then -(whole : Int) else whole)
    else none
  | .nan | .infinite _ => none

end Double

namespace Single

/-- Whether a single is no number. -/
def isNaN (x : Single) : Bool := 0x7f800000 < x.word &&& 0x7fffffff

/-- A single that is no number with its quiet bit set. -/
def quiet (x : Single) : Single := ⟨x.word ||| 0x00400000⟩

/-- The result of an operation on numbers. -/
def ofResult (x : Float32) : Single := if x.isNaN then ⟨0xffc00000⟩ else ⟨x.toBits⟩

/-- The number that a single stands for. -/
def toFloat (x : Single) : Float32 := .ofBits x.word

instance : Add Single := ⟨fun x y =>
  if x.isNaN then x.quiet else if y.isNaN then y.quiet else ofResult (x.toFloat + y.toFloat)⟩

instance : Zero Single := ⟨⟨0⟩⟩

/-- The single nearest to a double. -/
def ofDouble (x : Double) : Single := ⟨Numeric.narrowBits x.word⟩

/-- The double equal to a single. -/
def toDouble (x : Single) : Double := ⟨Numeric.widenBits x.word⟩

end Single

end FeedForward
