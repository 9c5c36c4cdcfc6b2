import Mathlib
import FeedForward.Numeric.Scalar

/-!
# The order of doubles

A double that is not negative and stands for a number has a word up to that of infinity, and such
doubles are ordered like their words. Comparisons are carried out on unpacked numbers, a sign with
a mantissa and an exponent, so words are first taken apart into fields. Nothing is said about how
negative doubles are ordered among themselves.
-/

namespace FeedForward

open Float.Model (Format UnpackedFloat)

open Float.Model.UnpackedFloat (Sign unpackSign unpackExponent unpackMantissa)

namespace Numeric

/-! ## Words and fields -/

theorem toNat_one_append (m : BitVec 52) : (1#1 ++ m).toNat = 2 ^ 52 + m.toNat := by
  rw [BitVec.toNat_append, ← Nat.shiftLeft_add_eq_or_of_lt m.isLt]
  rfl

theorem unpack_eq_notANumber {b : BitVec 64} (hexponent : @unpackExponent .binary64 b = -1#11)
    (hmantissa : @unpackMantissa .binary64 b ≠ 0#52) :
    UnpackedFloat.unpack .binary64 b = .notANumber := by
  rw [UnpackedFloat.unpack]
  simp only
  rw [if_pos hexponent, if_neg hmantissa]

/-- What has been unpacked from a word survives being packed again. -/
theorem unpack_pack_unpack (b : BitVec 64) : UnpackedFloat.unpack .binary64
    (UnpackedFloat.pack .binary64 (UnpackedFloat.unpack .binary64 b)) =
      UnpackedFloat.unpack .binary64 b := by
  rw [@UnpackedFloat.pack_unpack .binary64 b (by decide)]
  split
  next hnan =>
    -- Words that stand for no number are packed into one of them.
    have hfields : @unpackExponent .binary64 b = -1#11 ∧ @unpackMantissa .binary64 b ≠ 0#52 := by
      simpa [UnpackedFloat.isNaNBits] using hnan
    rw [UnpackedFloat.unpack_packedNaN, unpack_eq_notANumber hfields.1 hfields.2]
  next => rfl

/-! ## Magnitudes -/

/-- An unpacked number with a given sign has a given place among those with this sign. -/
inductive Magnitude (s : Sign) : UnpackedFloat → Nat → Prop where
  | zero : Magnitude s (.zero s) 0
  | finite {m : Nat} {e : Int} {place : Nat} (hpos : 0 < m) (hm : m < 2 ^ 53) (he : -1074 ≤ e)
    (hnormal : -1074 < e → 2 ^ 52 ≤ m) (hplace : (place : Int) = (e + 1074) * 2 ^ 52 + m)
    (hfinite : place < 2047 * 2 ^ 52) : Magnitude s (.finite s m e hpos) place
  | infinity : Magnitude s (.infinity s) (2047 * 2 ^ 52)

/-- The place of an unpacked number is made of the exponent and the mantissa of its word. -/
theorem magnitude_unpack {b : BitVec 64} (hnumber : (@unpackExponent .binary64 b).toNat = 2047 →
      (@unpackMantissa .binary64 b).toNat = 0) :
    Magnitude (.ofBitVec (@unpackSign .binary64 b)) (UnpackedFloat.unpack .binary64 b)
      ((@unpackExponent .binary64 b).toNat * 2 ^ 52 + (@unpackMantissa .binary64 b).toNat) := by
  have hm : (@unpackMantissa .binary64 b).toNat < 2 ^ 52 := (@unpackMantissa .binary64 b).isLt
  have he : (@unpackExponent .binary64 b).toNat < 2 ^ 11 := (@unpackExponent .binary64 b).isLt
  have hbias : Format.binary64.exponentBias = 1023 := rfl
  rw [UnpackedFloat.unpack]
  simp only [toNat_one_append, hbias]
  split
  next htop =>
    have htop : (@unpackExponent .binary64 b).toNat = 2047 := by rw [htop]; rfl
    rw [if_pos (BitVec.toNat_inj.mp (hnumber htop)), hnumber htop, htop]
    exact .infinity
  next htop =>
    have htop : (@unpackExponent .binary64 b).toNat ≠ 2047 := fun h => htop (BitVec.toNat_inj.mp h)
    split
    next hzero =>
      have hzero : (@unpackExponent .binary64 b).toNat = 0 := by rw [hzero]; rfl
      split
      next hm =>
        rw [hzero, hm]
        exact .zero
      next hm =>
        have hm : (@unpackMantissa .binary64 b).toNat ≠ 0 := fun h => hm (BitVec.toNat_inj.mp h)
        exact .finite _ (by omega) (by omega) (fun h => absurd h (by omega)) (by omega)
          (by omega)
    next hzero =>
      have hzero : (@unpackExponent .binary64 b).toNat ≠ 0 := fun h => hzero (BitVec.toNat_inj.mp h)
      exact .finite _ (by omega) (by omega) (by omega) (by omega) (by omega)

theorem le_finite_iff {m n : Nat} {e f : Int} (hm : 0 < m) (hn : 0 < n) :
    (UnpackedFloat.finite .positive m e hm).le (.finite .positive n f hn) = true ↔
      e < f ∨ e = f ∧ m ≤ n := by
  change ((compare e f).then (compare m n)).isLE = true ↔ _
  rw [Ordering.isLE_then_iff_or, Int.compare_eq_lt, Int.compare_eq_eq, Nat.isLE_compare]

/-- Numbers that are not negative are ordered like their places. -/
theorem Magnitude.le_iff {x y : UnpackedFloat} {i j : Nat} (hx : Magnitude .positive x i)
    (hy : Magnitude .positive y j) : x.le y = true ↔ i ≤ j := by
  cases hx with
  | zero => cases hy <;> simp [UnpackedFloat.le, UnpackedFloat.compare]
  | infinity =>
      cases hy with
      | zero => simp [UnpackedFloat.le, UnpackedFloat.compare]
      | infinity => exact ⟨fun _ => Nat.le_refl _, fun _ => rfl⟩
      | finite =>
          simp [UnpackedFloat.le, UnpackedFloat.compare]
          omega
  | finite =>
      cases hy with
      | zero =>
          simp [UnpackedFloat.le, UnpackedFloat.compare]
          omega
      | infinity =>
          simp [UnpackedFloat.le, UnpackedFloat.compare]
          omega
      | finite =>
          rw [le_finite_iff]
          omega

/-- Of the negative numbers only zero is not below zero. -/
theorem Magnitude.zero_le_iff {x : UnpackedFloat} {i : Nat} (hx : Magnitude .negative x i) :
    (UnpackedFloat.zero .positive).le x = true ↔ i = 0 := by
  cases hx with
  | zero => simp [UnpackedFloat.le, UnpackedFloat.compare]
  | infinity => simp [UnpackedFloat.le, UnpackedFloat.compare]
  | finite =>
      simp [UnpackedFloat.le, UnpackedFloat.compare]
      omega

/-- Nothing is comparable to what is no number. -/
theorem le_notANumber (x : UnpackedFloat) : x.le .notANumber = false := by
  cases x <;> rfl

end Numeric

/-! ## Doubles -/

namespace Double

open Numeric

/-- The sign, the mantissa and the exponent of a double. -/
def unpacked (x : Double) : UnpackedFloat := .unpack .binary64 x.word.toBitVec

theorem toNat_unpackSign (x : Double) :
    (@unpackSign .binary64 x.word.toBitVec).toNat = x.word.toNat / 2 ^ 63 := by
  have hword := x.word.toNat_lt
  simp [unpackSign, BitVec.extractLsb, Nat.shiftRight_eq_div_pow]
  omega

theorem toNat_unpackExponent (x : Double) :
    (@unpackExponent .binary64 x.word.toBitVec).toNat = x.word.toNat / 2 ^ 52 % 2 ^ 11 := by
  simp [unpackExponent, BitVec.extractLsb, Nat.shiftRight_eq_div_pow]

theorem toNat_unpackMantissa (x : Double) :
    (@unpackMantissa .binary64 x.word.toBitVec).toNat = x.word.toNat % 2 ^ 52 := by
  simp [unpackMantissa, BitVec.extractLsb]

/-- Doubles are compared as unpacked numbers. -/
theorem le_eq (x y : Double) : le x y = x.unpacked.le y.unpacked := by
  have hle : le x y = (UnpackedFloat.unpack .binary64 (UnpackedFloat.pack .binary64 x.unpacked)).le
      (UnpackedFloat.unpack .binary64 (UnpackedFloat.pack .binary64 y.unpacked)) := by
    calc le x y = decide (x.toFloat.le y.toFloat = true) := rfl
      _ = x.toFloat.le y.toFloat := Bool.decide_eq_true
      _ = decide (x.toFloat.toModel.le y.toFloat.toModel = true) := rfl
      _ = x.toFloat.toModel.le y.toFloat.toModel := Bool.decide_eq_true
  rw [hle, unpacked, unpacked, unpack_pack_unpack, unpack_pack_unpack]

/-- The place of a double among those with its sign is the rest of its word. -/
theorem magnitude_unpacked {x : Double} (hnumber : x.word.toNat % 2 ^ 63 ≤ 2047 * 2 ^ 52) :
    Magnitude (if x.word.toNat < 2 ^ 63 then .positive else .negative) x.unpacked
      (x.word.toNat % 2 ^ 63) := by
  have hword := x.word.toNat_lt
  have hsign : Sign.ofBitVec (@unpackSign .binary64 x.word.toBitVec) =
      if x.word.toNat < 2 ^ 63 then .positive else .negative := by
    have hzero : @unpackSign .binary64 x.word.toBitVec = 0#1 ↔ x.word.toNat < 2 ^ 63 := by
      rw [← BitVec.toNat_inj, toNat_unpackSign]
      exact Nat.div_eq_zero_iff_lt (by decide)
    simp only [Sign.ofBitVec, hzero]
  have hplace : (@unpackExponent .binary64 x.word.toBitVec).toNat * 2 ^ 52 +
      (@unpackMantissa .binary64 x.word.toBitVec).toNat = x.word.toNat % 2 ^ 63 := by
    rw [toNat_unpackExponent, toNat_unpackMantissa]
    omega
  have hmagnitude := magnitude_unpack (b := x.word.toBitVec) (by omega)
  rwa [hsign, hplace] at hmagnitude

/-- A word beyond those of infinity stands for no number. -/
theorem unpacked_of_lt {x : Double} (hnan : 2047 * 2 ^ 52 < x.word.toNat % 2 ^ 63) :
    x.unpacked = .notANumber := by
  have hexponent : @unpackExponent .binary64 x.word.toBitVec = -1#11 := by
    rw [← BitVec.toNat_inj, toNat_unpackExponent]
    change _ = 2047
    omega
  have hmantissa : @unpackMantissa .binary64 x.word.toBitVec ≠ 0#52 := by
    rw [ne_eq, ← BitVec.toNat_inj, toNat_unpackMantissa]
    change _ ≠ 0
    omega
  exact unpack_eq_notANumber hexponent hmantissa

/-- The doubles that are not negative, which are ordered like their words. -/
theorem le_iff_of_le_infinity {x y : Double} (hx : x.word ≤ infinity.word)
    (hy : y.word ≤ infinity.word) : le x y = true ↔ x.word ≤ y.word := by
  have hplace : ∀ {z : Double}, z.word ≤ infinity.word →
      Magnitude .positive z.unpacked z.word.toNat := by
    intro z hz
    have hlimit : z.word.toNat ≤ 2047 * 2 ^ 52 := hz
    have hmagnitude := magnitude_unpacked (x := z) (by omega)
    rwa [if_pos (by omega), Nat.mod_eq_of_lt (by omega)] at hmagnitude
  rw [le_eq, (hplace hx).le_iff (hplace hy)]
  exact UInt64.le_iff_toNat_le.symm

/-- The doubles that are at least zero: those with words up to that of infinity, and the negative
zero. -/
theorem zero_le_iff {x : Double} :
    le 0 x = true ↔ x.word ≤ infinity.word ∨ x.word = 0x8000000000000000 := by
  have hword := x.word.toNat_lt
  have hzero : (0 : Double).unpacked = .zero .positive := rfl
  have hinfinity : x.word ≤ infinity.word ↔ x.word.toNat ≤ 2047 * 2 ^ 52 := Iff.rfl
  have hnegative : x.word = 0x8000000000000000 ↔ x.word.toNat = 2 ^ 63 := UInt64.toNat_inj.symm
  rw [hinfinity, hnegative, le_eq, hzero]
  rcases Nat.lt_or_ge (2047 * 2 ^ 52) (x.word.toNat % 2 ^ 63) with hnan | hnumber
  · rw [unpacked_of_lt hnan, le_notANumber]
    simp
    omega
  · have hmagnitude := magnitude_unpacked hnumber
    split at hmagnitude
    next hpositive =>
      rw [Magnitude.zero.le_iff hmagnitude]
      omega
    next hnegative =>
      rw [hmagnitude.zero_le_iff]
      omega

/-- The doubles from zero to one. -/
theorem unit_iff {x : Double} : le 0 x = true ∧ le x 1 = true ↔
    x.word ≤ 0x3ff0000000000000 ∨ x.word = 0x8000000000000000 := by
  rw [zero_le_iff]
  constructor
  · rintro ⟨hpositive | hzero, hle⟩
    · exact .inl ((le_iff_of_le_infinity hpositive (by decide)).mp hle)
    · exact .inr hzero
  · rintro (hle | hzero)
    · have hpositive : x.word ≤ infinity.word := UInt64.le_trans hle (by decide)
      exact ⟨.inl hpositive, (le_iff_of_le_infinity hpositive (by decide)).mpr hle⟩
    · obtain rfl : x = ⟨0x8000000000000000⟩ := congrArg Double.mk hzero
      exact ⟨.inr rfl, rfl⟩

end Double

end FeedForward
