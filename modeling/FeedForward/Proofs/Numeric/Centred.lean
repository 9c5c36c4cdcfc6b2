import FeedForward.Proofs.Numeric.Narrowing
import FeedForward.Random

/-!
# Weights around zero

An initial weight is a fraction of one, drawn in steps of `2 ^ -24`, less one half. There is a
single for each of these numbers, and it is widened to the same number, so nothing is rounded. What
a word stands for is a rational number here. Fractions that are drawn for passes have more bits and
are not the subject.
-/

namespace FeedForward

namespace Numeric

/-- The number that a word stands for, if it stands for one within the range. -/
def Decoded.value? : Decoded → Option ℚ
  | finite negative mantissa exponent =>
    some ((if negative then -1 else 1) * mantissa * 2 ^ exponent)
  | nan | infinite _ => none

/-- A word is read as its sign and its magnitude, which holds the exponent in front of the digits
behind the greatest one. -/
theorem decodeBits_sign_or {sign body : UInt64} {field fraction : Nat} (hsign : sign.toNat < 2)
    (hbody : body.toNat = field * 2 ^ 52 + fraction) (hfraction : fraction < 2 ^ 52)
    (hpositive : 0 < field) (hfinite : field < 2047) :
    decodeBits (sign <<< 63 ||| body) =
      .finite (sign == 1) (fraction + 2 ^ 52) ((field : Int) - 1075) := by
  have hbodyLt : body.toNat < 2 ^ 63 := by omega
  have hword := toNat_sign_or_magnitude hsign hbodyLt
  have hnegative := (sign_or_magnitude hsign hbodyLt).1
  generalize sign <<< 63 ||| body = word at hword hnegative ⊢
  have hexponent : ((word >>> 52) &&& 0x7ff).toNat = field := by
    rw [UInt64.toNat_and, toNat_quotient _ (by decide)]
    exact (Nat.and_two_pow_sub_one_eq_mod _ 11).trans
      (by change word.toNat / 2 ^ 52 % 2 ^ 11 = field; omega)
  have hdigits : (word &&& 0xfffffffffffff).toNat = fraction := by
    rw [UInt64.toNat_and]
    exact (Nat.and_two_pow_sub_one_eq_mod _ 52).trans (by omega)
  rw [decodeBits, hnegative, hexponent, hdigits, if_neg (by omega), if_neg (by omega)]
  rfl

/-! ## Steps of a fraction -/

theorem toNat_shiftLeft_of_lt {word places : UInt32} (hplaces : places.toNat < 32)
    (hfits : word.toNat * 2 ^ places.toNat < 2 ^ 32) :
    (word <<< places).toNat = word.toNat * 2 ^ places.toNat := by
  rw [UInt32.toNat_shiftLeft, Nat.mod_eq_of_lt hplaces, Nat.shiftLeft_eq, Nat.mod_eq_of_lt hfits]

/-- The digits of a small number of steps stand behind the place of the greatest one, which becomes
its exponent. -/
theorem toNat_steps {magnitude : UInt32} (hpositive : magnitude.toNat ≠ 0)
    (hsmall : magnitude.toNat < 2 ^ 24) :
    (((magnitude.log2 + 103) <<< 23) +
        ((magnitude - ((1 : UInt32) <<< magnitude.log2)) <<< (23 - magnitude.log2))).toNat +
        2 ^ 23 =
      (magnitude.log2.toNat + 103) * 2 ^ 23 +
        magnitude.toNat * 2 ^ (23 - magnitude.log2.toNat) := by
  have htop : magnitude.log2.toNat < 24 := (Nat.log2_lt hpositive).mpr hsmall
  have hleast : 2 ^ magnitude.log2.toNat ≤ magnitude.toNat := Nat.log2_self_le hpositive
  have hrange : 2 ^ 23 ≤ magnitude.toNat * 2 ^ (23 - magnitude.log2.toNat) ∧
      magnitude.toNat * 2 ^ (23 - magnitude.log2.toNat) < 2 * 2 ^ 23 :=
    moved_log2 hpositive (by change magnitude.log2.toNat ≤ 23; omega)
  have hpower : ((1 : UInt32) <<< magnitude.log2).toNat = 2 ^ magnitude.log2.toNat := by
    have hone : (1 : UInt32).toNat * 2 ^ magnitude.log2.toNat = 2 ^ magnitude.log2.toNat :=
      Nat.one_mul _
    rw [toNat_shiftLeft_of_lt (by omega) (by rw [hone]; omega), hone]
  have hrest : (magnitude - (1 : UInt32) <<< magnitude.log2).toNat =
      magnitude.toNat - 2 ^ magnitude.log2.toNat := by
    rw [UInt32.toNat_sub_of_le _ _ (UInt32.le_iff_toNat_le.mpr (hpower ▸ hleast)), hpower]
  have hplaces : ((23 : UInt32) - magnitude.log2).toNat = 23 - magnitude.log2.toNat :=
    UInt32.toNat_sub_of_le _ _ (UInt32.le_iff_toNat_le.mpr (by change _ ≤ 23; omega))
  have hwhole : magnitude.toNat * 2 ^ (23 - magnitude.log2.toNat) = 2 ^ 23 +
      (magnitude.toNat - 2 ^ magnitude.log2.toNat) * 2 ^ (23 - magnitude.log2.toNat) := by
    have hmoved : 2 ^ magnitude.log2.toNat * 2 ^ (23 - magnitude.log2.toNat) = 2 ^ 23 := by
      rw [← Nat.pow_add, Nat.add_sub_cancel' (by omega)]
    rw [← hmoved, ← Nat.add_mul, Nat.add_sub_cancel' hleast]
  have hsum : (magnitude.log2 + 103).toNat = magnitude.log2.toNat + 103 := by
    rw [UInt32.toNat_add]
    exact Nat.mod_eq_of_lt (by change _ + 103 < _; omega)
  have hexponent : ((magnitude.log2 + 103) <<< 23).toNat =
      (magnitude.log2.toNat + 103) * 2 ^ 23 := by
    rw [toNat_shiftLeft_of_lt (by decide) (by rw [hsum]; change _ * 2 ^ 23 < _; omega), hsum]
    rfl
  have hfraction : ((magnitude - (1 : UInt32) <<< magnitude.log2) <<<
      ((23 : UInt32) - magnitude.log2)).toNat =
      (magnitude.toNat - 2 ^ magnitude.log2.toNat) * 2 ^ (23 - magnitude.log2.toNat) := by
    rw [toNat_shiftLeft_of_lt (by omega) (by rw [hrest, hplaces]; omega), hrest, hplaces]
  rw [UInt32.toNat_add, hexponent, hfraction, Nat.mod_eq_of_lt (by omega), hwhole]
  omega

/-- The sign of a single does not mix with its magnitude. -/
theorem sign_of_single (negative : Bool) {body : UInt32} (hbody : body.toNat < 2 ^ 31) :
    let word := (if negative then 0x80000000 else 0) ||| body
    word >>> 31 = (if negative then 1 else 0) ∧ word &&& 0x7fffffff = body := by
  intro word
  have hword : word.toNat = (if negative then 1 else 0) * 2 ^ 31 + body.toNat := by
    rw [UInt32.toNat_or]
    cases negative with
    | false => exact (Nat.zero_or _).trans (by simp)
    | true => exact (Nat.shiftLeft_add_eq_or_of_lt hbody 1).symm
  constructor
  · rw [← UInt32.toNat_inj, UInt32.toNat_shiftRight, Nat.shiftRight_eq_div_pow, hword]
    change _ / 2 ^ 31 = _
    cases negative <;> simp <;> omega
  · rw [← UInt32.toNat_inj, UInt32.toNat_and, hword]
    exact (Nat.and_two_pow_sub_one_eq_mod _ 31).trans (by omega)

/-- The greatest digit of a number of steps is moved to the front of a double, whose exponent moves
it back. -/
theorem steps_of_moved {steps top : Nat} (htop : top ≤ 23) :
    ((steps * 2 ^ (23 - top) * 2 ^ 29 : Nat) : ℚ) * 2 ^ (((top + 999 : Nat) : Int) - 1075) =
      steps / 2 ^ 24 := by
  obtain ⟨places, hplaces⟩ := Nat.exists_eq_add_of_le htop
  have hexponent : ((top + 999 : Nat) : Int) - 1075 = -(places + 53 : Nat) := by omega
  rw [hexponent, zpow_neg, zpow_natCast, show 23 - top = places by omega]
  push_cast
  rw [pow_add]
  field_simp
  norm_num

/-- A small number of steps is kept as the single that is the number of steps over all steps. -/
theorem value_fractionBits {count : Int} (hsmall : count.natAbs < 2 ^ 24) :
    (decodeBits (widenBits (fractionBits count))).value? = some (count / 2 ^ 24 : ℚ) := by
  by_cases hzero : count = 0
  · subst hzero
    simp [show decodeBits (widenBits (fractionBits 0)) = .finite false 0 (-1074) from rfl,
      Decoded.value?]
  have hmagnitude : count.natAbs.toUInt32.toNat = count.natAbs :=
    Nat.mod_eq_of_lt (show count.natAbs < 2 ^ 32 by omega)
  have hpositive : count.natAbs.toUInt32.toNat ≠ 0 := by omega
  have hnonzero : ¬ (count.natAbs.toUInt32 == 0) = true := by
    rw [beq_iff_eq, ← UInt32.toNat_inj]
    exact hpositive
  rw [fractionBits, if_neg hnonzero]
  generalize count.natAbs.toUInt32 = magnitude at hmagnitude hpositive
  have hlimit : magnitude.toNat < 2 ^ 24 := hmagnitude ▸ hsmall
  have htop : magnitude.log2.toNat < 24 := (Nat.log2_lt hpositive).mpr hlimit
  have hrange : 2 ^ 23 ≤ magnitude.toNat * 2 ^ (23 - magnitude.log2.toNat) ∧
      magnitude.toNat * 2 ^ (23 - magnitude.log2.toNat) < 2 * 2 ^ 23 :=
    moved_log2 hpositive (by change magnitude.log2.toNat ≤ 23; omega)
  have hbody := toNat_steps hpositive hlimit
  simp only
  generalize (magnitude.log2 + 103) <<< 23 + (magnitude - (1 : UInt32) <<< magnitude.log2) <<<
    (23 - magnitude.log2) = body at hbody ⊢
  obtain ⟨hsign, hrest⟩ := sign_of_single (decide (count < 0)) (show body.toNat < 2 ^ 31 by omega)
  simp only [decide_eq_true_eq] at hsign hrest
  have hwidened : (widened body.toUInt64).toNat = body.toNat * 2 ^ 29 + 896 * 2 ^ 52 :=
    toNat_widened_normal (by change 2 ^ 23 ≤ body.toNat; omega) (by change body.toNat < _; omega)
  rw [widenBits_eq (by rw [hrest, UInt64.le_iff_toNat_le]; change body.toNat ≤ 255 * 2 ^ 23; omega),
    hrest, hsign]
  -- The digits in front of the exponent are those of the steps, moved as far as they go.
  have hmoved : (widened body.toUInt64).toNat = (magnitude.log2.toNat + 999) * 2 ^ 52 +
      (magnitude.toNat * 2 ^ (23 - magnitude.log2.toNat) * 2 ^ 29 - 2 ^ 52) := by
    rw [hwidened]
    omega
  have hsignLt : (if count < 0 then (1 : UInt32) else 0).toUInt64.toNat < 2 := by
    split <;> decide
  rw [decodeBits_sign_or hsignLt hmoved (by omega) (by omega) (by omega), Decoded.value?,
    Nat.sub_add_cancel (by omega), mul_assoc, steps_of_moved (by omega), hmagnitude,
    Nat.cast_natAbs]
  congr 1
  rcases lt_or_ge count 0 with hnegative | hleast
  · rw [if_pos hnegative, abs_of_neg hnegative, if_pos (by decide)]
    push_cast
    ring
  · rw [if_neg (Int.not_lt.mpr hleast), abs_of_nonneg hleast, if_neg (by decide), one_mul]

end Numeric

/-- The fraction of one that the next initial weight is drawn as. -/
def Generator.coarse (g : Generator) : ℚ := ((g.bits.1.toNat / 256 : Nat) : ℚ) / 2 ^ 24

namespace Generator

theorem coarse_nonneg (g : Generator) : 0 ≤ g.coarse := by
  rw [coarse]
  positivity

theorem coarse_lt_one (g : Generator) : g.coarse < 1 := by
  have hbits := g.bits.1.toNat_lt
  have hsteps : ((g.bits.1.toNat / 256 : Nat) : ℚ) < 2 ^ 24 := by
    exact_mod_cast (show g.bits.1.toNat / 256 < 2 ^ 24 by omega)
  rw [coarse, div_lt_one (by positivity)]
  exact hsteps

end Generator

/-- The number that a stored number stands for, if it is one within the range. -/
def Single.value? (x : Single) : Option ℚ := (Numeric.decodeBits x.toDouble.word).value?

/-- An initial weight is a drawn fraction less one half. -/
theorem Single.value_centred (g : Generator) :
    (Precision.centred Double g.bits.1 : Single).value? = some (g.coarse - 1 / 2) := by
  have hbits := g.bits.1.toNat_lt
  have hsteps : (g.bits.1 >>> 8).toNat = g.bits.1.toNat / 256 := by
    rw [UInt32.toNat_shiftRight]
    exact Nat.shiftRight_eq_div_pow _ 8
  change (Numeric.decodeBits (Numeric.widenBits (Numeric.fractionBits
    (((g.bits.1 >>> 8).toNat : Int) - 8388608)))).value? = _
  rw [hsteps, Numeric.value_fractionBits (by omega), Generator.coarse]
  generalize g.bits.1.toNat / 256 = steps
  push_cast
  congr 1
  ring

end FeedForward
