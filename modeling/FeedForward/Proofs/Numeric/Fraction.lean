import FeedForward.Proofs.Numeric.Order
import FeedForward.Random

/-!
# Random fractions are below one

A count below 2 ^ 53 is a double, and dividing it by a power of two only lowers its exponent. So a
fraction of thirty-two random bits is not rounded, it lies below one, and an event with the
probability one happens whatever is drawn.
-/

namespace FeedForward

open Float.Model (Format UnpackedFloat totalExponent)

open Float.Model.UnpackedFloat

namespace Numeric

theorem unpackSign_packComponents {spec : Format} (sign : Sign)
    (exponent : BitVec spec.exponentBits)
    (mantissa : BitVec spec.mantissaBitsWithoutImplicit) :
    unpackSign (packComponents spec sign exponent mantissa) = sign.toBitVec := by
  ext i hi
  obtain rfl : i = 0 := Nat.lt_one_iff.mp hi
  simp [unpackSign, packComponents, BitVec.getLsbD_append, BitVec.getElem_append]

/-! ## Full mantissas -/

theorem log2_shiftLeft {n : Nat} (hn : 0 < n) (places : Nat) :
    (n <<< places).log2 = n.log2 + places := by
  induction places with
  | zero => rfl
  | succ places ih =>
      have hpositive : n <<< places ≠ 0 := Nat.ne_of_gt (Nat.shiftLeft_pos_iff.mpr hn)
      rw [Nat.shiftLeft_succ, Nat.log2_two_mul hpositive, ih, Nat.add_assoc]

section

variable {m : Nat} {e : Int} (hm : m.log2 = 52)

include hm

theorem pos_of_log2 : 0 < m := by
  refine Nat.pos_of_ne_zero fun hzero => ?_
  rw [hzero, Nat.log2_zero] at hm
  cases hm

/-- A mantissa of fifty-three bits stays where it is. -/
theorem shiftToTargetExponent_full (he : -1074 ≤ e) :
    shiftToTargetExponent .binary64 m e .exact = (⟨m, false, false⟩, e) := by
  have htarget : Format.binary64.targetExponent (totalExponent m e) = e := by
    simp only [Format.targetExponent, totalExponent, hm, Format.mantissaBits, Format.minExponent]
    omega
  rw [shiftToTargetExponent, htarget, shiftToExponent, Int.sub_self]
  exact congrArg _ (Int.add_zero e)

theorem roundWithAccuracy_full (s : Sign) (he : -1074 ≤ e) :
    roundWithAccuracy .binary64 s m e .exact = .finite s m e (pos_of_log2 hm) := by
  have hround : (ExtendedMantissa.mk m false false).roundedMantissa = m := rfl
  have hpositive := pos_of_log2 hm
  simp only [roundWithAccuracy, shiftToTargetExponent_full hm he, hround, Nat.ne_of_gt hpositive,
    dif_neg, not_false_eq_true]

/-- Of a mantissa with one bit more, which is zero, that bit is dropped. -/
theorem roundWithAccuracy_twice (s : Sign) (he : -1075 ≤ e) :
    roundWithAccuracy .binary64 s (2 * m) e .exact = .finite s m (e + 1) (pos_of_log2 hm) := by
  have hpositive := pos_of_log2 hm
  have hlog : (2 * m).log2 = 53 := by rw [Nat.log2_two_mul (Nat.ne_of_gt hpositive), hm]
  have htarget : Format.binary64.targetExponent (totalExponent (2 * m) e) = e + 1 := by
    simp only [Format.targetExponent, totalExponent, hlog, Format.mantissaBits, Format.minExponent]
    omega
  have hplaces : (e + 1 - e).toNat = 1 := by omega
  have hshift : shiftToTargetExponent .binary64 (2 * m) e .exact = (⟨m, false, false⟩, e + 1) := by
    rw [shiftToTargetExponent, htarget, shiftToExponent, hplaces]
    change (ExtendedMantissa.mk (2 * m / 2) (2 * m % 2 != 0) (false || false), e + 1) = _
    rw [Nat.mul_div_cancel_left m Nat.two_pos, Nat.mul_mod_right]
    rfl
  have hround : (ExtendedMantissa.mk m false false).roundedMantissa = m := rfl
  have hfull : shiftToTargetExponent .binary64 m (e + 1) .exact = _ :=
    shiftToTargetExponent_full hm (by omega)
  simp only [roundWithAccuracy, hshift, hround, hfull,
    Nat.ne_of_gt hpositive, dif_neg, not_false_eq_true]

/-- A number with such a mantissa survives being packed when its exponent is in range. -/
theorem unpack_pack_full (he : -1074 ≤ e) (hlimit : e ≤ 971) :
    UnpackedFloat.unpack .binary64 (UnpackedFloat.pack .binary64
      (.finite .positive m e (pos_of_log2 hm))) = .finite .positive m e (pos_of_log2 hm) := by
  have hrange := (Nat.log2_eq_iff (Nat.ne_of_gt (pos_of_log2 hm))).mp hm
  have hbias : Format.binary64.exponentBias = 1023 := rfl
  obtain ⟨field, hfield⟩ : ∃ field : Nat, (field : Int) = e + 1075 := ⟨(e + 1075).toNat, by omega⟩
  have hbiased : (e + (1023 : Nat) + (52 : Nat) : Int).toNat = field := by omega
  have hpacked : UnpackedFloat.pack .binary64 (.finite .positive m e (pos_of_log2 hm)) =
      packComponents .binary64 .positive (BitVec.ofNat 11 field) (BitVec.ofNat 52 m) := by
    rw [UnpackedFloat.pack]
    simp only [hbias, hbiased, hm]
    rw [if_neg (by omega)]
    exact if_pos rfl
  have hexponent : (BitVec.ofNat 11 field).toNat = field := by
    rw [BitVec.toNat_ofNat, Nat.mod_eq_of_lt (by omega)]
  have htop : BitVec.ofNat 11 field ≠ -1#11 := by
    rw [ne_eq, ← BitVec.toNat_inj, hexponent]
    change field ≠ 2047
    omega
  have hbottom : BitVec.ofNat 11 field ≠ 0#11 := by
    rw [ne_eq, ← BitVec.toNat_inj, hexponent]
    change field ≠ 0
    omega
  have hmantissa : (1#1 ++ BitVec.ofNat 52 m).toNat = m := by
    rw [toNat_one_append, BitVec.toNat_ofNat]
    omega
  rw [hpacked, UnpackedFloat.unpack]
  simp only [unpackExponent_packComponents, unpackMantissa_packComponents, htop, hbottom, if_false,
    unpackSign_packComponents, hmantissa, hexponent, hbias]
  congr 1
  omega

end

/-! ## Counts and quotients -/

/-- A count of a double's precision is unpacked as itself, with a full mantissa. -/
theorem unpack_ofNat {n : Nat} (hn : 0 < n) (hlimit : n < 2 ^ 53) :
    .unpack .binary64 (UnpackedFloat.pack .binary64 (.ofNat .binary64 n)) =
      UnpackedFloat.finite .positive (n <<< (52 - n.log2)) (n.log2 - 52) (Nat.shiftLeft_pos_iff.mpr hn) := by
  have hlog : n.log2 < 53 := (Nat.log2_lt (Nat.ne_of_gt hn)).mpr hlimit
  have hfull : (n <<< (52 - n.log2)).log2 = 52 := by
    rw [log2_shiftLeft hn]
    omega
  have htarget : Format.binary64.targetExponent (totalExponent n 0) = n.log2 - 52 := by
    simp only [Format.targetExponent, totalExponent, Format.mantissaBits, Format.minExponent]
    omega
  have hplaces : (0 - ((n.log2 : Int) - 52)).toNat = 52 - n.log2 := by omega
  have hexponent : (0 : Int) - (52 - n.log2 : Nat) = n.log2 - 52 := by omega
  have hround : UnpackedFloat.ofNat .binary64 n =
      .finite .positive (n <<< (52 - n.log2)) (n.log2 - 52) (Nat.shiftLeft_pos_iff.mpr hn) := by
    rw [UnpackedFloat.ofNat, UnpackedFloat.ofInt, UnpackedFloat.normalize,
      Int.compare_eq_gt.mpr (Int.natCast_pos.mpr hn)]
    simp only [UnpackedFloat.round, htarget, decreaseExponent, hplaces, hexponent,
      Int.toNat_natCast]
    exact roundWithAccuracy_full hfull .positive (by omega)
  rw [hround]
  exact unpack_pack_full hfull (by omega) (by omega)

/-- Dividing by a power of two lowers the exponent. -/
theorem div_twoPow {m : Nat} {e : Int} (hm : m.log2 = 52) (he : -52 ≤ e) (hlimit : e ≤ 0) {k : Nat}
    (hk : k ≤ 52) :
    UnpackedFloat.div .binary64 (.finite .positive m e (pos_of_log2 hm))
      (.finite .positive (2 ^ 52) (k - 52) (Nat.two_pow_pos 52)) =
        .finite .positive m (e - k) (pos_of_log2 hm) := by
  have htarget : Format.binary64.targetExponent
      (totalExponent m e - totalExponent (2 ^ 52) (k - 52)) = e - k - 1 := by
    simp only [Format.targetExponent, totalExponent, hm, Nat.log2_two_pow, Format.mantissaBits,
      Format.minExponent]
    omega
  have hcore : divCore .binary64 m e (2 ^ 52) (k - 52) = (2 * m, e - k - 1, .exact) := by
    have hleast : min (e - (k - 52)) (e - k - 1) = e - k - 1 := by omega
    have hplaces : (e - (k - 52) - (e - k - 1)).toNat = 53 := by omega
    have hshifted : m <<< 53 = 2 ^ 52 * (2 * m) := by
      rw [Nat.shiftLeft_eq]
      omega
    rw [divCore, htarget, hleast, hplaces, hshifted,
      Nat.mul_div_cancel_left _ (Nat.two_pow_pos 52), Nat.mul_mod_right]
    rfl
  rw [UnpackedFloat.div, hcore]
  dsimp only
  rw [roundWithAccuracy_twice hm _ (by omega)]
  congr 1
  omega

end Numeric

namespace Double

open Numeric

/-- A fraction that is not zero has a negative exponent, even with its mantissa as a fraction. -/
theorem unpacked_fraction {bits : UInt32} (hbits : 0 < bits.toNat) :
    ∃ m e hm, e < -52 ∧ (Scalar.fraction bits : Double).unpacked = .finite .positive m e hm := by
  have hlimit : bits.toNat < 2 ^ 32 := bits.toNat_lt
  have hlog : bits.toNat.log2 < 32 := (Nat.log2_lt (Nat.ne_of_gt hbits)).mpr hlimit
  have hfull : (bits.toNat <<< (52 - bits.toNat.log2)).log2 = 52 := by
    rw [log2_shiftLeft hbits]
    omega
  have hdivisor : (4294967296.0 : Float).toModel.unpack =
      .finite .positive (2 ^ 52) ((32 : Nat) - 52) (Nat.two_pow_pos 52) := rfl
  have hquotient : (Scalar.fraction bits : Double).unpacked =
      .unpack .binary64 (UnpackedFloat.pack .binary64 (.div .binary64
        (.unpack .binary64 (UnpackedFloat.pack .binary64 (.ofNat .binary64 bits.toNat)))
        (4294967296.0 : Float).toModel.unpack)) := rfl
  rw [hquotient, hdivisor, unpack_ofNat hbits (by omega), div_twoPow hfull (by omega) (by omega)
    (by omega), unpack_pack_full hfull (by omega) (by omega)]
  exact ⟨_, _, _, by omega, rfl⟩

/-- Random fractions are below one. -/
theorem fraction_lt_one (bits : UInt32) : Scalar.lt (Scalar.fraction bits : Double) 1 = true := by
  have hone : (1 : Double).unpacked = .finite .positive (2 ^ 52) (-52) (Nat.two_pow_pos 52) := rfl
  rcases Nat.eq_zero_or_pos bits.toNat with hzero | hpositive
  · rw [UInt32.toNat_inj (b := 0) |>.mp hzero]
    rfl
  · obtain ⟨m, e, hm, he, hfraction⟩ := unpacked_fraction hpositive
    have hle : le (Scalar.fraction bits) 1 = true := by
      rw [le_eq, hfraction, hone, le_finite_iff]
      exact .inl he
    have hnot : le 1 (Scalar.fraction bits) = false := by
      rw [← Bool.not_eq_true, le_eq, hfraction, hone, le_finite_iff]
      omega
    change (le _ _ && !le _ _) = true
    rw [hle, hnot]
    rfl

/-- The doubles that are neither below nor above zero. -/
theorem eq_zero_of_le {x : Double} (hleast : le 0 x = true) (hgreatest : le x 0 = true) :
    x = 0 ∨ x = ⟨0x8000000000000000⟩ := by
  rcases zero_le_iff.mp hleast with hpositive | hnegative
  · have hzero := (le_iff_of_le_infinity hpositive (by decide)).mp hgreatest
    exact .inl (congrArg Double.mk (UInt64.le_zero_iff.mp hzero))
  · exact .inr (congrArg Double.mk hnegative)

end Double

/-- Nothing is dropped at the rate zero: what happens with the remaining probability always does. -/
theorem Generator.happens_of_rate_zero {rate : Double} (hleast : Double.le 0 rate = true)
    (hgreatest : Double.le rate 0 = true) (g : Generator) : (g.happens (1 - rate)).1 = true := by
  have hrest : 1 - rate = 1 := by
    rcases Double.eq_zero_of_le hleast hgreatest with rfl | rfl <;> rfl
  rw [hrest]
  exact Double.fraction_lt_one _

end FeedForward
