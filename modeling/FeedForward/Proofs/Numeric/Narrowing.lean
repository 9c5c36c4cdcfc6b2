import FeedForward.Proofs.Numeric.Order

/-!
# Narrowed and widened numbers

A single is equal to the double that it is widened to, and narrowing gives it back. A number between
zero and one stays there when it is rounded to the nearest single and taken back to a double. Both
conversions work on words, on the sign apart from the rest, so it is enough to know the words that
come out. Nothing is said about how far a rounded number is from the original one.
-/

namespace FeedForward

namespace Numeric

/-! ## Shifted words -/

theorem toNat_quotient (word : UInt64) {places : UInt64} (hplaces : places.toNat < 64) :
    (word >>> places).toNat = word.toNat / 2 ^ places.toNat := by
  rw [UInt64.toNat_shiftRight, Nat.mod_eq_of_lt hplaces, Nat.shiftRight_eq_div_pow]

theorem toNat_one_shiftLeft {places : UInt64} (hplaces : places.toNat < 64) :
    ((1 : UInt64) <<< places).toNat = 2 ^ places.toNat := by
  have hpower := Nat.pow_lt_pow_right (by decide : 1 < 2) hplaces
  rw [UInt64.toNat_shiftLeft, Nat.mod_eq_of_lt hplaces]
  exact (congrArg (· % 2 ^ 64) (Nat.one_shiftLeft _)).trans (Nat.mod_eq_of_lt hpower)

theorem toUInt32_le {word : UInt64} {bound : UInt32} (hword : word.toNat ≤ bound.toNat) :
    word.toUInt32 ≤ bound := by
  rw [UInt32.le_iff_toNat_le, UInt64.toNat_toUInt32]
  exact Nat.le_trans (Nat.mod_le _ _) hword

/-! ## Rounding -/

/-- Nothing is rounded where nothing is left over. -/
theorem roundedShift_eq {word places : UInt64} {quotient : Nat} (hpositive : 0 < places.toNat)
    (hplaces : places.toNat < 64) (hword : word.toNat = quotient * 2 ^ places.toNat) :
    (roundedShift word places).toNat = quotient := by
  have hquotient : (word >>> places).toNat = quotient := by
    rw [toNat_quotient word hplaces, hword, Nat.mul_div_cancel _ (Nat.two_pow_pos _)]
  have hback : (word >>> places) <<< places = word := by
    rw [← UInt64.toNat_inj, UInt64.toNat_shiftLeft, hquotient, Nat.mod_eq_of_lt hplaces,
      Nat.shiftLeft_eq, ← hword, Nat.mod_eq_of_lt word.toNat_lt]
  have hone : (1 : UInt64) ≤ places := UInt64.le_iff_toNat_le.mpr hpositive
  have hplacesLess : (places - 1).toNat < 64 := by
    rw [UInt64.toNat_sub_of_le _ _ hone]
    omega
  have hhalf : (0 : UInt64) ≠ (1 : UInt64) <<< (places - 1) := fun h => by
    have hpower := toNat_one_shiftLeft hplacesLess
    rw [← h] at hpower
    exact absurd hpower (Nat.ne_of_lt (Nat.two_pow_pos _))
  have hdown : ¬ ((decide ((1 : UInt64) <<< (places - 1) < 0) ||
      (0 : UInt64) == (1 : UInt64) <<< (places - 1) && (word >>> places) &&& 1 == 1) = true) := by
    simp [hhalf]
  rw [roundedShift, hback, UInt64.sub_self, if_neg hdown, hquotient]

/-- Rounding does not exceed a whole number that the exact quotient does not exceed. -/
theorem roundedShift_le {word places : UInt64} {bound : Nat} (hpositive : 0 < places.toNat)
    (hplaces : places.toNat < 64) (hword : word.toNat ≤ bound * 2 ^ places.toNat) :
    (roundedShift word places).toNat ≤ bound := by
  have hquotient := toNat_quotient word hplaces
  have hfloor : word.toNat / 2 ^ places.toNat * 2 ^ places.toNat ≤ word.toNat :=
    Nat.div_mul_le_self ..
  have hle : word.toNat / 2 ^ places.toNat ≤ bound :=
    Nat.div_le_of_le_mul (by rwa [Nat.mul_comm])
  -- Rounding adds one at most, which is too much only if the quotient is the bound already.
  rcases Nat.lt_or_eq_of_le hle with hbelow | hexact
  · have hnext : (word >>> places + 1).toNat ≤ bound := by
      rw [UInt64.toNat_add, hquotient]
      exact Nat.le_trans (Nat.mod_le _ _) hbelow
    rw [roundedShift]
    split <;> omega
  · rw [hexact] at hfloor
    exact Nat.le_of_eq (roundedShift_eq hpositive hplaces (Nat.le_antisymm hword hfloor))

/-! ## Narrowing -/

/-- What narrowing makes of the magnitude of a number. -/
def narrowed (magnitude : UInt64) : UInt32 :=
  if magnitude >>> 52 < 873 then 0
  else if magnitude >>> 52 < 897 then
    (roundedShift ((magnitude &&& 0xfffffffffffff) ||| 0x10000000000000)
      ((926 : UInt64) - magnitude >>> 52)).toUInt32
  else
    let rounded := roundedShift (magnitude - 0x3800000000000000) 29
    if rounded < 0x7f800000 then rounded.toUInt32 else 0x7f800000

theorem narrowBits_eq {bits : UInt64}
    (hnumber : bits &&& 0x7fffffffffffffff ≤ 0x7ff0000000000000) :
    narrowBits bits =
      ((bits >>> 63) <<< 31).toUInt32 ||| narrowed (bits &&& 0x7fffffffffffffff) := by
  have hnumber := UInt64.not_lt.mpr hnumber
  rw [narrowBits]
  simp only
  rw [if_neg hnumber, narrowed]
  split
  · rw [UInt32.or_zero]
  · split <;> rfl

/-- Singles nearest to doubles from zero to one are not greater than one. -/
theorem narrowBits_le {bits : UInt64} (hbits : bits ≤ 0x3ff0000000000000) :
    narrowBits bits ≤ 0x3f800000 := by
  have hle : bits.toNat ≤ 1023 * 2 ^ 52 := hbits
  have hsign : bits >>> 63 = 0 := by
    rw [← UInt64.toNat_inj, toNat_quotient _ (by decide)]
    exact Nat.div_eq_of_lt (by simp; omega)
  have hmagnitude : bits &&& 0x7fffffffffffffff = bits := by
    rw [← UInt64.toNat_inj, UInt64.toNat_and]
    exact (Nat.and_two_pow_sub_one_eq_mod bits.toNat 63).trans (Nat.mod_eq_of_lt (by omega))
  have hfield : (bits >>> 52).toNat = bits.toNat / 2 ^ 52 := toNat_quotient _ (by decide)
  have hnumber : bits &&& 0x7fffffffffffffff ≤ 0x7ff0000000000000 :=
    UInt64.le_trans (hmagnitude ▸ hbits) (by decide)
  have hzero : ((0 : UInt64) <<< 31).toUInt32 = 0 := rfl
  rw [narrowBits_eq hnumber, hmagnitude, hsign, hzero, UInt32.zero_or, narrowed]
  split
  next => decide
  next hleast =>
    have hleast : 873 ≤ (bits >>> 52).toNat := UInt64.not_lt.mp hleast
    split
    next htiny =>
      have htiny : (bits >>> 52).toNat < 897 := htiny
      have hplaces : ((926 : UInt64) - bits >>> 52).toNat = 926 - (bits >>> 52).toNat :=
        UInt64.toNat_sub_of_le _ _ (UInt64.le_iff_toNat_le.mpr (by change _ ≤ 926; omega))
      have hmantissa : (bits &&& 0xfffffffffffff ||| 0x10000000000000).toNat < 2 ^ 53 := by
        rw [UInt64.toNat_or, UInt64.toNat_and]
        refine Nat.or_lt_two_pow (Nat.lt_of_le_of_lt Nat.and_le_right ?_) ?_ <;> decide
      have hroom : 2 ^ 30 ≤ 2 ^ ((926 : UInt64) - bits >>> 52).toNat :=
        Nat.pow_le_pow_right (by decide) (by omega)
      have hrounded : (roundedShift (bits &&& 0xfffffffffffff ||| 0x10000000000000)
          ((926 : UInt64) - bits >>> 52)).toNat ≤ 2 ^ 23 :=
        roundedShift_le (by omega) (by omega) (by omega)
      exact toUInt32_le (Nat.le_trans hrounded (by decide))
    next hnormal =>
      have hnormal : 897 ≤ (bits >>> 52).toNat := UInt64.not_lt.mp hnormal
      have hdifference : (bits - 0x3800000000000000).toNat = bits.toNat - 896 * 2 ^ 52 :=
        UInt64.toNat_sub_of_le _ _ (UInt64.le_iff_toNat_le.mpr
          (by change 896 * 2 ^ 52 ≤ _; omega))
      have hrounded : (roundedShift (bits - 0x3800000000000000) 29).toNat ≤ 0x3f800000 :=
        roundedShift_le (by decide) (by decide) (by rw [hdifference]; change _ ≤ _ * 2 ^ 29; omega)
      have hbelow : roundedShift (bits - 0x3800000000000000) 29 < 0x7f800000 :=
        UInt64.lt_iff_toNat_lt.mpr (Nat.lt_of_le_of_lt hrounded (by decide))
      simp only
      rw [if_pos hbelow]
      exact toUInt32_le hrounded

/-! ## Widening -/

/-- What widening makes of the magnitude of a number. -/
def widened (magnitude : UInt64) : UInt64 :=
  if magnitude == 0x7f800000 then 0x7ff0000000000000
  else if magnitude == 0 then 0
  else if magnitude < 0x800000 then
    ((magnitude.log2 + 874) <<< 52) +
      ((magnitude - ((1 : UInt64) <<< magnitude.log2)) <<< ((52 : UInt64) - magnitude.log2))
  else (magnitude <<< 29) + 0x3800000000000000

theorem widenBits_eq {bits : UInt32} (hnumber : (bits &&& 0x7fffffff).toUInt64 ≤ 0x7f800000) :
    widenBits bits =
      (bits >>> 31).toUInt64 <<< 63 ||| widened (bits &&& 0x7fffffff).toUInt64 := by
  have hnumber := UInt64.not_lt.mpr hnumber
  rw [widenBits]
  simp only
  rw [if_neg hnumber, widened]
  split
  · rfl
  · split
    · rw [UInt64.or_zero]
    · split <;> rfl

theorem widened_zero : widened 0 = 0 := rfl

/-- The greatest digit of a number is moved to a place that is not below it. -/
theorem moved_log2 {n place : Nat} (hn : n ≠ 0) (htop : n.log2 ≤ place) :
    2 ^ place ≤ n * 2 ^ (place - n.log2) ∧ n * 2 ^ (place - n.log2) < 2 * 2 ^ place := by
  have hleast : 2 ^ n.log2 ≤ n := Nat.log2_self_le hn
  have hnext : n < 2 ^ (n.log2 + 1) := Nat.lt_log2_self
  have hmoved : 2 ^ n.log2 * 2 ^ (place - n.log2) = 2 ^ place := by
    rw [← Nat.pow_add, Nat.add_sub_cancel' htop]
  constructor
  · rw [← hmoved]
    exact Nat.mul_le_mul_right _ hleast
  · rw [← hmoved, ← Nat.mul_assoc, ← Nat.pow_succ']
    exact Nat.mul_lt_mul_of_pos_right hnext (Nat.two_pow_pos _)

section

variable {word : UInt64} (hpositive : 0 < word.toNat)

include hpositive

/-- The greatest digit of a tiny word is moved to the place of the exponent. -/
theorem moved_tiny (hword : word.toNat < 2 ^ 23) :
    2 ^ 52 ≤ word.toNat * 2 ^ (52 - word.log2.toNat) ∧
      word.toNat * 2 ^ (52 - word.log2.toNat) < 2 * 2 ^ 52 := by
  have htop : word.log2.toNat < 23 := (Nat.log2_lt (Nat.ne_of_gt hpositive)).mpr hword
  exact moved_log2 (Nat.ne_of_gt hpositive) (by change word.log2.toNat ≤ 52; omega)

/-- The digits of a tiny number stand behind the place of the greatest one, which becomes its
exponent. -/
theorem toNat_widened_tiny (hword : word.toNat < 2 ^ 23) :
    (widened word).toNat + 2 ^ 52 = (word.log2.toNat + 874) * 2 ^ 52 +
      word.toNat * 2 ^ (52 - word.log2.toNat) := by
  have htop : word.log2.toNat < 23 := (Nat.log2_lt (Nat.ne_of_gt hpositive)).mpr hword
  have hleast : 2 ^ word.log2.toNat ≤ word.toNat := Nat.log2_self_le (Nat.ne_of_gt hpositive)
  have hpower : ((1 : UInt64) <<< word.log2).toNat = 2 ^ word.log2.toNat :=
    toNat_one_shiftLeft (by omega)
  have hrest : (word - (1 : UInt64) <<< word.log2).toNat = word.toNat - 2 ^ word.log2.toNat := by
    rw [UInt64.toNat_sub_of_le _ _ (UInt64.le_iff_toNat_le.mpr (hpower ▸ hleast)), hpower]
  have hplaces : ((52 : UInt64) - word.log2).toNat = 52 - word.log2.toNat :=
    UInt64.toNat_sub_of_le _ _ (UInt64.le_iff_toNat_le.mpr (by change _ ≤ 52; omega))
  have hwhole : word.toNat * 2 ^ (52 - word.log2.toNat) =
      2 ^ 52 + (word.toNat - 2 ^ word.log2.toNat) * 2 ^ (52 - word.log2.toNat) := by
    have hmoved : 2 ^ word.log2.toNat * 2 ^ (52 - word.log2.toNat) = 2 ^ 52 := by
      rw [← Nat.pow_add, Nat.add_sub_cancel' (by omega)]
    rw [← hmoved, ← Nat.add_mul, Nat.add_sub_cancel' hleast]
  have hrange := moved_tiny hpositive hword
  have hexponent : ((word.log2 + 874) <<< 52).toNat = (word.log2.toNat + 874) * 2 ^ 52 := by
    have hsum : (word.log2 + 874).toNat = word.log2.toNat + 874 := by
      rw [UInt64.toNat_add]
      exact Nat.mod_eq_of_lt (by change _ + 874 < _; omega)
    rw [UInt64.toNat_shiftLeft, hsum]
    exact (congrArg (· % 2 ^ 64) (Nat.shiftLeft_eq _ 52)).trans (Nat.mod_eq_of_lt (by omega))
  have hfraction : ((word - (1 : UInt64) <<< word.log2) <<< ((52 : UInt64) - word.log2)).toNat =
      (word.toNat - 2 ^ word.log2.toNat) * 2 ^ (52 - word.log2.toNat) := by
    rw [UInt64.toNat_shiftLeft, hplaces, hrest,
      Nat.mod_eq_of_lt (show 52 - word.log2.toNat < 64 by omega), Nat.shiftLeft_eq]
    exact Nat.mod_eq_of_lt (by omega)
  have hfinite : ¬ (word == 0x7f800000) = true := by
    rw [beq_iff_eq, ← UInt64.toNat_inj]
    change word.toNat ≠ 255 * 2 ^ 23
    omega
  have hzero : ¬ (word == 0) = true := by
    rw [beq_iff_eq, ← UInt64.toNat_inj]
    exact Nat.ne_of_gt hpositive
  rw [widened, if_neg hfinite, if_neg hzero, if_pos (UInt64.lt_iff_toNat_lt.mpr hword),
    UInt64.toNat_add, hexponent, hfraction, Nat.mod_eq_of_lt (by omega), hwhole]
  omega

theorem narrowed_widened_tiny (hword : word.toNat < 2 ^ 23) :
    (narrowed (widened word)).toNat = word.toNat := by
  have htop : word.log2.toNat < 23 := (Nat.log2_lt (Nat.ne_of_gt hpositive)).mpr hword
  have hrange := moved_tiny hpositive hword
  have hwidened := toNat_widened_tiny hpositive hword
  generalize widened word = body at hwidened ⊢
  have hfield : (body >>> 52).toNat = word.log2.toNat + 874 := by
    rw [toNat_quotient _ (by decide)]
    change body.toNat / 2 ^ 52 = _
    omega
  have hfraction : (body &&& 0xfffffffffffff).toNat + 2 ^ 52 =
      word.toNat * 2 ^ (52 - word.log2.toNat) := by
    have hmod : (body &&& 0xfffffffffffff).toNat = body.toNat % 2 ^ 52 := by
      rw [UInt64.toNat_and]
      exact Nat.and_two_pow_sub_one_eq_mod body.toNat 52
    omega
  have hmantissa : ((body &&& 0xfffffffffffff) ||| 0x10000000000000).toNat =
      word.toNat * 2 ^ (52 - word.log2.toNat) := by
    have hlt : (body &&& 0xfffffffffffff).toNat < 2 ^ 52 := by omega
    rw [UInt64.toNat_or, Nat.or_comm, ← hfraction]
    exact (Nat.shiftLeft_add_eq_or_of_lt hlt 1).symm.trans (Nat.add_comm _ _)
  have hplaces : ((926 : UInt64) - body >>> 52).toNat = 52 - word.log2.toNat := by
    have hle : body >>> 52 ≤ 926 :=
      UInt64.le_iff_toNat_le.mpr (by rw [hfield]; change _ ≤ 926; omega)
    rw [UInt64.toNat_sub_of_le _ _ hle, hfield]
    change 926 - _ = _
    omega
  have hleast : ¬ body >>> 52 < 873 :=
    UInt64.not_lt.mpr (UInt64.le_iff_toNat_le.mpr (by rw [hfield]; change 873 ≤ _; omega))
  have htiny : body >>> 52 < 897 :=
    UInt64.lt_iff_toNat_lt.mpr (by rw [hfield]; change _ < 897; omega)
  have hexact : ((body &&& 0xfffffffffffff) ||| 0x10000000000000).toNat =
      word.toNat * 2 ^ ((926 : UInt64) - body >>> 52).toNat := by rw [hmantissa, hplaces]
  have hrounded := roundedShift_eq (by omega) (by omega) hexact
  rw [narrowed, if_neg hleast, if_pos htiny, UInt64.toNat_toUInt32, hrounded]
  exact Nat.mod_eq_of_lt (by omega)

end

section

variable {word : UInt64} (hleast : 2 ^ 23 ≤ word.toNat) (hword : word.toNat < 255 * 2 ^ 23)

include hleast hword

theorem toNat_widened_normal : (widened word).toNat = word.toNat * 2 ^ 29 + 896 * 2 ^ 52 := by
  have hfinite : ¬ (word == 0x7f800000) = true := by
    rw [beq_iff_eq, ← UInt64.toNat_inj]
    exact Nat.ne_of_lt hword
  have hzero : ¬ (word == 0) = true := by
    rw [beq_iff_eq, ← UInt64.toNat_inj]
    change word.toNat ≠ 0
    omega
  have htiny : ¬ word < 0x800000 := UInt64.not_lt.mpr (UInt64.le_iff_toNat_le.mpr hleast)
  have hshifted : (word <<< 29).toNat = word.toNat * 2 ^ 29 := by
    rw [UInt64.toNat_shiftLeft]
    exact (congrArg (· % 2 ^ 64) (Nat.shiftLeft_eq _ 29)).trans (Nat.mod_eq_of_lt (by omega))
  rw [widened, if_neg hfinite, if_neg hzero, if_neg htiny, UInt64.toNat_add, hshifted]
  exact Nat.mod_eq_of_lt (by change _ + 896 * 2 ^ 52 < 2 ^ 64; omega)

theorem narrowed_widened_normal : (narrowed (widened word)).toNat = word.toNat := by
  have hwidened := toNat_widened_normal hleast hword
  generalize widened word = body at hwidened ⊢
  have hfield : 897 ≤ (body >>> 52).toNat := by
    rw [toNat_quotient _ (by decide)]
    change 897 ≤ body.toNat / 2 ^ 52
    omega
  have hdifference : (body - 0x3800000000000000).toNat = word.toNat * 2 ^ 29 := by
    have hbias : (0x3800000000000000 : UInt64).toNat = 896 * 2 ^ 52 := rfl
    have hle : (0x3800000000000000 : UInt64) ≤ body := by
      rw [UInt64.le_iff_toNat_le, hbias]
      omega
    rw [UInt64.toNat_sub_of_le _ _ hle, hwidened, hbias, Nat.add_sub_cancel]
  have hexact : (body - 0x3800000000000000).toNat = word.toNat * 2 ^ (29 : UInt64).toNat :=
    hdifference
  have hrounded := roundedShift_eq (by decide) (by decide) hexact
  have hbelow : roundedShift (body - 0x3800000000000000) 29 < 0x7f800000 :=
    UInt64.lt_iff_toNat_lt.mpr (hrounded ▸ hword)
  have hnotTiny : ¬ body >>> 52 < 897 := UInt64.not_lt.mpr (UInt64.le_iff_toNat_le.mpr hfield)
  have hnotZero : ¬ body >>> 52 < 873 := UInt64.not_lt.mpr
    (UInt64.le_iff_toNat_le.mpr (Nat.le_trans (by decide) hfield))
  rw [narrowed, if_neg hnotZero, if_neg hnotTiny]
  simp only
  rw [if_pos hbelow, UInt64.toNat_toUInt32, hrounded]
  exact Nat.mod_eq_of_lt (by omega)

end

/-- Doubles equal to singles from zero to one are not greater than one. -/
theorem widenBits_le {bits : UInt32} (hbits : bits ≤ 0x3f800000) :
    widenBits bits ≤ 0x3ff0000000000000 := by
  have hle : bits.toNat ≤ 127 * 2 ^ 23 := hbits
  have hsign : bits >>> 31 = 0 := by
    rw [← UInt32.toNat_inj, UInt32.toNat_shiftRight, Nat.shiftRight_eq_div_pow]
    exact Nat.div_eq_of_lt (by simp; omega)
  have hmagnitude : bits &&& 0x7fffffff = bits := by
    rw [← UInt32.toNat_inj, UInt32.toNat_and]
    exact (Nat.and_two_pow_sub_one_eq_mod bits.toNat 31).trans (Nat.mod_eq_of_lt (by omega))
  have hnumber : (bits &&& 0x7fffffff).toUInt64 ≤ 0x7f800000 := by
    rw [hmagnitude, UInt64.le_iff_toNat_le]
    change bits.toNat ≤ 255 * 2 ^ 23
    omega
  have hzero : (0 : UInt32).toUInt64 <<< 63 = 0 := rfl
  rw [widenBits_eq hnumber, hsign, hmagnitude, hzero, UInt64.zero_or, UInt64.le_iff_toNat_le]
  change _ ≤ 1023 * 2 ^ 52
  have hword : bits.toUInt64.toNat = bits.toNat := rfl
  rcases Nat.eq_zero_or_pos bits.toUInt64.toNat with hnone | hpositive
  · rw [show bits.toUInt64 = 0 from UInt64.toNat_inj.mp hnone, widened_zero]
    decide
  rcases Nat.lt_or_ge bits.toUInt64.toNat (2 ^ 23) with htiny | hnormal
  · have htop : bits.toUInt64.log2.toNat < 23 := (Nat.log2_lt (Nat.ne_of_gt hpositive)).mpr htiny
    have hrange := moved_tiny hpositive htiny
    have hwidened := toNat_widened_tiny hpositive htiny
    omega
  · rw [toNat_widened_normal hnormal (by omega)]
    omega

/-! ## There and back -/

/-- The magnitude of a single is widened to that of a number, and narrowing gives it back. -/
theorem narrowed_widened {word : UInt64} (hword : word ≤ 0x7f800000) :
    (widened word).toNat ≤ 2047 * 2 ^ 52 ∧ (narrowed (widened word)).toNat = word.toNat := by
  have hle : word.toNat ≤ 255 * 2 ^ 23 := hword
  rcases Nat.eq_zero_or_pos word.toNat with hzero | hpositive
  · obtain rfl : word = 0 := UInt64.toNat_inj.mp hzero
    exact ⟨by decide, by decide⟩
  rcases Nat.lt_or_ge word.toNat (2 ^ 23) with htiny | hnormal
  · have htop : word.log2.toNat < 23 := (Nat.log2_lt (Nat.ne_of_gt hpositive)).mpr htiny
    have hrange := moved_tiny hpositive htiny
    have hwidened := toNat_widened_tiny hpositive htiny
    exact ⟨by omega, narrowed_widened_tiny hpositive htiny⟩
  rcases Nat.lt_or_eq_of_le hle with hfinite | hinfinite
  · have hwidened := toNat_widened_normal hnormal hfinite
    exact ⟨by omega, narrowed_widened_normal hnormal hfinite⟩
  · obtain rfl : word = 0x7f800000 := UInt64.toNat_inj.mp hinfinite
    exact ⟨by decide, by decide⟩

theorem toNat_sign_or_magnitude {sign body : UInt64} (hsign : sign.toNat < 2)
    (hbody : body.toNat < 2 ^ 63) :
    (sign <<< 63 ||| body).toNat = sign.toNat * 2 ^ 63 + body.toNat := by
  have hshifted : (sign <<< 63).toNat = sign.toNat <<< 63 := by
    rw [UInt64.toNat_shiftLeft]
    exact Nat.mod_eq_of_lt (by change sign.toNat <<< 63 < _; rw [Nat.shiftLeft_eq]; omega)
  rw [UInt64.toNat_or, hshifted, ← Nat.shiftLeft_add_eq_or_of_lt hbody, Nat.shiftLeft_eq]

/-- A sign in front of a magnitude does not mix with it. -/
theorem sign_or_magnitude {sign body : UInt64} (hsign : sign.toNat < 2)
    (hbody : body.toNat < 2 ^ 63) :
    (sign <<< 63 ||| body) >>> 63 = sign ∧
      (sign <<< 63 ||| body) &&& 0x7fffffffffffffff = body := by
  have hword := toNat_sign_or_magnitude hsign hbody
  constructor
  · rw [← UInt64.toNat_inj, toNat_quotient _ (by decide), hword]
    change (_ + body.toNat) / 2 ^ 63 = _
    omega
  · rw [← UInt64.toNat_inj, UInt64.toNat_and, hword]
    exact (Nat.and_two_pow_sub_one_eq_mod _ 63).trans (by omega)

/-- A single is its sign in front of its magnitude. -/
theorem sign_or_magnitude_single (bits : UInt32) :
    ((bits >>> 31).toUInt64 <<< 31).toUInt32 ||| (bits &&& 0x7fffffff) = bits := by
  have hlt := bits.toNat_lt
  have hsign : (((bits >>> 31).toUInt64 <<< 31).toUInt32).toNat = (bits.toNat / 2 ^ 31) <<< 31 := by
    have hquotient : (bits >>> 31).toUInt64.toNat = bits.toNat / 2 ^ 31 := by
      rw [UInt32.toNat_toUInt64, UInt32.toNat_shiftRight]
      exact Nat.shiftRight_eq_div_pow _ _
    rw [UInt64.toNat_toUInt32, UInt64.toNat_shiftLeft, hquotient]
    change (bits.toNat / 2 ^ 31) <<< 31 % 2 ^ 64 % 2 ^ 32 = _
    rw [Nat.shiftLeft_eq]
    omega
  have hmagnitude : (bits &&& 0x7fffffff).toNat = bits.toNat % 2 ^ 31 := by
    rw [UInt32.toNat_and]
    exact Nat.and_two_pow_sub_one_eq_mod bits.toNat 31
  rw [← UInt32.toNat_inj, UInt32.toNat_or, hsign, hmagnitude,
    ← Nat.shiftLeft_add_eq_or_of_lt (Nat.mod_lt _ (by decide)), Nat.shiftLeft_eq]
  omega

/-- A single that is a number is narrowed back from the double that it is widened to. -/
theorem narrowBits_widenBits {bits : UInt32}
    (hnumber : (bits &&& 0x7fffffff).toUInt64 ≤ 0x7f800000) :
    narrowBits (widenBits bits) = bits := by
  obtain ⟨hle, hback⟩ := narrowed_widened hnumber
  have hlt := bits.toNat_lt
  have hsignLt : (bits >>> 31).toUInt64.toNat < 2 := by
    rw [UInt32.toNat_toUInt64, UInt32.toNat_shiftRight, Nat.shiftRight_eq_div_pow]
    change bits.toNat / 2 ^ 31 < 2
    omega
  obtain ⟨hsign, hmagnitude⟩ := sign_or_magnitude hsignLt
    (show (widened (bits &&& 0x7fffffff).toUInt64).toNat < 2 ^ 63 by omega)
  have hnarrowed : narrowed (widened (bits &&& 0x7fffffff).toUInt64) = bits &&& 0x7fffffff :=
    UInt32.toNat_inj.mp hback
  rw [widenBits_eq hnumber, narrowBits_eq (hmagnitude.symm ▸ UInt64.le_iff_toNat_le.mpr hle), hsign,
    hmagnitude, hnarrowed, sign_or_magnitude_single]

/-- What is no single is widened to a word that is greater than that of any number up to one. -/
theorem testBit_widenBits {bits : UInt32}
    (hnan : ¬ (bits &&& 0x7fffffff).toUInt64 ≤ 0x7f800000) :
    (widenBits bits).toNat.testBit 62 = true := by
  rw [widenBits]
  simp only
  rw [if_pos (UInt64.not_le.mp hnan), UInt64.toNat_or, Nat.testBit_or]
  exact Bool.or_true _

end Numeric

/-- A single whose double lies between zero and one is what this double is stored as. -/
theorem Single.ofDouble_toDouble {x : Single}
    (hx : Double.le 0 x.toDouble = true ∧ Double.le x.toDouble 1 = true) :
    ofDouble x.toDouble = x := by
  refine congrArg mk (Numeric.narrowBits_widenBits ?_)
  by_contra hnan
  have hbit := Numeric.testBit_widenBits hnan
  rcases Double.unit_iff.mp hx with hle | hzero
  · have hlt : (Numeric.widenBits x.word).toNat < 2 ^ 62 :=
      Nat.lt_of_le_of_lt (UInt64.le_iff_toNat_le.mp hle) (by decide)
    rw [Nat.testBit_lt_two_pow hlt] at hbit
    cases hbit
  · rw [show Numeric.widenBits x.word = 0x8000000000000000 from hzero] at hbit
    exact absurd hbit (by decide)

/-- A number from zero to one is still one after it has been stored. -/
theorem Double.unit_widen_narrow {x : Double} (hx : le 0 x = true ∧ le x 1 = true) :
    le 0 (Single.ofDouble x).toDouble = true ∧ le (Single.ofDouble x).toDouble 1 = true := by
  rw [unit_iff] at hx ⊢
  rcases hx with hle | hzero
  · exact .inl (Numeric.widenBits_le (Numeric.narrowBits_le hle))
  · rw [Single.toDouble, Single.ofDouble, hzero]
    exact .inr rfl

end FeedForward
