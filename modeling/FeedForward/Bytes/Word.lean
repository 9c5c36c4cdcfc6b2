/-!
# Words of bytes

A word is a whole number in a fixed number of bytes, the most significant byte first.
Reading a word back gives the number again as far as the bytes reach. Signed numbers are
kept in four bytes, negative ones as their distance to two to the thirty-second.
-/

namespace FeedForward.Word

/-- The last bytes of a whole number. -/
def bytes : Nat → Nat → List UInt8
  | 0, _ => []
  | count + 1, n => bytes count (n / 256) ++ [UInt8.ofNat n]

/-- The whole number that some bytes stand for. -/
def value (bytes : List UInt8) : Nat := bytes.foldl (fun n byte => n * 256 + byte.toNat) 0

/-- The four-byte word of a signed number. -/
def ofSigned (n : Int) : Nat := (n % 4294967296).toNat

/-- The signed number of a four-byte word. -/
def toSigned (word : Nat) : Int := if word < 2147483648 then word else (word : Int) - 4294967296

@[simp] theorem length_bytes (count n : Nat) : (bytes count n).length = count := by
  induction count generalizing n with
  | zero => rfl
  | succ count ih => simp [bytes, ih]

theorem value_bytes (count n : Nat) : value (bytes count n) = n % Nat.pow 256 count := by
  induction count generalizing n with
  | zero => simp [bytes, value, Nat.mod_one]
  | succ count ih =>
    have hvalue : value (bytes count (n / 256) ++ [UInt8.ofNat n]) =
        value (bytes count (n / 256)) * 256 + n % 256 := by
      simp [value, List.foldl_append]
    have hpow : Nat.pow 256 (count + 1) = 256 * Nat.pow 256 count := Nat.mul_comm ..
    rw [bytes, hvalue, ih, hpow, Nat.mod_mul]
    omega

theorem toSigned_ofSigned (n : Int) (low : -2147483648 ≤ n) (high : n < 2147483648) :
    toSigned (ofSigned n) = n := by
  unfold toSigned ofSigned
  split <;> omega

end FeedForward.Word
