import Mathlib.Data.List.Induction
import FeedForward.Proofs.Bytes
import FeedForward.Proofs.Check

/-!
# Reading accepts exactly what is spelled

Every thing that can be read has a spelling in bytes. Reading takes the spelling from the front of
what there is, whatever follows it, and refuses bytes that start with no spelling at all. The only
way to refuse is that the bytes are no model file. Spellings are said without the reader: numbers
by their words, texts by their UTF-8 bytes behind the number of these, lists by their items behind
their number.
-/

namespace FeedForward

/-! ## Words -/

namespace Word

theorem value_concat (front : List UInt8) (byte : UInt8) :
    value (front ++ [byte]) = value front * 256 + byte.toNat := by
  simp [value, List.foldl_append]

/-- Bytes stand for a number that so many bytes can hold. -/
theorem value_lt (word : List UInt8) : value word < 256 ^ word.length := by
  induction word using List.reverseRecOn with
  | nil => simp [value]
  | append_singleton front byte ih =>
      have hbyte := byte.toNat_lt
      rw [value_concat, List.length_append, List.length_singleton, Nat.pow_succ]
      omega

/-- Bytes are the word of the number that they stand for. -/
theorem bytes_value (word : List UInt8) : bytes word.length (value word) = word := by
  induction word using List.reverseRecOn with
  | nil => rfl
  | append_singleton front byte ih =>
      have hbyte := byte.toNat_lt
      have hfront : (value front * 256 + byte.toNat) / 256 = value front := by omega
      have hlast : UInt8.ofNat (value front * 256 + byte.toNat) = byte := by
        apply UInt8.toNat_inj.mp
        rw [UInt8.toNat_ofNat']
        omega
      rw [value_concat, List.length_append, List.length_singleton, bytes, hfront, ih, hlast]

theorem ofSigned_toSigned {word : Nat} (hword : word < 4294967296) :
    ofSigned (toSigned word) = word := by
  unfold ofSigned toSigned
  split <;> omega

theorem toSigned_range {word : Nat} (hword : word < 4294967296) :
    -2147483648 ≤ toSigned word ∧ toSigned word < 2147483648 := by
  unfold toSigned
  split <;> omega

end Word

/-! ## Spellings -/

/-- The four bytes of a signed number. -/
def intBytes (n : Int) : List UInt8 := Word.bytes 4 (Word.ofSigned n)

/-- The bytes of a text behind their number. -/
def textBytes (s : String) : List UInt8 := intBytes s.toUTF8.size ++ s.toUTF8.toList

/-- The items of a list behind their number. -/
def listBytes {κ : Type} (spelling : κ → List UInt8) (items : List κ) : List UInt8 :=
  intBytes items.length ++ items.flatMap spelling

/-- Whether four bytes with a sign can hold a number. -/
def FitsInt (n : Int) : Prop := -2147483648 ≤ n ∧ n < 2147483648

instance : DecidablePred FitsInt := fun n =>
  inferInstanceAs (Decidable (-2147483648 ≤ n ∧ n < 2147483648))

/-- Whether four bytes with a sign can hold a count. -/
def FitsCount (n : Nat) : Prop := n < 2147483648

instance : DecidablePred FitsCount := fun n => inferInstanceAs (Decidable (n < 2147483648))

namespace Input

variable {γ δ κ : Type}

/-! ## Parts in a row -/

theorem bind_eq_ok {input : Input γ} {next : γ → Input δ} {bytes rest : List UInt8} {y : δ}
    (hrun : (input >>= next).run bytes = .ok (y, rest)) :
    ∃ x middle, input.run bytes = .ok (x, middle) ∧ (next x).run middle = .ok (y, rest) := by
  rw [StateT.run_bind, Check.bind_eq_ok_iff] at hrun
  obtain ⟨⟨x, middle⟩, hfirst, hnext⟩ := hrun
  exact ⟨x, middle, hfirst, hnext⟩

theorem bind_run {input : Input γ} {next : γ → Input δ} {bytes middle : List UInt8} {x : γ}
    (hfirst : input.run bytes = .ok (x, middle)) :
    (input >>= next).run bytes = (next x).run middle := by
  rw [StateT.run_bind, hfirst]
  rfl

/-! ## Numbers and texts -/

theorem exactly_eq_ok_iff {size : Nat} {bytes taken rest : List UInt8} :
    (exactly size).run bytes = .ok (taken, rest) ↔ taken.length = size ∧ bytes = taken ++ rest := by
  change exactly size bytes = _ ↔ _
  rw [exactly]
  constructor
  · intro hrun
    split at hrun
    next hlength => cases hrun; exact ⟨hlength, (List.take_append_drop size bytes).symm⟩
    next => split at hrun <;> cases hrun
  · rintro ⟨rfl, rfl⟩
    rw [List.take_left, List.drop_left]
    exact if_pos rfl

theorem word_eq_ok_iff {size n : Nat} {bytes rest : List UInt8} :
    (word size).run bytes = .ok (n, rest) ↔
      n < 256 ^ size ∧ bytes = Word.bytes size n ++ rest := by
  constructor
  · intro hrun
    obtain ⟨taken, _, hexactly, hreturn⟩ := bind_eq_ok hrun
    cases hreturn
    obtain ⟨rfl, rfl⟩ := exactly_eq_ok_iff.mp hexactly
    exact ⟨Word.value_lt taken, by rw [Word.bytes_value]⟩
  · rintro ⟨hn, rfl⟩
    have hvalue : Word.value (Word.bytes size n) = n :=
      (Word.value_bytes size n).trans (Nat.mod_eq_of_lt hn)
    rw [word, bind_run (exactly_eq_ok_iff.mpr ⟨Word.length_bytes size n, rfl⟩), hvalue]
    rfl

theorem int_eq_ok_iff {n : Int} {bytes rest : List UInt8} :
    int.run bytes = .ok (n, rest) ↔ FitsInt n ∧ bytes = intBytes n ++ rest := by
  constructor
  · intro hrun
    obtain ⟨word, _, hword, hreturn⟩ := bind_eq_ok hrun
    cases hreturn
    obtain ⟨hlt, rfl⟩ := word_eq_ok_iff.mp hword
    exact ⟨Word.toSigned_range hlt, by rw [intBytes, Word.ofSigned_toSigned hlt]⟩
  · rintro ⟨⟨hlow, hhigh⟩, rfl⟩
    have hword : Word.ofSigned n < 256 ^ 4 := by
      rw [Word.ofSigned]
      omega
    rw [int, intBytes, bind_run (word_eq_ok_iff.mpr ⟨hword, rfl⟩),
      Word.toSigned_ofSigned n hlow hhigh]
    rfl

theorem count_eq_ok_iff {what : String} {n : Nat} {bytes rest : List UInt8} :
    (count what).run bytes = .ok (n, rest) ↔ FitsCount n ∧ bytes = intBytes n ++ rest := by
  constructor
  · intro hrun
    obtain ⟨m, middle, hint, hcheck⟩ := bind_eq_ok hrun
    obtain ⟨⟨hlow, hhigh⟩, rfl⟩ := int_eq_ok_iff.mp hint
    split at hcheck
    next => cases hcheck
    next hpositive =>
      cases hcheck
      refine ⟨?_, by rw [Int.toNat_of_nonneg (by omega)]⟩
      rw [FitsCount]
      omega
  · rintro ⟨hn, rfl⟩
    rw [FitsCount] at hn
    have hint : FitsInt n := ⟨by omega, by omega⟩
    rw [count, bind_run (int_eq_ok_iff.mpr ⟨hint, rfl⟩), if_neg (by omega)]
    rfl

theorem text_eq_ok_iff {s : String} {bytes rest : List UInt8} :
    text.run bytes = .ok (s, rest) ↔
      FitsCount s.toUTF8.size ∧ bytes = textBytes s ++ rest := by
  constructor
  · intro hrun
    obtain ⟨size, middle, hcount, hbytes⟩ := bind_eq_ok hrun
    obtain ⟨taken, after, hexactly, hdecode⟩ := bind_eq_ok hbytes
    obtain ⟨hsize, rfl⟩ := count_eq_ok_iff.mp hcount
    obtain ⟨rfl, rfl⟩ := exactly_eq_ok_iff.mp hexactly
    split at hdecode
    next t htext =>
      cases hdecode
      -- A text that some bytes stand for has these bytes.
      have hbytes : s.toUTF8.toList = taken := by
        rw [String.fromUTF8?] at htext
        split at htext
        next => cases htext; rw [byteArray_toList]; rfl
        next => cases htext
      rw [textBytes, ← length_toUTF8_toList, hbytes, List.append_assoc]
      exact ⟨hsize, rfl⟩
    next => cases hdecode
  · rintro ⟨hsize, rfl⟩
    rw [text, textBytes, List.append_assoc, bind_run (count_eq_ok_iff.mpr ⟨hsize, rfl⟩),
      bind_run (exactly_eq_ok_iff.mpr ⟨length_toUTF8_toList s, rfl⟩), fromUTF8_toUTF8]
    rfl

/-! ## Lists -/

/-- Reading accepts the spellings of valid things, takes them for the values of these things and
leaves alone what follows; it accepts nothing else. -/
def Accepts (input : Input γ) (valid : κ → Prop) (spelling : κ → List UInt8) (value : κ → γ) :
    Prop :=
  ∀ bytes x rest, input.run bytes = .ok (x, rest) ↔
    ∃ k, valid k ∧ value k = x ∧ bytes = spelling k ++ rest

namespace Accepts

variable {input : Input γ} {valid : κ → Prop} {spelling : κ → List UInt8} {value : κ → γ}

theorem run_eq (haccepts : input.Accepts valid spelling value) {k : κ} (hvalid : valid k)
    (rest : List UInt8) : input.run (spelling k ++ rest) = .ok (value k, rest) :=
  (haccepts _ _ _).mpr ⟨k, hvalid, rfl, rfl⟩

/-- Things that are their own values. -/
theorem of_eq_ok_iff {valid : γ → Prop} {spelling : γ → List UInt8}
    (hiff : ∀ {x : γ} {bytes rest : List UInt8}, input.run bytes = .ok (x, rest) ↔
      valid x ∧ bytes = spelling x ++ rest) : input.Accepts valid spelling id := by
  intro bytes x rest
  rw [hiff]
  constructor
  · rintro ⟨hvalid, hbytes⟩
    exact ⟨x, hvalid, rfl, hbytes⟩
  · rintro ⟨_, hvalid, rfl, hbytes⟩
    exact ⟨hvalid, hbytes⟩

/-- One item after the other, as many as asked for. -/
theorem times_eq_ok_iff (haccepts : input.Accepts valid spelling value) {count : Nat}
    {bytes rest : List UInt8} {xs : List γ} :
    (times input count).run bytes = .ok (xs, rest) ↔
      ∃ items : List κ, items.length = count ∧ (∀ k ∈ items, valid k) ∧ items.map value = xs ∧
        bytes = items.flatMap spelling ++ rest := by
  induction count generalizing bytes xs with
  | zero =>
      constructor
      · intro hrun
        cases hrun
        exact ⟨[], rfl, by simp, rfl, rfl⟩
      · rintro ⟨items, hlength, _, rfl, rfl⟩
        rw [List.length_eq_zero_iff.mp hlength]
        rfl
  | succ count ih =>
      constructor
      · intro hrun
        obtain ⟨x, middle, hitem, hrun⟩ := bind_eq_ok hrun
        obtain ⟨others, _, hothers, hreturn⟩ := bind_eq_ok hrun
        cases hreturn
        obtain ⟨k, hk, rfl, rfl⟩ := (haccepts _ _ _).mp hitem
        obtain ⟨items, hlength, hitems, rfl, rfl⟩ := ih.mp hothers
        refine ⟨k :: items, by rw [List.length_cons, hlength], ?_, rfl, ?_⟩
        · exact fun other hother => (List.mem_cons.mp hother).elim (· ▸ hk) (hitems other)
        · rw [List.flatMap_cons, List.append_assoc]
      · rintro ⟨items, hlength, hitems, rfl, rfl⟩
        cases items with
        | nil => simp at hlength
        | cons k items =>
            have hcount : items.length = count := by simpa using hlength
            have hothers := ih.mpr ⟨items, hcount, fun other hother =>
              hitems other (List.mem_cons_of_mem k hother), rfl, rfl⟩
            rw [List.flatMap_cons, List.append_assoc, times,
              bind_run (haccepts.run_eq (hitems k List.mem_cons_self) _), bind_run hothers]
            rfl

/-- Items behind their number. -/
theorem list_eq_ok_iff (haccepts : input.Accepts valid spelling value) {what : String}
    {bytes rest : List UInt8} {xs : List γ} :
    (list what input).run bytes = .ok (xs, rest) ↔
      ∃ items : List κ, FitsCount items.length ∧ (∀ k ∈ items, valid k) ∧ items.map value = xs ∧
        bytes = listBytes spelling items ++ rest := by
  constructor
  · intro hrun
    obtain ⟨size, middle, hcount, hitems⟩ := bind_eq_ok hrun
    obtain ⟨hsize, rfl⟩ := count_eq_ok_iff.mp hcount
    obtain ⟨items, rfl, hvalid, rfl, rfl⟩ := haccepts.times_eq_ok_iff.mp hitems
    exact ⟨items, hsize, hvalid, rfl, by rw [listBytes, List.append_assoc]⟩
  · rintro ⟨items, hsize, hitems, rfl, rfl⟩
    rw [listBytes, List.append_assoc, list, bind_run (count_eq_ok_iff.mpr ⟨hsize, rfl⟩)]
    exact haccepts.times_eq_ok_iff.mpr ⟨items, rfl, hitems, rfl, rfl⟩

end Accepts

/-! ## What is refused -/

/-- Reading that fails says that the bytes are no model file. -/
def Refuses (input : Input γ) : Prop :=
  ∀ bytes, Check.Finds (fun fault => fault.family = .malformedModel) (input.run bytes)

namespace Refuses

theorem pure (x : γ) : (Pure.pure x : Input γ).Refuses := fun _ => .ok _

theorem throw {fault : Fault} (hfault : fault.family = .malformedModel) :
    (throw fault : Input γ).Refuses := fun _ => .error hfault

/-- Nothing is read behind a refusal. -/
theorem throw_bind {fault : Fault} (hfault : fault.family = .malformedModel)
    (next : γ → Input δ) : ((MonadExcept.throw fault : Input γ) >>= next).Refuses :=
  fun _ => .error hfault

theorem bind {input : Input γ} {next : γ → Input δ} (hinput : input.Refuses)
    (hnext : ∀ x, (next x).Refuses) : (input >>= next).Refuses := by
  intro bytes
  rw [StateT.run_bind]
  exact (hinput bytes).bind fun taken => hnext taken.1 taken.2

theorem exactly (size : Nat) : (Input.exactly size).Refuses := by
  intro bytes
  change Check.Finds _ (Input.exactly size bytes)
  rw [Input.exactly]
  split
  · exact .ok _
  · split <;> exact .error rfl

theorem word (size : Nat) : (Input.word size).Refuses := (exactly size).bind fun _ => .pure _

theorem int : Input.int.Refuses := (word 4).bind fun _ => .pure _

theorem count (what : String) : (Input.count what).Refuses := by
  refine int.bind fun n => ?_
  split
  · exact throw_bind rfl _
  · exact .pure _

theorem text : Input.text.Refuses := by
  refine (count _).bind fun size => (exactly size).bind fun bytes => ?_
  split
  · exact .pure _
  · exact .throw rfl

theorem times {input : Input γ} (hinput : input.Refuses) (count : Nat) :
    (Input.times input count).Refuses := by
  induction count with
  | zero => exact .pure _
  | succ count ih => exact hinput.bind fun _ => ih.bind fun _ => .pure _

theorem list (what : String) {input : Input γ} (hinput : input.Refuses) :
    (Input.list what input).Refuses := (count what).bind hinput.times

end Refuses

end Input

end FeedForward
