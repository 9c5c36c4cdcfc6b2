import Mathlib.Algebra.Group.Nat.Defs
import FeedForward.Bytes.Input
import FeedForward.Bytes.Output

/-!
# Written bytes are read back

What is written as one part is read back as the same thing in front of whatever follows, and the
rest is left alone. Parts that follow each other are read back one after the other, so a whole is
read back when its parts are. Counts, signed numbers and lengths must fit into four bytes with a
sign; nothing is said about reading bytes that were not written.
-/

namespace FeedForward

/-! ## Texts as bytes -/

theorem byteArray_toList_loop (bytes : ByteArray) (i : Nat) (done : List UInt8) :
    ByteArray.toList.loop bytes i done = done.reverse ++ bytes.data.toList.drop i := by
  fun_induction ByteArray.toList.loop bytes i done with
  | case1 i done hlt ih =>
      have hlist : i < bytes.data.toList.length := by simpa using hlt
      have hget : bytes.get! i = bytes.data.toList[i] := by
        rw [Array.getElem_toList]
        exact getElem!_pos bytes.data i hlt
      rw [ih, List.drop_eq_getElem_cons hlist, hget, List.reverse_cons, List.append_assoc,
        List.singleton_append]
  | case2 i done hge =>
      rw [List.drop_eq_nil_of_le (by simpa using hge), List.append_nil]

theorem byteArray_toList (bytes : ByteArray) : bytes.toList = bytes.data.toList := by
  rw [ByteArray.toList, byteArray_toList_loop]
  rfl

/-- The bytes of a text stand for that text. -/
theorem fromUTF8_toUTF8 (s : String) : String.fromUTF8? ⟨s.toUTF8.toList.toArray⟩ = some s := by
  have hbytes : (⟨s.toUTF8.toList.toArray⟩ : ByteArray) = s.toUTF8 := by rw [byteArray_toList]
  rw [hbytes, String.fromUTF8?]
  exact dif_pos s.isValidUTF8

theorem length_toUTF8_toList (s : String) : s.toUTF8.toList.length = s.toUTF8.size := by
  rw [byteArray_toList]
  rfl

namespace Output

variable {γ δ κ : Type}

/-- What is written is written whole, and it is read back in front of anything. -/
structure Reads (out : Output) (input : Input γ) (x : γ) : Prop where
  whole : out.cut = none
  run_eq : ∀ rest, input.run (out.bytes ++ rest) = .ok (x, rest)

namespace Reads

variable {out : Output} {outs : List Output} {input : Input γ} {x : γ}

/-! ## Parts in a row -/

/-- Something that is known without reading. -/
theorem nil {y : γ} (hrun : ∀ rest, input.run rest = .ok (y, rest)) : (join []).Reads input y :=
  ⟨rfl, hrun⟩

/-- One part in front of others. -/
theorem cons {next : γ → Input δ} {y : δ} (hfirst : out.Reads input x)
    (hrest : (join outs).Reads (next x) y) : (join (out :: outs)).Reads (input >>= next) y := by
  obtain ⟨bytes, cut⟩ := out
  obtain ⟨hwhole, hrun⟩ := hfirst
  cases (show cut = none from hwhole)
  refine ⟨hrest.whole, fun rest => ?_⟩
  rw [join, StateT.run_bind, List.append_assoc, hrun]
  exact hrest.run_eq rest

/-- What is made of one part after it has been read. -/
theorem bind {next : γ → Input δ} {y : δ} (hpart : out.Reads input x)
    (hnext : ∀ rest, (next x).run rest = .ok (y, rest)) : out.Reads (input >>= next) y := by
  refine ⟨hpart.whole, fun rest => ?_⟩
  rw [StateT.run_bind, hpart.run_eq]
  exact hnext rest

/-- One thing after the other, each by the item that was written for it. -/
theorem times {item : κ → Output} {value : κ → γ} {items : List κ}
    (hitem : ∀ k ∈ items, (item k).Reads input (value k)) :
    (join (items.map item)).Reads (Input.times input items.length) (items.map value) := by
  induction items with
  | nil => exact nil fun _ => rfl
  | cons k items ih =>
      have hrest := ih fun other hother => hitem other (List.mem_cons_of_mem k hother)
      exact cons (hitem k List.mem_cons_self) (hrest.bind fun _ => rfl)

/-! ## Single parts -/

theorem exactly {bytes : List UInt8} {size : Nat} (hsize : bytes.length = size) :
    (ofBytes bytes).Reads (Input.exactly size) bytes := by
  refine ⟨rfl, fun rest => ?_⟩
  subst hsize
  change Input.exactly bytes.length (bytes ++ rest) = _
  rw [Input.exactly, List.take_left, List.drop_left]
  exact if_pos rfl

theorem word {count n : Nat} (hn : n < 256 ^ count) :
    (ofBytes (Word.bytes count n)).Reads (Input.word count) n := by
  have hvalue : Word.value (Word.bytes count n) = n := by
    rw [Word.value_bytes]
    exact Nat.mod_eq_of_lt hn
  refine (exactly (Word.length_bytes count n)).bind fun rest => ?_
  rw [hvalue]
  rfl

theorem int {n : Int} (hlow : -2147483648 ≤ n) (hhigh : n < 2147483648) :
    (Output.int n).Reads Input.int n := by
  have hword : Word.ofSigned n < 256 ^ 4 := by
    rw [Word.ofSigned]
    omega
  rw [Output.int, if_pos ⟨hlow, hhigh⟩]
  refine (word hword).bind fun rest => ?_
  rw [Word.toSigned_ofSigned n hlow hhigh]
  rfl

theorem count (what : String) {n : Nat} (hn : n < 2147483648) :
    (Output.int n).Reads (Input.count what) n := by
  refine (int (by omega) (by omega)).bind fun rest => ?_
  rw [if_neg (by omega)]
  rfl

theorem text {s : String} (hsize : s.toUTF8.size < 2147483648) :
    (Output.text s).Reads Input.text s := by
  refine cons (count _ hsize) (cons (exactly (length_toUTF8_toList s)) (nil fun rest => ?_))
  rw [fromUTF8_toUTF8]
  rfl

theorem list (what : String) (value : κ → γ) {item : κ → Output} {items : List κ}
    (hlength : items.length < 2147483648)
    (hitem : ∀ k ∈ items, (item k).Reads input (value k)) :
    (Output.list item items).Reads (Input.list what input) (items.map value) :=
  cons (count what hlength) (times hitem)

end Reads

/-- A text that is written whole has a length that four bytes can hold. -/
theorem size_lt_of_complete {s : String} {bytes : List UInt8}
    (hcomplete : (text s).complete = .ok bytes) : s.toUTF8.size < 2147483648 := by
  refine Nat.lt_of_not_le fun hsize => ?_
  have hlength : Output.int s.toUTF8.size = fail .tooLarge := if_neg (by omega)
  rw [text, hlength] at hcomplete
  cases hcomplete

end Output

end FeedForward
