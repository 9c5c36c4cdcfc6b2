import FeedForward.Text.Case

/-!
# Lower case is settled

Taking the lower case of a text twice is taking it once. The lower case of a character is settled,
which is to say that it is no capital sigma and its own lower case: where the table of runs moves a
character, no run moves it any further, and a capital sigma becomes one of the two small ones. What
stands around a capital sigma does not matter in a settled text, since there is none in it.
-/

namespace FeedForward.Text

/-! ## Runs -/

namespace CaseRun

/-- Whether a run moves a code point. -/
def Holds (r : CaseRun) (code : Nat) : Prop :=
  r.first ≤ code ∧ code ≤ r.last ∧ (code - r.first) % r.stride = 0

/-- Where a run moves a code point. -/
def image (r : CaseRun) (code : Nat) : Nat := ((code : Int) + r.shift).toNat

/-- Whether a run moves code points to characters, and to none that has a rule of its own. -/
def Lands (r : CaseRun) : Prop :=
  0 < r.image r.first ∧ (r.image r.last < 304 ∨ 304 < r.image r.first) ∧
    (r.image r.last < 0xd800 ∨ 0xdfff < r.image r.first ∧ r.image r.last < 0x110000)

instance (r : CaseRun) : Decidable r.Lands := inferInstanceAs (Decidable (_ ∧ _ ∧ _))

/-- Whether another run holds no image of a run: it lies behind them or in front of them, or it
takes every second character and they are all among the others. -/
def apart (r s : CaseRun) : Bool :=
  Nat.blt (r.image r.last) s.first || Nat.blt s.last (r.image r.first) ||
    (Nat.beq r.stride 2 || Nat.beq r.first r.last) && Nat.beq s.stride 2 &&
      Nat.beq ((r.image r.first + s.first) % 2) 1

theorem find?_eq_some {runs : List CaseRun} {code moved : Nat}
    (hfind : find? runs code = some moved) :
    ∃ r ∈ runs, r.Holds code ∧ moved = r.image code := by
  obtain ⟨r, hr, rfl⟩ := Option.map_eq_some_iff.mp hfind
  have hholds := List.find?_some hr
  simp only [Bool.and_eq_true, decide_eq_true_eq, beq_iff_eq, and_assoc] at hholds
  exact ⟨r, List.mem_of_find?_eq_some hr, hholds, rfl⟩

theorem find?_eq_none_iff {runs : List CaseRun} {code : Nat} :
    find? runs code = none ↔ ∀ r ∈ runs, ¬ r.Holds code := by
  rw [find?, Option.map_eq_none_iff, List.find?_eq_none]
  simp only [Bool.and_eq_true, decide_eq_true_eq, beq_iff_eq, Holds, and_assoc]

section

variable {r s : CaseRun} {code : Nat} (hlands : r.Lands) (hholds : r.Holds code)

include hlands hholds

theorem image_ne : r.image code ≠ 304 := by
  simp only [Lands, Holds, image] at *
  omega

theorem isValidChar_image : (r.image code).isValidChar := by
  simp only [Lands, Holds, image, Nat.isValidChar] at *
  omega

theorem not_holds_image (hapart : r.apart s = true) : ¬ s.Holds (r.image code) := by
  simp only [apart, Bool.or_eq_true, Bool.and_eq_true, Nat.blt_eq, Nat.beq_eq] at hapart
  rintro ⟨hfirst, hlast, hstride⟩
  obtain ⟨hstart, -⟩ := hlands
  obtain ⟨hlow, hhigh, hstep⟩ := hholds
  simp only [image] at *
  obtain (hbehind | hfront) | ⟨⟨hsteps, htwo⟩, hturns⟩ := hapart
  · omega
  · omega
  · rw [htwo] at hstride
    obtain hsteps | hsingle := hsteps
    · rw [hsteps] at hstep
      omega
    · omega

end

end CaseRun

open CaseRun (find?_eq_some find?_eq_none_iff)

theorem lands_lowerRuns : ∀ r ∈ lowerRuns, r.Lands := by decide +kernel

theorem apart_lowerRuns : ∀ r ∈ lowerRuns, lowerRuns.all r.apart = true := by decide +kernel

/-! ## Characters -/

/-- A character that is its own lower case and no capital sigma. -/
def Settled (c : Char) : Prop := c.toNat ≠ 931 ∧ lowerChar c = [c]

instance : DecidablePred Settled := fun _ => inferInstanceAs (Decidable (_ ∧ _))

theorem settled_toLower {c : Char} (hc : c.toNat < 128) : Settled c.toLower := by
  have hascii : ∀ n < 128, Settled (Char.ofNat n).toLower := by decide
  have hsettled := hascii c.toNat hc
  rwa [Char.ofNat_toNat] at hsettled

/-- A character that no run moves is settled. -/
theorem settled_of_find?_eq_none {c : Char} (hne : c.toNat ≠ 304)
    (hfind : CaseRun.find? lowerRuns c.toNat = none) : Settled c := by
  constructor
  · intro hsigma
    rw [hsigma] at hfind
    exact absurd hfind (by decide)
  · -- The first run holds the capital letters that have a rule of their own.
    have hupper : ¬ (c.val ≥ 'A'.val ∧ c.val ≤ 'Z'.val) := fun hc =>
      find?_eq_none_iff.mp hfind ⟨65, 90, 1, 32⟩ (.head _) ⟨hc.1, hc.2, Nat.mod_one _⟩
    have hascii : c.toLower = c := dif_neg hupper
    rw [lowerChar, if_neg hne, hfind, hascii]
    exact ite_self [c]

/-- The lower case of a character is settled. -/
theorem settled_of_mem_lowerChar {c d : Char} (hd : d ∈ lowerChar c) : Settled d := by
  unfold lowerChar at hd
  split at hd
  next hc =>
    rw [List.mem_singleton] at hd
    exact hd ▸ settled_toLower hc
  next =>
    split at hd
    next =>
      rw [List.mem_cons, List.mem_singleton] at hd
      obtain rfl | rfl := hd
      · decide
      · decide
    next hne =>
      cases hfind : CaseRun.find? lowerRuns c.toNat with
      | none =>
          rw [hfind, Option.map_none, Option.getD_none, List.mem_singleton] at hd
          exact hd ▸ settled_of_find?_eq_none hne hfind
      | some moved =>
          obtain ⟨r, hr, hholds, rfl⟩ := find?_eq_some hfind
          have hlands := lands_lowerRuns r hr
          have hcode : (Char.ofNat (r.image c.toNat)).toNat = r.image c.toNat := by
            rw [Char.ofNat, dif_pos (CaseRun.isValidChar_image hlands hholds)]
            rfl
          have hstill : CaseRun.find? lowerRuns (r.image c.toNat) = none :=
            find?_eq_none_iff.mpr fun s hs => CaseRun.not_holds_image hlands hholds
              (List.all_eq_true.mp (apart_lowerRuns r hr) s hs)
          rw [hfind, Option.map_some, Option.getD_some, List.mem_singleton] at hd
          rw [hd]
          refine settled_of_find?_eq_none ?_ ?_
          · rw [hcode]
            exact CaseRun.image_ne hlands hholds
          · rw [hcode]
            exact hstill

/-! ## Texts -/

theorem settled_of_mem_lowerFrom {d : Char} {afterCased : Bool} {s : List Char}
    (hd : d ∈ lowerFrom afterCased s) : Settled d := by
  induction s generalizing afterCased with
  | nil => cases hd
  | cons c rest ih =>
      rw [lowerFrom] at hd
      split at hd
      next =>
        obtain rfl | hrest := List.mem_cons.mp hd
        · split <;> decide
        · exact ih hrest
      next =>
        obtain hfirst | hrest := List.mem_append.mp hd
        · exact settled_of_mem_lowerChar hfirst
        · exact ih hrest

theorem lowerFrom_of_settled {s : List Char} (hs : ∀ c ∈ s, Settled c) (afterCased : Bool) :
    lowerFrom afterCased s = s := by
  induction s generalizing afterCased with
  | nil => rfl
  | cons c rest ih =>
      obtain ⟨⟨hne, hlower⟩, hrest⟩ := List.forall_mem_cons.mp hs
      rw [lowerFrom, if_neg hne, hlower, ih hrest]
      rfl

/-- Taking the lower case of a text twice is taking it once. -/
theorem lower_lower (s : String) : lower (lower s) = lower s := by
  rw [lower, lower, String.toList_ofList]
  exact congrArg String.ofList
    (lowerFrom_of_settled (fun _ hc => settled_of_mem_lowerFrom hc) false)

/-- A word that ends in a capital sigma, and a capital that no run but a rule of its own moves. -/
example : lower "ΟΔΟΣ İ" = "οδος i̇" ∧ lower "οδος i̇" = "οδος i̇" := by decide +kernel

end FeedForward.Text
