import FeedForward.Decimal.Written

/-!
# Written numbers are plain

Whole numbers and doubles are written with letters, digits, points and signs alone. So a written
number stays on its line, and it needs no quotes in a table.
-/

namespace FeedForward.Decimal

/-- A letter, a digit, a point or a sign. -/
def isPlain (c : Char) : Bool := c.isAlphanum || c == '.' || c == '-' || c == '+'

/-- A text of letters, digits, points and signs. -/
def Plain (s : String) : Prop := ∀ c ∈ s.toList, isPlain c = true

-- The characters of the text are gone through, not all that there are.
instance (s : String) : Decidable (Plain s) :=
  List.decidableBAll (fun c => isPlain c = true) s.toList

theorem isPlain_of_isDigit {c : Char} (hdigit : c.isDigit = true) : isPlain c = true := by
  simp [isPlain, Char.isAlphanum, hdigit]

theorem isPlain_toDigits {n : Nat} {c : Char} (hc : c ∈ Nat.toDigits 10 n) : isPlain c = true :=
  isPlain_of_isDigit (Nat.isDigit_of_mem_toDigits (by decide) (by decide) hc)

namespace Plain

variable {s t : String}

theorem append (hs : Plain s) (ht : Plain t) : Plain (s ++ t) := by
  intro c hc
  rw [String.toList_append, List.mem_append] at hc
  exact hc.elim (hs c) (ht c)

theorem ofList {cs : List Char} (hcs : ∀ c ∈ cs, isPlain c = true) : Plain (String.ofList cs) := by
  rwa [Plain, String.toList_ofList]

theorem ite {p : Prop} [Decidable p] (hs : Plain s) (ht : Plain t) :
    Plain (if p then s else t) := by
  split
  · exact hs
  · exact ht

theorem nat (n : Nat) : Plain (toString n) := by
  rw [Nat.toString_eq_repr, Nat.repr]
  exact ofList fun c hc => isPlain_toDigits hc

theorem int (n : Int) : Plain (toString n) := by
  cases n with
  | ofNat n => exact nat n
  | negSucc n => exact append (s := "-") (by decide) (nat (n + 1))

theorem signed (negative : Bool) (hs : Plain s) : Plain (Decimal.signed negative s) :=
  ite (append (by decide) hs) hs

theorem trimmed {c : Char} {digits : Nat} (hc : c ∈ Decimal.trimmed digits) : isPlain c = true := by
  rw [Decimal.trimmed] at hc
  split at hc
  next => rw [List.mem_singleton.mp hc]; rfl
  next ds _ =>
    rw [List.mem_reverse] at hc
    exact isPlain_toDigits (List.mem_reverse.mp (List.dropWhile_subset _ hc))

theorem exponentText (power : Int) : Plain (Decimal.exponentText power) :=
  append (append (by decide) (ite (by decide) (by decide)))
    (ite (append (by decide) (nat _)) (nat _))

section

variable {ds : List Char} (hds : ∀ c ∈ ds, isPlain c = true)

include hds

theorem pointed : Plain (Decimal.pointed ds) := by
  cases ds with
  | nil => exact fun c hc => by cases hc
  | cons d rest =>
      cases rest with
      | nil => exact ofList hds
      | cons other rest =>
          obtain ⟨hd, hrest⟩ := List.forall_mem_cons.mp hds
          exact ofList (List.forall_mem_cons.mpr ⟨hd, List.forall_mem_cons.mpr ⟨rfl, hrest⟩⟩)

/-- Digits at their place, behind or in front of zeros. -/
theorem place (layout : Layout) (power : Int) : Plain (layout.place ds power) := by
  have hzeros : ∀ count, ∀ c ∈ List.replicate count '0', isPlain c = true := by
    intro count c hc
    rw [List.eq_of_mem_replicate hc]
    rfl
  rw [Layout.place]
  refine ite (append (pointed hds) (exponentText power)) (ite (append (by decide) (ofList ?_)) ?_)
  · exact List.forall_mem_append.mpr ⟨hzeros _, hds⟩
  · refine ite (append (ofList ?_) (ite (by decide) (by decide))) (ofList ?_)
    · exact List.forall_mem_append.mpr ⟨hds, hzeros _⟩
    · exact List.forall_mem_append.mpr ⟨fun c hc => hds c (List.mem_of_mem_take hc),
        List.forall_mem_cons.mpr ⟨rfl, fun c hc => hds c (List.mem_of_mem_drop hc)⟩⟩

end

theorem message (x : Double) : Plain (Decimal.message x) := by
  rw [Decimal.message]
  split
  · decide
  · exact signed _ (by decide)
  · exact signed _ (by decide)
  · exact signed _ (place (fun _ hc => trimmed hc) _ _)

end Plain

end FeedForward.Decimal
