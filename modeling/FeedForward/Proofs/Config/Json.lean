import FeedForward.Config.Json
import FeedForward.Proofs.Decimal.Written
import Mathlib.Tactic.SplitIfs

/-!
# JSON texts are lines

A value is written as JSON on one line: strings escape their line feeds, and nothing else that is
written has any. So records that are written behind each other, each on a line of its own, can be
told apart again.
-/

namespace FeedForward.Json

/-- A text without line feeds. -/
def OneLine (s : String) : Prop := '\n' ∉ s.toList

instance (s : String) : Decidable (OneLine s) := inferInstanceAs (Decidable ('\n' ∉ s.toList))

namespace OneLine

variable {s t : String}

theorem append (hs : OneLine s) (ht : OneLine t) : OneLine (s ++ t) := by
  rw [OneLine, String.toList_append, List.mem_append]
  exact not_or_intro hs ht

theorem of_plain (hs : Decimal.Plain s) : OneLine s := fun hline => absurd (hs _ hline) (by decide)

theorem ite {p : Prop} [Decidable p] (hs : OneLine s) (ht : OneLine t) :
    OneLine (if p then s else t) := by
  split
  · exact hs
  · exact ht

theorem intercalate {lines : List String} (hlines : ∀ line ∈ lines, OneLine line) :
    OneLine (", ".intercalate lines) := by
  induction lines with
  | nil => exact (by decide : OneLine "")
  | cons line rest ih =>
      obtain ⟨hline, hrest⟩ := List.forall_mem_cons.mp hlines
      cases rest with
      | nil => simpa using hline
      | cons other rest =>
          rw [String.intercalate_cons_cons]
          exact append (append hline (by decide)) (ih hrest)

theorem hexDigits (width n : Nat) : '\n' ∉ Text.hexDigits width n := by
  have hdigit : ∀ d < 16, '\n' ≠ Nat.digitChar d := by decide
  induction width generalizing n with
  | zero => exact List.not_mem_nil
  | succ width ih =>
      rw [Text.hexDigits, List.mem_append, List.mem_singleton]
      exact not_or_intro (ih _) (hdigit _ (Nat.mod_lt n (by decide)))

theorem escapedUnit (unit : Nat) : '\n' ∉ '\\' :: 'u' :: Text.hexDigits 4 unit := by
  rw [List.mem_cons, List.mem_cons]
  exact not_or_intro (by decide) (not_or_intro (by decide) (hexDigits 4 unit))

theorem escapeChar (c : Char) : '\n' ∉ escapeChar c := by
  by_cases hline : c = '\n'
  · rw [hline]
    decide
  · have hself : '\n' ∉ [c] := mt List.mem_singleton.mp (Ne.symm hline)
    have hunits : '\n' ∉ (Text.units c).flatMap
        fun unit => '\\' :: 'u' :: Text.hexDigits 4 unit := by
      rw [List.mem_flatMap]
      rintro ⟨unit, -, hunit⟩
      exact escapedUnit unit hunit
    simp only [Json.escapeChar, if_neg hline]
    split_ifs
    · exact List.not_mem_cons_of_ne_of_not_mem (by decide) hself
    · decide
    · decide
    · decide
    · decide
    · exact hself
    · exact hunits

theorem quote (s : String) : OneLine (quote s) := by
  have hinside : '\n' ∉ s.toList.flatMap Json.escapeChar := by
    rw [List.mem_flatMap]
    rintro ⟨c, -, hc⟩
    exact escapeChar c hc
  rw [Json.quote, OneLine, String.toList_ofList]
  simp [hinside]

theorem writeAtom (a : Atom) : OneLine (writeAtom a) := by
  cases a with
  | null => exact (by decide : OneLine "null")
  | bool b => cases b <;> decide
  | integer n => exact of_plain (.int n)
  | number x =>
      exact ite (by decide) (ite (of_plain (.message x)) (ite (by decide) (by decide)))
  | moment m => exact quote _
  | text s => exact quote s

theorem writeKey (a : Atom) : OneLine (writeKey a) := by
  cases a <;> exact quote _

mutual

/-- A whole value. -/
theorem write : ∀ value : Value, OneLine (write value)
  | .atom a => writeAtom a
  | .list items => append (append (by decide) (intercalate (writeItems items))) (by decide)
  | .mapping entries => append (append (by decide) (intercalate (writeEntries entries))) (by decide)

/-- The items of a list. -/
theorem writeItems : ∀ (items : List Value), ∀ line ∈ writeItems items, OneLine line
  | [] => fun _ hline => absurd hline List.not_mem_nil
  | item :: rest => List.forall_mem_cons.mpr ⟨write item, writeItems rest⟩

/-- The entries of a mapping. -/
theorem writeEntries : ∀ (entries : List (Atom × Value)),
    ∀ line ∈ writeEntries entries, OneLine line
  | [] => fun _ hline => absurd hline List.not_mem_nil
  | (key, value) :: rest => List.forall_mem_cons.mpr
    ⟨append (append (writeKey key) (by decide)) (write value), writeEntries rest⟩

end

end OneLine

end FeedForward.Json
