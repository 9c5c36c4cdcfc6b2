import FeedForward.Fault

/-!
# Checks

A check either passes with a result or names the fault that it found. These laws say when a
chain of checks passes, which is when all its parts do, which faults it can find, and which one it
does find when several checks in a row would.
-/

namespace FeedForward.Check

variable {γ δ : Type}

theorem bind_eq_ok_iff {check : Except Fault γ} {next : γ → Except Fault δ} {y : δ} :
    (check >>= next) = .ok y ↔ ∃ x, check = .ok x ∧ next x = .ok y := by
  cases check with
  | error fault =>
      constructor
      · intro hrun; cases hrun
      · rintro ⟨x, hx, _⟩; cases hx
  | ok x =>
      constructor
      · exact fun hrun => ⟨x, rfl, hrun⟩
      · rintro ⟨_, hx, hnext⟩; cases hx; exact hnext

theorem bind_eq_error_iff {check : Except Fault γ} {next : γ → Except Fault δ} {fault : Fault} :
    (check >>= next) = .error fault ↔
      check = .error fault ∨ ∃ x, check = .ok x ∧ next x = .error fault := by
  cases check with
  | error cause =>
      constructor
      · intro hrun; cases hrun; exact .inl rfl
      · rintro (hcause | ⟨x, hx, _⟩)
        · cases hcause; rfl
        · cases hx
  | ok x =>
      constructor
      · exact fun hrun => .inr ⟨x, rfl, hrun⟩
      · rintro (hx | ⟨_, hx, hnext⟩)
        · cases hx
        · cases hx; exact hnext

theorem pure_eq_ok_iff {x y : γ} : (pure x : Except Fault γ) = .ok y ↔ x = y :=
  ⟨fun h => by cases h; rfl, fun h => by rw [h]; rfl⟩

theorem ok_bind (x : γ) (next : γ → Except Fault δ) :
    ((.ok x : Except Fault γ) >>= next) = next x := rfl

theorem throw_bind (fault : Fault) (next : γ → Except Fault δ) :
    ((throw fault : Except Fault γ) >>= next) = .error fault := rfl

/-- A guard in front of a check lets it pass only where the guard's condition fails. -/
theorem ite_error_eq_ok_iff {c : Prop} [Decidable c] {fault : Fault} {check : Except Fault γ}
    {y : γ} : (if c then .error fault else check) = .ok y ↔ ¬ c ∧ check = .ok y := by
  by_cases hc : c <;> simp [hc]

/-- Checks of all items pass when each of them does. -/
theorem mapM_eq_ok_iff {check : γ → Except Fault δ} {xs : List γ} {ys : List δ} :
    xs.mapM check = .ok ys ↔ xs.map check = ys.map .ok := by
  induction xs generalizing ys with
  | nil => cases ys <;> simp [pure_eq_ok_iff]
  | cons x xs ih =>
      simp only [List.mapM_cons, bind_eq_ok_iff, pure_eq_ok_iff, ih]
      constructor
      · rintro ⟨y, hy, rest, hrest, rfl⟩
        simp [hy, hrest]
      · intro hmap
        cases ys with
        | nil => simp at hmap
        | cons y ys =>
            simp only [List.map_cons, List.cons.injEq] at hmap
            exact ⟨y, hmap.1, ys, hmap.2, rfl⟩

/-- Checks of all items fail at the first item whose check does. -/
theorem mapM_eq_error_iff {check : γ → Except Fault δ} {xs : List γ} {fault : Fault} :
    xs.mapM check = .error fault ↔ ∃ passed x rest ys, xs = passed ++ x :: rest ∧
      passed.mapM check = .ok ys ∧ check x = .error fault := by
  induction xs with
  | nil => simp [pure, Except.pure]
  | cons first xs ih =>
      rw [List.mapM_cons, bind_eq_error_iff]
      constructor
      · rintro (hfirst | ⟨y, hfirst, hrest⟩)
        · exact ⟨[], first, xs, [], rfl, rfl, hfirst⟩
        · obtain hrest | ⟨_, _, hpure⟩ := bind_eq_error_iff.mp hrest
          · obtain ⟨passed, x, rest, ys, rfl, hpassed, hx⟩ := ih.mp hrest
            refine ⟨first :: passed, x, rest, y :: ys, rfl, ?_, hx⟩
            rw [List.mapM_cons, hfirst, hpassed]
            rfl
          · cases hpure
      · rintro ⟨passed, x, rest, ys, hxs, hpassed, hx⟩
        cases passed with
        | nil =>
            obtain ⟨rfl, rfl⟩ := List.cons.inj hxs
            exact .inl hx
        | cons other passed =>
            obtain ⟨rfl, rfl⟩ := List.cons.inj hxs
            rw [List.mapM_cons] at hpassed
            obtain ⟨y, hfirst, hpassed⟩ := bind_eq_ok_iff.mp hpassed
            obtain ⟨ys, hpassed, -⟩ := bind_eq_ok_iff.mp hpassed
            have hrest := ih.mpr ⟨passed, x, rest, ys, rfl, hpassed, hx⟩
            exact .inr ⟨y, hfirst, bind_eq_error_iff.mpr (.inl hrest)⟩

/-! ## Faults that are found -/

/-- All faults that a check can find are of some kind. -/
def Finds (kind : Fault → Prop) (check : Except Fault γ) : Prop :=
  ∀ fault, check = .error fault → kind fault

namespace Finds

variable {kind : Fault → Prop} {check : Except Fault γ}

theorem ok (x : γ) : Finds kind (.ok x) := by
  intro fault hfault
  cases hfault

theorem error {fault : Fault} (hkind : kind fault) :
    Finds kind (.error fault : Except Fault γ) := by
  intro other hother
  cases hother
  exact hkind

theorem mono {other : Fault → Prop} (hcheck : Finds kind check)
    (hkinds : ∀ fault, kind fault → other fault) : Finds other check :=
  fun fault hfault => hkinds fault (hcheck fault hfault)

theorem guard {c : Prop} [Decidable c] {fault : Fault} (hkind : kind fault)
    (hcheck : Finds kind check) : Finds kind (if c then .error fault else check) := by
  split
  · exact error hkind
  · exact hcheck

theorem bind {next : γ → Except Fault δ} (hcheck : Finds kind check)
    (hnext : ∀ x, Finds kind (next x)) : Finds kind (check >>= next) := by
  intro fault hfault
  cases check with
  | error cause => cases hfault; exact hcheck fault rfl
  | ok x => exact hnext x fault hfault

theorem mapM {item : γ → Except Fault δ} (hitem : ∀ x, Finds kind (item x)) (xs : List γ) :
    Finds kind (xs.mapM item) := by
  induction xs with
  | nil => exact ok []
  | cons x xs ih =>
      rw [List.mapM_cons]
      exact (hitem x).bind fun _ => ih.bind fun _ => ok _

end Finds

/-! ## Checks in a row -/

/-- A check heeds a row of reasons to fail if it fails for the first one that is given, whatever is
said behind it, and passes if none is. -/
def Heeds (reasons : List (Option Fault)) (check : Except Fault γ) : Prop :=
  match reasons.findSome? id with
  | some fault => check = .error fault
  | none => ∃ x, check = .ok x

namespace Heeds

variable {reasons : List (Option Fault)} {check : Except Fault γ}

theorem pass (x : γ) : Heeds [] (.ok x) := ⟨x, rfl⟩

theorem stop (fault : Fault) (reasons : List (Option Fault)) :
    Heeds (some fault :: reasons) (.error fault : Except Fault γ) := rfl

theorem skip (hcheck : Heeds reasons check) : Heeds (none :: reasons) check := hcheck

theorem bind {reason : Option Fault} {next : γ → Except Fault δ} (hcheck : Heeds [reason] check)
    (hnext : ∀ x, check = .ok x → Heeds reasons (next x)) :
    Heeds (reason :: reasons) (check >>= next) := by
  cases reason with
  | some fault =>
      rw [show check = .error fault from hcheck]
      exact stop fault reasons
  | none =>
      obtain ⟨x, hx⟩ := hcheck
      rw [hx]
      exact skip (hnext x hx)

/-- What is made of the result of a check gives no further reasons. -/
theorem andThen (hcheck : Heeds reasons check) (make : γ → δ) :
    Heeds reasons (check >>= fun x => .ok (make x)) := by
  rw [Heeds] at hcheck ⊢
  split at hcheck
  · rw [hcheck]
    rfl
  · obtain ⟨x, hx⟩ := hcheck
    exact ⟨make x, by rw [hx]; rfl⟩

theorem guard {c : Prop} [Decidable c] (fault : Fault) (hcheck : Heeds reasons check) :
    Heeds ((if c then some fault else none) :: reasons)
      (if c then .error fault else check) := by
  by_cases hc : c
  · rw [if_pos hc, if_pos hc]
    exact stop fault reasons
  · rw [if_neg hc, if_neg hc]
    exact skip hcheck

/-- The first reason that is given decides, and no other can be found. -/
theorem error_iff (hheeds : Heeds reasons check) {fault : Fault} :
    check = .error fault ↔ reasons.findSome? id = some fault := by
  rw [Heeds] at hheeds
  cases hfirst : reasons.findSome? id with
  | some cause => rw [hfirst] at hheeds; simp [hheeds]
  | none =>
      rw [hfirst] at hheeds
      obtain ⟨x, hx⟩ := hheeds
      simp [hx]

end Heeds

end FeedForward.Check
