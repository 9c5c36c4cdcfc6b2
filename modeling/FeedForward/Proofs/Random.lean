import FeedForward.Random

/-!
# Draws in a row

Every draw of a row sees the source as the draws before it have left it, so what is collected is
told draw by draw, and a row of rows is one long row. Most kinds of draws take the source one step
on. Nothing is said of how the draws are spread.
-/

namespace FeedForward

namespace Generator

variable {γ : Type}

/-- The state so many draws later. -/
def skip : Nat → Generator → Generator
  | 0, g => g
  | count + 1, g => skip count g.step

theorem skip_zero (g : Generator) : g.skip 0 = g := by
  delta skip
  rfl

theorem skip_succ (count : Nat) (g : Generator) : g.skip (count + 1) = g.step.skip count := by
  delta skip
  rfl

theorem skip_add (count more : Nat) (g : Generator) :
    g.skip (count + more) = (g.skip count).skip more := by
  induction count generalizing g with
  | zero => rw [Nat.zero_add, skip_zero]
  | succ count ih => rw [Nat.succ_add, skip_succ, skip_succ, ih]

theorem collect_succ (draw : Generator → γ × Generator) (count : Nat) (g : Generator) :
    collect draw (count + 1) g =
      ((draw g).1 :: (collect draw count (draw g).2).1, (collect draw count (draw g).2).2) := by
  delta collect
  rfl

/-- Draws that take one step each see the states one after the other. -/
theorem collect_eq {draw : Generator → γ × Generator} {view : Generator → γ}
    (hdraw : ∀ g, draw g = (view g, g.step)) (count : Nat) (g : Generator) :
    collect draw count g = ((List.range count).map fun k => view (g.skip k), g.skip count) := by
  induction count generalizing g with
  | zero =>
      rw [skip_zero]
      rfl
  | succ count ih =>
      rw [collect_succ, hdraw, ih, List.range_succ_eq_map, List.map_cons, List.map_map, skip_succ,
        skip_zero]
      simp only [Function.comp_def, Nat.succ_eq_add_one, skip_succ]

/-! ## Draws of any kind -/

/-- The source after some draws of one kind. -/
def after (draw : Generator → γ × Generator) : Nat → Generator → Generator
  | 0, g => g
  | count + 1, g => after draw count (draw g).2

/-- A draw of one kind, counted from zero. -/
def drawn (draw : Generator → γ × Generator) (k : Nat) (g : Generator) : γ :=
  (draw (after draw k g)).1

section

variable (draw : Generator → γ × Generator)

theorem after_add (count more : Nat) (g : Generator) :
    after draw (count + more) g = after draw more (after draw count g) := by
  induction count generalizing g with
  | zero => rw [Nat.zero_add, after]
  | succ count ih => rw [Nat.succ_add, after, ih, after]

theorem drawn_add (count k : Nat) (g : Generator) :
    drawn draw (count + k) g = drawn draw k (after draw count g) := by
  rw [drawn, after_add, drawn]

theorem collect_eq_drawn (count : Nat) (g : Generator) :
    collect draw count g =
      ((List.range count).map fun k => drawn draw k g, after draw count g) := by
  induction count generalizing g with
  | zero => rfl
  | succ count ih =>
      rw [collect_succ, ih, List.range_succ_eq_map, List.map_cons, List.map_map]
      rfl

/-- Rows that are drawn one after the other are one long row. -/
theorem collect_collect (rows columns : Nat) (g : Generator) :
    collect (collect draw columns) rows g =
      ((List.range rows).map fun row => (List.range columns).map fun column =>
        drawn draw (row * columns + column) g, after draw (rows * columns) g) := by
  induction rows generalizing g with
  | zero => rw [Nat.zero_mul]; rfl
  | succ rows ih =>
      have hshift (row column : Nat) : drawn draw ((row + 1) * columns + column) g =
          drawn draw (row * columns + column) (after draw columns g) := by
        rw [Nat.succ_mul, Nat.add_right_comm, Nat.add_comm, drawn_add]
      rw [collect_succ, collect_eq_drawn, ih, List.range_succ_eq_map, List.map_cons, List.map_map,
        Nat.succ_mul, Nat.add_comm, after_add]
      simp only [Function.comp_def, Nat.succ_eq_add_one, hshift, Nat.zero_mul, Nat.zero_add]

end

end Generator

end FeedForward
