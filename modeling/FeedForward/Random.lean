import FeedForward.Fault
import FeedForward.Numeric.Scalar

/-!
# The random source

A linear congruential generator on sixty-four bits gives its upper half as random
bits. Every kind of draw takes a fixed number of steps of it, so the state after a
run is determined by how many draws of which kind were made.
-/

namespace FeedForward

/-- The state of the random source. -/
structure Generator where
  state : UInt64
  deriving DecidableEq, Repr

namespace Generator

variable {α β γ : Type}

/-- The source for a seed; no seed is the seed zero, and negative seeds are refused. -/
def ofSeed : Option Int → Except Fault Generator
  | none => .ok ⟨0⟩
  | some seed => if seed < 0 then .error .negativeSeed else .ok ⟨UInt64.ofNat seed.toNat⟩

/-- The state one step later. -/
def step (g : Generator) : Generator := ⟨g.state * 6364136223846793005 + 1442695040888963407⟩

/-- Thirty-two random bits. -/
def bits (g : Generator) : UInt32 × Generator := ((g.step.state >>> 32).toUInt32, g.step)

/-- Several draws of one kind, the first draw first. -/
def collect (draw : Generator → γ × Generator) : Nat → Generator → List γ × Generator
  | 0, g => ([], g)
  | n + 1, g =>
    let (x, g) := draw g
    let (xs, g) := collect draw n g
    (x :: xs, g)

section

variable [Scalar α]

/-- A fraction of one. -/
def fraction (g : Generator) : α × Generator := (Scalar.fraction g.bits.1, g.step)

/-- Whether an event of a given probability happens. -/
def happens (probability : α) (g : Generator) : Bool × Generator :=
  (Scalar.lt (Scalar.fraction g.bits.1) probability, g.step)

/-- A number between two bounds. -/
def between (low high : α) (g : Generator) : α × Generator :=
  (low + (high - low) * Scalar.fraction g.bits.1, g.step)

/-- A number around zero: twelve fractions added up, less six. -/
def bell (g : Generator) : α × Generator :=
  let (xs, g) := collect (fraction (α := α)) 12 g
  (sumOfFractions xs - 6.0, g)
where
  /-- The fractions added to zero from left to right. -/
  sumOfFractions (xs : List α) : α := xs.foldl (· + ·) 0

end

/-- An initial weight. -/
def weight (α : Type) [Precision α β] (g : Generator) : β × Generator :=
  (Precision.centred α g.bits.1, g.step)

/-- Swaps the item at each place, from the last down to the second, with one drawn from
the places up to it. -/
def shuffleDown : Nat → Array Nat → Generator → Array Nat × Generator
  | 0, items, g => (items, g)
  | place + 1, items, g =>
    let (random, g) := g.bits
    shuffleDown place (items.swapIfInBounds (place + 1) (random.toNat % (place + 2))) g

/-- The numbers below `n` in random order. -/
def permutation (n : Nat) (g : Generator) : List Nat × Generator :=
  let (items, g) := shuffleDown (n - 1) (Array.range n) g
  (items.toList, g)

@[simp] theorem length_collect (draw : Generator → γ × Generator) (n : Nat) (g : Generator) :
    (collect draw n g).1.length = n := by
  induction n generalizing g with
  | zero => rfl
  | succ n ih => simp [collect, ih]

end Generator

end FeedForward
