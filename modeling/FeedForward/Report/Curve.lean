import FeedForward.Report.Metrics

/-!
# Loss curves

A curve collects the loss of every epoch, if it is wanted at all. Metrics without a loss
count as a loss of zero. What epochs are called does not matter.
-/

namespace FeedForward

/-- The losses of the epochs so far, the last epoch first. -/
structure Curve (ε : Type) where
  wanted : Bool
  points : List (ε × Double)

namespace Curve

variable {ε : Type}

/-- A curve without points. -/
def empty (wanted : Bool) : Curve ε := ⟨wanted, []⟩

/-- The points in order. -/
def toList (curve : Curve ε) : List (ε × Double) := curve.points.reverse

/-- The loss among some metrics; without one it is zero. -/
def lossIn (metrics : Metrics) : Except Fault Double :=
  match metrics.lookup "loss" with
  | some value => value.toNumber
  | none => .ok 0

/-- Adds the loss of an epoch. -/
def add (epoch : ε) (metrics : Metrics) : Step (Curve ε) Unit := do
  let curve ← get
  if curve.wanted then
    let loss ← lossIn metrics
    set { curve with points := (epoch, loss) :: curve.points }

end Curve

end FeedForward
