import FeedForward.Numeric.Scalar
import FeedForward.Numeric.Summation
import FeedForward.Registry
import FeedForward.Tensor

/-!
# Costs

A cost compares a target with an actual value and comes with its derivative with
respect to the actual value. The cross entropies keep their logarithms finite by
clipping. The derivative of the categorical cross entropy is the one with respect to
the input of a softmax layer, whose own derivative is left out when deltas are seeded.
-/

namespace FeedForward

/-- A named elementwise cost with its derivative with respect to the actual value. -/
structure Cost (α : Type) where
  name : String
  apply : α → α → α
  derivative : α → α → α

namespace Cost

variable {α : Type} [Scalar α]

/-- The least value that a logarithm or a quotient sees. -/
def margin : α := 1e-6

/-- A value moved into `[margin, 1 - margin]`. -/
def clip (x : α) : α := Scalar.minimum (Scalar.maximum x margin) (1 - margin)

def squaredError : Cost α where
  name := "squared_error"
  apply target actual := 0.5 * (target - actual) * (target - actual)
  derivative target actual := actual - target

def crossEntropy : Cost α where
  name := "cross_entropy"
  apply target actual :=
    -clip target * Scalar.log (clip actual) - (1 - clip target) * Scalar.log (1 - clip actual)
  derivative target actual :=
    -clip target / clip actual + (1 - clip target) / (1 - clip actual)

def categoricalCrossEntropy : Cost α where
  name := "categorical_cross_entropy"
  apply target actual := -target * Scalar.log (clip actual)
  derivative target actual := actual - target

/-- The built-in costs. -/
def registry : Registry (Cost α) where
  role := .cost
  fold := id
  entries := [("squared_error", squaredError), ("cross_entropy", crossEntropy),
    ("categorical_cross_entropy", categoricalCrossEntropy)]

/-- Registers a cost under a name, which the entry carries. -/
def register (r : Registry (Cost α)) (name : String) (apply derivative : α → α → α) :
    Registry (Cost α) :=
  r.register name ⟨name, apply, derivative⟩

/-- The cost summed over all pairs of a target and an actual value. -/
def total (c : Cost α) (targets actuals : Tensor α) : Except Fault α :=
  (Tensor.zipWith c.apply targets actuals).map fun costs => blockedSum costs.toList

end Cost

end FeedForward
