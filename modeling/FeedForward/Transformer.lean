import FeedForward.Numeric.Scalar
import FeedForward.Numeric.Summation
import FeedForward.Registry
import FeedForward.Tensor

/-!
# Feature transformers

A transformer changes an instance's features before they reach the input layer. The
normaliser divides by the Euclidean length, and by a small constant where the length
is smaller still. The length is not rescaled, so it can overflow and underflow.
-/

namespace FeedForward

/-- A named change of features. -/
structure Transformer (α : Type) where
  name : String
  apply : Tensor α → Tensor α

namespace Transformer

variable {α : Type} [Scalar α]

/-- The Euclidean length of some numbers. -/
def euclideanLength (xs : List α) : α := Scalar.sqrt (sumOnto 0 (xs.map fun x => x * x))

def identity : Transformer α := ⟨"identity", fun t => t⟩

def l2Normalize : Transformer α where
  name := "l2_normalize"
  apply t :=
    let length := Scalar.firstGreatest (euclideanLength t.toList) 1e-12
    t.map (· / length)

/-- The built-in transformers. -/
def registry : Registry (Transformer α) where
  role := .transformer
  fold := id
  entries := [("identity", identity), ("l2_normalize", l2Normalize)]

end Transformer

end FeedForward
