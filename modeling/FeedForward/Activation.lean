import FeedForward.Numeric.Scalar
import FeedForward.Numeric.Summation
import FeedForward.Registry
import FeedForward.Tensor
import FeedForward.Text.Case

/-!
# Activations

An activation is a function of a neuron's weighted input together with its derivative,
and the derivative is a function of the activation's *output*, the only value a neuron
keeps. Names are compared in lower case. Softmax normalises a whole layer; its part
for one neuron is the identity.
-/

namespace FeedForward

/-- A named function with its derivative in terms of the output. -/
structure Activation (α : Type) where
  name : String
  apply : α → α
  derivative : α → α

namespace Activation

variable {α : Type}

/-- Whether the layer is normalised as a whole. -/
def isSoftmax (f : Activation α) : Bool := f.name == "softmax"

variable [Scalar α]

def identity : Activation α := ⟨"identity", fun x => x, fun _ => 1⟩

def sigmoid : Activation α := ⟨"sigmoid", fun x => 1 / (1 + Scalar.exp (-x)), fun y => y * (1 - y)⟩

def hyperbolicTangent : Activation α := ⟨"tanh", Scalar.tanh, fun y => 1 - y * y⟩

/-- The positive part; its derivative is one exactly where the output is positive. -/
def relu : Activation α :=
  ⟨"relu", fun x => Scalar.maximum x 0, fun y => if Scalar.lt 0 y then 1 else 0⟩

def softmaxPart : Activation α := ⟨"softmax", fun x => x, fun y => y * (1 - y)⟩

/-- The built-in activations; two of them have a second name. -/
def registry : Registry (Activation α) where
  role := .activation
  fold := Text.lower
  entries := [("identity", identity), ("sigmoid", sigmoid), ("tanh", hyperbolicTangent),
    ("relu", relu), ("softmax", softmaxPart), ("linear", identity), ("logistic", sigmoid)]

/-- Registers a function under a name; the entry carries the name in lower case. -/
def register (r : Registry (Activation α)) (name : String) (apply derivative : α → α) :
    Registry (Activation α) :=
  r.register name ⟨r.fold name, apply, derivative⟩

end Activation

/-- The greatest of some numbers, where a value that is no number wins. -/
def greatest? {α : Type} [Scalar α] : List α → Option α
  | [] => none
  | x :: xs => some (xs.foldl Scalar.maximum x)

/-- Numbers shifted by their greatest, exponentiated and divided by their sum. -/
def softmax {α : Type} [Scalar α] (zs : List α) : Except Fault (List α) :=
  match greatest? zs with
  | none => .error .emptyMaximum
  | some top =>
    let powers := zs.map fun z => Scalar.exp (z - top)
    let total := blockedSum powers
    .ok (powers.map (· / total))

/-- The joint normalisation of all numbers of a tensor. -/
def Tensor.softmax {α : Type} [Scalar α] (t : Tensor α) : Except Fault (Tensor α) :=
  match FeedForward.softmax t.toList with
  | .error fault => .error fault
  | .ok shares => ((Tensor.ofData? t.shape shares).map .ok).getD (.error .shapesDiffer)

end FeedForward
