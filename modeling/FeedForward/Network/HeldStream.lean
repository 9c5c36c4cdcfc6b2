import FeedForward.Network

/-!
# Held streams

A stream that is held keeps the matrices of the time at which it was asked for. Each
reading runs through it afresh and sees the outputs or deltas that the units have then.
Layers and rows are given by position, a negative one counting from the end. A row that
is not there shows only on reading, and the output layer is known only by its position
from the front.
-/

namespace FeedForward

/-- A stream that can be read again and again, given the units of its layer. -/
structure HeldStream (α : Type) where
  layer : Nat
  length : Nat
  read : List (Neuron α) → SynapseStream α

namespace Network

variable {α β : Type} [Scalar α] [Precision α β]

/-- One number of a matrix, by positions. -/
def entryAt (t : Tensor β) (row column : Int) : Except Fault β := do
  t.entry (← position (← t.rows) row) (← position (← t.columns) column)

/-- Holds the stream into the unit of a weight row behind a layer. -/
def holdIncoming (layer row : Int) : Step (Network α β) (HeldStream α) := do
  let net ← get
  let weights ← itemAt net.weights (← position net.weights.length layer)
  let arena ← neurons
  let layer ← position arena.length layer
  let columns ← weights.columns
  return {
    layer, length := columns
    read units := .deliver (fun i => do
      let unit ← itemAt units i
      let weight ← entryAt weights row i
      return ⟨i, unit.output, Precision.widen weight, 0⟩) (List.range columns) }

/-- Holds the stream back to the unit of a weight column in a layer. -/
def holdReturning (layer row : Int) : Step (Network α β) (HeldStream α) := do
  let net ← get
  let weights ← itemAt net.weights (← position net.weights.length layer)
  let previous ← itemAt net.previous (← position net.previous.length layer)
  let arena ← neurons
  let next ← position arena.length (layer + 1)
  let rows ← weights.rows
  let bias := if net.outputLayer.map Int.ofNat = some (layer + 1) then 0 else 1
  return {
    layer := next, length := rows
    read units := .deliver (fun i => do
      let unit ← itemAt (units.drop bias) i
      let weight ← entryAt weights i row
      let update ← entryAt previous i row
      return ⟨i, unit.delta, Precision.widen weight, Precision.widen update⟩)
        (List.range rows) }

end Network

end FeedForward
