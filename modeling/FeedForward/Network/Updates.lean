import FeedForward.Network.Outputs
import FeedForward.Network.Weights

/-!
# Deltas and updates

After a forward run the deltas and the updates of all boundaries are computed from the
output layer back. The delta of an output unit is the derivative of the cost with its
share of the regularisation, which is the weight times the sum of the unit's weight row;
behind softmax the derivative of the activation is left out, since the cost's derivative
already contains it. Every other unit sees the layer behind it only through its stream,
and its pushed values make one column of the update matrix.

The updates are kept as the last ones, for the momentum of the next run.
-/

namespace FeedForward

namespace Network

variable {α β : Type} [Scalar α] [Add β] [Zero β] [Precision α β]

/-- Seeds the delta of the output unit at a position. -/
def seedDelta (net : Network α β) (activation : Activation α) (weights : Tensor β)
    (labels : Array α) (i : Nat) : Step (Neuron α) Unit := do
  let n ← get
  let label ← SynapseStream.unitAt labels i
  let row ← weights.slab i
  let slope := net.cost.derivative label n.output +
    net.regularizationWeight * Precision.widen (blockedSum row)
  Neuron.backpropagate <|
    if activation.isSoftmax then slope else slope * activation.derivative n.output

/-- Seeds the deltas of the output layer. -/
def seedDeltas (net : Network α β) (labels : List α) : Step (Arena α) Unit := do
  let activation ← itemAt net.activations (net.activations.length - 1)
  let weights ← itemAt net.weights (net.weights.length - 1)
  Step.onItem (do
    let layer ← get
    let _ ← Step.visit (net.seedDelta activation weights labels.toArray) layer.length 0)
    (net.outputLayer.getD 0)

/-- The deltas of the units with incoming weights of a layer. -/
def deltasBehindBias (net : Network α β) (arena : Arena α) (layer : Nat) :
    Except Fault (Array α) := do
  let neurons ← itemAt arena layer
  return ((neurons.drop (net.biasUnits layer)).map Neuron.delta).toArray

/-- Computes the delta of the unit that a weight column leads back to, and its updates. The
buffer gets a slot for each row that the matrix has. -/
def backwardColumn (weights : Tensor β) (previous : Except Fault (Tensor β))
    (deltas : Except Fault (Array α)) (rows : Nat) (iteration : Int) (column : Nat) :
    Step (Neuron α) (List β) := do
  Neuron.resetBuffer rows
  let stream ← SynapseStream.returning weights (← previous) (← deltas) column
  Neuron.backward stream iteration
  return (← Neuron.weights).map Precision.narrow

/-- Computes the deltas in front of a boundary and the update of its weight matrix. -/
def backwardBoundary (net : Network α β) (iteration : Int) (boundary : Nat) :
    Step (Arena α) (Tensor β) := do
  let weights ← itemAt net.weights boundary
  let (rows, columns) ← weights.matrixShape
  let deltas := net.deltasBehindBias (← get) (boundary + 1)
  let updates ← Step.onItem (Step.visit
    (backwardColumn weights (itemAt net.previous boundary) deltas rows iteration) columns 0) boundary
  return .ofColumns rows updates

/-- Computes the updates of as many first boundaries as asked for, last to first. -/
def backwardBoundaries (net : Network α β) (iteration : Int) :
    Nat → List (Tensor β) → Step (Arena α) (List (Tensor β))
  | 0, done => return done
  | count + 1, done => do
    let update ← net.backwardBoundary iteration count
    net.backwardBoundaries iteration count (update :: done)

/-- Runs the network backward on the labels of the output layer and gives one update for
every weight matrix. -/
def backward (labels : List α) (iteration : Int) : Step (Network α β) (List (Tensor β)) := do
  let net ← get
  let boundaries := net.sizes.length - 1
  let updates ← onArena do
    net.seedDeltas labels
    net.backwardBoundaries iteration boundaries
      ((net.weights.drop boundaries).map fun matrix => .fill matrix.shape 0)
  modify fun net => { net with previous := updates }
  return updates

end Network

end FeedForward
