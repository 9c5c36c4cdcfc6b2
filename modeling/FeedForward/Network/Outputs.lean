import FeedForward.Network

/-!
# Outputs

The outputs of all units are computed layer by layer from the input layer on. Every unit
with incoming weights sees the outputs of the layer in front only through its stream of
synapses. Behind a softmax boundary the outputs of these units are then normalised
together, and the bias unit of a layer that is not the output layer always gives one.

An input unit under training is dropped by a draw from the random source; a dropped unit
puts out its value times zero.
-/

namespace FeedForward

namespace Network

variable {α β : Type} [Scalar α]

/-- Puts one value out of an input unit. Under training the unit is kept with the given
probability, which takes one draw. -/
def feedInput (keep value : α) (n : Neuron α) (source : Generator) : Neuron α × Generator :=
  let (kept, source) := if n.training then source.happens keep else (true, source)
  ({ n with dropped := !kept, output := value * (if kept then 1 else 0) }, source)

/-- Puts values out of the units of the input layer, as far as both go. -/
def feedInputs (keep : α) : List (Neuron α) → List α → Generator → List (Neuron α) × Generator
  | n :: layer, value :: values, source =>
    let (n, source) := feedInput keep value n source
    let (layer, source) := feedInputs keep layer values source
    (n :: layer, source)
  | layer, _, source => (layer, source)

/-- The outputs of some units. -/
def outputsOf (layer : List (Neuron α)) : List α := layer.map Neuron.output

/-- Computes the output of the unit that a weight row leads into. -/
def forwardRow [Precision α β] (weights : Tensor β) (outputs : Array α) (row : Nat) :
    Step (Neuron α) Unit := do
  Neuron.forward (← SynapseStream.incoming weights outputs row)

/-- Normalises the outputs of the first units of a list together. -/
def normalise (count : Nat) : Step (List (Neuron α)) Unit := do
  let layer ← get
  let shares := (← softmax (outputsOf (layer.take count))).toArray
  let _ ← Step.visit (fun i => do Neuron.feedforward (← SynapseStream.unitAt shares i)) count 0

/-- Computes the outputs of the layer behind a boundary, given the outputs in front. -/
def forwardLayer [Precision α β] (net : Network α β) (boundary rows : Nat) (weights : Tensor β)
    (outputs : Array α) : Step (List (Neuron α)) Unit := do
  let bias := net.biasUnits (boundary + 1)
  let _ ← Step.beyond (Step.visit (forwardRow weights outputs) rows 0) bias
  let activation ← itemAt net.activations boundary
  if activation.isSoftmax then Step.beyond (normalise rows) bias
  if !net.isOutput (boundary + 1) then Step.onItem (Neuron.feedforward 1) 0

/-- Computes the outputs behind one boundary. -/
def forwardBoundary [Precision α β] (net : Network α β) (boundary : Nat) :
    Step (Arena α) Unit := do
  let weights ← itemAt net.weights boundary
  let rows ← weights.rows
  let arena ← get
  let outputs := (outputsOf (arena.getD boundary [])).toArray
  Step.onItem (net.forwardLayer boundary rows weights outputs) (boundary + 1)

/-- Computes the outputs behind all boundaries, first to last. -/
def forwardBoundaries [Precision α β] (net : Network α β) : List Nat → Step (Arena α) Unit
  | [] => return ()
  | boundary :: rest => do
    net.forwardBoundary boundary
    net.forwardBoundaries rest

/-- Runs the network forward on the values of the input layer, the bias included, and
gives the outputs of the output layer. -/
def forward [Precision α β] (values : List α) : Step (Network α β) (List α) := do
  let arena ← neurons
  let net ← get
  let (inputs, source) := feedInputs (1 - net.dropRate) (arena.headD []) values net.source
  set { net with source, arena := some (arena.set 0 inputs) }
  onArena do
    net.forwardBoundaries (List.range (net.sizes.length - 1))
    let layer ← itemAt (← get) (net.outputLayer.getD 0)
    return outputsOf layer

end Network

end FeedForward
