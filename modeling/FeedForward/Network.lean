import FeedForward.Cost
import FeedForward.Mode
import FeedForward.Neuron
import FeedForward.Random
import FeedForward.Transformer

/-!
# Layered networks

A network is a row of layers. Every layer but the last has a bias unit in front, and
between two neighbouring layers lies a boundary with a weight matrix, the last update
of that matrix, an activation and a rule for the neurons behind it. The neurons of all
layers are built when they are first needed; they take over the rates that the network
has then, and from then on the layers cannot change.
-/

namespace FeedForward

/-- The neurons of all layers. -/
abbrev Arena (α : Type) := List (List (Neuron α))

/-- What a network is created from. -/
structure Settings (α : Type) where
  learningRate : α
  momentumWeight : α
  regularizationWeight : α
  cost : Ref (Cost α)
  style : String
  method : String
  transformer : Ref (Transformer α)
  dropRate : α
  training : Bool
  seed : Option Int

/-- A layered network. Scalars are what passes compute with, stored numbers are what
the matrices hold. The method is kept as it was given and checked when it is used. -/
structure Network (α β : Type) where
  learningRate : α
  momentumWeight : α
  regularizationWeight : α
  cost : Cost α
  style : LearningStyle
  method : String
  transformer : Transformer α
  dropRate : α
  training : Bool
  trainingError : α
  sizes : List Nat
  weights : List (Tensor β)
  previous : List (Tensor β)
  activations : List (Activation α)
  rules : List Rule
  outputLayer : Option Nat
  source : Generator
  arena : Option (Arena α)

namespace Settings

variable {α : Type} [Scalar α]

/-- What a network is created from unless something else is said. -/
def default : Settings α where
  learningRate := 0.1
  momentumWeight := 0
  regularizationWeight := 0
  cost := .named "squared_error"
  style := LearningStyle.supervised.name
  method := TrainingMethod.gradientDescent.name
  transformer := .named "identity"
  dropRate := 0
  training := false
  seed := none

/-- A drop rate, if it lies between zero and one. -/
def checkDropRate (rate : α) : Except Fault α :=
  if Scalar.le 0 rate && Scalar.le rate 1 then .ok rate else .error (.dropRate (Scalar.text rate))

end Settings

namespace Network

variable {α β γ : Type} [Scalar α]

/-- A network without layers. -/
def create (settings : Settings α) : Except Fault (Network α β) := do
  let cost ← Cost.registry.resolve settings.cost
  let style ← LearningStyle.ofName settings.style
  let transformer ← Transformer.registry.resolve settings.transformer
  let dropRate ← Settings.checkDropRate settings.dropRate
  let source ← Generator.ofSeed settings.seed
  return {
    learningRate := settings.learningRate
    momentumWeight := settings.momentumWeight
    regularizationWeight := settings.regularizationWeight
    cost, style, transformer, dropRate, source
    method := settings.method
    training := settings.training
    trainingError := 0
    sizes := []
    weights := []
    previous := []
    activations := []
    rules := []
    outputLayer := none
    arena := none }

/-- Whether a layer is the output layer. -/
def isOutput (net : Network α β) (layer : Nat) : Bool := net.outputLayer == some layer

/-- The number of units of a layer that stand before those with incoming weights: one
bias unit, and none in the output layer. -/
def biasUnits (net : Network α β) (layer : Nat) : Nat := if net.isOutput layer then 0 else 1

/-- The index of the output layer, once there is one behind an input layer. -/
def checkComplete (net : Network α β) : Except Fault Nat :=
  match net.outputLayer with
  | some (layer + 1) => .ok (layer + 1)
  | _ => .error .noOutputLayer

/-- The neurons of one layer. -/
def buildLayer (net : Network α β) (layer size : Nat) : Except Fault (List (Neuron α)) := do
  let (rule, activation) ← match layer with
    | 0 => pure (Rule.standard, Activation.identity)
    | boundary + 1 => pure (← itemAt net.rules boundary, ← itemAt net.activations boundary)
  return (List.range size).map fun (id : Nat) =>
    .create rule id layer activation net.learningRate net.momentumWeight net.training

/-- The neurons of all layers. -/
def buildArena (net : Network α β) : Except Fault (Arena α) := do
  let _ ← net.checkComplete
  net.sizes.zipIdx.mapM fun (size, layer) => net.buildLayer layer size

/-- The neurons, which are built if they have not been needed before. -/
def neurons : Step (Network α β) (Arena α) := do
  let net ← get
  match net.arena with
  | some arena => return arena
  | none =>
    let arena ← net.buildArena
    set { net with arena := some arena }
    return arena

/-- A step on the neurons, which are built first if need be. -/
def onArena (act : Step (Arena α) γ) : Step (Network α β) γ := do
  let arena ← neurons
  fun net => Step.mapState (fun arena => { net with arena := some arena }) (act arena)

/-- Switches training on or off for the network and for its neurons. -/
def setTraining (training : Bool) : Step (Network α β) Unit :=
  modify fun net => { net with
    training
    arena := net.arena.map fun arena => arena.map fun layer =>
      layer.map fun n => { n with training } }

/-- Sets the rate at which input units are dropped. -/
def setDropRate (rate : α) : Step (Network α β) Unit := do
  let dropRate ← Settings.checkDropRate rate
  modify fun net => { net with dropRate }

/-- One line about a network. -/
def describe (net : Network α β) : String :=
  s!"LayeredNetworkModel(layer_sizes={Text.bracketed net.sizes}, " ++
    s!"activations={Text.quotedList (net.activations.map Activation.name)}, " ++
    s!"neurons={Text.quotedList (net.rules.map Rule.key)})"

end Network

end FeedForward
