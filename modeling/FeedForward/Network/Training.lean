import FeedForward.Network.Updates

/-!
# Passes over instances

An instance is checked in full before a pass changes anything, and the first check that
fails decides the fault. Training checks the method, the output layer, the features and
the label, in this order; asking for outputs checks the output layer and the features.
A supervised network needs a label, an unsupervised one takes the transformed features
for it.

The bias unit of the input layer is fed one under training and a little less otherwise.
-/

namespace FeedForward

/-- Features with a label, both as the caller wrote them. -/
structure Instance (α : Type) where
  features : Table α
  label : Option (Table α)

namespace Network

variable {α β : Type} [Scalar α]

/-- What the bias unit of the input layer is fed when a network is only asked. -/
def inferenceBias : α := 0.99999

/-- The vector that a table lines up to. -/
def vectorOf (use : VectorUse) (table : Table α) : Except Fault (Tensor α × List α) := do
  let t ← lineUp table
  match t.vector? with
  | some xs => return (t, xs)
  | none => throw (.notVector use t.shape)

/-- The number of features that a network takes: the input layer without its bias unit. -/
def inputWidth (net : Network α β) : Nat := net.sizes.headD 0 - 1

/-- The features of an instance that is to be run forward. -/
def checkFeatures (net : Network α β) (features : Table α) : Except Fault (Tensor α) := do
  let _ ← net.checkComplete
  let (vector, xs) ← vectorOf .input features
  if xs.length ≠ net.inputWidth then throw (.inputDimension net.inputWidth)
  return vector

/-- The label of an instance, where the network learns from labels. -/
def checkLabel (net : Network α β) (outputWidth : Nat) (label : Option (Table α)) :
    Except Fault (Option (List α)) := do
  match net.style, label with
  | .supervised, none => throw .labelMissing
  | .supervised, some label =>
    let (_, xs) ← vectorOf .label label
    if xs.length ≠ outputWidth then throw (.labelDimension xs.length outputWidth)
    return some xs
  | .unsupervised, _ =>
    if outputWidth ≠ net.inputWidth then throw (.notReproducing outputWidth net.inputWidth)
    return none

/-- The features and the label of an instance that is to be trained. -/
def checkInstance (net : Network α β) (x : Instance α) :
    Except Fault (Tensor α × Option (List α)) := do
  let _ ← TrainingMethod.ofName net.method
  let outputLayer ← net.checkComplete
  let (vector, xs) ← vectorOf .features x.features
  if xs.length ≠ net.inputWidth then throw (.featureDimension xs.length net.inputWidth)
  let outputWidth ← itemAt net.sizes outputLayer
  return (vector, ← net.checkLabel outputWidth x.label)

/-- The outputs of the output layer for some features. -/
def getOutput [Precision α β] (features : Table α) : Step (Network α β) (List α) := do
  let net ← get
  let vector ← net.checkFeatures features
  forward (inferenceBias :: (net.transformer.apply vector).toList)

variable [Add β] [Zero β] [Precision α β]

/-- Runs one instance forward and backward and gives its updates; the weights stay. -/
def trainByInstance (x : Instance α) (iteration : Int) : Step (Network α β) (List (Tensor β)) := do
  let net ← get
  let (vector, label) ← net.checkInstance x
  let inputs := (net.transformer.apply vector).toList
  let label := label.getD inputs
  let outputs ← forward (1 :: inputs)
  let trainingError ← net.cost.total (.ofList label) (.ofList outputs)
  modify fun net => { net with trainingError }
  backward label iteration

/-- Trains on one instance and adds its updates to the weights at once. -/
def trainOnline (x : Instance α) (iteration : Int) : Step (Network α β) (List (Tensor β)) := do
  let updates ← trainByInstance x iteration
  updateWeights (updates.map (Update.stored (α := α)))
  return updates

end Network

end FeedForward
