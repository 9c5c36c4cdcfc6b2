import FeedForward.Network

/-!
# Topology

Layers are added one after the other, or restored all at once from what a model file
holds. Both keep one weight matrix, previous update, activation and rule per boundary,
with a row for every unit that has incoming weights and a column for every unit of the
layer in front. Added layers draw their weights around zero, row by row.

Restoring checks everything that it installs except the activations. Those are resolved
after the sizes and the output layer have been set, so an activation that is not there
leaves the new sizes behind with the old matrices.
-/

namespace FeedForward

/-- A layer to be added. -/
structure LayerPlan where
  size : Int
  isOutput : Bool
  activation : String
  rule : String

namespace LayerPlan

/-- A layer that is added unless something else is said. -/
def default (size : Int) : LayerPlan := ⟨size, false, "sigmoid", Rule.standard.key⟩

end LayerPlan

/-- Layers to be restored. -/
structure TopologyPlan (α β : Type) where
  sizes : List Int
  outputLayer : Int
  activations : List (Ref (Activation α))
  rules : List String
  matrices : List (Table β)

namespace Network

variable {α β : Type} [Scalar α]

/-- The entry that a reference means, or the refusal of a name that is not there. -/
def resolveOrRefuse {γ : Type} (registry : Registry γ) (ref : Ref γ) : Except Fault γ :=
  match registry.resolve ref with
  | .error (.unknownName role name available) => .error (.refusedName role name available)
  | result => result

/-- A weight matrix with drawn weights. -/
def drawWeights (α : Type) [Zero β] [Precision α β] (rows columns : Nat) (source : Generator) :
    Tensor β × Generator :=
  let (drawn, source) := source.collect (Generator.weight α) (rows * columns)
  let numbers := drawn.toArray
  (.ofFn [rows, columns] fun i => numbers.getD i 0, source)

/-- The network with a boundary in front of a new layer: the rows of its matrix belong to
the units of that layer with incoming weights. -/
def addBoundary [Zero β] [Precision α β] (net : Network α β) (rows columns : Nat)
    (activation : Activation α) (rule : Rule) : Network α β :=
  let (weights, source) := drawWeights α rows columns net.source
  { net with
    weights := net.weights ++ [weights]
    previous := net.previous ++ [Tensor.fill [rows, columns] 0]
    activations := net.activations ++ [activation]
    rules := net.rules ++ [rule]
    source }

/-- The activation and the rule of a layer that may be added. -/
def checkLayer (net : Network α β) (plan : LayerPlan) : Except Fault (Activation α × Rule) := do
  if plan.size ≤ 0 then throw .sizeNotPositive
  if net.arena.isSome then throw .topologyFixed
  if net.outputLayer.isSome then throw .afterOutputLayer
  if plan.isOutput && net.sizes.isEmpty then throw .inputAsOutput
  let activation ← resolveOrRefuse Activation.registry (.named plan.activation)
  let rule ← resolveOrRefuse Rule.registry (.named plan.rule)
  return (activation, rule)

/-- The network with a layer behind the others. -/
def grow [Zero β] [Precision α β] (net : Network α β) (plan : LayerPlan)
    (activation : Activation α) (rule : Rule) : Network α β :=
  let rows := plan.size.toNat
  let joined := match net.sizes.getLast? with
    | some columns => net.addBoundary rows columns activation rule
    | none => net
  { joined with
    sizes := net.sizes ++ [if plan.isOutput then rows else rows + 1]
    outputLayer := if plan.isOutput then some net.sizes.length else none }

/-- Adds a layer behind the others and gives its index. -/
def addLayer [Zero β] [Precision α β] (plan : LayerPlan) : Step (Network α β) Nat := do
  let net ← get
  let (activation, rule) ← net.checkLayer plan
  set (net.grow plan activation rule)
  return net.sizes.length

/-- The size of each layer, if it leaves room for a bias unit in every layer but the last
one. The index of the first layer is given. -/
def checkSizes : Nat → List Int → Except Fault (List Nat)
  | _, [] => .ok []
  | layer, size :: rest => do
    let least : Nat := if rest.isEmpty then 1 else 2
    if size < least then throw (.layerTooSmall layer size least)
    return size.toNat :: (← checkSizes (layer + 1) rest)

/-- The number of rows and columns of every weight matrix between layers of given sizes. -/
def boundaryShapes : List Nat → List (List Nat)
  | [source, destination] => [[destination, source]]
  | source :: destination :: rest =>
    [destination - 1, source] :: boundaryShapes (destination :: rest)
  | _ => []

/-- Whether each matrix has the shape that its boundary asks for. The index of the first
one is given. -/
def checkShapes : Nat → List (Tensor β) → List (List Nat) → Except Fault Unit
  | index, matrix :: matrices, shape :: shapes =>
    if matrix.shape = shape then checkShapes (index + 1) matrices shapes
    else .error (.matrixShape index matrix.shape shape)
  | _, _, _ => .ok ()

/-- The tensor that a table lines up to. -/
def lineUp (table : Table β) : Except Fault (Tensor β) :=
  match table with
  | some t => .ok t
  | none => .error .ragged

/-- The rule with a given name. -/
def ruleNamed (name : String) : Except Fault Rule :=
  match Rule.registry.find? name with
  | some rule => .ok rule
  | none => .error (.unknownNeuron name)

/-- What restored layers consist of apart from their activations. -/
structure RestoredLayers (β : Type) where
  sizes : List Nat
  outputLayer : Nat
  matrices : List (Tensor β)
  rules : List Rule

/-- Everything about layers to be restored that is checked before anything changes. -/
def checkTopology (plan : TopologyPlan α β) : Except Fault (RestoredLayers β) := do
  let boundaries := plan.sizes.length - 1
  if boundaries < 1 then throw .tooFewLayers
  if plan.matrices.length ≠ boundaries ∨ plan.activations.length ≠ boundaries ∨
      plan.rules.length ≠ boundaries then
    throw (.boundaryCounts boundaries plan.matrices.length plan.activations.length
      plan.rules.length)
  let sizes ← checkSizes 0 plan.sizes
  if plan.outputLayer ≠ boundaries then
    throw (.outputLayerMismatch plan.outputLayer plan.sizes.length)
  let matrices ← plan.matrices.mapM lineUp
  checkShapes 0 matrices (boundaryShapes sizes)
  let rules ← plan.rules.mapM ruleNamed
  return ⟨sizes, boundaries, matrices, rules⟩

/-- Puts restored layers in the place of all layers there are; neurons are built anew. -/
def restoreLayers [Zero β] (plan : TopologyPlan α β) : Step (Network α β) Unit := do
  let restored ← checkTopology plan
  modify fun net => { net with sizes := restored.sizes, outputLayer := some restored.outputLayer }
  let activations ← Step.ofExcept (plan.activations.mapM (resolveOrRefuse Activation.registry))
  modify fun net => { net with
    activations
    rules := restored.rules
    weights := restored.matrices
    previous := restored.matrices.map fun matrix => Tensor.fill matrix.shape 0
    arena := none }

end Network

end FeedForward
