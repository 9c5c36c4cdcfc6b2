import FeedForward.Config.Value
import FeedForward.Network.Topology

/-!
# Networks from configurations

The model section of a configuration lists the layers, the input layer first and the output
layer last, each with its size and perhaps an activation and a rule, and gives the rates and
modes of the network. The layers are counted first, then the network is created, then the
layers are added one by one. Names may be any values; their text counts.
-/

namespace FeedForward.Network

/-- A number in a section. -/
def numberIn (entries : List (Atom × Value)) (key : String) (default : Double) :
    Except Fault Double :=
  match Value.lookup entries key with
  | some value => value.toNumber
  | none => .ok default

/-- A name in a section. -/
def nameIn (entries : List (Atom × Value)) (key default : String) : Except Fault String :=
  match Value.lookup entries key with
  | some value => value.toText
  | none => .ok default

/-- The layers in a section, if there are at least two. The characters of a text count as
layers here, though none of them can be added. -/
def layersIn (entries : List (Atom × Value)) : Except Fault (List Value) :=
  let layers := match Value.lookup entries "layers" with
    | some (.list items) => items
    | some (.atom (.text s)) => s.toList.map fun c => .text (String.ofList [c])
    | _ => []
  if layers.length < 2 then .error .tooFewConfiguredLayers else .ok layers

/-- What a network is created from according to a section. -/
def settingsIn (entries : List (Atom × Value)) (seed : Option Int) :
    Except Fault (Settings Double) := do
  let learningRate ← numberIn entries "learning_rate" 0.1
  let momentumWeight ← numberIn entries "momentum_weight" 0
  let regularizationWeight ← numberIn entries "regularization_weight" 0
  let cost ← nameIn entries "cost" "squared_error"
  let style ← nameIn entries "learning_style" "supervised"
  let method ← nameIn entries "training_method" "gradient_descent"
  let transformer ← nameIn entries "feature_transformer" "identity"
  let dropRate ← numberIn entries "drop_rate" 0
  return {
    learningRate, momentumWeight, regularizationWeight, style, method, dropRate, seed
    cost := .named cost
    transformer := .named transformer
    training := false }

/-- A configured layer. -/
def layerOf (layer : Value) (isOutput : Bool) : Except Fault LayerPlan := do
  match layer with
  | .mapping entries =>
    match Value.lookup entries "size" with
    | none => throw .keyAbsent
    | some size => return {
        size := ← size.toInteger
        isOutput
        activation := ← nameIn entries "activation" "sigmoid"
        rule := ← nameIn entries "neuron" "standard" }
  | _ => throw .wrongKind

/-- Adds configured layers; the last one becomes the output layer. -/
def addConfigured : List Value → Step (Network Double Single) Unit
  | [] => return ()
  | layer :: rest => do
    let plan ← layerOf layer rest.isEmpty
    let _ ← addLayer plan
    addConfigured rest

/-- The network that a model section describes, with weights drawn for a seed. -/
def configured (model : Value) (seed : Option Int) : Except Fault (Network Double Single) := do
  match model with
  | .mapping entries =>
    let layers ← layersIn entries
    let net ← create (← settingsIn entries seed)
    match addConfigured layers net with
    | .ok () net => return net
    | .error fault _ => throw fault
  | _ => throw .noSuchOperation

end FeedForward.Network
