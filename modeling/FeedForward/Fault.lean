import FeedForward.Text.Quoted

/-!
# Causes of failure

Every operation of the library that can fail says why. A fault is a cause with the
facts that its message quotes; its family groups causes that callers treat alike.
Faults that come from reading a caller's data rather than from a rule of the library
have a family and no message.
-/

namespace FeedForward

/-- What callers tell apart when an operation fails. -/
inductive Family where
  /-- An argument breaks a rule of the network. -/
  | validation
  /-- A mode is asked for that does not exist. -/
  | unsupported
  /-- Bytes are not a model file. -/
  | malformedModel
  /-- An update buffer was filled with the wrong number of values. -/
  | bufferContract
  /-- A name or a key is not there. -/
  | missingKey
  /-- A value of the right kind cannot be used. -/
  | badValue
  /-- A value is of the wrong kind. -/
  | badType
  /-- A position lies outside a sequence. -/
  | badIndex
  /-- A number lies outside the range of doubles or of a word. -/
  | outOfRange
  /-- A file does not exist. -/
  | missingFile
  /-- A text is not JSON. -/
  | malformedJson
  /-- A text is not YAML. -/
  | malformedYaml
  /-- A neuron has no rule for its passes. -/
  | unimplemented
  /-- A value has no such operation. -/
  | missingOperation
  deriving DecidableEq, Repr

/-- What a registry holds. -/
inductive Role where
  | activation
  | cost
  | transformer
  | neuron
  | dataset
  | preset
  deriving DecidableEq, Repr

/-- One entry of a registry, as messages call it. -/
def Role.singular : Role → String
  | .activation => "activation"
  | .cost => "cost function"
  | .transformer => "feature transformer"
  | .neuron => "neuron class"
  | .dataset => "dataset"
  | .preset => "preset"

/-- The entries of a registry, as messages call them. -/
def Role.plural : Role → String
  | .activation => "activations"
  | .cost => "costs"
  | .transformer => "transformers"
  | .neuron => "neuron classes"
  | .dataset => "datasets"
  | .preset => "presets"

/-- One entry of a registry, as messages about model files call it. -/
def Role.inModelFile : Role → String
  | .activation => "activation function"
  | role => role.singular

/-- A vector that a pass expects. -/
inductive VectorUse where
  | input
  | features
  | label
  deriving DecidableEq, Repr

/-- A vector as messages call it. -/
def VectorUse.text : VectorUse → String
  | .input => "Instance"
  | .features => "Training features"
  | .label => "Training label"

/-- Why an operation failed. -/
inductive Fault where
  -- topology
  | sizeNotPositive
  | topologyFixed
  | afterOutputLayer
  | inputAsOutput
  | tooFewLayers
  | boundaryCounts (boundaries matrices activations neurons : Nat)
  | layerTooSmall (layer : Nat) (size : Int) (least : Nat)
  | outputLayerMismatch (given : Int) (layers : Nat)
  | matrixShape (index : Nat) (shape expected : List Nat)
  | unknownNeuron (name : String)
  | noOutputLayer
  -- names
  | unknownName (role : Role) (name : String) (available : List String)
  | refusedName (role : Role) (name : String) (available : List String)
  | unregisteredRule (rule : String)
  | aliasTarget
  | datasetTaken (name : String)
  | unsupportedMode (kind name : String) (allowed : List String)
  -- weights
  | dropRate (given : String)
  | matrixIndex (index : Int) (count : Nat)
  | replacementShape (index : Int) (shape : List Nat)
  | updateCount (expected given : Nat)
  | mergeCount (source dest : Nat)
  -- instances
  | notVector (use : VectorUse) (shape : List Nat)
  | inputDimension (expected : Nat)
  | featureDimension (given expected : Nat)
  | labelMissing
  | labelDimension (given expected : Nat)
  | notReproducing (output input : Nat)
  -- training
  | noInstances
  | batchSize
  -- update buffers
  | bufferFull (neuron layer : Int) (capacity : Nat)
  | bufferNotFull (neuron layer : Int) (filled capacity : Nat)
  | noRule
  | noRate
  -- model files
  | unreadableSize (size : Nat)
  | truncated (wanted got : Nat)
  | negativeCount (what : String) (count : Int)
  | malformedText
  | unknownInModel (role : Role) (name : String)
  | modelType (name : String)
  | inconsistentModel (cause : Fault)
  | trailingBytes
  -- data and configurations
  | rowCounts (features labels : Nat)
  | fileType (suffix : String)
  | notAMapping (file : String)
  | missingSections (file : String) (sections : List String)
  | tooFewConfiguredLayers
  -- data of a caller
  | keyAbsent
  | ragged
  | shapesDiffer
  | emptyMaximum
  | extentRange
  | negativeSeed
  | seedRange
  | indexOutside
  | wrongKind
  | notANumeral
  | tooLarge
  | pathRange
  | noSuchFile
  | invalidJson
  | invalidYaml
  | noSuchOperation
  deriving DecidableEq, Repr

namespace Fault

open Text

/-- The family of a fault. -/
def family : Fault → Family
  | sizeNotPositive | topologyFixed | afterOutputLayer | inputAsOutput | tooFewLayers
  | boundaryCounts .. | layerTooSmall .. | outputLayerMismatch .. | matrixShape ..
  | unknownNeuron _ | noOutputLayer | refusedName .. | dropRate _ | matrixIndex ..
  | replacementShape .. | updateCount .. | mergeCount .. | notVector .. | inputDimension _
  | featureDimension .. | labelMissing | labelDimension .. | notReproducing .. | noInstances
  | batchSize | tooFewConfiguredLayers => .validation
  | unsupportedMode .. => .unsupported
  | unreadableSize _ | truncated .. | negativeCount .. | malformedText | unknownInModel ..
  | modelType _ | inconsistentModel _ | trailingBytes => .malformedModel
  | bufferFull .. | bufferNotFull .. => .bufferContract
  | unknownName .. | unregisteredRule _ | aliasTarget | missingSections .. | keyAbsent =>
    .missingKey
  | datasetTaken _ | rowCounts .. | fileType _ | ragged | shapesDiffer | emptyMaximum
  | extentRange | negativeSeed | seedRange | notANumeral | pathRange => .badValue
  | notAMapping _ | wrongKind => .badType
  | indexOutside => .badIndex
  | tooLarge => .outOfRange
  | noSuchFile => .missingFile
  | invalidJson => .malformedJson
  | invalidYaml => .malformedYaml
  | noRule => .unimplemented
  | noRate | noSuchOperation => .missingOperation

/-- A name that a registry does not hold, with the names that it does hold. -/
def unknownText (role : Role) (name : String) (available : List String) : String :=
  "Unknown " ++ role.singular ++ " " ++ quoted name ++ ". Available " ++ role.plural ++ ": " ++
    ", ".intercalate available

/-- The message of a fault; faults in a caller's data have none. -/
def message? : Fault → Option String
  | sizeNotPositive => "Size of layer must be larger than 0."
  | topologyFixed => "Topology cannot change once the neurons are built"
  | afterOutputLayer => "Cannot add a layer after the final layer"
  | inputAsOutput => "The input layer cannot be the final layer"
  | tooFewLayers => "A model needs at least an input and an output layer"
  | boundaryCounts boundaries matrices activations neurons =>
    s!"Expected {boundaries} weight matrices, activations and neuron classes, got " ++
      s!"{matrices}, {activations} and {neurons}"
  | layerTooSmall layer size least =>
    s!"Layer {layer} has size {size}, expected at least {least}"
  | outputLayerMismatch given layers =>
    s!"Final layer index {given} does not match {layers} layers"
  | matrixShape index shape expected =>
    s!"Weight matrix {index} has shape {extents shape}, expected {extents expected}"
  | unknownNeuron name => "Unknown neuron class " ++ quoted name
  | noOutputLayer => "The model has no output layer; add a final layer first"
  | unknownName role name available | refusedName role name available =>
    unknownText role name available
  | unregisteredRule rule => s!"Neuron class {rule} is not registered"
  | datasetTaken name => s!"Dataset {quoted name} is already registered"
  | unsupportedMode kind name allowed =>
    s!"Unsupported {kind} {quoted name}; expected one of " ++ ", ".intercalate allowed
  | dropRate given => "Drop rate must be within [0, 1], got " ++ given
  | matrixIndex index count => s!"index [{index}] should be in range[0, {count})."
  | replacementShape index shape => s!"Weight matrix {index} must have shape {extents shape}"
  | updateCount expected given => s!"Expected {expected} update matrices, got {given}"
  | mergeCount source dest => s!"Cannot merge {source} matrices into {dest}"
  | notVector use shape => s!"{use.text} must be a 1-D vector, got shape {extents shape}"
  | inputDimension expected => s!"The dimension of input instance should be {expected}."
  | featureDimension given expected =>
    s!"The dimension of training instance is {given}, but requires {expected}."
  | labelMissing => "Supervised training requires a label"
  | labelDimension given expected =>
    s!"The dimension of the label is {given}, but requires {expected}."
  | notReproducing output input =>
    s!"Unsupervised models must reproduce their input: output size {output} differs from " ++
      s!"input size {input}"
  | noInstances => "Cannot train on an empty instance list"
  | batchSize => "batch_size must be positive"
  | bufferFull neuron layer capacity =>
    s!"Neuron {neuron} at layer {layer} pushed more than {capacity} weight updates"
  | bufferNotFull neuron layer filled capacity =>
    s!"Neuron {neuron} at layer {layer} pushed {filled} of {capacity} weight updates"
  | noRule => ""
  | unreadableSize size => s!"Cannot read {size} bytes of model data"
  | truncated wanted got =>
    s!"Unexpected end of model data: wanted {wanted} bytes, got {got}"
  | negativeCount what count => s!"Negative {what} count: {count}"
  | malformedText => "Malformed UTF-8 string in model data"
  | unknownInModel role name => s!"Unknown {role.inModelFile} {quoted name} in model data"
  | modelType name => "Unsupported model type " ++ quoted name
  | inconsistentModel cause => "Inconsistent model data: " ++ (message? cause).getD ""
  | trailingBytes => "Trailing bytes after model data"
  | rowCounts features labels => s!"Got {features} feature rows but {labels} label rows"
  | fileType suffix => "Unsupported config file type: " ++ suffix
  | notAMapping file => s!"Config {file} must decode to a mapping"
  | missingSections file sections =>
    s!"Config {file} is missing required sections: " ++ ", ".intercalate sections
  | tooFewConfiguredLayers => "model.layers needs at least an input and an output layer"
  | aliasTarget | noRate | keyAbsent | ragged | shapesDiffer | emptyMaximum | extentRange
  | negativeSeed | seedRange | indexOutside | wrongKind | notANumeral | tooLarge
  | pathRange | noSuchFile | invalidJson | invalidYaml | noSuchOperation => none

end Fault

end FeedForward
