import FeedForward.Bytes.Input
import FeedForward.Bytes.Output
import FeedForward.Network.Topology

/-!
# Model files

A model file holds a network without its last updates and its neurons. All words have
their most significant byte first, a text is its length in bytes and its UTF-8 bytes, and
a list is its length and its items. In order:

* the type of the model, a text;
* the learning rate, the momentum weight and the regularisation weight, three scalars;
* the names of the cost, the learning style, the training method and the transformer;
* the list of layer sizes and the index of the output layer;
* the drop rate, a stored number;
* the lists of the rules, the activations and the weight matrices, each matrix as its
  numbers of rows and columns and its stored numbers row by row.

The training method is checked when it is written, so a file that was begun for an
unsupported one ends before it.
-/

namespace FeedForward.ModelFile

variable {α β : Type} [Scalar α] [Encoding α] [Encoding β]

/-- The type that every model file names. -/
def modelType : String := "LayeredNetworkModel"

/-- A written number. -/
def number {γ : Type} [Encoding γ] (x : γ) : Output :=
  .ofBytes (Word.bytes (Encoding.width γ) (Encoding.word x))

/-- A written weight matrix. -/
def matrix (t : Tensor β) : Output :=
  match t.matrixShape with
  | .error fault => .fail fault
  | .ok (rows, columns) => .join (.int rows :: .int columns :: t.toList.map number)

/-- The written training method. -/
def method (name : String) : Output :=
  match TrainingMethod.ofName name with
  | .error fault => .fail fault
  | .ok method => .text method.name

/-- The written network. -/
def write [Precision α β] (net : Network α β) : Output :=
  .join [.text modelType,
    number net.learningRate, number net.momentumWeight, number net.regularizationWeight,
    .text net.cost.name, .text net.style.name, method net.method, .text net.transformer.name,
    .list (fun (size : Nat) => .int size) net.sizes,
    .int ((net.outputLayer.map Int.ofNat).getD (-1)),
    number (Precision.narrow net.dropRate : β),
    .list (fun rule => .text rule.key) net.rules,
    .list (fun activation => .text activation.name) net.activations,
    .list matrix net.weights]

/-- The bytes of a network. -/
def encode [Precision α β] (net : Network α β) : Except Fault (List UInt8) :=
  (write net).complete

/-- A number that is read. -/
def readNumber {γ : Type} [Encoding γ] : Input γ :=
  return Encoding.ofWord (← Input.word (Encoding.width γ))

/-- An entry of a registry, whose name is read. -/
def readNamed {γ : Type} (registry : Registry γ) : Input (String × γ) := do
  let name ← Input.text
  match registry.find? name with
  | some entry => return (name, entry)
  | none => throw (.unknownInModel registry.role name)

/-- The numbers that some bytes stand for, as many as asked for. -/
def numbers : Nat → List UInt8 → List β
  | 0, _ => []
  | n + 1, bytes =>
    Encoding.ofWord (Word.value (bytes.take (Encoding.width β))) ::
      numbers n (bytes.drop (Encoding.width β))

@[simp] theorem length_numbers (n : Nat) (bytes : List UInt8) :
    (numbers n bytes : List β).length = n := by
  induction n generalizing bytes with
  | zero => rfl
  | succ n ih => simp [numbers, ih]

/-- A weight matrix that is read. -/
def readMatrix : Input (Tensor β) := do
  let rows ← Input.count "matrix row"
  let columns ← Input.count "matrix column"
  let bytes ← Input.exactly (rows * columns * Encoding.width β)
  return ⟨[rows, columns], (numbers (rows * columns) bytes).toArray, by simp [places]⟩

/-- What a model file says. -/
structure Contents (α β : Type) where
  learningRate : α
  momentumWeight : α
  regularizationWeight : α
  cost : Cost α
  style : String
  method : String
  transformer : Transformer α
  dropRate : β
  topology : TopologyPlan α β

/-- The contents of a model file, read from the front of some bytes. -/
def readContents : Input (Contents α β) := do
  let name ← Input.text
  if name ≠ modelType then throw (.modelType name)
  let learningRate ← readNumber
  let momentumWeight ← readNumber
  let regularizationWeight ← readNumber
  let (_, cost) ← readNamed Cost.registry
  let style ← Input.text
  let method ← Input.text
  let (_, transformer) ← readNamed Transformer.registry
  let sizes ← Input.list "layer" Input.int
  let outputLayer ← Input.int
  let dropRate ← readNumber
  let rules ← Input.list "neuron class" (readNamed Rule.registry)
  let activations ← Input.list "activation function" (readNamed Activation.registry)
  let matrices ← Input.list "weight matrix" readMatrix
  return {
    learningRate, momentumWeight, regularizationWeight, cost, style, method, transformer, dropRate
    topology := {
      sizes, outputLayer
      activations := activations.map fun entry => .given entry.2
      rules := rules.map Prod.fst
      matrices := matrices.map some } }

/-- The network that the contents of a model file describe: without last updates, with
training off and with a random source of its own. -/
def assemble [Zero β] [Precision α β] (contents : Contents α β) : Except Fault (Network α β) := do
  let style ← LearningStyle.ofName contents.style
  let method ← TrainingMethod.ofName contents.method
  let net ← Network.create {
    learningRate := contents.learningRate
    momentumWeight := contents.momentumWeight
    regularizationWeight := contents.regularizationWeight
    cost := .given contents.cost
    style := style.name
    method := method.name
    transformer := .given contents.transformer
    dropRate := Precision.widen contents.dropRate
    training := false
    seed := none }
  match Network.restoreLayers contents.topology net with
  | .ok () net => return net
  | .error fault _ => throw fault

/-- The fault of a file whose contents describe no network. The file is at fault for a rule that
its contents break and for a mode that they ask for in vain; any other cause speaks for itself. -/
def blamed (cause : Fault) : Fault :=
  match cause.family with
  | .validation | .unsupported => .inconsistentModel cause
  | _ => cause

/-- The network in front of some bytes, and the bytes that are left. -/
def read [Zero β] [Precision α β] : Input (Network α β) := do
  match assemble (← readContents) with
  | .ok net => return net
  | .error cause => throw (blamed cause)

/-- The network that some bytes stand for. -/
def decode [Zero β] [Precision α β] (bytes : List UInt8) : Except Fault (Network α β) := do
  let (net, rest) ← read.run bytes
  if !rest.isEmpty then throw .trailingBytes
  return net

end FeedForward.ModelFile
