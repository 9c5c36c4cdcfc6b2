import FeedForward.Activation
import FeedForward.Neuron.Buffer
import FeedForward.Step
import FeedForward.Synapse
import FeedForward.Tensor

/-!
# Neurons

A neuron sees nothing but streams of synapses. Forward it makes one output of them;
backward it makes its delta and pushes one weight update for every synapse. Three
rules say how: the weighted sum, the strongest weighted input, and the weighted sum
with a learning rate that falls with the iteration. A neuron without a rule holds the
shared state and refuses both passes.
-/

namespace FeedForward

/-- How a neuron carries out its passes. -/
inductive Rule where
  | standard
  | max
  | annealing
  deriving DecidableEq, Repr

namespace Rule

/-- The name under which a rule is chosen. -/
def key : Rule → String
  | standard => "standard"
  | max => "max"
  | annealing => "annealing"

/-- The rules by name. -/
def registry : Registry Rule where
  role := .neuron
  fold := id
  entries := [standard, max, annealing].map fun rule => (rule.key, rule)

/-- The first name under which a registry holds a rule. -/
def keyFor? (r : Registry Rule) (rule : Rule) : Option String :=
  (r.entries.find? fun entry => entry.2 == rule).map Prod.fst

/-- What a neuron with a rule, or with none, calls itself. -/
def title : Option Rule → String
  | some .standard => "StandardNeuron"
  | some .max => "MaxNeuron"
  | some .annealing => "AnnealingNeuron"
  | none => "Neuron"

/-- The first name of a rule, or the fault that it has none. -/
def keyFor (r : Registry Rule) (rule : Option Rule) : Except Fault String :=
  match rule.bind (keyFor? r) with
  | some key => .ok key
  | none => .error (.unregisteredRule (title rule))

end Rule

/-- The state of one unit. -/
structure Neuron (α : Type) where
  id : Int
  layer : Int
  rule : Option Rule
  activation : Activation α
  learningRate : α
  momentumWeight : α
  training : Bool
  dropped : Bool
  output : α
  delta : α
  buffer : UpdateBuffer α

namespace Neuron

variable {α : Type} [Scalar α]

/-- A neuron before its first pass. -/
def create (rule : Option Rule) (id layer : Int) (activation : Activation α)
    (learningRate momentumWeight : α) (training : Bool) : Neuron α where
  id := id
  layer := layer
  rule := rule
  activation := activation
  learningRate := learningRate
  momentumWeight := momentumWeight
  training := training
  dropped := false
  output := 0
  delta := 0
  buffer := .empty 0

/-- A neuron with the default rates. -/
def createDefault (rule : Option Rule) (id layer : Int) (activation : Activation α) : Neuron α :=
  create rule id layer activation 0.1 0 false

/-- Sets the output. -/
def feedforward (x : α) : Step (Neuron α) Unit := modify fun n => { n with output := x }

/-- Sets the delta. -/
def backpropagate (x : α) : Step (Neuron α) Unit := modify fun n => { n with delta := x }

/-- Empties the update buffer and gives it some slots. -/
def resetBuffer (capacity : Nat) : Step (Neuron α) Unit :=
  modify fun n => { n with buffer := .empty capacity }

/-- Empties the update buffer and gives it a size. -/
def setWeightVector (size : Int) : Step (Neuron α) Unit := do
  let capacity ← Step.ofExcept (extent size)
  resetBuffer capacity

/-- Puts one update into the buffer. -/
def push (update : α) : Step (Neuron α) Unit := do
  let n ← get
  match n.buffer.push? update with
  | some buffer => set { n with buffer }
  | none => throw (.bufferFull n.id n.layer n.buffer.capacity)

/-- The updates in the buffer once it is full. -/
def weights : Step (Neuron α) (List α) := do
  let n ← get
  match n.buffer.full? with
  | some updates => return updates
  | none => throw (.bufferNotFull n.id n.layer n.buffer.filled n.buffer.capacity)

/-- The weighted input of each synapse. -/
def products (synapses : List (Synapse α)) : List α := synapses.map fun s => s.value * s.weight

/-- The first of the greatest numbers; zero if there are none. -/
def strongest : List α → α
  | [] => 0
  | x :: xs => xs.foldl Scalar.firstGreatest x

/-- What a rule makes of the synapses before the activation. -/
def weightedInput (rule : Rule) (synapses : List (Synapse α)) : α :=
  match rule with
  | .max => strongest (products synapses)
  | .standard | .annealing => sumOnto 0 (products synapses)

/-- The forward pass: the output is the activation of the weighted input. Nothing
changes if the stream is cut short. -/
def forward (stream : SynapseStream α) : Step (Neuron α) Unit := do
  let n ← get
  match n.rule, stream.cut with
  | none, _ => throw .noRule
  | some _, some fault => throw fault
  | some rule, none => feedforward (n.activation.apply (weightedInput rule stream.delivered))

/-- How fast the learning rate of annealing neurons falls. -/
def decay : α := 1e-3

/-- The learning rate of a rule at an iteration. -/
def rateOf (rule : Rule) (learningRate : α) (iteration : Int) : Except Fault α :=
  match rule with
  | .standard | .max => .ok learningRate
  | .annealing =>
    if Scalar.fits (α := α) iteration.toNat then
      .ok (learningRate / (1 + decay * Scalar.ofNat iteration.toNat))
    else .error .tooLarge

/-- The learning rate that the neuron uses at an iteration. -/
def effectiveLearningRate (n : Neuron α) (iteration : Int) : Except Fault α :=
  match n.rule with
  | none => .error .noRate
  | some rule => rateOf rule n.learningRate iteration

/-- The update of one edge: a step down the gradient and a share of the last update. -/
def update (n : Neuron α) (rate : α) (s : Synapse α) : α :=
  -rate * s.value * n.output + n.momentumWeight * s.previous

/-- Pushes the update of every synapse and adds up the gradient. -/
def descend (rate gradient : α) : List (Synapse α) → Step (Neuron α) α
  | [] => return gradient
  | s :: rest => do
    push ((← get).update rate s)
    descend rate (gradient + s.value * s.weight) rest

/-- Pushes a zero for every synapse. -/
def pushZeros : List (Synapse α) → Step (Neuron α) Unit
  | [] => return ()
  | _ :: rest => do
    push 0
    pushZeros rest

/-- Raises the fault that cut a stream short, if one did. -/
def checkCut (stream : SynapseStream α) : Step (Neuron α) Unit :=
  match stream.cut with
  | some fault => throw fault
  | none => return ()

/-- The backward pass. A dropped neuron takes no part: its updates and its delta are
zero. Values pushed before a fault stay in the buffer, and the delta stays as it was. -/
def backward (stream : SynapseStream α) (iteration : Int) : Step (Neuron α) Unit := do
  let n ← get
  if n.rule.isNone then throw .noRule
  if n.dropped then
    pushZeros stream.delivered
    checkCut stream
    backpropagate 0
  else
    match n.effectiveLearningRate iteration with
    | .error fault => throw fault
    | .ok rate =>
      let gradient ← descend rate 0 stream.delivered
      checkCut stream
      backpropagate (gradient * n.activation.derivative n.output)

/-- One line about a neuron. -/
def describe (n : Neuron Double) : String :=
  s!"{Rule.title n.rule}(id={n.id}, layer={n.layer}, output={Decimal.summary n.output}, " ++
    s!"delta={Decimal.summary n.delta})"

end Neuron

end FeedForward
