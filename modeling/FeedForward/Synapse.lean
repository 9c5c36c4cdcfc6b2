import FeedForward.Fault
import FeedForward.Numeric.Scalar
import FeedForward.Tensor

/-!
# Synapses and their streams

A synapse is what one edge carries during a pass. Forward, its value is the output of
the source neuron; backward, its value is the delta of the destination neuron and it
also carries the last update of its weight. A stream delivers synapses one after the
other and may be cut short by a fault, after which nothing more comes.
-/

namespace FeedForward

/-- What one edge carries during a pass. -/
structure Synapse (α : Type) where
  index : Int
  value : α
  weight : α
  previous : α

/-- The synapses that a stream delivers and the fault that cuts it short, if any. -/
structure SynapseStream (α : Type) where
  delivered : List (Synapse α)
  cut : Option Fault

namespace SynapseStream

variable {α β : Type}

/-- A stream of given synapses that nothing cuts short. -/
def ofList (synapses : List (Synapse α)) : SynapseStream α := ⟨synapses, none⟩

/-- The synapses at the positions of a list, up to the first that cannot be formed. -/
def deliver (form : Nat → Except Fault (Synapse α)) : List Nat → SynapseStream α
  | [] => ⟨[], none⟩
  | i :: rest =>
    match form i with
    | .error fault => ⟨[], some fault⟩
    | .ok synapse =>
      let stream := deliver form rest
      ⟨synapse :: stream.delivered, stream.cut⟩

/-- The value of the unit at a position, or the fault that there is none. -/
def unitAt {γ : Type} (items : Array γ) (i : Nat) : Except Fault γ :=
  match items[i]? with
  | some item => .ok item
  | none => .error .indexOutside

variable [Scalar α] [Precision α β]

/-- The synapses that lead into the unit of a weight row from the units of the source
layer, given the outputs there. -/
def incoming (weights : Tensor β) (outputs : Array α) (row : Nat) :
    Except Fault (SynapseStream α) := do
  let columns ← weights.columns
  return deliver (fun i => do
    let value ← unitAt outputs i
    let weight ← weights.entry row i
    return ⟨i, value, Precision.widen weight, 0⟩) (List.range columns)

/-- The synapses that lead back to the unit of a weight column from the units of the
next layer, given the deltas there without the bias unit's. -/
def returning (weights previous : Tensor β) (deltas : Array α) (column : Nat) :
    Except Fault (SynapseStream α) := do
  let rows ← weights.rows
  return deliver (fun i => do
    let value ← unitAt deltas i
    let weight ← weights.entry i column
    let update ← previous.entry i column
    return ⟨i, value, Precision.widen weight, Precision.widen update⟩) (List.range rows)

end SynapseStream

end FeedForward
