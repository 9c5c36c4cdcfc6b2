import FeedForward.Network.Training

/-!
# Training sessions

A session trains one network and counts the batches that it has finished; the count is
the iteration that the neurons' learning rates depend on. The instances of a batch all
see the weights and the last updates from before the batch. Their updates are added in
order, applied once, and kept as the last updates. A batch that fails has not changed
the weights, and it does not count.

Listeners hear of every finished epoch. One that has a hook for epochs is told through
it, any other is called, and one that can do neither is passed over.
-/

namespace FeedForward

/-- A network under training, the number of finished batches, and what listeners wrote
down. -/
structure Session (α β τ : Type) where
  network : Network α β
  iteration : Nat
  log : τ

/-- What is done when an epoch has ended with a loss. -/
abbrev EpochHook (α τ : Type) := Nat → α → Step τ Unit

/-- Something that may hear of epochs. -/
structure Listener (α τ : Type) where
  hook : Option (EpochHook α τ)
  call : Option (EpochHook α τ)

namespace Listener

variable {α τ : Type}

/-- A listener with a hook for epochs. -/
def ofHook (hook : EpochHook α τ) : Listener α τ := ⟨some hook, none⟩

/-- Tells one listener that an epoch has ended. -/
def notify (listener : Listener α τ) (epoch : Nat) (loss : α) : Step τ Unit :=
  match listener.hook, listener.call with
  | some hook, _ => hook epoch loss
  | none, some call => call epoch loss
  | none, none => return ()

/-- Tells listeners one after the other. -/
def notifyAll : List (Listener α τ) → Nat → α → Step τ Unit
  | [], _, _ => return ()
  | listener :: rest, epoch, loss => do
    listener.notify epoch loss
    notifyAll rest epoch loss

end Listener

namespace Session

variable {α β τ γ : Type}

/-- A step on the network. -/
def onNetwork (act : Step (Network α β) γ) : Step (Session α β τ) γ :=
  fun session => Step.mapState (fun network => { session with network }) (act session.network)

/-- A step on what listeners wrote down. -/
def onLog (act : Step τ γ) : Step (Session α β τ) γ :=
  fun session => Step.mapState (fun log => { session with log }) (act session.log)

variable [Scalar α] [Add β] [Zero β] [Precision α β]

/-- The errors and the summed updates of the instances of a batch behind the first one,
given the last updates from before the batch and the sum so far. -/
def trainOthers (iteration : Nat) (previous : List (Tensor β)) :
    List (Instance α) → List (Update α β) → Step (Network α β) (List α × List (Update α β))
  | [], merged => return ([], merged)
  | x :: rest, merged => do
    modify fun net => { net with previous }
    let updates ← Network.trainByInstance x iteration
    let error := (← get).trainingError
    match Network.mergeUpdates (updates.map .stored) merged with
    | .error fault _ => throw fault
    | .ok () merged =>
      let (errors, merged) ← trainOthers iteration previous rest merged
      return (error :: errors, merged)

/-- Updates as stored numbers. -/
def storedUpdates (updates : List (Update α β)) : List (Tensor β) :=
  updates.map fun
    | .stored matrix => matrix
    | .wide matrix => matrix.map Precision.narrow

/-- Trains on the instances of a batch and gives the error of each. -/
def trainBatch : List (Instance α) → Step (Session α β τ) (List α)
  | [] => return []
  | x :: rest => do
    let iteration := (← get).iteration
    let errors ← onNetwork do
      let previous := (← get).previous
      let updates ← Network.trainByInstance x iteration
      let error := (← get).trainingError
      let (errors, merged) ← trainOthers iteration previous rest (updates.map .stored)
      Network.updateWeights merged
      modify fun net => { net with previous := storedUpdates merged }
      return error :: errors
    modify fun session => { session with iteration := iteration + 1 }
    return errors

/-- Trains on batches one after the other and gives the error of each instance. -/
def trainBatches : List (List (Instance α)) → Step (Session α β τ) (List α)
  | [] => return []
  | batch :: rest => do
    let errors ← trainBatch batch
    return errors ++ (← trainBatches rest)

end Session

end FeedForward
