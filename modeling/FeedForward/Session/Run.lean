import FeedForward.ModelFile
import FeedForward.Session

/-!
# Training runs

A run goes over all instances once an epoch, in their order or shuffled by a source with
the run's own seed, cut into batches of which only the last may be smaller. The loss of
an epoch is the mean error of its instances. A run with patience stops when that many
epochs in a row have not improved on the best loss by more than a small margin.

Training is on for the network exactly while the run lasts, however it ends.

A run may end with a checkpoint: the network as a model file, in place of what the checkpoint held.
-/

namespace FeedForward

/-- How a run is to be made. No patience or a patience of zero means that it never stops
early. -/
structure RunPlan where
  epochs : Int
  seed : Int
  batchSize : Int
  shuffle : Bool
  determinism : Bool
  patience : Option Int

namespace RunPlan

/-- A run unless something else is said. -/
def default (epochs seed : Int) : RunPlan := ⟨epochs, seed, 1, true, true, none⟩

/-- Whether a run stops after a number of epochs in a row without improvement. -/
def stopsAfter (plan : RunPlan) (stale : Nat) : Bool :=
  match plan.patience with
  | some patience => patience ≠ 0 && patience ≤ stale
  | none => false

/-- Whether a run can be made at all, and its random source. A deterministic run has a
seed of thirty-two bits. -/
def check {γ : Type} (plan : RunPlan) (instances : List γ) : Except Fault Generator := do
  if instances.isEmpty then throw .noInstances
  if plan.batchSize ≤ 0 then throw .batchSize
  if plan.determinism && (plan.seed < 0 || 4294967295 < plan.seed) then throw .seedRange
  Generator.ofSeed (some plan.seed)

end RunPlan

/-- How far a run has come. -/
structure Progress (α : Type) where
  source : Generator
  steps : Nat
  loss : α
  best : α
  stale : Nat

/-- What a run amounts to: the number of batches and the loss of the last epoch. -/
structure RunSummary (α : Type) where
  steps : Nat
  loss : α

/-- A list cut into parts of one size, of which only the last may be smaller. -/
def batches {γ : Type} (size : Nat) (xs : List γ) : List (List γ) :=
  if 0 < size ∧ 0 < xs.length then xs.take size :: batches size (xs.drop size) else []
termination_by xs.length
decreasing_by simp only [List.length_drop]; omega

/-- The mean of some numbers. -/
def mean {α : Type} [Scalar α] (xs : List α) : α := blockedSum xs / Scalar.ofNat xs.length

namespace Session

variable {α β τ : Type} [Scalar α] [Add β] [Zero β] [Precision α β]

/-- By how much an epoch has to improve on the best loss. -/
def improvementMargin : α := 1e-9

/-- The order of the instances in an epoch. -/
def epochOrder (plan : RunPlan) (count : Nat) (source : Generator) : List Nat × Generator :=
  if plan.shuffle then source.permutation count else (List.range count, source)

/-- One epoch: trains on all instances and tells the listeners. -/
def runEpoch (plan : RunPlan) (listeners : List (Listener α τ)) (instances : Array (Instance α))
    (epoch : Nat) (progress : Progress α) : Step (Session α β τ) (Progress α) := do
  let (order, source) := epochOrder plan instances.size progress.source
  let parts := batches plan.batchSize.toNat (order.filterMap fun i => instances[i]?)
  let loss := mean (← trainBatches parts)
  onLog (Listener.notifyAll listeners epoch loss)
  let progress := { progress with source, loss, steps := progress.steps + parts.length }
  if Scalar.lt loss (progress.best - improvementMargin) then
    return { progress with best := loss, stale := 0 }
  else return { progress with stale := progress.stale + 1 }

/-- The epochs that are left, from a given one on. -/
def runEpochs (plan : RunPlan) (listeners : List (Listener α τ)) (instances : Array (Instance α)) :
    Nat → Nat → Progress α → Step (Session α β τ) (Progress α)
  | 0, _, progress => return progress
  | left + 1, epoch, progress => do
    let progress ← runEpoch plan listeners instances epoch progress
    if 0 < progress.stale && plan.stopsAfter progress.stale then return progress
    runEpochs plan listeners instances left (epoch + 1) progress

/-- A step after which training is off, also when it fails. -/
def whileTraining {γ : Type} (act : Step (Session α β τ) γ) : Step (Session α β τ) γ := do
  onNetwork (Network.setTraining true)
  fun session =>
    let off : Session α β τ → Session α β τ := fun session =>
      match onNetwork (Network.setTraining false) session with
      | .ok _ session | .error _ session => session
    Step.mapState off (act session)

/-- Trains the network on some instances. -/
def run (plan : RunPlan) (listeners : List (Listener α τ)) (instances : List (Instance α)) :
    Step (Session α β τ) (RunSummary α) := do
  let source ← plan.check instances
  let progress ← whileTraining <| runEpochs plan listeners instances.toArray plan.epochs.toNat 1
    ⟨source, 0, 0, Scalar.infinity, 0⟩
  return ⟨progress.steps, progress.loss⟩

/-- What a run ends with that leaves a model file in its checkpoint. A model file that has been cut
off leaves the bytes in front of the fault. -/
def saved {γ : Type} (model : Output) (result : γ) (session : Session α β τ) :
    EStateM.Result Fault (Session α β τ × Option (List UInt8)) γ :=
  match model.cut with
  | some fault => .error fault (session, some model.bytes)
  | none => .ok result (session, some model.bytes)

variable [Encoding α] [Encoding β]

/-- Trains the network on some instances and then writes it to a checkpoint, of which the bytes are
given if there is one. A run that fails writes nothing. -/
def runSaving (plan : RunPlan) (listeners : List (Listener α τ)) (instances : List (Instance α)) :
    Step (Session α β τ × Option (List UInt8)) (RunSummary α) := fun (session, checkpoint) =>
  match run plan listeners instances session with
  | .error fault session => .error fault (session, checkpoint)
  | .ok summary session => saved (ModelFile.write session.network) summary session

end Session

end FeedForward
