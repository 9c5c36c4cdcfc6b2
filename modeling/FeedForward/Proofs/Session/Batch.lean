import Mathlib.Data.List.Forall2
import FeedForward.Proofs.Dense.Leftovers
import FeedForward.Session

/-!
# A batch is a sum of independent updates

The instances of a batch all see the network from before the batch, of which nothing has moved on
but the random source. Their updates are added in order, the sum is added to the weights and kept as
the last updates. So no update depends on those of another instance, although each training pass
overwrites the last updates and the state of all neurons. Nothing is said about batches with an
instance that the checks refuse.
-/

namespace FeedForward

namespace Network

variable {α β : Type} [Scalar α]

/-- The random source after the masks of so many passes have been drawn from it. -/
def sourceAfter (net : Network α β) : Nat → Generator
  | 0 => net.source
  | passes + 1 => { net with source := net.sourceAfter passes : Network α β }.drawn.2

/-- The network with its random source moved on by so many passes, and nothing else changed. -/
def snapshot (net : Network α β) (passes : Nat) : Network α β :=
  { net with source := net.sourceAfter passes }

theorem WellFormed.snapshot {net : Network α β} (hnet : net.WellFormed) (passes : Nat) :
    (net.snapshot passes).WellFormed :=
  { hnet with
    arena_fits := fun arena harena => (hnet.arena_fits arena harena).of_layers rfl rfl rfl }

variable [Precision α β] [Add β] [Zero β]

/-- What training on an instance gives after so many passes: the updates and the error. -/
def Gives (net : Network α β) (iteration : Nat) (given : Instance α × Nat)
    (outcome : List (Tensor β) × α) : Prop :=
  ∃ after, trainByInstance given.1 iteration (net.snapshot given.2) = .ok outcome.1 after ∧
    after.trainingError = outcome.2

/-- Lists of matrices added from left to right, matrix by matrix. -/
def summed : List (List (Tensor β)) → List (Tensor β)
  | [] => []
  | first :: rest => rest.foldl (List.zipWith Tensor.added) first

end Network

namespace Session

open Network

variable {α β τ : Type} [Scalar α] [Precision α β] [Add β] [Zero β]

omit [Scalar α] [Precision α β] in
theorem shapes_added {matrices updates : List (Tensor β)}
    (hshapes : updates.map Tensor.shape = matrices.map Tensor.shape) :
    (List.zipWith Tensor.added matrices updates).map Tensor.shape = matrices.map Tensor.shape :=
  map_zipWith_of_left (fun _ _ => rfl) (by simpa using congrArg List.length hshapes)

section

variable {net : Network α β} (hnet : net.WellFormed) {last : Nat}
  (houtput : net.outputLayer = some last) (htransformer : KeepsCount net.transformer)
  {iteration : Nat} (hfits : Scalar.fits (α := α) iteration = true)

include hnet houtput htransformer hfits

/-- One instance after so many passes: whatever the passes before have left, its updates and its
error are those of the network from before the batch. -/
theorem trainByInstance_after (passes : Nat) {given : Instance α}
    (hcheck : ∃ checked, net.checkInstance given = .ok checked) {other : Network α β}
    (halike : Alike (net.snapshot passes) other) :
    ∃ outcome arena, net.Gives iteration (given, passes) outcome ∧
      outcome.1.map Tensor.shape = net.weights.map Tensor.shape ∧
      trainByInstance given iteration other = .ok outcome.1
        { net with
          source := net.sourceAfter (passes + 1)
          trainingError := outcome.2
          previous := outcome.1
          arena := some arena } ∧
      Resembles net.units arena := by
  have hround : Scalar.fits (α := α) (iteration : Int).toNat = true := hfits
  obtain ⟨updates, error, _, arena, hshapes, hrun, hafter, hkept⟩ :=
    trainByInstance_alike (hnet.snapshot passes) houtput htransformer halike hcheck hround
  exact ⟨(updates, error), arena, ⟨_, hrun, rfl⟩, hshapes, hafter, hkept⟩

/-- The instances behind the first one. -/
theorem trainOthers_run {rest : List (Instance α)}
    (hvalid : ∀ given ∈ rest, ∃ checked, net.checkInstance given = .ok checked) (passes : Nat)
    {merged : List (Tensor β)} (hmerged : merged.map Tensor.shape = net.weights.map Tensor.shape)
    (trainingError : α) (previous : List (Tensor β)) {arena : Arena α}
    (hresembles : Resembles net.units arena) :
    ∃ outcomes previous' arena', List.Forall₂ (net.Gives iteration) (rest.zipIdx passes) outcomes ∧
      ((outcomes.map Prod.fst).foldl (List.zipWith Tensor.added) merged).map Tensor.shape =
        net.weights.map Tensor.shape ∧
      trainOthers iteration net.previous rest (merged.map .stored)
        { net with
          source := net.sourceAfter passes, trainingError, previous
          arena := some arena } =
        .ok (outcomes.map Prod.snd,
            ((outcomes.map Prod.fst).foldl (List.zipWith Tensor.added) merged).map .stored)
          { net with
            source := net.sourceAfter (passes + rest.length)
            trainingError := (outcomes.map Prod.snd).getLastD trainingError
            previous := previous'
            arena := some arena' } ∧
      Resembles net.units arena' := by
  -- Before each pass the last updates are those from before the batch again, the neurons resemble
  -- those from before the batch, and all matrices have the extents of the weights.
  induction rest generalizing passes merged trainingError previous arena with
  | nil => exact ⟨[], previous, arena, .nil, hmerged, rfl, hresembles⟩
  | cons given rest ih =>
      have halike : Alike (net.snapshot passes)
          { net with source := net.sourceAfter passes, trainingError, arena := some arena } :=
        ⟨⟨trainingError, some arena, rfl⟩, hresembles⟩
      obtain ⟨outcome, arena', hgives, hshapes, hrun, hkept⟩ := trainByInstance_after hnet houtput
        htransformer hfits passes (hvalid given List.mem_cons_self) halike
      have hsum : (List.zipWith Tensor.added merged outcome.1).map Tensor.shape =
          net.weights.map Tensor.shape := (shapes_added (hshapes.trans hmerged.symm)).trans hmerged
      obtain ⟨outcomes, previous', arena'', houtcomes, hall, hrest, hlast⟩ :=
        ih (fun other hother => hvalid other (List.mem_cons_of_mem given hother)) (passes + 1) hsum
          outcome.2 outcome.1 hkept
      refine ⟨outcome :: outcomes, previous', arena'', .cons hgives houtcomes, hall, ?_, hlast⟩
      have hmerge := mergeUpdates_run (α := α) (hshapes.trans hmerged.symm)
      simp only [trainOthers, Step.bind_run, Step.modify_run, hrun, Step.get_run, hmerge]
      rw [hrest, List.length_cons, ← Nat.add_assoc, Nat.add_right_comm, List.map_cons,
        List.getLastD_cons]
      rfl

end

omit [Scalar α] [Add β] [Zero β] in
theorem storedUpdates_stored (updates : List (Tensor β)) :
    storedUpdates (updates.map (Update.stored (α := α))) = updates := by
  rw [storedUpdates, List.map_map]
  exact List.map_id updates

/-- Training on a batch after other passes: whatever they have left, the batch does what it does to
the network from before them. -/
theorem trainBatch_alike {net : Network α β} (hnet : net.WellFormed) {last : Nat}
    (houtput : net.outputLayer = some last) (htransformer : KeepsCount net.transformer)
    {iteration : Nat} (hfits : Scalar.fits (α := α) iteration = true) {batch : List (Instance α)}
    (hbatch : batch ≠ [])
    (hvalid : ∀ given ∈ batch, ∃ checked, net.checkInstance given = .ok checked)
    {other : Network α β} (halike : Alike net other) (log : τ) :
    ∃ outcomes trainingError arena,
      List.Forall₂ (net.Gives iteration) batch.zipIdx outcomes ∧
      (summed (outcomes.map Prod.fst)).map Tensor.shape = net.weights.map Tensor.shape ∧
      Resembles net.units arena ∧
      trainBatch batch ⟨other, iteration, log⟩ = .ok (outcomes.map Prod.snd)
        { network := { net with
            source := net.sourceAfter batch.length, trainingError
            weights := List.zipWith Tensor.added net.weights (summed (outcomes.map Prod.fst))
            previous := summed (outcomes.map Prod.fst)
            arena := some arena }
          iteration := iteration + 1
          log } := by
  obtain ⟨given, rest, rfl⟩ := List.exists_cons_of_ne_nil hbatch
  obtain ⟨outcome, arena, hgives, hshapes, hrun, hkept⟩ := trainByInstance_after hnet houtput
    htransformer hfits 0 (hvalid given List.mem_cons_self) halike
  obtain ⟨outcomes, previous, arena', houtcomes, hall, hrest, hagain⟩ := trainOthers_run hnet
    houtput htransformer hfits (fun other hother => hvalid other (List.mem_cons_of_mem given hother))
    1 hshapes outcome.2 outcome.1 hkept
  refine ⟨outcome :: outcomes, (outcomes.map Prod.snd).getLastD outcome.2, arena',
    .cons hgives houtcomes, hall, hagain, ?_⟩
  have hadd (trained : Network α β) (hweights : trained.weights = net.weights) :=
    updateWeights_run (α := α) hall hweights
  have hprevious : other.previous = net.previous := by
    obtain ⟨_, _, rfl⟩ := halike.same
    rfl
  simp only [trainBatch, onNetwork, Step.bind_run, Step.get_run, hrun, hprevious]
  rw [hrest]
  simp only [hadd, Step.modify_run, Step.mapState, Step.pure_run, storedUpdates_stored,
    List.map_cons, summed, List.length_cons, Nat.add_comm 1]

/-- Training on a batch adds the updates of all instances to the weights, each as the network from
before the batch gives it with the random draws of the instances in front, and keeps their sum as
the last updates. -/
theorem trainBatch_eq_sum {session : Session α β τ} (hnet : session.network.WellFormed) {last : Nat}
    (houtput : session.network.outputLayer = some last)
    (htransformer : KeepsCount session.network.transformer)
    (hfits : Scalar.fits (α := α) session.iteration = true) {batch : List (Instance α)}
    (hbatch : batch ≠ [])
    (hvalid : ∀ given ∈ batch, ∃ checked, session.network.checkInstance given = .ok checked) :
    ∃ outcomes arena,
      List.Forall₂ (session.network.Gives session.iteration) batch.zipIdx outcomes ∧
      trainBatch batch session = .ok (outcomes.map Prod.snd)
        { session with
          network := { session.network with
            source := session.network.sourceAfter batch.length
            trainingError := (outcomes.map Prod.snd).getLastD session.network.trainingError
            weights := List.zipWith Tensor.added session.network.weights
              (summed (outcomes.map Prod.fst))
            previous := summed (outcomes.map Prod.fst)
            arena := some arena }
          iteration := session.iteration + 1 } := by
  obtain ⟨given, rest, rfl⟩ := List.exists_cons_of_ne_nil hbatch
  obtain ⟨net, iteration, log⟩ := session
  dsimp only at hnet houtput htransformer hfits hvalid ⊢
  have halike : Alike (net.snapshot 0) net := ⟨⟨net.trainingError, net.arena, rfl⟩, .refl _⟩
  obtain ⟨outcome, arena, hgives, hshapes, hrun, hkept⟩ := trainByInstance_after hnet houtput
    htransformer hfits 0 (hvalid given List.mem_cons_self) halike
  obtain ⟨outcomes, previous, arena', houtcomes, hall, hrest, _⟩ := trainOthers_run hnet houtput
    htransformer hfits (fun other hother => hvalid other (List.mem_cons_of_mem given hother)) 1
    hshapes outcome.2 outcome.1 hkept
  refine ⟨outcome :: outcomes, arena', .cons hgives houtcomes, ?_⟩
  have hadd (trained : Network α β) (hweights : trained.weights = net.weights) :=
    updateWeights_run (α := α) hall hweights
  simp only [trainBatch, onNetwork, Step.bind_run, Step.get_run, hrun]
  rw [hrest]
  simp only [hadd, Step.modify_run, Step.mapState, Step.pure_run, storedUpdates_stored,
    List.map_cons, List.getLastD_cons, summed, List.length_cons, Nat.add_comm 1]

/-- A batch with the same instance twice, under random drops. -/
theorem trainBatch_eq_sum_practice :
    let session : Session Double Single Unit := ⟨practice, 3, ()⟩
    practice.WellFormed ∧ practice.outputLayer = some 2 ∧ KeepsCount practice.transformer ∧
      Scalar.fits (α := Double) 3 = true ∧
      (∀ given ∈ [exercise, exercise], ∃ checked, practice.checkInstance given = .ok checked) ∧
      ∃ outcomes arena,
        List.Forall₂ (practice.Gives 3) [(exercise, 0), (exercise, 1)] outcomes ∧
        trainBatch [exercise, exercise] session = .ok (outcomes.map Prod.snd)
          { session with
            network := { practice with
              source := practice.sourceAfter 2
              trainingError := (outcomes.map Prod.snd).getLastD practice.trainingError
              weights := List.zipWith Tensor.added practice.weights
                (summed (outcomes.map Prod.fst))
              previous := summed (outcomes.map Prod.fst)
              arena := some arena }
            iteration := 4 } := by
  intro session
  have hnet := practice_sound.wellFormed
  have houtput : practice.outputLayer = some 2 := rfl
  have htransformer : KeepsCount practice.transformer := fun _ => rfl
  have hfits : Scalar.fits (α := Double) 3 = true := rfl
  have hvalid : ∀ given ∈ [exercise, exercise],
      ∃ checked, practice.checkInstance given = .ok checked := by
    intro given hgiven
    obtain rfl : given = exercise := by simpa using hgiven
    obtain ⟨label, hcheck, _⟩ := trainable_exercise.checkInstance hnet houtput htransformer
    exact ⟨_, hcheck⟩
  refine ⟨hnet, houtput, htransformer, hfits, hvalid, ?_⟩
  have hsession : session.network.WellFormed := hnet
  exact trainBatch_eq_sum hsession houtput htransformer hfits (List.cons_ne_nil _ _) hvalid

end Session

end FeedForward
