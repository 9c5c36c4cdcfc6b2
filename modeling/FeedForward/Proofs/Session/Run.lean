import FeedForward.Proofs.Session.Epochs

/-!
# Runs train every instance

A run is its epochs with training on, after which training is off again. It trains every instance
once in each epoch, its count of steps is the number of batches that were trained, and so is what
the iteration of the session grows by, so the next run goes on from there. A run on instances in
which the network finds nothing wrong succeeds if no listener fails and the iterations stay below
the greatest number.
-/

namespace FeedForward.Session

variable {α β τ : Type} [Scalar α] [Add β] [Zero β] [Precision α β]

/-! ## Runs that succeed -/

/-- A network can be trained on some instances: it is complete and well-formed, and it finds nothing
wrong with any of them. -/
structure CanTrain (net : Network α β) (instances : List (Instance α)) : Prop where
  wellFormed : net.WellFormed
  complete : net.outputLayer.isSome
  transformer : Network.KeepsCount net.transformer
  valid : ∀ given ∈ instances, ∃ checked, net.checkInstance given = .ok checked

omit [Add β] [Zero β] [Precision α β] in
theorem CanTrain.switched {net : Network α β} {instances : List (Instance α)}
    (hnet : CanTrain net instances) (training : Bool) :
    CanTrain (Step.after (Network.setTraining training) net) instances :=
  { hnet with wellFormed := hnet.wellFormed.after_setTraining training }

omit [Add β] [Zero β] [Precision α β] in
/-- What a batch exchanges in a network leaves it well-formed. -/
theorem wellFormed_exchanged {net : Network α β} (hnet : net.WellFormed)
    (hcomplete : net.outputLayer.isSome) {source : Generator} {trainingError : α}
    {weights previous : List (Tensor β)} {arena : Arena α}
    (hweights : weights.map Tensor.shape = net.weights.map Tensor.shape)
    (hprevious : previous.map Tensor.shape = net.weights.map Tensor.shape)
    (harena : Network.Resembles net.units arena) :
    { net with
      source, trainingError, weights, previous
      arena := some arena : Network α β }.WellFormed :=
  { hnet.exchange hweights hprevious with
    arena_complete := fun _ => hcomplete
    arena_fits := fun other hother => by
      cases hother
      exact (hnet.fits_units.of_fresh harena.fresh_eq).of_layers rfl rfl rfl }

/-- A batch succeeds and leaves a network that can be trained again. -/
theorem exists_trainBatch {instances batch : List (Instance α)} {s : Session α β τ}
    (hnet : CanTrain s.network instances) (hbatch : ∀ given ∈ batch, given ∈ instances)
    (hmore : batch ≠ []) (hfits : Scalar.fits (α := α) s.iteration = true) :
    ∃ errors after, trainBatch batch s = .ok errors after ∧ CanTrain after.network instances := by
  obtain ⟨last, houtput⟩ := Option.isSome_iff_exists.mp hnet.complete
  have hvalid : ∀ given ∈ batch, ∃ checked, s.network.checkInstance given = .ok checked :=
    fun given hgiven => hnet.valid given (hbatch given hgiven)
  obtain ⟨outcomes, _, arena, _, hall, hagain, hrun⟩ := trainBatch_alike hnet.wellFormed houtput
    hnet.transformer hfits hmore hvalid (.refl _) s.log
  exact ⟨_, _, hrun, wellFormed_exchanged hnet.wellFormed hnet.complete (shapes_added hall) hall
    hagain, hnet.complete, hnet.transformer, hnet.valid⟩

theorem exists_trainBatches {instances : List (Instance α)} {parts : List (List (Instance α))}
    (hparts : ∀ part ∈ parts, part ≠ [] ∧ ∀ given ∈ part, given ∈ instances) {s : Session α β τ}
    (hnet : CanTrain s.network instances)
    (hfits : ∀ k < parts.length, Scalar.fits (α := α) (s.iteration + k) = true) :
    ∃ errors after, trainBatches parts s = .ok errors after ∧
      CanTrain after.network instances := by
  induction parts generalizing s with
  | nil => exact ⟨[], s, rfl, hnet⟩
  | cons part parts ih =>
      obtain ⟨hmore, hpart⟩ := hparts part List.mem_cons_self
      obtain ⟨first, middle, hfirst, hmiddle⟩ :=
        exists_trainBatch hnet hpart hmore (hfits 0 (by simp))
      obtain ⟨_, hiteration, _⟩ := happens_trainBatch [] hmore hfirst
      obtain ⟨others, after, hothers, hafter⟩ :=
        ih (fun other hother => hparts other (List.mem_cons_of_mem part hother)) hmiddle
          fun k hk => by
            rw [hiteration, Nat.add_assoc, Nat.add_comm 1 k]
            exact hfits (k + 1) (by simpa using hk)
      refine ⟨first ++ others, after, ?_, hafter⟩
      simp only [trainBatches, Step.bind_run, hfirst, hothers, Step.pure_run]

/-- A listener that hears of every epoch without a fault. -/
def Attentive (listener : Listener α τ) : Prop :=
  ∀ epoch loss log, ∃ log', listener.Hears epoch loss log (.ok () log')

omit [Scalar α] in
theorem exists_told {listeners : List (Listener α τ)}
    (hlisteners : ∀ listener ∈ listeners, Attentive listener) (epoch : Nat) (loss : α) (log : τ) :
    ∃ log', Listener.Told epoch loss listeners log (.ok () log') := by
  induction listeners generalizing log with
  | nil => exact ⟨log, .nil log⟩
  | cons listener listeners ih =>
      obtain ⟨middle, hfirst⟩ := hlisteners listener List.mem_cons_self epoch loss log
      obtain ⟨log', hrest⟩ :=
        ih (fun other hother => hlisteners other (List.mem_cons_of_mem listener hother)) middle
      exact ⟨log', .cons hfirst hrest⟩

section

variable {plan : RunPlan} (hsize : 0 < plan.batchSize.toNat) {listeners : List (Listener α τ)}
  (hlisteners : ∀ listener ∈ listeners, Attentive listener) {instances : List (Instance α)}

include hsize hlisteners

theorem exists_runEpoch {s : Session α β τ} (hnet : CanTrain s.network instances)
    (hfits : ∀ k < batchCount plan instances,
      Scalar.fits (α := α) (s.iteration + k) = true) (epoch : Nat) (progress : Progress α) :
    ∃ progress' after,
      runEpoch plan listeners instances.toArray epoch progress s = .ok progress' after ∧
      CanTrain after.network instances := by
  obtain ⟨hperm, -⟩ := perm_epochOrder plan instances.length progress.source
  simp only [runEpoch, List.size_toArray, List.getElem?_toArray]
  generalize (epochOrder plan instances.length progress.source).1 = order at hperm
  obtain ⟨-, hcount⟩ := map_some_picked hperm
  have hparts : ∀ part ∈ FeedForward.batches plan.batchSize.toNat
      (order.filterMap (instances[·]?)), part ≠ [] ∧ ∀ given ∈ part, given ∈ instances := by
    refine fun part hpart => ⟨?_, fun given hgiven => ?_⟩
    · rintro rfl
      exact Nat.not_succ_le_zero 0 (length_of_mem_batches hsize _ hpart).1
    · have hmem : given ∈ order.filterMap (instances[·]?) := by
        rw [← flatten_batches hsize (order.filterMap (instances[·]?))]
        exact List.mem_flatten_of_mem hpart hgiven
      obtain ⟨i, -, hi⟩ := List.mem_filterMap.mp hmem
      exact List.mem_of_getElem? hi
  obtain ⟨errors, trained, htrained, hafter⟩ := exists_trainBatches hparts hnet fun k hk =>
    hfits k (by rwa [length_batches hsize, hcount] at hk)
  obtain ⟨log, htold⟩ := exists_told hlisteners epoch (mean errors) trained.log
  simp only [Step.bind_run, htrained, onLog, Listener.told_iff.mp htold, Step.mapState]
  split <;> exact ⟨_, _, rfl, hafter⟩

theorem exists_runEpochs {left : Nat} {s : Session α β τ} (hnet : CanTrain s.network instances)
    (hfits : ∀ k < left * batchCount plan instances,
      Scalar.fits (α := α) (s.iteration + k) = true) (epoch : Nat) (progress : Progress α) :
    ∃ progress' after,
      runEpochs plan listeners instances.toArray left epoch progress s = .ok progress' after := by
  induction left generalizing s epoch progress with
  | zero => exact ⟨progress, s, rfl⟩
  | succ left ih =>
      rw [Nat.succ_mul] at hfits
      obtain ⟨middle, t, hfirst, ht⟩ := exists_runEpoch hsize hlisteners hnet
        (fun k hk => hfits k (by omega)) epoch progress
      obtain ⟨batches, hcovers, -, hiteration, -, -⟩ := happens_runEpoch hsize hfirst
      rw [hcovers.count_eq] at hiteration
      obtain ⟨progress', after, hrest⟩ := ih ht
        (fun k hk => by
          rw [hiteration, Nat.add_assoc]
          exact hfits _ (by omega)) (epoch + 1) middle
      simp only [runEpochs, Step.bind_run, hfirst]
      split
      · exact ⟨_, _, rfl⟩
      · exact ⟨_, _, hrest⟩

end

/-! ## Diaries -/

/-- A listener that writes every epoch and its loss down. -/
def diary : Listener α (List (Nat × α)) := .ofHook fun epoch loss => modify ((epoch, loss) :: ·)

omit [Scalar α] in
theorem notifyAll_diary (epoch : Nat) (loss : α) (log : List (Nat × α)) :
    Listener.notifyAll [diary] epoch loss log = .ok () ((epoch, loss) :: log) := rfl

omit [Scalar α] in
theorem attentive_diary : ∀ listener ∈ [diary (α := α)], Attentive listener :=
  List.forall_mem_singleton.mpr fun _ _ _ => ⟨_, .hook rfl rfl⟩

/-- A diary has the reports among the events of a run. -/
theorem log_of_happens {events : List (Event α)} {s after : Session α β (List (Nat × α))}
    (hevents : Happens [diary] events s after) :
    after.log = (reports events).reverse ++ s.log := by
  induction hevents with
  | nil => rfl
  | batch _ _ _ ih => exact ih
  | @report s _ epoch loss _ _ hreport _ ih =>
      rw [Listener.told_iff, notifyAll_diary] at hreport
      cases hreport
      rw [ih, reports, List.reverse_cons, List.append_assoc]
      rfl

theorem log_of_journal {iteration epoch : Nat} {epochs : List (List (List (Instance α × α)))}
    {s after : Session α β (List (Nat × α))}
    (hevents : Happens [diary] (journal iteration epoch epochs) s after) :
    after.log = (numbered epoch (epochs.map lossOf)).reverse ++ s.log := by
  rw [log_of_happens hevents, reports_journal]

/-! ## Runs -/

/-- The session with training on or off. -/
def switched (training : Bool) (s : Session α β τ) : Session α β τ :=
  { s with network := Step.after (Network.setTraining training) s.network }

omit [Scalar α] [Add β] [Zero β] [Precision α β] in
/-- The flag is that of the network and of all neurons there are. -/
theorem training_switched (training : Bool) (s : Session α β τ) :
    (switched training s).network.training = training ∧
      ∀ arena, (switched training s).network.arena = some arena →
        ∀ layer ∈ arena, ∀ n ∈ layer, n.training = training := by
  refine ⟨rfl, fun arena harena layer hlayer n hn => ?_⟩
  obtain ⟨old, -, rfl⟩ := Option.map_eq_some_iff.mp harena
  obtain ⟨oldLayer, -, rfl⟩ := List.mem_map.mp hlayer
  obtain ⟨m, -, rfl⟩ := List.mem_map.mp hn
  rfl

omit [Scalar α] [Add β] [Zero β] [Precision α β] in
theorem whileTraining_run {γ : Type} (act : Step (Session α β τ) γ) (s : Session α β τ) :
    whileTraining act s = Step.mapState (switched false) (act (switched true s)) := rfl

/-- A run whose plan passes is its epochs with training on, and training is off behind them. -/
theorem run_of_check {plan : RunPlan} {instances : List (Instance α)} {source : Generator}
    (hcheck : plan.check instances = .ok source) (listeners : List (Listener α τ))
    (s : Session α β τ) :
    run plan listeners instances s =
      match runEpochs plan listeners instances.toArray plan.epochs.toNat 1
        ⟨source, 0, 0, Scalar.infinity, 0⟩ (switched true s) with
      | .ok progress ended => .ok ⟨progress.steps, progress.loss⟩ (switched false ended)
      | .error fault ended => .error fault (switched false ended) := by
  simp only [run, Step.bind_run, Step.lift_run, hcheck, whileTraining_run]
  cases runEpochs plan listeners instances.toArray plan.epochs.toNat 1
    ⟨source, 0, 0, Scalar.infinity, 0⟩ (switched true s) <;> rfl

theorem run_eq_ok {plan : RunPlan} {listeners : List (Listener α τ)} {instances : List (Instance α)}
    {s after : Session α β τ} {summary : RunSummary α}
    (hrun : run plan listeners instances s = .ok summary after) :
    ∃ source progress ended, plan.check instances = .ok source ∧
      runEpochs plan listeners instances.toArray plan.epochs.toNat 1
        ⟨source, 0, 0, Scalar.infinity, 0⟩ (switched true s) = .ok progress ended ∧
      after = switched false ended ∧ summary = ⟨progress.steps, progress.loss⟩ := by
  obtain ⟨source, _, hlift, -⟩ := Step.bind_eq_ok hrun
  obtain ⟨hcheck, -⟩ := Step.lift_eq_ok hlift
  rw [run_of_check hcheck] at hrun
  cases hall : runEpochs plan listeners instances.toArray plan.epochs.toNat 1
      ⟨source, 0, 0, Scalar.infinity, 0⟩ (switched true s) with
  | ok progress ended =>
      rw [hall] at hrun
      cases hrun
      exact ⟨source, progress, ended, hcheck, hall, rfl, rfl⟩
  | error fault ended => rw [hall] at hrun; cases hrun

theorem batchSize_of_check {γ : Type} {plan : RunPlan} {instances : List γ} {source : Generator}
    (hcheck : plan.check instances = .ok source) : 0 < plan.batchSize.toNat := by
  by_contra hsize
  have hsmall : plan.batchSize ≤ 0 := by omega
  simp only [RunPlan.check, hsmall, if_true] at hcheck
  split at hcheck <;> cases hcheck

/-- A run succeeds whose plan passes and whose listeners never fail, on a network that can be
trained. -/
theorem exists_run {plan : RunPlan} {listeners : List (Listener α τ)}
    {instances : List (Instance α)} {s : Session α β τ} {source : Generator}
    (hcheck : plan.check instances = .ok source)
    (hlisteners : ∀ listener ∈ listeners, Attentive listener) (hnet : CanTrain s.network instances)
    (hfits : ∀ k < plan.epochs.toNat * batchCount plan instances,
      Scalar.fits (α := α) (s.iteration + k) = true) :
    ∃ summary after, run plan listeners instances s = .ok summary after := by
  have hswitched : CanTrain (switched true s).network instances := hnet.switched true
  obtain ⟨progress, ended, hepochs⟩ := exists_runEpochs (batchSize_of_check hcheck) hlisteners
    hswitched hfits 1 ⟨source, 0, 0, Scalar.infinity, 0⟩
  rw [run_of_check hcheck, hepochs]
  exact ⟨_, _, rfl⟩

/-- A run that succeeds has trained every instance once in each of its epochs, and everything that
it counts agrees with the batches and the epochs there were. A run that finds nothing wrong with
plan and instances, whose listeners do not fail and whose iterations stay in range, succeeds. -/
theorem run_trains_all (plan : RunPlan) (listeners : List (Listener α τ))
    (instances : List (Instance α)) (session : Session α β τ) :
    (∀ summary after, run plan listeners instances session = .ok summary after →
      ∃ epochs ended, epochs.length ≤ plan.epochs.toNat ∧
        (∀ batches ∈ epochs, Covers plan instances batches) ∧
        Happens listeners (journal session.iteration 1 epochs) (switched true session) ended ∧
        after = switched false ended ∧
        summary.steps = epochs.length * batchCount plan instances ∧
        after.iteration = session.iteration + summary.steps ∧
        summary.loss = (epochs.map lossOf).getLastD 0) ∧
    ((∃ source, plan.check instances = .ok source) → CanTrain session.network instances →
      (∀ listener ∈ listeners, Attentive listener) →
      (∀ s < plan.epochs.toNat * batchCount plan instances,
        Scalar.fits (α := α) (session.iteration + s) = true) →
      ∃ summary after, run plan listeners instances session = .ok summary after) := by
  constructor
  · intro summary after hrun
    obtain ⟨source, progress, ended, hcheck, hepochs, rfl, rfl⟩ := run_eq_ok hrun
    have hsize := batchSize_of_check hcheck
    obtain ⟨epochs, hleft, hcovers, hevents, hiteration, hsteps, hloss⟩ :=
      happens_runEpochs hsize hepochs
    rw [Nat.zero_add] at hsteps
    refine ⟨epochs, ended, hleft, hcovers, hevents, rfl, hsteps, ?_, hloss⟩
    rw [hsteps]
    exact hiteration
  · rintro ⟨source, hcheck⟩ hnet hlisteners hfits
    exact exists_run hcheck hlisteners hnet hfits

/-- Shuffled epochs of three instances in batches of two, with early stopping and a listener. -/
theorem run_trains_all_practice :
    let plan : RunPlan := ⟨2, 7, 2, true, true, some 1⟩
    let instances := [Network.exercise, Network.exercise, Network.exercise]
    let session : Session Double Single (List (Nat × Double)) := ⟨Network.practice, 5, []⟩
    (∃ source, plan.check instances = .ok source) ∧ CanTrain session.network instances ∧
      (∀ listener ∈ [diary (α := Double)], Attentive listener) ∧
      (∀ s < 4, Scalar.fits (α := Double) (5 + s) = true) ∧
      ∃ summary after epochs ended, run plan [diary] instances session = .ok summary after ∧
        epochs.length ≤ 2 ∧ (∀ batches ∈ epochs, Covers plan instances batches) ∧
        Happens [diary] (journal 5 1 epochs) (switched true session) ended ∧
        after.log = (numbered 1 (epochs.map lossOf)).reverse ∧
        after = switched false ended ∧ summary.steps = epochs.length * 2 ∧
        after.iteration = 5 + summary.steps ∧
        summary.loss = (epochs.map lossOf).getLastD 0 := by
  intro plan instances session
  have hplan : ∃ source, plan.check instances = .ok source := ⟨_, rfl⟩
  have hnet : CanTrain session.network instances := by
    refine ⟨Network.practice_sound.wellFormed, rfl, fun _ => rfl, fun given hgiven => ?_⟩
    obtain rfl : given = Network.exercise := by simpa [instances] using hgiven
    obtain ⟨label, hcheck, _⟩ := Network.trainable_exercise.checkInstance
      Network.practice_sound.wellFormed rfl (fun _ => rfl)
    exact ⟨_, hcheck⟩
  have hlisteners : ∀ listener ∈ [diary (α := Double)], Attentive listener := attentive_diary
  have hfits : ∀ s < 4, Scalar.fits (α := Double) (5 + s) = true := by decide
  have hcount : batchCount plan instances = 2 := by decide
  obtain ⟨hrun, hsucceeds⟩ := run_trains_all plan [diary] instances session
  rw [hcount] at hrun hsucceeds
  obtain ⟨summary, after, hsuccess⟩ := hsucceeds hplan hnet hlisteners hfits
  obtain ⟨epochs, ended, hleft, hcovers, hevents, rfl, hcounts⟩ := hrun summary after hsuccess
  have hlog : ended.log = (numbered 1 (epochs.map lossOf)).reverse :=
    (log_of_journal hevents).trans (List.append_nil _)
  exact ⟨hplan, hnet, hlisteners, hfits, summary, _, epochs, ended, hsuccess, hleft, hcovers,
    hevents, hlog, rfl, hcounts⟩

end FeedForward.Session
