import FeedForward.Proofs.Lockstep
import FeedForward.Proofs.Session.Run

/-!
# Runs with batches of one instance

A batch of one instance is online training on that instance at the iteration of the session: the
updates that the trainer adds up, applies and writes down as the last updates are those that the
pass has written down already. So a run with batches of one instance and without patience is online
training on the instances of all epochs in turn, at iterations that count on from that of the
session. It leaves the same network, neurons and random source included, and fails where online
training fails. Only a listener that fails can end it before.
-/

namespace FeedForward

/-! ## Online training in turn -/

namespace Network

variable {α β : Type} [Scalar α] [Add β] [Zero β] [Precision α β]

/-- Trains online on one instance and gives the error that the network has then. -/
def trainTurn (x : Instance α) (iteration : Nat) : Step (Network α β) α := do
  let _ ← trainOnline x iteration
  return (← get).trainingError

/-- Trains online on instances in turn, each at the next iteration, and gives the error of each. -/
def trainInTurn : Nat → List (Instance α) → Step (Network α β) (List α)
  | _, [] => return []
  | iteration, x :: rest => do
    let error ← trainTurn x iteration
    let errors ← trainInTurn (iteration + 1) rest
    return error :: errors

/-- Trains online on instances in turn, with training on from the start and off at the end. -/
def trainOnlineInTurn (iteration : Nat) (turns : List (Instance α)) :
    Step (Network α β) (List α) := do
  setTraining true
  let errors ← trainInTurn iteration turns
  setTraining false
  return errors

theorem trainInTurn_append (iteration : Nat) (turns more : List (Instance α)) :
    (trainInTurn iteration (turns ++ more) : Step (Network α β) (List α)) = do
      let errors ← trainInTurn iteration turns
      let others ← trainInTurn (iteration + turns.length) more
      return errors ++ others := by
  induction turns generalizing iteration with
  | nil => simp [trainInTurn]
  | cons x turns ih => simp [trainInTurn, ih, Nat.add_assoc, Nat.add_comm 1]

/-- Further turns go on from where the first ones have come. -/
theorem trainInTurn_append_run {iteration : Nat} {turns : List (Instance α)} {errors : List α}
    {net middle : Network α β} (hfirst : trainInTurn iteration turns net = .ok errors middle)
    (more : List (Instance α)) :
    trainInTurn iteration (turns ++ more) net =
      match trainInTurn (iteration + turns.length) more middle with
      | .ok others last => .ok (errors ++ others) last
      | .error fault last => .error fault last := by
  rw [trainInTurn_append, Step.bind_run, hfirst]
  cases hmore : trainInTurn (iteration + turns.length) more middle <;>
    simp only [Step.bind_run, hmore, Step.pure_run]

theorem trainOnlineInTurn_of_ok {iteration : Nat} {turns : List (Instance α)} {errors : List α}
    {net last : Network α β}
    (hturns : trainInTurn iteration turns (Step.after (setTraining true) net) = .ok errors last) :
    trainOnlineInTurn iteration turns net = .ok errors (Step.after (setTraining false) last) := by
  rw [trainOnlineInTurn, Step.bind_run]
  change (trainInTurn iteration turns >>= _) (Step.after (setTraining true) net) = _
  rw [Step.bind_run, hturns]
  rfl

theorem trainOnlineInTurn_of_error {iteration : Nat} {turns : List (Instance α)} {fault : Fault}
    {net left : Network α β}
    (hturns : trainInTurn iteration turns (Step.after (setTraining true) net) =
      .error fault left) :
    trainOnlineInTurn iteration turns net = .error fault left := by
  rw [trainOnlineInTurn, Step.bind_run]
  change (trainInTurn iteration turns >>= _) (Step.after (setTraining true) net) = _
  rw [Step.bind_run, hturns]

end Network

namespace Session

open Network

variable {α β τ : Type} [Scalar α] [Add β] [Zero β] [Precision α β]

/-! ## Batches of one instance -/

/-- One batch of one instance, whether it is trained or refused. -/
theorem trainBatch_singleton (x : Instance α) (s : Session α β τ) :
    trainBatch [x] s = match trainTurn x s.iteration s.network with
      | .ok error network => .ok [error] ⟨network, s.iteration + 1, s.log⟩
      | .error fault network => .error fault { s with network } := by
  simp only [trainBatch, onNetwork, trainTurn, trainOnline, trainOthers, Step.bind_run,
    Step.get_run, Step.pure_run]
  cases htrain : trainByInstance x s.iteration s.network with
  | error fault trained => rfl
  | ok updates trained =>
      have hprevious := trainByInstance_previous htrain
      cases hupdate : updateWeights (updates.map (Update.stored (α := α))) trained with
      | error fault updated => simp [hupdate, Step.mapState]
      | ok _ updated =>
          -- The weights are all that has changed since the pass wrote its updates down.
          obtain ⟨weights, rfl⟩ := updateWeights_eq_ok hupdate
          subst hprevious
          simp [hupdate, Step.modify_run, Step.mapState, storedUpdates_stored]

/-- Batches of one instance each are online training in turn. -/
theorem agree_trainBatches_inTurn (turns : List (Instance α)) (s : Session α β τ) :
    Step.Agree (fun net t => t = ⟨net, s.iteration + turns.length, s.log⟩)
      (fun net t => t.network = net) (trainInTurn s.iteration turns s.network)
      (trainBatches (turns.map fun x => [x]) s) := by
  induction turns generalizing s with
  | nil => exact .ok rfl
  | cons x turns ih =>
      rw [List.map_cons, trainInTurn, trainBatches, Step.bind_run, Step.bind_run,
        trainBatch_singleton]
      cases trainTurn x s.iteration s.network with
      | error fault net => exact .error rfl
      | ok error net =>
          refine .bind (ih ⟨net, s.iteration + 1, s.log⟩) fun errors last t ht => .ok ?_
          rw [ht, List.length_cons, Nat.add_assoc, Nat.add_comm 1]

omit [Scalar α] in
theorem batches_one (turns : List (Instance α)) : batches 1 turns = turns.map fun x => [x] := by
  induction turns with
  | nil => rw [batches]; simp
  | cons x turns ih => rw [batches]; simp [ih]

/-! ## Epochs -/

/-- The instances of the epochs that are left, in the order of each epoch. -/
def epochTurns (plan : RunPlan) (instances : List (Instance α)) :
    Nat → Generator → List (List (Instance α))
  | 0, _ => []
  | left + 1, source =>
    let drawn := epochOrder plan instances.length source
    drawn.1.filterMap (instances[·]?) :: epochTurns plan instances left drawn.2

omit [Scalar α] in
theorem length_epochTurns (plan : RunPlan) (instances : List (Instance α)) (left : Nat)
    (source : Generator) : (epochTurns plan instances left source).length = left := by
  induction left generalizing source with
  | zero => rfl
  | succ left ih => rw [epochTurns, List.length_cons, ih]

omit [Scalar α] in
theorem perm_of_mem_epochTurns {plan : RunPlan} {instances : List (Instance α)} {left : Nat}
    {source : Generator} {turns : List (Instance α)}
    (hturns : turns ∈ epochTurns plan instances left source) :
    turns.Perm instances ∧ (plan.shuffle = false → turns = instances) := by
  induction left generalizing source with
  | zero => cases hturns
  | succ left ih =>
      rw [epochTurns] at hturns
      rcases List.mem_cons.mp hturns with rfl | hrest
      · obtain ⟨hperm, hsame⟩ := perm_epochOrder plan instances.length source
        refine ⟨perm_picked hperm, fun hlist => ?_⟩
        rw [hsame hlist, picked_range]
      · exact ih hrest

section

variable {plan : RunPlan} (hone : plan.batchSize = 1) {listeners : List (Listener α τ)}
  {instances : List (Instance α)}

include hone

/-- An epoch that succeeds is a turn of every instance. -/
theorem runEpoch_inTurn_ok {epoch : Nat} {progress progress' : Progress α} {s after : Session α β τ}
    (hrun : runEpoch plan listeners instances.toArray epoch progress s = .ok progress' after) :
    ∃ batches : List (List (Instance α × α)),
      batches.flatten.map Prod.fst =
        (epochOrder plan instances.length progress.source).1.filterMap (instances[·]?) ∧
      (∀ batch ∈ batches, batch.length = 1) ∧
      trainInTurn s.iteration (batches.flatten.map Prod.fst) s.network =
        .ok (batches.flatten.map Prod.snd) after.network ∧
      Happens listeners (batchEvents s.iteration batches ++ [.report epoch (lossOf batches)]) s
        after ∧
      after.iteration = s.iteration + batches.length ∧
      after.iteration = s.iteration + (batches.flatten.map Prod.fst).length ∧
      progress'.source = (epochOrder plan instances.length progress.source).2 := by
  have hsize : plan.batchSize.toNat = 1 := by rw [hone]; rfl
  obtain ⟨batches, trained, log, hmap, htrain, hevents, hiteration, htold, rfl, hsource, -⟩ :=
    runEpoch_eq_ok (by omega) hrun
  have hflat : batches.flatten.map Prod.fst =
      (epochOrder plan instances.length progress.source).1.filterMap (instances[·]?) := by
    rw [List.map_flatten, hmap, flatten_batches (by omega)]
  have hsingle : batches.map (List.map Prod.fst) =
      (batches.flatten.map Prod.fst).map fun x => [x] := by
    rw [hflat, hmap, hsize, batches_one]
  have hlength : ∀ batch ∈ batches, batch.length = 1 := by
    intro batch hbatch
    have hmem := List.mem_map_of_mem (f := List.map Prod.fst) hbatch
    rw [hsingle] at hmem
    obtain ⟨x, -, hx⟩ := List.mem_map.mp hmem
    rw [← List.length_map, ← hx, List.length_singleton]
  refine ⟨batches, hflat, hlength, ?_, hevents.append (.report htold (.nil _)), hiteration, ?_,
    hsource⟩
  case refine_2 =>
    have hmany := congrArg List.length hsingle
    rw [List.length_map, List.length_map] at hmany
    rw [← hmany]
    exact hiteration
  have hagree := agree_trainBatches_inTurn (batches.flatten.map Prod.fst) s
  rw [← hsingle, htrain] at hagree
  generalize trainInTurn s.iteration (batches.flatten.map Prod.fst) s.network = first at hagree ⊢
  cases hagree with
  | ok ht => rw [ht]

/-- An epoch that fails does so in a turn, or a listener fails after all turns. -/
theorem runEpoch_inTurn_error {epoch : Nat} {progress : Progress α} {s after : Session α β τ}
    {fault : Fault}
    (hrun : runEpoch plan listeners instances.toArray epoch progress s = .error fault after) :
    let turns := (epochOrder plan instances.length progress.source).1.filterMap (instances[·]?)
    trainInTurn s.iteration turns s.network = .error fault after.network ∨
      ∃ errors, trainInTurn s.iteration turns s.network = .ok errors after.network ∧
        ∃ listener ∈ listeners, ∃ loss before log,
          listener.Hears epoch loss before (.error fault log) := by
  intro turns
  have hsize : plan.batchSize.toNat = 1 := by rw [hone]; rfl
  have hagree := agree_trainBatches_inTurn turns s
  simp only [runEpoch, List.size_toArray, List.getElem?_toArray, hsize, batches_one] at hrun
  generalize trainInTurn s.iteration turns s.network = first at hagree ⊢
  obtain hbatches | ⟨errors, trained, hbatches, hrun₁⟩ := Step.bind_eq_error hrun
  · rw [hbatches] at hagree
    cases hagree with
    | error hnetwork => exact .inl (by rw [hnetwork])
  · rw [hbatches] at hagree
    cases hagree with
    | ok ht =>
        obtain hreport | ⟨_, _, _, hrun₂⟩ := Step.bind_eq_error hrun₁
        · obtain ⟨log, hnotify, rfl⟩ := onLog_eq_error hreport
          obtain ⟨listener, hlistener, before, hfails⟩ :=
            (Listener.told_iff.mpr hnotify).exists_of_error
          exact .inr ⟨errors, by rw [ht], listener, hlistener, mean errors, before, log, hfails⟩
        · split at hrun₂ <;> cases hrun₂

variable (hpatient : ∀ stale, plan.stopsAfter stale = false)

include hpatient

/-- Epochs that succeed are turns of all instances in the orders of the epochs. -/
theorem runEpochs_inTurn_ok {left epoch : Nat} {progress progress' : Progress α}
    {s after : Session α β τ}
    (hrun : runEpochs plan listeners instances.toArray left epoch progress s =
      .ok progress' after) :
    ∃ epochs : List (List (List (Instance α × α))),
      epochs.map (fun batches => batches.flatten.map Prod.fst) =
        epochTurns plan instances left progress.source ∧
      (∀ batches ∈ epochs, ∀ batch ∈ batches, batch.length = 1) ∧
      trainInTurn s.iteration (epochTurns plan instances left progress.source).flatten s.network =
        .ok (epochs.flatten.flatten.map Prod.snd) after.network ∧
      Happens listeners (journal s.iteration epoch epochs) s after ∧
      after.iteration =
        s.iteration + (epochTurns plan instances left progress.source).flatten.length := by
  induction left generalizing epoch progress s with
  | zero =>
      cases hrun
      exact ⟨[], rfl, by simp, rfl, .nil _, rfl⟩
  | succ left ih =>
      obtain ⟨middle, t, hfirst, hrest⟩ := Step.bind_eq_ok hrun
      obtain ⟨batches, hturns, hsingle, htrain, hevents, hiteration, hlength, hsource⟩ :=
        runEpoch_inTurn_ok hone hfirst
      rw [hpatient, Bool.and_false, if_neg Bool.false_ne_true] at hrest
      obtain ⟨epochs, hmore, hsingles, htrains, hothers, hcount⟩ := ih hrest
      rw [hsource] at hmore htrains hcount
      refine ⟨batches :: epochs, ?_, ?_, ?_, ?_, ?_⟩
      · rw [List.map_cons, hturns, hmore, epochTurns]
      · exact List.forall_mem_cons.mpr ⟨hsingle, hsingles⟩
      · rw [epochTurns, List.flatten_cons, ← hturns, trainInTurn_append_run htrain, ← hlength,
          htrains]
        simp only [List.flatten_cons, List.flatten_append, List.map_append]
      · rw [hiteration] at hothers
        have happend := hevents.append hothers
        rwa [List.append_assoc] at happend
      · rw [hcount, hlength, epochTurns, List.flatten_cons, List.length_append, ← hturns,
          Nat.add_assoc]

/-- Epochs that fail do so in a turn, or a listener fails behind some of the epochs. -/
theorem runEpochs_inTurn_error {left epoch : Nat} {progress : Progress α} {s after : Session α β τ}
    {fault : Fault}
    (hrun : runEpochs plan listeners instances.toArray left epoch progress s =
      .error fault after) :
    let turns := epochTurns plan instances left progress.source
    trainInTurn s.iteration turns.flatten s.network = .error fault after.network ∨
      ∃ heard errors, trainInTurn s.iteration (turns.take heard).flatten s.network =
          .ok errors after.network ∧
        ∃ listener ∈ listeners, ∃ epoch loss before log,
          listener.Hears epoch loss before (.error fault log) := by
  intro turns
  induction left generalizing epoch progress s with
  | zero => cases hrun
  | succ left ih =>
      have hturns : turns = (epochOrder plan instances.length progress.source).1.filterMap
          (instances[·]?) :: epochTurns plan instances left
            (epochOrder plan instances.length progress.source).2 := rfl
      obtain hfirst | ⟨middle, t, hfirst, hrest⟩ := Step.bind_eq_error hrun
      · obtain htrain | ⟨errors, htrain, listener, hlistener, loss, before, log, hfails⟩ :=
          runEpoch_inTurn_error hone hfirst
        · refine .inl ?_
          rw [hturns, List.flatten_cons, trainInTurn_append, Step.bind_run, htrain]
        · refine .inr ⟨1, errors, ?_, listener, hlistener, epoch, loss, before, log, hfails⟩
          rw [hturns, List.take_succ_cons, List.take_zero, List.flatten_singleton]
          exact htrain
      · obtain ⟨batches, hbatches, -, htrain, -, -, hlength, hsource⟩ :=
          runEpoch_inTurn_ok hone hfirst
        rw [hpatient, Bool.and_false, if_neg Bool.false_ne_true] at hrest
        have hrest := ih hrest
        rw [hsource, hlength] at hrest
        rw [hturns, ← hbatches]
        obtain htrains | ⟨heard, errors, htrains, hfails⟩ := hrest
        · refine .inl ?_
          rw [List.flatten_cons, trainInTurn_append_run htrain, htrains]
        · refine .inr ⟨heard + 1, batches.flatten.map Prod.snd ++ errors, ?_, hfails⟩
          rw [List.take_succ_cons, List.flatten_cons, trainInTurn_append_run htrain, htrains]

end

/-! ## Runs -/

/-- A run with batches of one instance and without patience is online training on the instances of
all epochs in turn, in the orders that the run draws, with iterations that count on from that of the
session. Where it succeeds, online training succeeds with the same errors and leaves the same
network, and these errors are those of the batches of which the listeners hear the means. Where it
fails, online training fails with the same fault and leaves the same network but for training being
off, unless a listener fails; then some epochs of online training have left the network. A run of a
network that can be trained, whose listeners do not fail and whose iterations stay in range,
succeeds. -/
theorem run_eq_trainOnlineInTurn {plan : RunPlan} (hone : plan.batchSize = 1)
    (hpatient : ∀ stale, plan.stopsAfter stale = false) {instances : List (Instance α)}
    {source : Generator} (hcheck : plan.check instances = .ok source)
    (listeners : List (Listener α τ)) (session : Session α β τ) :
    let turns := epochTurns plan instances plan.epochs.toNat source
    (turns.length = plan.epochs.toNat ∧ ∀ epoch ∈ turns, epoch.Perm instances ∧
      (plan.shuffle = false → epoch = instances)) ∧
    (∀ summary after, run plan listeners instances session = .ok summary after →
      ∃ epochs ended, epochs.map (fun batches => batches.flatten.map Prod.fst) = turns ∧
        (∀ batches ∈ epochs, ∀ batch ∈ batches, batch.length = 1) ∧
        trainOnlineInTurn session.iteration turns.flatten session.network =
          .ok (epochs.flatten.flatten.map Prod.snd) after.network ∧
        Happens listeners (journal session.iteration 1 epochs) (switched true session) ended ∧
        after = switched false ended ∧
        after.iteration = session.iteration + turns.flatten.length) ∧
    (∀ fault after, run plan listeners instances session = .error fault after →
      (∃ left, trainOnlineInTurn session.iteration turns.flatten session.network =
          .error fault left ∧
        after.network = Step.after (setTraining false) left) ∨
      ∃ heard errors, trainOnlineInTurn session.iteration (turns.take heard).flatten
          session.network = .ok errors after.network ∧
        ∃ listener ∈ listeners, ∃ epoch loss before log,
          listener.Hears epoch loss before (.error fault log)) ∧
    (CanTrain session.network instances → (∀ listener ∈ listeners, Attentive listener) →
      (∀ k < plan.epochs.toNat * instances.length,
        Scalar.fits (α := α) (session.iteration + k) = true) →
      ∃ summary after, run plan listeners instances session = .ok summary after) := by
  intro turns
  refine ⟨⟨length_epochTurns plan instances _ source, fun epoch => perm_of_mem_epochTurns⟩,
    ?_, ?_, ?_⟩
  · intro summary after hrun
    obtain ⟨other, progress, ended, hother, hepochs, rfl, -⟩ := run_eq_ok hrun
    obtain rfl : source = other := Except.ok.inj (hcheck.symm.trans hother)
    obtain ⟨epochs, hturns, hsingle, htrain, hevents, hiteration⟩ :=
      runEpochs_inTurn_ok hone hpatient hepochs
    exact ⟨epochs, ended, hturns, hsingle, trainOnlineInTurn_of_ok htrain, hevents, rfl, hiteration⟩
  · intro fault after hrun
    rw [run_of_check hcheck] at hrun
    cases hepochs : runEpochs plan listeners instances.toArray plan.epochs.toNat 1
        ⟨source, 0, 0, Scalar.infinity, 0⟩ (switched true session) with
    | ok progress ended => rw [hepochs] at hrun; cases hrun
    | error cause ended =>
        rw [hepochs] at hrun
        cases hrun
        obtain htrain | ⟨heard, errors, htrain, hfails⟩ :=
          runEpochs_inTurn_error hone hpatient hepochs
        · exact .inl ⟨ended.network, trainOnlineInTurn_of_error htrain, rfl⟩
        · exact .inr ⟨heard, errors, trainOnlineInTurn_of_ok htrain, hfails⟩
  · intro hnet hlisteners hfits
    have hcount : batchCount plan instances = instances.length := by
      rw [batchCount, hone, Int.toNat_one, Nat.add_sub_cancel, Nat.div_one]
    exact exists_run hcheck hlisteners hnet (hcount ▸ hfits)

/-- Another instance for the layers of the example. -/
def mirrored : Instance Double := ⟨some (.ofList [0, 1]), some (some (.ofList [1, 0]))⟩

theorem canTrain_practice : CanTrain practice [exercise, mirrored] := by
  refine ⟨practice_sound.wellFormed, rfl, fun _ => rfl, fun given hgiven => ?_⟩
  rcases List.mem_pair.mp hgiven with rfl | rfl
  · exact ⟨_, rfl⟩
  · exact ⟨_, rfl⟩

/-- Two shuffled epochs of two instances, under random drops and with a listener. -/
theorem run_eq_trainOnlineInTurn_practice :
    let plan : RunPlan := ⟨2, 7, 1, true, true, none⟩
    let session : Session Double Single (List (Nat × Double)) := ⟨practice, 5, []⟩
    plan.batchSize = 1 ∧ (∀ stale, plan.stopsAfter stale = false) ∧
      ∃ source, plan.check [exercise, mirrored] = .ok source ∧
        CanTrain session.network [exercise, mirrored] ∧
        (∀ listener ∈ [diary (α := Double)], Attentive listener) ∧
        (∀ k < 4, Scalar.fits (α := Double) (5 + k) = true) ∧
        let turns := epochTurns plan [exercise, mirrored] 2 source
        turns.length = 2 ∧ (∀ epoch ∈ turns, epoch.Perm [exercise, mirrored]) ∧
        ∃ summary after epochs ended,
          run plan [diary] [exercise, mirrored] session = .ok summary after ∧
          epochs.map (fun batches => batches.flatten.map Prod.fst) = turns ∧
          trainOnlineInTurn 5 turns.flatten practice =
            .ok (epochs.flatten.flatten.map Prod.snd) after.network ∧
          Happens [diary] (journal 5 1 epochs) (switched true session) ended ∧
          after = switched false ended ∧ after.iteration = 5 + turns.flatten.length := by
  intro plan session
  have hpatient : ∀ stale, plan.stopsAfter stale = false := fun _ => rfl
  obtain ⟨source, hcheck⟩ : ∃ source, plan.check [exercise, mirrored] = .ok source := ⟨_, rfl⟩
  have hlisteners : ∀ listener ∈ [diary (α := Double)], Attentive listener := attentive_diary
  have hfits : ∀ k < 4, Scalar.fits (α := Double) (5 + k) = true := by decide
  obtain ⟨⟨hlength, horders⟩, hrun, -, hsucceeds⟩ :=
    run_eq_trainOnlineInTurn rfl hpatient hcheck [diary] session
  obtain ⟨summary, after, hsuccess⟩ := hsucceeds canTrain_practice hlisteners hfits
  obtain ⟨epochs, ended, hturns, -, hfacts⟩ := hrun summary after hsuccess
  exact ⟨rfl, hpatient, source, hcheck, canTrain_practice, hlisteners, hfits, hlength,
    fun epoch hepoch => (horders epoch hepoch).1, summary, after, epochs, ended, hsuccess, hturns,
    hfacts⟩

end Session

end FeedForward
