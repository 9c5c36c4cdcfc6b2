import FeedForward.Proofs.Gradient.Backpropagation
import FeedForward.Proofs.Session.Order

/-!
# Runs with whole epochs as batches

A run whose batches take all instances trains one batch in each epoch. Over exact numbers and where
no unit is dropped, such a run learns the same from every order of the instances: another order,
another seed, another batch size or no shuffling at all change neither the weights nor the loss of
any epoch, nor how many epochs there are. Only the training error and the state of the neurons tell
which instance came last.
-/

namespace FeedForward

namespace Session

open Network

section

variable {R τ : Type} [CommRing R] [BeyondRing R] {instances : List (Instance R)}

/-! ## Epochs -/

omit [CommRing R] [BeyondRing R] in
/-- A batch that is large enough takes all instances. -/
theorem batches_whole {size : Nat} (hmore : instances ≠ []) (hsize : instances.length ≤ size) :
    batches size instances = [instances] := by
  have hpositive := List.length_pos_iff.mpr hmore
  rw [batches, if_pos ⟨by omega, hpositive⟩, List.take_of_length_le hsize,
    List.drop_of_length_le hsize, batches, if_neg fun h => absurd h.2 (Nat.lt_irrefl 0)]

theorem trainBatches_one (batch : List (Instance R)) (s : Session R R τ) :
    trainBatches [batch] s = trainBatch batch s := by
  simp only [trainBatches, Step.bind_run]
  cases trainBatch batch s with
  | ok errors after => simp [Step.pure_run]
  | error fault after => rfl

/-- Epochs that report these losses lead from one session to another. -/
def Reports (plan : RunPlan) (listeners : List (Listener R τ)) (instances : List (Instance R))
    (epoch : Nat) (losses : List R) (s after : Session R R τ) : Prop :=
  ∃ epochs : List (List (List (Instance R × R))),
    (∀ batches ∈ epochs, Covers plan instances batches) ∧
    Happens listeners (journal s.iteration epoch epochs) s after ∧ epochs.map lossOf = losses

theorem reports_nil (plan : RunPlan) (listeners : List (Listener R τ))
    (instances : List (Instance R)) (epoch : Nat) (s : Session R R τ) :
    Reports plan listeners instances epoch [] s s := ⟨[], by simp, .nil _, rfl⟩

theorem reports_cons {plan : RunPlan} (hsize : 0 < plan.batchSize.toNat)
    {listeners : List (Listener R τ)} {epoch : Nat} {progress middle : Progress R}
    {s t after : Session R R τ} {losses : List R}
    (hfirst : runEpoch plan listeners instances.toArray epoch progress s = .ok middle t)
    (hrest : Reports plan listeners instances (epoch + 1) losses t after) :
    Reports plan listeners instances epoch (middle.loss :: losses) s after := by
  obtain ⟨batches, hcovers, hevents, hiteration, -, hloss⟩ := happens_runEpoch hsize hfirst
  obtain ⟨epochs, hall, hothers, hlosses⟩ := hrest
  refine ⟨batches :: epochs, List.forall_mem_cons.mpr ⟨hcovers, hall⟩, ?_, ?_⟩
  · rw [hiteration] at hothers
    have happend := hevents.append hothers
    rwa [List.append_assoc] at happend
  · rw [List.map_cons, hloss, hlosses]

end

/-- Progress that differs at most in the random source. -/
def Abreast {α : Type} (progress progress' : Progress α) : Prop :=
  ∃ source, progress' = { progress with source }

section

variable {R τ : Type} [CommRing R] [BeyondRing R] {instances instances' : List (Instance R)}
  (hmore : instances ≠ []) (hperm : instances'.Perm instances) {plan plan' : RunPlan}
  (hwhole : instances.length ≤ plan.batchSize.toNat)
  (hwhole' : instances.length ≤ plan'.batchSize.toNat) (listeners : List (Listener R τ))

include hmore hperm hwhole hwhole'

/-- Epochs of one batch come equally far. -/
theorem runEpoch_level {s t : Session R R τ} (hsteady : Steady s.network instances)
    (hlevel : Level s t) (epoch : Nat) {progress progress' : Progress R}
    (habreast : Abreast progress progress') :
    Step.Meets (fun p q a b => Abreast p q ∧ Level a b ∧ Steady a.network instances) Level
      (runEpoch plan listeners instances.toArray epoch progress s)
      (runEpoch plan' listeners instances'.toArray epoch progress' t) := by
  obtain ⟨source, rfl⟩ := habreast
  obtain ⟨horder, -⟩ := perm_epochOrder plan instances.length progress.source
  obtain ⟨horder', -⟩ := perm_epochOrder plan' instances'.length source
  simp only [runEpoch, List.size_toArray, List.getElem?_toArray]
  generalize epochOrder plan instances.length progress.source = drawn at horder
  generalize epochOrder plan' instances'.length source = drawn' at horder'
  -- Both epochs train one batch of all instances.
  have hpicked := perm_picked horder
  have hpicked' := (perm_picked horder').trans hperm
  generalize drawn.1.filterMap (instances[·]?) = batch at hpicked
  generalize drawn'.1.filterMap (instances'[·]?) = batch' at hpicked'
  have hbatch : batch ≠ [] := fun hempty => hmore (hempty ▸ hpicked).nil_eq.symm
  have hbatch' : batch' ≠ [] := fun hempty => hmore (hempty ▸ hpicked').nil_eq.symm
  rw [batches_whole hbatch (hpicked.length_eq.trans_le hwhole),
    batches_whole hbatch' (hpicked'.length_eq.trans_le hwhole')]
  obtain ⟨errors, errors', after, after', hrun, hrun', herrors, hafter, hready⟩ :=
    trainBatch_level hsteady hlevel hbatch (fun _ hgiven => hpicked.subset hgiven)
      (hpicked'.trans hpicked.symm)
  simp only [Step.bind_run, trainBatches_one, hrun, hrun', mean_perm herrors, onLog, hafter.log_eq]
  cases Listener.notifyAll listeners epoch (mean errors) after.log with
  | error fault log => exact .error ⟨hafter.network, hafter.iteration_eq, rfl⟩
  | ok _ log =>
      have hlog : Level { after with log } { after' with log } :=
        ⟨hafter.network, hafter.iteration_eq, rfl⟩
      simp only [Step.mapState, List.length_singleton]
      split <;> exact .ok ⟨⟨_, rfl⟩, hlog, hready⟩

theorem runEpochs_level (hpatience : plan'.patience = plan.patience) (left : Nat)
    {s t : Session R R τ} (hsteady : Steady s.network instances) (hlevel : Level s t) (epoch : Nat)
    {progress progress' : Progress R} (habreast : Abreast progress progress') :
    Step.Meets (fun p q a b => Abreast p q ∧ Level a b ∧ ∃ losses,
        Reports plan listeners instances epoch losses s a ∧
        Reports plan' listeners instances' epoch losses t b) Level
      (runEpochs plan listeners instances.toArray left epoch progress s)
      (runEpochs plan' listeners instances'.toArray left epoch progress' t) := by
  have hpositive : 0 < plan.batchSize.toNat :=
    Nat.lt_of_lt_of_le (List.length_pos_iff.mpr hmore) hwhole
  have hpositive' : 0 < plan'.batchSize.toNat :=
    Nat.lt_of_lt_of_le (List.length_pos_iff.mpr hmore) hwhole'
  have hstops : plan'.stopsAfter = plan.stopsAfter :=
    funext fun stale => by rw [RunPlan.stopsAfter, RunPlan.stopsAfter, hpatience]
  induction left generalizing s t epoch progress progress' with
  | zero =>
      exact .ok ⟨habreast, hlevel, [], reports_nil _ _ _ _ _, reports_nil _ _ _ _ _⟩
  | succ left ih =>
      have hepoch :=
        runEpoch_level hmore hperm hwhole hwhole' listeners hsteady hlevel epoch habreast
      rw [runEpochs, runEpochs, Step.bind_run, Step.bind_run]
      generalize hfirst : runEpoch plan listeners _ epoch progress s = first at hepoch
      generalize hsecond : runEpoch plan' listeners _ epoch progress' t = second at hepoch
      cases hepoch with
      | error hfail => exact .error hfail
      | @ok middle _ a b hdone =>
          obtain ⟨⟨source, rfl⟩, hlevel, hready⟩ := hdone
          dsimp only
          rw [hstops]
          by_cases hstop : (0 < middle.stale && plan.stopsAfter middle.stale) = true
          · have hlast := reports_cons hpositive hfirst (reports_nil _ _ _ _ _)
            have hlast' := reports_cons hpositive' hsecond (reports_nil _ _ _ _ _)
            rw [if_pos hstop, if_pos hstop]
            exact .ok ⟨⟨source, rfl⟩, hlevel, [middle.loss], hlast, hlast'⟩
          · rw [if_neg hstop, if_neg hstop]
            refine (ih hready hlevel (epoch + 1) ⟨source, rfl⟩).mono ?_
            rintro _ _ _ _ ⟨habreast, hlevel, losses, hothers, hothers'⟩
            have hall := reports_cons hpositive hfirst hothers
            have hall' := reports_cons hpositive' hsecond hothers'
            exact ⟨habreast, hlevel, middle.loss :: losses, hall, hall'⟩

end

/-! ## Runs -/

section

variable {R τ : Type} [CommRing R] [BeyondRing R]

/-- A run that leaves a session has reported these losses, one for each of its epochs. -/
def Reported (plan : RunPlan) (listeners : List (Listener R τ)) (instances : List (Instance R))
    (losses : List R) (session after : Session R R τ) : Prop :=
  ∃ ended, Reports plan listeners instances 1 losses (switched true session) ended ∧
    after = switched false ended

/-- Runs with whole epochs as batches leave level sessions. -/
theorem run_level {session : Session R R τ} {instances instances' : List (Instance R)}
    (hsteady : Steady session.network instances) (hperm : instances'.Perm instances)
    {plan plan' : RunPlan} (hplan : ∃ source, plan.check instances = .ok source)
    (hplan' : ∃ source, plan'.check instances' = .ok source) (hepochs : plan'.epochs = plan.epochs)
    (hpatience : plan'.patience = plan.patience)
    (hwhole : (instances.length : Int) ≤ plan.batchSize)
    (hwhole' : (instances.length : Int) ≤ plan'.batchSize) (listeners : List (Listener R τ)) :
    Step.Agree
      (fun after after' => Level after after' ∧ ∃ losses,
        Reported plan listeners instances losses session after ∧
        Reported plan' listeners instances' losses session after')
      Level (run plan listeners instances session) (run plan' listeners instances' session) := by
  obtain ⟨source, hcheck⟩ := hplan
  obtain ⟨source', hcheck'⟩ := hplan'
  have hmore : instances ≠ [] := by
    rintro rfl
    cases hcheck
  have hswitched : Steady (switched true session).network instances :=
    ⟨hsteady.toCanTrain.switched true, hsteady.sure⟩
  let start (source : Generator) : Progress R := ⟨source, 0, 0, Scalar.infinity, 0⟩
  have hstart : Abreast (start source) (start source') := ⟨source', rfl⟩
  have hruns := runEpochs_level hmore hperm (by omega) (by omega) listeners hpatience
    plan.epochs.toNat hswitched (.refl _) 1 hstart
  rw [run_of_check hcheck, run_of_check hcheck', hepochs]
  generalize runEpochs plan listeners instances.toArray _ 1 _ (switched true session) = first
    at hruns ⊢
  generalize runEpochs plan' listeners instances'.toArray _ 1 _ (switched true session) = second
    at hruns ⊢
  cases hruns with
  | error hlevel => exact .error (hlevel.switched false)
  | ok hdone =>
      obtain ⟨⟨_, rfl⟩, hlevel, losses, hreports, hreports'⟩ := hdone
      exact .ok ⟨hlevel.switched false, losses, ⟨_, hreports, rfl⟩, ⟨_, hreports', rfl⟩⟩

/-- Over exact numbers and without dropped units the order of the instances does not matter. Batches
of the same instances leave the same weights and last updates, also where instances are refused.
Runs whose batches take all instances report the same losses to their listeners, stop behind the
same epoch and leave level sessions, and they succeed if no listener fails. -/
theorem run_reordered {session : Session R R τ} (hnet : session.network.WellFormed)
    (hcomplete : session.network.outputLayer.isSome)
    (htransformer : KeepsCount session.network.transformer) (hrate : session.network.dropRate = 0)
    (hsure : ∀ g : Generator, (g.happens (1 : R)).1 = true) :
    (∀ batch batch' : List (Instance R), batch'.Perm batch →
      let after := Step.after (trainBatch batch) session
      let after' := Step.after (trainBatch batch') session
      after'.network.weights = after.network.weights ∧
        after'.network.previous = after.network.previous) ∧
    ∀ (instances instances' : List (Instance R)) (plan plan' : RunPlan)
      (listeners : List (Listener R τ)),
      (∀ given ∈ instances, ∃ checked, session.network.checkInstance given = .ok checked) →
      instances'.Perm instances →
      (∃ source, plan.check instances = .ok source) →
      (∃ source, plan'.check instances' = .ok source) →
      plan'.epochs = plan.epochs → plan'.patience = plan.patience →
      (instances.length : Int) ≤ plan.batchSize → (instances.length : Int) ≤ plan'.batchSize →
      Step.Agree
        (fun after after' => Level after after' ∧ ∃ losses,
          Reported plan listeners instances losses session after ∧
          Reported plan' listeners instances' losses session after')
        Level (run plan listeners instances session) (run plan' listeners instances' session) ∧
      ((∀ listener ∈ listeners, Attentive listener) →
        ∃ summary after, run plan listeners instances session = .ok summary after) := by
  have hkept : ∀ g : Generator, (g.happens (1 - session.network.dropRate)).1 = true := by
    rw [hrate, sub_zero]
    exact hsure
  constructor
  · exact fun batch batch' hperm => trainBatch_reordered hnet hcomplete htransformer hkept hperm
  · intro instances instances' plan plan' listeners hvalid hperm hplan hplan' hepochs hpatience
      hwhole hwhole'
    have hready : CanTrain session.network instances := ⟨hnet, hcomplete, htransformer, hvalid⟩
    refine ⟨run_level ⟨hready, hkept⟩ hperm hplan hplan' hepochs hpatience hwhole hwhole' listeners,
      fun hlisteners => ?_⟩
    obtain ⟨source, hcheck⟩ := hplan
    have hswitched : CanTrain (switched true session).network instances := hready.switched true
    obtain ⟨progress, ended, hepochs⟩ := exists_runEpochs (batchSize_of_check hcheck) hlisteners
      hswitched (fun _ _ => rfl) 1 ⟨source, 0, 0, Scalar.infinity, 0⟩
    rw [run_of_check hcheck, hepochs]
    exact ⟨_, _, rfl⟩

end

/-- Another instance for three layers of exact numbers. -/
def stile : Instance ℚ := ⟨some (.ofList [2]), some (some (.ofList [3]))⟩

theorem checkInstance_stile : (ladder 0).checkInstance stile = .ok (.ofList [2], some [3]) := by
  rw [checkInstance]
  rfl

/-- Two instances in either order, shuffled from one seed or not at all, in batches of two or of at
most five. -/
theorem run_reordered_ladder :
    let session : Session ℚ ℚ (List (Nat × ℚ)) := ⟨ladder 0, 4, []⟩
    let plan : RunPlan := ⟨3, 7, 2, true, true, some 1⟩
    let plan' : RunPlan := ⟨3, 8, 5, false, false, some 1⟩
    session.network.WellFormed ∧ session.network.outputLayer.isSome ∧
      KeepsCount session.network.transformer ∧ session.network.dropRate = 0 ∧
      (∀ g : Generator, (g.happens (1 : ℚ)).1 = true) ∧
      ∃ summary after after' losses,
        run plan [diary] [rung, stile] session = .ok summary after ∧
        run plan' [diary] [stile, rung] session = .ok summary after' ∧ Level after after' ∧
        Reported plan [diary] [rung, stile] losses session after ∧
        Reported plan' [diary] [stile, rung] losses session after' := by
  intro session plan plan'
  have hnet : session.network.WellFormed := wellFormed_ladder 0 (by decide) (by decide)
  have htransformer : KeepsCount session.network.transformer := fun _ => rfl
  have hsure : ∀ g : Generator, (g.happens (1 : ℚ)).1 = true := fun _ => rfl
  have hvalid : ∀ given ∈ [rung, stile],
      ∃ checked, session.network.checkInstance given = .ok checked := by
    intro given hgiven
    obtain rfl | rfl : given = rung ∨ given = stile := by simpa using hgiven
    · exact ⟨_, checkInstance_rung⟩
    · exact ⟨_, checkInstance_stile⟩
  have hlisteners : ∀ listener ∈ [diary (α := ℚ)], Attentive listener := attentive_diary
  have hplan : ∃ source, plan.check [rung, stile] = .ok source := ⟨_, rfl⟩
  have hplan' : ∃ source, plan'.check [stile, rung] = .ok source := ⟨_, rfl⟩
  have hsize : (([rung, stile].length : Nat) : Int) ≤ plan.batchSize := by decide
  have hsize' : (([rung, stile].length : Nat) : Int) ≤ plan'.batchSize := by decide
  obtain ⟨-, hruns⟩ := run_reordered hnet rfl htransformer rfl hsure
  obtain ⟨hagree, hsucceeds⟩ := hruns [rung, stile] [stile, rung] plan plan' [diary] hvalid
    (.swap _ _ _) hplan hplan' rfl rfl hsize hsize'
  obtain ⟨summary, after, hrun⟩ := hsucceeds hlisteners
  rw [hrun] at hagree
  generalize run plan' [diary] [stile, rung] session = second at hagree ⊢
  cases hagree with
  | ok hdone =>
      obtain ⟨hlevel, losses, hreported, hreported'⟩ := hdone
      exact ⟨hnet, rfl, htransformer, rfl, hsure, summary, after, _, losses, hrun, rfl, hlevel,
        hreported, hreported'⟩

end Session

end FeedForward
