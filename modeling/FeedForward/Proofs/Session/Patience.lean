import FeedForward.Proofs.Session.Run
import Mathlib.Algebra.GroupWithZero.Nat
import Mathlib.Order.Nat

/-!
# Runs that stop early

A run with patience is the front of the same run without patience: with the same start, it does
what a run of fewer epochs does that never stops early, to the network, the session, the listeners
and the checkpoint. How many epochs that are follows from the losses alone. An epoch improves if its
loss is less, by more than a small margin, than that of the last epoch which improved before it, and
the run stops at the first epoch that lies as far behind the last improving one as its patience
says. Losses that are no numbers never improve on anything. Nothing is said here about how the
losses come about.
-/

namespace FeedForward

open Session (improvementMargin)

/-! ## Epochs that improve -/

section

variable {α : Type} [Scalar α]

/-- What the loss of an epoch has to be less than: that of the last epoch that improved, which is
greater than any if there is none. -/
def barrier (loss : Nat → α) : Nat → α
  | 0 => Scalar.infinity
  | improving + 1 => loss (improving + 1)

/-- The last of the first epochs that improved, zero if there is none. Epochs are counted from
one. -/
def lastImproving (loss : Nat → α) : Nat → Nat
  | 0 => 0
  | epoch + 1 =>
    let before := lastImproving loss epoch
    if Scalar.lt (loss (epoch + 1)) (barrier loss before - improvementMargin) then epoch + 1
    else before

theorem lastImproving_le (loss : Nat → α) (epoch : Nat) : lastImproving loss epoch ≤ epoch := by
  induction epoch with
  | zero => exact Nat.le_refl 0
  | succ epoch ih =>
      rw [lastImproving]
      split <;> omega

/-- The number of epochs since the last one that improved. -/
def staleness (loss : Nat → α) (epoch : Nat) : Nat := epoch - lastImproving loss epoch

theorem staleness_succ (loss : Nat → α) (epoch : Nat) :
    staleness loss (epoch + 1) =
      if Scalar.lt (loss (epoch + 1))
          (barrier loss (lastImproving loss epoch) - improvementMargin) then 0
      else staleness loss epoch + 1 := by
  have hle := lastImproving_le loss epoch
  rw [staleness, staleness, lastImproving]
  split <;> omega

/-- Gains within the margin do not add up to an improvement, and neither does what is no number. -/
example : lastImproving (α := Double)
    (fun epoch => [0, 3.0, 2.9999999995, 0.0 / 0.0, 2.0].getD epoch 2.0) 5 = 4 := by
  decide +kernel

end

namespace RunPlan

/-- The plan with another number of epochs and without patience. -/
def through (plan : RunPlan) (epochs : Nat) : RunPlan := { plan with epochs, patience := none }

theorem stopsAfter_iff {plan : RunPlan} {patience : Int} (hpatience : plan.patience = some patience)
    (hne : patience ≠ 0) (stale : Nat) : plan.stopsAfter stale = true ↔ patience ≤ stale := by
  simp [stopsAfter, hpatience, hne]

theorem stopsAfter_of_none {plan : RunPlan}
    (hpatience : plan.patience = none ∨ plan.patience = some 0) (stale : Nat) :
    plan.stopsAfter stale = false := by
  rcases hpatience with hnone | hzero
  · rw [stopsAfter, hnone]
  · simp [stopsAfter, hzero]

section

variable {α : Type} [Scalar α] {plan : RunPlan} {loss : Nat → α} {epoch : Nat}

/-- A run with these losses does not go on behind an epoch. -/
def Halts (plan : RunPlan) (loss : Nat → α) (epoch : Nat) : Prop :=
  0 < staleness loss epoch ∧ plan.stopsAfter (staleness loss epoch) = true

/-- With patience, a run halts as soon as that many epochs have not improved, and a negative
patience is used up by the first of them. -/
theorem halts_iff {patience : Int} (hpatience : plan.patience = some patience)
    (hne : patience ≠ 0) :
    plan.Halts loss epoch ↔ max 1 patience ≤ staleness loss epoch := by
  rw [Halts, stopsAfter_iff hpatience hne]
  omega

theorem not_halts (hpatience : plan.patience = none ∨ plan.patience = some 0) :
    ¬ plan.Halts loss epoch := by
  rw [Halts, stopsAfter_of_none hpatience]
  simp

/-- There is a number of epochs that a run comes to. -/
theorem exists_isLeast_halts (plan : RunPlan) (loss : Nat → α) :
    ∃ count, IsLeast {e | plan.epochs.toNat ≤ e ∨ plan.Halts loss e} count := by
  classical
  exact ⟨_, Nat.isLeast_find ⟨plan.epochs.toNat, Or.inl (Nat.le_refl _)⟩⟩

end

end RunPlan

namespace Session

variable {α β τ : Type} [Scalar α] [Add β] [Zero β] [Precision α β]

section

variable (plan : RunPlan) (listeners : List (Listener α τ)) (instances : List (Instance α))

/-! ## Epochs in a row -/

/-- The first epochs of a run, none of which stops it. -/
def firstEpochs (source : Generator) (count : Nat) : Step (Session α β τ) (Progress α) :=
  runEpochs { plan with patience := none } listeners instances.toArray count 1
    ⟨source, 0, 0, Scalar.infinity, 0⟩

variable {plan listeners instances}

/-- Epochs do not depend on how many the plan asks for. -/
theorem runEpochs_through (epochs count epoch : Nat) (progress : Progress α) :
    runEpochs (β := β) (plan.through epochs) listeners instances.toArray count epoch progress =
      runEpochs { plan with patience := none } listeners instances.toArray count epoch
        progress := by
  induction count generalizing epoch progress with
  | zero => rfl
  | succ count ih =>
      rw [runEpochs, runEpochs]
      simp only [ih]
      rfl

/-- Without patience, one epoch more is one epoch behind the others. -/
theorem runEpochs_concat (hpatience : plan.patience = none) (count epoch : Nat)
    (progress : Progress α) (s : Session α β τ) :
    runEpochs plan listeners instances.toArray (count + 1) epoch progress s =
      (runEpochs plan listeners instances.toArray count epoch progress >>=
        runEpoch plan listeners instances.toArray (epoch + count)) s := by
  have hnever := RunPlan.stopsAfter_of_none (Or.inl hpatience)
  induction count generalizing epoch progress s with
  | zero =>
      simp only [runEpochs, hnever, Bool.and_false, Bool.false_eq_true, if_false, Nat.add_zero,
        Step.bind_run, Step.pure_run]
      cases runEpoch plan listeners instances.toArray epoch progress s <;> rfl
  | succ count ih =>
      rw [runEpochs, Step.bind_run, Step.bind_run, runEpochs, Step.bind_run]
      cases runEpoch plan listeners instances.toArray epoch progress s with
      | error fault t => rfl
      | ok middle t =>
          simp only [hnever, Bool.and_false, Bool.false_eq_true, if_false]
          rw [ih, Step.bind_run, show epoch + 1 + count = epoch + (count + 1) by omega]

theorem firstEpochs_succ (source : Generator) (count : Nat) (s : Session α β τ) :
    firstEpochs plan listeners instances source (count + 1) s =
      (firstEpochs plan listeners instances source count >>=
        runEpoch plan listeners instances.toArray (count + 1)) s := by
  rw [firstEpochs, runEpochs_concat rfl, Nat.add_comm 1 count]
  rfl

/-- Epochs that fail are never reached by more of them. -/
theorem firstEpochs_of_error {source : Generator} {count more : Nat} (hmore : count ≤ more)
    {s failed : Session α β τ} {fault : Fault}
    (hrun : firstEpochs plan listeners instances source count s = .error fault failed) :
    firstEpochs plan listeners instances source more s = .error fault failed := by
  induction hmore with
  | refl => exact hrun
  | step _ ih => rw [firstEpochs_succ, Step.bind_run, ih]

/-- What an epoch makes of the best loss and of the epochs that have not improved on it. -/
theorem runEpoch_best {epoch : Nat} {progress progress' : Progress α} {s after : Session α β τ}
    (hrun : runEpoch plan listeners instances.toArray epoch progress s = .ok progress' after) :
    (progress'.best, progress'.stale) =
      if Scalar.lt progress'.loss (progress.best - improvementMargin) then (progress'.loss, 0)
      else (progress.best, progress.stale + 1) := by
  simp only [runEpoch] at hrun
  obtain ⟨errors, trained, -, hrun₁⟩ := Step.bind_eq_ok hrun
  obtain ⟨_, reported, -, hrun₂⟩ := Step.bind_eq_ok hrun₁
  split at hrun₂
  next hless => cases hrun₂; rw [if_pos hless]
  next hless => cases hrun₂; rw [if_neg hless]

end

/-! ## Losses -/

/-- The loss of an epoch of a run that never stops early, zero if the run does not get through
it. -/
def epochLoss (plan : RunPlan) (listeners : List (Listener α τ)) (instances : List (Instance α))
    (session : Session α β τ) (epoch : Nat) : α :=
  match run (plan.through epoch) listeners instances session with
  | .ok summary _ => summary.loss
  | .error _ _ => 0

section

variable {plan : RunPlan} {listeners : List (Listener α τ)} {instances : List (Instance α)}
  {source : Generator} (hcheck : plan.check instances = .ok source) {session : Session α β τ}

include hcheck

theorem run_through (count : Nat) :
    run (plan.through count) listeners instances session =
      match firstEpochs plan listeners instances source count (switched true session) with
      | .ok progress ended => .ok ⟨progress.steps, progress.loss⟩ (switched false ended)
      | .error fault ended => .error fault (switched false ended) := by
  have hsame : (plan.through count).check instances = .ok source := hcheck
  rw [run_of_check hsame, runEpochs_through]
  rfl

variable {count : Nat} {progress : Progress α} {ended : Session α β τ}
  (hrun : firstEpochs plan listeners instances source count (switched true session) =
    .ok progress ended)

include hrun

theorem epochLoss_eq : epochLoss plan listeners instances session count = progress.loss := by
  rw [epochLoss, run_through hcheck, hrun]

/-- Behind its first epochs a run knows the last of them that improved. -/
theorem best_firstEpochs :
    progress.best = barrier (epochLoss plan listeners instances session)
        (lastImproving (epochLoss plan listeners instances session) count) ∧
      progress.stale = staleness (epochLoss plan listeners instances session) count := by
  induction count generalizing progress ended with
  | zero => cases hrun; exact ⟨rfl, rfl⟩
  | succ count ih =>
      have hloss := epochLoss_eq hcheck hrun
      rw [firstEpochs_succ] at hrun
      obtain ⟨before, middle, hbefore, hepoch⟩ := Step.bind_eq_ok hrun
      obtain ⟨hbest, hstale⟩ := ih hbefore
      have hnext := runEpoch_best hepoch
      rw [hbest, hstale, ← hloss] at hnext
      rw [lastImproving, staleness_succ]
      split at hnext
      next hless =>
        obtain ⟨hbest', hstale'⟩ := Prod.mk.inj hnext
        rw [if_pos hless, if_pos hless]
        exact ⟨hbest', hstale'⟩
      next hless =>
        obtain ⟨hbest', hstale'⟩ := Prod.mk.inj hnext
        rw [if_neg hless, if_neg hless]
        exact ⟨hbest', hstale'⟩

end

/-! ## The end of a run -/

section

variable {plan : RunPlan} {listeners : List (Listener α τ)} {instances : List (Instance α)}
  {source : Generator} {session : Session α β τ}

/-- The epochs that are left behind the first ones are the first ones of a greater number, if there
is nothing between at which the run halts. -/
theorem runEpochs_eq_firstEpochs (hcheck : plan.check instances = .ok source)
    {count left epoch : Nat} {progress : Progress α} {ended : Session α β τ}
    (hrun : firstEpochs plan listeners instances source epoch (switched true session) =
      .ok progress ended)
    (hcount : epoch ≤ count ∧ count ≤ epoch + left)
    (hgoes : ∀ e, epoch < e → e < count →
      ¬ plan.Halts (epochLoss plan listeners instances session) e)
    (hhalts : count < epoch + left →
      epoch < count ∧ plan.Halts (epochLoss plan listeners instances session) count) :
    runEpochs plan listeners instances.toArray left (epoch + 1) progress ended =
      firstEpochs plan listeners instances source count (switched true session) := by
  induction left generalizing epoch progress ended with
  | zero =>
      obtain rfl : count = epoch := by omega
      rw [hrun]
      rfl
  | succ left ih =>
      have hless : epoch < count := by
        by_contra hnot
        exact hnot (hhalts (by omega)).1
      have hnext : firstEpochs plan listeners instances source (epoch + 1) (switched true session) =
          (firstEpochs plan listeners instances source epoch >>=
            runEpoch plan listeners instances.toArray (epoch + 1)) (switched true session) :=
        firstEpochs_succ source epoch (switched true session)
      rw [Step.bind_run, hrun] at hnext
      rw [runEpochs, Step.bind_run]
      cases hepoch : runEpoch plan listeners instances.toArray (epoch + 1) progress ended with
      | error fault failed => exact (firstEpochs_of_error hless (hnext.trans hepoch)).symm
      | ok middle reached =>
          have hreached := hnext.trans hepoch
          obtain ⟨-, hstale⟩ := best_firstEpochs hcheck hreached
          simp only [hstale, Bool.and_eq_true, decide_eq_true_eq]
          split
          next hhalt =>
            obtain rfl : count = epoch + 1 := by
              by_contra hne
              exact hgoes (epoch + 1) (by omega) (by omega) hhalt
            rw [hreached]
            rfl
          next hgo =>
            refine ih hreached ⟨hless, by omega⟩ (fun e he => hgoes e (by omega)) fun hmore => ?_
            obtain ⟨-, hstop⟩ := hhalts (by omega)
            refine ⟨?_, hstop⟩
            by_contra hnot
            obtain rfl : count = epoch + 1 := by omega
            exact hgo hstop

/-- A run is one without patience of as many epochs as there are until it halts. -/
theorem run_of_isLeast {count : Nat}
    (hcount : IsLeast {e | plan.epochs.toNat ≤ e ∨
      plan.Halts (epochLoss plan listeners instances session) e} count) :
    run plan listeners instances session =
      run (plan.through count) listeners instances session := by
  cases hcheck : plan.check instances with
  | error fault =>
      have hsame : (plan.through count).check instances = .error fault := hcheck
      simp only [run, Step.bind_run, Step.lift_run, hcheck, hsame]
  | ok source =>
      obtain ⟨hends, hleast⟩ := hcount
      have hplanned : count ≤ plan.epochs.toNat := hleast (Or.inl (Nat.le_refl _))
      have hepochs : runEpochs plan listeners instances.toArray plan.epochs.toNat 1
          ⟨source, 0, 0, Scalar.infinity, 0⟩ (switched true session) =
          firstEpochs plan listeners instances source count (switched true session) := by
        refine runEpochs_eq_firstEpochs hcheck rfl ⟨Nat.zero_le count, by omega⟩
          (fun e _ hless hhalt => ?_) fun hless => ?_
        · have hle := hleast (Or.inr hhalt)
          omega
        · have hhalt := hends.resolve_left (by omega)
          refine ⟨Nat.pos_of_ne_zero ?_, hhalt⟩
          rintro rfl
          exact Nat.lt_irrefl 0 hhalt.1
      rw [run_of_check hcheck, hepochs]
      exact (run_through hcheck count).symm

end

/-! ## What happens in the epochs -/

theorem journal_concat (iteration epoch : Nat)
    (epochs : List (List (List (Instance α × α)))) (batches : List (List (Instance α × α))) :
    journal iteration epoch (epochs ++ [batches]) = journal iteration epoch epochs ++
      (batchEvents (iteration + (epochs.map List.length).sum) batches ++
        [.report (epoch + epochs.length) (lossOf batches)]) := by
  induction epochs generalizing iteration epoch with
  | nil => simp [journal]
  | cons first epochs ih =>
      simp only [List.cons_append, journal, ih, List.map_cons, List.sum_cons, List.length_cons,
        List.append_assoc, Nat.add_assoc, Nat.add_comm 1]

/-- A run that never stops early trains and reports each of its epochs. -/
theorem happens_firstEpochs {plan : RunPlan} {listeners : List (Listener α τ)}
    {instances : List (Instance α)} {source : Generator}
    (hcheck : plan.check instances = .ok source) {count : Nat} {progress : Progress α}
    {session ended : Session α β τ}
    (hrun : firstEpochs plan listeners instances source count (switched true session) =
      .ok progress ended) :
    ∃ epochs : List (List (List (Instance α × α))),
      epochs.map lossOf =
        (List.range count).map (fun e => epochLoss plan listeners instances session (e + 1)) ∧
      (∀ batches ∈ epochs, Covers plan instances batches) ∧
      Happens listeners (journal session.iteration 1 epochs) (switched true session) ended ∧
      ended.iteration = session.iteration + (epochs.map List.length).sum := by
  induction count generalizing progress ended with
  | zero => cases hrun; exact ⟨[], rfl, by simp, .nil _, rfl⟩
  | succ count ih =>
      have hlast := epochLoss_eq hcheck hrun
      rw [firstEpochs_succ] at hrun
      obtain ⟨before, middle, hbefore, hepoch⟩ := Step.bind_eq_ok hrun
      obtain ⟨epochs, hlosses, hcovers, hevents, hiteration⟩ := ih hbefore
      obtain ⟨batches, hcover, hmore, hcounted, -, hloss⟩ :=
        happens_runEpoch (batchSize_of_check hcheck) hepoch
      have hlength : epochs.length = count := by simpa using congrArg List.length hlosses
      refine ⟨epochs ++ [batches], ?_, ?_, ?_, ?_⟩
      · rw [List.map_append, hlosses, List.range_succ, List.map_append, List.map_singleton,
          List.map_singleton, hlast, hloss]
      · simpa [or_imp, forall_and] using ⟨hcovers, hcover⟩
      · rw [hiteration, Nat.add_comm count 1, ← hlength] at hmore
        rw [journal_concat]
        exact hevents.append hmore
      · rw [hcounted, hiteration, List.map_append, List.sum_append, List.map_singleton,
          List.sum_singleton, Nat.add_assoc]

/-! ## Early stopping -/

/-- A run is the run of some number of epochs without patience, whatever comes of it: the network,
the session, what listeners wrote down, the checkpoint and the summary are the same. With a positive
patience, the number is the planned one or the least number of an epoch which lies that far behind
the last one that improved, whichever is less; with no patience or zero it is the planned one. If
the run succeeds, it has trained and reported exactly so many epochs, and their losses are those
by which they were counted. -/
theorem run_stops_early [Encoding α] [Encoding β] (plan : RunPlan) (listeners : List (Listener α τ))
    (instances : List (Instance α)) (session : Session α β τ) :
    ∃ count,
      (∀ patience, plan.patience = some patience → 0 < patience →
        IsLeast {e | plan.epochs.toNat ≤ e ∨
          patience ≤ staleness (epochLoss plan listeners instances session) e} count) ∧
      (plan.patience = none ∨ plan.patience = some 0 → count = plan.epochs.toNat) ∧
      run plan listeners instances session = run (plan.through count) listeners instances session ∧
      (∀ checkpoint, runSaving plan listeners instances (session, checkpoint) =
        runSaving (plan.through count) listeners instances (session, checkpoint)) ∧
      ∀ summary after, run plan listeners instances session = .ok summary after →
        ∃ epochs ended, epochs.length = count ∧
          (∀ batches ∈ epochs, Covers plan instances batches) ∧
          Happens listeners (journal session.iteration 1 epochs) (switched true session) ended ∧
          after = switched false ended ∧
          epochs.map lossOf =
            (List.range count).map fun e => epochLoss plan listeners instances session (e + 1) := by
  obtain ⟨count, hcount⟩ :=
    plan.exists_isLeast_halts (epochLoss plan listeners instances session)
  have hrun := run_of_isLeast hcount
  refine ⟨count, fun patience hpatience hpositive => ?_, fun hpatience => ?_, hrun,
    fun checkpoint => ?_, fun summary after hsuccess => ?_⟩
  · have hhalts : ∀ e, plan.Halts (epochLoss plan listeners instances session) e ↔
        patience ≤ staleness (epochLoss plan listeners instances session) e := fun e => by
      rw [RunPlan.halts_iff hpatience (by omega)]
      omega
    simpa only [hhalts] using hcount
  · have hall : IsLeast {e | plan.epochs.toNat ≤ e} count := by
      simpa only [RunPlan.not_halts hpatience, or_false] using hcount
    exact Nat.le_antisymm (hall.2 (Nat.le_refl plan.epochs.toNat)) hall.1
  · rw [runSaving, runSaving, hrun]
  · obtain ⟨source, _, _, hcheck, -⟩ := run_eq_ok hsuccess
    rw [hrun, run_through hcheck] at hsuccess
    cases hepochs : firstEpochs plan listeners instances source count (switched true session) with
    | error fault failed => rw [hepochs] at hsuccess; cases hsuccess
    | ok progress ended =>
        rw [hepochs] at hsuccess
        cases hsuccess
        obtain ⟨epochs, hlosses, hcovers, hevents, -⟩ := happens_firstEpochs hcheck hepochs
        refine ⟨epochs, ended, ?_, hcovers, hevents, rfl, hlosses⟩
        simpa using congrArg List.length hlosses

/-- Five epochs that two epochs in a row without improvement stop. -/
theorem run_stops_early_practice :
    let plan : RunPlan := ⟨5, 7, 1, true, true, some 2⟩
    let session : Session Double Single (List (Nat × Double)) := ⟨Network.practice, 5, []⟩
    let loss := epochLoss plan [diary] [Network.exercise] session
    plan.patience = some 2 ∧ (0 : Int) < 2 ∧
      ∃ count summary after epochs ended,
        IsLeast {e | 5 ≤ e ∨ (2 : Int) ≤ staleness loss e} count ∧
        run plan [diary] [Network.exercise] session = .ok summary after ∧
        run (plan.through count) [diary] [Network.exercise] session = .ok summary after ∧
        (∀ checkpoint, runSaving plan [diary] [Network.exercise] (session, checkpoint) =
          runSaving (plan.through count) [diary] [Network.exercise] (session, checkpoint)) ∧
        epochs.length = count ∧
        (∀ batches ∈ epochs, Covers plan [Network.exercise] batches) ∧
        Happens [diary] (journal 5 1 epochs) (switched true session) ended ∧
        after = switched false ended ∧
        epochs.map lossOf = (List.range count).map fun e => loss (e + 1) := by
  intro plan session loss
  have hnet : CanTrain Network.practice [Network.exercise] :=
    ⟨Network.practice_sound.wellFormed, rfl, fun _ => rfl,
      List.forall_mem_singleton.mpr ⟨_, rfl⟩⟩
  obtain ⟨source, hcheck⟩ : ∃ source, plan.check [Network.exercise] = .ok source := ⟨_, rfl⟩
  have hfits : ∀ k < 5, Scalar.fits (α := Double) (5 + k) = true := by decide
  have hcount : plan.epochs.toNat * batchCount plan [Network.exercise] = 5 := by decide
  obtain ⟨summary, after, hsuccess⟩ :=
    exists_run (s := session) hcheck attentive_diary hnet (hcount ▸ hfits)
  obtain ⟨count, hleast, -, hrun, hsaving, hdone⟩ :=
    run_stops_early plan [diary] [Network.exercise] session
  obtain ⟨epochs, ended, hfacts⟩ := hdone summary after hsuccess
  exact ⟨rfl, by decide, count, summary, after, epochs, ended, hleast 2 rfl (by decide), hsuccess,
    hrun ▸ hsuccess, hsaving, hfacts⟩

end Session

end FeedForward
