import FeedForward.Proofs.Session.Lockstep
import FeedForward.Proofs.Session.Run

/-!
# Listeners that only take notes

Listeners that never fail have no part in the training. A run with them is the run with a diary that
is told of every epoch and its loss, and their notes are what they make of the reports in the diary.
The diary of a run that succeeds has one report for each epoch, counted from one, and the count of
steps and the loss of the run agree with it.
-/

namespace FeedForward.Session

variable {α β τ γ : Type}

/-! ## Notes -/

/-- Listeners never fail, and what they make of an epoch is a change of their notes. -/
def TakeNotes (listeners : List (Listener α τ)) (note : Nat → α → τ → τ) : Prop :=
  ∀ epoch loss log, Listener.notifyAll listeners epoch loss log = .ok () (note epoch loss log)

/-- The notes on the epochs of a diary, whose last report is in front. -/
def notesOn (note : Nat → α → τ → τ) (log : τ) (reports : List (Nat × α)) : τ :=
  reports.foldr (fun report => note report.1 report.2) log

/-- A session and one on the same network that has come equally far and keeps a diary instead of the
notes. -/
structure Retold (note : Nat → α → τ → τ) (log : τ) (s : Session α β τ)
    (t : Session α β (List (Nat × α))) : Prop where
  network_eq : t.network = s.network
  iteration_eq : t.iteration = s.iteration
  log_eq : s.log = notesOn note log t.log

section

variable {note : Nat → α → τ → τ} {log : τ} {s : Session α β τ} {t : Session α β (List (Nat × α))}

theorem Retold.agree_onNetwork (hretold : Retold note log s t) (act : Step (Network α β) γ) :
    Step.Agree (Retold note log) (Retold note log) (onNetwork act s) (onNetwork act t) := by
  rw [onNetwork, onNetwork, hretold.network_eq]
  cases act s.network with
  | ok x net => exact .ok ⟨rfl, hretold.iteration_eq, hretold.log_eq⟩
  | error fault net => exact .error ⟨rfl, hretold.iteration_eq, hretold.log_eq⟩

variable [Scalar α] [Add β] [Zero β] [Precision α β]

theorem Retold.agree_trainBatch (hretold : Retold note log s t) (batch : List (Instance α)) :
    Step.Agree (Retold note log) (Retold note log) (trainBatch batch s) (trainBatch batch t) := by
  cases batch with
  | nil => exact .ok hretold
  | cons x rest =>
      rw [trainBatch, trainBatch, Step.bind_run, Step.get_run, Step.bind_run, Step.get_run]
      dsimp only
      rw [hretold.iteration_eq]
      exact .bind (hretold.agree_onNetwork _) fun _ _ _ hdone =>
        .ok ⟨hdone.network_eq, rfl, hdone.log_eq⟩

theorem tandem_retold {listeners : List (Listener α τ)} (hnotes : TakeNotes listeners note) :
    Tandem (Retold (β := β) note log) listeners [diary] where
  batch := Retold.agree_trainBatch
  report := by
    intro s t hretold epoch loss
    rw [onLog, onLog, hnotes, notifyAll_diary]
    exact .ok ⟨hretold.network_eq, hretold.iteration_eq, congrArg (note epoch loss) hretold.log_eq⟩
  switch := fun hretold training => hretold.agree_onNetwork _

/-- A run whose listeners take notes is the run with a diary. -/
theorem run_retold {listeners : List (Listener α τ)} (hnotes : TakeNotes listeners note)
    {plan : RunPlan} {instances : List (Instance α)} {net : Network α β} {iteration : Nat}
    {summary : RunSummary α} {after : Session α β τ}
    (hrun : run plan listeners instances ⟨net, iteration, log⟩ = .ok summary after) :
    ∃ kept, run plan [diary] instances ⟨net, iteration, []⟩ = .ok summary kept ∧
      Retold note log after kept := by
  have hstart : Retold note log ⟨net, iteration, log⟩ ⟨net, iteration, []⟩ := ⟨rfl, rfl, rfl⟩
  have hboth := (tandem_retold hnotes).run hstart plan instances
  rw [hrun] at hboth
  generalize run plan [diary] instances ⟨net, iteration, []⟩ = second at hboth
  cases hboth with
  | ok hretold => exact ⟨_, rfl, hretold⟩

end

/-! ## Diaries -/

variable [Scalar α] [Add β] [Zero β] [Precision α β]

/-- The diary of a run has one report for each epoch, and what the run counts agrees with it. -/
theorem run_diary {plan : RunPlan} {instances : List (Instance α)} {net : Network α β}
    {iteration : Nat} {summary : RunSummary α} {kept : Session α β (List (Nat × α))}
    (hrun : run plan [diary] instances ⟨net, iteration, []⟩ = .ok summary kept) :
    ∃ losses : List α, losses.length ≤ plan.epochs.toNat ∧
      kept.log = (numbered 1 losses).reverse ∧
      summary.steps = losses.length * batchCount plan instances ∧
      summary.loss = losses.getLastD 0 := by
  obtain ⟨source, progress, ended, hcheck, hepochs, rfl, rfl⟩ := run_eq_ok hrun
  obtain ⟨epochs, hleft, -, hevents, -, hsteps, hloss⟩ :=
    happens_runEpochs (batchSize_of_check hcheck) hepochs
  refine ⟨epochs.map lossOf, ?_, (log_of_journal hevents).trans (List.append_nil _), ?_, hloss⟩
  · rwa [List.length_map]
  · rw [List.length_map, hsteps, Nat.zero_add]

end FeedForward.Session
