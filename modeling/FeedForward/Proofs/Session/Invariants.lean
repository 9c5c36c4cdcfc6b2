import FeedForward.Proofs.Session.Run

/-!
# Invariants of runs

What holds of a network and is preserved by every batch and by switching training holds behind a
whole run, whichever way it ends. Batches preserve what passes, exchanged weights and last updates
preserve.
-/

namespace FeedForward.Session

open Network

variable {α β τ γ : Type} {inv : Network α β → Prop}

theorem preserves_onNetwork {act : Step (Network α β) γ} (hact : Step.Preserves inv act) :
    Step.Preserves (fun s : Session α β τ => inv s.network) (onNetwork act) := by
  intro s hinv
  have hafter := hact s.network hinv
  rw [Step.after] at hafter ⊢
  rw [onNetwork]
  cases hrun : act s.network with
  | ok x net => rw [hrun] at hafter; exact hafter
  | error fault net => rw [hrun] at hafter; exact hafter

theorem preserves_onLog (act : Step τ γ) :
    Step.Preserves (fun s : Session α β τ => inv s.network) (onLog act) := by
  intro s hinv
  rw [Step.after, onLog]
  cases act s.log <;> exact hinv

variable [Scalar α] [Add β] [Zero β] [Precision α β]

/-! ## Runs -/

section

variable (hbatch : ∀ batch : List (Instance α),
  Step.Preserves (fun s : Session α β τ => inv s.network) (trainBatch batch))

include hbatch

theorem preserves_trainBatches (parts : List (List (Instance α))) :
    Step.Preserves (fun s : Session α β τ => inv s.network) (trainBatches parts) := by
  induction parts with
  | nil => exact .pure _
  | cons part parts ih =>
      exact .bind (hbatch part) fun _ => .bind ih fun _ => .pure _

theorem preserves_runEpochs (plan : RunPlan) (listeners : List (Listener α τ))
    (instances : Array (Instance α)) (left epoch : Nat) (progress : Progress α) :
    Step.Preserves (fun s : Session α β τ => inv s.network)
      (runEpochs plan listeners instances left epoch progress) := by
  induction left generalizing epoch progress with
  | zero => exact .pure _
  | succ left ih =>
      refine .bind ?_ fun progress => .ite (.pure _) (ih _ _)
      exact .bind (preserves_trainBatches hbatch _) fun _ => .bind (preserves_onLog _) fun _ =>
        .ite (.pure _) (.pure _)

/-- A whole run, whichever way it ends. -/
theorem preserves_run
    (htraining : ∀ training, Step.Preserves inv (setTraining training : Step (Network α β) Unit))
    (plan : RunPlan) (listeners : List (Listener α τ)) (instances : List (Instance α)) :
    Step.Preserves (fun s : Session α β τ => inv s.network) (run plan listeners instances) := by
  refine .bind (.lift _) fun source => .bind ?_ fun _ => .pure _
  intro s hinv
  rw [Step.after, whileTraining_run, Step.after_mapState]
  have hswitched := preserves_runEpochs hbatch plan listeners instances.toArray
    plan.epochs.toNat 1 ⟨source, 0, 0, Scalar.infinity, 0⟩ (switched true s)
    (htraining true s.network hinv)
  exact htraining false _ hswitched

end

/-! ## Invariants that ask nothing of batches -/

/-- What every step that a run takes on its network preserves, whatever the last updates and the
added updates are. -/
structure Enduring (inv : Network α β → Prop) : Prop where
  previous : ∀ net previous, inv net → inv { net with previous }
  pass : ∀ (x : Instance α) (iteration : Int), Step.Preserves inv (trainByInstance x iteration)
  update : ∀ updates : List (Update α β), Step.Preserves inv (updateWeights updates)
  training : ∀ training, Step.Preserves inv (setTraining training)

namespace Enduring

variable (henduring : Enduring inv)

include henduring

theorem trainOthers (iteration : Nat) (previous : List (Tensor β)) (rest : List (Instance α))
    (merged : List (Update α β)) :
    Step.Preserves inv (trainOthers iteration previous rest merged) := by
  induction rest generalizing merged with
  | nil => exact .pure _
  | cons x rest ih =>
      refine .bind (.modify fun net hnet => henduring.previous net previous hnet) fun _ =>
        .bind (henduring.pass x iteration) fun updates => .bind .get fun _ => ?_
      split
      · exact .throw _
      · exact .bind (ih _) fun _ => .pure _

theorem trainBatch (batch : List (Instance α)) :
    Step.Preserves (fun s : Session α β τ => inv s.network) (trainBatch batch) := by
  cases batch with
  | nil => exact .pure _
  | cons x rest =>
      refine .bind .get fun s => .bind (preserves_onNetwork ?_) fun _ =>
        .bind (.modify fun _ hinv => hinv) fun _ => .pure _
      exact .bind .get fun net => .bind (henduring.pass x _) fun _ => .bind .get fun _ =>
        .bind (henduring.trainOthers _ _ rest _) fun _ =>
          .bind (henduring.update _) fun _ =>
            .bind (.modify fun net hnet => henduring.previous net _ hnet) fun _ => .pure _

theorem run (plan : RunPlan) (listeners : List (Listener α τ)) (instances : List (Instance α)) :
    Step.Preserves (fun s : Session α β τ => inv s.network) (run plan listeners instances) :=
  preserves_run henduring.trainBatch henduring.training plan listeners instances

end Enduring

end FeedForward.Session
