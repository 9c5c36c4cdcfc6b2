import FeedForward.Proofs.Lockstep
import FeedForward.Session.Run

/-!
# Runs of sessions in lockstep

Runs of one plan on two sessions agree when their batches agree, when telling the listeners of an
epoch does, and when switching training keeps the sessions related. The two runs may have listeners
of their own, which may write down different things.
-/

namespace FeedForward.Session

variable {α β τ τ' : Type} [Scalar α] [Add β] [Zero β] [Precision α β]
  {rel : Session α β τ → Session α β τ' → Prop} {listeners : List (Listener α τ)}
  {listeners' : List (Listener α τ')}

/-- Sessions whose batches, reports and switches of training keep them related. -/
structure Tandem (rel : Session α β τ → Session α β τ' → Prop) (listeners : List (Listener α τ))
    (listeners' : List (Listener α τ')) : Prop where
  batch : ∀ {s t}, rel s t → ∀ batch : List (Instance α),
    Step.Agree rel rel (trainBatch batch s) (trainBatch batch t)
  report : ∀ {s t}, rel s t → ∀ epoch loss,
    Step.Agree rel rel (onLog (Listener.notifyAll listeners epoch loss) s)
      (onLog (Listener.notifyAll listeners' epoch loss) t)
  switch : ∀ {s t}, rel s t → ∀ training,
    Step.Agree rel rel (onNetwork (Network.setTraining training) s)
      (onNetwork (Network.setTraining training) t)

namespace Tandem

variable (htandem : Tandem rel listeners listeners') {s : Session α β τ} {t : Session α β τ'}
  (hrel : rel s t)

include htandem hrel

theorem trainBatches (parts : List (List (Instance α))) :
    Step.Agree rel rel (trainBatches parts s) (trainBatches parts t) := by
  induction parts generalizing s t with
  | nil => exact .ok hrel
  | cons part parts ih =>
      exact .bind (htandem.batch hrel part) fun _ _ _ hfirst =>
        .bind (ih hfirst) fun _ _ _ hrest => .ok hrest

theorem runEpoch (plan : RunPlan) (instances : Array (Instance α)) (epoch : Nat)
    (progress : Progress α) :
    Step.Agree rel rel (runEpoch plan listeners instances epoch progress s)
      (runEpoch plan listeners' instances epoch progress t) := by
  refine .bind (htandem.trainBatches hrel _) fun errors _ _ htrained => ?_
  refine .bind (htandem.report htrained _ _) fun _ _ _ hreported => ?_
  exact .ite (fun _ => .ok hreported) fun _ => .ok hreported

theorem runEpochs (plan : RunPlan) (instances : Array (Instance α)) (left epoch : Nat)
    (progress : Progress α) :
    Step.Agree rel rel (runEpochs plan listeners instances left epoch progress s)
      (runEpochs plan listeners' instances left epoch progress t) := by
  induction left generalizing s t epoch progress with
  | zero => exact .ok hrel
  | succ left ih =>
      refine .bind (htandem.runEpoch hrel plan instances epoch progress) fun _ _ _ hepoch => ?_
      exact .ite (fun _ => .ok hepoch) fun _ => ih hepoch _ _

/-- Whole runs. Training is switched off again, also when an epoch fails. -/
theorem run (plan : RunPlan) (instances : List (Instance α)) :
    Step.Agree rel rel (run plan listeners instances s) (run plan listeners' instances t) := by
  have hoff : ∀ a b, rel a b → rel (Step.after (onNetwork (Network.setTraining false)) a)
      (Step.after (onNetwork (Network.setTraining false)) b) :=
    fun _ _ hab => (htandem.switch hab false).after
  refine .lift_bind hrel fun source _ => .bind ?_ fun _ _ _ hdone => .ok hdone
  refine .bind (htandem.switch hrel true) fun _ a b hswitched => ?_
  exact (htandem.runEpochs hswitched plan instances.toArray _ _ _).mapState hoff hoff

end Tandem

end FeedForward.Session
