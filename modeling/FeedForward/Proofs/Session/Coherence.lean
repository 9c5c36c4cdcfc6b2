import FeedForward.Proofs.Network.Rest
import FeedForward.Proofs.Session.Failure
import FeedForward.Proofs.Session.Invariants

/-!
# Training flags over whole runs

The flags of a network and its neurons agree after every history of operations and runs, and a run
whose plan passes leaves the network at rest, also when a batch or a listener fails. A run whose
plan does not pass changes nothing.
-/

namespace FeedForward

namespace Session

open Network

variable {α β τ : Type}

/-! ## Runs that pass their checks -/

variable [Scalar α] [Add β] [Zero β] [Precision α β]

theorem enduring_coherent : Enduring (Coherent (α := α) (β := β)) where
  previous := fun _ _ hnet => hnet.of_same rfl rfl
  pass := coherent_trainByInstance
  update := coherent_updateWeights
  training := coherent_setTraining

/-- A run whose plan does not pass changes nothing. -/
theorem run_of_check_error {plan : RunPlan} {instances : List (Instance α)} {fault : Fault}
    (hcheck : plan.check instances = .error fault) (listeners : List (Listener α τ))
    (s : Session α β τ) : run plan listeners instances s = .error fault s := by
  simp only [run, Step.bind_run, Step.lift_run, hcheck]

/-- Training is off behind a run whose plan passes, whichever way the run ends. -/
theorem training_run {plan : RunPlan} {instances : List (Instance α)} {source : Generator}
    (hcheck : plan.check instances = .ok source) (listeners : List (Listener α τ))
    (s : Session α β τ) :
    (Step.after (run plan listeners instances) s).network.training = false := by
  rw [Step.after, run_of_check hcheck]
  cases runEpochs plan listeners instances.toArray plan.epochs.toNat 1
    ⟨source, 0, 0, Scalar.infinity, 0⟩ (switched true s) <;> rfl

end Session

/-! ## Histories of operations and runs -/

variable {α β : Type}

/-- What befalls a network: it is asked for something, or a session that has come so far trains
it. -/
inductive Episode (α β : Type) where
  | ask (operation : Operation α β)
  | train {τ : Type} (plan : RunPlan) (listeners : List (Listener α τ))
      (instances : List (Instance α)) (iteration : Nat) (log : τ)

variable [Scalar α] [Add β] [Zero β] [Precision α β]

/-- The network behind an episode, whichever way it ended. -/
def Episode.apply : Episode α β → Network α β → Network α β
  | ask operation, net => operation.apply net
  | train plan listeners instances iteration log, net =>
    (Step.after (Session.run plan listeners instances) ⟨net, iteration, log⟩).network

namespace Network

/-- The network behind some episodes, one after the other. -/
def live : List (Episode α β) → Network α β → Network α β
  | [], net => net
  | episode :: rest, net => live rest (episode.apply net)

theorem Coherent.episode {net : Network α β} (hnet : net.Coherent) (episode : Episode α β) :
    (episode.apply net).Coherent := by
  cases episode with
  | ask operation => exact hnet.apply operation
  | train plan listeners instances iteration log =>
      exact Session.enduring_coherent.run plan listeners instances
        ⟨net, iteration, log⟩ hnet

theorem Coherent.live {net : Network α β} (hnet : net.Coherent) (episodes : List (Episode α β)) :
    (Network.live episodes net).Coherent := by
  induction episodes generalizing net with
  | nil => exact hnet
  | cons episode rest ih => exact ih (hnet.episode episode)

/-- After every history of operations and runs of a new network, refused and failed ones among them,
its neurons hold its training flag and none behind the input layer is dropped. A run whose plan
passes leaves the network at rest, whichever way it ends; a run whose plan does not pass changes
nothing. -/
theorem live_create_coherent {settings : Settings α} {created : Network α β}
    (hcreate : create settings = .ok created) (episodes : List (Episode α β)) :
    (live episodes created).Coherent ∧
    ∀ {τ : Type} (plan : RunPlan) (listeners : List (Listener α τ))
        (instances : List (Instance α)) (iteration : Nat) (log : τ),
      let session : Session α β τ := ⟨live episodes created, iteration, log⟩
      (∀ source, plan.check instances = .ok source →
        (Step.after (Session.run plan listeners instances) session).network.AtRest) ∧
      ∀ fault, plan.check instances = .error fault →
        Session.run plan listeners instances session = .error fault session := by
  have hcoherent : (live episodes created).Coherent := by
    obtain ⟨_, _, _, _, _, _, hnone, _⟩ := create_eq_ok hcreate
    exact Coherent.live (.of_arena_none hnone) episodes
  refine ⟨hcoherent, fun plan listeners instances iteration log => ⟨fun source hcheck => ?_,
    fun fault hcheck => Session.run_of_check_error hcheck listeners _⟩⟩
  have hafter := Session.enduring_coherent.run plan listeners instances
    ⟨live episodes created, iteration, log⟩ hcoherent
  exact Coherent.atRest hafter (Session.training_run hcheck listeners _)

/-- Layers that drop units, a run that fails, layers restored in part, and updates that do not
fit. -/
def eventful : List (Episode Double Single) :=
  [.ask (.addLayer (.default 2)), .ask (.addLayer { LayerPlan.default 2 with isOutput := true }),
    .ask (.setDropRate 0.5),
    .train Session.inOrder [Session.diary] [exercise, Session.unlabelled] 0 [],
    .ask (.setTraining true), .ask (.trainOnline exercise 1), .ask (.restoreLayers misnamed),
    .ask (.updateWeights [.wide (.fill [1] 0)])]

/-- A run and a refused run behind an eventful history. -/
theorem live_create_coherent_eventful :
    let session : Session Double Single Unit := ⟨live eventful blank, 3, ()⟩
    let empty : RunPlan := { Session.inOrder with batchSize := 0 }
    create .default = .ok blank ∧ (live eventful blank).Coherent ∧
      (∃ source, Session.inOrder.check [exercise, Session.unlabelled] = .ok source) ∧
      (Step.after (Session.run Session.inOrder [] [exercise, Session.unlabelled])
        session).network.AtRest ∧
      empty.check [exercise] = .error .batchSize ∧
      Session.run empty [] [exercise] session = .error .batchSize session := by
  intro session empty
  obtain ⟨source, hcheck⟩ : ∃ source,
    Session.inOrder.check [exercise, Session.unlabelled] = .ok source := ⟨_, rfl⟩
  have hempty : empty.check [exercise] = .error .batchSize := rfl
  obtain ⟨hcoherent, hruns⟩ := live_create_coherent create_blank eventful
  exact ⟨create_blank, hcoherent, ⟨source, hcheck⟩,
    (hruns Session.inOrder [] [exercise, Session.unlabelled] 3 ()).1 source hcheck, hempty,
    (hruns empty [] [exercise] 3 ()).2 .batchSize hempty⟩

end Network

end FeedForward
