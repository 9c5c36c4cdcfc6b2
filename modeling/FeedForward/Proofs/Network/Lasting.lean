import FeedForward.Proofs.Network.Passes

/-!
# What passes leave of a network

A pass meets the neurons that are there, or those that it builds; a network whose neurons cannot be
built refuses it as it stands. Whichever way a pass ends, it changes nothing of a network but the
neurons, the random source and the training error, and only a training pass that succeeds stores
last updates. These laws ask nothing of the network: its lists may contradict each other.
-/

namespace FeedForward.Network

variable {α β γ : Type} [Scalar α]

/-! ## Neurons at hand -/

/-- The neurons that a pass meets: those that are there, or else those that can be built. -/
def AtHand (net : Network α β) (arena : Arena α) : Prop :=
  net.arena = some arena ∨ net.arena = none ∧ net.buildArena = .ok arena

/-- There are no neurons, and none can be built. -/
def Bare (net : Network α β) (fault : Fault) : Prop :=
  net.arena = none ∧ net.buildArena = .error fault

theorem bare_or_atHand (net : Network α β) :
    (∃ fault, net.Bare fault) ∨ ∃ arena, net.AtHand arena := by
  cases harena : net.arena with
  | some arena => exact .inr ⟨arena, .inl harena⟩
  | none =>
      cases hbuild : net.buildArena with
      | error fault => exact .inl ⟨fault, harena, hbuild⟩
      | ok arena => exact .inr ⟨arena, .inr ⟨harena, hbuild⟩⟩

section

variable {net : Network α β} {fault : Fault} {arena : Arena α}

theorem Bare.neurons_run (hbare : net.Bare fault) : neurons net = .error fault net := by
  simp only [neurons, Step.bind_run, Step.get_run, Step.lift_run, hbare.1, hbare.2]

/-- The neurons at hand stay in the network. -/
theorem AtHand.neurons_run (hhand : net.AtHand arena) :
    neurons net = .ok arena (net.withArena arena) := by
  rcases hhand with hthere | ⟨hnone, hbuild⟩
  · have hsame : net.withArena arena = net := by rw [withArena, ← hthere]
    simp only [neurons, Step.bind_run, Step.get_run, hthere, Step.pure_run, hsame]
  · simp only [neurons, Step.bind_run, Step.get_run, Step.set_run, Step.lift_run, Step.pure_run,
      hnone, hbuild, withArena]

theorem Bare.onArena_run (hbare : net.Bare fault) (act : Step (Arena α) γ) :
    onArena act net = .error fault net := by
  have hbind := Step.bind_run neurons
    (fun arena (net : Network α β) => Step.mapState net.withArena (act arena)) net
  rw [hbare.neurons_run] at hbind
  exact hbind

/-- A step on the neurons changes those at hand and nothing else. -/
theorem AtHand.onArena_run (hhand : net.AtHand arena) (act : Step (Arena α) γ) :
    onArena act net = Step.mapState net.withArena (act arena) := by
  have hbind := Step.bind_run neurons
    (fun arena (net : Network α β) => Step.mapState net.withArena (act arena)) net
  rw [hhand.neurons_run] at hbind
  exact hbind

variable [Precision α β]

theorem Bare.forward_run (hbare : net.Bare fault) (values : List α) :
    forward values net = .error fault net := by
  rw [forward, Step.bind_run, hbare.neurons_run]

/-- A forward run goes on from the input units of the neurons at hand. -/
theorem AtHand.forward_run (hhand : net.AtHand arena) (values : List α) :
    forward values net = Step.mapState ((net.withArena arena).fed values).withArena
      ((net.withArena arena).forwardUnits ((net.withArena arena).fedUnits values).1) := by
  rw [forward, Step.bind_run, hhand.neurons_run]
  rfl

end

/-! ## What lasts -/

/-- The network without what passes change: its neurons, its random source and its training
error. -/
def lasting (net : Network α β) : Network α β :=
  { net with source := ⟨0⟩, trainingError := 0, arena := none }

/-- Networks in which the same lasts. -/
theorem lasting_eq_iff {net other : Network α β} : other.lasting = net.lasting ↔
    ∃ source trainingError arena, other = { net with source, trainingError, arena } := by
  constructor
  · intro hsame
    refine ⟨other.source, other.trainingError, other.arena, ?_⟩
    cases net
    cases other
    simp only [lasting, mk.injEq] at hsame ⊢
    simp only [hsame, and_self]
  · rintro ⟨source, trainingError, arena, rfl⟩
    rfl

theorem lasting_withArena (net : Network α β) (arena : Arena α) :
    (net.withArena arena).lasting = net.lasting := rfl

theorem lasting_fed (net : Network α β) (values : List α) :
    (net.fed values).lasting = net.lasting := rfl

section

variable {κ : Type} {view : Network α β → κ}
  (hview : ∀ net arena, view (net.withArena arena) = view net)

include hview

/-- Steps on the neurons keep what does not see them. -/
theorem keeps_onArena (act : Step (Arena α) γ) :
    Step.Keeps view (onArena act : Step (Network α β) γ) := by
  intro net
  rw [Step.after]
  rcases net.bare_or_atHand with ⟨fault, hbare⟩ | ⟨arena, hhand⟩
  · rw [hbare.onArena_run]
  · rw [hhand.onArena_run, Step.after_mapState, hview]

theorem keeps_neurons : Step.Keeps view (neurons : Step (Network α β) (Arena α)) := by
  intro net
  rw [Step.after]
  rcases net.bare_or_atHand with ⟨fault, hbare⟩ | ⟨arena, hhand⟩
  · rw [hbare.neurons_run]
  · rw [hhand.neurons_run, hview]

/-- A backward run keeps what sees neither the neurons nor the last updates. -/
theorem keeps_backward [Add β] [Zero β] [Precision α β]
    (hprevious : ∀ net previous, view { net with previous } = view net) (labels : List α)
    (iteration : Int) :
    Step.Keeps view (backward labels iteration : Step (Network α β) (List (Tensor β))) :=
  .bind .get fun _ => .bind (keeps_onArena hview _) fun _ =>
    .bind (.modify fun net => hprevious net _) fun _ => .pure _

end

theorem keeps_forward [Precision α β] (values : List α) :
    Step.Keeps lasting (forward values : Step (Network α β) (List α)) := by
  intro net
  rw [Step.after]
  rcases net.bare_or_atHand with ⟨fault, hbare⟩ | ⟨arena, hhand⟩
  · rw [hbare.forward_run]
  · rw [hhand.forward_run, Step.after_mapState, lasting_withArena, lasting_fed,
      lasting_withArena]

variable [Add β] [Zero β] [Precision α β]

/-- A backward run that fails leaves the last updates as they were. -/
theorem lasting_of_backward_error {labels : List α} {iteration : Int} {net after : Network α β}
    {fault : Fault} (hrun : backward labels iteration net = .error fault after) :
    after.lasting = net.lasting := by
  rw [backward_run] at hrun
  split at hrun
  next => cases hrun
  next harena => cases hrun; exact (keeps_onArena lasting_withArena _).of_error harena

/-- A backward run that succeeds stores its updates, which have the extents of the weights, as the
last ones. -/
theorem lasting_of_backward_ok {labels : List α} {iteration : Int} {net after : Network α β}
    {updates : List (Tensor β)} (hrun : backward labels iteration net = .ok updates after) :
    after.lasting = { net with previous := updates }.lasting ∧
      updates.map Tensor.shape = net.weights.map Tensor.shape := by
  rw [backward_run] at hrun
  rcases net.bare_or_atHand with ⟨fault, hbare⟩ | ⟨arena, hhand⟩
  · rw [hbare.onArena_run] at hrun
    cases hrun
  · rw [hhand.onArena_run] at hrun
    cases hback : net.backwardUnits labels iteration arena with
    | error fault units => rw [hback] at hrun; cases hrun
    | ok _ units => rw [hback] at hrun; cases hrun; exact ⟨rfl, shapes_backwardUnits hback⟩

/-- An instance that the checks refuse changes nothing. -/
theorem trainByInstance_refused {net : Network α β} {x : Instance α} {fault : Fault}
    (hcheck : net.checkInstance x = .error fault) (iteration : Int) :
    trainByInstance x iteration net = .error fault net := by
  simp only [trainByInstance, Step.bind_run, Step.get_run, Step.lift_run, hcheck]

/-- A training pass that fails leaves the last updates as they were. -/
theorem lasting_of_trainByInstance_error {x : Instance α} {iteration : Int}
    {net after : Network α β} {fault : Fault}
    (hrun : trainByInstance x iteration net = .error fault after) :
    after.lasting = net.lasting := by
  rcases parts_of_trainByInstance_error hrun with ⟨-, rfl⟩ | ⟨_, _, -, hforward | hrest⟩
  · rfl
  · exact (keeps_forward _).of_error hforward
  · obtain ⟨_, fed, hforward, hrest⟩ := hrest
    have hfed := (keeps_forward _).of_ok hforward
    rcases hrest with ⟨_, _, -, rfl⟩ | ⟨_, hbackward⟩
    · exact hfed
    · exact (lasting_of_backward_error hbackward).trans hfed

/-- A training pass that succeeds stores its updates, which have the extents of the weights, as the
last ones. -/
theorem lasting_of_trainByInstance_ok {x : Instance α} {iteration : Int}
    {net after : Network α β} {updates : List (Tensor β)}
    (hrun : trainByInstance x iteration net = .ok updates after) :
    after.lasting = { net with previous := updates }.lasting ∧
      updates.map Tensor.shape = net.weights.map Tensor.shape := by
  obtain ⟨_, _, _, fed, _, -, hforward, hbackward⟩ := parts_of_trainByInstance_ok hrun
  have hfed : fed.lasting = net.lasting := (keeps_forward _).of_ok hforward
  obtain ⟨hlasting, hshapes⟩ := lasting_of_backward_ok hbackward
  obtain ⟨source, trainingError, arena, rfl⟩ := lasting_eq_iff.mp hfed
  exact ⟨hlasting, hshapes⟩

theorem weights_of_trainByInstance {x : Instance α} {iteration : Int} {net after : Network α β}
    {updates : List (Tensor β)} (hrun : trainByInstance x iteration net = .ok updates after) :
    after.weights = net.weights := by
  obtain ⟨_, _, _, rfl⟩ := lasting_eq_iff.mp (lasting_of_trainByInstance_ok hrun).1
  rfl

/-! ## What exchanging weights leaves -/

section

variable {κ : Type} {view : Network α β → κ}

omit [Scalar α] [Add β] [Zero β] [Precision α β] in
/-- Replacing a weight matrix keeps what does not see the weights. -/
theorem keeps_setWeightMatrix (hview : ∀ net weights, view { net with weights } = view net)
    (index : Int) (table : Table β) :
    Step.Keeps view (setWeightMatrix index table : Step (Network α β) Unit) := by
  intro net
  rw [setWeightMatrix, Step.after_bind, Step.get_run]
  dsimp only
  split
  next => rfl
  next =>
    rw [Step.after_bind, Step.lift_run]
    cases lineUp table with
    | error fault => rfl
    | ok matrix =>
        dsimp only
        split
        · rfl
        · exact hview net _

/-- Adding updates keeps what does not see the weights. -/
theorem keeps_updateWeights (hview : ∀ net weights, view { net with weights } = view net)
    (updates : List (Update α β)) :
    Step.Keeps view (updateWeights updates : Step (Network α β) Unit) := by
  have hcombine : Step.Keeps view (fun net => Step.mapState (fun weights => { net with weights })
      (Step.combine Update.addTo updates net.weights) : Step (Network α β) Unit) :=
    .part hview
  exact .bind .get fun _ => .ite (.bind (.throw _) fun _ => hcombine) hcombine

end

end FeedForward.Network
