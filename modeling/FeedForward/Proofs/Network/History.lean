import FeedForward.Proofs.Network.Topology
import FeedForward.Proofs.Network.Weights

/-!
# Histories of networks

A network is created and then asked for one thing after the other, some of which it refuses. All
that its parts and its neurons must agree on holds after every such history. Two demands are made
on what is asked: restored activations are there, since restoring checks everything else before it
changes anything, and added updates have the shapes of the matrices that they are added to, since
others may broadcast.
-/

namespace FeedForward

variable {α β : Type} [Scalar α] [Add β] [Zero β] [Precision α β]

/-- What a network may be asked for. -/
inductive Operation (α β : Type) where
  | addLayer (plan : LayerPlan)
  | restoreLayers (plan : TopologyPlan α β)
  | setWeightMatrix (index : Int) (table : Table β)
  | updateWeights (updates : List (Update α β))
  | setTraining (training : Bool)
  | setDropRate (rate : α)
  | neurons
  | getOutput (features : Table α)
  | trainByInstance (x : Instance α) (iteration : Int)
  | trainOnline (x : Instance α) (iteration : Int)

namespace Operation

/-- The network after it has been asked, whether it complied or refused. -/
def apply : Operation α β → Network α β → Network α β
  | addLayer plan => Step.after (Network.addLayer plan)
  | restoreLayers plan => Step.after (Network.restoreLayers plan)
  | setWeightMatrix index table => Step.after (Network.setWeightMatrix index table)
  | updateWeights updates => Step.after (Network.updateWeights updates)
  | setTraining training => Step.after (Network.setTraining training)
  | setDropRate rate => Step.after (Network.setDropRate rate)
  | neurons => Step.after Network.neurons
  | getOutput features => Step.after (Network.getOutput features)
  | trainByInstance x iteration => Step.after (Network.trainByInstance x iteration)
  | trainOnline x iteration => Step.after (Network.trainOnline x iteration)

/-- Restored activations are there, and updates have the shapes of the weights that they are
paired with. Nothing is demanded of other operations. -/
def Admissible (net : Network α β) : Operation α β → Prop
  | restoreLayers plan => ∀ ref ∈ plan.activations, ∃ activation,
      Activation.registry.resolve ref = .ok activation
  | updateWeights updates => net.Paired updates
  | _ => True

end Operation

namespace Network

/-- The network after a history of operations. -/
def run : List (Operation α β) → Network α β → Network α β
  | [], net => net
  | operation :: rest, net => run rest (operation.apply net)

/-- Each operation of a history is admissible for the network that it meets. -/
def AdmissibleRun : List (Operation α β) → Network α β → Prop
  | [], _ => True
  | operation :: rest, net => operation.Admissible net ∧ AdmissibleRun rest (operation.apply net)

omit [Add β] [Zero β] [Precision α β] in
theorem mapM_resolveOrRefuse {refs : List (Ref (Activation α))}
    (hrefs : ∀ ref ∈ refs, ∃ activation, Activation.registry.resolve ref = .ok activation) :
    ∃ activations, refs.mapM (resolveOrRefuse Activation.registry) = .ok activations := by
  induction refs with
  | nil => exact ⟨[], rfl⟩
  | cons ref refs ih =>
      obtain ⟨activation, hactivation⟩ := hrefs ref List.mem_cons_self
      obtain ⟨activations, hactivations⟩ := ih fun other hother =>
        hrefs other (List.mem_cons_of_mem ref hother)
      have hresolve : resolveOrRefuse Activation.registry ref = .ok activation := by
        rw [resolveOrRefuse, hactivation]
      refine ⟨activation :: activations, ?_⟩
      rw [List.mapM_cons, hresolve, hactivations]
      rfl

/-- A trained instance gives updates that can be added to the weights. -/
theorem preserves_trainOnline (x : Instance α) (iteration : Int) :
    Step.Preserves Sound (trainOnline x iteration : Step (Network α β) (List (Tensor β))) := by
  intro net hnet
  refine Step.after_bind_of (preserves_trainByInstance x iteration net hnet)
    fun updates trained hrun htrained => ?_
  have hprevious := trainByInstance_previous hrun
  -- The updates have become the last updates, which have the shapes of the matrices.
  have hpaired : trained.Paired (updates.map (Update.stored (α := α))) := by
    intro k update matrix hk hmatrix
    rw [List.getElem?_map] at hk
    obtain ⟨stored, hstored, rfl⟩ := Option.map_eq_some_iff.mp hk
    change stored.shape = matrix.shape
    rw [htrained.wellFormed.weights_shape k matrix hmatrix,
      htrained.wellFormed.previous_shape k stored (hprevious ▸ hstored)]
  exact Step.after_bind_of (htrained.after_updateWeights hpaired) fun _ _ _ hsound => hsound

/-- One operation, whether the network complies or refuses. -/
theorem Sound.apply {net : Network α β} (hnet : net.Sound) {operation : Operation α β}
    (hadmissible : operation.Admissible net) : (operation.apply net).Sound := by
  cases operation with
  | addLayer plan => exact preserves_addLayer plan net hnet
  | restoreLayers plan =>
      obtain ⟨activations, hactivations⟩ := mapM_resolveOrRefuse hadmissible
      exact hnet.after_restoreLayers hactivations
  | setWeightMatrix index table => exact preserves_setWeightMatrix index table net hnet
  | updateWeights updates => exact hnet.after_updateWeights hadmissible
  | setTraining training => exact preserves_setTraining training net hnet
  | setDropRate rate => exact preserves_setDropRate rate net hnet
  | neurons => exact preserves_neurons net hnet
  | getOutput features => exact preserves_getOutput features net hnet
  | trainByInstance x iteration => exact preserves_trainByInstance x iteration net hnet
  | trainOnline x iteration => exact preserves_trainOnline x iteration net hnet

/-- A history of operations. -/
theorem Sound.run {net : Network α β} (hnet : net.Sound) {operations : List (Operation α β)}
    (hadmissible : AdmissibleRun operations net) : (Network.run operations net).Sound := by
  induction operations generalizing net with
  | nil => exact hnet
  | cons operation rest ih => exact ih (hnet.apply hadmissible.1) hadmissible.2

/-- After every history of a new network its lists describe the same layers, the output layer is
the last one, layers have room for their bias units, the drop rate lies between zero and one, and
neurons are there only when the network is complete: one for each place, with the rule and the
activation of its layer and with the rates and the training flag of the network. -/
theorem run_create_sound {settings : Settings α} {created : Network α β}
    (hcreate : create settings = .ok created) {operations : List (Operation α β)}
    (hadmissible : AdmissibleRun operations created) :
    (Network.run operations created).WellFormed ∧ (Network.run operations created).NeuronsFollow :=
  have hsound := (create_sound hcreate).run hadmissible
  ⟨hsound.wellFormed, hsound.follow⟩

/-- What the default settings create. -/
def blank : Network Double Single where
  learningRate := 0.1
  momentumWeight := 0
  regularizationWeight := 0
  cost := .squaredError
  style := .supervised
  method := TrainingMethod.gradientDescent.name
  transformer := .identity
  dropRate := 0
  training := false
  trainingError := 0
  sizes := []
  weights := []
  previous := []
  activations := []
  rules := []
  outputLayer := none
  source := ⟨0⟩
  arena := none

/-- Two layers with a unit each, a third one that is refused, and other layers in the end. -/
def shortHistory : List (Operation Double Single) :=
  [.addLayer (.default 1), .addLayer { LayerPlan.default 1 with isOutput := true }, .neurons,
    .addLayer (.default 1), .updateWeights [.stored (.fill [1, 2] 0)], .setTraining true,
    .trainOnline ⟨some (.ofList [1]), some (some (.ofList [0]))⟩ 0,
    .restoreLayers ⟨[2, 1], 1, [.named "softmax"], ["max"], [some (.fill [1, 2] 0)]⟩]

theorem create_blank : create .default = .ok blank := rfl

theorem admissible_shortHistory : AdmissibleRun shortHistory blank := by
  refine ⟨trivial, trivial, trivial, trivial, ?_, trivial, trivial, ?_, trivial⟩
  · intro k update matrix hk hmatrix
    cases k with
    | zero => cases hk; cases hmatrix; rfl
    | succ k => cases hk
  · intro ref href
    cases List.mem_singleton.mp href
    exact ⟨.softmaxPart, rfl⟩

theorem run_create_sound_shortHistory :
    create .default = .ok blank ∧ AdmissibleRun shortHistory blank ∧
      (Network.run shortHistory blank).WellFormed ∧
      (Network.run shortHistory blank).NeuronsFollow :=
  ⟨create_blank, admissible_shortHistory, run_create_sound create_blank admissible_shortHistory⟩

end Network

end FeedForward
