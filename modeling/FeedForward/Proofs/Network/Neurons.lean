import FeedForward.Proofs.Network.WellFormed

/-!
# The neurons of a network

The neurons of a well-formed network can be had exactly when it has an output layer: those that
are there are handed out, and otherwise they are built from the layers, which cannot fail then.
Steps on the neurons change nothing else of the network. Nothing is said about what such steps do
to the neurons.
-/

namespace FeedForward.Network

variable {α β γ : Type} [Scalar α]

/-- The network with the given neurons. -/
def withArena (net : Network α β) (arena : Arena α) : Network α β :=
  { net with arena := some arena }

/-! ## Complete networks -/

theorem WellFormed.checkComplete {net : Network α β} (hnet : net.WellFormed) :
    net.checkComplete = match net.outputLayer with
      | some layer => .ok layer
      | none => .error .noOutputLayer := by
  rw [Network.checkComplete]
  cases houtput : net.outputLayer with
  | none => rfl
  | some layer =>
      have hpositive := (hnet.output_last layer houtput).2
      cases layer with
      | zero => omega
      | succ layer => rfl

theorem buildLayer_eq_ok {net : Network α β} (hnet : net.WellFormed) {layer size : Nat}
    (hlayer : layer < net.sizes.length) :
    net.buildLayer layer size = .ok ((List.range size).map fun (id : Nat) =>
      .create (net.ruleAt layer) id layer (net.activationAt layer) net.learningRate
        net.momentumWeight net.training) := by
  cases layer with
  | zero => rfl
  | succ boundary =>
      have hrule : boundary < net.rules.length := by rw [hnet.rules_length]; omega
      have hactivation : boundary < net.activations.length := by
        rw [hnet.activations_length]
        omega
      simp only [buildLayer, itemAt, ruleAt, activationAt, List.getD_eq_getElem?_getD,
        List.getElem?_eq_getElem hrule, List.getElem?_eq_getElem hactivation]
      rfl

/-- The neurons of a well-formed network with an output layer can be built. -/
theorem buildArena_eq_ok {net : Network α β} (hnet : net.WellFormed) {layer : Nat}
    (houtput : net.outputLayer = some layer) : net.buildArena = .ok net.built := by
  simp only [buildArena, Check.bind_eq_ok_iff, hnet.checkComplete, houtput]
  refine ⟨layer, rfl, ?_⟩
  rw [Check.mapM_eq_ok_iff, built]
  apply List.ext_getElem
  · simp
  · intro k hk _
    have hlayer : k < net.sizes.length := by simpa using hk
    simp [buildLayer_eq_ok hnet hlayer]

/-! ## Neurons at hand -/

theorem neurons_run {net : Network α β} (hnet : net.WellFormed) :
    neurons net = match net.outputLayer with
      | some _ => .ok net.units (net.withArena net.units)
      | none => .error .noOutputLayer net := by
  cases harena : net.arena with
  | some arena =>
      have hcomplete := hnet.arena_complete
      simp only [harena, Option.isSome_some, forall_const] at hcomplete
      obtain ⟨layer, houtput⟩ := Option.isSome_iff_exists.mp hcomplete
      have hsame : net.withArena arena = net := by rw [withArena, ← harena]
      simp only [neurons, Step.bind_run, Step.get_run, Step.pure_run, harena, houtput, units,
        Option.getD_some, hsame]
  | none =>
      simp only [neurons, Step.bind_run, Step.get_run, Step.set_run, Step.lift_run,
        Step.pure_run, harena]
      cases houtput : net.outputLayer with
      | some layer =>
          simp only [buildArena_eq_ok hnet houtput, units, harena, Option.getD_none]
          rw [withArena, houtput]
      | none => simp [buildArena, hnet.checkComplete, houtput, bind, Except.bind]

/-- A step on the neurons of a complete network changes them and nothing else. -/
theorem onArena_run {act : Step (Arena α) γ} {net : Network α β} (hnet : net.WellFormed) :
    onArena act net = match net.outputLayer with
      | some _ => Step.mapState net.withArena (act net.units)
      | none => .error .noOutputLayer net := by
  have hbind := Step.bind_run neurons
    (fun arena (net : Network α β) => Step.mapState net.withArena (act arena)) net
  rw [neurons_run hnet] at hbind
  refine hbind.trans ?_
  cases net.outputLayer <;> rfl

/-- A step on neurons that are there needs nothing else of the network. -/
theorem onArena_run_of_arena {act : Step (Arena α) γ} {net : Network α β} {arena : Arena α}
    (harena : net.arena = some arena) :
    onArena act net = Step.mapState net.withArena (act arena) := by
  have hbind := Step.bind_run neurons
    (fun arena (net : Network α β) => Step.mapState net.withArena (act arena)) net
  have hneurons : neurons net = .ok arena net := by
    simp only [neurons, Step.bind_run, Step.get_run, harena, Step.pure_run]
  rw [hneurons] at hbind
  exact hbind

theorem onArena_eq_ok {act : Step (Arena α) γ} {net net' : Network α β} {x : γ}
    (hnet : net.WellFormed) (hrun : onArena act net = .ok x net') :
    ∃ arena, act net.units = .ok x arena ∧ net' = net.withArena arena := by
  rw [onArena_run hnet] at hrun
  cases houtput : net.outputLayer with
  | none => rw [houtput] at hrun; cases hrun
  | some layer =>
      simp only [houtput] at hrun
      cases hact : act net.units with
      | ok y arena => rw [hact] at hrun; cases hrun; exact ⟨arena, rfl, rfl⟩
      | error fault arena => rw [hact] at hrun; cases hrun

theorem WellFormed.withArena {net : Network α β} (hnet : net.WellFormed)
    (houtput : net.outputLayer.isSome) {arena : Arena α} (hfits : net.Fits arena) :
    (net.withArena arena).WellFormed := by
  refine { hnet with arena_complete := fun _ => houtput, arena_fits := ?_ }
  intro other hother
  obtain rfl : arena = other := by simpa [Network.withArena] using hother
  exact hfits.of_layers rfl rfl rfl

end FeedForward.Network
