import FeedForward.Proofs.Network.History
import FeedForward.Proofs.Network.Lasting
import FeedForward.Proofs.Network.Restoring

/-!
# Coherent training flags

A network and each of its neurons hold a training flag, and a neuron that is built takes over the
flag that the network has then. No operation lets the copies come apart, and none drops a unit
behind the input layer. Nothing is asked of the operations: added updates may broadcast, restored
activations may not be there, and then the lists of the network contradict each other.
-/

namespace FeedForward

namespace Neuron

variable {α : Type}

/-- What a neuron holds of training: its flag, and whether it is dropped. -/
def flags (n : Neuron α) : Bool × Bool := (n.training, n.dropped)

theorem overlooks_flags : Overlooks (flags (α := α)) :=
  ⟨fun _ _ => rfl, fun _ _ => rfl, fun _ _ => rfl⟩

end Neuron

namespace Network

variable {α β γ : Type}

/-! ## Neurons -/

/-- All neurons hold one training flag, and none behind the input layer is dropped. -/
structure Carry (training : Bool) (arena : Arena α) : Prop where
  training_eq : ∀ layer ∈ arena, ∀ n ∈ layer, n.training = training
  kept : ∀ layer ∈ arena.tail, ∀ n ∈ layer, n.dropped = false

/-- Neurons with the flags of others. -/
theorem exists_of_flags {layers others : List (List (Neuron α))}
    (hflags : others.map (List.map Neuron.flags) = layers.map (List.map Neuron.flags))
    {other : List (Neuron α)} (hother : other ∈ others) {n : Neuron α} (hn : n ∈ other) :
    ∃ layer ∈ layers, ∃ m ∈ layer, m.flags = n.flags := by
  have hmem : other.map Neuron.flags ∈ layers.map (List.map Neuron.flags) :=
    hflags ▸ List.mem_map_of_mem hother
  obtain ⟨layer, hlayer, hsame⟩ := List.mem_map.mp hmem
  have hunit : n.flags ∈ layer.map Neuron.flags := hsame ▸ List.mem_map_of_mem hn
  obtain ⟨m, hm, hmn⟩ := List.mem_map.mp hunit
  exact ⟨layer, hlayer, m, hm, hmn⟩

theorem Carry.of_flags {training : Bool} {arena other : Arena α} (hcarry : Carry training arena)
    (hflags : other.map (List.map Neuron.flags) = arena.map (List.map Neuron.flags)) :
    Carry training other := by
  constructor
  case training_eq =>
    intro layer hlayer n hn
    obtain ⟨old, hold, m, hm, hmn⟩ := exists_of_flags hflags hlayer hn
    exact (congrArg Prod.fst hmn).symm.trans (hcarry.training_eq old hold m hm)
  case kept =>
    have htail : other.tail.map (List.map Neuron.flags) =
        arena.tail.map (List.map Neuron.flags) := by
      rw [List.map_tail, hflags, List.map_tail]
    intro layer hlayer n hn
    obtain ⟨old, hold, m, hm, hmn⟩ := exists_of_flags htail hlayer hn
    exact (congrArg Prod.snd hmn).symm.trans (hcarry.kept old hold m hm)

/-- The neurons of a network hold its training flag. -/
def Coherent (net : Network α β) : Prop :=
  ∀ arena, net.arena = some arena → Carry net.training arena

theorem Coherent.of_arena_none {net : Network α β} (hnone : net.arena = none) : net.Coherent := by
  intro arena harena
  rw [hnone] at harena
  cases harena

/-- A network with the flag and the neurons of another one. -/
theorem Coherent.of_same {net other : Network α β} (hnet : net.Coherent)
    (htraining : other.training = net.training) (harena : other.arena = net.arena) :
    other.Coherent := by
  intro arena hother
  rw [htraining]
  exact hnet arena (harena ▸ hother)

theorem Coherent.withArena {net : Network α β} {arena : Arena α}
    (hcarry : Carry net.training arena) : (net.withArena arena).Coherent := by
  intro other hother
  obtain rfl : arena = other := Option.some.inj hother
  exact hcarry

variable [Scalar α]

/-! ## Neurons that are built or asked for -/

theorem exists_of_buildLayer {net : Network α β} {place size : Nat} {layer : List (Neuron α)}
    (hbuild : net.buildLayer place size = .ok layer) :
    ∃ rule activation, layer = (List.range size).map fun (id : Nat) =>
      .create (some rule) id place activation net.learningRate net.momentumWeight net.training := by
  cases place with
  | zero => cases hbuild; exact ⟨_, _, rfl⟩
  | succ boundary =>
      obtain ⟨rule, -, hbuild⟩ := Check.bind_eq_ok_iff.mp hbuild
      obtain ⟨activation, -, hbuild⟩ := Check.bind_eq_ok_iff.mp hbuild
      cases hbuild
      exact ⟨rule, activation, rfl⟩

/-- Every built neuron takes over the flag of the network and is not dropped. -/
theorem flags_of_buildArena {net : Network α β} {arena : Arena α}
    (hbuild : net.buildArena = .ok arena) {layer : List (Neuron α)} (hlayer : layer ∈ arena)
    {n : Neuron α} (hn : n ∈ layer) : n.flags = (net.training, false) := by
  obtain ⟨_, -, hlayers⟩ := Check.bind_eq_ok_iff.mp hbuild
  have hmem : Except.ok layer ∈ net.sizes.zipIdx.map fun entry =>
      net.buildLayer entry.2 entry.1 :=
    Check.mapM_eq_ok_iff.mp hlayers ▸ List.mem_map_of_mem hlayer
  obtain ⟨entry, -, hentry⟩ := List.mem_map.mp hmem
  obtain ⟨rule, activation, rfl⟩ := exists_of_buildLayer hentry
  obtain ⟨id, -, rfl⟩ := List.mem_map.mp hn
  rfl

theorem carry_of_buildArena {net : Network α β} {arena : Arena α}
    (hbuild : net.buildArena = .ok arena) : Carry net.training arena where
  training_eq := fun _ hlayer _ hn => congrArg Prod.fst (flags_of_buildArena hbuild hlayer hn)
  kept := fun _ hlayer _ hn =>
    congrArg Prod.snd (flags_of_buildArena hbuild (List.mem_of_mem_tail hlayer) hn)

theorem Coherent.atHand {net : Network α β} (hnet : net.Coherent) {arena : Arena α}
    (hhand : net.AtHand arena) : Carry net.training arena := by
  rcases hhand with hthere | ⟨-, hbuild⟩
  · exact hnet arena hthere
  · exact carry_of_buildArena hbuild

theorem coherent_neurons : Step.Preserves Coherent (neurons : Step (Network α β) (Arena α)) := by
  intro net hnet
  rw [Step.after]
  rcases net.bare_or_atHand with ⟨fault, hbare⟩ | ⟨arena, hhand⟩
  · rw [hbare.neurons_run]
    exact hnet
  · rw [hhand.neurons_run]
    exact .withArena (hnet.atHand hhand)

theorem coherent_onArena {act : Step (Arena α) γ}
    (hact : Step.Keeps (List.map (List.map Neuron.flags)) act) :
    Step.Preserves Coherent (onArena act : Step (Network α β) γ) := by
  intro net hnet
  rw [Step.after]
  rcases net.bare_or_atHand with ⟨fault, hbare⟩ | ⟨arena, hhand⟩
  · rw [hbare.onArena_run]
    exact hnet
  · rw [hhand.onArena_run, Step.after_mapState]
    exact .withArena ((hnet.atHand hhand).of_flags (hact arena))

/-! ## Passes -/

/-- Feeding the input layer changes no training flag and reaches no other layer. -/
theorem Carry.fedUnits {net : Network α β} {training : Bool} {arena : Arena α}
    (hcarry : Carry training arena) (values : List α) :
    Carry training ((net.withArena arena).fedUnits values).1 := by
  constructor
  case training_eq =>
    intro layer hlayer n hn
    obtain ⟨old, hold, m, hm, hmn⟩ :=
      exists_of_freshUnits ((net.withArena arena).freshUnits_fedUnits values) hlayer hn
    exact (congrArg Neuron.training hmn).trans (hcarry.training_eq old hold m hm)
  case kept =>
    have htail : ((net.withArena arena).fedUnits values).1.tail = arena.tail := by
      change (arena.set 0 _).tail = arena.tail
      cases arena <;> rfl
    rw [htail]
    exact hcarry.kept

theorem coherent_forward [Precision α β] (values : List α) :
    Step.Preserves Coherent (forward values : Step (Network α β) (List α)) := by
  intro net hnet
  rw [Step.after]
  rcases net.bare_or_atHand with ⟨fault, hbare⟩ | ⟨arena, hhand⟩
  · rw [hbare.forward_run]
    exact hnet
  · rw [hhand.forward_run, Step.after_mapState]
    exact .withArena (((hnet.atHand hhand).fedUnits values).of_flags
      (keeps_forwardUnits _ Neuron.overlooks_flags _))

theorem coherent_getOutput [Precision α β] (features : Table α) :
    Step.Preserves Coherent (getOutput features : Step (Network α β) (List α)) :=
  .bind .get fun _ => .bind (.lift _) fun _ => coherent_forward _

variable [Add β] [Zero β] [Precision α β]

theorem coherent_backward (labels : List α) (iteration : Int) :
    Step.Preserves Coherent
      (backward labels iteration : Step (Network α β) (List (Tensor β))) :=
  .bind .get fun net =>
    .bind (coherent_onArena (net.keeps_backwardUnits Neuron.overlooks_flags labels iteration))
      fun _ => .bind (.modify fun _ hnet => hnet.of_same rfl rfl) fun _ => .pure _

theorem coherent_trainByInstance (x : Instance α) (iteration : Int) :
    Step.Preserves Coherent
      (trainByInstance x iteration : Step (Network α β) (List (Tensor β))) :=
  .bind .get fun _ => .bind (.lift _) fun _ => .bind (coherent_forward _) fun _ =>
    .bind (.lift _) fun _ => .bind (.modify fun _ hnet => hnet.of_same rfl rfl) fun _ =>
      coherent_backward _ _

/-! ## Other operations -/

theorem coherent_updateWeights (updates : List (Update α β)) :
    Step.Preserves Coherent (updateWeights updates : Step (Network α β) Unit) := by
  have hadd : Step.Preserves Coherent fun net : Network α β =>
      Step.mapState (fun weights => { net with weights })
        (Step.combine Update.addTo updates net.weights) := by
    intro net hnet
    simp only [Step.after]
    cases Step.combine Update.addTo updates net.weights <;> exact hnet.of_same rfl rfl
  exact .bind .get fun net => .ite (.bind (.throw _) fun _ => hadd) hadd

omit [Scalar α] [Add β] [Zero β] [Precision α β] in
theorem coherent_setWeightMatrix (index : Int) (table : Table β) :
    Step.Preserves Coherent (setWeightMatrix index table : Step (Network α β) Unit) := by
  intro net hnet
  rw [setWeightMatrix, Step.after_bind, Step.get_run]
  dsimp only
  split
  · exact hnet
  · rw [Step.after_bind, Step.lift_run]
    cases lineUp table with
    | error fault => exact hnet
    | ok matrix =>
        dsimp only
        split
        · exact hnet
        · exact hnet.of_same rfl rfl

omit [Add β] [Zero β] [Precision α β] in
theorem coherent_setDropRate (rate : α) :
    Step.Preserves Coherent (setDropRate rate : Step (Network α β) Unit) :=
  .bind (.lift _) fun _ => .modify fun _ hnet => hnet.of_same rfl rfl

omit [Scalar α] [Add β] [Zero β] [Precision α β] in
/-- Switching training gives one flag to the network and to all neurons there are. -/
theorem coherent_setTraining (training : Bool) :
    Step.Preserves Coherent (setTraining training : Step (Network α β) Unit) := by
  intro net hnet arena harena
  obtain ⟨old, hold, rfl⟩ := Option.map_eq_some_iff.mp harena
  constructor
  case training_eq =>
    intro layer hlayer n hn
    obtain ⟨oldLayer, -, rfl⟩ := List.mem_map.mp hlayer
    obtain ⟨m, -, rfl⟩ := List.mem_map.mp hn
    rfl
  case kept =>
    rw [← List.map_tail]
    intro layer hlayer n hn
    obtain ⟨oldLayer, hmem, rfl⟩ := List.mem_map.mp hlayer
    obtain ⟨m, hm, rfl⟩ := List.mem_map.mp hn
    exact (hnet old hold).kept oldLayer hmem m hm

omit [Add β] in
/-- A layer is added only where no neurons have been built. -/
theorem coherent_addLayer (plan : LayerPlan) :
    Step.Preserves Coherent (addLayer plan : Step (Network α β) Nat) := by
  intro net hnet
  rw [Step.after, addLayer_run]
  cases hcheck : net.checkLayer plan with
  | error fault => exact hnet
  | ok checked =>
      have harena := (checkLayer_eq_ok hcheck).2.1
      exact .of_arena_none ((net.grow_arena ..).trans harena)

omit [Add β] [Precision α β] in
/-- Restored layers have no neurons yet, and layers that are not restored keep theirs. -/
theorem coherent_restoreLayers (plan : TopologyPlan α β) :
    Step.Preserves Coherent (restoreLayers plan : Step (Network α β) Unit) := by
  intro net hnet
  rw [Step.after, restoreLayers_stages]
  cases checkTopology plan with
  | error fault => exact hnet
  | ok restored =>
      cases plan.activations.mapM (resolveOrRefuse Activation.registry) with
      | error fault => exact hnet.of_same rfl rfl
      | ok activations => exact .of_arena_none rfl

theorem coherent_trainOnline (x : Instance α) (iteration : Int) :
    Step.Preserves Coherent (trainOnline x iteration : Step (Network α β) (List (Tensor β))) :=
  .bind (coherent_trainByInstance x iteration) fun _ => .bind (coherent_updateWeights _) fun _ =>
    .pure _

/-- One operation, whether the network complies or refuses. -/
theorem Coherent.apply {net : Network α β} (hnet : net.Coherent) (operation : Operation α β) :
    (operation.apply net).Coherent := by
  cases operation with
  | addLayer plan => exact coherent_addLayer plan net hnet
  | restoreLayers plan => exact coherent_restoreLayers plan net hnet
  | setWeightMatrix index table => exact coherent_setWeightMatrix index table net hnet
  | updateWeights updates => exact coherent_updateWeights updates net hnet
  | setTraining training => exact coherent_setTraining training net hnet
  | setDropRate rate => exact coherent_setDropRate rate net hnet
  | neurons => exact coherent_neurons net hnet
  | getOutput features => exact coherent_getOutput features net hnet
  | trainByInstance x iteration => exact coherent_trainByInstance x iteration net hnet
  | trainOnline x iteration => exact coherent_trainOnline x iteration net hnet

end Network

end FeedForward
