import FeedForward.Proofs.Network.Restoring
import FeedForward.Proofs.Network.Rest

/-!
# Networks that passes can feed

A pass that gets past its checks finds neurons to feed: there are as many as the layers say, or as
many can be built. This holds behind every operation, refused and failed ones among them, if the
activations of restored layers are there. Nothing is asked of the weights, which may have been
stretched by updates that broadcast.
-/

namespace FeedForward

namespace Network

variable {α β γ : Type} [Scalar α]

/-- What a pass needs to find the units that it feeds: a transformer that keeps counts, a rule and
an activation for every boundary, and as many neurons as the layers say, if there are any. -/
structure Primed (net : Network α β) : Prop where
  transformer : KeepsCount net.transformer
  rules_length : net.rules.length = net.sizes.length - 1
  activations_length : net.activations.length = net.sizes.length - 1
  units : ∀ arena, net.arena = some arena → arena.map List.length = net.sizes

omit [Scalar α] in
theorem lengths_of_view {κ : Type} {view : Neuron α → κ} {arena other : Arena α}
    (hsame : other.map (List.map view) = arena.map (List.map view)) :
    other.map List.length = arena.map List.length := by
  have hlengths := congrArg (List.map List.length) hsame
  simpa only [List.map_map, Function.comp_def, List.length_map] using hlengths

/-- Neurons are built in the numbers that the layers say. -/
theorem lengths_of_buildArena {net : Network α β} {arena : Arena α}
    (hbuild : net.buildArena = .ok arena) : arena.map List.length = net.sizes := by
  obtain ⟨_, -, hlayers⟩ := Check.bind_eq_ok_iff.mp hbuild
  have hlayers := Check.mapM_eq_ok_iff.mp hlayers
  apply List.ext_getElem?
  intro k
  have hplace := congrArg (·[k]?) hlayers
  simp only [List.getElem?_map, List.getElem?_zipIdx, Nat.zero_add] at hplace
  rw [List.getElem?_map]
  cases hsize : net.sizes[k]? with
  | none =>
      rw [hsize] at hplace
      rw [Option.map_eq_none_iff.mp hplace.symm, Option.map_none]
  | some size =>
      rw [hsize] at hplace
      obtain ⟨layer, hlayer, hbuilt⟩ := Option.map_eq_some_iff.mp hplace.symm
      obtain ⟨rule, activation, rfl⟩ := exists_of_buildLayer hbuilt.symm
      rw [hlayer, Option.map_some, List.length_map, List.length_range]

section

variable {net : Network α β} (hnet : net.Primed)

include hnet

theorem Primed.lengths_of_atHand {arena : Arena α} (hhand : net.AtHand arena) :
    arena.map List.length = net.sizes := by
  rcases hhand with hthere | ⟨-, hbuild⟩
  · exact hnet.units arena hthere
  · exact lengths_of_buildArena hbuild

/-- A complete network has its neurons at hand. -/
theorem Primed.exists_atHand {last : Nat} (hcomplete : net.checkComplete = .ok last) :
    ∃ arena, net.AtHand arena := by
  rcases net.bare_or_atHand with ⟨fault, -, hbuild⟩ | hhand
  · rcases Check.bind_eq_error_iff.mp hbuild with hcheck | ⟨_, _, hlayers⟩
    · rw [hcomplete] at hcheck
      cases hcheck
    obtain ⟨front, ⟨size, place⟩, rest, _, hsplit, -, hfails⟩ :=
      Check.mapM_eq_error_iff.mp hlayers
    have hmem : (size, place) ∈ net.sizes.zipIdx := by
      rw [hsplit]
      simp
    have hplace : place < net.sizes.length := List.snd_lt_of_mem_zipIdx hmem
    cases place with
    | zero => cases hfails
    | succ boundary =>
        have hrule : boundary < net.rules.length := by rw [hnet.rules_length]; omega
        have hactivation : boundary < net.activations.length := by
          rw [hnet.activations_length]
          omega
        simp only [buildLayer, itemAt, List.getElem?_eq_getElem hrule,
          List.getElem?_eq_getElem hactivation] at hfails
        cases hfails
  · exact hhand

/-- Other neurons in the same numbers, another source and other numbers in a network. -/
theorem Primed.of_lasting {other : Network α β} (hlasting : other.lasting = net.lasting)
    (hunits : ∀ arena, other.arena = some arena → arena.map List.length = net.sizes) :
    other.Primed := by
  obtain ⟨_, _, _, rfl⟩ := lasting_eq_iff.mp hlasting
  exact { hnet with units := hunits }

omit [Scalar α] in
/-- The values of a pass reach all input units. -/
theorem Primed.width_le {vector : Tensor α} (hvector : vector.toList.length = net.inputWidth)
    (bias : α) : net.width 0 ≤ (bias :: (net.transformer.apply vector).toList).length := by
  have hwidth : net.inputWidth = net.width 0 - 1 := by
    rw [inputWidth, width]
    cases net.sizes <;> rfl
  rw [List.length_cons, hnet.transformer vector, hvector]
  omega

end

theorem primed_onArena {act : Step (Arena α) γ}
    (hact : Step.Keeps (List.map (List.map Neuron.flags)) act) :
    Step.Preserves Primed (onArena act : Step (Network α β) γ) := by
  intro net hnet
  rw [Step.after]
  rcases net.bare_or_atHand with ⟨fault, hbare⟩ | ⟨arena, hhand⟩
  · rw [hbare.onArena_run]
    exact hnet
  · rw [hhand.onArena_run, Step.after_mapState]
    refine hnet.of_lasting (lasting_withArena net _) fun other hother => ?_
    obtain rfl := Option.some.inj hother
    exact (lengths_of_view (hact arena)).trans (hnet.lengths_of_atHand hhand)

theorem primed_forward [Precision α β] (values : List α) :
    Step.Preserves Primed (forward values : Step (Network α β) (List α)) := by
  intro net hnet
  refine hnet.of_lasting (keeps_forward values net) fun other hother => ?_
  rw [Step.after] at hother
  rcases net.bare_or_atHand with ⟨fault, hbare⟩ | ⟨arena, hhand⟩
  · rw [hbare.forward_run] at hother
    rw [hbare.1] at hother
    cases hother
  · rw [hhand.forward_run, Step.after_mapState] at hother
    obtain rfl := Option.some.inj hother
    have hfed := lengths_of_view ((net.withArena arena).freshUnits_fedUnits values)
    exact (lengths_of_view (keeps_forwardUnits _ Neuron.overlooks_flags _)).trans
      (hfed.trans (hnet.lengths_of_atHand hhand))

/-! ## What passes see -/

omit [Scalar α] in
/-- What drawing and feeding see of a network. -/
def bearings (net : Network α β) :
    Transformer α × List Nat × List Rule × List (Activation α) × Option (Arena α) × Generator :=
  (net.transformer, net.sizes, net.rules, net.activations, net.arena, net.source)

omit [Scalar α] in
theorem source_of_bearings {net other : Network α β} (hsame : other.bearings = net.bearings) :
    other.source = net.source := by
  simp only [bearings, Prod.mk.injEq] at hsame
  exact hsame.2.2.2.2.2

omit [Scalar α] in
theorem Primed.of_bearings {net other : Network α β} (hnet : net.Primed)
    (hsame : other.bearings = net.bearings) : other.Primed := by
  simp only [bearings, Prod.mk.injEq] at hsame
  obtain ⟨htransformer, hsizes, hrules, hactivations, harena, -⟩ := hsame
  exact {
    transformer := htransformer ▸ hnet.transformer
    rules_length := by rw [hrules, hsizes, hnet.rules_length]
    activations_length := by rw [hactivations, hsizes, hnet.activations_length]
    units := by rw [hsizes, harena]; exact hnet.units }

theorem keepsBearings_setDropRate (rate : α) :
    Step.Keeps bearings (setDropRate rate : Step (Network α β) Unit) :=
  .bind (.lift _) fun _ => .modify fun _ => rfl

omit [Scalar α] in
theorem keepsBearings_setWeightMatrix (index : Int) (table : Table β) :
    Step.Keeps bearings (setWeightMatrix index table : Step (Network α β) Unit) :=
  keeps_setWeightMatrix (fun _ _ => rfl) index table

theorem keepsBearings_updateWeights [Add β] [Zero β] [Precision α β]
    (updates : List (Update α β)) :
    Step.Keeps bearings (updateWeights updates : Step (Network α β) Unit) :=
  keeps_updateWeights (fun _ _ => rfl) updates

/-! ## What keeps networks primed -/

theorem primed_neurons : Step.Preserves Primed (neurons : Step (Network α β) (Arena α)) := by
  intro net hnet
  rw [Step.after]
  rcases net.bare_or_atHand with ⟨fault, hbare⟩ | ⟨arena, hhand⟩
  · rw [hbare.neurons_run]
    exact hnet
  · rw [hhand.neurons_run]
    refine hnet.of_lasting (lasting_withArena net _) fun other hother => ?_
    obtain rfl := Option.some.inj hother
    exact hnet.lengths_of_atHand hhand

omit [Scalar α] in
theorem primed_setTraining (training : Bool) :
    Step.Preserves Primed (setTraining training : Step (Network α β) Unit) := by
  intro net hnet
  refine { hnet with units := fun arena harena => ?_ }
  obtain ⟨old, hold, rfl⟩ := Option.map_eq_some_iff.mp harena
  change _ = net.sizes
  rw [List.map_map, ← hnet.units old hold]
  exact List.map_congr_left fun layer _ => List.length_map _

section

variable [Add β] [Zero β] [Precision α β]

theorem primed_trainByInstance (x : Instance α) (iteration : Int) :
    Step.Preserves Primed
      (trainByInstance x iteration : Step (Network α β) (List (Tensor β))) := by
  have hbackward (labels : List α) : Step.Preserves Primed
      (backward labels iteration : Step (Network α β) (List (Tensor β))) :=
    .bind .get fun net =>
      .bind (primed_onArena (net.keeps_backwardUnits Neuron.overlooks_flags labels iteration))
        fun _ => .bind (.modify fun _ hnet => hnet.of_bearings rfl) fun _ => .pure _
  exact .bind .get fun _ => .bind (.lift _) fun _ => .bind (primed_forward _) fun _ =>
    .bind (.lift _) fun _ => .bind (.modify fun _ hnet => hnet.of_bearings rfl) fun _ => hbackward _

omit [Add β] in
theorem primed_addLayer (plan : LayerPlan) :
    Step.Preserves Primed (addLayer plan : Step (Network α β) Nat) := by
  intro net hnet
  rw [Step.after, addLayer_run]
  cases hcheck : net.checkLayer plan with
  | error fault => exact hnet
  | ok checked =>
      obtain ⟨activation, rule⟩ := checked
      have harena := (checkLayer_eq_ok hcheck).2.1
      have hrules := hnet.rules_length
      have hactivations := hnet.activations_length
      have hunits : ∀ arena, net.arena = some arena →
          arena.map List.length = (net.grow plan activation rule).sizes := by
        intro arena hsome
        rw [harena] at hsome
        cases hsome
      dsimp only
      rw [grow] at hunits ⊢
      cases hlast : net.sizes.getLast? with
      | none =>
          rw [hlast] at hunits
          rw [List.getLast?_eq_none_iff.mp hlast] at hrules hactivations
          exact {
            transformer := hnet.transformer
            rules_length := by simpa [List.getLast?_eq_none_iff.mp hlast] using hrules
            activations_length := by simpa [List.getLast?_eq_none_iff.mp hlast] using hactivations
            units := hunits }
      | some columns =>
          rw [hlast] at hunits
          have hpositive : 0 < net.sizes.length := by
            refine List.length_pos_of_ne_nil fun hempty => ?_
            rw [hempty] at hlast
            cases hlast
          exact {
            transformer := hnet.transformer
            rules_length := by
              simp only [addBoundary, List.length_append, List.length_singleton]
              omega
            activations_length := by
              simp only [addBoundary, List.length_append, List.length_singleton]
              omega
            units := hunits }

omit [Add β] [Precision α β] in
theorem Primed.after_restoreLayers {net : Network α β} (hnet : net.Primed)
    {plan : TopologyPlan α β} {activations : List (Activation α)}
    (hactivations : plan.activations.mapM (resolveOrRefuse Activation.registry) =
      .ok activations) :
    (Step.after (restoreLayers plan) net).Primed := by
  rw [Step.after, restoreLayers_stages, hactivations]
  cases hcheck : checkTopology plan with
  | error fault => exact hnet
  | ok restored =>
      have hdescribes := checkTopology_eq_ok_iff.mp hcheck
      have houtput := hdescribes.output_last
      have hmany : activations.length = plan.activations.length := by
        have hmap := congrArg List.length (Check.mapM_eq_ok_iff.mp hactivations)
        rw [List.length_map, List.length_map] at hmap
        exact hmap.symm
      exact {
        transformer := hnet.transformer
        rules_length := by
          change restored.rules.length = restored.sizes.length - 1
          rw [hdescribes.rules_length]
          omega
        activations_length := by
          change activations.length = restored.sizes.length - 1
          rw [hmany, hdescribes.activations_length]
          omega
        units := by
          intro arena harena
          cases harena }

end

end Network

namespace Operation

variable {α β : Type} [Scalar α]

/-- Restored activations are there. Nothing is demanded of other operations. -/
def Resolves : Operation α β → Prop
  | restoreLayers plan => ∀ ref ∈ plan.activations, ∃ activation,
      Activation.registry.resolve ref = .ok activation
  | _ => True

end Operation

namespace Network

variable {α β : Type} [Scalar α] [Add β] [Zero β] [Precision α β]

theorem Primed.apply {net : Network α β} (hnet : net.Primed) {operation : Operation α β}
    (hresolves : operation.Resolves) : (operation.apply net).Primed := by
  cases operation with
  | addLayer plan => exact primed_addLayer plan net hnet
  | restoreLayers plan =>
      obtain ⟨activations, hactivations⟩ := mapM_resolveOrRefuse hresolves
      exact hnet.after_restoreLayers hactivations
  | setWeightMatrix index table =>
      exact hnet.of_bearings (keepsBearings_setWeightMatrix index table net)
  | updateWeights updates => exact hnet.of_bearings (keepsBearings_updateWeights updates net)
  | setTraining training => exact primed_setTraining training net hnet
  | setDropRate rate => exact hnet.of_bearings (keepsBearings_setDropRate rate net)
  | neurons => exact primed_neurons net hnet
  | getOutput features =>
      exact Step.Preserves.bind .get (fun _ => .bind (.lift _) fun _ => primed_forward _) net hnet
  | trainByInstance x iteration => exact primed_trainByInstance x iteration net hnet
  | trainOnline x iteration =>
      exact Step.Preserves.bind (primed_trainByInstance x iteration) (fun updates =>
        .bind (fun other hother => hother.of_bearings (keepsBearings_updateWeights _ other))
          fun _ => .pure _) net hnet

end Network

end FeedForward
