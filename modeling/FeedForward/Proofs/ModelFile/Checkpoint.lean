import FeedForward.Proofs.ModelFile.RoundTrip
import FeedForward.Proofs.Numeric.Fraction
import FeedForward.Proofs.Session.Twins

/-!
# Training goes on from a file

A network that rests between two runs is stored and decoded. What comes back answers every further
request as the stored network would have done, had it lost its last updates and its training error:
the neurons that are built anew, the random source that starts again and the entries that are looked
up again cannot be told from the old ones. Without a drop rate nothing is dropped, so that no draw
matters. Updates from outside need extents other than zero here, since added ones with a zero may
take all rows from a matrix and let an old output show through.
-/

namespace FeedForward

namespace Network

variable {α β : Type} [Scalar α]

/-- The network as it would be before any training, but for its weights and its neurons. -/
def withoutHistory [Zero β] (net : Network α β) : Network α β :=
  { net with
    previous := net.weights.map fun matrix => .fill matrix.shape 0
    trainingError := 0 }

/-- No unit behind the input layer is dropped. -/
def Undropped (net : Network α β) : Prop :=
  ∀ arena, net.arena = some arena → ∀ layer ∈ arena.tail, ∀ n ∈ layer, n.dropped = false

/-- Where a neuron stands and the rates of the network say how it was built. -/
theorem Stands.fresh_eq {net : Network α β} {k i : Nat} {n : Neuron α} (hstands : net.Stands k i n)
    (hfollows : net.Follows n) :
    n.fresh = .create (net.ruleAt k) i k (net.activationAt k) net.learningRate net.momentumWeight
      net.training := by
  rw [Neuron.fresh, Neuron.create, hstands.id_eq, hstands.layer_eq, hstands.rule_eq,
    hstands.activation_eq, hfollows.learningRate_eq, hfollows.momentumWeight_eq,
    hfollows.training_eq]

theorem dropped_of_mem_built {net : Network α β} {layer : List (Neuron α)} {n : Neuron α}
    (hlayer : layer ∈ net.built) (hn : n ∈ layer) : n.dropped = false := by
  obtain ⟨k, hk, rfl⟩ := List.mem_mapIdx.mp hlayer
  obtain ⟨id, _, rfl⟩ := List.mem_map.mp hn
  rfl

theorem Undropped.dropped_eq {net : Network α β} (hnet : net.Undropped) {k : Nat}
    (hk : 0 < k) {layer : List (Neuron α)} (hlayer : net.units[k]? = some layer) {n : Neuron α}
    (hn : n ∈ layer) : n.dropped = false := by
  cases harena : net.arena with
  | none =>
      rw [units, harena] at hlayer
      exact dropped_of_mem_built (List.mem_of_getElem? hlayer) hn
  | some arena =>
      rw [units, harena, Option.getD_some] at hlayer
      refine hnet arena harena layer (List.mem_of_getElem? (i := k - 1) ?_) n hn
      rwa [List.getElem?_tail, Nat.sub_add_cancel hk]

/-- Neurons in use are akin to those that would be built now. -/
theorem Sound.related_built {net : Network α β} (hnet : net.Sound) (hundropped : net.Undropped) :
    Related AkinAt net.units net.built := by
  have hfits := hnet.wellFormed.fits_units
  have hbuilt := net.fits_built
  refine .of_getElem? (by rw [hfits.length_eq, hbuilt.length_eq]) fun k layer other hk hother => ?_
  have hlength : other.length = layer.length := by
    rw [hfits.layer_length k layer hk, hbuilt.layer_length k other hother]
  refine .of_getElem? hlength fun i n m hn hm => Neuron.akin_of_fresh ?_ fun hpositive => ?_
  · have hfollows := hnet.follows_units (List.mem_of_getElem? hk) (List.mem_of_getElem? hn)
    have hother' := follows_built (List.mem_of_getElem? hother) (List.mem_of_getElem? hm)
    rw [(hfits.stands k layer i n hk hn).fresh_eq hfollows,
      (hbuilt.stands k other i m hother hm).fresh_eq hother']
  · rw [hundropped.dropped_eq hpositive hk (List.mem_of_getElem? hn),
      dropped_of_mem_built (List.mem_of_getElem? hother) (List.mem_of_getElem? hm)]

end Network

namespace ModelFile

open Network

/-- A network that can be stored and drops nothing. It is not being trained, its neurons are up to
date, and the registries have its parts under their names. -/
structure Resting (net : Network Double Single) : Prop where
  sound : net.Sound
  complete : net.outputLayer.isSome
  sizes_lt : ∀ size ∈ net.sizes.length :: net.sizes, size < 2147483648
  cost_find : Cost.registry.find? net.cost.name = some net.cost
  transformer_find : Transformer.registry.find? net.transformer.name = some net.transformer
  activations_find : ∀ f ∈ net.activations, Activation.registry.find? f.name = some f
  method_ok : ∃ method, TrainingMethod.ofName net.method = .ok method
  training_eq : net.training = false
  dropRate_le : Double.le net.dropRate 0 = true
  undropped : net.Undropped

namespace Resting

variable {net : Network Double Single} (hnet : Resting net)

include hnet

theorem storable : Storable net where
  sizes_lt := hnet.sizes_lt
  cost_listed := ⟨_, hnet.cost_find, rfl⟩
  transformer_listed := ⟨_, hnet.transformer_find, rfl⟩
  activations_listed f hf := ⟨f, hnet.activations_find f hf, rfl⟩
  method_ok := hnet.method_ok

/-- A drop rate of zero is stored exactly, whatever its sign. -/
theorem dropRate_eq :
    (Precision.widen (Precision.narrow net.dropRate : Single) : Double) = net.dropRate := by
  rcases Double.eq_zero_of_le hnet.sound.wellFormed.dropRate_unit.1 hnet.dropRate_le with
    hrate | hrate
  · rw [hrate]
    rfl
  · rw [hrate]
    rfl

/-- What is decoded differs from the stored network in its history, in the spelling of the method,
in the random source and in the neurons. -/
theorem reloaded_eq (method : TrainingMethod) :
    reloaded net method =
      { net.withoutHistory with method := method.name, source := ⟨0⟩, arena := none } := by
  have hcost : Cost.registry.entryFor Cost.name net.cost = net.cost := by
    rw [Registry.entryFor, hnet.cost_find, Option.getD_some]
  have htransformer :
      Transformer.registry.entryFor Transformer.name net.transformer = net.transformer := by
    rw [Registry.entryFor, hnet.transformer_find, Option.getD_some]
  have hactivations : net.activations.map (Activation.registry.entryFor Activation.name) =
      net.activations := by
    refine (List.map_congr_left fun f hf => ?_).trans (List.map_id net.activations)
    rw [Registry.entryFor, hnet.activations_find f hf, Option.getD_some]
    rfl
  rw [reloaded, hcost, htransformer, hactivations, hnet.dropRate_eq, ← hnet.training_eq]
  rfl

theorem twins_reloaded {method : TrainingMethod}
    (hmethod : TrainingMethod.ofName net.method = .ok method) :
    Network.Twins net.withoutHistory (reloaded net method) where
  same := ⟨_, _, _, hnet.reloaded_eq method⟩
  method_eq := (ofName_name method).trans hmethod.symm
  related := by
    rw [hnet.reloaded_eq method]
    exact hnet.sound.related_built hnet.undropped
  stretched := hnet.sound.wellFormed.stretched.withRecords _ _
  complete := hnet.complete
  transformer := keepsCount_of_find? hnet.transformer_find
  sure := Generator.happens_of_rate_zero hnet.sound.wellFormed.dropRate_unit.1 hnet.dropRate_le

end Resting

/-- A resting network can be stored and decoded. What comes back and the network without its history
cannot be told apart: however far the session has come, they give the same answers to the same
requests, or the same faults, and after each of them they show the same weights, last updates and
errors. -/
theorem transcript_decoded {net : Network Double Single} (hnet : Resting net) :
    ∃ bytes decoded, encode net = .ok bytes ∧ decode bytes = .ok decoded ∧
      ∀ {τ : Type} (requests : List (Request Double Single τ)),
        (∀ request ∈ requests, request.Admissible) → ∀ iteration log,
          Request.transcript requests ⟨decoded, iteration, log⟩ =
            Request.transcript requests ⟨net.withoutHistory, iteration, log⟩ := by
  obtain ⟨last, houtput⟩ := Option.isSome_iff_exists.mp hnet.complete
  obtain ⟨method, hmethod⟩ := hnet.method_ok
  obtain ⟨hencode, hdecode⟩ :=
    decode_reloaded hnet.sound.wellFormed houtput hnet.storable hmethod
  refine ⟨_, _, hencode, hdecode, fun requests hadmissible iteration log => ?_⟩
  have htwins : Session.Twins ⟨net.withoutHistory, iteration, log⟩
      ⟨reloaded net method, iteration, log⟩ := ⟨hnet.twins_reloaded hmethod, rfl, rfl⟩
  exact Request.transcript_eq htwins hadmissible

/-- Two layers with a unit each. -/
def pair : Network Double Single :=
  Network.run [.addLayer ⟨1, false, "identity", Rule.standard.key⟩,
    .addLayer ⟨1, true, "identity", Rule.standard.key⟩] blank

/-- Two layers with the traces of training: last updates, an error, outputs and deltas. -/
def worn : Network Double Single :=
  { pair with
    previous := [.fill [1, 2] (Precision.narrow (1 : Double))]
    trainingError := 0.5
    arena := some (pair.units.map (List.map fun n => { n with output := 0.7, delta := 0.3 })) }

theorem resting_worn : Resting worn where
  sound := by
    have hpair : pair.Sound := (create_sound create_blank).run ⟨trivial, trivial, trivial⟩
    have htrained : { pair with
        previous := [.fill [1, 2] (Precision.narrow (1 : Double))]
        trainingError := 0.5 : Network Double Single }.Sound := by
      refine (hpair.withTrainingError 0.5).withPrevious rfl fun k update hk => ?_
      cases k with
      | zero => cases hk; rfl
      | succ k => cases hk
    exact htrained.withArena rfl rfl
  complete := rfl
  sizes_lt := by decide
  cost_find := rfl
  transformer_find := rfl
  activations_find := by
    have hidentity : ∀ f ∈ [(Activation.identity : Activation Double)],
        Activation.registry.find? f.name = some f := by
      intro f hf
      cases List.mem_singleton.mp hf
      rfl
    exact hidentity
  method_ok := ⟨.gradientDescent, rfl⟩
  training_eq := rfl
  dropRate_le := by decide
  undropped := by
    intro arena harena layer hlayer n hn
    cases harena
    cases List.mem_singleton.mp hlayer
    cases List.mem_singleton.mp hn
    rfl

/-- A request of every kind. -/
def manyRequests : List (Request Double Single Unit) :=
  [.getOutput (some (.ofList [1])), .setTraining true,
    .trainByInstance ⟨some (.ofList [1]), some (some (.ofList [0]))⟩ 0,
    .updateWeights [.stored (.fill [1, 2] 0)], .encode, .setWeightMatrix 0 none,
    .trainOnline ⟨some (.ofList [1]), none⟩ 3, .setTraining false,
    .run (.default 2 7) [] [⟨some (.ofList [1]), some (some (.ofList [0]))⟩], .restart]

theorem transcript_decoded_worn :
    Resting worn ∧ (∀ request ∈ manyRequests, request.Admissible) ∧
      ∃ bytes decoded, encode worn = .ok bytes ∧ decode bytes = .ok decoded ∧
        Request.transcript manyRequests ⟨decoded, 4, ()⟩ =
          Request.transcript manyRequests ⟨worn.withoutHistory, 4, ()⟩ := by
  have hadmissible : ∀ request ∈ manyRequests, request.Admissible := by
    have hwhole : Network.Whole [Update.stored (α := Double) (.fill [1, 2] (0 : Single))] := by
      intro update hupdate
      cases List.mem_singleton.mp hupdate
      decide
    simp [manyRequests, Request.Admissible, hwhole]
  obtain ⟨bytes, decoded, hencode, hdecode, hsame⟩ := transcript_decoded resting_worn
  exact ⟨resting_worn, hadmissible, bytes, decoded, hencode, hdecode,
    hsame manyRequests hadmissible 4 ()⟩

/-- The outputs that a request was answered with. -/
def outputsShown (shown : Shown Double Single Unit) : List Double :=
  match shown.reply with
  | .ok (.outputs outputs) => outputs
  | _ => []

/-- What is decoded shows no error after it was asked for outputs, unlike a network that has only
lost its last updates. And when an update takes all rows from the weights, the decoded network puts
out zero, unlike a network whose neurons still hold what they put out before. -/
theorem transcript_worn_ne :
    Resting worn ∧ ∃ bytes decoded, encode worn = .ok bytes ∧ decode bytes = .ok decoded ∧
      (∃ requests : List (Request Double Single Unit),
        (∀ request ∈ requests, request.Admissible) ∧
          Request.transcript requests ⟨decoded, 0, ()⟩ ≠ Request.transcript requests
            ⟨{ worn with previous := worn.withoutHistory.previous }, 0, ()⟩) ∧
      ∃ requests : List (Request Double Single Unit),
        Request.transcript requests ⟨decoded, 0, ()⟩ ≠
          Request.transcript requests ⟨worn.withoutHistory, 0, ()⟩ := by
  have hmethod : TrainingMethod.ofName worn.method = .ok .gradientDescent := rfl
  obtain ⟨hencode, hdecode⟩ :=
    decode_reloaded resting_worn.sound.wellFormed rfl resting_worn.storable hmethod
  let asking : Request Double Single Unit := .getOutput (some (.ofList [1]))
  let hollowing : Request Double Single Unit := .updateWeights [.stored ⟨[0, 2], #[], rfl⟩]
  refine ⟨resting_worn, _, _, hencode, hdecode, ⟨[asking], ?_, fun heq => ?_⟩,
    [hollowing, asking], fun heq => ?_⟩
  · intro request hrequest
    cases List.mem_singleton.mp hrequest
    trivial
  · have herror := congrArg (List.map Shown.trainingError) heq
    revert herror
    decide +kernel
  · have houtputs := congrArg (List.map outputsShown) heq
    revert houtputs
    decide +kernel

end ModelFile

end FeedForward
