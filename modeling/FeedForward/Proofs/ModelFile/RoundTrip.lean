import FeedForward.Proofs.Dense.Forward
import FeedForward.Proofs.ModelFile.Contents
import FeedForward.Proofs.Numeric.Narrowing

/-!
# Stored networks come back

A complete well-formed network that can be stored comes back from its file, whatever follows the
file. It has the layers, weights, rates and names of the stored one. Costs, transformers and
activations are those that the registries have under the stored names; the drop rate has been
rounded to a stored number, and last updates and neurons are not kept. Nothing is said about the
random source.
-/

namespace FeedForward

namespace Network

variable {α β : Type}

/-- The weight matrices of a complete network have the shapes that its sizes ask for. -/
theorem WellFormed.shapes_eq_boundaryShapes [Scalar α] {net : Network α β} (hnet : net.WellFormed)
    {last : Nat} (houtput : net.outputLayer = some last) :
    net.weights.map Tensor.shape = boundaryShapes net.sizes := by
  apply List.ext_getElem?
  intro k
  rw [List.getElem?_map, getElem?_boundaryShapes]
  split
  next hk =>
    obtain ⟨weights, hweights, hshape⟩ := hnet.exists_weights hk
    have hfinal : net.isOutput (k + 1) = true ↔ k + 2 = net.sizes.length :=
      hnet.isOutput_iff houtput
    rw [hweights, Option.map_some, hshape, boundaryShape, fedWidth, biasUnits]
    simp only [hfinal]
    split <;> rfl
  next hk =>
    rw [List.getElem?_eq_none (by rw [hnet.weights_length]; omega), Option.map_none]

end Network

namespace ModelFile

variable {α β : Type} [Scalar α] [Precision α β]

open Network

/-- The file of a complete network describes its layers. -/
theorem describes_contents {net : Network α β} (hnet : net.WellFormed) {last : Nat}
    (houtput : net.outputLayer = some last) (method : TrainingMethod) :
    Describes (contents net method).topology ⟨net.sizes, last, net.weights, net.rules⟩ := by
  obtain ⟨hlast, hpositive⟩ := hnet.output_last last houtput
  exact {
    sizes_eq := rfl
    outputLayer_eq := by rw [contents, houtput]; rfl
    matrices_eq := rfl
    rules_eq := rfl
    output_pos := hpositive
    output_last := hlast
    size_least := by
      intro k size hk
      have hleast := hnet.size_least k size hk
      simpa only [hnet.isOutput_iff houtput] using hleast
    shapes_eq := hnet.shapes_eq_boundaryShapes houtput
    activations_length := by
      rw [contents, List.length_map, hnet.activations_length]
      simp only
      omega
    rules_length := by
      simp only
      rw [hnet.rules_length]
      omega }

variable [Zero β]

/-- The network that comes back from the file of a network. -/
def reloaded (net : Network α β) (method : TrainingMethod) : Network α β where
  learningRate := net.learningRate
  momentumWeight := net.momentumWeight
  regularizationWeight := net.regularizationWeight
  cost := Cost.registry.entryFor Cost.name net.cost
  style := net.style
  method := method.name
  transformer := Transformer.registry.entryFor Transformer.name net.transformer
  dropRate := Precision.widen (Precision.narrow net.dropRate : β)
  training := false
  trainingError := 0
  sizes := net.sizes
  weights := net.weights
  previous := net.weights.map fun matrix => .fill matrix.shape 0
  activations := net.activations.map (Activation.registry.entryFor Activation.name)
  rules := net.rules
  outputLayer := net.outputLayer
  source := ⟨0⟩
  arena := none

omit [Precision α β] [Zero β] in
/-- Activations that are given are there. -/
theorem mapM_given (activations : List (Activation α)) :
    (activations.map Ref.given).mapM (resolveOrRefuse Activation.registry) = .ok activations := by
  rw [Check.mapM_eq_ok_iff, List.map_map]
  rfl

omit [Scalar α] [Precision α β] [Zero β] in
/-- The canonical name of a method is one of its names. -/
theorem ofName_name (method : TrainingMethod) : TrainingMethod.ofName method.name = .ok method := by
  cases method
  rfl

/-- The file of a complete network makes a network again when the drop rate has stayed between zero
and one. -/
theorem assemble_contents {net : Network α β} (hnet : net.WellFormed) {last : Nat}
    (houtput : net.outputLayer = some last)
    (hrate : Scalar.le (0 : α) (Precision.widen (Precision.narrow net.dropRate : β)) = true ∧
      Scalar.le (Precision.widen (Precision.narrow net.dropRate : β)) (1 : α) = true)
    (method : TrainingMethod) :
    assemble (contents net method) = .ok (reloaded net method) := by
  have hstyle : LearningStyle.ofName net.style.name = .ok net.style := by
    cases net.style <;> rfl
  have hdropRate := checkDropRate_eq_ok_iff.mpr ⟨rfl, hrate⟩
  have htopology := checkTopology_eq_ok_iff.mpr (describes_contents hnet houtput method)
  have hactivations : (contents net method).topology.activations.mapM
      (resolveOrRefuse Activation.registry) =
      .ok (net.activations.map (Activation.registry.entryFor Activation.name)) := by
    rw [contents, ← mapM_given, List.map_map]
    rfl
  -- A network is created without layers, and the layers are restored into it.
  let bare : Network α β := { reloaded net method with
    sizes := []
    weights := []
    previous := []
    activations := []
    rules := []
    outputLayer := none }
  have hrestore : restoreLayers (contents net method).topology bare =
      .ok () (reloaded net method) := by
    rw [restoreLayers_run hactivations, htopology, reloaded, houtput]
    rfl
  simp only [assemble, Check.bind_eq_ok_iff]
  refine ⟨net.style, hstyle, method, ofName_name method, bare, ?_, ?_⟩
  · simp only [create, Check.bind_eq_ok_iff]
    exact ⟨_, rfl, net.style, hstyle, _, rfl, _, hdropRate, _, rfl, rfl⟩
  · rw [hrestore]
    rfl

/-! ## The round trip -/

/-- What a network that comes back from a file has of the one that was stored. -/
structure Restores (net decoded : Network Double Single) : Prop where
  sizes_eq : decoded.sizes = net.sizes
  outputLayer_eq : decoded.outputLayer = net.outputLayer
  rules_eq : decoded.rules = net.rules
  activations_name : decoded.activations.map Activation.name = net.activations.map Activation.name
  activations_find : net.activations.map (fun f => Activation.registry.find? f.name) =
    decoded.activations.map some
  cost_name : decoded.cost.name = net.cost.name
  cost_find : Cost.registry.find? net.cost.name = some decoded.cost
  style_eq : decoded.style = net.style
  method_eq : TrainingMethod.ofName decoded.method = TrainingMethod.ofName net.method
  transformer_name : decoded.transformer.name = net.transformer.name
  transformer_find : Transformer.registry.find? net.transformer.name = some decoded.transformer
  learningRate_eq : decoded.learningRate = net.learningRate
  momentumWeight_eq : decoded.momentumWeight = net.momentumWeight
  regularizationWeight_eq : decoded.regularizationWeight = net.regularizationWeight
  weights_eq : decoded.weights = net.weights
  dropRate_eq : decoded.dropRate = (Single.ofDouble net.dropRate).toDouble
  dropRate_unit : Double.le 0 decoded.dropRate = true ∧ Double.le decoded.dropRate 1 = true
  previous_eq : decoded.previous = net.weights.map fun matrix => .fill matrix.shape 0
  training_eq : decoded.training = false
  trainingError_eq : decoded.trainingError = 0
  arena_eq : decoded.arena = none

theorem restores_reloaded {net : Network Double Single} (hnet : net.WellFormed)
    (hstorable : Storable net) {method : TrainingMethod}
    (hmethod : TrainingMethod.ofName net.method = .ok method) :
    Restores net (reloaded net method) where
  sizes_eq := rfl
  outputLayer_eq := rfl
  rules_eq := rfl
  activations_name := by
    rw [reloaded, List.map_map]
    exact List.map_congr_left fun f hf =>
      Registry.name_entryFor (hstorable.activations_listed f hf)
  activations_find := by
    rw [reloaded, List.map_map]
    exact List.map_congr_left fun f hf =>
      Registry.find?_of_lists (hstorable.activations_listed f hf)
  cost_name := Registry.name_entryFor hstorable.cost_listed
  cost_find := Registry.find?_of_lists hstorable.cost_listed
  style_eq := rfl
  method_eq := (ofName_name method).trans hmethod.symm
  transformer_name := Registry.name_entryFor hstorable.transformer_listed
  transformer_find := Registry.find?_of_lists hstorable.transformer_listed
  learningRate_eq := rfl
  momentumWeight_eq := rfl
  regularizationWeight_eq := rfl
  weights_eq := rfl
  dropRate_eq := rfl
  dropRate_unit := Double.unit_widen_narrow hnet.dropRate_unit
  previous_eq := rfl
  training_eq := rfl
  trainingError_eq := rfl
  arena_eq := rfl

/-- What is written is read as the network that comes back. -/
theorem reads_reloaded {net : Network Double Single} (hnet : net.WellFormed) {last : Nat}
    (houtput : net.outputLayer = some last) (hstorable : Storable net) {method : TrainingMethod}
    (hmethod : TrainingMethod.ofName net.method = .ok method) :
    (write net).Reads read (reloaded net method) := by
  refine (reads_write hnet hstorable hmethod).bind fun rest => ?_
  rw [assemble_contents hnet houtput (Double.unit_widen_narrow hnet.dropRate_unit) method]
  rfl

/-- A network is encoded as bytes that are decoded as the network that comes back. -/
theorem decode_reloaded {net : Network Double Single} (hnet : net.WellFormed) {last : Nat}
    (houtput : net.outputLayer = some last) (hstorable : Storable net) {method : TrainingMethod}
    (hmethod : TrainingMethod.ofName net.method = .ok method) :
    encode net = .ok (write net).bytes ∧ decode (write net).bytes = .ok (reloaded net method) := by
  have hreads := reads_reloaded hnet houtput hstorable hmethod
  constructor
  · rw [encode, Output.complete, hreads.whole]
  · have hall := hreads.run_eq []
    rw [List.append_nil] at hall
    rw [decode, hall]
    rfl

/-- A complete network that can be stored is encoded, and reading the bytes gives it back and leaves
alone what follows them. -/
theorem decode_encode {net : Network Double Single} (hnet : net.WellFormed)
    (hcomplete : net.outputLayer.isSome) (hstorable : Storable net) :
    ∃ bytes decoded, encode net = .ok bytes ∧
      (∀ rest, read.run (bytes ++ rest) = .ok (decoded, rest)) ∧
      decode bytes = .ok decoded ∧ Restores net decoded := by
  obtain ⟨last, houtput⟩ := Option.isSome_iff_exists.mp hcomplete
  obtain ⟨method, hmethod⟩ := hstorable.method_ok
  obtain ⟨hencode, hdecode⟩ := decode_reloaded hnet houtput hstorable hmethod
  exact ⟨(write net).bytes, reloaded net method, hencode,
    (reads_reloaded hnet houtput hstorable hmethod).run_eq, hdecode,
    restores_reloaded hnet hstorable hmethod⟩

theorem storable_practice : Storable practice where
  sizes_lt := by decide
  cost_listed := ⟨.squaredError, rfl, rfl⟩
  transformer_listed := ⟨.identity, rfl, rfl⟩
  activations_listed := by
    have hlisted : ∀ f ∈ [Activation.sigmoid, Activation.softmaxPart],
        Activation.registry.Lists Activation.name (f : Activation Double) := by
      intro f hf
      simp only [List.mem_cons, List.not_mem_nil, or_false] at hf
      rcases hf with rfl | rfl
      · exact ⟨.sigmoid, rfl, rfl⟩
      · exact ⟨.softmaxPart, rfl, rfl⟩
    exact hlisted
  method_ok := ⟨.gradientDescent, rfl⟩

theorem decode_encode_practice :
    practice.WellFormed ∧ practice.outputLayer.isSome ∧ Storable practice ∧
      ∃ bytes decoded, encode practice = .ok bytes ∧
        (∀ rest, read.run (bytes ++ rest) = .ok (decoded, rest)) ∧
        decode bytes = .ok decoded ∧ Restores practice decoded :=
  ⟨practice_sound.wellFormed, rfl, storable_practice,
    decode_encode practice_sound.wellFormed rfl storable_practice⟩

end ModelFile

end FeedForward
