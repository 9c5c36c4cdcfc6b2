import FeedForward.Network.Topology
import FeedForward.Proofs.Check
import FeedForward.Proofs.Neuron

/-!
# Well-formed networks

Sizes, weight matrices, last updates, activations and rules of a network are lists of their
own, and the neurons stand in yet another one. A network is well-formed when these lists
describe the same layers. Nothing is said about the numbers in the matrices and nothing about
what earlier passes have left in the neurons: outputs, deltas, buffers and dropped flags are
arbitrary.
-/

namespace FeedForward

namespace Network

variable {α β : Type} [Scalar α]

/-- The number of units of a layer. -/
def width (net : Network α β) (layer : Nat) : Nat := net.sizes.getD layer 0

/-- The number of units of a layer that have incoming weights. -/
def fedWidth (net : Network α β) (layer : Nat) : Nat := net.width layer - net.biasUnits layer

/-- The shape of the matrix between a layer and the next one. -/
def boundaryShape (net : Network α β) (boundary : Nat) : List Nat :=
  [net.fedWidth (boundary + 1), net.width boundary]

/-- The rule of the neurons of a layer. Input units have the standard one. -/
def ruleAt (net : Network α β) : Nat → Rule
  | 0 => .standard
  | boundary + 1 => net.rules.getD boundary .standard

/-- The activation of the neurons of a layer. Input units have the identity. -/
def activationAt (net : Network α β) : Nat → Activation α
  | 0 => .identity
  | boundary + 1 => net.activations.getD boundary .identity

/-- A neuron stands at a place of the network: it bears the numbers of its place and has the
rule and the activation of its layer. -/
structure Stands (net : Network α β) (layer i : Nat) (n : Neuron α) : Prop where
  id_eq : n.id = i
  layer_eq : n.layer = layer
  rule_eq : n.rule = some (net.ruleAt layer)
  activation_eq : n.activation = net.activationAt layer

/-- Neurons fit the network: there is one at each place and none elsewhere. -/
structure Fits (net : Network α β) (arena : Arena α) : Prop where
  length_eq : arena.length = net.sizes.length
  layer_length : ∀ k layer, arena[k]? = some layer → layer.length = net.width k
  stands : ∀ k layer i n, arena[k]? = some layer → layer[i]? = some n → net.Stands k i n

/-- All parts of the network describe the same layers. -/
structure WellFormed (net : Network α β) : Prop where
  weights_length : net.weights.length = net.sizes.length - 1
  previous_length : net.previous.length = net.sizes.length - 1
  activations_length : net.activations.length = net.sizes.length - 1
  rules_length : net.rules.length = net.sizes.length - 1
  weights_shape : ∀ k matrix, net.weights[k]? = some matrix → matrix.shape = net.boundaryShape k
  previous_shape : ∀ k matrix, net.previous[k]? = some matrix → matrix.shape = net.boundaryShape k
  output_last : ∀ layer, net.outputLayer = some layer → layer + 1 = net.sizes.length ∧ 1 ≤ layer
  size_least : ∀ k size, net.sizes[k]? = some size → (if net.isOutput k then 1 else 2) ≤ size
  dropRate_unit : Scalar.le 0 net.dropRate = true ∧ Scalar.le net.dropRate 1 = true
  arena_complete : net.arena.isSome → net.outputLayer.isSome
  arena_fits : ∀ arena, net.arena = some arena → net.Fits arena

/-- A neuron uses the rates and the training flag that the network has now. -/
structure Follows (net : Network α β) (n : Neuron α) : Prop where
  learningRate_eq : n.learningRate = net.learningRate
  momentumWeight_eq : n.momentumWeight = net.momentumWeight
  training_eq : n.training = net.training

/-- Every neuron there is uses the rates and the training flag of the network. -/
def NeuronsFollow (net : Network α β) : Prop :=
  ∀ arena, net.arena = some arena → ∀ layer ∈ arena, ∀ n ∈ layer, net.Follows n

/-- The neurons of a network as they are built. -/
def built (net : Network α β) : Arena α :=
  net.sizes.mapIdx fun layer size => (List.range size).map fun (id : Nat) =>
    .create (net.ruleAt layer) id layer (net.activationAt layer) net.learningRate
      net.momentumWeight net.training

/-- The neurons that the next pass works on, built or still to be built. -/
def units (net : Network α β) : Arena α := net.arena.getD net.built

/-- A network is sound when its parts describe the same layers and its neurons use its rates. -/
structure Sound (net : Network α β) : Prop where
  wellFormed : net.WellFormed
  follow : net.NeuronsFollow

/-! ## Neurons -/

/-- Whether neurons fit depends only on the sizes, the rules and the activations. -/
theorem Fits.of_layers {net other : Network α β} {arena : Arena α} (hfits : net.Fits arena)
    (hsizes : other.sizes = net.sizes) (hrules : other.rules = net.rules)
    (hactivations : other.activations = net.activations) : other.Fits arena where
  length_eq := by rw [hfits.length_eq, hsizes]
  layer_length := by
    intro k layer hk
    rw [hfits.layer_length k layer hk, width, width, hsizes]
  stands := by
    intro k layer i n hk hi
    have hn := hfits.stands k layer i n hk hi
    refine ⟨hn.id_eq, hn.layer_eq, ?_, ?_⟩
    · rw [hn.rule_eq]
      cases k with
      | zero => rfl
      | succ k => rw [ruleAt, ruleAt, hrules]
    · rw [hn.activation_eq]
      cases k with
      | zero => rfl
      | succ k => rw [activationAt, activationAt, hactivations]

theorem Fits.exists_layer {net : Network α β} {arena : Arena α} (hfits : net.Fits arena) {k : Nat}
    (hk : k < net.sizes.length) :
    ∃ layer, arena[k]? = some layer ∧ layer.length = net.width k := by
  have hlt : k < arena.length := by rw [hfits.length_eq]; exact hk
  have hlayer := List.getElem?_eq_getElem hlt
  exact ⟨arena[k], hlayer, hfits.layer_length k _ hlayer⟩

/-- A view of changed layers that depends only on the place of a layer that fits. -/
theorem Fits.map_mapIdx {κ : Type} {net : Network α β} {arena : Arena α} (hfits : net.Fits arena)
    {change : Nat → List (Neuron α) → List (Neuron α)} {view : List (Neuron α) → κ}
    {value : Nat → κ} (hview : ∀ k layer, k < net.sizes.length → layer.length = net.width k →
      view (change k layer) = value k) :
    (arena.mapIdx change).map view = (List.range net.sizes.length).map value := by
  apply List.ext_getElem?
  intro k
  rw [List.getElem?_map, List.getElem?_map, List.getElem?_mapIdx]
  by_cases hk : k < net.sizes.length
  · obtain ⟨layer, hlayer, hlength⟩ := hfits.exists_layer hk
    rw [hlayer, List.getElem?_range hk, Option.map_some, Option.map_some, Option.map_some,
      hview k layer hk hlength]
  · rw [List.getElem?_eq_none (by rw [hfits.length_eq]; omega),
      List.getElem?_eq_none (by rw [List.length_range]; omega)]
    rfl

/-- Neurons that were built alike fit alike. -/
theorem Fits.of_fresh {net : Network α β} {arena other : Arena α} (hfits : net.Fits arena)
    (hfresh : other.map (List.map Neuron.fresh) = arena.map (List.map Neuron.fresh)) :
    net.Fits other := by
  -- Each layer is one of the old layers up to what passes leave in its neurons.
  have hlayer : ∀ (k : Nat) (layer : List (Neuron α)), other[k]? = some layer →
      ∃ old, arena[k]? = some old ∧ layer.map Neuron.fresh = old.map Neuron.fresh := by
    intro k layer hk
    have hmap := congrArg (·[k]?) hfresh
    simp only [List.getElem?_map, hk, Option.map_some] at hmap
    obtain ⟨old, hold, heq⟩ := Option.map_eq_some_iff.mp hmap.symm
    exact ⟨old, hold, heq.symm⟩
  refine ⟨?_, ?_, ?_⟩
  · have hlength := congrArg List.length hfresh
    rw [List.length_map, List.length_map] at hlength
    rw [hlength, hfits.length_eq]
  · intro k layer hk
    obtain ⟨old, hold, heq⟩ := hlayer k layer hk
    have hlength := congrArg List.length heq
    rw [List.length_map, List.length_map] at hlength
    rw [hlength, hfits.layer_length k old hold]
  · intro k layer i n hk hi
    obtain ⟨old, hold, heq⟩ := hlayer k layer hk
    have hmap := congrArg (·[i]?) heq
    simp only [List.getElem?_map, hi, Option.map_some] at hmap
    obtain ⟨m, hm, hmn⟩ := Option.map_eq_some_iff.mp hmap.symm
    have hstands := hfits.stands k old i m hold hm
    refine ⟨?_, ?_, ?_, ?_⟩
    · exact (congrArg Neuron.id hmn).symm.trans hstands.id_eq
    · exact (congrArg Neuron.layer hmn).symm.trans hstands.layer_eq
    · exact (congrArg Neuron.rule hmn).symm.trans hstands.rule_eq
    · exact (congrArg Neuron.activation hmn).symm.trans hstands.activation_eq

omit [Scalar α] in
theorem NeuronsFollow.of_arena_none {net : Network α β} (hnone : net.arena = none) :
    net.NeuronsFollow := by
  intro arena harena
  rw [hnone] at harena
  cases harena

omit [Scalar α] in
/-- Whether neurons follow depends only on the rates and the training flag. -/
theorem NeuronsFollow.of_rates {net other : Network α β} (hnet : net.NeuronsFollow)
    (harena : other.arena = net.arena) (hlearning : other.learningRate = net.learningRate)
    (hmomentum : other.momentumWeight = net.momentumWeight)
    (htraining : other.training = net.training) : other.NeuronsFollow := by
  intro arena hother layer hlayer n hn
  have hfollows := hnet arena (harena ▸ hother) layer hlayer n hn
  refine ⟨?_, ?_, ?_⟩
  · rw [hfollows.learningRate_eq, hlearning]
  · rw [hfollows.momentumWeight_eq, hmomentum]
  · rw [hfollows.training_eq, htraining]

/-- Built neurons fit the network that they were built for. -/
theorem fits_built (net : Network α β) : net.Fits net.built := by
  refine ⟨List.length_mapIdx, ?_, ?_⟩
  · intro k layer hk
    rw [built, List.getElem?_mapIdx] at hk
    obtain ⟨size, hsize, rfl⟩ := Option.map_eq_some_iff.mp hk
    simp [width, hsize]
  · intro k layer i n hk hi
    rw [built, List.getElem?_mapIdx] at hk
    obtain ⟨size, hsize, rfl⟩ := Option.map_eq_some_iff.mp hk
    rw [List.getElem?_map] at hi
    obtain ⟨id, hid, rfl⟩ := Option.map_eq_some_iff.mp hi
    obtain ⟨_, rfl⟩ := List.getElem?_eq_some_iff.mp hid
    rw [List.getElem_range]
    exact ⟨rfl, rfl, rfl, rfl⟩

theorem WellFormed.fits_units {net : Network α β} (hnet : net.WellFormed) :
    net.Fits net.units := by
  cases harena : net.arena with
  | none => rw [units, harena]; exact net.fits_built
  | some arena => rw [units, harena]; exact hnet.arena_fits arena harena

theorem follows_built {net : Network α β} {layer : List (Neuron α)} {n : Neuron α}
    (hlayer : layer ∈ net.built) (hn : n ∈ layer) : net.Follows n := by
  obtain ⟨k, hk, rfl⟩ := List.mem_mapIdx.mp hlayer
  obtain ⟨id, _, rfl⟩ := List.mem_map.mp hn
  exact ⟨rfl, rfl, rfl⟩

/-- Neurons that were built alike use the same rates. -/
theorem Follows.of_fresh {net : Network α β} {n m : Neuron α} (hn : net.Follows n)
    (hfresh : m.fresh = n.fresh) : net.Follows m where
  learningRate_eq := (congrArg Neuron.learningRate hfresh).trans hn.learningRate_eq
  momentumWeight_eq := (congrArg Neuron.momentumWeight hfresh).trans hn.momentumWeight_eq
  training_eq := (congrArg Neuron.training hfresh).trans hn.training_eq

theorem Sound.follows_units {net : Network α β} (hnet : net.Sound) {layer : List (Neuron α)}
    {n : Neuron α} (hlayer : layer ∈ net.units) (hn : n ∈ layer) : net.Follows n := by
  cases harena : net.arena with
  | none =>
      rw [units, harena] at hlayer
      exact follows_built hlayer hn
  | some arena =>
      rw [units, harena] at hlayer
      exact hnet.follow arena harena layer hlayer n hn

/-! ## Widths -/

section

variable {net : Network α β} (hnet : net.WellFormed) {k : Nat} (hk : k < net.sizes.length)

include hnet hk

/-- Every layer has units with incoming weights, besides its bias unit if it has one. -/
theorem WellFormed.biasUnits_lt_width : net.biasUnits k < net.width k := by
  have hleast := hnet.size_least k net.sizes[k] (List.getElem?_eq_getElem hk)
  have hwidth : net.width k = net.sizes[k] := by
    rw [width, List.getD_eq_getElem?_getD, List.getElem?_eq_getElem hk, Option.getD_some]
  rw [biasUnits, hwidth]
  cases houtput : net.isOutput k <;> simp [houtput] at hleast ⊢ <;> omega

theorem WellFormed.fedWidth_pos : 0 < net.fedWidth k := by
  have hlt := hnet.biasUnits_lt_width hk
  rw [fedWidth]
  omega

theorem WellFormed.fedWidth_add_biasUnits : net.fedWidth k + net.biasUnits k = net.width k := by
  have hlt := hnet.biasUnits_lt_width hk
  rw [fedWidth]
  omega

end

/-- The layer in front of the output layer has a bias unit, and the output layer has none. -/
theorem WellFormed.isOutput_iff {net : Network α β} (hnet : net.WellFormed) {last k : Nat}
    (houtput : net.outputLayer = some last) :
    net.isOutput k = true ↔ k + 1 = net.sizes.length := by
  have hlast := (hnet.output_last last houtput).1
  rw [isOutput, houtput, beq_iff_eq, Option.some.injEq]
  omega

/-! ## Boundaries -/

section

variable {net : Network α β} (hnet : net.WellFormed) {boundary : Nat}
  (hboundary : boundary + 1 < net.sizes.length)

include hnet hboundary

theorem WellFormed.exists_weights : ∃ weights, net.weights[boundary]? = some weights ∧
    weights.shape = net.boundaryShape boundary := by
  have hlt : boundary < net.weights.length := by rw [hnet.weights_length]; omega
  exact ⟨net.weights[boundary], List.getElem?_eq_getElem hlt,
    hnet.weights_shape boundary _ (List.getElem?_eq_getElem hlt)⟩

theorem WellFormed.exists_previous : ∃ previous, net.previous[boundary]? = some previous ∧
    previous.shape = net.boundaryShape boundary := by
  have hlt : boundary < net.previous.length := by rw [hnet.previous_length]; omega
  exact ⟨net.previous[boundary], List.getElem?_eq_getElem hlt,
    hnet.previous_shape boundary _ (List.getElem?_eq_getElem hlt)⟩

theorem WellFormed.activation_eq_ok :
    itemAt net.activations boundary = .ok (net.activationAt (boundary + 1)) := by
  have hlt : boundary < net.activations.length := by rw [hnet.activations_length]; omega
  rw [itemAt_eq_ok_iff, activationAt, List.getD_eq_getElem?_getD, List.getElem?_eq_getElem hlt,
    Option.getD_some]

end

/-! ## Parts that change alone -/

section

variable {net : Network α β} (hnet : net.WellFormed)

include hnet

/-- Weight matrices may be replaced by others of the same shapes. -/
theorem WellFormed.withWeights {weights : List (Tensor β)}
    (hshapes : weights.map Tensor.shape = net.weights.map Tensor.shape) :
    { net with weights : Network α β }.WellFormed :=
  { hnet with
    weights_length := by
      rw [← hnet.weights_length]
      simpa using congrArg List.length hshapes
    weights_shape := by
      intro k matrix hk
      have hmap := congrArg (·[k]?) hshapes
      simp only [List.getElem?_map, hk, Option.map_some] at hmap
      obtain ⟨old, hold, heq⟩ := Option.map_eq_some_iff.mp hmap.symm
      rw [← heq]
      exact hnet.weights_shape k old hold
    arena_fits := fun arena harena => (hnet.arena_fits arena harena).of_layers rfl rfl rfl }

/-- Last updates may be replaced by others of the shapes of the boundaries. -/
theorem WellFormed.withPrevious {previous : List (Tensor β)}
    (hlength : previous.length = net.sizes.length - 1)
    (hshapes : ∀ k update, previous[k]? = some update → update.shape = net.boundaryShape k) :
    { net with previous : Network α β }.WellFormed :=
  { hnet with
    previous_length := hlength
    previous_shape := hshapes
    arena_fits := fun arena harena => (hnet.arena_fits arena harena).of_layers rfl rfl rfl }

/-- Weights and last updates may be replaced together by others of the extents of the weights. -/
theorem WellFormed.exchange {weights previous : List (Tensor β)}
    (hweights : weights.map Tensor.shape = net.weights.map Tensor.shape)
    (hprevious : previous.map Tensor.shape = net.weights.map Tensor.shape) :
    { net with weights, previous : Network α β }.WellFormed := by
  have hlength : previous.length = net.sizes.length - 1 := by
    rw [← hnet.weights_length]
    simpa using congrArg List.length hprevious
  have hshapes : ∀ k update, previous[k]? = some update →
      update.shape = ({ net with weights } : Network α β).boundaryShape k := by
    intro k update hk
    have hmap := congrArg (·[k]?) hprevious
    simp only [List.getElem?_map, hk, Option.map_some] at hmap
    obtain ⟨matrix, hmatrix, hsame⟩ := Option.map_eq_some_iff.mp hmap.symm
    exact hsame.symm.trans (hnet.weights_shape k matrix hmatrix)
  exact (hnet.withWeights hweights).withPrevious hlength hshapes

end

section

variable {net : Network α β} (hnet : net.Sound)

include hnet

theorem Sound.withSource (source : Generator) : { net with source : Network α β }.Sound where
  wellFormed := { hnet.wellFormed with
    arena_fits := fun arena harena =>
      (hnet.wellFormed.arena_fits arena harena).of_layers rfl rfl rfl }
  follow := hnet.follow.of_rates rfl rfl rfl rfl

theorem Sound.withTrainingError (trainingError : α) :
    { net with trainingError : Network α β }.Sound where
  wellFormed := { hnet.wellFormed with
    arena_fits := fun arena harena =>
      (hnet.wellFormed.arena_fits arena harena).of_layers rfl rfl rfl }
  follow := hnet.follow.of_rates rfl rfl rfl rfl

theorem Sound.withDropRate {dropRate : α}
    (hrate : Scalar.le 0 dropRate = true ∧ Scalar.le dropRate 1 = true) :
    { net with dropRate : Network α β }.Sound where
  wellFormed := { hnet.wellFormed with
    dropRate_unit := hrate
    arena_fits := fun arena harena =>
      (hnet.wellFormed.arena_fits arena harena).of_layers rfl rfl rfl }
  follow := hnet.follow.of_rates rfl rfl rfl rfl

theorem Sound.withWeights {weights : List (Tensor β)}
    (hshapes : weights.map Tensor.shape = net.weights.map Tensor.shape) :
    { net with weights : Network α β }.Sound where
  wellFormed := hnet.wellFormed.withWeights hshapes
  follow := hnet.follow.of_rates rfl rfl rfl rfl

theorem Sound.withPrevious {previous : List (Tensor β)}
    (hlength : previous.length = net.sizes.length - 1)
    (hshapes : ∀ k update, previous[k]? = some update → update.shape = net.boundaryShape k) :
    { net with previous : Network α β }.Sound where
  wellFormed := hnet.wellFormed.withPrevious hlength hshapes
  follow := hnet.follow.of_rates rfl rfl rfl rfl

end

end Network

end FeedForward
