import Mathlib.Algebra.DualNumber
import Mathlib.Data.List.GetD
import FeedForward.Proofs.Gradient.Exact

/-!
# Nudged weights

A network on dual numbers goes on as one on exact numbers, but has `ε`, which squares to zero, added
to a single weight. Its activations and its cost are any that obey the chain rule. Then each output
is that of the network and a multiple of `ε`, by which the nudge moves it. For every weight there is
such a network, whatever its activations and its cost are.
-/

namespace FeedForward

open TrivSqZeroExt DualNumber

variable {R : Type} [CommRing R]

/-! ## Dual numbers -/

theorem mul_inl_add_inr (z : R[ε]) (x dx : R) :
    z * (inl x + inr dx) = inl (z.fst * x) + inr (z.snd * x + z.fst * dx) := by
  ext
  · simp
  · simp [add_comm]

/-- An activation on dual numbers continues one on exact numbers by the chain rule. -/
structure Activation.Continues (dual : Activation R[ε]) (f : Activation R) : Prop where
  name_eq : dual.name = f.name
  apply_eq : ∀ x dx, dual.apply (inl x + inr dx) =
    inl (f.apply x) + inr (f.derivative (f.apply x) * dx)

/-- A cost on dual numbers continues one on exact numbers by the chain rule. -/
def Cost.Continues (dual : Cost R[ε]) (cost : Cost R) : Prop :=
  ∀ target x dx, dual.apply (inl target) (inl x + inr dx) =
    inl (cost.apply target x) + inr (cost.derivative target x * dx)

/-- The continuation of an activation by the chain rule. -/
def Activation.dual (f : Activation R) : Activation R[ε] where
  name := f.name
  apply z := inl (f.apply z.fst) + inr (f.derivative (f.apply z.fst) * z.snd)
  derivative z := inl (f.derivative z.fst)

theorem Activation.continues_dual (f : Activation R) : f.dual.Continues f where
  name_eq := rfl
  apply_eq x dx := by simp [Activation.dual]

/-- The continuation of a cost by the chain rule. -/
def Cost.dual (cost : Cost R) : Cost R[ε] where
  name := cost.name
  apply target z :=
    inl (cost.apply target.fst z.fst) + inr (cost.derivative target.fst z.fst * z.snd)
  derivative target z := inl (cost.derivative target.fst z.fst)

theorem Cost.continues_dual (cost : Cost R) : cost.dual.Continues cost := by
  intro target x dx
  simp [Cost.dual]

/-! ## Built-in continuations -/

section

variable [BeyondRing R] [BeyondRing R[ε]]

/-- The identity on dual numbers continues that on exact numbers. -/
theorem Activation.Continues.identity :
    Activation.Continues (.identity : Activation R[ε]) (.identity : Activation R) where
  name_eq := rfl
  apply_eq x dx := by rw [Activation.identity, Activation.identity, one_mul]

/-- The squared error does so, too, where one half is a half. -/
theorem Cost.Continues.squaredError (hhalf : (0.5 : R) + 0.5 = 1) (hdual : (0.5 : R[ε]) = inl 0.5) :
    Cost.Continues (.squaredError : Cost R[ε]) (.squaredError : Cost R) := by
  intro target x dx
  have hslope : x - target = (0.5 + 0.5) * (x - target) := by rw [hhalf, one_mul]
  simp only [Cost.squaredError, hdual]
  rw [hslope]
  ext
  · simp
  · simp
    ring

end

namespace Network

variable [BeyondRing R] [BeyondRing R[ε]]

/-- A network on dual numbers is one on exact numbers with a single weight nudged. It drops no
input unit in its next pass. -/
structure Nudges (dual : Network R[ε] R[ε]) (net : Network R R) (boundary row column : Nat) :
    Prop where
  wellFormed : dual.WellFormed
  sizes_eq : dual.sizes = net.sizes
  outputLayer_eq : dual.outputLayer = net.outputLayer
  rules_eq : dual.rules = net.rules
  activations : List.Forall₂ Activation.Continues dual.activations net.activations
  cost : dual.cost.Continues net.cost
  weight_eq : ∀ k i j, k + 1 < net.sizes.length → i < net.fedWidth (k + 1) → j < net.width k →
    dual.weight k i j = inl (net.weight k i j) +
      inr (if k = boundary ∧ i = row ∧ j = column then 1 else 0)
  present : ∀ i, dual.present 0 i = true

/-- How far the nudge moves the output of a unit. -/
def sensitivity (dual : Network R[ε] R[ε]) (inputs : List R) (layer i : Nat) : R :=
  ((dual.activity (inputs.map inl) layer).getD i 0).snd

/-- How far the nudge moves the weighted sum of a row. -/
def shift (dual : Network R[ε] R[ε]) (inputs : List R) (boundary row : Nat) : R :=
  (∑ j ∈ Finset.range (dual.width boundary),
    (dual.activity (inputs.map inl) boundary).getD j 0 * dual.weight boundary row j).snd

section

variable {net : Network R R} {dual : Network R[ε] R[ε]} {boundary row column : Nat}
  (hnudges : dual.Nudges net boundary row column)

include hnudges

theorem Nudges.width_eq (layer : Nat) : dual.width layer = net.width layer := by
  rw [width, width, hnudges.sizes_eq]

theorem Nudges.biasUnits_eq (layer : Nat) : dual.biasUnits layer = net.biasUnits layer := by
  rw [biasUnits, biasUnits, isOutput, isOutput, hnudges.outputLayer_eq]

theorem Nudges.fedWidth_eq (layer : Nat) : dual.fedWidth layer = net.fedWidth layer := by
  rw [fedWidth, fedWidth, hnudges.width_eq, hnudges.biasUnits_eq]

theorem Nudges.ruleAt_eq (layer : Nat) : dual.ruleAt layer = net.ruleAt layer := by
  cases layer with
  | zero => rfl
  | succ k => rw [ruleAt, ruleAt, hnudges.rules_eq]

theorem Nudges.activationAt (hnet : net.WellFormed) {k : Nat} (hk : k + 1 < net.sizes.length) :
    (dual.activationAt (k + 1)).Continues (net.activationAt (k + 1)) := by
  have hlength := hnet.activations_length
  have hlt : k < net.activations.length := by omega
  have hdual : k < dual.activations.length := by rw [hnudges.activations.length_eq]; exact hlt
  have hget := (List.forall₂_iff_get.mp hnudges.activations).2 k hdual hlt
  rw [Network.activationAt, Network.activationAt, List.getD_eq_getElem _ _ hdual,
    List.getD_eq_getElem _ _ hlt]
  exact hget

end

/-! ## The nudge in the forward pass -/

section

variable {net : Network R R} {dual : Network R[ε] R[ε]} {boundary row column : Nat}
  (hnudges : dual.Nudges net boundary row column) {inputs : List R}

include hnudges

theorem length_inputs_inl (hinputs : inputs.length = net.width 0) :
    (inputs.map (inl (M := R))).length = dual.width 0 := by
  rw [List.length_map, hinputs, hnudges.width_eq]

omit hnudges in
/-- The nudge does not reach the input layer. -/
theorem sensitivity_zero (i : Nat) : dual.sensitivity inputs 0 i = 0 := by
  rw [sensitivity, activity, List.getD_eq_getElem?_getD, List.getElem?_map]
  cases inputs[i]? <;> rfl

/-- The nudge does not move a bias unit. -/
theorem sensitivity_bias {k i : Nat} (hi : i < net.biasUnits (k + 1)) :
    dual.sensitivity inputs (k + 1) i = 0 := by
  rw [sensitivity, getD_activity_bias (hnudges.biasUnits_eq (k + 1) ▸ hi), snd_one]

/-- Beside the nudge the weighted sum of a row is that of the network if the outputs in front
are. -/
theorem weightedSum_eq {k i : Nat} (hk : k + 1 < net.sizes.length) (hi : i < net.fedWidth (k + 1))
    (hfront : ∀ j < net.width k, ((dual.activity (inputs.map inl) k).getD j 0).fst =
      (net.activity inputs k).getD j 0) :
    ∑ j ∈ Finset.range (dual.width k),
        (dual.activity (inputs.map inl) k).getD j 0 * dual.weight k i j =
      inl (∑ j ∈ Finset.range (net.width k), (net.activity inputs k).getD j 0 * net.weight k i j) +
        inr (dual.shift inputs k i) := by
  ext
  · rw [fst_sum, hnudges.width_eq, fst_add, fst_inl, fst_inr, add_zero]
    refine Finset.sum_congr rfl fun j hj => ?_
    have hj := Finset.mem_range.mp hj
    rw [hnudges.weight_eq k i j hk hi hj, mul_inl_add_inr, ← hfront j hj]
    simp
  · simp [shift]

end

section

variable {net : Network R R} {dual : Network R[ε] R[ε]} {boundary row column : Nat}
  (hnet : net.WellFormed) (hplain : net.Plain) (hnudges : dual.Nudges net boundary row column)
  {inputs : List R} (hinputs : inputs.length = net.width 0)

include hnet hplain hnudges hinputs

/-- The output of the row then is that of the network as well, and it moves by its derivative times
what the weighted sum moves. -/
theorem activity_row {k i : Nat} (hk : k + 1 < net.sizes.length) (hi : i < net.fedWidth (k + 1))
    (hfront : ∀ j < net.width k, ((dual.activity (inputs.map inl) k).getD j 0).fst =
      (net.activity inputs k).getD j 0) :
    (dual.activity (inputs.map inl) (k + 1)).getD (i + net.biasUnits (k + 1)) 0 =
      inl ((net.activity inputs (k + 1)).getD (i + net.biasUnits (k + 1)) 0) +
        inr ((net.activationAt (k + 1)).derivative
          ((net.activity inputs (k + 1)).getD (i + net.biasUnits (k + 1)) 0) *
          dual.shift inputs k i) := by
  have hcontinues := hnudges.activationAt hnet hk
  have hsoftmax : (dual.activationAt (k + 1)).isSoftmax = false := by
    rw [Activation.isSoftmax, hcontinues.name_eq]
    exact hplain.isSoftmax_eq (k + 1)
  have hrule : dual.ruleAt (k + 1) ≠ .max := by
    rw [hnudges.ruleAt_eq]
    exact hplain.ruleAt_ne (k + 1)
  have hdual := getD_activity_row hnudges.wellFormed (length_inputs_inl hnudges hinputs)
    (show k + 1 < dual.sizes.length by rw [hnudges.sizes_eq]; exact hk) hsoftmax hrule
    (show i < dual.fedWidth (k + 1) by rw [hnudges.fedWidth_eq]; exact hi)
  rw [hnudges.biasUnits_eq, weightedSum_eq hnudges hk hi hfront, hcontinues.apply_eq] at hdual
  rw [hdual, getD_activity_row hnet hinputs hk (hplain.isSoftmax_eq _) (hplain.ruleAt_ne _) hi]

/-- Beside the nudge the outputs are those of the network. -/
theorem fst_activity {k : Nat} (hk : k < net.sizes.length) {j : Nat} (hj : j < net.width k) :
    ((dual.activity (inputs.map inl) k).getD j 0).fst = (net.activity inputs k).getD j 0 := by
  induction k generalizing j with
  | zero =>
      rw [activity, activity, List.getD_eq_getElem?_getD, List.getD_eq_getElem?_getD,
        List.getElem?_map]
      cases inputs[j]? <;> rfl
  | succ k ih =>
      -- A bias unit puts out one in both networks, and the layer in front feeds the other units.
      rcases Nat.lt_or_ge j (net.biasUnits (k + 1)) with hbias | hfed
      · rw [getD_activity_bias (hnudges.biasUnits_eq (k + 1) ▸ hbias), getD_activity_bias hbias,
          fst_one]
      · obtain ⟨i, rfl⟩ := Nat.exists_eq_add_of_le' hfed
        have hi : i < net.fedWidth (k + 1) := by
          rw [fedWidth]
          omega
        rw [activity_row hnet hplain hnudges hinputs hk hi fun j hj => ih (by omega) hj]
        simp

/-- The nudge moves a weighted sum by way of the outputs in front and, in its own row, by way of the
weight itself. -/
theorem shift_eq {k i : Nat} (hk : k + 1 < net.sizes.length) (hi : i < net.fedWidth (k + 1)) :
    dual.shift inputs k i = ∑ j ∈ Finset.range (net.width k),
      (dual.sensitivity inputs k j * net.weight k i j + (net.activity inputs k).getD j 0 *
        if k = boundary ∧ i = row ∧ j = column then 1 else 0) := by
  rw [shift, snd_sum, hnudges.width_eq]
  refine Finset.sum_congr rfl fun j hj => ?_
  have hj := Finset.mem_range.mp hj
  rw [hnudges.weight_eq k i j hk hi hj, mul_inl_add_inr,
    fst_activity hnet hplain hnudges hinputs (by omega) hj, sensitivity]
  simp

end

/-! ## Every weight can be nudged -/

/-- A weight matrix on dual numbers with one weight nudged, which may stand in another matrix. -/
def nudgedMatrix (net : Network R R) (boundary row column k : Nat) : Tensor R[ε] :=
  .ofColumns (net.fedWidth (k + 1)) <| (List.range (net.width k)).map fun j =>
    (List.range (net.fedWidth (k + 1))).map fun i =>
      inl (net.weight k i j) + inr (if k = boundary ∧ i = row ∧ j = column then 1 else 0)

/-- A network on dual numbers that nudges one weight of a given one. -/
def nudged (net : Network R R) (rate : R[ε]) (boundary row column : Nat) : Network R[ε] R[ε] where
  learningRate := inl net.learningRate
  momentumWeight := inl net.momentumWeight
  regularizationWeight := inl net.regularizationWeight
  cost := net.cost.dual
  style := net.style
  method := net.method
  transformer := .identity
  dropRate := rate
  training := false
  trainingError := inl net.trainingError
  sizes := net.sizes
  weights := (List.range (net.sizes.length - 1)).map (net.nudgedMatrix boundary row column)
  previous := net.previous.map (Tensor.map inl)
  activations := net.activations.map Activation.dual
  rules := net.rules
  outputLayer := net.outputLayer
  source := net.source
  arena := none

section

variable {net : Network R R} (hnet : net.WellFormed) {rate : R[ε]} {boundary row column : Nat}
  (hrate : Scalar.le (0 : R[ε]) rate = true ∧ Scalar.le rate (1 : R[ε]) = true)

include hnet hrate

theorem wellFormed_nudged :
    (net.nudged rate boundary row column).WellFormed where
  weights_length := by rw [nudged, List.length_map, List.length_range]
  previous_length := (List.length_map _).trans hnet.previous_length
  activations_length := (List.length_map _).trans hnet.activations_length
  rules_length := hnet.rules_length
  weights_shape := by
    intro k matrix hk
    rw [nudged, List.getElem?_map, Option.map_eq_some_iff] at hk
    obtain ⟨place, hplace, rfl⟩ := hk
    obtain ⟨_, rfl⟩ := List.getElem?_eq_some_iff.mp hplace
    rw [List.getElem_range]
    change [_, ((List.range (net.width k)).map _).length] = _
    rw [List.length_map, List.length_range]
    rfl
  previous_shape := by
    intro k matrix hk
    rw [nudged, List.getElem?_map, Option.map_eq_some_iff] at hk
    obtain ⟨previous, hprevious, rfl⟩ := hk
    exact hnet.previous_shape k previous hprevious
  output_last := hnet.output_last
  size_least := hnet.size_least
  dropRate_unit := hrate
  arena_complete := fun h => Bool.noConfusion h
  arena_fits := by
    rintro arena harena
    cases harena

/-- Every weight of every well-formed network can be nudged. -/
theorem nudges_nudged :
    (net.nudged rate boundary row column).Nudges net boundary row column where
  wellFormed := wellFormed_nudged hnet hrate
  sizes_eq := rfl
  outputLayer_eq := rfl
  rules_eq := rfl
  activations := by
    rw [nudged, List.forall₂_map_left_iff, List.forall₂_same]
    exact fun f _ => f.continues_dual
  cost := net.cost.continues_dual
  weight_eq := by
    intro k i j hk hi hj
    have hmatrix : (net.nudged rate boundary row column).weights[k]? =
        some (net.nudgedMatrix boundary row column k) := by
      rw [nudged, List.getElem?_map, List.getElem?_range (by omega), Option.map_some]
    have hentry : (net.nudgedMatrix boundary row column k).entry i j = .ok _ :=
      Tensor.entry_ofColumns hi
        (by rw [List.getElem?_map, List.getElem?_range hj, Option.map_some])
        (by rw [List.getElem?_map, List.getElem?_range hi, Option.map_some])
    simp only [weight, hmatrix, Tensor.scalarAt, hentry]
    rfl
  present := present_of_idle rfl rfl

end

end Network

end FeedForward
