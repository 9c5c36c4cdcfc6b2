import FeedForward.Proofs.Gradient.Nudge

/-!
# Backpropagation computes the gradient

Over exact numbers an update is minus the learning rate times the derivative of the total cost by
the weight. The derivative is an algebraic one: the network runs forward with the weight nudged by
`ε`, and the derivative is what the total cost has beside `ε`. Nothing is said about rounded
numbers, nor about momentum, regularisation, dropped units, softmax and strongest inputs.
-/

namespace FeedForward

open TrivSqZeroExt DualNumber

namespace Network

variable {R : Type} [CommRing R] [BeyondRing R] [BeyondRing R[ε]]

/-- How far the nudge moves the total cost by way of a layer. -/
def effect (dual : Network R[ε] R[ε]) (net : Network R R) (x : Lesson R) (layer : Nat) : R :=
  ∑ i ∈ Finset.range (net.width layer), net.slope x layer i * dual.sensitivity x.inputs layer i

/-! ## The nudge in the cost -/

section

variable {net : Network R R} {dual : Network R[ε] R[ε]} {boundary row column : Nat}
  (hnet : net.WellFormed) (hplain : net.Plain) (hnudges : dual.Nudges net boundary row column)
  {x : Lesson R} (hinputs : x.inputs.length = net.width 0) (hlive : ∀ k i, x.live k i = true)

include hnet hplain hnudges hinputs hlive

/-- A unit contributes to the effect of its layer its delta times what its weighted sum moves. -/
theorem slope_mul_sensitivity {k i : Nat} (hk : k + 1 < net.sizes.length)
    (hi : i < net.fedWidth (k + 1)) :
    net.slope x (k + 1) (i + net.biasUnits (k + 1)) *
        dual.sensitivity x.inputs (k + 1) (i + net.biasUnits (k + 1)) =
      (net.deltas x (k + 1)).getD (i + net.biasUnits (k + 1)) 0 * dual.shift x.inputs k i := by
  have hunit : i + net.biasUnits (k + 1) < net.width (k + 1) := by
    rw [fedWidth] at hi
    omega
  have hfront : ∀ j < net.width k, _ := fun j hj =>
    fst_activity hnet hplain hnudges hinputs (show k < net.sizes.length by omega) hj
  rw [getD_deltas_eq hnet hinputs hplain.regularization_eq hk hunit (hplain.isSoftmax_eq (k + 1))
    (hlive _ _), mul_assoc, sensitivity, activity_row hnet hplain hnudges hinputs hk hi hfront]
  simp

/-- From one layer to the next nothing of the effect is lost, and at the boundary of the nudged
weight the delta behind it times the output in front is added. -/
theorem effect_succ (hrow : row < net.fedWidth (boundary + 1))
    (hcolumn : column < net.width boundary) {k : Nat} (hk : k + 1 < net.sizes.length) :
    dual.effect net x (k + 1) = dual.effect net x k +
      if k = boundary then
        (net.deltas x (k + 1)).getD (row + net.biasUnits (k + 1)) 0 *
          (net.activity x.inputs k).getD column 0
      else 0 := by
  let delta i := (net.deltas x (k + 1)).getD (i + net.biasUnits (k + 1)) 0
  let y j := (net.activity x.inputs k).getD j 0
  let nudge i j : R := if k = boundary ∧ i = row ∧ j = column then 1 else 0
  have hbias : ∑ i ∈ Finset.range (net.biasUnits (k + 1)),
      net.slope x (k + 1) i * dual.sensitivity x.inputs (k + 1) i = 0 := by
    refine Finset.sum_eq_zero fun i hi => ?_
    rw [sensitivity_bias hnudges (Finset.mem_range.mp hi), mul_zero]
  have hunit : ∀ i ∈ Finset.range (net.fedWidth (k + 1)),
      net.slope x (k + 1) (i + net.biasUnits (k + 1)) *
        dual.sensitivity x.inputs (k + 1) (i + net.biasUnits (k + 1)) =
      ∑ j ∈ Finset.range (net.width k),
        (delta i * net.weight k i j * dual.sensitivity x.inputs k j +
          delta i * y j * nudge i j) := by
    intro i hi
    have hi := Finset.mem_range.mp hi
    rw [slope_mul_sensitivity hnet hplain hnudges hinputs hlive hk hi,
      shift_eq hnet hplain hnudges hinputs hk hi, Finset.mul_sum]
    refine Finset.sum_congr rfl fun j _ => ?_
    ring
  have hslope : ∀ j, ∑ i ∈ Finset.range (net.fedWidth (k + 1)), delta i * net.weight k i j =
      net.slope x k j := by
    intro j
    rw [slope, if_pos hk]
  have hnudge : ∑ i ∈ Finset.range (net.fedWidth (k + 1)), ∑ j ∈ Finset.range (net.width k),
      delta i * y j * nudge i j = if k = boundary then delta row * y column else 0 := by
    by_cases hboundary : k = boundary
    · simp only [nudge, hboundary, true_and, if_true]
      exact sum_single_place (hboundary ▸ hrow) (hboundary ▸ hcolumn) fun i j => delta i * y j
    · simp [nudge, hboundary]
  -- Summed over the units behind first, what reaches a unit in front is its own slope.
  calc
    dual.effect net x (k + 1) =
        ∑ i ∈ Finset.range (net.fedWidth (k + 1)), ∑ j ∈ Finset.range (net.width k),
          (delta i * net.weight k i j * dual.sensitivity x.inputs k j +
            delta i * y j * nudge i j) := by
      rw [effect, sum_width hnet hk, hbias, zero_add, Finset.sum_congr rfl hunit]
    _ = ∑ j ∈ Finset.range (net.width k), (∑ i ∈ Finset.range (net.fedWidth (k + 1)),
          delta i * net.weight k i j) * dual.sensitivity x.inputs k j +
        ∑ i ∈ Finset.range (net.fedWidth (k + 1)), ∑ j ∈ Finset.range (net.width k),
          delta i * y j * nudge i j := by
      simp only [Finset.sum_add_distrib, Finset.sum_mul]
      rw [Finset.sum_comm]
    _ = dual.effect net x k + if k = boundary then delta row * y column else 0 := by
      simp only [hslope, hnudge, effect]

/-- Behind the boundary of the nudged weight every layer accounts for the same effect. -/
theorem effect_eq (hrow : row < net.fedWidth (boundary + 1)) (hcolumn : column < net.width boundary)
    {k : Nat} (hk : k < net.sizes.length) :
    dual.effect net x k =
      if boundary < k then
        (net.deltas x (boundary + 1)).getD (row + net.biasUnits (boundary + 1)) 0 *
          (net.activity x.inputs boundary).getD column 0
      else 0 := by
  induction k with
  | zero =>
      rw [if_neg (Nat.not_lt_zero boundary), effect]
      exact Finset.sum_eq_zero fun i _ => by rw [sensitivity_zero, mul_zero]
  | succ k ih =>
      rw [effect_succ hnet hplain hnudges hinputs hlive hrow hcolumn hk, ih (by omega)]
      rcases Nat.lt_trichotomy boundary k with hlt | rfl | hgt
      · rw [if_pos hlt, if_neg (by omega), if_pos (by omega), add_zero]
      · rw [if_neg (Nat.lt_irrefl _), if_pos rfl, if_pos (Nat.lt_succ_self _), zero_add]
      · rw [if_neg (by omega), if_neg (by omega), if_neg (by omega), add_zero]

omit hlive in
/-- The total cost moves by the effect of the output layer. -/
theorem total_eq {last : Nat} (hlast : last + 1 = net.sizes.length)
    (hlabels : x.labels.length = net.width last) :
    blockedSum (List.zipWith dual.cost.apply (x.labels.map inl)
        (dual.activity (x.inputs.map inl) last)) =
      inl (blockedSum (List.zipWith net.cost.apply x.labels (net.activity x.inputs last))) +
        inr (dual.effect net x last) := by
  have hlt : last < net.sizes.length := by omega
  have houtputs := length_activity hnudges.wellFormed (length_inputs_inl hnudges hinputs)
    (show last < dual.sizes.length by rw [hnudges.sizes_eq]; exact hlt)
  rw [hnudges.width_eq] at houtputs
  have hterm : ∀ i ∈ Finset.range (net.width last),
      dual.cost.apply ((x.labels.map inl).getD i 0)
          ((dual.activity (x.inputs.map inl) last).getD i 0) =
        inl (net.cost.apply (x.labels.getD i 0) ((net.activity x.inputs last).getD i 0)) +
          inr (net.slope x last i * dual.sensitivity x.inputs last i) := by
    intro i hi
    have hlabel : (x.labels.map inl).getD i (0 : R[ε]) = inl (x.labels.getD i 0) := by
      rw [← inl_zero R, List.getD_map]
    rw [hlabel, slope, if_neg (by omega), sensitivity, ← hnudges.cost,
      ← fst_activity hnet hplain hnudges hinputs hlt (Finset.mem_range.mp hi),
      inl_fst_add_inr_snd_eq]
  rw [blockedSum_eq, blockedSum_eq, sum_zipWith _ ((List.length_map _).trans hlabels) houtputs,
    sum_zipWith _ hlabels (length_activity hnet hinputs hlt), Finset.sum_congr rfl hterm,
    Finset.sum_add_distrib, ← inl_sum, ← inr_sum, effect]

/-- The total cost of the nudged forward pass is that of the network, and beside it stands the delta
behind the nudged weight times the output in front. -/
theorem forward_nudged {last : Nat} (houtput : net.outputLayer = some last)
    (hlabels : x.labels.length = net.width last) (hboundary : boundary < last)
    (hrow : row < net.fedWidth (boundary + 1)) (hcolumn : column < net.width boundary) :
    ∃ outputs moved, forward (x.inputs.map inl) dual = .ok outputs moved ∧
      dual.cost.total (.ofList (x.labels.map inl)) (.ofList outputs) =
        .ok (inl (blockedSum (List.zipWith net.cost.apply x.labels (net.activity x.inputs last))) +
          inr ((net.deltas x (boundary + 1)).getD (row + net.biasUnits (boundary + 1)) 0 *
            (net.activity x.inputs boundary).getD column 0)) := by
  obtain ⟨hlast, hpositive⟩ := hnet.output_last last houtput
  have hvalues := length_inputs_inl hnudges hinputs
  have hforward := forward_eq hnudges.wellFormed (hnudges.outputLayer_eq.trans houtput) hvalues
  rw [masked_drawn hnudges.wellFormed (by rw [hnudges.sizes_eq]; omega) hnudges.present hvalues]
    at hforward
  have hlength := length_activity hnudges.wellFormed hvalues
    (show last < dual.sizes.length by rw [hnudges.sizes_eq]; omega)
  refine ⟨_, _, hforward, ?_⟩
  rw [total_eq_ok dual.cost (by rw [List.length_map, hlabels, hlength, hnudges.width_eq]),
    total_eq hnet hplain hnudges hinputs hlast hlabels,
    effect_eq hnet hplain hnudges hinputs hlive hrow hcolumn (by omega), if_pos hboundary]

end

/-! ## Updates -/

/-- Training a plain network on a valid instance moves each weight down the gradient: where the
total cost of the forward pass with that weight nudged is `cost` and `slope` times the nudge, the
update of the weight is minus the slope times the rate at which the unit in front of it learns. -/
theorem trainByInstance_descends {net : Network R R} (hnet : net.WellFormed) {last : Nat}
    (houtput : net.outputLayer = some last) (htransformer : KeepsCount net.transformer)
    (hplain : net.Plain) {given : Instance R} {features : Tensor R} {label : Option (List R)}
    (hcheck : net.checkInstance given = .ok (features, label)) (iteration : Int)
    {boundary row column : Nat} (hboundary : boundary < last)
    (hrow : row < net.fedWidth (boundary + 1)) (hcolumn : column < net.width boundary)
    {dual : Network R[ε] R[ε]} (hnudges : dual.Nudges net boundary row column) :
    let inputs := (net.transformer.apply features).toList
    let labels := label.getD inputs
    ∃ outputs moved cost slope updates after update n rate,
      forward ((1 :: inputs).map inl) dual = .ok outputs moved ∧
      dual.cost.total (.ofList (labels.map inl)) (.ofList outputs) =
        .ok (inl cost + inr slope) ∧
      trainByInstance given iteration net = .ok updates after ∧ after.trainingError = cost ∧
      updates[boundary]? = some update ∧ net.unitAt? boundary column = some n ∧
      n.effectiveLearningRate iteration = .ok rate ∧
      update.entry row column = .ok (-rate * slope) := by
  intro inputs labels
  obtain ⟨hlast, hpositive⟩ := hnet.output_last last houtput
  -- A valid instance is one that the network can be trained on, with these features and labels.
  obtain ⟨_, _, htrainable⟩ := exists_trainable hnet houtput hcheck
  obtain ⟨_, hsame, hlabels, hlength⟩ := htrainable.checkInstance hnet houtput htransformer
  rw [hcheck] at hsame
  cases hsame
  subst hlabels
  have hlive := hplain.present
  have hfed : net.fedInputs 1 features = 1 :: inputs := masked_drawn hnet (by omega) (hlive 0)
    (length_bias_cons hnet (by omega) htransformer htrainable.features_shape 1)
  let x := net.ownLesson features labels iteration
  obtain ⟨hinputs, -, hrun⟩ := trainByInstance_run (x := x) hnet houtput htransformer
    (net.attends_ownLesson features labels iteration) rfl htrainable rfl
  obtain ⟨outputs, moved, hforward, htotal⟩ := forward_nudged (x := x) hnet hplain hnudges hinputs
    hlive houtput hlength hboundary hrow hcolumn
  change forward ((net.fedInputs 1 features).map inl) dual = _ at hforward
  rw [hfed] at hforward
  -- The unit in front of the weight takes part, so its update is the one of the recursion.
  obtain ⟨units, hunits, hcount⟩ := hnet.fits_units.exists_layer (k := boundary) (by omega)
  obtain ⟨n, hn⟩ : ∃ n, net.unitAt? boundary column = some n := by
    rw [unitAt?, hunits]
    exact ⟨_, List.getElem?_eq_getElem (hcount ▸ hcolumn)⟩
  have hentry := entry_update x hnet hinputs (by omega) hrow hcolumn
  rw [show x.live boundary column = true from hlive boundary column, if_pos rfl,
    hplain.momentum_eq, zero_mul, add_zero, mul_assoc] at hentry
  exact ⟨outputs, moved, _, _, _, _, net.update x boundary, _, _, hforward, htotal, hrun, rfl,
    by rw [List.getElem?_map, List.getElem?_range hboundary, Option.map_some], hn,
    effectiveLearningRate_eq hnet hn iteration, hentry⟩

/-! ## An example -/

/-- Rational numbers, where a pass that needs only the ring meets nothing else. -/
instance : BeyondRing ℚ where
  le a b := decide (a ≤ b)
  exp := id
  log := id
  tanh := id
  sqrt := id
  infinity := 0
  fraction _ := 0
  centred _ := 0
  text _ := ""

/-- Dual numbers over the rational ones, compared beside the nudge. -/
instance : BeyondRing ℚ[ε] where
  div a b := inl (a.fst / b.fst) + inr ((a.snd * b.fst - a.fst * b.snd) / (b.fst * b.fst))
  ofScientific mantissa negative exponent :=
    inl (OfScientific.ofScientific mantissa negative exponent)
  le a b := decide (a.fst ≤ b.fst)
  exp := id
  log := id
  tanh := id
  sqrt := id
  infinity := 0
  fraction _ := 0
  centred _ := 0
  text _ := ""

/-- Three layers, each with one unit besides its bias unit, and something added to one weight. -/
def ladder {S : Type} [CommRing S] [BeyondRing S] (nudge : S) : Network S S where
  learningRate := 1
  momentumWeight := 0
  regularizationWeight := 0
  cost := .squaredError
  style := .supervised
  method := TrainingMethod.gradientDescent.name
  transformer := .identity
  dropRate := 0
  training := false
  trainingError := 0
  sizes := [2, 2, 1]
  weights := [⟨[1, 2], #[1 + 1, -1 + nudge], rfl⟩, ⟨[1, 2], #[1, 1 + 1], rfl⟩]
  previous := [.fill [1, 2] 0, .fill [1, 2] 0]
  activations := [.identity, .identity]
  rules := [.annealing, .standard]
  outputLayer := some 2
  source := ⟨0⟩
  arena := none

theorem wellFormed_ladder {S : Type} [CommRing S] [BeyondRing S] (nudge : S)
    (hle : Scalar.le (0 : S) 0 = true) (hone : Scalar.le (0 : S) 1 = true) :
    (ladder nudge).WellFormed where
  weights_length := rfl
  previous_length := rfl
  activations_length := rfl
  rules_length := rfl
  weights_shape := by
    rintro (_ | _ | k) matrix hmatrix <;> cases hmatrix <;> rfl
  previous_shape := by
    rintro (_ | _ | k) matrix hmatrix <;> cases hmatrix <;> rfl
  output_last := by
    rintro layer hlayer
    cases hlayer
    exact ⟨rfl, Nat.le_add_left 1 1⟩
  size_least := by
    rintro (_ | _ | _ | k) size hsize <;> cases hsize <;> exact Nat.le_refl _
  dropRate_unit := ⟨hle, hone⟩
  arena_complete := fun h => Bool.noConfusion h
  arena_fits := by
    rintro arena harena
    cases harena

theorem present_ladder {S : Type} [CommRing S] [BeyondRing S] (nudge : S) (layer i : Nat) :
    (ladder nudge).present layer i = true := by
  rcases layer with _ | _ | _ | layer <;> rcases i with _ | _ | i <;> rfl

theorem plain_ladder : (ladder (0 : ℚ)).Plain where
  rule_ne := by decide
  softmax_eq := by
    intro f hf
    obtain rfl : f = .identity := by simpa [ladder] using hf
    rfl
  momentum_eq := by
    rintro (_ | _ | _ | layer) (_ | _ | i) <;> rfl
  regularization_eq := rfl
  present := present_ladder 0

theorem nudges_ladder : (ladder (inr 1 : ℚ[ε])).Nudges (ladder (0 : ℚ)) 0 0 1 where
  wellFormed := wellFormed_ladder _ (by decide) (by decide)
  sizes_eq := rfl
  outputLayer_eq := rfl
  rules_eq := rfl
  activations := .cons .identity (.cons .identity .nil)
  cost := .squaredError (by decide +kernel) rfl
  weight_eq := by
    intro k i j hk hi hj
    have hk : k < 2 := Nat.lt_of_succ_lt_succ hk
    obtain rfl | rfl : k = 0 ∨ k = 1 := by omega
    · obtain rfl : i = 0 := Nat.lt_one_iff.mp hi
      have hj : j < 2 := hj
      obtain rfl | rfl : j = 0 ∨ j = 1 := by omega
      · ext <;> decide +kernel
      · ext <;> decide +kernel
    · obtain rfl : i = 0 := Nat.lt_one_iff.mp hi
      have hj : j < 2 := hj
      obtain rfl | rfl : j = 0 ∨ j = 1 := by omega
      · ext <;> decide +kernel
      · ext <;> decide +kernel
  present := present_ladder _ 0

/-- One instance for three layers of exact numbers. -/
def rung : Instance ℚ := ⟨some (.ofList [1]), some (some (.ofList [0]))⟩

theorem checkInstance_rung : (ladder 0).checkInstance rung = .ok (.ofList [1], some [0]) := by
  rw [checkInstance]
  rfl

theorem trainByInstance_descends_ladder :
    let net := ladder (0 : ℚ)
    let dual := ladder (inr 1 : ℚ[ε])
    net.WellFormed ∧ net.outputLayer = some 2 ∧ KeepsCount net.transformer ∧ net.Plain ∧
      net.checkInstance rung = .ok (.ofList [1], some [0]) ∧
      0 < 2 ∧ 0 < net.fedWidth 1 ∧ 1 < net.width 0 ∧ dual.Nudges net 0 0 1 ∧
      ∃ outputs moved cost slope updates after update n rate,
        forward ((1 :: [1]).map inl) dual = .ok outputs moved ∧
        dual.cost.total (.ofList ([0].map inl)) (.ofList outputs) = .ok (inl cost + inr slope) ∧
        trainByInstance rung 7 net = .ok updates after ∧ after.trainingError = cost ∧
        updates[0]? = some update ∧ net.unitAt? 0 1 = some n ∧
        n.effectiveLearningRate 7 = .ok rate ∧ update.entry 0 1 = .ok (-rate * slope) := by
  intro net dual
  have hnet : net.WellFormed := wellFormed_ladder 0 (by decide) (by decide)
  have htransformer : KeepsCount net.transformer := fun _ => rfl
  have hrow : 0 < net.fedWidth 1 := Nat.one_pos
  have hcolumn : 1 < net.width 0 := Nat.one_lt_two
  exact ⟨hnet, rfl, htransformer, plain_ladder, checkInstance_rung, Nat.two_pos, hrow, hcolumn,
    nudges_ladder, trainByInstance_descends hnet rfl htransformer plain_ladder checkInstance_rung 7
      Nat.two_pos hrow hcolumn nudges_ladder⟩

end Network

end FeedForward
