import Mathlib.Algebra.BigOperators.Ring.Finset
import Mathlib.Tactic.Ring
import FeedForward.Proofs.Dense.Totality

/-!
# Exact numbers

The elements of a commutative ring as scalars and as stored numbers at once: nothing is rounded,
every sum is the ordinary one, and the passes of a network become the sums and products that they
stand for, where no unit takes its strongest input or is normalised. What passes ask of numbers
beyond the operations of a ring is arbitrary.
-/

namespace FeedForward

/-- What passes ask of numbers beyond the operations of a ring. Nothing is assumed of it. -/
class BeyondRing (R : Type) extends Div R, OfScientific R where
  le : R → R → Bool
  exp : R → R
  log : R → R
  tanh : R → R
  sqrt : R → R
  infinity : R
  fraction : UInt32 → R
  centred : UInt32 → R
  text : R → String

variable {R : Type} [CommRing R]

/-- Exact numbers have no range that a count could leave. -/
instance (priority := low) [BeyondRing R] : Scalar R where
  le := BeyondRing.le
  exp := BeyondRing.exp
  log := BeyondRing.log
  tanh := BeyondRing.tanh
  sqrt := BeyondRing.sqrt
  infinity := BeyondRing.infinity
  ofNat n := n
  fits _ := true
  fraction := BeyondRing.fraction
  text := BeyondRing.text

/-- Exact numbers are stored as they are. -/
instance (priority := low) [BeyondRing R] : Precision R R := ⟨id, id, BeyondRing.centred⟩

/-! ## Order -/

/-- Where numbers compare as in a linear order, the greater one is the maximum. -/
theorem Scalar.maximum_eq_max {γ : Type} [LinearOrder γ] [Scalar γ]
    (hle : ∀ a b : γ, Scalar.le a b = decide (a ≤ b)) (a b : γ) :
    Scalar.maximum a b = max a b := by
  rw [Scalar.maximum, Scalar.isNaN, hle, hle, decide_eq_true (le_refl a), Bool.not_true,
    Bool.or_false]
  by_cases hba : b ≤ a
  · rw [decide_eq_true hba, if_pos rfl, max_eq_left hba]
  · rw [decide_eq_false hba, if_neg Bool.false_ne_true, max_eq_right (le_of_not_ge hba)]

/-- Where numbers compare as in a linear order, the lesser one is the minimum. -/
theorem Scalar.minimum_eq_min {γ : Type} [LinearOrder γ] [Scalar γ]
    (hle : ∀ a b : γ, Scalar.le a b = decide (a ≤ b)) (a b : γ) :
    Scalar.minimum a b = min a b := by
  rw [Scalar.minimum, Scalar.isNaN, hle, hle, decide_eq_true (le_refl a), Bool.not_true,
    Bool.or_false]
  by_cases hab : a ≤ b
  · rw [decide_eq_true hab, if_pos rfl, min_eq_left hab]
  · rw [decide_eq_false hab, if_neg Bool.false_ne_true, min_eq_right (le_of_not_ge hab)]

/-! ## Sums -/

theorem sumOnto_eq (start : R) (xs : List R) : sumOnto start xs = start + xs.sum := by
  induction xs generalizing start with
  | nil => simp [sumOnto]
  | cons x xs ih =>
      have hrest := ih (start + x)
      rw [sumOnto] at hrest ⊢
      rw [List.foldl_cons, hrest, List.sum_cons, add_assoc]

/-- Adding blocks to eight lanes loses nothing. -/
theorem sum_addBlocks (lanes xs : List R) (hlanes : lanes.length = 8) :
    (addBlocks lanes xs).1.length = 8 ∧
      (addBlocks lanes xs).1.sum + (addBlocks lanes xs).2.sum = lanes.sum + xs.sum := by
  fun_induction addBlocks lanes xs with
  | case1 lanes xs hblock ih =>
      have hblockLength : (xs.take 8).length = 8 := by rw [List.length_take]; omega
      obtain ⟨hlength, hsum⟩ := ih (by rw [List.length_zipWith, hlanes, hblockLength, Nat.min_self])
      refine ⟨hlength, ?_⟩
      rw [hsum, ← List.sum_add_sum_eq_sum_zipWith_of_length_eq _ _ (hlanes.trans hblockLength.symm),
        add_assoc, List.sum_take_add_sum_drop]
  | case2 lanes xs hrest => exact ⟨hlanes, rfl⟩

theorem joinLanes_eq (lanes : List R) : joinLanes lanes = lanes.sum := by
  rw [joinLanes.eq_def]
  split
  next => simp only [List.sum_cons, List.sum_nil]; ring
  next => rw [sumOnto_eq, zero_add]

/-- The order of the additions does not matter. -/
theorem blockedSum_eq (xs : List R) : blockedSum xs = xs.sum := by
  fun_induction blockedSum xs with
  | case1 xs hshort => rw [sumOnto_eq, zero_add]
  | case2 xs hlong hblocks lanes rest hadd =>
      have hfirst : (xs.take 8).length = 8 := by rw [List.length_take]; omega
      have hsum := (sum_addBlocks (xs.take 8) (xs.drop 8) hfirst).2
      rw [hadd] at hsum
      rw [sumOnto_eq, joinLanes_eq, hsum, List.sum_take_add_sum_drop]
  | case3 xs hlong hblocks half ihfront ihback =>
      rw [ihfront, ihback, List.sum_take_add_sum_drop]

theorem sum_mapIdx (xs : List R) (f : Nat → R → R) :
    (xs.mapIdx f).sum = ∑ i ∈ Finset.range xs.length, f i (xs.getD i 0) := by
  induction xs generalizing f with
  | nil => rfl
  | cons x xs ih =>
      rw [List.mapIdx_cons, List.sum_cons, ih, List.length_cons, Finset.sum_range_succ', add_comm]
      rfl

theorem sum_zipWith (f : R → R → R) {xs ys : List R} {n : Nat} (hxs : xs.length = n)
    (hys : ys.length = n) :
    (List.zipWith f xs ys).sum = ∑ i ∈ Finset.range n, f (xs.getD i 0) (ys.getD i 0) := by
  induction xs generalizing ys n with
  | nil =>
      obtain rfl : n = 0 := hxs.symm
      rw [List.zipWith_nil_left, Finset.sum_range_zero, List.sum_nil]
  | cons x xs ih =>
      cases ys with
      | nil => subst hxs; simp at hys
      | cons y ys =>
          subst hxs
          rw [List.zipWith_cons_cons, List.sum_cons, ih rfl (by simpa using hys), List.length_cons,
            Finset.sum_range_succ', add_comm]
          rfl

/-- A sum over the places of a matrix to which only one place contributes. -/
theorem sum_single_place {rows columns row column : Nat} (hrow : row < rows)
    (hcolumn : column < columns) (f : Nat → Nat → R) :
    ∑ i ∈ Finset.range rows, ∑ j ∈ Finset.range columns,
      f i j * (if i = row ∧ j = column then 1 else 0) = f row column := by
  rw [Finset.sum_eq_single_of_mem row (Finset.mem_range.mpr hrow),
    Finset.sum_eq_single_of_mem column (Finset.mem_range.mpr hcolumn)]
  · rw [if_pos ⟨rfl, rfl⟩, mul_one]
  · intro j _ hj
    rw [if_neg fun h => hj h.2, mul_zero]
  · intro i _ hi
    refine Finset.sum_eq_zero fun j _ => ?_
    rw [if_neg fun h => hi h.1, mul_zero]

namespace Network

variable [BeyondRing R] {net : Network R R}

/-! ## Plain networks -/

/-- A network descends plainly if its units sum their inputs and are not normalised, and if neither
momentum, regularisation nor dropped units come in between. -/
structure Plain (net : Network R R) : Prop where
  rule_ne : ∀ rule ∈ net.rules, rule ≠ .max
  softmax_eq : ∀ f ∈ net.activations, f.isSoftmax = false
  momentum_eq : ∀ layer i, net.momentum layer i = 0
  regularization_eq : net.regularizationWeight = 0
  present : ∀ layer i, net.present layer i = true

section

variable (hplain : net.Plain)

include hplain

theorem Plain.ruleAt_ne (layer : Nat) : net.ruleAt layer ≠ .max := by
  cases layer with
  | zero => exact Rule.noConfusion
  | succ k =>
      rw [ruleAt, List.getD_eq_getElem?_getD]
      cases hrule : net.rules[k]? with
      | none => exact Rule.noConfusion
      | some rule => exact hplain.rule_ne rule (List.mem_of_getElem? hrule)

theorem Plain.isSoftmax_eq (layer : Nat) : (net.activationAt layer).isSoftmax = false := by
  cases layer with
  | zero => rfl
  | succ k =>
      rw [activationAt, List.getD_eq_getElem?_getD]
      cases hf : net.activations[k]? with
      | none => rfl
      | some f => exact hplain.softmax_eq f (List.mem_of_getElem? hf)

end

/-! ## Forward -/

theorem masks_of_idle {keep : R} {layer : List (Neuron R)} (hidle : ∀ n ∈ layer, n.training = false)
    (source : Generator) : ∀ flag ∈ (masks keep layer source).1, flag = true := by
  induction layer generalizing source with
  | nil => exact fun _ hflag => absurd hflag List.not_mem_nil
  | cons n layer ih =>
      have hrest := ih fun m hm => hidle m (List.mem_cons_of_mem n hm)
      simp only [masks, hidle n List.mem_cons_self, Bool.false_eq_true, if_false]
      exact fun flag hflag => (List.mem_cons.mp hflag).elim id fun hflag => hrest _ flag hflag

/-- A network that is not under training drops no input unit that is still to be built. -/
theorem present_of_idle (harena : net.arena = none) (hidle : net.training = false) (i : Nat) :
    net.present 0 i = true := by
  have hunits : ∀ n ∈ net.units.headD [], n.training = false := by
    rw [units, harena, Option.getD_none]
    cases hbuilt : net.built with
    | nil => exact fun n hn => absurd hn List.not_mem_nil
    | cons layer rest =>
        intro n hn
        rw [(follows_built (hbuilt ▸ List.mem_cons_self) hn).training_eq, hidle]
  rw [present, List.getD_eq_getElem?_getD]
  cases hflag : net.drawn.1[i]? with
  | none => rfl
  | some flag => exact masks_of_idle hunits net.source flag (List.mem_of_getElem? hflag)

/-- Where no input unit is dropped, values are fed as they are. -/
theorem masked_drawn (hnet : net.WellFormed) (hcomplete : 0 < net.sizes.length)
    (hpresent : ∀ i, net.present 0 i = true) {values : List R}
    (hvalues : values.length = net.width 0) : masked values net.drawn.1 = values := by
  have hlength := (length_drawn hnet hcomplete).trans hvalues.symm
  apply List.ext_getElem?
  intro i
  have hflag := hpresent i
  rw [present, List.getD_eq_getElem?_getD] at hflag
  rw [masked, List.getElem?_zipWith]
  cases hvalue : values[i]? with
  | none => rfl
  | some value =>
      obtain ⟨hlt, _⟩ := List.getElem?_eq_some_iff.mp hvalue
      rw [List.getElem?_eq_getElem (hlength.symm ▸ hlt), Option.getD_some] at hflag
      rw [List.getElem?_eq_getElem (hlength.symm ▸ hlt), hflag]
      simp

/-- A row takes the activation of the weighted sum, however weights are stored. -/
theorem rowOutput_eq {β : Type} [Precision R β] {net : Network R β} {boundary : Nat}
    (hrule : net.ruleAt (boundary + 1) ≠ .max) (outputs : List R) (row : Nat) :
    net.rowOutput boundary outputs row =
      (net.activationAt (boundary + 1)).apply (∑ i ∈ Finset.range outputs.length,
        outputs.getD i 0 * net.weight boundary row i) := by
  have hsum : sumOnto 0 (outputs.mapIdx fun i x => x * net.weight boundary row i) =
      ∑ i ∈ Finset.range outputs.length, outputs.getD i 0 * net.weight boundary row i := by
    rw [sumOnto_eq, zero_add, sum_mapIdx]
  rw [rowOutput, ← hsum]
  cases hcase : net.ruleAt (boundary + 1) with
  | max => exact absurd hcase hrule
  | standard => rfl
  | annealing => rfl

section

variable {inputs : List R} {boundary : Nat}

/-- A bias unit puts out one. -/
theorem getD_activity_bias {i : Nat} (hi : i < net.biasUnits (boundary + 1)) :
    (net.activity inputs (boundary + 1)).getD i 0 = 1 := by
  rw [biasUnits] at hi
  cases hfinal : net.isOutput (boundary + 1) with
  | true => simp [hfinal] at hi
  | false =>
      obtain rfl : i = 0 := by simpa [hfinal] using hi
      simp [activity, layerOutputs, hfinal]

/-- The other units put out the activation of the weighted sum of the layer in front. -/
theorem getD_activity_row (hnet : net.WellFormed) (hinputs : inputs.length = net.width 0)
    (hboundary : boundary + 1 < net.sizes.length)
    (hsoftmax : (net.activationAt (boundary + 1)).isSoftmax = false)
    (hrule : net.ruleAt (boundary + 1) ≠ .max) {row : Nat}
    (hrow : row < net.fedWidth (boundary + 1)) :
    (net.activity inputs (boundary + 1)).getD (row + net.biasUnits (boundary + 1)) 0 =
      (net.activationAt (boundary + 1)).apply (∑ i ∈ Finset.range (net.width boundary),
        (net.activity inputs boundary).getD i 0 * net.weight boundary row i) := by
  rw [← length_activity hnet hinputs (show boundary < net.sizes.length by omega),
    ← rowOutput_eq hrule, activity, layerOutputs, biasUnits]
  cases net.isOutput (boundary + 1) <;> simp [hsoftmax, hrow]

/-- A sum over the units of a layer, those with incoming weights apart. -/
theorem sum_width (hnet : net.WellFormed) (hboundary : boundary + 1 < net.sizes.length)
    (f : Nat → R) : ∑ i ∈ Finset.range (net.width (boundary + 1)), f i =
      ∑ i ∈ Finset.range (net.biasUnits (boundary + 1)), f i +
        ∑ row ∈ Finset.range (net.fedWidth (boundary + 1)),
          f (row + net.biasUnits (boundary + 1)) := by
  rw [← hnet.fedWidth_add_biasUnits hboundary, Nat.add_comm, Finset.sum_range_add]
  simp only [Nat.add_comm]

end

/-! ## Backward -/

/-- A unit learns at the rate of its place at every iteration. -/
theorem effectiveLearningRate_eq (hnet : net.WellFormed) {layer i : Nat} {n : Neuron R}
    (hn : net.unitAt? layer i = some n) (iteration : Int) :
    n.effectiveLearningRate iteration = .ok (net.rate iteration layer i) := by
  obtain ⟨units, hunits, hi⟩ := Option.bind_eq_some_iff.mp hn
  have hstands := hnet.fits_units.stands layer units i n hunits hi
  rw [Neuron.effectiveLearningRate, hstands.rule_eq, rate, hn, Option.elim_some]
  cases net.ruleAt layer with
  | standard => rfl
  | max => rfl
  | annealing => rfl

/-- The slope of the cost in the output of a unit, as the layers behind it hand it on. -/
def slope (net : Network R R) (x : Lesson R) (layer i : Nat) : R :=
  if layer + 1 < net.sizes.length then
    ∑ row ∈ Finset.range (net.fedWidth (layer + 1)),
      (net.deltas x (layer + 1)).getD (row + net.biasUnits (layer + 1)) 0 *
        net.weight layer row i
  else net.cost.derivative (x.labels.getD i 0) ((net.activity x.inputs layer).getD i 0)

/-- The delta of a unit is the slope of the cost in its weighted sum. -/
theorem getD_deltas_eq {x : Lesson R} (hnet : net.WellFormed)
    (hinputs : x.inputs.length = net.width 0) (hregular : net.regularizationWeight = 0)
    {layer i : Nat} (hlayer : layer < net.sizes.length) (hi : i < net.width layer)
    (hsoftmax : (net.activationAt layer).isSoftmax = false) (hlive : x.live layer i = true) :
    (net.deltas x layer).getD i 0 = net.slope x layer i *
      (net.activationAt layer).derivative ((net.activity x.inputs layer).getD i 0) := by
  obtain ⟨y, hunit⟩ : ∃ y, (net.activity x.inputs layer)[i]? = some y :=
    ⟨_, List.getElem?_eq_getElem
      (Nat.lt_of_lt_of_eq hi (length_activity hnet hinputs hlayer).symm)⟩
  have houtput : (net.activity x.inputs layer).getD i 0 = y := by
    rw [List.getD_eq_getElem?_getD, hunit, Option.getD_some]
  rw [houtput]
  by_cases hinner : layer + 1 < net.sizes.length
  · have hsum : sumOnto 0 (((net.deltas x (layer + 1)).drop (net.biasUnits (layer + 1))).mapIdx
        fun row delta => delta * net.weight layer row i) = net.slope x layer i := by
      rw [sumOnto_eq, zero_add, sum_mapIdx, ← deltasBehind,
        length_deltasBehind x hnet hinputs hinner, slope, if_pos hinner]
      refine Finset.sum_congr rfl fun row _ => ?_
      rw [deltasBehind, List.getD_eq_getElem?_getD, List.getElem?_drop, Nat.add_comm _ row,
        ← List.getD_eq_getElem?_getD]
    rw [deltas_of_lt x hinner, layerDeltas, List.getD_eq_getElem?_getD, List.getElem?_mapIdx,
      hunit, Option.map_some, Option.getD_some, hlive, if_pos rfl, hsum]
  · obtain rfl : layer = net.sizes.length - 1 := by omega
    rw [slope, if_neg hinner, deltas_last, outputDeltas, List.getD_eq_getElem?_getD,
      List.getElem?_mapIdx, hunit, Option.map_some, Option.getD_some, houtput]
    simp only [hsoftmax, hregular, zero_mul, add_zero, Bool.false_eq_true, if_false]

end Network

end FeedForward
