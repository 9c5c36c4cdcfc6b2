import FeedForward.Proofs.Dense.Distribution
import FeedForward.Proofs.Gradient.Nudge

/-!
# The gradient of softmax

Behind softmax, with the categorical cross entropy for a cost, the delta of an output unit is its
output less its label: the cost comes with the derivative of another number than its argument, and
that of the activation is left out. On dual numbers, with an exponential and a logarithm that obey
the chain rule, the two make the gradient. What a row hands over goes on by `ε`, and the total cost
goes on by the delta of the unit times `ε`, if the labels add up to one and no output is clipped.
That the logarithm inverts the exponential plays no part.
-/

namespace FeedForward

open TrivSqZeroExt DualNumber
open Exponential (exp log exp_pos)

/-- Where the exact part is not zero, a factor can be cancelled. -/
theorem mul_right_cancel_of_fst {R : Type} [Field R] {a b c : R[ε]} (hc : c.fst ≠ 0)
    (h : a * c = b * c) : a = b := by
  have hunit : c * c⁻¹ = 1 := TrivSqZeroExt.mul_inv_cancel hc
  calc a = a * c * c⁻¹ := by rw [mul_assoc, hunit, mul_one]
    _ = b * c * c⁻¹ := by rw [h]
    _ = b := by rw [mul_assoc, hunit, mul_one]

variable {R : Type} [Field R] [LinearOrder R] [Exponential R]

/-- Dual numbers with operations that go on from those on exact numbers. -/
structure ChainRule (R : Type) [Field R] [LinearOrder R] [Exponential R] [BeyondRing R[ε]] :
    Prop where
  exp_eq : ∀ x dx : R, Scalar.exp (inl x + inr dx : R[ε]) = inl (exp x) * (1 + inr dx)
  log_eq : ∀ x dx : R, 0 < x →
    Scalar.log (inl x + inr dx : R[ε]) = inl (log x) + inr (dx / x)
  div_mul_cancel : ∀ a b : R[ε], b.fst ≠ 0 → a / b * b = a
  le_of_lt : ∀ a b : R[ε], a.fst < b.fst → Scalar.le a b = true
  numeral_eq : ∀ (mantissa : Nat) (sign : Bool) (exponent : Nat),
    (OfScientific.ofScientific mantissa sign exponent : R[ε]) =
      inl (OfScientific.ofScientific mantissa sign exponent)

variable [BeyondRing R[ε]] (hchain : ChainRule R)

/-! ## Shares -/

/-- The shift by the greatest number, whichever the order makes of it. -/
theorem softmax_eq_shifted {α : Type} [Scalar α] {zs : List α} (hzs : zs ≠ []) :
    ∃ top : α, softmax zs = .ok (zs.map fun z => Scalar.exp (z - top) /
      blockedSum (zs.map fun z => Scalar.exp (z - top))) := by
  cases zs with
  | nil => exact absurd rfl hzs
  | cons z zs =>
      refine ⟨zs.foldl Scalar.maximum z, ?_⟩
      rw [softmax, greatest?]
      simp only [List.map_map]
      rfl

/-- What softmax makes of one of some numbers. -/
def share (zs : List R) (z : R) : R := exp z / mass zs

/-- How far the shares move on average if each number moves by its multiple of `ε`. -/
def drift (zs : List R[ε]) : R := (zs.map fun z => share (zs.map fst) z.fst * z.snd).sum

omit [BeyondRing R[ε]] in
theorem drift_eq (zs : List R[ε]) :
    drift zs = (zs.map fun z => exp z.fst * z.snd).sum / mass (zs.map fst) := by
  rw [drift, div_eq_mul_inv, ← List.sum_map_mul_right]
  refine congrArg List.sum (List.map_congr_left fun z _ => ?_)
  rw [share]
  ring

section

include hchain

theorem ChainRule.exp_dual (z : R[ε]) :
    Scalar.exp z = inl (exp z.fst) + inr (exp z.fst * z.snd) := by
  have hparts : z = inl z.fst + inr z.snd := (inl_fst_add_inr_snd_eq z).symm
  rw [hparts, hchain.exp_eq, ← hparts, mul_add, mul_one]
  ext
  · simp
  · simp [mul_comm]

theorem ChainRule.exp_sub_mul (z top : R[ε]) :
    Scalar.exp (z - top) * Scalar.exp top = Scalar.exp z := by
  have hexp := Exponential.exp_sub_mul z.fst top.fst
  rw [hchain.exp_dual top, mul_inl_add_inr, hchain.exp_dual, hchain.exp_dual z, ← hexp]
  ext
  · simp
  · simp
    ring

/-- The sum of the exponentials moves by the shares of what the numbers move by. -/
theorem ChainRule.sum_exp (zs : List R[ε]) :
    (zs.map Scalar.exp).sum = inl (mass (zs.map fst)) +
      inr (zs.map fun z => exp z.fst * z.snd).sum := by
  rw [mass, List.map_map]
  induction zs with
  | nil => simp
  | cons z zs ih =>
      rw [List.map_cons, List.sum_cons, ih, hchain.exp_dual]
      ext
      · simp
      · simp

variable [IsStrictOrderedRing R]

/-- What softmax makes of dual numbers: every share moves by itself times what its number moves by
beyond the average. -/
theorem ChainRule.softmax_eq {zs : List R[ε]} (hzs : zs ≠ []) :
    softmax zs = .ok (zs.map fun z => inl (share (zs.map fst) z.fst) +
      inr (share (zs.map fst) z.fst * (z.snd - drift zs))) := by
  obtain ⟨top, hsoftmax⟩ := softmax_eq_shifted hzs
  have hmass : mass (zs.map fst) ≠ 0 := (mass_pos (by simpa using hzs)).ne'
  have htotal : blockedSum (zs.map fun z => Scalar.exp (z - top)) * Scalar.exp top =
      inl (mass (zs.map fst)) + inr (zs.map fun z => exp z.fst * z.snd).sum := by
    rw [blockedSum_eq, ← List.sum_map_mul_right, ← hchain.sum_exp]
    exact congrArg List.sum (List.map_congr_left fun z _ => hchain.exp_sub_mul z top)
  have hexact : (inl (mass (zs.map fst)) +
      inr (zs.map fun z => exp z.fst * z.snd).sum : R[ε]).fst ≠ 0 := by
    simpa using hmass
  have hdivisor : (blockedSum (zs.map fun z => Scalar.exp (z - top))).fst ≠ 0 := by
    intro hzero
    rw [← htotal, fst_mul, hzero, zero_mul] at hexact
    exact hexact rfl
  rw [hsoftmax]
  refine congrArg _ (List.map_congr_left fun z _ => mul_right_cancel_of_fst hexact ?_)
  -- Both sides times the sum of all exponentials are the exponential of the number.
  rw [← htotal, ← mul_assoc, hchain.div_mul_cancel _ _ hdivisor, hchain.exp_sub_mul,
    hchain.exp_dual, htotal, mul_inl_add_inr, share, drift_eq]
  ext
  · simp [hmass]
  · simp
    field_simp
    ring

end

/-! ## The cost -/

/-- A number strictly inside the interval to which costs clip their arguments. -/
def Inside (y : R) : Prop := Cost.margin < y ∧ y < 1 - Cost.margin

omit [BeyondRing R[ε]] in
theorem Inside.clip_eq {y : R} (hy : Inside y) : Cost.clip y = y := by
  have hlower : Scalar.le Cost.margin y = true := decide_eq_true hy.1.le
  have hupper : Scalar.le y (1 - Cost.margin) = true := decide_eq_true hy.2.le
  rw [Cost.clip, Scalar.maximum, hlower, Bool.true_or, if_pos rfl, Scalar.minimum, hupper,
    Bool.true_or, if_pos rfl]

section

include hchain

theorem ChainRule.margin_eq : (Cost.margin : R[ε]) = inl Cost.margin := hchain.numeral_eq _ _ _

theorem ChainRule.clip_eq {y : R[ε]} (hy : Inside y.fst) : Cost.clip y = y := by
  have hlower : Scalar.le Cost.margin y = true :=
    hchain.le_of_lt _ _ (by rw [hchain.margin_eq]; exact hy.1)
  have hupper : Scalar.le y (1 - Cost.margin) = true :=
    hchain.le_of_lt _ _ (by rw [hchain.margin_eq]; exact hy.2)
  rw [Cost.clip, Scalar.maximum, hlower, Bool.true_or, if_pos rfl, Scalar.minimum, hupper,
    Bool.true_or, if_pos rfl]

/-- An output that is not clipped moves its cost by way of the logarithm. -/
theorem ChainRule.cost_eq (target : R) {y : R} (dy : R) (hpos : 0 < y) (hy : Inside y) :
    (Cost.categoricalCrossEntropy : Cost R[ε]).apply (inl target) (inl y + inr dy) =
      inl (Cost.categoricalCrossEntropy.apply target y) + inr (-(target * (dy / y))) := by
  have hfst : Inside (inl y + inr dy : R[ε]).fst := by simpa using hy
  change -inl target * Scalar.log (Cost.clip (inl y + inr dy)) =
    inl (-target * log (Cost.clip y)) + _
  rw [hchain.clip_eq hfst, hy.clip_eq, hchain.log_eq y dy hpos, mul_inl_add_inr]
  ext
  · simp
  · simp

/-- The costs of some shares, which move by themselves times what their numbers move by beyond an
average. -/
theorem ChainRule.sum_costs {f : R[ε] → R} (average : R) (labels : List R) {zs : List R[ε]}
    (hzs : ∀ z ∈ zs, 0 < f z ∧ Inside (f z)) :
    (List.zipWith (fun t z => (Cost.categoricalCrossEntropy : Cost R[ε]).apply (inl t)
      (inl (f z) + inr (f z * (z.snd - average)))) labels zs).sum =
      inl (List.zipWith (fun t z => Cost.categoricalCrossEntropy.apply t (f z)) labels zs).sum +
        inr (List.zipWith (fun t z => t * (average - z.snd)) labels zs).sum := by
  induction labels generalizing zs with
  | nil => simp
  | cons t labels ih =>
      cases zs with
      | nil => simp
      | cons z zs =>
          obtain ⟨hpos, hinside⟩ := hzs z List.mem_cons_self
          have hslope : -(t * (f z * (z.snd - average) / f z)) = t * (average - z.snd) := by
            rw [mul_div_cancel_left₀ _ hpos.ne']
            ring
          simp only [List.zipWith_cons_cons, List.sum_cons,
            ih fun z hz => hzs z (List.mem_cons_of_mem _ hz), hchain.cost_eq t _ hpos hinside,
            hslope]
          ext
          · simp
          · simp

end

theorem sum_zipWith_average {R : Type} [CommRing R] (average : R) {labels : List R}
    {zs : List R[ε]} (hlength : labels.length = zs.length) :
    (List.zipWith (fun t z => t * (average - z.snd)) labels zs).sum =
      average * labels.sum - (List.zipWith (fun t z => t * z.snd) labels zs).sum := by
  induction labels generalizing zs with
  | nil => simp
  | cons t labels ih =>
      cases zs with
      | nil => cases hlength
      | cons z zs =>
          simp only [List.zipWith_cons_cons, List.sum_cons, ih (Nat.succ.inj hlength)]
          ring

/-! ## One number nudged -/

/-- Numbers with `ε` added to one of them. -/
def nudge {R : Type} [CommRing R] (zs : List R) (i : Nat) : List R[ε] :=
  zs.mapIdx fun j z => inl z + if j = i then ε else 0

theorem map_fst_nudge {R : Type} [CommRing R] (zs : List R) (i : Nat) :
    (nudge zs i).map fst = zs := by
  rw [nudge, Network.map_mapIdx]
  refine List.mapIdx_eq_iff.mpr fun j => ?_
  cases zs[j]? with
  | none => rfl
  | some z => by_cases hj : j = i <;> simp [hj]

theorem map_snd_nudge {R : Type} [CommRing R] (zs : List R) (i : Nat) :
    (nudge zs i).map snd = zs.mapIdx fun j _ => if j = i then 1 else 0 := by
  rw [nudge, Network.map_mapIdx]
  refine congrFun (congrArg List.mapIdx (funext fun j => funext fun z => ?_)) zs
  by_cases hj : j = i <;> simp [hj]

/-- Of a sum over the numbers, each times what it moves by, one term is left. -/
theorem sum_mul_nudge {R : Type} [CommRing R] {factors zs : List R} {i : Nat}
    (hlength : factors.length = zs.length) (hi : i < zs.length) :
    (List.zipWith (fun x z => x * z.snd) factors (nudge zs i)).sum = factors.getD i 0 := by
  have hsplit : List.zipWith (fun x z => x * z.snd) factors (nudge zs i) =
      List.zipWith (· * ·) factors ((nudge zs i).map snd) := List.zipWith_map_right.symm
  rw [hsplit, map_snd_nudge, sum_zipWith _ hlength List.length_mapIdx,
    Finset.sum_eq_single_of_mem i (Finset.mem_range.mpr hi)]
  · simp [hi]
  · intro j hj hne
    simp [Finset.mem_range.mp hj, hne]

omit [BeyondRing R[ε]] in
theorem shares_eq {zs : List R} (hzs : zs ≠ []) : Network.shares zs = zs.map (share zs) := by
  rw [Network.shares, FeedForward.softmax_eq hzs]
  rfl

omit [BeyondRing R[ε]] in
theorem drift_eq_sum_zipWith (zs : List R[ε]) : drift zs =
    (List.zipWith (fun x z => x * z.snd) ((zs.map fst).map (share (zs.map fst))) zs).sum := by
  rw [List.map_map, List.zipWith_map_left, List.zipWith_self]
  rfl

omit [BeyondRing R[ε]] in
/-- The shares move on average by the share of the number that is nudged. -/
theorem drift_nudge {zs : List R} {i : Nat} (hi : i < zs.length) :
    drift (nudge zs i) = (zs.map (share zs)).getD i 0 := by
  rw [drift_eq_sum_zipWith, map_fst_nudge, sum_mul_nudge (List.length_map _) hi]

variable [IsStrictOrderedRing R]

include hchain in
/-- Nudging one number moves the total cost of its shares by the share less the label. -/
theorem ChainRule.total_nudge {labels zs : List R} (hlength : labels.length = zs.length)
    (hsum : labels.sum = 1) (hinside : ∀ y ∈ Network.shares zs, Inside y) {i : Nat}
    (hi : i < zs.length) :
    (Cost.categoricalCrossEntropy : Cost R[ε]).total (.ofList (labels.map inl))
        (.ofList (Network.shares (nudge zs i))) =
      .ok (inl (blockedSum
          (List.zipWith Cost.categoricalCrossEntropy.apply labels (Network.shares zs))) +
        inr ((Network.shares zs).getD i 0 - labels.getD i 0)) := by
  have hzs : zs ≠ [] := by
    rintro rfl
    cases hi
  have hnudged : (nudge zs i).length = zs.length := List.length_mapIdx
  have hnonempty : nudge zs i ≠ [] := List.ne_nil_of_length_pos (by omega)
  have hshares : Network.shares (nudge zs i) = (nudge zs i).map fun z =>
      inl (share zs z.fst) + inr (share zs z.fst * (z.snd - drift (nudge zs i))) := by
    rw [Network.shares, hchain.softmax_eq hnonempty, map_fst_nudge]
  have hmember : ∀ z ∈ nudge zs i, 0 < share zs z.fst ∧ Inside (share zs z.fst) := by
    intro z hz
    have hfst : z.fst ∈ zs := by
      rw [← map_fst_nudge zs i]
      exact List.mem_map_of_mem hz
    refine ⟨div_pos (exp_pos _) (mass_pos hzs), hinside _ ?_⟩
    rw [shares_eq hzs]
    exact List.mem_map_of_mem hfst
  have hexact : List.zipWith (fun t z => Cost.categoricalCrossEntropy.apply t (share zs z.fst))
      labels (nudge zs i) =
      List.zipWith Cost.categoricalCrossEntropy.apply labels (zs.map (share zs)) := by
    have hmap : ((nudge zs i).map fst).map (share zs) = zs.map (share zs) := by rw [map_fst_nudge]
    rw [← hmap, List.map_map, List.zipWith_map_right]
    rfl
  rw [Network.total_eq_ok _ (by rw [hshares, List.length_map, List.length_map, hlength, hnudged]),
    hshares, List.zipWith_map, blockedSum_eq, hchain.sum_costs _ labels hmember, hexact,
    sum_zipWith_average _ (hlength.trans hnudged.symm), hsum, mul_one, drift_nudge hi,
    sum_mul_nudge hlength hi, shares_eq hzs, blockedSum_eq]

namespace Network

omit [IsStrictOrderedRing R] in
/-- Where `ε` is added to one of the numbers that units hand over, normalising them together leaves
outputs whose total cost is that given, moved by the slope times `ε`. -/
def MovesCost (raw labels : List R) (i : Nat) (cost slope : R) : Prop :=
  ∀ units : List (Neuron R[ε]), outputsOf units = nudge raw i →
    ∃ settled, normalise units.length units = .ok () settled ∧
      (Cost.categoricalCrossEntropy : Cost R[ε]).total (.ofList (labels.map inl))
        (.ofList (outputsOf settled)) = .ok (inl cost + inr slope)

include hchain in
theorem movesCost_share {labels raw : List R} (hlength : labels.length = raw.length)
    (hsum : labels.sum = 1) (hinside : ∀ y ∈ shares raw, Inside y) {i : Nat}
    (hi : i < raw.length) :
    MovesCost raw labels i
      (blockedSum (List.zipWith Cost.categoricalCrossEntropy.apply labels (shares raw)))
      ((shares raw).getD i 0 - labels.getD i 0) := by
  intro units hunits
  have hcount : units.length = raw.length := by
    rw [← List.length_map Neuron.output, ← outputsOf, hunits, nudge, List.length_mapIdx]
  have hnonempty : units ≠ [] := List.ne_nil_of_length_pos (by omega)
  have houtputs : outputsOf units ≠ [] := by simpa [outputsOf] using hnonempty
  have hset : (shares (outputsOf units)).length = units.length := by
    rw [(softmax_eq_ok houtputs).2, outputsOf, List.length_map]
  refine ⟨_, normalise_run hnonempty, ?_⟩
  rw [outputsOf_setOutputs hset, hunits]
  exact hchain.total_nudge hlength hsum hinside hi

section

variable {β : Type} [Precision R β]

omit [BeyondRing R[ε]] [IsStrictOrderedRing R] in
theorem length_rawOutputs (net : Network R β) {boundary : Nat} (front : List R) :
    (net.rawOutputs boundary front).length = net.fedWidth (boundary + 1) := by
  rw [rawOutputs, List.length_map, List.length_range]

variable {net : Network R β} (hnet : net.WellFormed) {boundary : Nat}
  (houtput : net.outputLayer = some (boundary + 1))
  (hsoftmax : (net.activationAt (boundary + 1)).isSoftmax = true)

include hnet houtput

omit [BeyondRing R[ε]] [IsStrictOrderedRing R] in
theorem length_rawOutputs_output (front : List R) :
    (net.rawOutputs boundary front).length = net.width (boundary + 1) := by
  have hfinal : net.isOutput (boundary + 1) = true :=
    (hnet.isOutput_iff houtput).mpr (hnet.output_last _ houtput).1
  rw [length_rawOutputs, fedWidth, biasUnits, if_pos hfinal, Nat.sub_zero]

include hsoftmax

omit [BeyondRing R[ε]] [IsStrictOrderedRing R] in
/-- The output layer puts out the shares of what its rows hand over. -/
theorem activity_output (inputs : List R) : net.activity inputs (boundary + 1) =
    shares (net.rawOutputs boundary (net.activity inputs boundary)) := by
  have hfinal : net.isOutput (boundary + 1) = true :=
    (hnet.isOutput_iff houtput).mpr (hnet.output_last _ houtput).1
  rw [activity, layerOutputs, if_pos hsoftmax, if_pos hfinal]
  rfl

omit [BeyondRing R[ε]] [IsStrictOrderedRing R] in
/-- The deltas of the output layer are its outputs less the labels. -/
theorem deltas_output [Add β] [Zero β] (hcost : net.cost = .categoricalCrossEntropy)
    (hregular : net.regularizationWeight = 0) (x : Lesson R) :
    net.deltas x (boundary + 1) =
      (net.activity x.inputs (boundary + 1)).mapIdx fun i y => y - x.labels.getD i 0 := by
  have hend : net.sizes.length - 1 = boundary + 1 := by
    have hlast := (hnet.output_last _ houtput).1
    omega
  have hdeltas : net.deltas x (net.sizes.length - 1) = _ := deltas_last x
  rw [hend] at hdeltas
  rw [hdeltas, outputDeltas, hend]
  refine congrFun (congrArg List.mapIdx (funext fun i => funext fun y => ?_)) _
  simp only [hsoftmax, if_true, hcost, hregular, zero_mul, add_zero]
  rfl

end

/-- Training a network whose output layer is normalised, with the categorical cross entropy and
without regularisation, on a valid instance leaves in each output unit its output less its label as
the delta. If the labels add up to one and no output is clipped, that is the slope of the cost in
what the row of the unit hands over, which behind the built-in softmax is its weighted sum. -/
theorem softmax_deltas_are_slopes {β : Type} [Precision R β] [Add β] [Zero β] {net : Network R β}
    (hnet : net.WellFormed) {boundary : Nat} (houtput : net.outputLayer = some (boundary + 1))
    (htransformer : KeepsCount net.transformer)
    (hsoftmax : (net.activationAt (boundary + 1)).isSoftmax = true)
    (hcost : net.cost = .categoricalCrossEntropy) (hregular : net.regularizationWeight = 0)
    (hchain : ChainRule R) {given : Instance R} {features : Tensor R} {label : Option (List R)}
    (hcheck : net.checkInstance given = .ok (features, label))
    (hsum : (label.getD (net.transformer.apply features).toList).sum = 1) (iteration : Int) :
    let labels := label.getD (net.transformer.apply features).toList
    ∃ updates after arena front layer,
      trainByInstance given iteration net = .ok updates after ∧ after.arena = some arena ∧
      arena[boundary]? = some front ∧ arena[boundary + 1]? = some layer ∧
      outputsOf front = net.activity (net.fedInputs 1 features) boundary ∧
      layer.length = net.width (boundary + 1) ∧
      let raw := net.rawOutputs boundary (outputsOf front)
      softmax raw = .ok (outputsOf layer) ∧ ∀ i n, layer[i]? = some n →
        n.delta = n.output - labels.getD i 0 ∧
        ((∀ unit ∈ layer, Inside unit.output) →
          MovesCost raw labels i after.trainingError n.delta) ∧
        (net.activationAt (boundary + 1) = .softmaxPart → net.ruleAt (boundary + 1) ≠ .max →
          raw[i]? = some (∑ j ∈ Finset.range front.length,
            (outputsOf front).getD j 0 * net.weight boundary i j)) := by
  intro labels
  have hlast := (hnet.output_last _ houtput).1
  let x := net.ownLesson features labels iteration
  obtain ⟨hinputs, hlength, updates, after, arena, hrun, harena, herror, hlayer⟩ :=
    exists_trainedLayers hnet houtput htransformer hcheck iteration rfl
  obtain ⟨front, hfront, hfrontOutputs, -⟩ := hlayer boundary (by omega)
  obtain ⟨layer, hitem, hlayerOutputs, hlayerDeltas⟩ := hlayer (boundary + 1) (by omega)
  let raw := net.rawOutputs boundary (outputsOf front)
  have hraw : raw.length = net.width (boundary + 1) := length_rawOutputs_output hnet houtput _
  have hpositive : 0 < raw.length := by
    rw [hraw]
    have hfed := hnet.fedWidth_pos (show boundary + 1 < net.sizes.length by omega)
    rw [fedWidth] at hfed
    omega
  have hshares : outputsOf layer = shares raw := by
    rw [hlayerOutputs, activity_output hnet houtput hsoftmax, ← hfrontOutputs]
  have hwidth : layer.length = net.width (boundary + 1) := by
    rw [← length_activity hnet hinputs (show boundary + 1 < net.sizes.length by omega),
      ← hlayerOutputs, outputsOf, List.length_map]
  refine ⟨updates, after, arena, front, layer, hrun, harena, hfront, hitem, hfrontOutputs, hwidth,
    ?_, ?_⟩
  · rw [(softmax_eq_ok (List.ne_nil_of_length_pos hpositive)).1, hshares]
  · intro i n hn
    obtain ⟨hlt, -⟩ := List.getElem?_eq_some_iff.mp hn
    have hoption : (shares raw)[i]? = some n.output := by
      rw [← hshares, outputsOf, List.getElem?_map, hn, Option.map_some]
    have hdelta : n.delta = n.output - labels.getD i 0 := by
      have hstored := congrArg (·[i]?) hlayerDeltas
      simp only [List.getElem?_map, hn, Option.map_some, deltas_output hnet houtput hsoftmax hcost
        hregular, List.getElem?_mapIdx, ← hlayerOutputs, hshares, hoption] at hstored
      exact Option.some.inj hstored
    refine ⟨hdelta, fun hinside => ?_, fun hpart hrule => ?_⟩
    · have hnone : ∀ y ∈ shares raw, Inside y := by
        rw [← hshares]
        intro y hy
        obtain ⟨unit, hunit, rfl⟩ := List.mem_map.mp hy
        exact hinside unit hunit
      have hmoves := movesCost_share hchain (hlength.trans hraw.symm) hsum hnone
        (show i < raw.length by omega)
      rw [List.getD_eq_getElem?_getD, hoption, Option.getD_some, ← hdelta, ← hshares,
        hlayerOutputs, ← hcost, ← herror] at hmoves
      exact hmoves
    · have hcount : front.length = (outputsOf front).length := (List.length_map _).symm
      rw [hcount]
      have hfed : raw.length = net.fedWidth (boundary + 1) := length_rawOutputs net _
      exact getElem?_rawOutputs hpart hrule _ (by omega)

end Network

/-! ## An example over the real numbers -/

/-- Dual numbers over the real ones, compared beside `ε`. -/
noncomputable instance : BeyondRing ℝ[ε] where
  div a b := a * b⁻¹
  ofScientific mantissa negative exponent :=
    inl (OfScientific.ofScientific mantissa negative exponent)
  le a b := decide (a.fst ≤ b.fst)
  exp z := inl (Real.exp z.fst) * (1 + inr z.snd)
  log z := inl (Real.log z.fst) + inr (z.snd / z.fst)
  tanh := id
  sqrt := id
  infinity := 0
  fraction _ := 0
  centred _ := 0
  text _ := ""

theorem chainRule_real : ChainRule ℝ where
  exp_eq x dx := by
    change inl (Real.exp (inl x + inr dx : ℝ[ε]).fst) * (1 + inr (inl x + inr dx : ℝ[ε]).snd) = _
    simp
    rfl
  log_eq x dx _ := by
    change inl (Real.log (inl x + inr dx : ℝ[ε]).fst) +
      inr ((inl x + inr dx : ℝ[ε]).snd / (inl x + inr dx : ℝ[ε]).fst) = _
    simp
    rfl
  div_mul_cancel a b hb := by
    change a * b⁻¹ * b = a
    rw [mul_assoc, TrivSqZeroExt.inv_mul_cancel hb, mul_one]
  le_of_lt a b hab := decide_eq_true hab.le
  numeral_eq _ _ _ := rfl

namespace Network

/-- One feature, which raises one of two normalised units over the other. -/
noncomputable def tilted : Network ℝ ℝ where
  learningRate := 1
  momentumWeight := 0
  regularizationWeight := 0
  cost := .categoricalCrossEntropy
  style := .supervised
  method := TrainingMethod.gradientDescent.name
  transformer := .identity
  dropRate := 0
  training := false
  trainingError := 0
  sizes := [2, 2]
  weights := [⟨[2, 2], #[0, Real.log 3, 0, 0], rfl⟩]
  previous := [.fill [2, 2] 0]
  activations := [.softmaxPart]
  rules := [.standard]
  outputLayer := some 1
  source := ⟨0⟩
  arena := none

theorem wellFormed_tilted : tilted.WellFormed where
  weights_length := rfl
  previous_length := rfl
  activations_length := rfl
  rules_length := rfl
  weights_shape := by
    rintro (_ | k) matrix hmatrix <;> cases hmatrix
    rfl
  previous_shape := by
    rintro (_ | k) matrix hmatrix <;> cases hmatrix
    rfl
  output_last := by
    rintro layer hlayer
    cases hlayer
    exact ⟨rfl, Nat.le_refl 1⟩
  size_least := by
    rintro (_ | _ | k) size hsize <;> cases hsize <;> decide
  dropRate_unit := ⟨decide_eq_true le_rfl, decide_eq_true zero_le_one⟩
  arena_complete := fun h => Bool.noConfusion h
  arena_fits := by
    rintro arena harena
    cases harena

theorem rawOutputs_tilted :
    tilted.rawOutputs 0 (tilted.activity (tilted.fedInputs 1 (.ofList [1])) 0) =
      [Real.log 3, 0] := by
  change [0 + 1 * 1 * 0 + 1 * 1 * Real.log 3, 0 + 1 * 1 * 0 + 1 * 1 * 0] = [Real.log 3, (0 : ℝ)]
  simp

/-- The two units share three to one. -/
theorem softmax_tilted : softmax [Real.log 3, 0] = .ok [3 / 4, 1 / 4] := by
  have hexp : exp (Real.log 3) = 3 := Real.exp_log (by norm_num)
  have hmass : mass [Real.log 3, 0] = 4 := by
    rw [mass, List.map_cons, List.map_cons, List.map_nil, hexp, Exponential.exp_zero]
    norm_num
  rw [FeedForward.softmax_eq (List.cons_ne_nil _ _)]
  simp only [List.map_cons, List.map_nil, hmass, hexp, Exponential.exp_zero]

/-- A label that is neither what the units put out nor a single one of them. -/
noncomputable def blend : Instance ℝ := ⟨some (.ofList [1]), some (some (.ofList [1 / 4, 3 / 4]))⟩

theorem softmax_deltas_are_slopes_tilted :
    tilted.WellFormed ∧ tilted.outputLayer = some 1 ∧ KeepsCount tilted.transformer ∧
      (tilted.activationAt 1).isSoftmax = true ∧ tilted.cost = .categoricalCrossEntropy ∧
      tilted.regularizationWeight = 0 ∧ ChainRule ℝ ∧
      tilted.checkInstance blend = .ok (.ofList [1], some [1 / 4, 3 / 4]) ∧
      ([1 / 4, 3 / 4] : List ℝ).sum = 1 ∧
      ∃ updates after layer, trainByInstance blend 1 tilted = .ok updates after ∧
        after.arena.bind (·[1]?) = some layer ∧
        outputsOf layer = [3 / 4, 1 / 4] ∧ (∀ n ∈ layer, Inside n.output) ∧
        ∃ n, layer[0]? = some n ∧ n.delta = 1 / 2 ∧
          MovesCost [Real.log 3, 0] [1 / 4, 3 / 4] 0 after.trainingError (1 / 2) := by
  have hcheck : tilted.checkInstance blend = .ok (.ofList [1], some [1 / 4, 3 / 4]) := rfl
  have hsum : ([1 / 4, 3 / 4] : List ℝ).sum = 1 := by norm_num
  have htransformer : KeepsCount tilted.transformer := fun _ => rfl
  obtain ⟨updates, after, arena, front, layer, hrun, harena, -, hlayer, hfront, -, hsoftmax,
      hall⟩ :=
    softmax_deltas_are_slopes wellFormed_tilted rfl htransformer rfl rfl rfl chainRule_real hcheck
      hsum 1
  rw [hfront, rawOutputs_tilted] at hsoftmax hall
  have houtputs : outputsOf layer = [3 / 4, 1 / 4] :=
    Except.ok.inj (hsoftmax.symm.trans softmax_tilted)
  have hinside : ∀ n ∈ layer, Inside n.output := by
    intro n hn
    have hmem : n.output ∈ ([3 / 4, 1 / 4] : List ℝ) := houtputs ▸ List.mem_map_of_mem hn
    change (1e-6 : ℝ) < n.output ∧ n.output < 1 - 1e-6
    rcases List.mem_cons.mp hmem with h | h
    · rw [h]
      norm_num
    · rw [List.mem_singleton.mp h]
      norm_num
  obtain ⟨n, hn, hvalue⟩ : ∃ n, layer[0]? = some n ∧ n.output = 3 / 4 := by
    have hfirst := congrArg (·[0]?) houtputs
    exact Option.map_eq_some_iff.mp ((List.getElem?_map ..).symm.trans hfirst)
  obtain ⟨hdelta, hmoves, -⟩ := hall 0 n hn
  have hhalf : n.delta = 1 / 2 := by
    rw [hdelta, hvalue]
    change (3 / 4 - 1 / 4 : ℝ) = 1 / 2
    norm_num
  have hslope := hmoves hinside
  rw [hhalf] at hslope
  exact ⟨wellFormed_tilted, rfl, htransformer, rfl, rfl, rfl, chainRule_real, hcheck, hsum, updates,
    after, layer, hrun, by rw [harena]; exact hlayer, houtputs, hinside, n, hn, hhalf, hslope⟩

end Network

end FeedForward
