import Mathlib.Algebra.Order.BigOperators.Group.List
import Mathlib.Algebra.Order.Field.Basic
import Mathlib.Analysis.SpecialFunctions.Log.Basic
import FeedForward.Proofs.Gradient.Exact

/-!
# Softmax layers are distributions

Over an ordered field with an exponential function, softmax gives positive shares that add up to
one, ordered as the numbers that they are shares of, and the shift by the greatest number cancels.
In a network these are the outputs of the units with incoming weights behind a softmax boundary, be
it the last one or not; a bias unit in front of them puts out one and has no share. Nothing is said
about how far rounded shares are from these.
-/

namespace FeedForward

/-- An ordered field with an exponential function. What passes ask of numbers beyond that is
arbitrary. -/
class Exponential (R : Type) [Field R] [LinearOrder R] where
  exp : R → R
  exp_pos : ∀ x, 0 < exp x
  exp_zero : exp 0 = 1
  exp_strictMono : StrictMono exp
  exp_sub_mul : ∀ x y, exp (x - y) * exp y = exp x
  log : R → R
  tanh : R → R
  sqrt : R → R
  infinity : R
  fraction : UInt32 → R
  centred : UInt32 → R
  text : R → String

open Exponential (exp exp_pos exp_zero exp_strictMono exp_sub_mul)

variable {R : Type} [Field R] [LinearOrder R] [Exponential R]

instance (priority := low) : BeyondRing R where
  le a b := decide (a ≤ b)
  exp := exp
  log := Exponential.log
  tanh := Exponential.tanh
  sqrt := Exponential.sqrt
  infinity := Exponential.infinity
  fraction := Exponential.fraction
  centred := Exponential.centred
  text := Exponential.text

/-! ## Shares -/

theorem Scalar.maximum_eq (a b : R) : Scalar.maximum a b = max a b :=
  maximum_eq_max (fun _ _ => rfl) a b

theorem greatest?_eq (zs : List R) : greatest? zs = zs.max? := by
  cases zs with
  | nil => rfl
  | cons z zs =>
      rw [greatest?, List.max?_cons']
      congr
      funext a b
      exact Scalar.maximum_eq a b

/-- What softmax divides by. -/
def divisor (zs : List R) (top : R) : R := blockedSum (zs.map fun z => Scalar.exp (z - top))

theorem softmax_eq_divided (z : R) (zs : List R) : ∃ top, (top ∈ z :: zs ∧ ∀ y ∈ z :: zs, y ≤ top) ∧
    softmax (z :: zs) = .ok ((z :: zs).map fun y => exp (y - top) / divisor (z :: zs) top) := by
  obtain ⟨top, htop⟩ : ∃ top, (z :: zs).max? = some top := ⟨_, List.max?_cons'⟩
  refine ⟨top, List.max?_eq_some_iff.mp htop, ?_⟩
  rw [softmax, greatest?_eq, htop]
  simp only [List.map_map]
  rfl

variable [IsStrictOrderedRing R]

theorem one_le_divisor {zs : List R} {top : R} (htop : top ∈ zs) : 1 ≤ divisor zs top := by
  have hone : (1 : R) ∈ zs.map fun z => exp (z - top) :=
    List.mem_map.mpr ⟨top, htop, by rw [sub_self, exp_zero]⟩
  have hnonneg : ∀ x ∈ zs.map fun z => exp (z - top), 0 ≤ x := by
    intro x hx
    obtain ⟨z, -, rfl⟩ := List.mem_map.mp hx
    exact (exp_pos _).le
  rw [divisor, blockedSum_eq]
  exact List.single_le_sum hnonneg 1 hone

/-- The sum of the exponentials of some numbers. -/
def mass (zs : List R) : R := (zs.map exp).sum

theorem mass_pos {zs : List R} (hzs : zs ≠ []) : 0 < mass zs := by
  refine List.sum_pos _ (fun x hx => ?_) (by simpa using hzs)
  obtain ⟨z, -, rfl⟩ := List.mem_map.mp hx
  exact exp_pos z

omit [IsStrictOrderedRing R] in
/-- Shifting numbers scales the sum of their exponentials. -/
theorem divisor_mul_exp (zs : List R) (top : R) : divisor zs top * exp top = mass zs := by
  rw [divisor, blockedSum_eq, ← List.sum_map_mul_right, mass]
  exact congrArg List.sum (List.map_congr_left fun z _ => exp_sub_mul z top)

omit [IsStrictOrderedRing R] in
/-- The shift by the greatest number cancels. -/
theorem softmax_eq {zs : List R} (hzs : zs ≠ []) :
    softmax zs = .ok (zs.map fun z => exp z / mass zs) := by
  cases zs with
  | nil => exact absurd rfl hzs
  | cons z zs =>
      obtain ⟨top, -, hsoftmax⟩ := softmax_eq_divided z zs
      rw [hsoftmax]
      refine congrArg _ (List.map_congr_left fun y _ => ?_)
      rw [← exp_sub_mul y top, ← divisor_mul_exp _ top,
        mul_div_mul_right _ _ (exp_pos top).ne']

omit [IsStrictOrderedRing R] in
theorem exp_add (x c : R) : exp (x + c) = exp x * exp c := by
  rw [← exp_sub_mul (x + c) c, add_sub_cancel_right]

omit [IsStrictOrderedRing R] in
/-- Adding a constant to all numbers changes nothing. -/
theorem softmax_shift {zs : List R} (hzs : zs ≠ []) (c : R) :
    softmax (zs.map (· + c)) = softmax zs := by
  have hmass : mass (zs.map (· + c)) = mass zs * exp c := by
    rw [mass, mass, List.map_map, ← List.sum_map_mul_right]
    exact congrArg List.sum (List.map_congr_left fun z _ => exp_add z c)
  rw [softmax_eq (by simpa using hzs), softmax_eq hzs, List.map_map, hmass]
  refine congrArg _ (List.map_congr_left fun z _ => ?_)
  change exp (z + c) / (mass zs * exp c) = _
  rw [exp_add, mul_div_mul_right _ _ (exp_pos c).ne']

/-- Numbers that are the distribution of raw ones. -/
structure IsDistribution (raw ys : List R) : Prop where
  quotient : ys = raw.map fun z => exp z / (raw.map exp).sum
  pos : ∀ y ∈ ys, 0 < y
  le_one : ∀ y ∈ ys, y ≤ 1
  sum_eq : ys.sum = 1
  lt_iff : ∀ (i j : Nat) (y y' z z' : R), raw[i]? = some z → raw[j]? = some z' →
    ys[i]? = some y → ys[j]? = some y' → (y < y' ↔ z < z')
  shift : ∀ c, softmax (raw.map (· + c)) = .ok ys

theorem isDistribution_softmax {raw : List R} (hraw : raw ≠ []) :
    ∃ ys, softmax raw = .ok ys ∧ IsDistribution raw ys := by
  have hmass := mass_pos hraw
  have hpos : ∀ y ∈ raw.map fun z => exp z / mass raw, 0 < y := by
    intro y hy
    obtain ⟨z, -, rfl⟩ := List.mem_map.mp hy
    exact div_pos (exp_pos z) hmass
  have hsum : (raw.map fun z => exp z / mass raw).sum = 1 := by
    simp only [div_eq_mul_inv]
    rw [List.sum_map_mul_right]
    exact mul_inv_cancel₀ hmass.ne'
  refine ⟨_, softmax_eq hraw, rfl, hpos, fun y hy => ?_, hsum, ?_, fun c => ?_⟩
  · exact (List.single_le_sum (fun x hx => (hpos x hx).le) y hy).trans_eq hsum
  · intro i j y y' z z' hz hz' hy hy'
    rw [List.getElem?_map, hz] at hy
    rw [List.getElem?_map, hz'] at hy'
    cases hy
    cases hy'
    rw [div_lt_div_iff_of_pos_right hmass, exp_strictMono.lt_iff_lt]
  · rw [softmax_shift hraw, softmax_eq hraw]

namespace Network

variable {β : Type} [Precision R β]

section

variable (net : Network R β)

/-- What the rows of a boundary make of the outputs in front. -/
def rawOutputs (boundary : Nat) (front : List R) : List R :=
  (List.range (net.fedWidth (boundary + 1))).map (net.rowOutput boundary front)

/-- The units with incoming weights behind a boundary put out the distribution of what their rows
make of the outputs in front. A bias unit puts out one and has no share. -/
def Distributes (boundary : Nat) (arena : Arena R) : Prop :=
  ∃ ys, IsDistribution (net.rawOutputs boundary (outputsOf (arena.getD boundary []))) ys ∧
    outputsOf (arena.getD (boundary + 1) []) =
      if net.isOutput (boundary + 1) then ys else 1 :: ys

end

section

variable {net : Network R β} (hnet : net.WellFormed) {boundary : Nat}
  (hboundary : boundary + 1 < net.sizes.length)

include hnet hboundary

theorem layerOutputs_distributed (hsoftmax : (net.activationAt (boundary + 1)).isSoftmax = true)
    (front : List R) : ∃ ys, IsDistribution (net.rawOutputs boundary front) ys ∧
      net.layerOutputs boundary front = if net.isOutput (boundary + 1) then ys else 1 :: ys := by
  have hraw : net.rawOutputs boundary front ≠ [] := by
    have hpositive := hnet.fedWidth_pos hboundary
    simp only [rawOutputs, ne_eq, List.map_eq_nil_iff, List.range_eq_nil]
    omega
  obtain ⟨ys, hys, hdistribution⟩ := isDistribution_softmax hraw
  have hshares : shares (net.rawOutputs boundary front) = ys := by rw [shares, hys]
  refine ⟨ys, hdistribution, ?_⟩
  rw [layerOutputs, if_pos hsoftmax, ← rawOutputs, hshares]

/-- A boundary whose activation is softmax, whatever the neurons hold. -/
theorem forwardBoundary_distributes
    (hsoftmax : (net.activationAt (boundary + 1)).isSoftmax = true) {arena : Arena R}
    (hfits : net.Fits arena) : ∃ after, net.forwardBoundary boundary arena = .ok () after ∧
      net.Distributes boundary after ∧ ∀ k, k ≠ boundary + 1 → after[k]? = arena[k]? := by
  obtain ⟨front, hfront, hfrontLength⟩ := hfits.exists_layer (k := boundary) (by omega)
  obtain ⟨layer, hlayer, hlength⟩ := hfits.exists_layer hboundary
  obtain ⟨ys, hdistribution, houtputs⟩ :=
    layerOutputs_distributed hnet hboundary hsoftmax (outputsOf front)
  have hset : (net.layerOutputs boundary (outputsOf front)).length = layer.length := by
    rw [length_layerOutputs hnet hboundary, hlength]
  refine ⟨_, forwardBoundary_set hnet hboundary hfront hfrontLength hlayer hlength
    fun i n => hfits.stands (boundary + 1) layer i n hlayer, ⟨ys, ?_, ?_⟩, fun k hk => ?_⟩
  · rw [List.getD_eq_getElem?_getD, List.getElem?_set_ne (by omega), hfront, Option.getD_some]
    exact hdistribution
  · obtain ⟨hlt, -⟩ := List.getElem?_eq_some_iff.mp hlayer
    rw [List.getD_eq_getElem?_getD, List.getElem?_set_self hlt, Option.getD_some,
      outputsOf_setOutputs hset, houtputs]
  · rw [List.getElem?_set_ne (Ne.symm hk)]

theorem distributes_settled (hsoftmax : (net.activationAt (boundary + 1)).isSoftmax = true)
    {inputs : List R} (hinputs : inputs.length = net.width 0) :
    net.Distributes boundary (net.settled inputs (markInputs net.drawn.1 net.units)) := by
  have hactivity {k : Nat} (hk : k < net.sizes.length) :=
    outputsOf_getD_settled hnet (show 0 < net.sizes.length by omega) hinputs hk
  obtain ⟨ys, hdistribution, houtputs⟩ :=
    layerOutputs_distributed hnet hboundary hsoftmax (net.activity inputs boundary)
  refine ⟨ys, ?_, ?_⟩
  · rwa [hactivity (by omega)]
  · rw [hactivity hboundary, activity, houtputs]

omit hnet hboundary [IsStrictOrderedRing R] in
/-- The built-in softmax takes the weighted sums as they are, unless rows take the strongest of
their inputs. -/
theorem getElem?_rawOutputs (hsoftmax : net.activationAt (boundary + 1) = .softmaxPart)
    (hrule : net.ruleAt (boundary + 1) ≠ .max) (front : List R) {row : Nat}
    (hrow : row < net.fedWidth (boundary + 1)) :
    (net.rawOutputs boundary front)[row]? = some
      (∑ i ∈ Finset.range front.length, front.getD i 0 * net.weight boundary row i) := by
  rw [rawOutputs, List.getElem?_map, List.getElem?_range hrow, Option.map_some,
    rowOutput_eq hrule, hsoftmax]
  rfl

end

/-- On a complete network the units with incoming weights behind every softmax boundary put out a
distribution of what their rows make of the outputs in front, in one step from whatever the neurons
hold and at the end of a whole pass, and a bias unit in front of them puts out one. Behind the
built-in softmax the rows hand over their weighted sums. What softmax divides by is at least one,
since the greatest number is among those that are divided. -/
theorem softmax_layers_distribute {net : Network R β} (hnet : net.WellFormed) {last : Nat}
    (houtput : net.outputLayer = some last) :
    (∀ (boundary : Nat) (f : Activation R), net.activations[boundary]? = some f →
      f.isSoftmax = true → ∀ arena : Arena R, net.Fits arena →
      ∃ after, net.forwardBoundary boundary arena = .ok () after ∧
        net.Distributes boundary after ∧ ∀ k, k ≠ boundary + 1 → after[k]? = arena[k]?) ∧
    (∀ values : List R, values.length = net.width 0 → ∃ outputs after arena,
      forward values net = .ok outputs after ∧ after.arena = some arena ∧
        outputs = outputsOf (arena.getD last []) ∧
        ∀ (boundary : Nat) (f : Activation R), net.activations[boundary]? = some f →
          f.isSoftmax = true → net.Distributes boundary arena) ∧
    (∀ (boundary row : Nat) (front : List R), net.activations[boundary]? = some .softmaxPart →
      net.ruleAt (boundary + 1) ≠ .max → row < net.fedWidth (boundary + 1) →
      (net.rawOutputs boundary front)[row]? = some
        (∑ i ∈ Finset.range front.length, front.getD i 0 * net.weight boundary row i)) ∧
    ∀ (z : R) (zs : List R), ∃ top, (top ∈ z :: zs ∧ ∀ y ∈ z :: zs, y ≤ top) ∧
      softmax (z :: zs) = .ok ((z :: zs).map fun y => exp (y - top) / divisor (z :: zs) top) ∧
      1 ≤ divisor (z :: zs) top := by
  obtain ⟨hlast, -⟩ := hnet.output_last last houtput
  have hplace {boundary : Nat} {f : Activation R} (hf : net.activations[boundary]? = some f) :
      boundary + 1 < net.sizes.length ∧ net.activationAt (boundary + 1) = f := by
    obtain ⟨hlt, -⟩ := List.getElem?_eq_some_iff.mp hf
    have hlength := hnet.activations_length
    refine ⟨by omega, ?_⟩
    rw [activationAt, List.getD_eq_getElem?_getD, hf, Option.getD_some]
  refine ⟨fun boundary f hf hsoftmax arena hfits => ?_, fun values hvalues => ?_,
    fun boundary row front hf hrule hrow => getElem?_rawOutputs (hplace hf).2 hrule front hrow,
    fun z zs => ?_⟩
  · obtain ⟨hboundary, rfl⟩ := hplace hf
    exact forwardBoundary_distributes hnet hboundary hsoftmax hfits
  · have hinputs := length_masked_drawn hnet (show 0 < net.sizes.length by omega) hvalues
    refine ⟨_, _, _, forward_eq hnet houtput hvalues, rfl, ?_, fun boundary f hf hsoftmax => ?_⟩
    · rw [outputsOf_getD_settled hnet (by omega) hinputs (by omega)]
    · obtain ⟨hboundary, rfl⟩ := hplace hf
      exact distributes_settled hnet hboundary hsoftmax hinputs
  · obtain ⟨top, htop, hsoftmax⟩ := softmax_eq_divided z zs
    exact ⟨top, htop, hsoftmax, one_le_divisor htop.1⟩

end Network

/-! ## An example over the real numbers -/

noncomputable instance : Exponential ℝ where
  exp := Real.exp
  exp_pos := Real.exp_pos
  exp_zero := Real.exp_zero
  exp_strictMono := Real.exp_strictMono
  exp_sub_mul x y := by rw [← Real.exp_add, sub_add_cancel]
  log := Real.log
  tanh := Real.tanh
  sqrt := Real.sqrt
  infinity := 0
  fraction bits := bits.toNat / 2 ^ 32
  centred bits := (bits >>> 8).toNat / 2 ^ 24 - 1 / 2
  text _ := ""

namespace Network

/-- Two layers behind each other that are normalised, the first of them with a bias unit. -/
def cascade {S : Type} [CommRing S] [BeyondRing S] : Network S S where
  learningRate := 1
  momentumWeight := 0
  regularizationWeight := 0
  cost := .crossEntropy
  style := .supervised
  method := TrainingMethod.gradientDescent.name
  transformer := .identity
  dropRate := 0
  training := false
  trainingError := 0
  sizes := [2, 3, 2]
  weights := [⟨[2, 2], #[1, -1, 0, 1], rfl⟩, ⟨[2, 3], #[1, 0, -1, 1, 1, 0], rfl⟩]
  previous := [.fill [2, 2] 0, .fill [2, 3] 0]
  activations := [.softmaxPart, .softmaxPart]
  rules := [.standard, .max]
  outputLayer := some 2
  source := ⟨0⟩
  arena := none

theorem wellFormed_cascade : (cascade : Network ℝ ℝ).WellFormed where
  weights_length := rfl
  previous_length := rfl
  activations_length := rfl
  rules_length := rfl
  weights_shape := by
    rintro (_ | _ | k) matrix hmatrix <;> cases hmatrix <;> rfl
  previous_shape := by
    rintro (_ | _ | k) matrix hmatrix <;> cases hmatrix <;> rfl
  output_last := by
    rintro layer hlayer
    cases hlayer
    exact ⟨rfl, Nat.le_add_left 1 1⟩
  size_least := by
    rintro (_ | _ | _ | k) size hsize <;> cases hsize <;> decide
  dropRate_unit := ⟨decide_eq_true le_rfl, decide_eq_true zero_le_one⟩
  arena_complete := fun h => Bool.noConfusion h
  arena_fits := by
    rintro arena harena
    cases harena

theorem softmax_layers_distribute_cascade :
    let net : Network ℝ ℝ := cascade
    net.WellFormed ∧ net.outputLayer = some 2 ∧
      (∃ after, net.forwardBoundary 0 net.units = .ok () after ∧ net.Distributes 0 after) ∧
      (∃ outputs after arena, forward [1, 3] net = .ok outputs after ∧
        after.arena = some arena ∧ net.Distributes 0 arena ∧ net.Distributes 1 arena) ∧
      ∃ top : ℝ, 1 ≤ divisor [1, 3] top := by
  intro net
  have hnet : net.WellFormed := wellFormed_cascade
  obtain ⟨hboundary, hpass, -, hdivisor⟩ := softmax_layers_distribute hnet rfl
  obtain ⟨after, hafter, hfirst, -⟩ := hboundary 0 .softmaxPart rfl rfl net.units hnet.fits_units
  obtain ⟨outputs, passed, arena, hrun, harena, -, hall⟩ := hpass [1, 3] rfl
  obtain ⟨top, -, -, hone⟩ := hdivisor 1 [3]
  exact ⟨hnet, rfl, ⟨after, hafter, hfirst⟩, ⟨outputs, passed, arena, hrun, harena,
    hall 0 .softmaxPart rfl rfl, hall 1 .softmaxPart rfl rfl⟩, top, hone⟩

end Network

end FeedForward
