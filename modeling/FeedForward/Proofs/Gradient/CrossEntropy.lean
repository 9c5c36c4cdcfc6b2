import Mathlib.Algebra.Order.Field.Basic
import Mathlib.Data.Sign.Basic
import Mathlib.Order.Interval.Set.Basic
import Mathlib.Tactic.FieldSimp
import Mathlib.Tactic.Linarith
import Mathlib.Tactic.NormNum
import FeedForward.Proofs.Gradient.Backpropagation

/-!
# The cross entropy of sigmoid outputs

Clipping keeps both arguments of the cross entropy away from zero and one. Over an ordered field its
derivative therefore divides by no zero, stays below the inverse of the margin, and points from the
clipped target to the clipped actual value. Between the margins the derivative of the sigmoid takes
the denominators away, so that the delta of an output unit is its output less its label. Beyond the
margins the derivative does not move with its arguments, and no residual is claimed there.
-/

namespace FeedForward

/-- What passes ask of an ordered field beyond its operations and its order. Nothing is assumed of
it. -/
class BeyondField (R : Type) where
  exp : R → R
  log : R → R
  tanh : R → R
  sqrt : R → R
  infinity : R
  fraction : UInt32 → R
  centred : UInt32 → R
  text : R → String

variable {R : Type} [Field R] [LinearOrder R]

instance (priority := low) [BeyondField R] : BeyondRing R where
  le a b := decide (a ≤ b)
  exp := BeyondField.exp
  log := BeyondField.log
  tanh := BeyondField.tanh
  sqrt := BeyondField.sqrt
  infinity := BeyondField.infinity
  fraction := BeyondField.fraction
  centred := BeyondField.centred
  text := BeyondField.text

variable [IsStrictOrderedRing R]

/-! ## The slope between zero and one -/

section

variable {e p q : R}

omit [LinearOrder R] [IsStrictOrderedRing R] in
theorem slope_eq_quotient (hq : q ≠ 0) (hq' : 1 - q ≠ 0) :
    -p / q + (1 - p) / (1 - q) = (q - p) / (q * (1 - q)) := by
  field_simp
  ring

theorem abs_quotient_lt (he : 0 < e) (hp : p ∈ Set.Icc e (1 - e)) (hq : q ∈ Set.Icc e (1 - e)) :
    |(q - p) / (q * (1 - q))| < 1 / e := by
  obtain ⟨hpe, hpe'⟩ := hp
  obtain ⟨hqe, hqe'⟩ := hq
  have hlow : 0 < q := he.trans_le hqe
  have hhigh : 0 < 1 - q := by linarith
  have hproduct : 0 < q * (1 - q) := mul_pos hlow hhigh
  rw [abs_div, abs_of_pos hproduct, div_lt_div_iff₀ hproduct he, one_mul]
  -- The difference is less than the way from `q` to the end of the interval on the side of `p`.
  rcases le_total p q with h | h
  · rw [abs_of_nonneg (sub_nonneg.mpr h)]
    calc (q - p) * e < q * e := mul_lt_mul_of_pos_right (by linarith) he
      _ ≤ q * (1 - q) := mul_le_mul_of_nonneg_left (by linarith) hlow.le
  · rw [abs_of_nonpos (sub_nonpos.mpr h)]
    calc -(q - p) * e < (1 - q) * e := mul_lt_mul_of_pos_right (by linarith) he
      _ ≤ (1 - q) * q := mul_le_mul_of_nonneg_left hqe hhigh.le
      _ = q * (1 - q) := mul_comm _ _

theorem sign_quotient (hq : 0 < q) (hq' : 0 < 1 - q) :
    SignType.sign ((q - p) / (q * (1 - q))) = SignType.sign (q - p) := by
  rw [div_eq_mul_inv, sign_mul, sign_pos (inv_pos.mpr (mul_pos hq hq')), mul_one]

theorem slope_le_slope_of_actual {r : R} (hp : 0 < p) (hp' : 0 < 1 - p) (hq : 0 < q)
    (hr : 0 < 1 - r) (hqr : q ≤ r) :
    -p / q + (1 - p) / (1 - q) ≤ -p / r + (1 - p) / (1 - r) := by
  have hfirst : p / r ≤ p / q := div_le_div_of_nonneg_left hp.le hq hqr
  have hsecond : (1 - p) / (1 - q) ≤ (1 - p) / (1 - r) :=
    div_le_div_of_nonneg_left hp'.le hr (by linarith)
  rw [neg_div, neg_div]
  linarith

theorem slope_le_slope_of_target {r : R} (hq : 0 < q) (hq' : 0 < 1 - q) (hpr : p ≤ r) :
    -r / q + (1 - r) / (1 - q) ≤ -p / q + (1 - p) / (1 - q) :=
  add_le_add (div_le_div_of_nonneg_right (by linarith) hq.le)
    (div_le_div_of_nonneg_right (by linarith) hq'.le)

end

/-! ## Clipping -/

namespace Cost

variable [BeyondField R]

omit [IsStrictOrderedRing R] in
theorem clip_eq (x : R) : clip x = min (max x margin) (1 - margin) := by
  rw [clip, Scalar.minimum_eq_min fun _ _ => rfl, Scalar.maximum_eq_max fun _ _ => rfl]

/-- The margin to which costs clip. -/
theorem margin_eq : (margin : R) = 1 / 1000000 := by
  have hmillionth : (1e-6 : R) = 1 / 1000000 := by norm_num
  exact hmillionth

theorem margin_pos : 0 < (margin : R) := by
  rw [margin_eq]
  norm_num

theorem margin_le : (margin : R) ≤ 1 - margin := by
  rw [margin_eq]
  norm_num

theorem clip_mem (x : R) : clip x ∈ Set.Icc margin (1 - margin) := by
  rw [clip_eq]
  exact ⟨le_min (le_max_right x margin) margin_le, min_le_right _ _⟩

theorem clip_pos (x : R) : 0 < clip x := margin_pos.trans_le (clip_mem x).1

theorem one_sub_clip_pos (x : R) : 0 < 1 - clip x := by
  have hmargin : 0 < (margin : R) := margin_pos
  linarith [(clip_mem x).2]

omit [IsStrictOrderedRing R] in
theorem clip_of_mem {x : R} (hx : x ∈ Set.Icc margin (1 - margin)) : clip x = x := by
  rw [clip_eq, max_eq_left hx.1, min_eq_left hx.2]

omit [IsStrictOrderedRing R] in
theorem clip_mono : Monotone (clip : R → R) := by
  intro x y hxy
  rw [clip_eq, clip_eq]
  exact min_le_min_right _ (max_le_max_right _ hxy)

theorem clip_of_one_le {x : R} (hx : 1 ≤ x) : clip x = 1 - margin := by
  have hle : 1 - margin ≤ x := (sub_le_self 1 margin_pos.le).trans hx
  rw [clip_eq, max_eq_left (margin_le.trans hle), min_eq_right hle]

/-! ## The slope of the cost -/

/-- The derivative of the cross entropy as one quotient. -/
theorem slope_eq (t a : R) : crossEntropy.derivative t a =
    (clip a - clip t) / (clip a * (1 - clip a)) :=
  slope_eq_quotient (clip_pos a).ne' (one_sub_clip_pos a).ne'

theorem abs_slope_lt (t a : R) : |crossEntropy.derivative t a| < 1 / margin := by
  rw [slope_eq]
  exact abs_quotient_lt margin_pos (clip_mem t) (clip_mem a)

theorem sign_slope (t a : R) :
    SignType.sign (crossEntropy.derivative t a) = SignType.sign (clip a - clip t) := by
  rw [slope_eq]
  exact sign_quotient (clip_pos a) (one_sub_clip_pos a)

theorem slope_eq_zero_iff (t a : R) : crossEntropy.derivative t a = 0 ↔ clip a = clip t := by
  rw [← sign_eq_zero_iff, sign_slope, sign_eq_zero_iff, sub_eq_zero]

/-- Between the margins the sigmoid takes the denominators of the slope away. -/
theorem slope_mul_sigmoid {t a : R} (ht : t ∈ Set.Icc margin (1 - margin))
    (ha : a ∈ Set.Icc margin (1 - margin)) :
    crossEntropy.derivative t a * (a * (1 - a)) = a - t := by
  have hlow : 0 < clip a := clip_pos a
  have hhigh : 0 < 1 - clip a := one_sub_clip_pos a
  rw [clip_of_mem ha] at hlow hhigh
  rw [slope_eq, clip_of_mem ht, clip_of_mem ha]
  exact div_mul_cancel₀ _ (mul_pos hlow hhigh).ne'

theorem monotone_slope (t : R) : Monotone (crossEntropy.derivative t) := fun a b hab =>
  slope_le_slope_of_actual (clip_pos t) (one_sub_clip_pos t) (clip_pos a) (one_sub_clip_pos b)
    (clip_mono hab)

theorem antitone_slope (a : R) : Antitone (crossEntropy.derivative · a) := fun _ _ hts =>
  slope_le_slope_of_target (clip_pos a) (one_sub_clip_pos a) (clip_mono hts)

/-- Beyond the margin the slope does not move with its arguments. -/
theorem slope_flat (t a : R) :
    crossEntropy.derivative t 2 = crossEntropy.derivative t 3 ∧
      crossEntropy.derivative 2 a = crossEntropy.derivative 3 a := by
  have hclip : clip (2 : R) = clip 3 := by
    rw [clip_of_one_le (by norm_num), clip_of_one_le (by norm_num)]
  simp only [slope_eq, hclip, and_self]

end Cost

/-! ## The seeds of the deltas -/

namespace Network

variable [BeyondField R] {β : Type} [Add β] [Zero β] [Precision R β]

omit [IsStrictOrderedRing R] in
/-- Without regularisation a sigmoid output is seeded with the slope of its cost alone. -/
theorem seedDelta_sigmoid {net : Network R β} (hcost : net.cost = .crossEntropy)
    (hregular : net.regularizationWeight = 0) {weights : Tensor β} {rows columns i : Nat}
    (hshape : weights.shape = [rows, columns]) (hrow : i < rows) {labels : List R} {t : R}
    (hlabel : labels[i]? = some t) (n : Neuron R) :
    net.seedDelta .sigmoid weights labels.toArray i n =
      .ok () (n.withDelta ((Cost.crossEntropy : Cost R).derivative t n.output *
        (Activation.sigmoid : Activation R).derivative n.output)) := by
  obtain ⟨row, hslab⟩ := Tensor.exists_slab hshape hrow
  have hplain : (Activation.sigmoid : Activation R).isSoftmax = false := by
    simp [Activation.isSoftmax, Activation.sigmoid]
  simp only [seedDelta, Step.bind_run, Step.get_run, Step.lift_run,
    SynapseStream.unitAt_eq_ok hlabel, hslab, Neuron.backpropagate_run, hcost, hregular, zero_mul,
    add_zero, hplain, Bool.false_eq_true, if_false]

/-- The units of a sigmoid layer with the slopes of their costs for deltas. -/
def sloped (labels : List R) (layer : List (Neuron R)) : List (Neuron R) :=
  layer.mapIdx fun i n => n.withDelta ((Cost.crossEntropy : Cost R).derivative (labels.getD i 0)
    n.output * (Activation.sigmoid : Activation R).derivative n.output)

omit [IsStrictOrderedRing R] in
theorem seedDeltas_sigmoid {net : Network R β} (hcost : net.cost = .crossEntropy)
    (hregular : net.regularizationWeight = 0)
    (hactivation : net.activations.getLast? = some .sigmoid) {weights : Tensor β}
    (hweights : net.weights.getLast? = some weights) {rows columns last : Nat}
    (hshape : weights.shape = [rows, columns]) (houtput : net.outputLayer = some last)
    {arena : Arena R} {layer : List (Neuron R)} (hlayer : arena[last]? = some layer)
    (hrows : layer.length ≤ rows) {labels : List R} (hlabels : layer.length ≤ labels.length) :
    net.seedDeltas labels arena = .ok () (arena.set last (sloped labels layer)) := by
  have hvisit : Step.visit (net.seedDelta .sigmoid weights labels.toArray) layer.length 0 layer =
      .ok (layer.mapIdx fun _ _ => ()) (sloped labels layer) :=
    Step.visit_run layer fun i n hn => by
      obtain ⟨hlt, _⟩ := List.getElem?_eq_some_iff.mp hn
      have hlabel : labels[i]? = some (labels.getD i 0) := by
        rw [List.getD_eq_getElem?_getD, List.getElem?_eq_getElem (by omega), Option.getD_some]
      exact seedDelta_sigmoid hcost hregular hshape (by omega) hlabel n
  have hlayerRun : (do
      let layer ← get
      let _ ← Step.visit (net.seedDelta .sigmoid weights labels.toArray) layer.length 0 :
        Step (List (Neuron R)) Unit) layer = .ok () (sloped labels layer) := by
    simp only [Step.bind_run, Step.get_run, hvisit, Step.pure_run, sloped]
  rw [List.getLast?_eq_getElem?] at hactivation hweights
  simp only [seedDeltas, Step.bind_run, Step.lift_run, itemAt_eq_ok_iff.mpr hactivation,
    itemAt_eq_ok_iff.mpr hweights, houtput, Option.getD_some, Step.onItem_run hlayer hlayerRun]

/-- The derivative of the cross entropy, whose arguments are clipped to one millionth, divides by no
zero, is less than a million, points from the clipped target to the clipped actual value and
vanishes where they agree. It rises with the actual value and falls with the target, though not
strictly. Between the margins the derivative of the sigmoid turns it into the plain residual, which
is the delta that every unit of a sigmoid output layer is seeded with if nothing is regularised. -/
theorem crossEntropy_seeds_residuals :
    (Cost.margin : R) = 1 / 1000000 ∧
    (∀ x : R, Cost.clip x = min (max x Cost.margin) (1 - Cost.margin)) ∧
    (∀ t a : R,
      Cost.crossEntropy.derivative t a =
        -Cost.clip t / Cost.clip a + (1 - Cost.clip t) / (1 - Cost.clip a) ∧
      Cost.clip a ≠ 0 ∧ 1 - Cost.clip a ≠ 0 ∧
      |Cost.crossEntropy.derivative t a| < 1 / Cost.margin ∧
      SignType.sign (Cost.crossEntropy.derivative t a) =
        SignType.sign (Cost.clip a - Cost.clip t) ∧
      (Cost.crossEntropy.derivative t a = 0 ↔ Cost.clip a = Cost.clip t)) ∧
    (∀ t : R, Monotone (Cost.crossEntropy.derivative t) ∧
      ¬ StrictMono (Cost.crossEntropy.derivative t)) ∧
    (∀ a : R, Antitone (Cost.crossEntropy.derivative · a) ∧
      ¬ StrictAnti (Cost.crossEntropy.derivative · a)) ∧
    (∀ t ∈ Set.Icc (Cost.margin : R) (1 - Cost.margin),
      ∀ a ∈ Set.Icc (Cost.margin : R) (1 - Cost.margin),
        Cost.crossEntropy.derivative t a * (a * (1 - a)) = a - t) ∧
    ∀ (net : Network R β) (last : Nat) (weights : Tensor β) (columns : Nat) (arena : Arena R)
      (layer : List (Neuron R)) (labels : List R),
      net.cost = .crossEntropy → net.regularizationWeight = 0 →
      net.activations.getLast? = some .sigmoid → net.weights.getLast? = some weights →
      weights.shape = [layer.length, columns] → net.outputLayer = some last →
      arena[last]? = some layer → labels.length = layer.length →
      ∃ seeds, net.seedDeltas labels arena = .ok () (arena.set last seeds) ∧
        ∀ (i : Nat) (t : R) (n : Neuron R), labels[i]? = some t → layer[i]? = some n →
          t ∈ Set.Icc Cost.margin (1 - Cost.margin) →
          n.output ∈ Set.Icc Cost.margin (1 - Cost.margin) →
          seeds[i]? = some (n.withDelta (n.output - t)) := by
  refine ⟨Cost.margin_eq, Cost.clip_eq, fun t a => ⟨rfl, (Cost.clip_pos a).ne',
      (Cost.one_sub_clip_pos a).ne', Cost.abs_slope_lt t a, Cost.sign_slope t a,
      Cost.slope_eq_zero_iff t a⟩,
    fun t => ⟨Cost.monotone_slope t, fun hstrict => ?_⟩,
    fun a => ⟨Cost.antitone_slope a, fun hstrict => ?_⟩,
    fun t ht a ha => Cost.slope_mul_sigmoid ht ha,
    fun net last weights columns arena layer labels hcost hregular hactivation hweights hshape
      houtput hlayer hlabels => ⟨sloped labels layer, ?_, fun i t n ht hn htmem hnmem => ?_⟩⟩
  · have hless := hstrict (show (2 : R) < 3 by norm_num)
    exact hless.ne (Cost.slope_flat t 0).1
  · have hless := hstrict (show (2 : R) < 3 by norm_num)
    exact hless.ne' (Cost.slope_flat 0 a).2
  · exact seedDeltas_sigmoid hcost hregular hactivation hweights hshape houtput hlayer le_rfl
      hlabels.ge
  · have hlabel : labels.getD i 0 = t := by
      rw [List.getD_eq_getElem?_getD, ht, Option.getD_some]
    have hslope : Cost.crossEntropy.derivative t n.output *
        (Activation.sigmoid : Activation R).derivative n.output = n.output - t :=
      Cost.slope_mul_sigmoid htmem hnmem
    rw [sloped, List.getElem?_mapIdx, hn, Option.map_some, hlabel, hslope]

/-- Rational numbers, of which the cost asks nothing beyond the field. -/
instance : BeyondField ℚ where
  exp := id
  log := id
  tanh := id
  sqrt := id
  infinity := 0
  fraction _ := 0
  centred _ := 0
  text _ := ""

/-- Three layers whose output is a sigmoid held to the cross entropy. -/
def sigmoidLadder : Network ℚ ℚ :=
  { ladder 0 with cost := .crossEntropy, activations := [.identity, .sigmoid] }

/-- A unit that has put out three quarters. -/
def threeQuarters : Neuron ℚ :=
  { Neuron.create (some .standard) 0 2 .sigmoid 1 0 false with output := 3 / 4 }

theorem crossEntropy_seeds_residuals_quarter :
    let net := sigmoidLadder
    let arena := [[], [], [threeQuarters]]
    net.cost = .crossEntropy ∧ net.regularizationWeight = 0 ∧
      net.activations.getLast? = some .sigmoid ∧ net.outputLayer = some 2 ∧
      ∃ seeds, net.seedDeltas [1 / 4] arena = .ok () (arena.set 2 seeds) ∧
        seeds[0]? = some (threeQuarters.withDelta (3 / 4 - 1 / 4)) := by
  intro net arena
  obtain ⟨seeds, hseeds, hdelta⟩ := crossEntropy_seeds_residuals.2.2.2.2.2.2 net 2
    ⟨[1, 2], #[1, 1 + 1], rfl⟩ 2 arena [threeQuarters] [1 / 4] rfl rfl rfl rfl rfl rfl rfl rfl
  refine ⟨rfl, rfl, rfl, rfl, seeds, hseeds, hdelta 0 (1 / 4) threeQuarters rfl rfl ?_ ?_⟩
  · rw [Cost.margin_eq]
    exact ⟨by norm_num, by norm_num⟩
  · rw [Cost.margin_eq]
    exact ⟨by norm_num [threeQuarters], by norm_num [threeQuarters]⟩

end Network

end FeedForward
