import FeedForward.Network.Training
import FeedForward.Proofs.Network.Neurons
import FeedForward.Proofs.Synapse

/-!
# Dense layers

The outputs of a layer as one expression in those of the layer in front: no messages, no neurons,
and nothing that an earlier pass has left behind. The order of all operations is the order in which
the neurons carry them out, so the expression stands for the same rounded numbers. That the neurons
compute it is proved layer by layer, for all they may hold before.
-/

namespace FeedForward.Network

variable {α β : Type} [Scalar α]

/-- The shares of some numbers in softmax; no numbers have no shares. -/
def shares (zs : List α) : List α :=
  match softmax zs with
  | .ok shares => shares
  | .error _ => []

section

variable [Precision α β] (net : Network α β)

/-- The weight that leads from a unit in front of a boundary into a row behind it. -/
def weight (boundary row column : Nat) : α :=
  match net.weights[boundary]? with
  | some weights => weights.scalarAt row column
  | none => 0

/-- What the row of a boundary makes of the outputs in front: the sum from left to right, or the
strongest of the weighted outputs, and the activation of that. -/
def rowOutput (boundary : Nat) (outputs : List α) (row : Nat) : α :=
  let weighted := outputs.mapIdx fun i x => x * net.weight boundary row i
  (net.activationAt (boundary + 1)).apply <| match net.ruleAt (boundary + 1) with
    | .max => Neuron.strongest weighted
    | .standard | .annealing => sumOnto 0 weighted

/-- The outputs of the layer behind a boundary: those of its rows, normalised together where the
activation says so, behind the one of a bias unit. -/
def layerOutputs (boundary : Nat) (outputs : List α) : List α :=
  let raw := (List.range (net.fedWidth (boundary + 1))).map (net.rowOutput boundary outputs)
  let settled := if (net.activationAt (boundary + 1)).isSoftmax then shares raw else raw
  if net.isOutput (boundary + 1) then settled else 1 :: settled

/-- The outputs of every layer, given those of the input layer. -/
def activity (inputs : List α) : Nat → List α
  | 0 => inputs
  | boundary + 1 => net.layerOutputs boundary (activity inputs boundary)

end

/-! ## Lengths -/

theorem softmax_eq_ok {zs : List α} (hzs : zs ≠ []) :
    softmax zs = .ok (shares zs) ∧ (shares zs).length = zs.length := by
  cases zs with
  | nil => exact absurd rfl hzs
  | cons z zs => exact ⟨rfl, by simp [shares, softmax, greatest?]⟩

section

variable [Precision α β] {net : Network α β} (hnet : net.WellFormed)

include hnet

theorem length_layerOutputs {boundary : Nat} (hboundary : boundary + 1 < net.sizes.length)
    (outputs : List α) :
    (net.layerOutputs boundary outputs).length = net.width (boundary + 1) := by
  have hpositive := hnet.fedWidth_pos hboundary
  have hwidth := hnet.fedWidth_add_biasUnits hboundary
  have hraw : (List.range (net.fedWidth (boundary + 1))).map (net.rowOutput boundary outputs) ≠
      [] := by
    simp only [ne_eq, List.map_eq_nil_iff, List.range_eq_nil]
    omega
  have hsettled := (softmax_eq_ok hraw).2
  rw [List.length_map, List.length_range] at hsettled
  rw [← hwidth, layerOutputs, biasUnits]
  cases net.isOutput (boundary + 1) <;> cases (net.activationAt (boundary + 1)).isSoftmax <;>
    simp [hsettled]

theorem length_activity {inputs : List α} (hinputs : inputs.length = net.width 0) {k : Nat}
    (hk : k < net.sizes.length) : (net.activity inputs k).length = net.width k := by
  cases k with
  | zero => exact hinputs
  | succ boundary => exact length_layerOutputs hnet hk _

end

/-! ## Items changed together -/

section

variable {σ τ κ : Type} {items : List σ}

theorem map_mapIdx (view : τ → κ) (f : Nat → σ → τ) (items : List σ) :
    (items.mapIdx f).map view = items.mapIdx fun i item => view (f i item) := by
  refine (List.mapIdx_eq_iff.mpr fun i => ?_).symm
  rw [List.getElem?_map, List.getElem?_mapIdx, Option.map_map]
  rfl

/-- A view of items that does not depend on what they are changed with. -/
theorem map_zipWith_of_left {f : σ → τ → σ} {view : σ → κ} {others : List τ}
    (hview : ∀ item other, view (f item other) = view item)
    (hlength : others.length = items.length) :
    (List.zipWith f items others).map view = items.map view := by
  induction items generalizing others with
  | nil => rfl
  | cons item items ih =>
      cases others with
      | nil => simp at hlength
      | cons other others =>
          rw [List.zipWith_cons_cons, List.map_cons, List.map_cons, hview,
            ih (by simpa using hlength)]

/-- A view of items that depends only on what they are changed with. -/
theorem map_zipWith_of_right {f : σ → τ → σ} {view : σ → κ} {value : τ → κ} {others : List τ}
    (hview : ∀ item other, view (f item other) = value other)
    (hlength : others.length = items.length) :
    (List.zipWith f items others).map view = others.map value := by
  induction items generalizing others with
  | nil =>
      rw [List.length_nil, List.length_eq_zero_iff] at hlength
      rw [hlength]
      rfl
  | cons item items ih =>
      cases others with
      | nil => simp at hlength
      | cons other others =>
          rw [List.zipWith_cons_cons, List.map_cons, List.map_cons, hview,
            ih (by simpa using hlength)]

/-- Two ways to change items that differ at one place only. -/
theorem set_mapIdx {f g : Nat → σ → σ} {i : Nat} {item after : σ} (hitem : items[i]? = some item)
    (hafter : g i item = after) (hothers : ∀ k, k ≠ i → f k = g k) :
    (items.mapIdx f).set i after = items.mapIdx g := by
  apply List.ext_getElem?
  intro k
  rw [List.getElem?_set, List.length_mapIdx, List.getElem?_mapIdx, List.getElem?_mapIdx]
  by_cases hk : i = k
  · subst hk
    obtain ⟨hlt, _⟩ := List.getElem?_eq_some_iff.mp hitem
    rw [if_pos rfl, if_pos hlt, hitem, Option.map_some, hafter]
  · rw [if_neg hk, hothers k (Ne.symm hk)]

end

/-! ## Layers of neurons -/

/-- The neurons of a layer with other outputs. -/
def setOutputs (layer : List (Neuron α)) (outputs : List α) : List (Neuron α) :=
  List.zipWith Neuron.withOutput layer outputs

section

variable {layer : List (Neuron α)} {outputs : List α} (hlength : outputs.length = layer.length)

include hlength

omit [Scalar α] in
theorem length_setOutputs : (setOutputs layer outputs).length = layer.length := by
  rw [setOutputs, List.length_zipWith, hlength, Nat.min_self]

omit [Scalar α] in
theorem outputsOf_setOutputs : outputsOf (setOutputs layer outputs) = outputs := by
  have hmap : (List.zipWith Neuron.withOutput layer outputs).map Neuron.output = outputs.map id :=
    map_zipWith_of_right (fun _ _ => rfl) hlength
  exact hmap.trans (List.map_id outputs)

theorem fresh_setOutputs : (setOutputs layer outputs).map Neuron.fresh = layer.map Neuron.fresh :=
  map_zipWith_of_left (fun _ _ => rfl) hlength

omit [Scalar α] in
theorem dropped_setOutputs :
    (setOutputs layer outputs).map Neuron.dropped = layer.map Neuron.dropped :=
  map_zipWith_of_left (fun _ _ => rfl) hlength

end

omit [Scalar α] in
theorem setOutputs_setOutputs {layer : List (Neuron α)} {outputs others : List α}
    (hlength : outputs.length = layer.length) :
    setOutputs (setOutputs layer outputs) others = setOutputs layer others := by
  induction layer generalizing outputs others with
  | nil => rfl
  | cons n layer ih =>
      cases outputs with
      | nil => simp at hlength
      | cons x outputs =>
          cases others with
          | nil => rfl
          | cons y others =>
              have hrest : outputs.length = layer.length := by simpa using hlength
              rw [setOutputs, setOutputs, List.zipWith_cons_cons, List.zipWith_cons_cons,
                ← setOutputs, ← setOutputs, ih hrest]
              rfl

omit [Scalar α] in
/-- Outputs that are set one by one. -/
theorem mapIdx_withOutput {layer : List (Neuron α)} {outputs : List α} {output : Nat → α}
    (houtputs : ∀ i < layer.length, outputs[i]? = some (output i)) :
    layer.mapIdx (fun i n => n.withOutput (output i)) = setOutputs layer outputs := by
  apply List.ext_getElem?
  intro i
  rw [setOutputs, List.getElem?_mapIdx, List.getElem?_zipWith]
  cases hi : layer[i]? with
  | none => rfl
  | some n =>
      obtain ⟨hlt, _⟩ := List.getElem?_eq_some_iff.mp hi
      rw [houtputs i hlt]
      rfl

section

variable [Precision α β] {net : Network α β}

/-- The neuron of a row computes the output of the row. -/
theorem forwardRow_run {weights : Tensor β} {outputs : List α} {boundary rows row i : Nat}
    {n : Neuron α} (hweights : net.weights[boundary]? = some weights)
    (hshape : weights.shape = [rows, outputs.length]) (hrow : row < rows)
    (hn : net.Stands (boundary + 1) i n) :
    forwardRow weights outputs.toArray row n =
      .ok () (n.withOutput (net.rowOutput boundary outputs row)) := by
  have hproducts : Neuron.products (outputs.mapIdx fun i x =>
      (⟨i, x, weights.scalarAt row i, 0⟩ : Synapse α)) =
      outputs.mapIdx fun i x => x * net.weight boundary row i := by
    rw [Neuron.products, map_mapIdx]
    simp only [weight, hweights]
  have houtput : net.rowOutput boundary outputs row = n.activation.apply
      (Neuron.weightedInput (net.ruleAt (boundary + 1)) (outputs.mapIdx fun i x =>
        ⟨i, x, weights.scalarAt row i, 0⟩)) := by
    rw [rowOutput, hn.activation_eq]
    cases net.ruleAt (boundary + 1) <;> simp only [Neuron.weightedInput, hproducts]
  rw [forwardRow, Step.bind_run, Step.lift_run,
    SynapseStream.incoming_eq_ok hshape hrow]
  simp only [Neuron.forward_run hn.rule_eq, houtput]

/-- The shares of the outputs of a whole list are put out by its neurons. -/
theorem normalise_run {layer : List (Neuron α)} (hlayer : layer ≠ []) :
    normalise layer.length layer = .ok () (setOutputs layer (shares (outputsOf layer))) := by
  have houtputs : outputsOf layer ≠ [] := by simpa [outputsOf] using hlayer
  obtain ⟨hsoftmax, hlength⟩ := softmax_eq_ok houtputs
  have hunit : ∀ (i : Nat) (n : Neuron α), layer[i]? = some n →
      (do Neuron.feedforward (← SynapseStream.unitAt (shares (outputsOf layer)).toArray i) :
        Step (Neuron α) Unit) n = .ok () (n.withOutput ((shares (outputsOf layer)).getD i 0)) := by
    intro i n hn
    obtain ⟨hlt, _⟩ := List.getElem?_eq_some_iff.mp hn
    have hshare : i < (shares (outputsOf layer)).length := by
      rw [hlength, outputsOf, List.length_map]
      exact hlt
    rw [Step.bind_run, Step.lift_run,
      SynapseStream.unitAt_eq_ok (List.getElem?_eq_getElem hshare), List.getD_eq_getElem?_getD,
      List.getElem?_eq_getElem hshare]
    rfl
  -- The shares were taken before the first unit changes, so each unit reads the old outputs.
  have hvisit := Step.visit_run layer hunit
  simp only [normalise, Step.bind_run, Step.get_run, Step.lift_run, List.take_length, hsoftmax,
    hvisit, Step.pure_run]
  rw [mapIdx_withOutput fun i hi => ?_]
  have hshare : i < (shares (outputsOf layer)).length := by
    rw [hlength, outputsOf, List.length_map]
    exact hi
  rw [List.getD_eq_getElem?_getD, List.getElem?_eq_getElem hshare, Option.getD_some]

/-- The neurons behind the bias unit compute the outputs of the rows. -/
theorem forwardRows_run (hnet : net.WellFormed) {boundary : Nat} {weights : Tensor β}
    {outputs : List α} (hweights : net.weights[boundary]? = some weights)
    (houtputs : outputs.length = net.width boundary) {front back : List (Neuron α)}
    (hback : back.length = net.fedWidth (boundary + 1))
    (hlayer : ∀ i n, (front ++ back)[i]? = some n → net.Stands (boundary + 1) i n) :
    Step.beyond (Step.visit (forwardRow weights outputs.toArray) back.length 0) front.length
      (front ++ back) = .ok (back.mapIdx fun _ _ => ()) (front ++ setOutputs back
        ((List.range back.length).map (net.rowOutput boundary outputs))) := by
  have hshape : weights.shape = [back.length, outputs.length] := by
    rw [hnet.weights_shape boundary weights hweights, houtputs, hback]
    rfl
  have hrows : ∀ (row : Nat) (n : Neuron α), back[row]? = some n →
      forwardRow weights outputs.toArray row n =
        .ok () (n.withOutput (net.rowOutput boundary outputs row)) := by
    intro row n hn
    obtain ⟨hlt, _⟩ := List.getElem?_eq_some_iff.mp hn
    refine forwardRow_run hweights hshape hlt (hlayer (front.length + row) n ?_)
    rw [List.getElem?_append_right (Nat.le_add_right _ _), Nat.add_sub_cancel_left]
    exact hn
  have hvisit := Step.visit_run back hrows
  rw [mapIdx_withOutput fun i hi => by
    rw [List.getElem?_map, List.getElem?_range hi, Option.map_some]] at hvisit
  exact Step.beyond_run hvisit

/-- The neurons of a layer compute its outputs, whatever they hold before. -/
theorem forwardLayer_run (hnet : net.WellFormed) {boundary : Nat}
    (hboundary : boundary + 1 < net.sizes.length) {weights : Tensor β} {outputs : List α}
    (hweights : net.weights[boundary]? = some weights)
    (houtputs : outputs.length = net.width boundary) {layer : List (Neuron α)}
    (hlength : layer.length = net.width (boundary + 1))
    (hlayer : ∀ i n, layer[i]? = some n → net.Stands (boundary + 1) i n) :
    net.forwardLayer boundary (net.fedWidth (boundary + 1)) weights outputs.toArray layer =
      .ok () (setOutputs layer (net.layerOutputs boundary outputs)) := by
  have hwidth := hnet.fedWidth_add_biasUnits hboundary
  have hpositive := hnet.fedWidth_pos hboundary
  -- The bias unit stands in front of the units that the rows belong to.
  obtain ⟨front, back, rfl, hfront⟩ : ∃ front back, layer = front ++ back ∧
      front.length = net.biasUnits (boundary + 1) :=
    ⟨layer.take (net.biasUnits (boundary + 1)), layer.drop (net.biasUnits (boundary + 1)),
      (List.take_append_drop _ _).symm, by rw [List.length_take]; omega⟩
  have hback : back.length = net.fedWidth (boundary + 1) := by
    rw [List.length_append] at hlength
    omega
  have hrows := forwardRows_run hnet hweights houtputs hback hlayer
  have hraw : ((List.range back.length).map (net.rowOutput boundary outputs)).length =
      back.length := by rw [List.length_map, List.length_range]
  rw [layerOutputs, ← hback]
  generalize (List.range back.length).map (net.rowOutput boundary outputs) = raw at *
  have hlong : setOutputs back raw ≠ [] := by
    rw [← List.length_pos_iff, length_setOutputs hraw]
    omega
  -- From here on the outputs of the rows are arbitrary; normalising replaces them all at once.
  have hnormalise := normalise_run hlong
  rw [length_setOutputs hraw, outputsOf_setOutputs hraw, setOutputs_setOutputs hraw] at hnormalise
  -- The bias unit comes last, whichever way the units behind it have been settled.
  have hbias (settled : List α) : (if !net.isOutput (boundary + 1) then
      Step.onItem (Neuron.feedforward 1) 0 else pure () : Step (List (Neuron α)) Unit)
      (front ++ setOutputs back settled) = .ok () (setOutputs (front ++ back)
        (if net.isOutput (boundary + 1) then settled else 1 :: settled)) := by
    rw [biasUnits] at hfront
    cases hfinal : net.isOutput (boundary + 1) with
    | true =>
        obtain rfl : front = [] := by simpa [hfinal] using hfront
        rfl
    | false =>
        obtain ⟨n, rfl⟩ : ∃ n, front = [n] :=
          List.length_eq_one_iff.mp (by simpa [hfinal] using hfront)
        rfl
  simp only [forwardLayer, Step.bind_run, ← hfront, hrows, Step.lift_run,
    hnet.activation_eq_ok hboundary]
  cases (net.activationAt (boundary + 1)).isSoftmax with
  | true =>
      simp only [if_true, Step.bind_run, Step.beyond_run hnormalise]
      exact hbias (shares raw)
  | false => exact hbias raw

end

end FeedForward.Network
