import FeedForward.Proofs.Dense.Deltas

/-!
# Backward runs are dense

A backward run on neurons that a forward run has settled gives the updates of the dense recursion of
the deltas, last boundary first. Each boundary reads the deltas behind it from the neurons, where
the boundary before has left them, and the last updates from the network, which do not change until
the run ends.
-/

namespace FeedForward.Network

variable {α β : Type} [Scalar α] [Add β] [Zero β] [Precision α β]

/-- The neurons of all layers from a given one on as a backward pass leaves them. -/
def trainedFrom (net : Network α β) (x : Lesson α) (reached : Nat) (arena : Arena α) : Arena α :=
  arena.mapIdx fun k layer =>
    if reached ≤ k then layer.mapIdx (net.trainedUnit x k) else layer

/-- Neurons are ready for a backward pass: there is one at each place, and each is ready. -/
structure ReadyUnits (net : Network α β) (x : Lesson α) (arena : Arena α) : Prop where
  fits : net.Fits arena
  ready : ∀ k layer i n, arena[k]? = some layer → layer[i]? = some n → net.Ready x k i n

section

variable {net : Network α β} {x : Lesson α} {arena : Arena α}

theorem trainedFrom_length {reached : Nat} (hreached : arena.length ≤ reached) :
    net.trainedFrom x reached arena = arena := by
  refine List.mapIdx_eq_iff.mpr fun k => ?_
  cases hk : arena[k]? with
  | none => rfl
  | some layer =>
      obtain ⟨hlt, _⟩ := List.getElem?_eq_some_iff.mp hk
      rw [Option.map_some, if_neg (by omega)]

/-- Training one more layer. -/
theorem trainedFrom_pred {reached : Nat} {layer : List (Neuron α)}
    (hlayer : arena[reached]? = some layer) :
    (net.trainedFrom x (reached + 1) arena).set reached (layer.mapIdx (net.trainedUnit x reached)) =
      net.trainedFrom x reached arena := by
  rw [trainedFrom, trainedFrom]
  refine set_mapIdx hlayer (if_pos (Nat.le_refl _)) fun k hk => ?_
  have hiff : reached + 1 ≤ k ↔ reached ≤ k := by omega
  simp only [hiff]

theorem getElem?_trainedFrom_of_lt {reached k : Nat} (hk : k < reached) :
    (net.trainedFrom x reached arena)[k]? = arena[k]? := by
  rw [trainedFrom, List.getElem?_mapIdx]
  cases arena[k]? with
  | none => rfl
  | some layer => rw [Option.map_some, if_neg (by omega)]

theorem getElem?_trainedFrom_self {reached : Nat} {layer : List (Neuron α)}
    (hlayer : arena[reached]? = some layer) :
    (net.trainedFrom x reached arena)[reached]? =
      some (layer.mapIdx (net.trainedUnit x reached)) := by
  rw [trainedFrom, List.getElem?_mapIdx, hlayer, Option.map_some, if_pos (Nat.le_refl _)]

/-- Trained units keep their outputs. -/
theorem outputsOf_trainedUnits (k : Nat) (layer : List (Neuron α)) :
    outputsOf (layer.mapIdx (net.trainedUnit x k)) = outputsOf layer := by
  have hunit : ∀ i n, (net.trainedUnit x k i n).output = n.output := by
    intro i n
    rw [trainedUnit]
    split <;> rfl
  rw [outputsOf, map_mapIdx]
  refine List.mapIdx_eq_iff.mpr fun i => ?_
  simp only [hunit, outputsOf, List.getElem?_map]

/-- Trained units hold the deltas of the recursion. -/
theorem delta_trainedUnits {k : Nat} {layer : List (Neuron α)}
    (hlength : (net.deltas x k).length = layer.length) :
    (layer.mapIdx (net.trainedUnit x k)).map Neuron.delta = net.deltas x k := by
  apply List.ext_getElem?
  intro i
  rw [List.getElem?_map, List.getElem?_mapIdx]
  by_cases hi : i < layer.length
  · rw [List.getElem?_eq_getElem hi, List.getElem?_eq_getElem (by omega), Option.map_some,
      Option.map_some, trainedUnit, Neuron.withDelta, List.getD_eq_getElem?_getD,
      List.getElem?_eq_getElem (by omega), Option.getD_some]
  · rw [List.getElem?_eq_none (by omega), List.getElem?_eq_none (by omega)]
    rfl

/-! ## The output layer -/

/-- An output unit takes the slope of the cost for its delta. -/
theorem seedDelta_run {last i : Nat} {n : Neuron α} {weights : Tensor β} {rows columns : Nat}
    (hlast : last + 1 = net.sizes.length) (hweights : net.weights[last - 1]? = some weights)
    (hshape : weights.shape = [rows, columns]) (hrow : i < rows) (hlabel : i < x.labels.length)
    (hn : net.Ready x last i n) :
    net.seedDelta (net.activationAt last) weights x.labels.toArray i n =
      .ok () (net.trainedUnit x last i n) := by
  obtain ⟨row, hslab⟩ := Tensor.exists_slab hshape hrow
  have hend : net.sizes.length - 1 = last := by omega
  have hlabelAt := List.getElem?_eq_getElem hlabel
  have hsum : net.rowSum (last - 1) i = blockedSum row := by
    simp only [rowSum, hweights, hslab]
  have hdelta : (net.deltas x last).getD i 0 =
      if (net.activationAt last).isSoftmax then
        net.cost.derivative x.labels[i] n.output +
          net.regularizationWeight * Precision.widen (blockedSum row)
      else (net.cost.derivative x.labels[i] n.output +
        net.regularizationWeight * Precision.widen (blockedSum row)) *
          (net.activationAt last).derivative n.output := by
    have houtput := hn.output_eq
    rw [← hend] at houtput ⊢
    rw [deltas_last, outputDeltas, hend, List.getD_eq_getElem?_getD, List.getElem?_mapIdx]
    rw [hend] at houtput
    rw [houtput, Option.map_some, Option.getD_some, hsum, List.getD_eq_getElem?_getD, hlabelAt,
      Option.getD_some]
  have hunit : net.trainedUnit x last i n = n.withDelta ((net.deltas x last).getD i 0) := by
    rw [trainedUnit, if_neg (by omega)]
  simp only [seedDelta, Step.bind_run, Step.get_run, Step.lift_run,
    SynapseStream.unitAt_eq_ok hlabelAt, hslab, Neuron.backpropagate_run, hunit, hdelta]

variable (hnet : net.WellFormed) (hinputs : x.inputs.length = net.width 0)
  (hready : net.ReadyUnits x arena)

include hnet hinputs hready

omit hinputs in
/-- The output units take the slopes of the cost for their deltas. -/
theorem seedDeltas_run {last : Nat} (houtput : net.outputLayer = some last)
    (hlabels : x.labels.length = net.width last) :
    net.seedDeltas x.labels arena = .ok () (net.trainedFrom x last arena) := by
  obtain ⟨hlast, hpositive⟩ := hnet.output_last last houtput
  have hboundary : last - 1 + 1 < net.sizes.length := by omega
  have hback : last - 1 + 1 = last := by omega
  obtain ⟨weights, hweights, hshape⟩ := hnet.exists_weights hboundary
  obtain ⟨layer, hlayer, hlength⟩ := hready.fits.exists_layer (k := last) (by omega)
  have hactivation := hnet.activation_eq_ok hboundary
  have hfed : net.fedWidth (last - 1 + 1) = net.width last := by
    rw [hback, fedWidth, biasUnits, if_pos ((hnet.isOutput_iff houtput).mpr hlast), Nat.sub_zero]
  rw [boundaryShape, hfed] at hshape
  rw [hback] at hactivation
  have hvisit := Step.visit_run layer fun i n hn => by
    obtain ⟨hlt, _⟩ := List.getElem?_eq_some_iff.mp hn
    exact seedDelta_run hlast hweights hshape (by omega) (by omega)
      (hready.ready last layer i n hlayer hn)
  have hlayerRun : (do
      let layer ← get
      let _ ← Step.visit (net.seedDelta (net.activationAt last) weights x.labels.toArray)
        layer.length 0 : Step (List (Neuron α)) Unit) layer =
      .ok () (layer.mapIdx (net.trainedUnit x last)) := by
    simp only [Step.bind_run, Step.get_run, hvisit, Step.pure_run]
  -- Nothing is trained before the output layer is.
  have htrained : (net.trainedFrom x (last + 1) arena).set last
      (layer.mapIdx (net.trainedUnit x last)) = net.trainedFrom x last arena :=
    trainedFrom_pred hlayer
  rw [trainedFrom_length (by rw [hready.fits.length_eq]; omega)] at htrained
  have hactivations : net.activations.length - 1 = last - 1 := by
    rw [hnet.activations_length]
    omega
  have hmatrices : net.weights.length - 1 = last - 1 := by
    rw [hnet.weights_length]
    omega
  simp only [seedDeltas, Step.bind_run, Step.lift_run, hactivations, hmatrices, hactivation,
    itemAt_eq_ok_iff.mpr hweights, houtput, Option.getD_some, Step.onItem_run hlayer hlayerRun,
    htrained]

/-! ## Boundaries -/

/-- One boundary: the layer in front is trained, and its update is that of the recursion. -/
theorem backwardBoundary_run (boundary : Nat) (hboundary : boundary + 1 < net.sizes.length) :
    net.backwardBoundary x.iteration boundary (net.trainedFrom x (boundary + 1) arena) =
      .ok (net.update x boundary) (net.trainedFrom x boundary arena) := by
  obtain ⟨weights, hweights, hshape⟩ := hnet.exists_weights hboundary
  obtain ⟨previous, hprevious, _⟩ := hnet.exists_previous hboundary
  obtain ⟨layer, hlayer, hlength⟩ := hready.fits.exists_layer (k := boundary) (by omega)
  obtain ⟨behind, hbehind, hbehindLength⟩ := hready.fits.exists_layer hboundary
  -- The layer behind is trained already, and the one in front is as the forward run left it.
  have hdeltas : net.deltasBehindBias (net.trainedFrom x (boundary + 1) arena) (boundary + 1) =
      .ok (net.deltasBehind x boundary).toArray := by
    have hitem : itemAt (net.trainedFrom x (boundary + 1) arena) (boundary + 1) =
        .ok (behind.mapIdx (net.trainedUnit x (boundary + 1))) :=
      itemAt_eq_ok_iff.mpr (getElem?_trainedFrom_self hbehind)
    have hall := length_deltas x hnet hinputs hboundary
    rw [deltasBehindBias, hitem, deltasBehind, ← delta_trainedUnits (hall.trans hbehindLength.symm),
      ← List.map_drop]
    rfl
  have hvisit := Step.visit_run layer fun column n hn =>
    backwardColumn_run hnet hinputs hboundary
      (by rw [← hlength]; exact (List.getElem?_eq_some_iff.mp hn).1) hweights hprevious
      (hready.ready boundary layer column n hlayer hn)
  have hfront : (net.trainedFrom x (boundary + 1) arena)[boundary]? = some layer :=
    (getElem?_trainedFrom_of_lt (Nat.lt_succ_self boundary)).trans hlayer
  rw [hlength] at hvisit
  have hitem := Step.onItem_run hfront hvisit
  have hcolumns : layer.mapIdx (fun column _ =>
      (net.pushed x boundary column).map (Precision.narrow (β := β))) =
      (List.range (net.width boundary)).map fun column =>
        (net.pushed x boundary column).map Precision.narrow := by
    refine List.mapIdx_eq_iff.mpr fun column => ?_
    rw [List.getElem?_map, ← hlength]
    by_cases hcolumn : column < layer.length
    · rw [List.getElem?_range hcolumn, List.getElem?_eq_getElem hcolumn]
      rfl
    · rw [List.getElem?_eq_none (by rw [List.length_range]; omega),
        List.getElem?_eq_none (by omega)]
      rfl
  simp only [backwardBoundary, Step.bind_run, Step.lift_run, itemAt_eq_ok_iff.mpr hweights,
    Tensor.matrixShape_eq_ok hshape, Step.get_run, hdeltas, itemAt_eq_ok_iff.mpr hprevious, hitem,
    Step.pure_run, trainedFrom_pred hlayer, hcolumns, update]

/-- All boundaries, last to first. -/
theorem backwardBoundaries_run (count : Nat) (hcount : count < net.sizes.length)
    (done : List (Tensor β)) :
    net.backwardBoundaries x.iteration count done (net.trainedFrom x count arena) =
      .ok ((List.range count).map (net.update x) ++ done) (net.trainedFrom x 0 arena) := by
  -- The invariant is that the layers behind the boundaries to come are trained; what updates are
  -- done does not matter.
  induction count generalizing done with
  | zero => rfl
  | succ count ih =>
      have hfirst := backwardBoundary_run hnet hinputs hready count hcount
      have hrest := ih (by omega) (net.update x count :: done)
      rw [backwardBoundaries, Step.bind_run, hfirst]
      simp only [hrest, List.range_succ, List.map_append, List.map_singleton, List.append_assoc,
        List.singleton_append]

end

/-! ## Units after a forward run -/

section

variable {net : Network α β}

omit [Add β] [Zero β] in
/-- What a settled neuron was before the forward run. -/
theorem exists_of_settled {inputs : List α} {kept : List Bool} {k i : Nat}
    {layer : List (Neuron α)} {n : Neuron α}
    (hlayer : (net.settled inputs (markInputs kept net.units))[k]? = some layer)
    (hn : layer[i]? = some n) :
    ∃ m, net.unitAt? k i = some m ∧ n.fresh = m.fresh ∧
      (net.activity inputs k)[i]? = some n.output ∧
      (k = 0 → kept[i]? = some (!n.dropped)) ∧ (0 < k → n.dropped = m.dropped) := by
  rw [settled, List.getElem?_mapIdx] at hlayer
  obtain ⟨marked, hmarked, rfl⟩ := Option.map_eq_some_iff.mp hlayer
  rw [setOutputs, List.getElem?_zipWith_eq_some] at hn
  obtain ⟨m, y, hm, hy, rfl⟩ := hn
  cases hunits : net.units with
  | nil => rw [hunits] at hmarked; cases hmarked
  | cons first rest =>
      rw [hunits, markInputs] at hmarked
      cases k with
      | zero =>
          obtain rfl : markDropped first kept = marked := by simpa using hmarked
          rw [markDropped, List.getElem?_zipWith_eq_some] at hm
          obtain ⟨old, flag, hold, hflag, rfl⟩ := hm
          refine ⟨old, by simp [unitAt?, hunits, hold], rfl, hy, fun _ => ?_,
            fun h => absurd h (by omega)⟩
          change kept[i]? = some (!(!flag))
          rw [hflag, Bool.not_not]
      | succ k =>
          have hlayer' : rest[k]? = some marked := by simpa using hmarked
          exact ⟨m, by simp [unitAt?, hunits, hlayer', hm], rfl, hy, fun h => absurd h (by omega),
            fun _ => rfl⟩

omit [Add β] [Zero β] in
/-- Settled neurons are ready for a backward pass in which the units take part that the forward run
has not dropped. -/
theorem ready_settled {x : Lesson α} (hnet : net.WellFormed) (hcomplete : 0 < net.sizes.length)
    (hinputs : x.inputs.length = net.width 0)
    (hfits : Scalar.fits (α := α) x.iteration.toNat = true)
    (hmask : ∀ i flag, net.drawn.1[i]? = some flag → x.live 0 i = flag)
    (hlive : ∀ k i n, 0 < k → net.unitAt? k i = some n → n.dropped = !x.live k i) :
    net.ReadyUnits x (net.settled x.inputs (markInputs net.drawn.1 net.units)) := by
  have hall := hnet.fits_units.of_fresh (freshUnits_settled hnet hcomplete hinputs)
  refine ⟨hall, ?_⟩
  intro k layer i n hlayer hn
  obtain ⟨m, hm, hmn, houtput, hinput, hbehind⟩ := exists_of_settled hlayer hn
  have hstands := hall.stands k layer i n hlayer hn
  have hlearning : n.fresh.learningRate = m.fresh.learningRate := by rw [hmn]
  have hmomentum : n.fresh.momentumWeight = m.fresh.momentumWeight := by rw [hmn]
  refine ⟨hstands, houtput, ?_, ?_, ?_⟩
  · cases k with
    | zero => rw [hmask i _ (hinput rfl), Bool.not_not]
    | succ k => rw [hbehind (by omega), hlive (k + 1) i m (by omega) hm]
  · change n.learningRate = m.learningRate at hlearning
    rw [Neuron.effectiveLearningRate, hstands.rule_eq, rate, hm, Option.elim_some, hlearning]
    cases net.ruleAt k with
    | standard => rfl
    | max => rfl
    | annealing => exact if_pos hfits
  · rw [momentum, hm]
    exact hmomentum

end

/-! ## Whole passes -/

/-- A backward run on neurons that are ready gives the updates of the recursion and keeps them. -/
theorem backward_eq {net : Network α β} {x : Lesson α} {arena : Arena α} (hnet : net.WellFormed)
    (hinputs : x.inputs.length = net.width 0) (hready : net.ReadyUnits x arena) {last : Nat}
    (houtput : net.outputLayer = some last) (hlabels : x.labels.length = net.width last)
    (source : Generator) (trainingError : α) :
    backward x.labels x.iteration
        { net with source, trainingError, arena := some arena : Network α β } =
      .ok ((List.range last).map (net.update x))
        { net with
          source, trainingError
          previous := (List.range last).map (net.update x)
          arena := some (net.trainedFrom x 0 arena) } := by
  have hlast := (hnet.output_last last houtput).1
  have hcount : net.sizes.length - 1 = last := by omega
  -- There is a boundary for every weight matrix, so no update is left at zero.
  have hdone : net.weights.drop last = [] :=
    List.drop_eq_nil_of_le (Nat.le_of_eq (hnet.weights_length.trans hcount))
  -- The pass reads from the network only what does not change on the way to it.
  let start : Network α β := { net with source, trainingError, arena := some arena }
  have hact : (do
      start.seedDeltas x.labels
      start.backwardBoundaries x.iteration (start.sizes.length - 1)
        ((start.weights.drop (start.sizes.length - 1)).map fun matrix => .fill matrix.shape 0) :
      Step (Arena α) (List (Tensor β))) arena =
      .ok ((List.range last).map (net.update x)) (net.trainedFrom x 0 arena) := by
    have hseeds : start.seedDeltas x.labels arena = .ok () (net.trainedFrom x last arena) :=
      seedDeltas_run hnet hready houtput hlabels
    have hboundaries := backwardBoundaries_run hnet hinputs hready last (by omega) []
    rw [List.append_nil] at hboundaries
    have hsame : start.backwardBoundary = net.backwardBoundary := rfl
    rw [Step.bind_run, hseeds]
    simp only [backwardBoundaries_congr hsame]
    change net.backwardBoundaries x.iteration (net.sizes.length - 1)
      ((net.weights.drop (net.sizes.length - 1)).map _) _ = _
    rw [hcount, hdone, List.map_nil, hboundaries]
  have hunits : start.arena = some arena := rfl
  change backward x.labels x.iteration start = _
  rw [backward, Step.bind_run, Step.get_run]
  simp only
  rw [Step.bind_run, onArena_run_of_arena hunits, hact]
  rfl

end FeedForward.Network
