import FeedForward.Proofs.Dense.Forward

/-!
# Dense deltas and updates

The deltas of a layer as one expression in those of the layer behind, from the output layer back,
and the update of a weight matrix as one expression in the deltas behind its boundary and the
outputs in front. Units that take no part have a zero for a delta and push zeros. As in the
recursion of the outputs the order of all operations is that in which neurons carry them out.
-/

namespace FeedForward

/-- What a backward pass starts from: the values of the input layer, which units take part, the
labels of the output layer and the iteration. -/
structure Lesson (α : Type) where
  inputs : List α
  live : Nat → Nat → Bool
  labels : List α
  iteration : Int

namespace Network

variable {α β : Type} [Scalar α]

section

variable (net : Network α β)

/-- The unit at a place of a layer. -/
def unitAt? (layer i : Nat) : Option (Neuron α) := net.units[layer]?.bind (·[i]?)

/-- The rate at which the unit at a place learns. It falls with the iteration in annealing layers,
to which the input layer does not belong. -/
def rate (iteration : Int) (layer i : Nat) : α :=
  let stored := (net.unitAt? layer i).elim 0 Neuron.learningRate
  match net.ruleAt layer with
  | .annealing => stored / (1 + 1e-3 * Scalar.ofNat iteration.toNat)
  | .standard | .max => stored

/-- The weight of the last update in what the unit at a place pushes. -/
def momentum (layer i : Nat) : α := (net.unitAt? layer i).elim 0 Neuron.momentumWeight

variable [Precision α β]

/-- The last update of the weight that leads from a unit in front of a boundary into a row. -/
def lastUpdate (boundary row column : Nat) : α :=
  match net.previous[boundary]? with
  | some previous => previous.scalarAt row column
  | none => 0

/-- The sum of a weight row in stored numbers. -/
def rowSum [Add β] [Zero β] (boundary row : Nat) : β :=
  match net.weights[boundary]? with
  | some weights => match weights.slab row with
    | .ok xs => blockedSum xs
    | .error _ => 0
  | none => 0

/-- The deltas of the output layer. Behind softmax the slope of the cost is that of the whole. -/
def outputDeltas [Add β] [Zero β] (labels outputs : List α) : List α :=
  let last := net.sizes.length - 1
  outputs.mapIdx fun i y =>
    let slope := net.cost.derivative (labels.getD i 0) y +
      net.regularizationWeight * Precision.widen (net.rowSum (last - 1) i)
    if (net.activationAt last).isSoftmax then slope
    else slope * (net.activationAt last).derivative y

variable (x : Lesson α)

/-- The deltas of a layer, given those of the layer behind. -/
def layerDeltas (layer : Nat) (behind : List α) : List α :=
  (net.activity x.inputs layer).mapIdx fun i y =>
    if x.live layer i then
      sumOnto 0 ((behind.drop (net.biasUnits (layer + 1))).mapIdx fun row delta =>
        delta * net.weight layer row i) * (net.activationAt layer).derivative y
    else 0

variable [Add β] [Zero β]

/-- The deltas so many layers in front of the output layer. -/
def deltasBefore : Nat → List α
  | 0 => net.outputDeltas x.labels (net.activity x.inputs (net.sizes.length - 1))
  | distance + 1 =>
    net.layerDeltas x (net.sizes.length - 1 - (distance + 1)) (deltasBefore distance)

/-- The deltas of a layer. -/
def deltas (layer : Nat) : List α := net.deltasBefore x (net.sizes.length - 1 - layer)

/-- The deltas that a unit in front of a boundary sees: those of the units with incoming weights. -/
def deltasBehind (boundary : Nat) : List α :=
  (net.deltas x (boundary + 1)).drop (net.biasUnits (boundary + 1))

/-- The updates of the weights that lead from a unit behind a boundary, as they are pushed. -/
def pushed (boundary column : Nat) : List α :=
  (net.deltasBehind x boundary).mapIdx fun row delta =>
    if x.live boundary column then
      -net.rate x.iteration boundary column * delta *
        (net.activity x.inputs boundary).getD column 0 +
        net.momentum boundary column * net.lastUpdate boundary row column
    else 0

/-- The update of the weight matrix of a boundary. -/
def update (boundary : Nat) : Tensor β :=
  .ofColumns (net.fedWidth (boundary + 1)) ((List.range (net.width boundary)).map fun column =>
    (net.pushed x boundary column).map Precision.narrow)

/-- A unit after a backward pass: with its delta and, in front of a boundary, with what it has
pushed. -/
def trainedUnit (layer i : Nat) (n : Neuron α) : Neuron α :=
  (if layer + 1 < net.sizes.length then
    n.withBuffer ((UpdateBuffer.empty (net.fedWidth (layer + 1))).append (net.pushed x layer i))
  else n).withDelta ((net.deltas x layer).getD i 0)

end

/-! ## Lengths -/

section

variable [Precision α β] [Add β] [Zero β] {net : Network α β} (x : Lesson α)

theorem deltas_last : net.deltas x (net.sizes.length - 1) =
    net.outputDeltas x.labels (net.activity x.inputs (net.sizes.length - 1)) := by
  rw [deltas, Nat.sub_self, deltasBefore]

theorem deltas_of_lt {layer : Nat} (hlayer : layer + 1 < net.sizes.length) :
    net.deltas x layer = net.layerDeltas x layer (net.deltas x (layer + 1)) := by
  have hdistance : net.sizes.length - 1 - layer = net.sizes.length - 1 - (layer + 1) + 1 := by omega
  have hback : net.sizes.length - 1 - (net.sizes.length - 1 - (layer + 1) + 1) = layer := by omega
  rw [deltas, hdistance, deltasBefore, hback, deltas]

variable (hnet : net.WellFormed) (hinputs : x.inputs.length = net.width 0)

include hnet hinputs

theorem length_deltas {layer : Nat} (hlayer : layer < net.sizes.length) :
    (net.deltas x layer).length = net.width layer := by
  rw [← length_activity hnet hinputs hlayer]
  rcases Nat.lt_or_ge (layer + 1) net.sizes.length with hlt | hge
  · rw [deltas_of_lt x hlt, layerDeltas, List.length_mapIdx]
  · obtain rfl : layer = net.sizes.length - 1 := by omega
    rw [deltas_last, outputDeltas, List.length_mapIdx]

theorem length_deltasBehind {boundary : Nat} (hboundary : boundary + 1 < net.sizes.length) :
    (net.deltasBehind x boundary).length = net.fedWidth (boundary + 1) := by
  rw [deltasBehind, List.length_drop, length_deltas x hnet hinputs hboundary, fedWidth]

end

/-! ## Units -/

section

variable [Precision α β] (weights previous : Tensor β) (rate : α) (deltas : List α) (column : Nat)
  (n : Neuron α)

/-- What a unit pushes for the deltas behind it: a step down the gradient and a share of the last
update for each, or zeros if it is dropped. -/
def pushes : List α :=
  deltas.mapIdx fun row delta =>
    if n.dropped then 0
    else n.update rate ⟨row, delta, weights.scalarAt row column, previous.scalarAt row column⟩

/-- The delta of a unit in front of others: none if it is dropped. -/
def deltaOf : α :=
  if n.dropped then 0
  else sumOnto 0 (deltas.mapIdx fun row delta => delta * weights.scalarAt row column) *
    n.activation.derivative n.output

/-- A unit that has pushed its updates and has its delta. -/
def afterColumn : Neuron α :=
  (n.withBuffer ((UpdateBuffer.empty deltas.length).append
    (pushes weights previous rate deltas column n))).withDelta (deltaOf weights deltas column n)

variable {weights previous rate deltas column n}

/-- The unit that a column leads back to computes its delta and pushes its updates, whatever the
deltas behind it are. -/
theorem backwardColumn_of_rate {columns : Nat} {iteration : Int} {rule : Rule}
    (hshape : weights.shape = [deltas.length, columns]) (hprevious : previous.shape = weights.shape)
    (hcolumn : column < columns) (hrule : n.rule = some rule)
    (hrate : n.effectiveLearningRate iteration = .ok rate) :
    backwardColumn weights (.ok previous) (.ok deltas.toArray) deltas.length iteration column n =
      .ok ((pushes weights previous rate deltas column n).map Precision.narrow)
        (afterColumn weights previous rate deltas column n) := by
  let emptied := n.withBuffer (.empty deltas.length)
  let synapses : List (Synapse α) := deltas.mapIdx fun row delta =>
    ⟨row, delta, weights.scalarAt row column, previous.scalarAt row column⟩
  have hstream := SynapseStream.returning_eq_ok (α := α) hshape hprevious hcolumn
  have hroom : emptied.buffer.filled + synapses.length ≤ emptied.buffer.capacity := by
    rw [List.length_mapIdx]
    exact Nat.le_of_eq (Nat.zero_add _)
  -- A unit that takes part pushes an update for every row, and one that does not a zero.
  have hunit : Neuron.backward (.ofList synapses) iteration emptied =
      .ok () (afterColumn weights previous rate deltas column n) := by
    rw [afterColumn, pushes, deltaOf]
    cases hdropped : n.dropped with
    | false =>
        have hrun := Neuron.backward_run (n := emptied) hrule hdropped hrate hroom
        simp only [synapses, map_mapIdx, Neuron.products] at hrun
        exact hrun
    | true =>
        have hrun : Neuron.backward _ iteration _ = _ :=
          Neuron.backward_run_of_dropped (n := emptied) hrule hdropped hroom
        simp only [synapses, map_mapIdx] at hrun
        exact hrun
  have hfull : (afterColumn weights previous rate deltas column n).buffer.full? =
      some (pushes weights previous rate deltas column n) := by
    have hlength : (pushes weights previous rate deltas column n).length = deltas.length := by
      rw [pushes, List.length_mapIdx]
    rw [afterColumn, ← hlength]
    exact UpdateBuffer.full?_append_empty _
  simp only [backwardColumn, Step.bind_run, Neuron.resetBuffer_run, Step.lift_run, hstream]
  rw [hunit]
  simp only [Neuron.weights_run hfull, Step.pure_run]

end

/-- A unit is ready for a backward pass: it stands at its place, holds the output of the recursion,
and is dropped unless it takes part, and its rates are those of its place. -/
structure Ready [Precision α β] (net : Network α β) (x : Lesson α) (layer i : Nat)
    (n : Neuron α) : Prop where
  stands : net.Stands layer i n
  output_eq : (net.activity x.inputs layer)[i]? = some n.output
  dropped_eq : n.dropped = !x.live layer i
  rate_eq : n.effectiveLearningRate x.iteration = .ok (net.rate x.iteration layer i)
  momentum_eq : n.momentumWeight = net.momentum layer i

section

variable [Precision α β] [Add β] [Zero β] {net : Network α β} {x : Lesson α}

/-- The delta at the place of a unit in front of a boundary. -/
theorem getD_deltas {boundary column : Nat} {n : Neuron α}
    (hboundary : boundary + 1 < net.sizes.length) (hn : net.Ready x boundary column n) :
    (net.deltas x boundary).getD column 0 =
      if x.live boundary column then
        sumOnto 0 ((net.deltasBehind x boundary).mapIdx fun row delta =>
          delta * net.weight boundary row column) * n.activation.derivative n.output
      else 0 := by
  rw [deltas_of_lt x hboundary, layerDeltas, List.getD_eq_getElem?_getD, List.getElem?_mapIdx,
    hn.output_eq, hn.stands.activation_eq]
  rfl

omit [Add β] [Zero β] in
theorem getD_activity {boundary column : Nat} {n : Neuron α}
    (hn : net.Ready x boundary column n) :
    (net.activity x.inputs boundary).getD column 0 = n.output := by
  rw [List.getD_eq_getElem?_getD, hn.output_eq, Option.getD_some]

/-- The unit that a column leads back to computes its delta and pushes its updates. -/
theorem backwardColumn_run {boundary column : Nat} {n : Neuron α} {weights previous : Tensor β}
    (hnet : net.WellFormed) (hinputs : x.inputs.length = net.width 0)
    (hboundary : boundary + 1 < net.sizes.length) (hcolumn : column < net.width boundary)
    (hweights : net.weights[boundary]? = some weights)
    (hprevious : net.previous[boundary]? = some previous) (hn : net.Ready x boundary column n) :
    backwardColumn weights (.ok previous) (.ok (net.deltasBehind x boundary).toArray)
      (net.fedWidth (boundary + 1)) x.iteration column n =
      .ok ((net.pushed x boundary column).map Precision.narrow)
        (net.trainedUnit x boundary column n) := by
  have hlength := length_deltasBehind x hnet hinputs hboundary
  have hshape := hnet.weights_shape boundary weights hweights
  have hsame := (hnet.previous_shape boundary previous hprevious).trans hshape.symm
  rw [boundaryShape, ← hlength] at hshape
  have hpushed : pushes weights previous (net.rate x.iteration boundary column)
      (net.deltasBehind x boundary) column n = net.pushed x boundary column := by
    simp only [pushes, pushed, Neuron.update, hn.dropped_eq, getD_activity hn, lastUpdate,
      hprevious, ← hn.momentum_eq]
    cases x.live boundary column <;> rfl
  have hdelta : deltaOf weights (net.deltasBehind x boundary) column n =
      (net.deltas x boundary).getD column 0 := by
    simp only [getD_deltas hboundary hn, deltaOf, hn.dropped_eq, weight, hweights]
    cases x.live boundary column <;> rfl
  rw [trainedUnit, if_pos hboundary, ← hlength, ← hpushed, ← hdelta]
  exact backwardColumn_of_rate hshape hsame hcolumn hn.stands.rule_eq hn.rate_eq

end

end Network

end FeedForward
