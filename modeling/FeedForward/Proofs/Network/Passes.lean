import FeedForward.Network.Training
import FeedForward.Proofs.Network.Neurons
import FeedForward.Proofs.Tensor

/-!
# Passes keep networks sound

A pass writes into the neurons, into the random source, the last updates and the training error.
Whichever way it ends, the neurons are those that were there or that it has built, and the last
updates have the shapes of the boundaries. Nothing is said here about the numbers.
-/

namespace FeedForward.Network

variable {α β : Type} [Scalar α]

/-- The neurons as they were built, without what passes leave in them. -/
def freshUnits : Arena α → Arena α := List.map (List.map Neuron.fresh)

/-! ## Forward -/

section Forward

variable [Precision α β] (net : Network α β)

theorem feedInput_fresh (keep value : α) (n : Neuron α) (source : Generator) :
    (feedInput keep value n source).1.fresh = n.fresh := by
  rw [feedInput]
  split
  rfl

theorem feedInputs_fresh (keep : α) (layer : List (Neuron α)) (values : List α)
    (source : Generator) :
    (feedInputs keep layer values source).1.map Neuron.fresh = layer.map Neuron.fresh := by
  induction layer generalizing values source with
  | nil => cases values <;> rfl
  | cons n layer ih =>
      cases values with
      | nil => rfl
      | cons value values =>
          rw [feedInputs, List.map_cons, List.map_cons, feedInput_fresh, ih]

variable {κ : Type} {view : Neuron α → κ} (hview : Neuron.Overlooks view)

include hview

theorem keeps_forwardRow (weights : Tensor β) (outputs : Array α) (row : Nat) :
    Step.Keeps view (forwardRow weights outputs row) :=
  .bind (.lift _) fun _ => Neuron.keeps_forward hview _

theorem keeps_normalise (count : Nat) :
    Step.Keeps (List.map view) (normalise count : Step (List (Neuron α)) Unit) := by
  have hunit (shares : List α) (i : Nat) : Step.Keeps view (do
      Neuron.feedforward (← SynapseStream.unitAt shares.toArray i)) :=
    .bind (.lift _) fun _ => Neuron.keeps_feedforward hview _
  exact .bind .get fun _ => .bind (.lift _) fun shares =>
    .bind (.visit (hunit shares) count 0) fun _ => .pure _

theorem keeps_forwardLayer (boundary rows : Nat) (weights : Tensor β) (outputs : Array α) :
    Step.Keeps (List.map view) (net.forwardLayer boundary rows weights outputs) := by
  refine .bind (.beyond (.visit (keeps_forwardRow hview weights outputs) rows 0) _) fun _ =>
    .bind (.lift _) fun activation => ?_
  have hbias : Step.Keeps (List.map view)
      (if !net.isOutput (boundary + 1) then
        Step.onItem (Neuron.feedforward (1 : α)) 0 else pure ()) :=
    .ite (.onItem (Neuron.keeps_feedforward hview 1) 0) (.pure ())
  exact .ite (.bind (.beyond (keeps_normalise hview rows) _) fun _ => hbias) hbias

theorem keeps_forwardBoundary (boundary : Nat) :
    Step.Keeps (List.map (List.map view)) (net.forwardBoundary boundary) :=
  .bind (.lift _) fun weights => .bind (.lift _) fun rows => .bind .get fun _ =>
    .onItem (net.keeps_forwardLayer hview boundary rows weights _) _

theorem keeps_forwardBoundaries (boundaries : List Nat) :
    Step.Keeps (List.map (List.map view)) (net.forwardBoundaries boundaries) := by
  induction boundaries with
  | nil => exact .pure ()
  | cons boundary rest ih => exact .bind (net.keeps_forwardBoundary hview boundary) fun _ => ih

end Forward

/-! ## Backward -/

section Backward

variable [Precision α β] (net : Network α β) {κ : Type} {view : Neuron α → κ}
  (hview : Neuron.Overlooks view)

include hview

theorem keeps_backwardColumn (weights : Tensor β) (previous : Except Fault (Tensor β))
    (deltas : Except Fault (Array α)) (rows : Nat) (iteration : Int) (column : Nat) :
    Step.Keeps view (backwardColumn weights previous deltas rows iteration column) :=
  .bind (Neuron.keeps_resetBuffer hview rows) fun _ => .bind (.lift _) fun _ =>
    .bind (.lift _) fun _ => .bind (.lift _) fun _ =>
      .bind (Neuron.keeps_backward hview _ _) fun _ => .bind Neuron.keeps_weights fun _ => .pure _

variable [Zero β]

theorem keeps_seedDeltas [Add β] (labels : List α) :
    Step.Keeps (List.map (List.map view)) (net.seedDeltas labels) := by
  have hseed (activation : Activation α) (weights : Tensor β) (i : Nat) :
      Step.Keeps view (net.seedDelta activation weights labels.toArray i) :=
    .bind .get fun _ => .bind (.lift _) fun _ => .bind (.lift _) fun _ =>
      Neuron.keeps_backpropagate hview _
  refine .bind (.lift _) fun activation => .bind (.lift _) fun weights => .onItem ?_ _
  refine .bind .get fun layer => .bind ?_ fun _ => .pure ()
  exact .visit (hseed activation weights) layer.length 0

theorem keeps_backwardBoundary (iteration : Int) (boundary : Nat) :
    Step.Keeps (List.map (List.map view)) (net.backwardBoundary iteration boundary) :=
  .bind (.lift _) fun _ => .bind (.lift _) fun _ => .bind .get fun _ =>
    .bind (.onItem (.visit (keeps_backwardColumn hview _ _ _ _ _) _ 0) _) fun _ => .pure _

theorem keeps_backwardBoundaries (iteration : Int) (count : Nat) (done : List (Tensor β)) :
    Step.Keeps (List.map (List.map view)) (net.backwardBoundaries iteration count done) := by
  induction count generalizing done with
  | zero => exact .pure done
  | succ count ih => exact .bind (net.keeps_backwardBoundary hview iteration count) fun _ => ih _

end Backward

/-! ## Whole networks -/

variable {γ : Type} {net : Network α β}

theorem exists_of_freshUnits {arena other : Arena α} (hfresh : freshUnits other = freshUnits arena)
    {layer : List (Neuron α)} {n : Neuron α} (hlayer : layer ∈ other) (hn : n ∈ layer) :
    ∃ old ∈ arena, ∃ m ∈ old, n.fresh = m.fresh := by
  have hmem : layer.map Neuron.fresh ∈ freshUnits arena :=
    hfresh ▸ List.mem_map_of_mem (f := List.map Neuron.fresh) hlayer
  obtain ⟨old, hold, heq⟩ := List.mem_map.mp hmem
  have hn' : n.fresh ∈ old.map Neuron.fresh := heq ▸ List.mem_map_of_mem hn
  obtain ⟨m, hm, hmn⟩ := List.mem_map.mp hn'
  exact ⟨old, hold, m, hm, hmn.symm⟩

/-- Other neurons in a sound network, built like those that the next pass would work on. -/
theorem Sound.withArena (hnet : net.Sound) (houtput : net.outputLayer.isSome) {arena : Arena α}
    (hfresh : freshUnits arena = freshUnits net.units) : (net.withArena arena).Sound where
  wellFormed := hnet.wellFormed.withArena houtput (hnet.wellFormed.fits_units.of_fresh hfresh)
  follow := by
    intro other hother layer hlayer n hn
    obtain rfl : arena = other := by simpa [Network.withArena] using hother
    obtain ⟨old, hold, m, hm, hmn⟩ := exists_of_freshUnits hfresh hlayer hn
    have hfollows := (hnet.follows_units hold hm).of_fresh hmn
    exact ⟨hfollows.learningRate_eq, hfollows.momentumWeight_eq, hfollows.training_eq⟩

theorem preserves_neurons : Step.Preserves Sound (neurons : Step (Network α β) (Arena α)) := by
  intro net hnet
  rw [Step.after, neurons_run hnet.wellFormed]
  cases houtput : net.outputLayer with
  | none => exact hnet
  | some layer => exact hnet.withArena (by rw [houtput]; rfl) rfl

theorem preserves_onArena {act : Step (Arena α) γ} (hact : Step.Keeps freshUnits act) :
    Step.Preserves Sound (onArena act : Step (Network α β) γ) := by
  intro net hnet
  rw [Step.after, onArena_run hnet.wellFormed]
  cases houtput : net.outputLayer with
  | none => exact hnet
  | some layer =>
      have hsound := hnet.withArena (by rw [houtput]; rfl) (hact net.units)
      rw [Step.after] at hsound
      cases hrun : act net.units with
      | ok x arena => rw [hrun] at hsound; exact hsound
      | error fault arena => rw [hrun] at hsound; exact hsound

/-! ## Forward runs -/

section

variable [Precision α β]

/-- The units with the given values put out of those of the input layer, and the random source
after that. -/
def fedUnits (net : Network α β) (values : List α) : Arena α × Generator :=
  let (inputs, source) := feedInputs (1 - net.dropRate) (net.units.headD []) values net.source
  (net.units.set 0 inputs, source)

/-- Computes the outputs behind the input layer and gives those of the output layer. -/
def forwardUnits (net : Network α β) : Step (Arena α) (List α) := do
  net.forwardBoundaries (List.range (net.sizes.length - 1))
  let layer ← itemAt (← get) (net.outputLayer.getD 0)
  return outputsOf layer

/-- The network whose input units put out the given values. -/
def fed (net : Network α β) (values : List α) : Network α β :=
  { net.withArena (net.fedUnits values).1 with source := (net.fedUnits values).2 }

theorem forward_run (hnet : net.WellFormed) (values : List α) :
    forward values net = match net.outputLayer with
      | some _ => onArena (forwardUnits (net.withArena net.units)) (net.fed values)
      | none => .error .noOutputLayer net := by
  rw [forward, Step.bind_run, neurons_run hnet]
  cases net.outputLayer <;> rfl

omit [Precision α β] in
theorem freshUnits_fedUnits (net : Network α β) (values : List α) :
    freshUnits (net.fedUnits values).1 = freshUnits net.units := by
  rw [fedUnits]
  cases net.units with
  | nil => rfl
  | cons layer rest =>
      simp [freshUnits, feedInputs_fresh]

omit [Precision α β] in
theorem Sound.fed (hnet : net.Sound) (houtput : net.outputLayer.isSome) (values : List α) :
    (net.fed values).Sound :=
  (hnet.withArena houtput (net.freshUnits_fedUnits values)).withSource _

theorem keeps_forwardUnits (net : Network α β) {κ : Type} {view : Neuron α → κ}
    (hview : Neuron.Overlooks view) : Step.Keeps (List.map (List.map view)) net.forwardUnits :=
  .bind (net.keeps_forwardBoundaries hview _) fun _ => .bind .get fun _ => .bind (.lift _) fun _ =>
    .pure _

theorem preserves_forward (values : List α) :
    Step.Preserves Sound (forward values : Step (Network α β) (List α)) := by
  intro net hnet
  rw [Step.after, forward_run hnet.wellFormed]
  cases houtput : net.outputLayer with
  | none => exact hnet
  | some layer =>
      exact preserves_onArena (keeps_forwardUnits _ Neuron.overlooks_fresh) _ (hnet.fed (by rw [houtput]; rfl) values)

/-! ## Backward runs -/

variable [Zero β]

/-- The update of a boundary has the shape of its matrix. -/
theorem shape_backwardBoundary {iteration : Int} {boundary : Nat} {arena arena' : Arena α}
    {update : Tensor β} (hrun : net.backwardBoundary iteration boundary arena = .ok update arena') :
    (net.weights.map Tensor.shape)[boundary]? = some update.shape := by
  obtain ⟨weights, _, hweights, hrun₁⟩ := Step.bind_eq_ok hrun
  obtain ⟨⟨rows, columns⟩, _, hextents, hrun₂⟩ := Step.bind_eq_ok hrun₁
  obtain ⟨_, _, _, hrun₃⟩ := Step.bind_eq_ok hrun₂
  obtain ⟨updates, _, hcolumns, hrun₄⟩ := Step.bind_eq_ok hrun₃
  obtain ⟨layer, _, _, hvisit⟩ := Step.onItem_eq_ok hcolumns
  have hitem := itemAt_eq_ok_iff.mp (Step.lift_eq_ok hweights).1
  have hmatrix := Tensor.shape_of_matrixShape (Step.lift_eq_ok hextents).1
  cases hrun₄
  rw [List.getElem?_map, hitem, Option.map_some, hmatrix]
  change some [rows, columns] = some [rows, updates.length]
  rw [Step.visit_length hvisit]

/-- The updates computed in front of those that are done have the shapes of their matrices. -/
theorem shapes_backwardBoundaries {iteration : Int} {count : Nat} {done updates : List (Tensor β)}
    {arena arena' : Arena α}
    (hrun : net.backwardBoundaries iteration count done arena = .ok updates arena') :
    updates.map Tensor.shape =
      (net.weights.map Tensor.shape).take count ++ done.map Tensor.shape := by
  -- Boundaries are done last to first, so each update goes in front of those that are done.
  induction count generalizing done arena with
  | zero => cases hrun; rfl
  | succ count ih =>
      obtain ⟨update, _, hupdate, hrun⟩ := Step.bind_eq_ok hrun
      rw [ih hrun, List.take_add_one, shape_backwardBoundary hupdate, List.append_assoc]
      rfl

/-- Computes the deltas and the updates of all boundaries. -/
def backwardUnits [Add β] (net : Network α β) (labels : List α) (iteration : Int) :
    Step (Arena α) (List (Tensor β)) := do
  net.seedDeltas labels
  net.backwardBoundaries iteration (net.sizes.length - 1)
    ((net.weights.drop (net.sizes.length - 1)).map fun matrix => .fill matrix.shape 0)

theorem keeps_backwardUnits [Add β] (net : Network α β) {κ : Type} {view : Neuron α → κ}
    (hview : Neuron.Overlooks view) (labels : List α) (iteration : Int) :
    Step.Keeps (List.map (List.map view)) (net.backwardUnits labels iteration) :=
  .bind (net.keeps_seedDeltas hview labels) fun _ =>
    net.keeps_backwardBoundaries hview iteration _ _

/-- There is an update for each weight matrix, with the same extents. -/
theorem shapes_backwardUnits [Add β] {labels : List α} {iteration : Int} {updates : List (Tensor β)}
    {arena arena' : Arena α} (hrun : net.backwardUnits labels iteration arena = .ok updates arena') :
    updates.map Tensor.shape = net.weights.map Tensor.shape := by
  obtain ⟨_, _, _, hboundaries⟩ := Step.bind_eq_ok hrun
  have hrest : ((net.weights.drop (net.sizes.length - 1)).map fun matrix =>
      (Tensor.fill matrix.shape 0 : Tensor β)).map Tensor.shape =
        (net.weights.map Tensor.shape).drop (net.sizes.length - 1) := by
    rw [List.map_map, List.map_drop]
    rfl
  rw [shapes_backwardBoundaries hboundaries, hrest, List.take_append_drop]

/-- A backward run that succeeds keeps its updates as the last ones. -/
theorem backward_run [Add β] (labels : List α) (iteration : Int) (net : Network α β) :
    backward labels iteration net = match onArena (net.backwardUnits labels iteration) net with
      | .ok previous after => .ok previous { after with previous }
      | .error fault after => .error fault after := by
  rw [backward, Step.bind_run, Step.get_run]
  dsimp only
  rw [Step.bind_run, ← backwardUnits]
  cases onArena (net.backwardUnits labels iteration) net <;> rfl

theorem backward_previous [Add β] {labels : List α} {iteration : Int} {updates : List (Tensor β)}
    {net' : Network α β} (hrun : backward labels iteration net = .ok updates net') :
    net'.previous = updates := by
  rw [backward_run] at hrun
  split at hrun
  next => cases hrun; rfl
  next => cases hrun

theorem preserves_backward [Add β] (labels : List α) (iteration : Int) :
    Step.Preserves Sound (backward labels iteration : Step (Network α β) (List (Tensor β))) := by
  intro net hnet
  refine Step.after_bind_of hnet fun _ _ hget _ => ?_
  cases hget
  -- Only a run that succeeds stores updates, and its updates are those of all boundaries.
  refine Step.after_bind_of (preserves_onArena
      (net.keeps_backwardUnits Neuron.overlooks_fresh labels iteration) net hnet)
    fun updates net' hrun hsound => ?_
  obtain ⟨arena, hunits, rfl⟩ := onArena_eq_ok hnet.wellFormed hrun
  have hshapes := shapes_backwardUnits hunits
  refine hsound.withPrevious ?_ fun k update hk => ?_
  · exact (by simpa using congrArg List.length hshapes : updates.length = net.weights.length).trans
      hnet.wellFormed.weights_length
  · have hmap := congrArg (·[k]?) hshapes
    simp only [List.getElem?_map, hk, Option.map_some] at hmap
    obtain ⟨weights, hweights, hshape⟩ := Option.map_eq_some_iff.mp hmap.symm
    exact hshape.symm.trans (hnet.wellFormed.weights_shape k weights hweights)

/-! ## What passes do not read -/

section

variable {other : Network α β}

omit [Zero β] in
theorem forwardBoundaries_congr (hboundary : other.forwardBoundary = net.forwardBoundary)
    (boundaries : List Nat) :
    other.forwardBoundaries boundaries = net.forwardBoundaries boundaries := by
  induction boundaries with
  | nil => rfl
  | cons boundary rest ih => rw [forwardBoundaries, forwardBoundaries, hboundary, ih]

omit [Zero β] in
theorem forwardUnits_congr (hsame : ∃ method dropRate training trainingError source arena,
    other = { net with method, dropRate, training, trainingError, source, arena }) :
    other.forwardUnits = net.forwardUnits := by
  obtain ⟨hboundary, hsizes, houtput⟩ : other.forwardBoundary = net.forwardBoundary ∧
      other.sizes = net.sizes ∧ other.outputLayer = net.outputLayer := by
    obtain ⟨_, _, _, _, _, _, rfl⟩ := hsame
    exact ⟨rfl, rfl, rfl⟩
  rw [forwardUnits, forwardUnits, forwardBoundaries_congr hboundary, hsizes, houtput]

theorem backwardBoundaries_congr (hboundary : other.backwardBoundary = net.backwardBoundary)
    (iteration : Int) (count : Nat) (done : List (Tensor β)) :
    other.backwardBoundaries iteration count done =
      net.backwardBoundaries iteration count done := by
  induction count generalizing done with
  | zero => rfl
  | succ count ih =>
      rw [backwardBoundaries, backwardBoundaries, hboundary]
      simp only [ih]

theorem backwardUnits_congr [Add β] (hsame : ∃ method dropRate training trainingError source arena,
    other = { net with method, dropRate, training, trainingError, source, arena }) :
    other.backwardUnits = net.backwardUnits := by
  obtain ⟨hseeds, hboundary, hsizes, hweights⟩ : other.seedDeltas = net.seedDeltas ∧
      other.backwardBoundary = net.backwardBoundary ∧ other.sizes = net.sizes ∧
      other.weights = net.weights := by
    obtain ⟨_, _, _, _, _, _, rfl⟩ := hsame
    exact ⟨rfl, rfl, rfl, rfl⟩
  funext labels iteration
  rw [backwardUnits, backwardUnits, hseeds, hsizes, hweights]
  exact congrArg _ (funext fun _ => backwardBoundaries_congr hboundary _ _ _)

end

theorem backward_run_of_arena [Add β] {arena : Arena α} (harena : net.arena = some arena)
    (labels : List α) (iteration : Int) :
    backward labels iteration net = match net.backwardUnits labels iteration arena with
      | .ok previous arena => .ok previous { net with previous, arena := some arena }
      | .error fault arena => .error fault { net with arena := some arena } := by
  rw [backward_run, onArena_run_of_arena harena]
  cases net.backwardUnits labels iteration arena <;> rfl

/-! ## Instances -/

omit [Zero β] in
theorem preserves_getOutput (features : Table α) :
    Step.Preserves Sound (getOutput features : Step (Network α β) (List α)) :=
  .bind .get fun _ => .bind (.lift _) fun _ => preserves_forward _

variable [Add β]

theorem preserves_trainByInstance (x : Instance α) (iteration : Int) :
    Step.Preserves Sound (trainByInstance x iteration : Step (Network α β) (List (Tensor β))) :=
  .bind .get fun _ => .bind (.lift _) fun _ => .bind (preserves_forward _) fun _ =>
    .bind (.lift _) fun error => .bind (.modify fun _ hnet => hnet.withTrainingError error)
      fun _ => preserves_backward _ _

/-- A training pass that succeeds has passed its checks, run forward, found the cost and run
backward. -/
theorem parts_of_trainByInstance_ok {x : Instance α} {iteration : Int} {updates : List (Tensor β)}
    {net' : Network α β} (hrun : trainByInstance x iteration net = .ok updates net') :
    ∃ vector label outputs fed trainingError, net.checkInstance x = .ok (vector, label) ∧
      forward (1 :: (net.transformer.apply vector).toList) net = .ok outputs fed ∧
      backward (label.getD (net.transformer.apply vector).toList) iteration
        { fed with trainingError } = .ok updates net' := by
  obtain ⟨_, _, hget, hrun₁⟩ := Step.bind_eq_ok hrun
  cases hget
  obtain ⟨⟨vector, label⟩, _, hlift, hrun₂⟩ := Step.bind_eq_ok hrun₁
  obtain ⟨hcheck, rfl⟩ := Step.lift_eq_ok hlift
  obtain ⟨outputs, fed, hforward, hrun₃⟩ := Step.bind_eq_ok hrun₂
  obtain ⟨trainingError, _, hcost, hrun₄⟩ := Step.bind_eq_ok hrun₃
  obtain ⟨-, rfl⟩ := Step.lift_eq_ok hcost
  obtain ⟨_, _, hset, hbackward⟩ := Step.bind_eq_ok hrun₄
  cases hset
  exact ⟨vector, label, outputs, fed, trainingError, hcheck, hforward, hbackward⟩

/-- A training pass that fails does so in its checks, which change nothing, or else in its forward
run, at the cost of the outputs or in its backward run. -/
theorem parts_of_trainByInstance_error {x : Instance α} {iteration : Int} {fault : Fault}
    {net' : Network α β} (hrun : trainByInstance x iteration net = .error fault net') :
    (net.checkInstance x = .error fault ∧ net' = net) ∨
      ∃ vector label, net.checkInstance x = .ok (vector, label) ∧
        (forward (1 :: (net.transformer.apply vector).toList) net = .error fault net' ∨
          ∃ outputs fed,
            forward (1 :: (net.transformer.apply vector).toList) net = .ok outputs fed ∧
            ((∃ target actual, net.cost.total target actual = .error fault ∧ net' = fed) ∨
              ∃ trainingError, backward (label.getD (net.transformer.apply vector).toList)
                iteration { fed with trainingError } = .error fault net')) := by
  rcases Step.bind_eq_error hrun with hget | ⟨_, _, hget, hrun₁⟩
  · cases hget
  cases hget
  rcases Step.bind_eq_error hrun₁ with hlift | ⟨⟨vector, label⟩, _, hlift, hrun₂⟩
  · exact .inl (Step.lift_eq_error hlift)
  obtain ⟨hcheck, rfl⟩ := Step.lift_eq_ok hlift
  refine .inr ⟨vector, label, hcheck, ?_⟩
  rcases Step.bind_eq_error hrun₂ with hforward | ⟨outputs, fed, hforward, hrun₃⟩
  · exact .inl hforward
  refine .inr ⟨outputs, fed, hforward, ?_⟩
  rcases Step.bind_eq_error hrun₃ with hcost | ⟨trainingError, _, hcost, hrun₄⟩
  · exact .inl ⟨_, _, Step.lift_eq_error hcost⟩
  obtain ⟨-, rfl⟩ := Step.lift_eq_ok hcost
  rcases Step.bind_eq_error hrun₄ with hset | ⟨_, _, hset, hbackward⟩
  · cases hset
  cases hset
  exact .inr ⟨trainingError, hbackward⟩

theorem trainByInstance_previous {x : Instance α} {iteration : Int} {updates : List (Tensor β)}
    {net' : Network α β} (hrun : trainByInstance x iteration net = .ok updates net') :
    net'.previous = updates := by
  obtain ⟨_, _, _, _, _, -, -, hbackward⟩ := parts_of_trainByInstance_ok hrun
  exact backward_previous hbackward

end

end FeedForward.Network
