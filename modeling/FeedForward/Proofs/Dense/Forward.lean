import FeedForward.Proofs.Dense.Activity
import FeedForward.Proofs.Network.History
import FeedForward.Proofs.Registry

/-!
# Forward passes are dense

Asking a complete well-formed network for outputs computes the dense recursion over its layers from
the transformed features behind the bias, of which each is multiplied by a mask drawn for its unit.
Afterwards every neuron holds the output that the recursion has in its place. This holds for all
scalars, whatever the neurons held before; nothing is said about how far rounded numbers are from
exact ones.
-/

namespace FeedForward.Network

variable {α β : Type} [Scalar α]

/-! ## Masks -/

/-- Whether each of some units is kept, by a draw for each one under training in order, and the
random source after the draws. Units that are not under training are kept. -/
def masks (keep : α) : List (Neuron α) → Generator → List Bool × Generator
  | [], source => ([], source)
  | n :: layer, source =>
    let (kept, source) := if n.training then source.happens keep else (true, source)
    let (rest, source) := masks keep layer source
    (kept :: rest, source)

/-- Values times their masks, which are one for units that are kept and zero for others. -/
def masked (values : List α) (kept : List Bool) : List α :=
  List.zipWith (fun value kept => value * (if kept then 1 else 0)) values kept

/-- The units of a layer, dropped unless they are kept. -/
def markDropped (layer : List (Neuron α)) (kept : List Bool) : List (Neuron α) :=
  List.zipWith (fun n kept => { n with dropped := !kept }) layer kept

/-- The units of all layers, where those of the input layer are dropped unless they are kept. -/
def markInputs (kept : List Bool) : Arena α → Arena α
  | [] => []
  | layer :: rest => markDropped layer kept :: rest

theorem fresh_markDropped {layer : List (Neuron α)} {kept : List Bool}
    (hlength : kept.length = layer.length) :
    (markDropped layer kept).map Neuron.fresh = layer.map Neuron.fresh :=
  map_zipWith_of_left (fun _ _ => rfl) hlength

omit [Scalar α] in
theorem dropped_markDropped {layer : List (Neuron α)} {kept : List Bool}
    (hlength : kept.length = layer.length) :
    (markDropped layer kept).map Neuron.dropped = kept.map (!·) :=
  map_zipWith_of_right (fun _ _ => rfl) hlength

theorem length_masks (keep : α) (layer : List (Neuron α)) (source : Generator) :
    (masks keep layer source).1.length = layer.length := by
  induction layer generalizing source with
  | nil => rfl
  | cons n layer ih => simp [masks, ih]

/-- Feeding values marks the units by their masks and puts out the masked values. -/
theorem feedInputs_eq {keep : α} {layer : List (Neuron α)} {values : List α} {source : Generator}
    (hlength : values.length = layer.length) :
    feedInputs keep layer values source =
      (setOutputs (markDropped layer (masks keep layer source).1)
        (masked values (masks keep layer source).1), (masks keep layer source).2) := by
  induction layer generalizing values source with
  | nil => cases values <;> rfl
  | cons n layer ih =>
      cases values with
      | nil => simp at hlength
      | cons value values =>
          simp only [feedInputs, feedInput, masks, ih (by simpa using hlength)]
          rfl

/-! ## Boundaries -/

/-- The neurons of all layers with the outputs of the dense recursion. -/
def settled [Precision α β] (net : Network α β) (inputs : List α) (arena : Arena α) : Arena α :=
  arena.mapIdx fun k layer => setOutputs layer (net.activity inputs k)

/-- The neurons of all layers up to a given one with the outputs of the dense recursion. -/
def settledTo [Precision α β] (net : Network α β) (inputs : List α) (reached : Nat)
    (arena : Arena α) : Arena α :=
  arena.mapIdx fun k layer =>
    if k ≤ reached then setOutputs layer (net.activity inputs k) else layer

/-- Settling one more layer. -/
theorem settledTo_succ [Precision α β] (net : Network α β) (inputs : List α) {reached : Nat}
    {arena : Arena α} {layer : List (Neuron α)} (hlayer : arena[reached + 1]? = some layer) :
    (net.settledTo inputs reached arena).set (reached + 1)
      (setOutputs layer (net.activity inputs (reached + 1))) =
      net.settledTo inputs (reached + 1) arena := by
  rw [settledTo, settledTo]
  refine set_mapIdx hlayer (if_pos (Nat.le_refl _)) fun k hk => ?_
  have hiff : k ≤ reached ↔ k ≤ reached + 1 := by omega
  simp only [hiff]

/-- One boundary: the layer behind it takes what its rows make of the outputs in front, whatever
the neurons have held before. -/
theorem forwardBoundary_set [Precision α β] {net : Network α β} (hnet : net.WellFormed)
    {boundary : Nat} (hboundary : boundary + 1 < net.sizes.length) {arena : Arena α}
    {front layer : List (Neuron α)} (hfront : arena[boundary]? = some front)
    (hfrontLength : front.length = net.width boundary)
    (hlayer : arena[boundary + 1]? = some layer)
    (hlength : layer.length = net.width (boundary + 1))
    (hstands : ∀ i n, layer[i]? = some n → net.Stands (boundary + 1) i n) :
    net.forwardBoundary boundary arena = .ok () (arena.set (boundary + 1)
      (setOutputs layer (net.layerOutputs boundary (outputsOf front)))) := by
  obtain ⟨weights, hweights, hshape⟩ := hnet.exists_weights hboundary
  have houtputs : (outputsOf front).length = net.width boundary := by
    rw [outputsOf, List.length_map, hfrontLength]
  have hrun := forwardLayer_run hnet hboundary hweights houtputs hlength hstands
  simp only [forwardBoundary, Step.bind_run, Step.lift_run, itemAt_eq_ok_iff.mpr hweights,
    Tensor.rows_eq_ok hshape, Step.get_run, List.getD_eq_getElem?_getD, hfront, Option.getD_some,
    Step.onItem_run hlayer hrun]

section

variable [Precision α β] {net : Network α β} (hnet : net.WellFormed) {arena : Arena α}
  (hfits : net.Fits arena) {inputs : List α} (hinputs : inputs.length = net.width 0)

include hnet hfits hinputs

/-- One boundary between settled layers. -/
theorem forwardBoundary_run (boundary : Nat) (hboundary : boundary + 1 < net.sizes.length) :
    net.forwardBoundary boundary (net.settledTo inputs boundary arena) =
      .ok () (net.settledTo inputs (boundary + 1) arena) := by
  obtain ⟨front, hfront, hfrontLength⟩ := hfits.exists_layer (k := boundary) (by omega)
  obtain ⟨layer, hlayer, hlayerLength⟩ := hfits.exists_layer hboundary
  have hset : (net.activity inputs boundary).length = front.length := by
    rw [length_activity hnet hinputs (by omega), hfrontLength]
  have hsettled : (net.settledTo inputs boundary arena)[boundary]? =
      some (setOutputs front (net.activity inputs boundary)) := by
    rw [settledTo, List.getElem?_mapIdx, hfront, Option.map_some, if_pos (Nat.le_refl boundary)]
  have hbehind : (net.settledTo inputs boundary arena)[boundary + 1]? = some layer := by
    rw [settledTo, List.getElem?_mapIdx, hlayer, Option.map_some, if_neg (by omega)]
  rw [forwardBoundary_set hnet hboundary hsettled
    ((length_setOutputs hset).trans hfrontLength) hbehind hlayerLength
    fun i n => hfits.stands (boundary + 1) layer i n hlayer, outputsOf_setOutputs hset]
  exact congrArg _ (settledTo_succ net inputs hlayer)

/-- All boundaries, first to last. -/
theorem forwardBoundaries_run (start count : Nat) (hlast : start + count < net.sizes.length) :
    net.forwardBoundaries (List.range' start count) (net.settledTo inputs start arena) =
      .ok () (net.settledTo inputs (start + count) arena) := by
  -- The invariant is that the layers up to the next boundary are settled.
  induction count generalizing start with
  | zero => rfl
  | succ count ih =>
      have hfirst := forwardBoundary_run hnet hfits hinputs start (by omega)
      have hrest := ih (start + 1) (by omega)
      rw [List.range'_succ, forwardBoundaries, Step.bind_run, hfirst]
      simp only [hrest, show start + 1 + count = start + (count + 1) by omega]

/-- All layers behind the input layer. -/
theorem forwardUnits_run {last : Nat} (houtput : net.outputLayer = some last) :
    net.forwardUnits (net.settledTo inputs 0 arena) =
      .ok (net.activity inputs last) (net.settledTo inputs last arena) := by
  obtain ⟨hlast, _⟩ := hnet.output_last last houtput
  obtain ⟨layer, hlayer, hlength⟩ := hfits.exists_layer (k := last) (by omega)
  have hboundaries := forwardBoundaries_run hnet hfits hinputs 0 last (by omega)
  rw [Nat.zero_add, ← List.range_eq_range'] at hboundaries
  have hitem : (net.settledTo inputs last arena)[last]? =
      some (setOutputs layer (net.activity inputs last)) := by
    rw [settledTo, List.getElem?_mapIdx, hlayer, Option.map_some, if_pos (Nat.le_refl last)]
  have houtputs : outputsOf (setOutputs layer (net.activity inputs last)) =
      net.activity inputs last :=
    outputsOf_setOutputs (by rw [length_activity hnet hinputs (by omega), hlength])
  have hcount : net.sizes.length - 1 = last := by omega
  simp only [forwardUnits, Step.bind_run, hcount, hboundaries, Step.get_run, houtput,
    Option.getD_some, Step.lift_run, itemAt_eq_ok_iff.mpr hitem, Step.pure_run, houtputs]

end

/-! ## Whole passes -/

section

variable [Precision α β]

/-- The masks of the next pass and the random source after it. -/
def drawn (net : Network α β) : List Bool × Generator :=
  masks (1 - net.dropRate) (net.units.headD []) net.source

/-- The recursion depends only on what the layers make of their inputs. -/
theorem activity_congr {net other : Network α β} (hlayers : other.layerOutputs = net.layerOutputs)
    (inputs : List α) (k : Nat) : other.activity inputs k = net.activity inputs k := by
  induction k with
  | zero => rfl
  | succ k ih => rw [activity, activity, ih, hlayers]

theorem settledTo_congr {net other : Network α β}
    (hlayers : other.layerOutputs = net.layerOutputs) : other.settledTo = net.settledTo := by
  funext inputs reached arena
  simp only [settledTo, activity_congr hlayers]

theorem settledTo_eq_settled (net : Network α β) (inputs : List α) (reached : Nat)
    {arena : Arena α} (hlength : arena.length = reached + 1) :
    net.settledTo inputs reached arena = net.settled inputs arena := by
  refine List.mapIdx_eq_mapIdx_iff.mpr fun k hk => ?_
  rw [if_pos (by omega)]

section

variable {net : Network α β} (hnet : net.WellFormed) (hcomplete : 0 < net.sizes.length)

include hnet hcomplete

omit [Precision α β] in
theorem exists_units : ∃ first rest, net.units = first :: rest ∧ first.length = net.width 0 := by
  obtain ⟨layer, hlayer, hlength⟩ := hnet.fits_units.exists_layer hcomplete
  cases hunits : net.units with
  | nil => rw [hunits] at hlayer; cases hlayer
  | cons first rest =>
      obtain rfl : first = layer := by rw [hunits] at hlayer; simpa using hlayer
      exact ⟨first, rest, rfl, hlength⟩

omit [Precision α β] in
theorem length_drawn : net.drawn.1.length = net.width 0 := by
  obtain ⟨first, rest, hunits, hlength⟩ := exists_units hnet hcomplete
  rw [drawn, length_masks, hunits, List.headD_cons, hlength]

omit [Precision α β] in
theorem length_masked_drawn {values : List α} (hvalues : values.length = net.width 0) :
    (masked values net.drawn.1).length = net.width 0 := by
  rw [masked, List.length_zipWith, length_drawn hnet hcomplete, hvalues, Nat.min_self]

omit [Precision α β] in
theorem freshUnits_markInputs :
    freshUnits (markInputs net.drawn.1 net.units) = freshUnits net.units := by
  obtain ⟨first, rest, hunits, hlength⟩ := exists_units hnet hcomplete
  have hdrawn := (length_drawn hnet hcomplete).trans hlength.symm
  rw [hunits, markInputs, freshUnits, List.map_cons, fresh_markDropped hdrawn, List.map_cons]

omit [Precision α β] in
theorem fits_markInputs : net.Fits (markInputs net.drawn.1 net.units) :=
  hnet.fits_units.of_fresh (freshUnits_markInputs hnet hcomplete)

/-- Feeding values into the input layer leaves it with the masked values. -/
theorem fedUnits_eq {values : List α} (hvalues : values.length = net.width 0) :
    net.fedUnits values = (net.settledTo (masked values net.drawn.1) 0
      (markInputs net.drawn.1 net.units), net.drawn.2) := by
  obtain ⟨first, rest, hunits, hlength⟩ := exists_units hnet hcomplete
  have hrest : rest.mapIdx (fun _ layer => layer) = rest :=
    List.mapIdx_eq_iff.mpr fun i => by rw [Option.map_id']
  rw [fedUnits, drawn, hunits, List.headD_cons, feedInputs_eq (hvalues.trans hlength.symm)]
  simp [markInputs, settledTo, activity, hrest]

end

/-- A forward run computes the dense recursion from the masked values. -/
theorem forward_eq {net : Network α β} (hnet : net.WellFormed) {last : Nat}
    (houtput : net.outputLayer = some last) {values : List α}
    (hvalues : values.length = net.width 0) :
    forward values net = .ok (net.activity (masked values net.drawn.1) last)
      { net with
        source := net.drawn.2
        arena := some (net.settled (masked values net.drawn.1)
          (markInputs net.drawn.1 net.units)) } := by
  obtain ⟨hlast, _⟩ := hnet.output_last last houtput
  have hcomplete : 0 < net.sizes.length := by omega
  have hmarked := fits_markInputs hnet hcomplete
  have hrun := forwardUnits_run (hnet.withArena (by rw [houtput]; rfl) hnet.fits_units)
    (hmarked.of_layers rfl rfl rfl) (length_masked_drawn hnet hcomplete hvalues) houtput
  -- The boundaries run on a network that holds its neurons, which the recursion does not read.
  have hlayers : (net.withArena net.units).layerOutputs = net.layerOutputs := rfl
  have hfed := fedUnits_eq hnet hcomplete hvalues
  have hfirst : (net.fedUnits values).1 = net.settledTo (masked values net.drawn.1) 0
      (markInputs net.drawn.1 net.units) := by rw [hfed]
  have hsource : (net.fedUnits values).2 = net.drawn.2 := by rw [hfed]
  rw [activity_congr hlayers, settledTo_congr hlayers, ← hfirst,
    net.settledTo_eq_settled _ last (hmarked.length_eq.trans hlast.symm)] at hrun
  have hforward : forward values net = onArena (net.withArena net.units).forwardUnits
      (net.fed values) := by rw [forward_run hnet, houtput]
  have hunits : (net.fed values).arena = some (net.fedUnits values).1 := rfl
  rw [hforward, onArena_run_of_arena hunits, hrun, fed, hsource]
  rfl

end

/-! ## Instances -/

theorem inputWidth_add_one {net : Network α β} (hnet : net.WellFormed)
    (hmore : 1 < net.sizes.length) : net.inputWidth + 1 = net.width 0 := by
  have hlt := hnet.biasUnits_lt_width (show 0 < net.sizes.length by omega)
  rw [inputWidth, width, List.headD_eq_head?_getD, List.head?_eq_getElem?,
    ← List.getD_eq_getElem?_getD, ← width]
  omega

omit [Scalar α] in
theorem vectorOf_eq_ok (use : VectorUse) {t : Tensor α} {n : Nat} (hshape : t.shape = [n]) :
    vectorOf use (some t) = .ok (t, t.toList) ∧ t.toList.length = n := by
  constructor
  · have hvector : t.vector? = some t.toList := by rw [Tensor.vector?, hshape]
    simp only [vectorOf, lineUp, Check.bind_eq_ok_iff]
    exact ⟨t, rfl, by rw [hvector]; rfl⟩
  · rw [Tensor.length_toList, hshape, places, places, Nat.mul_one]

theorem checkFeatures_eq_ok {net : Network α β} (hnet : net.WellFormed) {last : Nat}
    (houtput : net.outputLayer = some last) {features : Tensor α}
    (hfeatures : features.shape = [net.inputWidth]) :
    net.checkFeatures (some features) = .ok features := by
  obtain ⟨hvector, hlength⟩ := vectorOf_eq_ok .input hfeatures
  simp only [checkFeatures, hnet.checkComplete, houtput, hvector, Check.bind_eq_ok_iff]
  exact ⟨last, rfl, (features, features.toList), rfl, by simp [hlength, Check.pure_eq_ok_iff]⟩

/-- The masked values of the input layer: a bias and the transformed features behind it. -/
def fedInputs (net : Network α β) (bias : α) (features : Tensor α) : List α :=
  masked (bias :: (net.transformer.apply features).toList) net.drawn.1

/-- A transformer gives as many numbers as it is given. -/
def KeepsCount (transformer : Transformer α) : Prop :=
  ∀ t, (transformer.apply t).toList.length = t.toList.length

theorem keepsCount_of_find? {name : String} {transformer : Transformer α}
    (hfind : Transformer.registry.find? name = some transformer) : KeepsCount transformer := by
  have hmem := Registry.mem_of_find? hfind
  simp only [Transformer.registry, List.mem_cons, Prod.mk.injEq, List.not_mem_nil, or_false] at hmem
  intro t
  rcases hmem with ⟨_, rfl⟩ | ⟨_, rfl⟩
  · rfl
  · simp [Transformer.l2Normalize, Tensor.map, Tensor.toList]

/-- A bias and transformed features make up the values of the input layer. -/
theorem length_bias_cons {net : Network α β} (hnet : net.WellFormed)
    (hmore : 1 < net.sizes.length) (htransformer : KeepsCount net.transformer)
    {features : Tensor α} (hfeatures : features.shape = [net.inputWidth]) (bias : α) :
    (bias :: (net.transformer.apply features).toList).length = net.width 0 := by
  have hlength : features.toList.length = net.inputWidth := (vectorOf_eq_ok .input hfeatures).2
  rw [List.length_cons, htransformer features, hlength, inputWidth_add_one hnet hmore]

section

variable [Precision α β] {net : Network α β} (hnet : net.WellFormed)
  (hcomplete : 0 < net.sizes.length) {inputs : List α} (hinputs : inputs.length = net.width 0)

include hnet hcomplete hinputs

theorem freshUnits_settled :
    freshUnits (net.settled inputs (markInputs net.drawn.1 net.units)) = freshUnits net.units := by
  rw [← freshUnits_markInputs hnet hcomplete]
  have hfits := fits_markInputs hnet hcomplete
  apply List.ext_getElem?
  intro k
  rw [freshUnits, List.getElem?_map, List.getElem?_map, settled, List.getElem?_mapIdx]
  by_cases hk : k < net.sizes.length
  · obtain ⟨layer, hlayer, hlength⟩ := hfits.exists_layer hk
    rw [hlayer, Option.map_some, Option.map_some, Option.map_some,
      fresh_setOutputs (by rw [length_activity hnet hinputs hk, hlength])]
  · rw [List.getElem?_eq_none (by rw [hfits.length_eq]; omega)]
    rfl

/-- Settled neurons hold the outputs of the recursion. -/
theorem outputsOf_settled : (net.settled inputs (markInputs net.drawn.1 net.units)).map outputsOf =
    (List.range net.sizes.length).map (net.activity inputs) :=
  (fits_markInputs hnet hcomplete).map_mapIdx fun k layer hk hlength =>
    outputsOf_setOutputs (by rw [length_activity hnet hinputs hk, hlength])

theorem outputsOf_getD_settled {k : Nat} (hk : k < net.sizes.length) :
    outputsOf ((net.settled inputs (markInputs net.drawn.1 net.units)).getD k []) =
      net.activity inputs k := by
  have hlayer := congrArg (·[k]?) (outputsOf_settled hnet hcomplete hinputs)
  simp only [List.getElem?_map, List.getElem?_range hk, Option.map_some] at hlayer
  obtain ⟨layer, hitem, houtputs⟩ := Option.map_eq_some_iff.mp hlayer
  rw [List.getD_eq_getElem?_getD, hitem, Option.getD_some, houtputs]

/-- Settled input units are dropped exactly if they are masked. -/
theorem dropped_settled :
    ((net.settled inputs (markInputs net.drawn.1 net.units)).headD []).map Neuron.dropped =
      net.drawn.1.map (!·) := by
  obtain ⟨first, rest, hunits, hlength⟩ := exists_units hnet hcomplete
  have hdrawn := (length_drawn hnet hcomplete).trans hlength.symm
  have hset := hinputs.trans hlength.symm
  have hmarked : (markDropped first net.drawn.1).length = first.length := by
    rw [markDropped, List.length_zipWith, hdrawn, Nat.min_self]
  rw [hunits, settled, markInputs, List.mapIdx_cons, List.headD_cons, activity,
    dropped_setOutputs (hset.trans hmarked.symm), dropped_markDropped hdrawn]

end

/-- The run that asks a complete network for its outputs. -/
theorem getOutput_run [Precision α β] {net : Network α β} (hnet : net.WellFormed) {last : Nat}
    (houtput : net.outputLayer = some last) (htransformer : KeepsCount net.transformer)
    {features : Tensor α} (hfeatures : features.shape = [net.inputWidth]) :
    (net.fedInputs inferenceBias features).length = net.width 0 ∧
    getOutput (some features) net =
      .ok (net.activity (net.fedInputs inferenceBias features) last)
        { net with
          source := net.drawn.2
          arena := some (net.settled (net.fedInputs inferenceBias features)
            (markInputs net.drawn.1 net.units)) } := by
  obtain ⟨hlast, hpositive⟩ := hnet.output_last last houtput
  have hvalues := length_bias_cons hnet (by omega) htransformer hfeatures inferenceBias
  refine ⟨length_masked_drawn hnet (by omega) hvalues, ?_⟩
  simp only [getOutput, Step.bind_run, Step.get_run, Step.lift_run,
    checkFeatures_eq_ok hnet houtput hfeatures]
  exact forward_eq hnet houtput hvalues

/-- The output of a complete network is the last layer of the dense recursion. Afterwards each
neuron holds the output that the recursion has in its place, an input unit is dropped exactly if it
is masked, and nothing else of the network has changed but the random source. -/
theorem getOutput_eq_activity [Precision α β] {net : Network α β} (hnet : net.WellFormed)
    {last : Nat} (houtput : net.outputLayer = some last)
    (htransformer : KeepsCount net.transformer) {features : Tensor α}
    (hfeatures : features.shape = [net.inputWidth]) :
    ∃ arena, getOutput (some features) net =
        .ok (net.activity (net.fedInputs 0.99999 features) last)
          { net with source := net.drawn.2, arena := some arena } ∧
      arena = net.settled (net.fedInputs 0.99999 features) (markInputs net.drawn.1 net.units) ∧
      arena.map outputsOf =
        (List.range net.sizes.length).map (net.activity (net.fedInputs 0.99999 features)) ∧
      (arena.headD []).map Neuron.dropped = net.drawn.1.map (!·) := by
  obtain ⟨hinputs, hrun⟩ := getOutput_run hnet houtput htransformer hfeatures
  obtain ⟨hlast, hpositive⟩ := hnet.output_last last houtput
  have hcomplete : 0 < net.sizes.length := by omega
  exact ⟨_, hrun, rfl, outputsOf_settled hnet hcomplete hinputs,
    dropped_settled hnet hcomplete hinputs⟩

/-- Three layers with different rules, the last one normalised, under training. -/
def practice : Network Double Single :=
  Network.run [.addLayer (.default 2), .addLayer { LayerPlan.default 2 with rule := Rule.max.key },
    .addLayer ⟨2, true, "softmax", Rule.standard.key⟩, .setDropRate 0.5, .setTraining true,
    .neurons] blank

theorem practice_sound : practice.Sound :=
  (create_sound create_blank).run ⟨trivial, trivial, trivial, trivial, trivial, trivial, trivial⟩

theorem getOutput_eq_activity_practice :
    practice.WellFormed ∧ practice.outputLayer = some 2 ∧ KeepsCount practice.transformer ∧
      (Tensor.ofList [1, 0] : Tensor Double).shape = [practice.inputWidth] ∧
      ∃ arena, getOutput (some (.ofList [1, 0])) practice =
          .ok (practice.activity (practice.fedInputs 0.99999 (.ofList [1, 0])) 2)
            { practice with source := practice.drawn.2, arena := some arena } ∧
        arena = practice.settled (practice.fedInputs 0.99999 (.ofList [1, 0]))
          (markInputs practice.drawn.1 practice.units) ∧
        arena.map outputsOf = (List.range practice.sizes.length).map
          (practice.activity (practice.fedInputs 0.99999 (.ofList [1, 0]))) ∧
        (arena.headD []).map Neuron.dropped = practice.drawn.1.map (!·) := by
  have houtput : practice.outputLayer = some 2 := rfl
  have htransformer : KeepsCount practice.transformer := fun _ => rfl
  have hfeatures : (Tensor.ofList [1, 0] : Tensor Double).shape = [practice.inputWidth] := rfl
  exact ⟨practice_sound.wellFormed, houtput, htransformer, hfeatures,
    getOutput_eq_activity practice_sound.wellFormed houtput htransformer hfeatures⟩

end FeedForward.Network
