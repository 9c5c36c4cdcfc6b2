import FeedForward.Proofs.Dense.Backward

/-!
# Training passes are dense

Training a complete well-formed network on a valid instance gives one update for each weight
matrix, whose numbers are those of the dense recursion of the deltas, narrowed. The updates are
kept as the last ones, the training error is the total cost, and the weights stay. Behind the input
layer no unit may have been dropped by whoever holds the neurons; no pass does that. Nothing is said
about whether the updates reduce the error.
-/

namespace FeedForward.Network

variable {α β : Type} [Scalar α]

/-! ## Instances -/

theorem total_eq_ok (cost : Cost α) {labels outputs : List α}
    (hlength : labels.length = outputs.length) :
    cost.total (.ofList labels) (.ofList outputs) =
      .ok (blockedSum (List.zipWith cost.apply labels outputs)) := by
  have hshape : (Tensor.ofList labels).shape = (Tensor.ofList outputs).shape :=
    congrArg (fun n => [n]) hlength
  obtain ⟨costs, hcosts, _, hlist⟩ := Tensor.zipWith_eq_ok cost.apply hshape
  rw [Cost.total, hcosts]
  change Except.ok (blockedSum costs.toList) = _
  rw [hlist]
  rfl

/-- An instance that a network can be trained on, with its features and the label to be met: the
given one, or the transformed features where the network reproduces its input. -/
structure Trainable (net : Network α β) (lesson : Instance α) (features : Tensor α)
    (labels : List α) : Prop where
  method_ok : ∃ method, TrainingMethod.ofName net.method = .ok method
  features_eq : lesson.features = some features
  features_shape : features.shape = [net.inputWidth]
  labels_eq : match net.style with
    | .supervised => ∃ label : Tensor α, lesson.label = some (some label) ∧
        label.shape = [net.width (net.sizes.length - 1)] ∧ labels = label.toList
    | .unsupervised => net.width (net.sizes.length - 1) = net.inputWidth ∧
        labels = (net.transformer.apply features).toList

section

variable {net : Network α β} {last : Nat} {lesson : Instance α} {features : Tensor α}
  {labels : List α}

omit [Scalar α] in
/-- The label check lets the label of such an instance through. -/
theorem Trainable.checkLabel (htransformer : KeepsCount net.transformer)
    (hlast : last + 1 = net.sizes.length)
    (htrainable : net.Trainable lesson features labels) :
    ∃ label, net.checkLabel (net.width last) lesson.label = .ok label ∧
      label.getD (net.transformer.apply features).toList = labels ∧
      labels.length = net.width last := by
  have hend : net.sizes.length - 1 = last := by omega
  have hlabels := htrainable.labels_eq
  rw [hend] at hlabels
  cases hstyle : net.style with
  | supervised =>
      rw [hstyle] at hlabels
      obtain ⟨label, hlabel, hshape, rfl⟩ := hlabels
      obtain ⟨hvector, hlength⟩ := vectorOf_eq_ok .label hshape
      refine ⟨some label.toList, ?_, rfl, hlength⟩
      simp only [Network.checkLabel, hstyle, hlabel, hvector, Check.bind_eq_ok_iff]
      exact ⟨(label, label.toList), rfl, if_neg (Decidable.not_not.mpr hlength)⟩
  | unsupervised =>
      rw [hstyle] at hlabels
      obtain ⟨hwidth, rfl⟩ := hlabels
      refine ⟨none, ?_, rfl, ?_⟩
      · simp only [Network.checkLabel, hstyle]
        exact if_neg (Decidable.not_not.mpr hwidth)
      · rw [hwidth, htransformer features]
        exact (vectorOf_eq_ok .features htrainable.features_shape).2

/-- What is left to check of an instance whose features are a vector of the right length. -/
theorem checkInstance_of_features (hnet : net.WellFormed) (houtput : net.outputLayer = some last)
    (hgiven : lesson.features = some features) (hfeatures : features.shape = [net.inputWidth]) :
    net.checkInstance lesson = (do
      let _ ← TrainingMethod.ofName net.method
      return (features, ← net.checkLabel (net.width last) lesson.label)) := by
  obtain ⟨hvector, hlength⟩ := vectorOf_eq_ok .features hfeatures
  have hlast := (hnet.output_last last houtput).1
  have hsize : itemAt net.sizes last = .ok (net.width last) := by
    rw [itemAt_eq_ok_iff, width, List.getD_eq_getElem?_getD, List.getElem?_eq_getElem (by omega),
      Option.getD_some]
  have hcomplete : net.checkComplete = .ok last := by rw [hnet.checkComplete, houtput]
  rw [checkInstance, hgiven, hvector, hcomplete]
  cases TrainingMethod.ofName net.method with
  | error fault => rfl
  | ok method => simp [bind, Except.bind, hlength, hsize]

/-- The checks in front of a pass let such an instance through. -/
theorem Trainable.checkInstance (hnet : net.WellFormed) (houtput : net.outputLayer = some last)
    (htransformer : KeepsCount net.transformer)
    (htrainable : net.Trainable lesson features labels) :
    ∃ label, net.checkInstance lesson = .ok (features, label) ∧
      label.getD (net.transformer.apply features).toList = labels ∧
      labels.length = net.width last := by
  obtain ⟨method, hmethod⟩ := htrainable.method_ok
  obtain ⟨hlast, hpositive⟩ := hnet.output_last last houtput
  obtain ⟨label, hlabel, hlabels⟩ := htrainable.checkLabel htransformer hlast
  refine ⟨label, ?_, hlabels⟩
  rw [checkInstance_of_features hnet houtput htrainable.features_eq htrainable.features_shape,
    hmethod, hlabel]
  rfl

end

/-! ## Updates -/

section

variable [Precision α β] [Add β] [Zero β] {net : Network α β}

omit [Precision α β] [Add β] [Zero β] in
theorem getD_drop {xs : List α} {i : Nat} (count : Nat) {x : α}
    (hx : (xs.drop count)[i]? = some x) : xs.getD (i + count) 0 = x := by
  rw [List.getElem?_drop, Nat.add_comm] at hx
  rw [List.getD_eq_getElem?_getD, hx, Option.getD_some]

/-- Each number of an update. -/
theorem entry_update (x : Lesson α) (hnet : net.WellFormed)
    (hinputs : x.inputs.length = net.width 0) {boundary row column : Nat}
    (hboundary : boundary + 1 < net.sizes.length)
    (hrow : row < net.fedWidth (boundary + 1)) (hcolumn : column < net.width boundary) :
    (net.update x boundary).entry row column = .ok (Precision.narrow <|
      if x.live boundary column then
        -net.rate x.iteration boundary column *
          (net.deltas x (boundary + 1)).getD (row + net.biasUnits (boundary + 1)) 0 *
          (net.activity x.inputs boundary).getD column 0 +
          net.momentum boundary column * net.lastUpdate boundary row column
      else 0) := by
  have hlength := length_deltasBehind x hnet hinputs hboundary
  have hdelta := List.getElem?_eq_getElem (hlength.symm ▸ hrow)
  have hvalues : ((List.range (net.width boundary)).map fun column =>
      (net.pushed x boundary column).map (Precision.narrow (β := β)))[column]? =
      some ((net.pushed x boundary column).map Precision.narrow) := by
    rw [List.getElem?_map, List.getElem?_range hcolumn, Option.map_some]
  refine Tensor.entry_ofColumns hrow hvalues ?_
  rw [List.getElem?_map, pushed, List.getElem?_mapIdx, hdelta, Option.map_some, Option.map_some,
    getD_drop _ hdelta]

end

/-! ## Passes -/

section

variable [Precision α β]

/-- What training on some features and labels starts from. Only input units can be out of it, by
the masks that are drawn for them. -/
def lesson (net : Network α β) (features : Tensor α) (labels : List α) (iteration : Int) :
    Lesson α where
  inputs := net.fedInputs 1 features
  live layer i := layer != 0 || net.drawn.1.getD i true
  labels := labels
  iteration := iteration

variable [Add β] [Zero β] {net : Network α β}

/-- Trained neurons keep their outputs and hold the deltas of the recursion. -/
theorem trainedFrom_zero (x : Lesson α) (hnet : net.WellFormed)
    (hinputs : x.inputs.length = net.width 0) {arena : Arena α} (hfits : net.Fits arena) :
    (net.trainedFrom x 0 arena).map outputsOf = arena.map outputsOf ∧
      (net.trainedFrom x 0 arena).map (List.map Neuron.delta) =
        (List.range net.sizes.length).map (net.deltas x) := by
  constructor
  · rw [trainedFrom, map_mapIdx]
    refine List.mapIdx_eq_iff.mpr fun k => ?_
    simp only [List.getElem?_map, if_pos (Nat.zero_le k), outputsOf_trainedUnits]
  · refine hfits.map_mapIdx fun k layer hk hlength => ?_
    rw [if_pos (Nat.zero_le k)]
    exact delta_trainedUnits ((length_deltas x hnet hinputs hk).trans hlength.symm)

/-- A lesson says which units of the network take part: input units by the masks that are drawn for
them, all others unless they are dropped. -/
structure Attends (net : Network α β) (x : Lesson α) : Prop where
  inputs_live : ∀ i flag, net.drawn.1[i]? = some flag → x.live 0 i = flag
  others_live : ∀ k i n, 0 < k → net.unitAt? k i = some n → n.dropped = !x.live k i

omit [Precision α β] [Add β] [Zero β] in
/-- Where no unit behind the input layer is dropped, all of them take part. -/
theorem attends_lesson
    (hkept : ∀ k layer, 0 < k → net.units[k]? = some layer → ∀ n ∈ layer, n.dropped = false)
    (features : Tensor α) (labels : List α) (iteration : Int) :
    net.Attends (net.lesson features labels iteration) where
  inputs_live := by
    intro i flag hflag
    change (net.drawn.1.getD i true) = flag
    rw [List.getD_eq_getElem?_getD, hflag, Option.getD_some]
  others_live := by
    intro k i n hk hn
    obtain ⟨layer, hlayer, hn⟩ := Option.bind_eq_some_iff.mp hn
    rw [hkept k layer hk hlayer n (List.mem_of_getElem? hn)]
    change false = !(k != 0 || _)
    rw [bne_iff_ne.mpr (by omega), Bool.true_or, Bool.not_true]

/-- The run that trains a complete network on a valid instance, whichever units take part. -/
theorem trainByInstance_run (hnet : net.WellFormed) {last : Nat}
    (houtput : net.outputLayer = some last) (htransformer : KeepsCount net.transformer)
    {given : Instance α} {features : Tensor α} {x : Lesson α} (hattends : net.Attends x)
    (hfed : x.inputs = net.fedInputs 1 features)
    (htrainable : net.Trainable given features x.labels)
    (hfits : Scalar.fits (α := α) x.iteration.toNat = true) :
    let settled := net.settled x.inputs (markInputs net.drawn.1 net.units)
    x.inputs.length = net.width 0 ∧ net.ReadyUnits x settled ∧
      trainByInstance given x.iteration net = .ok ((List.range last).map (net.update x))
        { net with
          source := net.drawn.2
          trainingError := blockedSum
            (List.zipWith net.cost.apply x.labels (net.activity x.inputs last))
          previous := (List.range last).map (net.update x)
          arena := some (net.trainedFrom x 0 settled) } := by
  intro settled
  obtain ⟨hlast, hpositive⟩ := hnet.output_last last houtput
  have hcomplete : 0 < net.sizes.length := by omega
  obtain ⟨label, hcheck, hlabel, hlabels⟩ :=
    htrainable.checkInstance hnet houtput htransformer
  have hvalues := length_bias_cons hnet (by omega) htransformer htrainable.features_shape 1
  have hinputs : x.inputs.length = net.width 0 := by
    rw [hfed]
    exact length_masked_drawn hnet hcomplete hvalues
  have hready : net.ReadyUnits x settled := ready_settled hnet hcomplete hinputs hfits
    hattends.inputs_live hattends.others_live
  have hforward : forward (1 :: (net.transformer.apply features).toList) net =
      .ok (net.activity x.inputs last)
        { net with source := net.drawn.2, arena := some settled } := by
    simp only [settled, hfed]
    exact forward_eq hnet houtput hvalues
  have htotal := total_eq_ok net.cost
    (hlabels.trans (length_activity hnet hinputs (show last < net.sizes.length by omega)).symm)
  -- The error is set between the two runs, and the backward run does not read it.
  have hbackward := backward_eq hnet hinputs hready houtput hlabels net.drawn.2
    (blockedSum (List.zipWith net.cost.apply x.labels (net.activity x.inputs last)))
  refine ⟨hinputs, hready, ?_⟩
  rw [trainByInstance]
  simp only [Step.bind_run, Step.get_run, Step.lift_run, hcheck, hlabel, hforward, htotal,
    Step.modify_run]
  exact hbackward

/-- Training a complete network on a valid instance gives one update for each weight matrix, with
the numbers of dense backpropagation. -/
theorem trainByInstance_eq_dense (hnet : net.WellFormed) {last : Nat}
    (houtput : net.outputLayer = some last) (htransformer : KeepsCount net.transformer)
    {given : Instance α} {features : Tensor α} {labels : List α}
    (htrainable : net.Trainable given features labels) {iteration : Int}
    (hfits : Scalar.fits (α := α) iteration.toNat = true)
    (hkept : ∀ k layer, 0 < k → net.units[k]? = some layer → ∀ n ∈ layer, n.dropped = false) :
    let x := net.lesson features labels iteration
    ∃ updates arena, trainByInstance given iteration net = .ok updates
        { net with
          source := net.drawn.2
          trainingError := blockedSum
            (List.zipWith net.cost.apply labels (net.activity x.inputs last))
          previous := updates
          arena := some arena } ∧
      arena.map outputsOf = (List.range net.sizes.length).map (net.activity x.inputs) ∧
      arena.map (List.map Neuron.delta) = (List.range net.sizes.length).map (net.deltas x) ∧
      updates.length = last ∧
      ∀ k < last, ∃ update, updates[k]? = some update ∧ update.shape = net.boundaryShape k ∧
        ∀ row column, row < net.fedWidth (k + 1) → column < net.width k →
          update.entry row column = .ok (Precision.narrow <|
            if x.live k column then
              -net.rate iteration k column *
                (net.deltas x (k + 1)).getD (row + net.biasUnits (k + 1)) 0 *
                (net.activity x.inputs k).getD column 0 +
                net.momentum k column * net.lastUpdate k row column
            else 0) := by
  intro x
  obtain ⟨hinputs, hready, hrun⟩ := trainByInstance_run hnet houtput htransformer
    (attends_lesson hkept features labels iteration) rfl htrainable hfits
  obtain ⟨hlast, hpositive⟩ := hnet.output_last last houtput
  obtain ⟨houtputs, hdeltas⟩ := trainedFrom_zero x hnet hinputs hready.fits
  refine ⟨_, _, hrun, houtputs.trans (outputsOf_settled hnet (by omega) hinputs), hdeltas, ?_, ?_⟩
  · rw [List.length_map, List.length_range]
  · intro k hk
    refine ⟨net.update x k, ?_, ?_, fun row column hrow hcolumn => ?_⟩
    · rw [List.getElem?_map, List.getElem?_range hk, Option.map_some]
    · change [_, ((List.range (net.width k)).map _).length] = _
      rw [List.length_map, List.length_range, boundaryShape]
    · exact entry_update x hnet hinputs (by omega) hrow hcolumn

end

/-- One instance for three layers. -/
def exercise : Instance Double := ⟨some (.ofList [1, 0]), some (some (.ofList [0, 1]))⟩

theorem trainable_exercise : practice.Trainable exercise (.ofList [1, 0]) [0, 1] where
  method_ok := ⟨.gradientDescent, rfl⟩
  features_eq := rfl
  features_shape := rfl
  labels_eq := ⟨.ofList [0, 1], rfl, rfl, rfl⟩

theorem dropped_practice {k : Nat} {layer : List (Neuron Double)}
    (hlayer : practice.units[k]? = some layer) {n : Neuron Double} (hn : n ∈ layer) :
    n.dropped = false := by
  have hnone : ∀ layer ∈ practice.units, ∀ n ∈ layer, n.dropped = false := by decide
  exact hnone layer (List.mem_of_getElem? hlayer) n hn

theorem trainByInstance_eq_dense_practice :
    practice.WellFormed ∧ practice.outputLayer = some 2 ∧ KeepsCount practice.transformer ∧
      practice.Trainable exercise (.ofList [1, 0]) [0, 1] ∧
      Scalar.fits (α := Double) (7 : Int).toNat = true ∧
      let x := practice.lesson (.ofList [1, 0]) [0, 1] 7
      ∃ updates arena, trainByInstance exercise 7 practice = .ok updates
          { practice with
            source := practice.drawn.2
            trainingError := blockedSum
              (List.zipWith practice.cost.apply [0, 1] (practice.activity x.inputs 2))
            previous := updates
            arena := some arena } ∧
        arena.map outputsOf = (List.range practice.sizes.length).map (practice.activity x.inputs) ∧
        arena.map (List.map Neuron.delta) =
          (List.range practice.sizes.length).map (practice.deltas x) ∧
        updates.length = 2 ∧
        ∀ k < 2, ∃ update, updates[k]? = some update ∧ update.shape = practice.boundaryShape k ∧
          ∀ row column, row < practice.fedWidth (k + 1) → column < practice.width k →
            update.entry row column = .ok (Precision.narrow <|
              if x.live k column then
                -practice.rate 7 k column *
                  (practice.deltas x (k + 1)).getD (row + practice.biasUnits (k + 1)) 0 *
                  (practice.activity x.inputs k).getD column 0 +
                  practice.momentum k column * practice.lastUpdate k row column
              else 0) := by
  have houtput : practice.outputLayer = some 2 := rfl
  have htransformer : KeepsCount practice.transformer := fun _ => rfl
  have hfits : Scalar.fits (α := Double) (7 : Int).toNat = true := rfl
  exact ⟨practice_sound.wellFormed, houtput, htransformer, trainable_exercise, hfits,
    trainByInstance_eq_dense practice_sound.wellFormed houtput htransformer trainable_exercise hfits
      fun _ _ _ hlayer _ hn => dropped_practice hlayer hn⟩

end FeedForward.Network
