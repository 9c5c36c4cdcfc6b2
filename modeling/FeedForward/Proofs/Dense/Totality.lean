import FeedForward.Proofs.Dense.Training

/-!
# Passes always succeed

On a complete well-formed network no pass fails: features of the right number give as many outputs
as the output layer has units, and an instance that passes the checks gives one update of the right
extents for every weight matrix, which can then be added. Numbers may be anything, units may be
dropped in any layer, and earlier passes may have left anything in the neurons. What the numbers of
outputs and updates are is said elsewhere.
-/

namespace FeedForward.Network

variable {α β : Type} [Scalar α]

/-! ## Checked instances -/

omit [Scalar α] in
theorem vectorOf_eq_ok_iff {use : VectorUse} {table : Table α} {t : Tensor α} {xs : List α} :
    vectorOf use table = .ok (t, xs) ↔ table = some t ∧ t.shape = [xs.length] ∧ xs = t.toList := by
  constructor
  · intro hvector
    rw [vectorOf, Check.bind_eq_ok_iff] at hvector
    obtain ⟨other, htable, hnumbers⟩ := hvector
    rw [lineUp_eq_ok_iff] at htable
    rw [Tensor.vector?] at hnumbers
    split at hnumbers
    next numbers hsome =>
      cases hnumbers
      split at hsome
      next size hshape =>
        cases hsome
        have hlength : t.toList.length = size := by
          rw [Tensor.length_toList, hshape, places, places, Nat.mul_one]
        exact ⟨htable, by rw [hshape, hlength], rfl⟩
      next => cases hsome
    next => cases hnumbers
  · rintro ⟨rfl, hshape, rfl⟩
    exact (vectorOf_eq_ok use hshape).1

section

variable {net : Network α β} (hnet : net.WellFormed) {last : Nat}
  (houtput : net.outputLayer = some last)

include hnet houtput

/-- A label that passes the check is one that the network can be trained towards. -/
theorem exists_labels (features : Tensor α) {given : Option (Table α)} {label : Option (List α)}
    (hlabel : net.checkLabel (net.width last) given = .ok label) :
    ∃ labels, match net.style with
      | .supervised => ∃ label : Tensor α, given = some (some label) ∧
          label.shape = [net.width (net.sizes.length - 1)] ∧ labels = label.toList
      | .unsupervised => net.width (net.sizes.length - 1) = net.inputWidth ∧
          labels = (net.transformer.apply features).toList := by
  have hend : net.sizes.length - 1 = last := by
    have hlast := (hnet.output_last last houtput).1
    omega
  rw [hend]
  cases hstyle : net.style with
  | supervised =>
      cases given with
      | none => simp only [checkLabel, hstyle] at hlabel; cases hlabel
      | some table =>
          simp only [checkLabel, hstyle, Check.throw_bind] at hlabel
          obtain ⟨⟨vector, xs⟩, hvector, hcount⟩ := Check.bind_eq_ok_iff.mp hlabel
          obtain ⟨rfl, hshape, rfl⟩ := vectorOf_eq_ok_iff.mp hvector
          split at hcount
          next => cases hcount
          next hwidth =>
            rw [Decidable.not_not.mp hwidth] at hshape
            exact ⟨vector.toList, vector, rfl, hshape, rfl⟩
  | unsupervised =>
      simp only [checkLabel, hstyle, Check.throw_bind] at hlabel
      split at hlabel
      next => cases hlabel
      next hwidth => exact ⟨_, Decidable.not_not.mp hwidth, rfl⟩

/-- An instance that passes the checks is one that the network can be trained on. -/
theorem exists_trainable {given : Instance α} {checked : Tensor α × Option (List α)}
    (hcheck : net.checkInstance given = .ok checked) :
    ∃ features labels, net.Trainable given features labels := by
  simp only [checkInstance, Check.throw_bind, Check.bind_eq_ok_iff, hnet.checkComplete, houtput]
    at hcheck
  obtain ⟨method, hmethod, _, hlayer, ⟨features, xs⟩, hfeatures, hchecked⟩ := hcheck
  cases hlayer
  obtain ⟨hgiven, hshape, rfl⟩ := vectorOf_eq_ok_iff.mp hfeatures
  split at hchecked
  next => cases hchecked
  next hcount =>
    rw [Decidable.not_not.mp hcount] at hshape
    obtain ⟨outputWidth, hwidth, hrest⟩ := Check.bind_eq_ok_iff.mp hchecked
    obtain ⟨label, hlabel, _⟩ := Check.bind_eq_ok_iff.mp hrest
    have hlast : net.width last = outputWidth := by
      rw [width, List.getD_eq_getElem?_getD, itemAt_eq_ok_iff.mp hwidth, Option.getD_some]
    rw [← hlast] at hlabel
    obtain ⟨labels, hlabels⟩ := exists_labels hnet houtput features hlabel
    exact ⟨features, labels, ⟨method, hmethod⟩, hgiven, hshape, hlabels⟩

end

/-! ## Lessons as the network stands -/

section

/-- Whether the unit at a place takes part in the next pass: an input unit by the mask that is drawn
for it, any other one unless it is dropped. -/
def present (net : Network α β) : Nat → Nat → Bool
  | 0, i => net.drawn.1.getD i true
  | layer + 1, i => !(net.unitAt? (layer + 1) i).elim false Neuron.dropped

/-- What training on some features and labels starts from as the network stands. -/
def ownLesson (net : Network α β) (features : Tensor α) (labels : List α) (iteration : Int) :
    Lesson α where
  inputs := net.fedInputs 1 features
  live := net.present
  labels := labels
  iteration := iteration

theorem attends_ownLesson (net : Network α β) (features : Tensor α) (labels : List α)
    (iteration : Int) : net.Attends (net.ownLesson features labels iteration) where
  inputs_live := by
    intro i flag hflag
    change (net.drawn.1.getD i true) = flag
    rw [List.getD_eq_getElem?_getD, hflag, Option.getD_some]
  others_live := by
    intro k i n hk hn
    cases k with
    | zero => omega
    | succ layer =>
        change n.dropped = !!(net.unitAt? (layer + 1) i).elim false Neuron.dropped
        rw [hn, Bool.not_not]
        rfl

end

/-! ## Passes -/

/-- Training online adds the updates of a training pass to the weights that the pass leaves. -/
theorem trainOnline_run [Precision α β] [Add β] [Zero β] {net after : Network α β}
    {given : Instance α} {iteration : Int} {updates : List (Tensor β)}
    (hrun : trainByInstance given iteration net = .ok updates after)
    (hshapes : updates.map Tensor.shape = after.weights.map Tensor.shape) :
    trainOnline given iteration net = .ok updates
      { after with weights := List.zipWith Tensor.added after.weights updates } := by
  simp only [trainOnline, Step.bind_run, hrun, updateWeights_run (α := α) hshapes rfl,
    Step.pure_run]

section

variable [Precision α β] [Add β] [Zero β] {net : Network α β} (hnet : net.WellFormed) {last : Nat}
  (houtput : net.outputLayer = some last)

include hnet houtput

/-- Updates have the extents of the weight matrices. -/
theorem shapes_updates (x : Lesson α) :
    ((List.range last).map (net.update x)).map Tensor.shape = net.weights.map Tensor.shape := by
  have hlast := (hnet.output_last last houtput).1
  have hweights := hnet.weights_length
  apply List.ext_getElem?
  intro k
  rw [List.map_map, List.getElem?_map, List.getElem?_map]
  by_cases hk : k < last
  · obtain ⟨weights, hmatrix, hshape⟩ :=
      hnet.exists_weights (show k + 1 < net.sizes.length by omega)
    rw [List.getElem?_range hk, hmatrix, Option.map_some, Option.map_some, hshape]
    change some [_, ((List.range (net.width k)).map _).length] = _
    rw [List.length_map, List.length_range, boundaryShape]
  · rw [List.getElem?_eq_none (by rw [List.length_range]; omega),
      List.getElem?_eq_none (by omega)]
    rfl

variable (htransformer : KeepsCount net.transformer)

include htransformer

/-- What a training pass on a checked instance leaves: the error of the outputs, and in every layer
the outputs of the forward pass beside the deltas of the backward one. -/
theorem exists_trainedLayers {given : Instance α} {features : Tensor α} {label : Option (List α)}
    (hcheck : net.checkInstance given = .ok (features, label)) (iteration : Int)
    (hfits : Scalar.fits (α := α) iteration.toNat = true) :
    let labels := label.getD (net.transformer.apply features).toList
    let x := net.ownLesson features labels iteration
    x.inputs.length = net.width 0 ∧ labels.length = net.width last ∧
      ∃ updates after arena, trainByInstance given iteration net = .ok updates after ∧
        after.arena = some arena ∧
        after.trainingError = blockedSum
          (List.zipWith net.cost.apply labels (net.activity x.inputs last)) ∧
        ∀ k < net.sizes.length, ∃ layer, arena[k]? = some layer ∧
          outputsOf layer = net.activity x.inputs k ∧
          layer.map Neuron.delta = net.deltas x k := by
  intro labels x
  obtain ⟨_, _, htrainable⟩ := exists_trainable hnet houtput hcheck
  obtain ⟨_, hsame, hlabels, hlength⟩ := htrainable.checkInstance hnet houtput htransformer
  rw [hcheck] at hsame
  cases hsame
  subst hlabels
  have hlast := (hnet.output_last last houtput).1
  obtain ⟨hinputs, hready, hrun⟩ := trainByInstance_run (x := x) hnet houtput htransformer
    (net.attends_ownLesson features labels iteration) rfl htrainable hfits
  obtain ⟨houtputs, hdeltas⟩ := trainedFrom_zero x hnet hinputs hready.fits
  rw [outputsOf_settled hnet (by omega) hinputs] at houtputs
  refine ⟨hinputs, hlength, _, _, _, hrun, rfl, rfl, fun k hk => ?_⟩
  have houtput := congrArg (·[k]?) houtputs
  have hdelta := congrArg (·[k]?) hdeltas
  simp only [List.getElem?_map, List.getElem?_range hk, Option.map_some] at houtput hdelta
  obtain ⟨layer, hitem, houtput⟩ := Option.map_eq_some_iff.mp houtput
  rw [hitem, Option.map_some, Option.some.injEq] at hdelta
  exact ⟨layer, hitem, houtput, hdelta⟩

/-- Passes on a complete network succeed: features of the right number give an output for every unit
of the output layer, and an instance that passes the checks gives an update for every weight matrix,
with the extents of that matrix, whether the updates are added or not. -/
theorem passes_succeed :
    (∀ features : Tensor α, features.shape = [net.inputWidth] →
      ∃ outputs after, getOutput (some features) net = .ok outputs after ∧
        outputs.length = net.width last) ∧
    ∀ (given : Instance α) (iteration : Int), (∃ checked, net.checkInstance given = .ok checked) →
      Scalar.fits (α := α) iteration.toNat = true →
      (∃ updates after, trainByInstance given iteration net = .ok updates after ∧
        updates.map Tensor.shape = net.weights.map Tensor.shape) ∧
      ∃ updates after, trainOnline given iteration net = .ok updates after ∧
        updates.map Tensor.shape = net.weights.map Tensor.shape := by
  have hlast := (hnet.output_last last houtput).1
  constructor
  · intro features hfeatures
    obtain ⟨hinputs, hrun⟩ := getOutput_run hnet houtput htransformer hfeatures
    exact ⟨_, _, hrun, length_activity hnet hinputs (by omega)⟩
  · rintro given iteration ⟨checked, hcheck⟩ hfits
    obtain ⟨features, labels, htrainable⟩ := exists_trainable hnet houtput hcheck
    obtain ⟨_, _, hrun⟩ := trainByInstance_run hnet houtput htransformer
      (net.attends_ownLesson features labels iteration) rfl htrainable hfits
    have hshapes := shapes_updates hnet houtput (net.ownLesson features labels iteration)
    exact ⟨⟨_, _, hrun, hshapes⟩, _, _, trainOnline_run hrun hshapes, hshapes⟩

end

/-- What the passes of the example give. -/
theorem passes_succeed_practice :
    practice.WellFormed ∧ practice.outputLayer = some 2 ∧ KeepsCount practice.transformer ∧
      (∃ outputs after, getOutput (some (.ofList [1, 0])) practice = .ok outputs after ∧
        outputs.length = practice.width 2) ∧
      (∃ checked, practice.checkInstance exercise = .ok checked) ∧
      (∃ updates after, trainByInstance exercise 7 practice = .ok updates after ∧
        updates.map Tensor.shape = practice.weights.map Tensor.shape) ∧
      ∃ updates after, trainOnline exercise 7 practice = .ok updates after ∧
        updates.map Tensor.shape = practice.weights.map Tensor.shape := by
  have houtput : practice.outputLayer = some 2 := rfl
  have htransformer : KeepsCount practice.transformer := fun _ => rfl
  have hfits : Scalar.fits (α := Double) (7 : Int).toNat = true := rfl
  obtain ⟨label, hcheck, _⟩ :=
    trainable_exercise.checkInstance practice_sound.wellFormed houtput htransformer
  obtain ⟨hask, htrain⟩ := passes_succeed practice_sound.wellFormed houtput htransformer
  exact ⟨practice_sound.wellFormed, houtput, htransformer, hask (.ofList [1, 0]) rfl, ⟨_, hcheck⟩,
    htrain exercise 7 ⟨_, hcheck⟩ hfits⟩

end FeedForward.Network
