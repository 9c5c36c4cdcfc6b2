import FeedForward.Proofs.Dense.Leftovers
import FeedForward.Proofs.Lockstep.Layers

/-!
# Passes in lockstep

Networks that differ in nothing that passes compute with, and whose neurons were built alike, give
the same results for the same requests, or the same faults, as long as they draw the same masks. A
pass that succeeds leaves equal outputs and dropped flags in all neurons; a training pass also
leaves equal deltas, and equal buffers in front of the output layer. The random sources may differ.
-/

namespace FeedForward.Network

variable {α β : Type} [Scalar α]

/-! ## Neurons that resemble each other -/

theorem Resembles.related {arena other : Arena α} (hunits : Resembles arena other) :
    Related AkinAt arena other := by
  have hlength := congrArg List.length hunits.fresh_eq
  simp only [freshUnits, List.length_map] at hlength
  refine .of_getElem? hlength fun k layer otherLayer hlayer hother => ?_
  have hfresh : otherLayer.map Neuron.fresh = layer.map Neuron.fresh := by
    have hmap := congrArg (·[k]?) hunits.fresh_eq
    simpa only [freshUnits, List.getElem?_map, hlayer, hother, Option.map_some,
      Option.some.injEq] using hmap
  have hsame := congrArg List.length hfresh
  rw [List.length_map, List.length_map] at hsame
  refine .of_getElem? hsame fun i n m hn hm => Neuron.akin_of_fresh ?_ fun hk => ?_
  · have hplace := congrArg (·[i]?) hfresh
    simpa only [List.getElem?_map, hn, hm, Option.map_some, Option.some.injEq] using hplace
  · have hplace := hunits.map_dropped hk i
    simpa only [hlayer, hother, Option.bind_some, hn, hm, Option.map_some,
      Option.some.injEq] using hplace

theorem Related.freshUnits_eq {arena other : Arena α} (hunits : Related AkinAt arena other) :
    freshUnits other = freshUnits arena :=
  Places.map_eq hunits fun _ _ _ hlayer => hlayer.map_eq fun _ _ _ hnm => hnm.fresh_eq

/-! ## The input layer -/

omit [Scalar α] in
/-- Input units that are fed the same under the same masks are settled. -/
theorem settled_fed {layer other : List (Neuron α)} {flags : Prop}
    (hunits : Places (fun _ => Neuron.Akin flags) layer other) (kept : List Bool)
    (values : List α) :
    Places (fun _ => Neuron.Settled) (setOutputs (markDropped layer kept) values)
      (setOutputs (markDropped other kept) values) := by
  induction layer generalizing other kept values with
  | nil => cases hunits; exact .nil
  | cons n layer ih =>
      cases hunits with
      | cons hhead htail =>
          cases kept with
          | nil => exact .nil
          | cons keep kept =>
              cases values with
              | nil => exact .nil
              | cons value values =>
                  obtain ⟨_, _, delta, buffer, rfl, _⟩ := hhead
                  exact .cons ⟨delta, buffer, rfl⟩ (ih htail kept values)

/-- The units with the values of one input put out. -/
theorem settledTo_fedUnits {net other : Network α β} {values : List α}
    (hunits : Related AkinAt net.units other.units)
    (hvalues : values.length = (net.units.headD []).length)
    (hmasks : other.drawn.1 = net.drawn.1) :
    Related (SettledTo 0) (net.fedUnits values).1 (other.fedUnits values).1 ∧
      (net.fedUnits values).2 = net.drawn.2 ∧ (other.fedUnits values).2 = other.drawn.2 := by
  rw [drawn, drawn] at hmasks
  rw [fedUnits, fedUnits, drawn, drawn]
  generalize net.units = arena at hunits hvalues hmasks ⊢
  generalize other.units = otherArena at hunits hmasks ⊢
  cases hunits with
  | nil => exact ⟨.nil, by cases values <;> rfl, by cases values <;> rfl⟩
  | @cons _ layer otherLayer rest otherRest hhead htail =>
      rw [List.headD_cons] at hvalues hmasks
      rw [List.headD_cons, List.headD_cons, feedInputs_eq hvalues,
        feedInputs_eq (hvalues.trans hhead.length_eq.symm)]
      rw [List.headD_cons] at hmasks
      dsimp only
      rw [hmasks]
      refine ⟨.cons ?_ (htail.mono fun k _ _ hlayer => ?_), rfl, rfl⟩
      · exact (settled_fed hhead _ _).mono fun _ _ _ hnm => ⟨hnm.akin, fun _ => hnm⟩
      · exact hlayer.mono fun _ _ _ hnm => ⟨hnm, fun hle => absurd hle (Nat.not_succ_le_zero k)⟩

/-! ## Networks -/

/-- Networks differ at most in the name of the method, the drop rate, the training flag, the training
error, the random source and the neurons. The names mean the same, the neurons were built alike, and
the next masks are the same. -/
structure Mates (net other : Network α β) : Prop where
  same : ∃ method dropRate training trainingError source arena,
    other = { net with method, dropRate, training, trainingError, source, arena }
  method_eq : TrainingMethod.ofName other.method = TrainingMethod.ofName net.method
  related : Related AkinAt net.units other.units
  masks_eq : other.drawn.1 = net.drawn.1

/-- What passes leave of two networks besides the neurons: each random source after its masks. The
neurons are those of before but for what passes leave in them. -/
def Ran (unit : Nat → Neuron α → Neuron α → Prop) (net other s t : Network α β) : Prop :=
  ∃ arena otherArena, s = { net with source := net.drawn.2, arena := some arena } ∧
    t = { other with source := other.drawn.2, arena := some otherArena } ∧
    Related unit arena otherArena ∧ freshUnits arena = freshUnits net.units

theorem Mates.stretched {net other : Network α β} (hmates : Mates net other) (hnet : net.Stretched)
    (houtput : net.outputLayer.isSome) : other.Stretched := by
  have hfits : ∀ arena, other.arena = some arena → net.Fits arena := by
    intro arena harena
    have hunits : other.units = arena := by rw [units, harena, Option.getD_some]
    exact hnet.fits_units.of_fresh (hunits ▸ hmates.related.freshUnits_eq)
  obtain ⟨method, dropRate, training, trainingError, source, arena, rfl⟩ := hmates.same
  exact hnet.of_layers (fun _ => houtput) hfits

/-! ## Checked requests -/

omit [Scalar α] in
theorem shape_of_checkFeatures {net : Network α β} {features : Table α} {vector : Tensor α}
    (hcheck : net.checkFeatures features = .ok vector) :
    features = some vector ∧ vector.shape = [net.inputWidth] := by
  simp only [checkFeatures, Check.throw_bind, Check.bind_eq_ok_iff] at hcheck
  obtain ⟨_, _, ⟨checked, xs⟩, hvector, hrest⟩ := hcheck
  obtain ⟨hfeatures, hshape, -⟩ := vectorOf_eq_ok_iff.mp hvector
  split at hrest
  next => cases hrest
  next hcount =>
    cases hrest
    exact ⟨hfeatures, Decidable.not_not.mp hcount ▸ hshape⟩

omit [Scalar α] in
theorem length_of_checkFeatures {net : Network α β} {features : Table α} {vector : Tensor α}
    (hcheck : net.checkFeatures features = .ok vector) :
    vector.toList.length = net.inputWidth :=
  (vectorOf_eq_ok .input (shape_of_checkFeatures hcheck).2).2

omit [Scalar α] in
theorem length_of_checkInstance {net : Network α β} {given : Instance α} {vector : Tensor α}
    {label : Option (List α)} (hcheck : net.checkInstance given = .ok (vector, label)) :
    vector.toList.length = net.inputWidth := by
  simp only [checkInstance, Check.throw_bind, Check.bind_eq_ok_iff] at hcheck
  obtain ⟨_, _, _, _, ⟨checked, xs⟩, hvector, hrest⟩ := hcheck
  obtain ⟨_, _, rfl⟩ := vectorOf_eq_ok_iff.mp hvector
  split at hrest
  next => cases hrest
  next hcount =>
    obtain ⟨_, _, hlabel⟩ := Check.bind_eq_ok_iff.mp hrest
    obtain ⟨_, _, hpair⟩ := Check.bind_eq_ok_iff.mp hlabel
    cases hpair
    exact Decidable.not_not.mp hcount

/-! ## Passes -/

section

variable [Precision α β] {net other : Network α β} (hnet : net.Stretched) {last : Nat}
  (houtput : net.outputLayer = some last)

include hnet houtput

theorem Stretched.forward_run (values : List α) :
    forward values net =
      Step.mapState (net.fed values).withArena (net.forwardUnits (net.fedUnits values).1) := by
  rw [forward, Step.bind_run, hnet.neurons_run houtput]
  have hunits : (net.fed values).arena = some (net.fedUnits values).1 := rfl
  change onArena (net.withArena net.units).forwardUnits (net.fed values) = _
  have hforward : (net.withArena net.units).forwardUnits = net.forwardUnits :=
    forwardUnits_congr ⟨_, _, _, _, _, _, rfl⟩
  rw [hforward]
  exact onArena_run_of_arena hunits

/-- Runs forward on the same values. -/
theorem Mates.agree_forward (hmates : Mates net other) {values : List α}
    (hvalues : values.length = net.width 0) :
    Step.Agree (Ran (fun _ => Neuron.Settled) net other) (Ran AkinAt net other) (forward values net)
      (forward values other) := by
  obtain ⟨hlast, _⟩ := hnet.output_last houtput
  have hother := hmates.stretched hnet (by rw [houtput]; rfl)
  have hotherOutput : other.outputLayer = some last := by
    obtain ⟨_, _, _, _, _, _, rfl⟩ := hmates.same
    exact houtput
  have hfirst : (net.units.headD []).length = net.width 0 := by
    obtain ⟨layer, hlayer, hlength⟩ := hnet.fits_units.exists_layer (show 0 < _ by omega)
    rw [List.headD_eq_head?_getD, List.head?_eq_getElem?, hlayer, Option.getD_some, hlength]
  obtain ⟨hfed, hsource, hotherSource⟩ :=
    settledTo_fedUnits hmates.related (hvalues.trans hfirst.symm) hmates.masks_eq
  have hfits := hnet.fits_units.of_fresh (net.freshUnits_fedUnits values)
  rw [hnet.forward_run houtput, hother.forward_run hotherOutput, forwardUnits_congr hmates.same,
    fed, fed, hsource, hotherSource]
  have hrun := (hnet.agree_forwardUnits hfits (by omega) hfed).keep
    (keeps_forwardUnits net Neuron.overlooks_fresh)
  refine hrun.mapState (fun arena otherArena hdone => ?_) fun arena otherArena hdone => ?_
  all_goals
    exact ⟨arena, otherArena, rfl, rfl, hdone.2, hdone.1.trans (net.freshUnits_fedUnits values)⟩

omit [Precision α β] in
/-- A bias and transformed features of the right number make up the values of the input layer. -/
theorem Stretched.length_values (htransformer : KeepsCount net.transformer) {vector : Tensor α}
    (hvector : vector.toList.length = net.inputWidth) (bias : α) :
    (bias :: (net.transformer.apply vector).toList).length = net.width 0 := by
  obtain ⟨_, _, _, hwell⟩ := hnet.wellFormed
  obtain ⟨hlast, hpositive⟩ := hnet.output_last houtput
  have hwidth := inputWidth_add_one hwell (show 1 < net.sizes.length by omega)
  rw [List.length_cons, htransformer vector, hvector]
  exact hwidth

/-- Requests for outputs. A request that is refused changes nothing. -/
theorem Mates.agree_getOutput (hmates : Mates net other)
    (htransformer : KeepsCount net.transformer) (features : Table α) :
    Step.Agree (Ran (fun _ => Neuron.Settled) net other)
      (fun s t => s = net ∧ t = other ∨ Ran AkinAt net other s t)
      (getOutput features net) (getOutput features other) := by
  have hcheck : other.checkFeatures features = net.checkFeatures features ∧
      other.transformer = net.transformer := by
    obtain ⟨_, _, _, _, _, _, rfl⟩ := hmates.same
    exact ⟨rfl, rfl⟩
  rw [getOutput, Step.bind_run, Step.get_run, Step.bind_run, Step.get_run]
  dsimp only
  rw [hcheck.1, hcheck.2]
  refine .lift_bind (.inl ⟨rfl, rfl⟩) fun vector hvector => ?_
  have hvalues := hnet.length_values houtput htransformer (length_of_checkFeatures hvector)
    inferenceBias
  exact (hmates.agree_forward hnet houtput hvalues).mono (fun _ _ hran => hran)
    fun _ _ hran => .inr hran

variable [Add β] [Zero β]

/-- What a training pass leaves of two networks: besides the neurons and the random sources they
have the same error and the same last updates, with the extents of the weights. -/
def RanTraining (last : Nat) (net other s t : Network α β) : Prop :=
  ∃ trainingError previous start otherStart, Ran (TrainedFrom 0 last) net other start otherStart ∧
    previous.map Tensor.shape = net.weights.map Tensor.shape ∧
    s = { start with trainingError, previous } ∧ t = { otherStart with trainingError, previous }

/-- What a training pass leaves of two networks that it fails on. -/
inductive Left (net other : Network α β) : Network α β → Network α β → Prop where
  | refused : Left net other net other
  | forward {s t : Network α β} (hran : Ran AkinAt net other s t) : Left net other s t
  | backward {s t : Network α β} (trainingError : α) (hran : Ran AkinAt net other s t) :
      Left net other { s with trainingError } { t with trainingError }

theorem Stretched.agree_backwardUnits {arena otherArena : Arena α} (hfits : net.Fits arena)
    (hunits : Related (fun _ => Neuron.Settled) arena otherArena) (labels : List α)
    (iteration : Int) :
    Step.Agree (Related (TrainedFrom 0 last)) (Related fun _ => Neuron.Settled)
      (net.backwardUnits labels iteration arena)
      (net.backwardUnits labels iteration otherArena) := by
  have hlast := (hnet.output_last houtput).1
  have hseeds := (agree_seedDeltas houtput labels hunits).keep
    (net.keeps_seedDeltas Neuron.overlooks_fresh labels)
  refine .bind (hseeds.mono (fun _ _ hdone => hdone) fun _ _ hdone => hdone.2)
    fun _ seeded otherSeeded hdone => ?_
  have hcount : net.sizes.length - 1 = last := by omega
  rw [hcount]
  exact hnet.agree_backwardBoundaries (Nat.le_refl last) iteration _ (hfits.of_fresh hdone.1)
    hdone.2

/-- Training passes on an instance. -/
theorem Mates.agree_trainByInstance (hmates : Mates net other)
    (htransformer : KeepsCount net.transformer) (x : Instance α) (iteration : Int) :
    Step.Agree (RanTraining last net other) (Left net other) (trainByInstance x iteration net)
      (trainByInstance x iteration other) := by
  have hcheck : other.checkInstance x = net.checkInstance x := by
    have hmethod := hmates.method_eq
    obtain ⟨_, _, _, _, _, _, rfl⟩ := hmates.same
    rw [checkInstance, checkInstance, hmethod]
    rfl
  have hother : other.transformer = net.transformer ∧ other.cost = net.cost := by
    obtain ⟨_, _, _, _, _, _, rfl⟩ := hmates.same
    exact ⟨rfl, rfl⟩
  rw [trainByInstance, Step.bind_run, Step.get_run, Step.bind_run, Step.get_run]
  dsimp only
  rw [hcheck, hother.1, hother.2]
  refine .lift_bind .refused fun checked hchecked => ?_
  obtain ⟨vector, label⟩ := checked
  dsimp only
  have hvalues := hnet.length_values houtput htransformer (length_of_checkInstance hchecked) 1
  have hforward := (hmates.agree_forward hnet houtput hvalues).mono (fun _ _ hran => hran)
    fun _ _ hran => Left.forward hran
  refine .bind hforward fun outputs s t hran => ?_
  obtain ⟨arena, otherArena, rfl, rfl, hunits, hfresh⟩ := hran
  have hakin : Related AkinAt arena otherArena := hunits.mono fun _ _ _ hnm => hnm.akin
  refine .lift_bind (.forward ⟨arena, otherArena, rfl, rfl, hakin, hfresh⟩) fun error _ => ?_
  rw [Step.bind_run, Step.modify_run, Step.bind_run, Step.modify_run]
  dsimp only
  have hunitsRun (source : Generator) (arena : Option (Arena α)) :
      ({ net with source, trainingError := error, arena } : Network α β).backwardUnits =
        net.backwardUnits ∧
      ({ other with source, trainingError := error, arena } : Network α β).backwardUnits =
        net.backwardUnits := by
    obtain ⟨_, _, _, _, _, _, rfl⟩ := hmates.same
    exact ⟨backwardUnits_congr ⟨_, _, _, _, _, _, rfl⟩, backwardUnits_congr ⟨_, _, _, _, _, _, rfl⟩⟩
  rw [backward_run_of_arena rfl, backward_run_of_arena rfl, (hunitsRun _ _).1, (hunitsRun _ _).2]
  have hfits := hnet.fits_units.of_fresh hfresh
  have hrun := (hnet.agree_backwardUnits houtput hfits hunits
    (label.getD (net.transformer.apply vector).toList) iteration).keep
      (keeps_backwardUnits net Neuron.overlooks_fresh _ _)
  have hshapes (previous : List (Tensor β)) (after : Arena α) (hdone : net.backwardUnits
      (label.getD (net.transformer.apply vector).toList) iteration arena = .ok previous after) :
      previous.map Tensor.shape = net.weights.map Tensor.shape := shapes_backwardUnits hdone
  generalize net.backwardUnits (label.getD (net.transformer.apply vector).toList) iteration arena =
    first at hrun hshapes ⊢
  generalize net.backwardUnits (label.getD (net.transformer.apply vector).toList) iteration
    otherArena = second at hrun ⊢
  cases hrun with
  | @ok previous arena' otherArena' hdone =>
      exact .ok ⟨error, previous, _, _, ⟨arena', otherArena', rfl, rfl, hdone.2,
        hdone.1.trans hfresh⟩, hshapes _ _ rfl, rfl, rfl⟩
  | @error fault arena' otherArena' hfail =>
      exact .error (.backward error ⟨arena', otherArena', rfl, rfl,
        hfail.2.mono fun _ _ _ hnm => hnm.akin, hfail.1.trans hfresh⟩)

end

end FeedForward.Network
