import FeedForward.Proofs.Lockstep.Passes

/-!
# Neurons carry no memory between passes

Two networks that differ in the training flag of the network, in the training error and in what
earlier passes have left in their neurons answer every request alike, with one result or with one
fault. The same holds when the neurons of one of them are still to be built. Nothing is demanded of
instances and iterations: requests may be refused, and passes may fail half-way.
-/

namespace FeedForward.Network

variable {α β : Type} [Scalar α]

/-- Networks whose neurons have the same outputs and the same dropped flags. -/
structure SameOutputs (s t : Network α β) : Prop where
  outputs_eq : t.units.map outputsOf = s.units.map outputsOf
  dropped_eq : t.units.map (List.map Neuron.dropped) = s.units.map (List.map Neuron.dropped)

/-- Networks that also have the same training error, last updates and deltas. In front of the output
layer their neurons are equal, and so are the buffers there. -/
structure SameTraining (last : Nat) (s t : Network α β) : Prop extends SameOutputs s t where
  trainingError_eq : t.trainingError = s.trainingError
  previous_eq : t.previous = s.previous
  deltas_eq : t.units.map (List.map Neuron.delta) = s.units.map (List.map Neuron.delta)
  units_eq : ∀ k < last, t.units[k]? = s.units[k]?

omit [Scalar α] in
theorem Related.map_eq {κ : Type} {unit : Nat → Neuron α → Neuron α → Prop} {arena other : Arena α}
    (hunits : Related unit arena other) {view : Neuron α → κ}
    (hview : ∀ k n m, unit k n m → view m = view n) :
    other.map (List.map view) = arena.map (List.map view) :=
  Places.map_eq hunits fun k _ _ hlayer => hlayer.map_eq fun _ => hview k

/-- Networks that resemble each other draw the same masks from the same source. -/
theorem mates_of_resembles {net other : Network α β}
    (hsame : ∃ training trainingError arena, other = { net with training, trainingError, arena })
    (hresembles : Resembles net.units other.units) : Mates net other where
  same := by
    obtain ⟨training, trainingError, arena, hsame⟩ := hsame
    exact ⟨_, _, training, trainingError, _, arena, hsame⟩
  method_eq := by
    obtain ⟨_, _, _, rfl⟩ := hsame
    rfl
  related := hresembles.related
  masks_eq := by
    have hmasks := masks_headD_congr (1 - net.dropRate) hresembles.fresh_eq net.source
    obtain ⟨_, _, _, rfl⟩ := hsame
    exact congrArg Prod.fst hmasks

theorem Ran.sameOutputs {net other s t : Network α β}
    (hran : Ran (fun _ => Neuron.Settled) net other s t) : SameOutputs s t := by
  obtain ⟨arena, otherArena, rfl, rfl, hunits, _⟩ := hran
  refine ⟨?_, hunits.map_eq fun _ _ _ hnm => ?_⟩
  · exact hunits.map_eq fun _ n m hnm => by
      obtain ⟨_, _, rfl⟩ := hnm
      rfl
  · obtain ⟨_, _, rfl⟩ := hnm
    rfl

theorem RanTraining.sameTraining {last : Nat} {net other s t : Network α β}
    (hlast : last + 1 = net.sizes.length) (hfits : net.Fits net.units)
    (hran : RanTraining last net other s t) : SameTraining last s t := by
  obtain ⟨error, previous, _, _, ⟨arena, otherArena, rfl, rfl, hunits, hfresh⟩, _, rfl, rfl⟩ := hran
  have hlength := (hfits.of_fresh hfresh).length_eq
  have hseeded : Related (fun _ => Neuron.Seeded) arena otherArena :=
    Places.mono_of_lt hunits fun k _ _ hk hlayer =>
      hlayer.mono fun _ _ _ hnm => hnm.2.1 (Nat.zero_le k) (by omega)
  have hview : ∀ {κ : Type} (view : Neuron α → κ),
      (∀ (n : Neuron α) buffer, view { n with buffer } = view n) →
      otherArena.map (List.map view) = arena.map (List.map view) :=
    fun view hsame => hseeded.map_eq fun _ n m hnm => by
      obtain ⟨buffer, rfl⟩ := hnm
      exact hsame n buffer
  refine ⟨⟨hview _ fun _ _ => rfl, hview _ fun _ _ => rfl⟩, rfl, rfl, hview _ fun _ _ => rfl,
    fun k hk => ?_⟩
  change otherArena[k]? = arena[k]?
  rcases Places.getElem? hunits k with ⟨hnone, hother⟩ | ⟨layer, otherLayer, hlayer, hother, hsame⟩
  · rw [hnone, hother]
  · have heq : otherLayer.map id = layer.map id :=
      hsame.map_eq fun _ n m hnm => hnm.2.2 (Nat.zero_le k) hk
    rw [hlayer, hother, ← List.map_id otherLayer, heq, List.map_id]

/-- Passes do not remember: networks that agree in all but what passes leave in the neurons give the
same results or the same faults. A request for outputs that succeeds leaves the same outputs and
dropped flags everywhere, and a training pass that succeeds also leaves the same errors, updates and
deltas, and the same buffers in front of the output layer. -/
theorem passes_forget [Precision α β] [Add β] [Zero β] {net other : Network α β}
    (hnet : net.Stretched) {last : Nat} (houtput : net.outputLayer = some last)
    (htransformer : KeepsCount net.transformer)
    (hsame : ∃ training trainingError arena, other = { net with training, trainingError, arena })
    (hresembles : Resembles net.units other.units) :
    (∀ features, Step.Agree SameOutputs (fun _ _ => True) (getOutput features net)
      (getOutput features other)) ∧
    ∀ x iteration, Step.Agree (SameTraining last) (fun _ _ => True) (trainByInstance x iteration net)
      (trainByInstance x iteration other) := by
  have hmates := mates_of_resembles hsame hresembles
  have hlast := (hnet.output_last houtput).1
  refine ⟨fun features => ?_, fun x iteration => ?_⟩
  · exact (hmates.agree_getOutput hnet houtput htransformer features).mono
      (fun _ _ hran => hran.sameOutputs) fun _ _ _ => trivial
  · exact (hmates.agree_trainByInstance hnet houtput htransformer x iteration).mono
      (fun _ _ hran => hran.sameTraining hlast hnet.fits_units) fun _ _ _ => trivial

/-- The network with other outputs, deltas and buffers, and with all input units dropped. -/
def scrambled (net : Network α β) : Network α β :=
  { net with
    training := !net.training
    trainingError := 0.5
    arena := some (net.units.mapIdx fun k layer => layer.map fun n =>
      { n with
        output := 0.7
        delta := 0.3
        buffer := .empty 9
        dropped := if k = 0 then true else n.dropped }) }

theorem resembles_scrambled (net : Network α β) : Resembles net.units net.scrambled.units where
  fresh_eq := by
    change List.map (List.map Neuron.fresh) (List.mapIdx _ net.units) = _
    rw [map_mapIdx]
    refine List.mapIdx_eq_iff.mpr fun k => ?_
    rw [freshUnits, List.getElem?_map]
    refine congrArg (Option.map · _) (funext fun layer => ?_)
    rw [List.map_map]
    rfl
  dropped_eq k hk := by
    change Option.map _ ((List.mapIdx _ net.units)[k]?) = _
    rw [List.getElem?_mapIdx, Option.map_map]
    refine congrArg (Option.map · _) (funext fun layer => ?_)
    rw [Function.comp_apply, List.map_map]
    refine List.map_congr_left fun n _ => ?_
    exact if_neg (Nat.ne_of_gt hk)

/-- Passes on neurons that have been trained and on others full of leftovers, under random drops. -/
theorem passes_forget_practice :
    practice.Stretched ∧ practice.outputLayer = some 2 ∧ KeepsCount practice.transformer ∧
      (∃ training trainingError arena,
        practice.scrambled = { practice with training, trainingError, arena }) ∧
      Resembles practice.units practice.scrambled.units ∧
      (∀ features, Step.Agree SameOutputs (fun _ _ => True) (getOutput features practice)
        (getOutput features practice.scrambled)) ∧
      ∀ x iteration, Step.Agree (SameTraining 2) (fun _ _ => True)
        (trainByInstance x iteration practice) (trainByInstance x iteration practice.scrambled) := by
  have hnet := practice_sound.wellFormed.stretched
  have houtput : practice.outputLayer = some 2 := rfl
  have htransformer : KeepsCount practice.transformer := fun _ => rfl
  have hsame : ∃ training trainingError arena,
      practice.scrambled = { practice with training, trainingError, arena } := ⟨_, _, _, rfl⟩
  have hresembles := resembles_scrambled practice
  exact ⟨hnet, houtput, htransformer, hsame, hresembles,
    passes_forget hnet houtput htransformer hsame hresembles⟩

end FeedForward.Network
