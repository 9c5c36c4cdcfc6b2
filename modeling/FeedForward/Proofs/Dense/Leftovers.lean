import FeedForward.Proofs.Dense.Totality

/-!
# What passes leave in neurons does not matter

A training pass reads of the neurons only how they were built and which units behind the input layer
are dropped, and it changes neither. Networks whose neurons agree in this much, and which are equal
otherwise but for the training error, are trained alike: they give the same updates and the same
error and use up the same random draws. Nothing is said about the outputs and deltas that are left
in the neurons.
-/

namespace FeedForward.Network

variable {α β : Type} [Scalar α]

/-! ## Neurons that resemble each other -/

/-- Neurons were built alike, and behind the input layer the same units are dropped. -/
structure Resembles (arena other : Arena α) : Prop where
  fresh_eq : freshUnits other = freshUnits arena
  dropped_eq : ∀ k, 0 < k → (other[k]?.map (List.map Neuron.dropped)) =
    arena[k]?.map (List.map Neuron.dropped)

theorem Resembles.refl (arena : Arena α) : Resembles arena arena := ⟨rfl, fun _ _ => rfl⟩

theorem Resembles.symm {arena other : Arena α} (hunits : Resembles arena other) :
    Resembles other arena := ⟨hunits.fresh_eq.symm, fun k hk => (hunits.dropped_eq k hk).symm⟩

theorem Resembles.trans {first second third : Arena α} (hfirst : Resembles first second)
    (hsecond : Resembles second third) : Resembles first third where
  fresh_eq := hsecond.fresh_eq.trans hfirst.fresh_eq
  dropped_eq k hk := (hsecond.dropped_eq k hk).trans (hfirst.dropped_eq k hk)

/-- A change of all neurons that fresh neurons go along with and that drops no unit. -/
theorem Resembles.map {arena other : Arena α} (hunits : Resembles arena other)
    {change : Neuron α → Neuron α} (hfresh : ∀ n, (change n).fresh = change n.fresh)
    (hdropped : ∀ n, (change n).dropped = n.dropped) :
    Resembles (arena.map (List.map change)) (other.map (List.map change)) where
  fresh_eq := by
    have hswap : ∀ arena : Arena α,
        freshUnits (arena.map (List.map change)) = (freshUnits arena).map (List.map change) := by
      intro arena
      simp only [freshUnits, List.map_map, Function.comp_def, hfresh]
    rw [hswap, hswap, hunits.fresh_eq]
  dropped_eq k hk := by
    simp only [List.getElem?_map, Option.map_map, Function.comp_def, List.map_map, hdropped]
    exact hunits.dropped_eq k hk

theorem masks_congr {keep : α} {layer other : List (Neuron α)}
    (hfresh : other.map Neuron.fresh = layer.map Neuron.fresh) (source : Generator) :
    masks keep other source = masks keep layer source := by
  induction layer generalizing other source with
  | nil => rw [List.map_eq_nil_iff.mp hfresh]
  | cons n layer ih =>
      cases other with
      | nil => cases hfresh
      | cons m other =>
          obtain ⟨hm, hrest⟩ := List.cons.inj hfresh
          have htraining : m.fresh.training = n.fresh.training := by rw [hm]
          change m.training = n.training at htraining
          simp only [masks, htraining, ih hrest]

theorem masks_headD_congr (keep : α) {arena other : Arena α}
    (hfresh : freshUnits other = freshUnits arena) (source : Generator) :
    masks keep (other.headD []) source = masks keep (arena.headD []) source := by
  cases arena with
  | nil => rw [List.map_eq_nil_iff.mp hfresh]
  | cons layer arena =>
      cases other with
      | nil => cases hfresh
      | cons otherLayer other => exact masks_congr (List.cons.inj hfresh).1 source

/-- The neurons at one place were built alike. -/
theorem Resembles.map_fresh {arena other : Arena α} (hunits : Resembles arena other) (k i : Nat) :
    (other[k]?.bind (·[i]?)).map Neuron.fresh = (arena[k]?.bind (·[i]?)).map Neuron.fresh := by
  have hlayer := congrArg (·[k]?) hunits.fresh_eq
  simp only [freshUnits, List.getElem?_map] at hlayer
  have hplace := congrArg (Option.bind · (·[i]?)) hlayer
  simpa only [Option.bind_map, Function.comp_def, List.getElem?_map, Option.map_bind] using hplace

/-- Behind the input layer the neurons at one place are both dropped or both not. -/
theorem Resembles.map_dropped {arena other : Arena α} (hunits : Resembles arena other) {k : Nat}
    (hk : 0 < k) (i : Nat) :
    (other[k]?.bind (·[i]?)).map Neuron.dropped = (arena[k]?.bind (·[i]?)).map Neuron.dropped := by
  have hplace := congrArg (Option.bind · (·[i]?)) (hunits.dropped_eq k hk)
  simpa only [Option.bind_map, Function.comp_def, List.getElem?_map, Option.map_bind] using hplace

/-- What is read of an item that may be there depends only on a view of it. -/
theorem elim_eq_of_map {σ κ γ : Type} {view : σ → κ} {item other : Option σ}
    (hview : other.map view = item.map view) (read : κ → γ) (none : γ) :
    other.elim none (fun x => read (view x)) = item.elim none fun x => read (view x) := by
  have helim := congrArg (Option.elim · none read) hview
  simpa only [Option.elim_map, Function.comp_def] using helim

/-! ## Networks that are trained alike -/

/-- Networks differ at most in the training error and in what passes leave in the neurons. -/
structure Alike (net other : Network α β) : Prop where
  same : ∃ trainingError arena, other = { net with trainingError, arena }
  resembles : Resembles net.units other.units

namespace Alike

theorem refl (net : Network α β) : Alike net net := ⟨⟨_, _, rfl⟩, .refl _⟩

variable {net other : Network α β} (halike : Alike net other)

include halike

theorem drawn_eq : other.drawn = net.drawn := by
  have hmasks := masks_headD_congr (1 - net.dropRate) halike.resembles.fresh_eq net.source
  obtain ⟨_, _, rfl⟩ := halike.same
  exact hmasks

theorem present_eq : other.present = net.present := by
  funext k i
  cases k with
  | zero => rw [present, present, halike.drawn_eq]
  | succ k =>
      have hdropped := halike.resembles.map_dropped (Nat.succ_pos k) i
      exact congrArg (!·) (elim_eq_of_map hdropped id false)

theorem ownLesson_eq (features : Tensor α) (labels : List α) (iteration : Int) :
    other.ownLesson features labels iteration = net.ownLesson features labels iteration := by
  have hinputs : other.fedInputs 1 features = net.fedInputs 1 features := by
    rw [fedInputs, fedInputs, halike.drawn_eq]
    obtain ⟨_, _, rfl⟩ := halike.same
    rfl
  rw [ownLesson, ownLesson, hinputs, halike.present_eq]

theorem rate_eq : other.rate = net.rate := by
  funext iteration k i
  have hstored : (other.unitAt? k i).elim 0 Neuron.learningRate =
      (net.unitAt? k i).elim 0 Neuron.learningRate :=
    elim_eq_of_map (halike.resembles.map_fresh k i) Neuron.learningRate 0
  have hrule : other.ruleAt = net.ruleAt := by
    obtain ⟨_, _, rfl⟩ := halike.same
    funext k
    cases k <;> rfl
  rw [rate, rate, hstored, hrule]

theorem momentum_eq : other.momentum = net.momentum := by
  funext k i
  exact elim_eq_of_map (halike.resembles.map_fresh k i) Neuron.momentumWeight 0

variable [Precision α β]

theorem activity_eq : other.activity = net.activity := by
  have hlayers : other.layerOutputs = net.layerOutputs := by
    obtain ⟨_, _, rfl⟩ := halike.same
    rfl
  funext inputs k
  exact activity_congr hlayers inputs k

variable [Add β] [Zero β]

theorem deltas_eq (x : Lesson α) : other.deltas x = net.deltas x := by
  have hactivity := halike.activity_eq
  have hlayers : other.layerDeltas x = net.layerDeltas x := by
    funext layer behind
    rw [layerDeltas, layerDeltas, hactivity]
    obtain ⟨_, _, rfl⟩ := halike.same
    rfl
  have houtputs : other.outputDeltas = net.outputDeltas ∧ other.sizes = net.sizes := by
    obtain ⟨_, _, rfl⟩ := halike.same
    exact ⟨rfl, rfl⟩
  have hbefore : ∀ distance, other.deltasBefore x distance = net.deltasBefore x distance := by
    intro distance
    induction distance with
    | zero => rw [deltasBefore, deltasBefore, hactivity, houtputs.1, houtputs.2]
    | succ distance ih => rw [deltasBefore, deltasBefore, ih, hlayers, houtputs.2]
  funext k
  rw [deltas, deltas, hbefore, houtputs.2]

theorem update_eq (x : Lesson α) : other.update x = net.update x := by
  have hpushed : other.pushed x = net.pushed x := by
    have hdeltas := halike.deltas_eq x
    have hactivity := halike.activity_eq
    have hrate := halike.rate_eq
    have hmomentum := halike.momentum_eq
    obtain ⟨_, _, rfl⟩ := halike.same
    funext boundary column
    simp only [pushed, deltasBehind, hdeltas, hactivity, hrate, hmomentum]
    rfl
  obtain ⟨_, _, rfl⟩ := halike.same
  funext boundary
  rw [update, update, hpushed]
  rfl

omit [Precision α β] [Add β] [Zero β] in
theorem wellFormed (hnet : net.WellFormed) (houtput : net.outputLayer.isSome) :
    other.WellFormed := by
  have hfits : ∀ arena, other.arena = some arena → net.Fits arena := by
    intro arena harena
    have hunits : other.units = arena := by rw [Network.units, harena, Option.getD_some]
    exact hnet.fits_units.of_fresh (hunits ▸ halike.resembles.fresh_eq)
  obtain ⟨_, _, rfl⟩ := halike.same
  exact { hnet with
    arena_complete := fun _ => houtput
    arena_fits := fun arena harena => (hfits arena harena).of_layers rfl rfl rfl }

end Alike

/-! ## Trained neurons -/

section

variable [Precision α β] [Add β] [Zero β] {net : Network α β} (x : Lesson α)

/-- Training changes neither how units were built nor which units are dropped. -/
theorem resembles_trainedFrom (reached : Nat) (arena : Arena α) :
    Resembles arena (net.trainedFrom x reached arena) := by
  have hunit : ∀ k i n, (net.trainedUnit x k i n).fresh = n.fresh ∧
      (net.trainedUnit x k i n).dropped = n.dropped := by
    intro k i n
    rw [trainedUnit]
    split <;> exact ⟨rfl, rfl⟩
  have hview : ∀ {κ : Type} (view : Neuron α → κ),
      (∀ k i n, view (net.trainedUnit x k i n) = view n) → ∀ k (layer : List (Neuron α)),
      (if reached ≤ k then layer.mapIdx (net.trainedUnit x k) else layer).map view =
        layer.map view := by
    intro κ view hview k layer
    split
    · rw [map_mapIdx]
      refine List.mapIdx_eq_iff.mpr fun i => ?_
      simp only [hview, List.getElem?_map]
    · rfl
  constructor
  · rw [freshUnits, trainedFrom, map_mapIdx]
    refine List.mapIdx_eq_iff.mpr fun k => ?_
    simp only [hview Neuron.fresh fun k i n => (hunit k i n).1, List.getElem?_map]
  · intro k hk
    simp only [trainedFrom, List.getElem?_mapIdx, Option.map_map, Function.comp_def,
      hview Neuron.dropped fun k i n => (hunit k i n).2]

omit [Add β] [Zero β] in
/-- A forward run changes neither how units were built nor, behind the input layer, which units are
dropped. -/
theorem resembles_settled {inputs : List α} (hnet : net.WellFormed)
    (hcomplete : 0 < net.sizes.length) (hinputs : inputs.length = net.width 0) :
    Resembles net.units (net.settled inputs (markInputs net.drawn.1 net.units)) := by
  refine ⟨freshUnits_settled hnet hcomplete hinputs, fun k hk => ?_⟩
  obtain ⟨first, rest, hunits, _⟩ := exists_units hnet hcomplete
  obtain ⟨k, rfl⟩ : ∃ next, k = next + 1 := ⟨k - 1, by omega⟩
  rw [settled, List.getElem?_mapIdx, hunits, markInputs, List.getElem?_cons_succ,
    List.getElem?_cons_succ]
  cases hlayer : rest[k]? with
  | none => rfl
  | some layer =>
      have hplace : net.units[k + 1]? = some layer := by
        rw [hunits, List.getElem?_cons_succ, hlayer]
      have hlength := hnet.fits_units.layer_length (k + 1) layer hplace
      have hk : k + 1 < net.sizes.length := by
        rw [← hnet.fits_units.length_eq]
        exact (List.getElem?_eq_some_iff.mp hplace).1
      rw [Option.map_some, Option.map_some, Option.map_some,
        dropped_setOutputs ((length_activity hnet hinputs hk).trans hlength.symm)]

/-- Networks that are alike are trained alike on an instance that passes the checks, and the neurons
resemble those from before the pass again. -/
theorem trainByInstance_alike {other : Network α β} (hnet : net.WellFormed) {last : Nat}
    (houtput : net.outputLayer = some last) (htransformer : KeepsCount net.transformer)
    (halike : Alike net other) {given : Instance α}
    (hcheck : ∃ checked, net.checkInstance given = .ok checked) {iteration : Int}
    (hfits : Scalar.fits (α := α) iteration.toNat = true) :
    ∃ updates trainingError arena otherArena,
      updates.map Tensor.shape = net.weights.map Tensor.shape ∧
      trainByInstance given iteration net = .ok updates
        { net with
          source := net.drawn.2, trainingError
          previous := updates
          arena := some arena } ∧
      trainByInstance given iteration other = .ok updates
        { net with
          source := net.drawn.2, trainingError
          previous := updates
          arena := some otherArena } ∧
      Resembles net.units otherArena := by
  obtain ⟨checked, hcheck⟩ := hcheck
  obtain ⟨features, labels, htrainable⟩ := exists_trainable hnet houtput hcheck
  obtain ⟨hlast, hpositive⟩ := hnet.output_last last houtput
  have hother := halike.wellFormed hnet (by rw [houtput]; rfl)
  obtain ⟨_, _, hrun⟩ := trainByInstance_run hnet houtput htransformer
    (net.attends_ownLesson features labels iteration) rfl htrainable hfits
  have hdrawn := halike.drawn_eq
  have hlesson := halike.ownLesson_eq features labels iteration
  have hactivity := halike.activity_eq
  have hupdate := halike.update_eq (net.ownLesson features labels iteration)
  have hresembles := halike.resembles
  obtain ⟨error, arena, rfl⟩ := halike.same
  have hotherTrainable : Network.Trainable { net with trainingError := error, arena } given features
      labels := ⟨htrainable.method_ok, htrainable.features_eq, htrainable.features_shape,
        htrainable.labels_eq⟩
  have hotherRun := trainByInstance_run hother houtput htransformer
    (Network.attends_ownLesson _ features labels iteration) rfl hotherTrainable hfits
  rw [hlesson, hdrawn, hupdate, hactivity] at hotherRun
  obtain ⟨hinputs, _, hotherRun⟩ := hotherRun
  -- The neurons of the other network resembled these before the pass, which leaves it at that.
  have hsettled := resembles_settled hother (show 0 < net.sizes.length by omega) hinputs
  rw [hdrawn] at hsettled
  exact ⟨_, _, _, _, shapes_updates hnet houtput _, hrun, hotherRun,
    hresembles.trans (hsettled.trans (resembles_trainedFrom _ 0 _))⟩

end

end FeedForward.Network
