import FeedForward.ModelFile
import FeedForward.Proofs.Network.Memory

/-!
# Twin networks

Twins drop nothing. They differ at most in how the training method is spelled, in the random source
and in what passes have left in their neurons. A request that is put to twins has one answer, and
it leaves twins, whichever way it ends. Updates of other extents than the weights may be added as
long as none of their extents is zero. Twins are stored as the same bytes.
-/

namespace FeedForward.Network

variable {α β : Type} [Scalar α]

/-- Networks that nothing asked of them tells apart. -/
structure Twins (net other : Network α β) : Prop where
  same : ∃ method source arena, other = { net with method, source, arena }
  method_eq : TrainingMethod.ofName other.method = TrainingMethod.ofName net.method
  related : Related AkinAt net.units other.units
  stretched : net.Stretched
  complete : net.outputLayer.isSome
  transformer : KeepsCount net.transformer
  sure : ∀ g : Generator, (g.happens (1 - net.dropRate)).1 = true

/-! ## Masks -/

/-- Units that are kept for sure are all kept. -/
theorem masks_of_sure {keep : α} (hsure : ∀ g : Generator, (g.happens keep).1 = true)
    (layer : List (Neuron α)) (source : Generator) :
    (masks keep layer source).1 = layer.map fun _ => true := by
  induction layer generalizing source with
  | nil => rfl
  | cons n layer ih =>
      cases htraining : n.training with
      | false => simp [masks, htraining, ih]
      | true => simp [masks, htraining, ih, hsure]

namespace Twins

variable {net other : Network α β} (htwins : Twins net other)

include htwins

/-- What depends neither on the method nor on the source and the neurons is the same for twins. -/
theorem view_eq {κ : Type} (view : Network α β → κ)
    (hview : ∀ method source arena, view { net with method, source, arena } = view net) :
    view other = view net := by
  obtain ⟨method, source, arena, hsame⟩ := htwins.same
  rw [hsame, hview]

theorem mates : Mates net other where
  same := by
    obtain ⟨method, source, arena, hsame⟩ := htwins.same
    exact ⟨method, _, _, _, source, arena, hsame⟩
  method_eq := htwins.method_eq
  related := htwins.related
  masks_eq := by
    have hrate : other.dropRate = net.dropRate := htwins.view_eq Network.dropRate fun _ _ _ => rfl
    have hunits := htwins.related
    rw [drawn, drawn, hrate, masks_of_sure htwins.sure, masks_of_sure htwins.sure]
    generalize net.units = arena at hunits ⊢
    generalize other.units = otherArena at hunits ⊢
    cases hunits with
    | nil => rfl
    | cons hhead _ => exact hhead.map_eq fun _ _ _ _ => rfl

/-- The neurons and the random sources may be exchanged. -/
theorem of_ran {unit : Nat → Neuron α → Neuron α → Prop} {s t : Network α β}
    (hran : Ran unit net other s t) (hunit : ∀ k n m, unit k n m → AkinAt k n m) : Twins s t := by
  obtain ⟨arena, otherArena, rfl, rfl, hunits, hfresh⟩ := hran
  have hfits := htwins.stretched.fits_units.of_fresh hfresh
  refine {
    same := ?_
    method_eq := htwins.method_eq
    related := hunits.mono hunit
    stretched := htwins.stretched.of_layers (fun _ => htwins.complete) fun units hunits => ?_
    complete := htwins.complete
    transformer := htwins.transformer
    sure := htwins.sure }
  · obtain ⟨method, source, arena, rfl⟩ := htwins.same
    exact ⟨_, _, _, rfl⟩
  · cases hunits
    exact hfits

theorem withTrainingError (trainingError : α) :
    Twins { net with trainingError } { other with trainingError } :=
  { htwins with
    same := by
      obtain ⟨_, _, _, rfl⟩ := htwins.same
      exact ⟨_, _, _, rfl⟩
    stretched := htwins.stretched.withRecords _ _ }

theorem withPrevious (previous : List (Tensor β)) :
    Twins { net with previous } { other with previous } :=
  { htwins with
    same := by
      obtain ⟨_, _, _, rfl⟩ := htwins.same
      exact ⟨_, _, _, rfl⟩
    stretched := htwins.stretched.withRecords _ _ }

theorem withWeights {weights : List (Tensor β)}
    (hnet : { net with weights : Network α β }.Stretched) :
    Twins { net with weights } { other with weights } :=
  { htwins with
    same := by
      obtain ⟨_, _, _, rfl⟩ := htwins.same
      exact ⟨_, _, _, rfl⟩
    stretched := hnet }

/-! ## Requests -/

section

variable [Precision α β]

theorem agree_getOutput (features : Table α) :
    Step.Agree Twins Twins (getOutput features net) (getOutput features other) := by
  obtain ⟨last, houtput⟩ := Option.isSome_iff_exists.mp htwins.complete
  refine (htwins.mates.agree_getOutput htwins.stretched houtput htwins.transformer features).mono
    (fun s t hran => ?_) fun s t hleft => ?_
  · exact htwins.of_ran hran fun _ _ _ hnm => hnm.akin
  · rcases hleft with ⟨rfl, rfl⟩ | hran
    · exact htwins
    · exact htwins.of_ran hran fun _ _ _ hnm => hnm

variable [Add β] [Zero β]

/-- What a training pass that succeeds keeps as the last updates has the extents of the weights. -/
theorem agree_trainByInstance (x : Instance α) (iteration : Int) :
    Step.Agree
      (fun s t => Twins s t ∧ s.previous.map Tensor.shape = s.weights.map Tensor.shape) Twins
      (trainByInstance x iteration net) (trainByInstance x iteration other) := by
  obtain ⟨last, houtput⟩ := Option.isSome_iff_exists.mp htwins.complete
  refine (htwins.mates.agree_trainByInstance htwins.stretched houtput htwins.transformer x
    iteration).mono (fun s t hran => ?_) fun s t hleft => ?_
  · obtain ⟨error, previous, start, otherStart, hran, hshapes, rfl, rfl⟩ := hran
    have hstart := htwins.of_ran hran fun _ _ _ hnm => hnm.1.akin
    refine ⟨(hstart.withTrainingError error).withPrevious previous, ?_⟩
    obtain ⟨_, _, rfl, _⟩ := hran
    exact hshapes
  · cases hleft with
    | refused => exact htwins
    | forward hran => exact htwins.of_ran hran fun _ _ _ hnm => hnm
    | backward error hran =>
        exact (htwins.of_ran hran fun _ _ _ hnm => hnm).withTrainingError error

end

end Twins

/-! ## Updates -/

section

variable [Add β] [Zero β] [Precision α β]

/-- Updates of which none has a zero among its extents. -/
def Whole (updates : List (Update α β)) : Prop := ∀ update ∈ updates, 0 ∉ update.shape

theorem zero_notMem_add {a b sum : Update α β} (ha : 0 ∉ a.shape) (hb : 0 ∉ b.shape)
    (hadd : a.add b = .ok sum) : 0 ∉ sum.shape := by
  have hwide : ∀ {update : Update α β}, 0 ∉ update.shape → 0 ∉ update.widened.shape := by
    intro update hupdate
    cases update with
    | stored matrix => exact hupdate
    | wide matrix => exact hupdate
  cases a with
  | stored matrix =>
      cases b with
      | stored other =>
          obtain ⟨joined, hjoined, hsum⟩ := Check.bind_eq_ok_iff.mp hadd
          cases hsum
          exact Tensor.zero_notMem_zipWith ha hb hjoined
      | wide other =>
          obtain ⟨joined, hjoined, hsum⟩ := Check.bind_eq_ok_iff.mp hadd
          cases hsum
          exact Tensor.zero_notMem_zipWith (hwide ha) (hwide hb) hjoined
  | wide matrix =>
      obtain ⟨joined, hjoined, hsum⟩ := Check.bind_eq_ok_iff.mp hadd
      cases hsum
      exact Tensor.zero_notMem_zipWith (hwide ha) (hwide hb) hjoined

theorem whole_mergeUpdates {source dest merged : List (Update α β)} (hsource : Whole source)
    (hdest : Whole dest) (hrun : mergeUpdates source dest = .ok () merged) : Whole merged := by
  obtain ⟨_, _, hget, hrest⟩ := Step.bind_eq_ok hrun
  cases hget
  split at hrest
  next => cases hrest
  next =>
    have hcombine : Step.combine Update.add source dest = .ok () merged := hrest
    have hitems : ∀ (k : Nat) (update : Update α β), dest[k]? = some update → 0 ∉ update.shape :=
      fun k update hk => hdest update (List.mem_of_getElem? hk)
    have hkept := (Step.combine_keeps hitems fun k item sum partner hpartner hitem hadd =>
      zero_notMem_add hitem (hsource partner hpartner) hadd).2
    intro update hupdate
    obtain ⟨k, hk⟩ := List.mem_iff_getElem?.mp hupdate
    refine hkept k update ?_
    rw [Step.after, hcombine]
    exact hk

omit [Add β] [Zero β] [Precision α β] in
/-- Updates with the extents of the weights. -/
theorem Stretched.whole_of_shapes {net : Network α β} (hnet : net.Stretched)
    {updates : List (Tensor β)}
    (hshapes : updates.map Tensor.shape = net.weights.map Tensor.shape) :
    Whole (updates.map (Update.stored (α := α))) := by
  intro update hupdate
  obtain ⟨matrix, hmatrix, rfl⟩ := List.mem_map.mp hupdate
  have hmem : matrix.shape ∈ net.weights.map Tensor.shape :=
    hshapes ▸ List.mem_map_of_mem hmatrix
  obtain ⟨weights, hweights, hshape⟩ := List.mem_map.mp hmem
  have hwhole := hnet.zero_notMem_shape hweights
  rwa [hshape] at hwhole

/-- What a training pass gives has become the last updates. -/
theorem Stretched.whole_trainByInstance {net after : Network α β} (hafter : after.Stretched)
    {x : Instance α} {iteration : Int} {updates : List (Tensor β)}
    (hrun : trainByInstance x iteration net = .ok updates after)
    (hshapes : after.previous.map Tensor.shape = after.weights.map Tensor.shape) :
    Whole (updates.map (Update.stored (α := α))) := by
  rw [← trainByInstance_previous hrun]
  exact hafter.whole_of_shapes hshapes

variable {net other : Network α β} (htwins : Twins net other)

include htwins

theorem Twins.agree_updateWeights {updates : List (Update α β)} (hupdates : Whole updates) :
    Step.Agree Twins Twins (updateWeights updates net) (updateWeights updates other) := by
  have hweights : other.weights = net.weights := htwins.view_eq Network.weights fun _ _ _ => rfl
  have hnet := htwins.stretched.withUpdates hupdates
  rw [Step.after] at hnet
  rw [updateWeights, Step.bind_run, Step.get_run, Step.bind_run, Step.get_run]
  dsimp only
  rw [hweights]
  refine .ite (fun _ => .error htwins) fun _ => ?_
  rw [hweights]
  generalize Step.combine Update.addTo updates net.weights = result at hnet
  cases result with
  | ok _ weights => exact .ok (htwins.withWeights hnet)
  | error _ weights => exact .error (htwins.withWeights hnet)

theorem Twins.agree_trainOnline (x : Instance α) (iteration : Int) :
    Step.Agree Twins Twins (trainOnline x iteration net) (trainOnline x iteration other) := by
  refine (htwins.agree_trainByInstance x iteration).bind_of_ok fun updates s t hrun hst => ?_
  have hupdates := hst.1.stretched.whole_trainByInstance hrun hst.2
  exact .bind (hst.1.agree_updateWeights hupdates) fun _ _ _ hdone => .ok hdone

omit [Add β] [Zero β] [Precision α β] in
theorem Twins.agree_setWeightMatrix (index : Int) (table : Table β) :
    Step.Agree Twins Twins (setWeightMatrix index table net)
      (setWeightMatrix index table other) := by
  have hweights : other.weights = net.weights := htwins.view_eq Network.weights fun _ _ _ => rfl
  rw [setWeightMatrix, Step.bind_run, Step.get_run, Step.bind_run, Step.get_run]
  dsimp only
  rw [hweights]
  generalize hcurrent : (if index < 0 then none else net.weights[index.toNat]?) = found
  cases found with
  | none => exact .error htwins
  | some current =>
      refine .lift_bind htwins fun matrix _ => ?_
      refine .ite (fun _ => .error htwins) fun hshape => .ok (htwins.withWeights ?_)
      exact htwins.stretched.withShapes
        (shapes_set (getElem?_of_index hcurrent) (Decidable.not_not.mp hshape))

end

/-! ## Training flags -/

/-- The neurons take over a new training flag; those that are still to be built will have it. -/
theorem units_setTraining (net : Network α β) (training : Bool) :
    (Step.after (setTraining training) net).units =
      net.units.map (List.map fun n => { n with training }) := by
  have hafter : (Step.after (setTraining training) net).units =
      (net.arena.map (List.map (List.map fun n => { n with training }))).getD
        { net with training : Network α β }.built := rfl
  rw [hafter, units]
  cases net.arena with
  | some arena => rfl
  | none =>
      rw [Option.map_none, Option.getD_none, Option.getD_none, built, built, map_mapIdx]
      refine congrArg (List.mapIdx · net.sizes) (funext fun layer => funext fun size => ?_)
      rw [List.map_map]
      cases layer <;> rfl

theorem Alike.after_setTraining {net other : Network α β} (halike : Alike net other)
    (training : Bool) :
    Alike (Step.after (setTraining training) net) (Step.after (setTraining training) other) where
  same := by
    obtain ⟨_, _, rfl⟩ := halike.same
    exact ⟨_, _, rfl⟩
  resembles := by
    rw [units_setTraining, units_setTraining]
    exact halike.resembles.map (fun _ => rfl) fun _ => rfl

theorem Twins.agree_setTraining {net other : Network α β} (htwins : Twins net other)
    (training : Bool) :
    Step.Agree Twins Twins (setTraining training net) (setTraining training other) := by
  have hnet := htwins.stretched.after_setTraining training
  let after (net : Network α β) : Network α β := Step.after (setTraining training) net
  refine .ok (s := after net) (t := after other) {
    same := ?_
    method_eq := htwins.method_eq
    related := ?_
    stretched := hnet
    complete := htwins.complete
    transformer := htwins.transformer
    sure := htwins.sure }
  · obtain ⟨_, _, _, rfl⟩ := htwins.same
    exact ⟨_, _, _, rfl⟩
  · rw [units_setTraining, units_setTraining]
    refine Places.map htwins.related fun k layer otherLayer hlayer => hlayer.map fun i n m hnm => ?_
    obtain ⟨dropped, output, delta, buffer, rfl, hdropped⟩ := hnm
    exact ⟨dropped, output, delta, buffer, rfl, hdropped⟩

end FeedForward.Network

namespace FeedForward.ModelFile

variable {α β : Type} [Scalar α] [Precision α β] [Encoding α] [Encoding β]

/-- Twins are stored as the same bytes, or for the same fault not at all. -/
theorem encode_twins {net other : Network α β} (htwins : Network.Twins net other) :
    encode other = encode net := by
  have hmethod : method other.method = method net.method := by
    rw [method, method, htwins.method_eq]
  obtain ⟨_, _, _, rfl⟩ := htwins.same
  rw [encode, encode, write, write, hmethod]

end FeedForward.ModelFile
