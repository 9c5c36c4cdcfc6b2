import FeedForward.Proofs.Network.Topology
import FeedForward.Proofs.Network.Passes
import FeedForward.Proofs.Tensor

/-!
# Changed weights, rates and flags keep networks sound

A replaced weight matrix has the shape of the old one, or nothing changes. Updates of the right
shapes keep the shapes of all matrices, also when there are too few or too many of them. A new
drop rate lies between zero and one, or nothing changes, and a new training flag reaches the
neurons together with the network.
-/

namespace FeedForward

namespace Update

variable {α β : Type}

/-- The extents of an update. -/
def shape : Update α β → List Nat
  | stored matrix => matrix.shape
  | wide matrix => matrix.shape

variable [Scalar α] [Add β] [Zero β] [Precision α β]

/-- An update of the shape of the weights can be added and leaves the shape. -/
theorem addTo_eq_ok {weights : Tensor β} {update : Update α β}
    (hshape : update.shape = weights.shape) :
    ∃ sum, addTo weights update = .ok sum ∧ sum.shape = weights.shape := by
  cases update with
  | stored matrix =>
      obtain ⟨sum, hsum, hsumShape, _⟩ := Tensor.zipWith_eq_ok (· + ·) hshape.symm
      exact ⟨sum, hsum, hsumShape⟩
  | wide matrix =>
      have heq : (weights.map (Precision.widen (α := α))).shape = matrix.shape := hshape.symm
      obtain ⟨sum, hsum, hsumShape, _⟩ := Tensor.zipWith_eq_ok (· + ·) heq
      exact ⟨sum.map Precision.narrow, by rw [addTo, hsum]; rfl, hsumShape⟩

omit [Scalar α] [Add β] [Zero β] [Precision α β] in
/-- Changes that all succeed change each item by its partner. -/
theorem combine_run {σ τ ι κ : Type} {change : σ → τ → Except Fault σ} {f : ι → κ → ι}
    {item : ι → σ} {partner : κ → τ} {items : List ι} {partners : List κ}
    (hlength : partners.length = items.length)
    (hchange : ∀ (i : Nat) (a : ι) (b : κ), items[i]? = some a → partners[i]? = some b →
      change (item a) (partner b) = .ok (item (f a b))) :
    Step.combine change (partners.map partner) (items.map item) =
      .ok () ((List.zipWith f items partners).map item) := by
  induction items generalizing partners with
  | nil =>
      rw [List.length_nil, List.length_eq_zero_iff] at hlength
      rw [hlength]
      rfl
  | cons a items ih =>
      cases partners with
      | nil => simp at hlength
      | cons b partners =>
          have hfirst := hchange 0 a b rfl rfl
          have hrest := ih (by simpa using hlength) fun i c d hc hd =>
            hchange (i + 1) c d (by simpa using hc) (by simpa using hd)
          simp only [List.map_cons, Step.combine, hfirst, hrest, Step.mapState,
            List.zipWith_cons_cons]

/-- Updates are added to the matrices at their places, whatever comes of it. -/
theorem shapes_combine {updates : List (Update α β)} {weights : List (Tensor β)}
    (hpaired : ∀ (k : Nat) (update : Update α β) (matrix : Tensor β), updates[k]? = some update →
      weights[k]? = some matrix → update.shape = matrix.shape) :
    (Step.after (Step.combine addTo updates) weights).map Tensor.shape =
      weights.map Tensor.shape := by
  induction updates generalizing weights with
  | nil => rfl
  | cons update updates ih =>
      cases weights with
      | nil => rfl
      | cons matrix weights =>
          obtain ⟨sum, hsum, hshape⟩ := addTo_eq_ok (hpaired 0 update matrix rfl rfl)
          have hothers : ∀ (k : Nat) (other : Update α β) (old : Tensor β),
              updates[k]? = some other → weights[k]? = some old → other.shape = old.shape :=
            fun k other old hk hold =>
              hpaired (k + 1) other old (by simpa using hk) (by simpa using hold)
          have hrest := ih hothers
          simp only [Step.after, Step.combine, hsum]
          rw [Step.after_mapState, List.map_cons, List.map_cons, hshape, hrest]

end Update

namespace Network

variable {α β : Type} [Scalar α]

/-- A matrix in the place of one with the same extents. -/
theorem shapes_set {weights : List (Tensor β)} {index : Nat} {matrix current : Tensor β}
    (hcurrent : weights[index]? = some current) (hshape : matrix.shape = current.shape) :
    (weights.set index matrix).map Tensor.shape = weights.map Tensor.shape := by
  obtain ⟨hlt, rfl⟩ := List.getElem?_eq_some_iff.mp hcurrent
  have hbound : index < (weights.map Tensor.shape).length := by simpa using hlt
  have hold : (weights.map Tensor.shape)[index] = weights[index].shape := List.getElem_map ..
  rw [List.map_set, hshape, ← hold, List.set_getElem_self]

/-- A matrix at an index that is not negative. -/
theorem getElem?_of_index {weights : List (Tensor β)} {index : Int} {current : Tensor β}
    (hcurrent : (if index < 0 then none else weights[index.toNat]?) = some current) :
    weights[index.toNat]? = some current := by
  split at hcurrent
  next => cases hcurrent
  next => exact hcurrent

theorem preserves_setWeightMatrix (index : Int) (table : Table β) :
    Step.Preserves Sound (setWeightMatrix index table : Step (Network α β) Unit) := by
  intro net hnet
  rw [setWeightMatrix, Step.after_bind, Step.get_run]
  dsimp only
  split
  next => exact hnet
  next current hcurrent =>
    rw [Step.after_bind, Step.lift_run]
    cases lineUp table with
    | error fault => exact hnet
    | ok matrix =>
        dsimp only
        split
        next => exact hnet
        next hshape =>
          exact hnet.withWeights
            (shapes_set (getElem?_of_index hcurrent) (Decidable.not_not.mp hshape))

theorem preserves_setDropRate (rate : α) :
    Step.Preserves Sound (setDropRate rate : Step (Network α β) Unit) := by
  intro net hnet
  refine Step.after_bind_of (Step.Preserves.lift _ net hnet) fun checked _ hcheck _ => ?_
  obtain ⟨hrate, rfl⟩ := Step.lift_eq_ok hcheck
  obtain ⟨rfl, hunit⟩ := checkDropRate_eq_ok_iff.mp hrate
  exact hnet.withDropRate hunit

/-- A new training flag for the network and its neurons. -/
theorem WellFormed.after_setTraining {net : Network α β} (hnet : net.WellFormed) (training : Bool) :
    (Step.after (setTraining training) net).WellFormed := by
  refine { hnet with arena_complete := ?_, arena_fits := ?_ }
  · intro hsome
    exact hnet.arena_complete (Option.isSome_map ▸ hsome)
  · intro arena harena
    obtain ⟨old, hold, rfl⟩ := Option.map_eq_some_iff.mp harena
    have hfits := hnet.arena_fits old hold
    refine ⟨?_, ?_, ?_⟩
    · rw [List.length_map]
      exact hfits.length_eq
    · intro k layer hk
      rw [List.getElem?_map] at hk
      obtain ⟨oldLayer, hlayer, rfl⟩ := Option.map_eq_some_iff.mp hk
      rw [List.length_map]
      exact hfits.layer_length k oldLayer hlayer
    · intro k layer i n hk hi
      rw [List.getElem?_map] at hk
      obtain ⟨oldLayer, hlayer, rfl⟩ := Option.map_eq_some_iff.mp hk
      rw [List.getElem?_map] at hi
      obtain ⟨m, hm, rfl⟩ := Option.map_eq_some_iff.mp hi
      have hstands := hfits.stands k oldLayer i m hlayer hm
      exact ⟨hstands.id_eq, hstands.layer_eq, hstands.rule_eq, hstands.activation_eq⟩

theorem preserves_setTraining (training : Bool) :
    Step.Preserves Sound (setTraining training : Step (Network α β) Unit) := by
  intro net hnet
  refine ⟨hnet.wellFormed.after_setTraining training, ?_⟩
  intro arena harena layer hlayer n hn
  obtain ⟨old, hold, rfl⟩ := Option.map_eq_some_iff.mp harena
  obtain ⟨oldLayer, hmem, rfl⟩ := List.mem_map.mp hlayer
  obtain ⟨m, hm, rfl⟩ := List.mem_map.mp hn
  have hfollows := hnet.follow old hold oldLayer hmem m hm
  exact ⟨hfollows.learningRate_eq, hfollows.momentumWeight_eq, rfl⟩

variable [Add β] [Zero β] [Precision α β]

/-- Each update has the shape of the weight matrix that it is paired with. -/
def Paired (net : Network α β) (updates : List (Update α β)) : Prop :=
  ∀ (k : Nat) (update : Update α β) (matrix : Tensor β), updates[k]? = some update →
    net.weights[k]? = some matrix → update.shape = matrix.shape

theorem Sound.after_updateWeights {net : Network α β} (hnet : net.Sound)
    {updates : List (Update α β)} (hpaired : net.Paired updates) :
    (Step.after (updateWeights updates) net).Sound := by
  refine Step.after_bind_of hnet fun _ _ hget _ => ?_
  cases hget
  split
  next => exact hnet
  next =>
    have hshapes := Update.shapes_combine hpaired
    rw [Step.after] at hshapes
    simp only [Step.after]
    cases hrun : Step.combine Update.addTo updates net.weights with
    | ok _ weights => rw [hrun] at hshapes; exact hnet.withWeights hshapes
    | error _ weights => rw [hrun] at hshapes; exact hnet.withWeights hshapes

omit [Add β] [Zero β] in
/-- Matrices at one place of two lists with the same extents have the same extents. -/
theorem shape_eq_of_map {matrices others : List (Tensor β)}
    (hshapes : others.map Tensor.shape = matrices.map Tensor.shape) {k : Nat}
    {matrix other : Tensor β} (hmatrix : matrices[k]? = some matrix)
    (hother : others[k]? = some other) : matrix.shape = other.shape := by
  have hmap := congrArg (·[k]?) hshapes
  simp only [List.getElem?_map, hmatrix, hother, Option.map_some, Option.some.injEq] at hmap
  exact hmap.symm

section

variable {matrices updates : List (Tensor β)}
  (hshapes : updates.map Tensor.shape = matrices.map Tensor.shape)

include hshapes

/-- Updates with the extents of the weights are added to them, number by number. -/
theorem updateWeights_run {net : Network α β} (hweights : net.weights = matrices) :
    updateWeights (updates.map (Update.stored (α := α))) net =
      .ok () { net with weights := List.zipWith Tensor.added matrices updates } := by
  subst hweights
  have hlength : updates.length = net.weights.length := by
    simpa using congrArg List.length hshapes
  have hcombine : Step.combine Update.addTo (updates.map (Update.stored (α := α)))
      (net.weights.map id) = .ok () ((List.zipWith Tensor.added net.weights updates).map id) :=
    Update.combine_run hlength fun k matrix update hmatrix hupdate =>
      Tensor.zipWith_add (shape_eq_of_map hshapes hmatrix hupdate)
  rw [List.map_id, List.map_id] at hcombine
  have hcount : ¬ (updates.map (Update.stored (α := α))).length ≠ net.weights.length := by
    rw [List.length_map]
    exact Decidable.not_not.mpr hlength
  rw [updateWeights, Step.bind_run, Step.get_run]
  refine (congrFun (if_neg hcount) net).trans ?_
  change Step.mapState _ (Step.combine Update.addTo _ net.weights) = _
  rw [hcombine]
  rfl

/-- Updates with the same extents are merged by adding them, number by number. -/
theorem mergeUpdates_run : mergeUpdates (updates.map (Update.stored (α := α)))
    (matrices.map .stored) =
      .ok () ((List.zipWith Tensor.added matrices updates).map .stored) := by
  have hlength : updates.length = matrices.length := by simpa using congrArg List.length hshapes
  have hcombine : Step.combine Update.add (updates.map (Update.stored (α := α)))
      (matrices.map .stored) =
        .ok () ((List.zipWith Tensor.added matrices updates).map .stored) :=
    Update.combine_run hlength fun k matrix update hmatrix hupdate => by
      rw [Update.add, Tensor.zipWith_add (shape_eq_of_map hshapes hmatrix hupdate)]
      rfl
  simp only [mergeUpdates, Step.bind_run, Step.get_run, List.length_map, hlength, ne_eq,
    not_true_eq_false, if_false]
  exact hcombine

end

end Network

end FeedForward
