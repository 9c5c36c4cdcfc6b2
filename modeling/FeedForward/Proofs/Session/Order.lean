import FeedForward.Proofs.Gradient.Exact
import FeedForward.Proofs.Lockstep.Twins
import FeedForward.Proofs.Session.Failure

/-!
# The order of the instances in a batch

Every instance of a batch meets the weights and the last updates from before the batch, and where no
unit is dropped the masks are the same for all of them. So what an instance gives does not depend on
its place, and with exact numbers neither does the sum of what all of them give. Two orders of a
batch differ only in what the last instance leaves behind: the training error, and the state of the
neurons. A batch with a refused instance takes back what the instances in front of it have left.
-/

namespace FeedForward

/-! ## Sums in any order -/

section

variable {R : Type} [CommRing R]

theorem Tensor.getD_added (a b : Tensor R) {i : Nat} (hi : i < places a.shape) :
    (a.added b).data.getD i 0 = a.data.getD i 0 + b.data.getD i 0 := by
  rw [Array.getD_eq_getD_getElem?, added, ofFn, Array.getElem?_ofFn, dif_pos hi]
  rfl

theorem Tensor.added_right_comm (t a b : Tensor R) :
    (t.added a).added b = (t.added b).added a := by
  rw [added.eq_def (t.added a), added.eq_def (t.added b)]
  refine congrArg (ofFn t.shape) (funext fun i => ?_)
  rw [getD_added t a i.isLt, getD_added t b i.isLt, add_right_comm]

theorem Tensor.fill_zero_added (t : Tensor R) : (fill t.shape 0).added t = t := by
  refine eq_of_toList rfl ?_
  rw [toList_added (show (fill t.shape (0 : R)).shape = t.shape from rfl)]
  apply List.ext_getElem?
  intro i
  have hplaces : t.toList.length = places t.shape := t.length_toList
  rw [List.getElem?_zipWith]
  by_cases hi : i < places t.shape
  · have hzero : (fill t.shape (0 : R)).toList[i]? = some 0 := by simp [fill, toList, hi]
    rw [hzero, List.getElem?_eq_getElem (hplaces.symm ▸ hi)]
    exact congrArg some (zero_add _)
  · have hnone : t.toList[i]? = none := List.getElem?_eq_none (by omega)
    rw [hnone]
    cases (fill t.shape (0 : R)).toList[i]? <;> rfl

theorem zipWith_added_right_comm (ts as bs : List (Tensor R)) :
    List.zipWith Tensor.added (List.zipWith Tensor.added ts as) bs =
      List.zipWith Tensor.added (List.zipWith Tensor.added ts bs) as := by
  induction ts generalizing as bs with
  | nil => rfl
  | cons t ts ih =>
      cases as with
      | nil => cases bs <;> rfl
      | cons a as =>
          cases bs with
          | nil => rfl
          | cons b bs =>
              simp only [List.zipWith_cons_cons, Tensor.added_right_comm t a b, ih as bs]

theorem zipWith_fill_zero (ts : List (Tensor R)) :
    List.zipWith Tensor.added ((ts.map Tensor.shape).map (Tensor.fill · 0)) ts = ts := by
  induction ts with
  | nil => rfl
  | cons t ts ih =>
      simp only [List.map_cons, List.zipWith_cons_cons, Tensor.fill_zero_added, ih]

/-- Lists of matrices of the same extents have one sum, in whatever order they come. -/
theorem summed_perm {shapes : List (List Nat)} {first second : List (List (Tensor R))}
    (hshapes : ∀ updates ∈ first, updates.map Tensor.shape = shapes)
    (hperm : second.Perm first) : Network.summed second = Network.summed first := by
  -- Starting from matrices of zeros makes the first list of matrices one among the others.
  have hzeros : ∀ {all : List (List (Tensor R))}, all ≠ [] →
      (∀ updates ∈ all, updates.map Tensor.shape = shapes) → Network.summed all =
        all.foldl (List.zipWith Tensor.added) (shapes.map (Tensor.fill · 0)) := by
    intro all hmore hall
    obtain ⟨updates, rest, rfl⟩ := List.exists_cons_of_ne_nil hmore
    rw [Network.summed, List.foldl_cons, ← hall updates List.mem_cons_self, zipWith_fill_zero]
  rcases eq_or_ne first [] with rfl | hmore
  · rw [hperm.eq_nil]
  · have hother : second ≠ [] := fun hempty => hmore (hempty ▸ hperm).nil_eq.symm
    have : RightCommutative (List.zipWith (Tensor.added (β := R))) := ⟨zipWith_added_right_comm⟩
    rw [hzeros hmore hshapes, hzeros hother fun updates h => hshapes updates (hperm.subset h)]
    exact hperm.foldl_eq _

/-- The mean does not depend on the order. -/
theorem mean_perm [BeyondRing R] {xs ys : List R} (hperm : ys.Perm xs) : mean ys = mean xs := by
  rw [mean, mean, blockedSum_eq, blockedSum_eq, hperm.sum_eq, hperm.length_eq]

end

namespace Session

open Network

/-! ## Instances in any order -/

section

variable {α β : Type} [Scalar α]

/-- A network that can be trained on some instances and drops no unit. -/
structure Steady (net : Network α β) (instances : List (Instance α)) : Prop
    extends CanTrain net instances where
  sure : ∀ g : Generator, (g.happens (1 - net.dropRate)).1 = true

variable [Precision α β] [Add β] [Zero β]

/-- An instance gives one outcome after so many passes. -/
theorem gives_unique {net : Network α β} {iteration : Nat} {given : Instance α × Nat}
    {first second : List (Tensor β) × α} (hfirst : net.Gives iteration given first)
    (hsecond : net.Gives iteration given second) : first = second := by
  obtain ⟨after, hrun, herror⟩ := hfirst
  obtain ⟨other, hother, hsame⟩ := hsecond
  rw [hrun] at hother
  injection hother with hupdates hafter
  exact Prod.ext hupdates (by rw [← herror, hafter, hsame])

variable {net : Network α β} {instances : List (Instance α)} (hsteady : Steady net instances)
  {iteration : Nat}

include hsteady

/-- Where no unit is dropped, the passes before do not matter. -/
theorem Steady.gives {given : Instance α} {passes : Nat} {outcome : List (Tensor β) × α}
    (hgives : net.Gives iteration (given, passes) outcome) (others : Nat) :
    net.Gives iteration (given, others) outcome := by
  have htwins : Network.Twins (net.snapshot passes) (net.snapshot others) := {
    same := ⟨_, _, _, rfl⟩
    method_eq := rfl
    related := (Resembles.refl _).related
    stretched := (hsteady.wellFormed.snapshot passes).stretched
    complete := hsteady.complete
    transformer := hsteady.transformer
    sure := hsteady.sure }
  have hagree := htwins.agree_trainByInstance given iteration
  obtain ⟨after, hrun, herror⟩ := hgives
  rw [hrun] at hagree
  generalize hsecond : trainByInstance given iteration (net.snapshot others) = second at hagree
  cases hagree with
  | ok hdone =>
      exact ⟨_, hsecond, (hdone.1.view_eq Network.trainingError fun _ _ _ => rfl).trans herror⟩

/-- The outcomes of the instances of a batch are those that they have by themselves. -/
theorem Steady.gives_of_zipIdx {batch : List (Instance α)} {start : Nat}
    {outcomes : List (List (Tensor β) × α)}
    (hgives : List.Forall₂ (net.Gives iteration) (batch.zipIdx start) outcomes) :
    List.Forall₂ (fun given => net.Gives iteration (given, 0)) batch outcomes := by
  induction batch generalizing start outcomes with
  | nil =>
      cases hgives
      exact .nil
  | cons given batch ih =>
      rw [List.zipIdx_cons] at hgives
      cases hgives with
      | cons hfirst hrest => exact .cons (hsteady.gives hfirst 0) (ih hrest)

/-- The updates of all instances have the extents of the weights. -/
theorem Steady.shapes_outcomes (hfits : Scalar.fits (α := α) iteration = true)
    {batch : List (Instance α)} (hbatch : ∀ given ∈ batch, given ∈ instances)
    {outcomes : List (List (Tensor β) × α)}
    (hgives : List.Forall₂ (fun given => net.Gives iteration (given, 0)) batch outcomes) :
    ∀ updates ∈ outcomes.map Prod.fst,
      updates.map Tensor.shape = net.weights.map Tensor.shape := by
  obtain ⟨last, houtput⟩ := Option.isSome_iff_exists.mp hsteady.complete
  induction hgives with
  | nil => exact fun _ hnone => absurd hnone List.not_mem_nil
  | cons hfirst _ ih =>
      obtain ⟨hgiven, hrest⟩ := List.forall_mem_cons.mp hbatch
      obtain ⟨_, _, hsame, hshapes, -⟩ := trainByInstance_after hsteady.wellFormed houtput
        hsteady.transformer hfits 0 (hsteady.valid _ hgiven) (.refl _)
      rw [gives_unique hsame hfirst] at hshapes
      exact List.forall_mem_cons.mpr ⟨hshapes, ih hrest⟩

/-- Instances in another order have the same outcomes in another order. -/
theorem Steady.perm_outcomes {batch batch' : List (Instance α)} (hperm : batch'.Perm batch)
    {outcomes outcomes' : List (List (Tensor β) × α)}
    (hgives : List.Forall₂ (net.Gives iteration) batch.zipIdx outcomes)
    (hgives' : List.Forall₂ (net.Gives iteration) batch'.zipIdx outcomes') :
    outcomes'.Perm outcomes := by
  have hunique : Relator.RightUnique fun given => net.Gives iteration (given, 0) :=
    fun _ _ _ hfirst hsecond => gives_unique hfirst hsecond
  have hown := hsteady.gives_of_zipIdx hgives
  have hown' := hsteady.gives_of_zipIdx hgives'
  exact List.rel_perm_imp hunique hown' hown hperm

end

/-! ## Level sessions -/

section

variable {α β τ : Type} [Scalar α]

/-- Sessions that have learned the same and have come equally far. Their networks differ at most in
the training error and in what passes leave in the neurons. -/
structure Level (s t : Session α β τ) : Prop where
  network : Alike s.network t.network
  iteration_eq : t.iteration = s.iteration
  log_eq : t.log = s.log

theorem Level.refl (s : Session α β τ) : Level s s := ⟨.refl _, rfl, rfl⟩

theorem Level.switched {s t : Session α β τ} (hlevel : Level s t) (training : Bool) :
    Level (switched training s) (switched training t) :=
  ⟨hlevel.network.after_setTraining training, hlevel.iteration_eq, hlevel.log_eq⟩

end

/-! ## Refused instances -/

/-- A batch with a refused instance changes neither the weights nor the last updates. -/
theorem trainBatch_refused {α β τ : Type} [Scalar α] [Precision α β] [Add β] [Zero β]
    {s : Session α β τ} (hnet : s.network.WellFormed) (hcomplete : s.network.outputLayer.isSome)
    (htransformer : KeepsCount s.network.transformer)
    (hfits : Scalar.fits (α := α) s.iteration = true) {batch : List (Instance α)}
    (hinvalid : ¬ ∀ given ∈ batch, ∃ checked, s.network.checkInstance given = .ok checked) :
    (Step.after (trainBatch batch) s).network.weights = s.network.weights ∧
      (Step.after (trainBatch batch) s).network.previous = s.network.previous := by
  obtain ⟨front, bad, rest, fault, rfl, hfront, hbad⟩ := exists_refused hinvalid
  obtain ⟨after, hrun⟩ := trainBatch_of_refused hnet hcomplete htransformer hfits hfront hbad rest
  obtain ⟨_, _, _, hsame⟩ := lasting_eq_iff.mp (lasting_of_trainBatch_error hrun).1
  rw [Step.after, hrun]
  dsimp only
  rw [hsame]
  exact ⟨rfl, rfl⟩

/-! ## Batches -/

section

variable {R τ : Type} [CommRing R] [BeyondRing R] {instances : List (Instance R)}

/-- Batches of the same valid instances do the same, whatever order these come in. -/
theorem trainBatch_level {s t : Session R R τ} (hsteady : Steady s.network instances)
    (hlevel : Level s t) {batch batch' : List (Instance R)} (hmore : batch ≠ [])
    (hbatch : ∀ given ∈ batch, given ∈ instances) (hperm : batch'.Perm batch) :
    ∃ errors errors' after after', trainBatch batch s = .ok errors after ∧
      trainBatch batch' t = .ok errors' after' ∧ errors'.Perm errors ∧ Level after after' ∧
      Steady after.network instances := by
  obtain ⟨last, houtput⟩ := Option.isSome_iff_exists.mp hsteady.complete
  have hready : CanTrain s.network instances := hsteady.toCanTrain
  obtain ⟨errors, after, htrain, hafter⟩ := exists_trainBatch hready hbatch hmore rfl
  obtain ⟨net, _, _⟩ := s
  obtain ⟨other, iteration, log⟩ := t
  obtain ⟨halike, rfl, rfl⟩ := hlevel
  have hfits : Scalar.fits (α := R) iteration = true := rfl
  dsimp only at hsteady houtput halike
  have hmore' : batch' ≠ [] := fun hempty => hmore (hempty ▸ hperm).symm.eq_nil
  have hvalid : ∀ given ∈ batch, ∃ checked, net.checkInstance given = .ok checked :=
    fun given hgiven => hsteady.valid given (hbatch given hgiven)
  have hvalid' : ∀ given ∈ batch', ∃ checked, net.checkInstance given = .ok checked :=
    fun given hgiven => hvalid given (hperm.subset hgiven)
  -- Both batches add up what the network of the first session gives.
  obtain ⟨outcomes, _, arena, hgives, -, hkept, hrun⟩ := trainBatch_alike hsteady.wellFormed houtput
    hsteady.transformer hfits hmore hvalid (.refl net) log
  obtain ⟨outcomes', _, arena', hgives', -, hkept', hrun'⟩ := trainBatch_alike hsteady.wellFormed
    houtput hsteady.transformer hfits hmore' hvalid' halike log
  have houtcomes := hsteady.perm_outcomes hperm hgives hgives'
  have hshapes := hsteady.shapes_outcomes hfits hbatch (hsteady.gives_of_zipIdx hgives)
  rw [summed_perm hshapes (houtcomes.map Prod.fst), hperm.length_eq] at hrun'
  rw [hrun] at htrain
  cases htrain
  exact ⟨_, _, _, _, hrun, hrun', houtcomes.map Prod.snd,
    ⟨⟨⟨_, _, rfl⟩, hkept.symm.trans hkept'⟩, rfl, rfl⟩, hafter, hsteady.sure⟩

/-- Batches of the same instances, refused ones among them or not, leave the same weights and last
updates. -/
theorem trainBatch_reordered {session : Session R R τ} (hnet : session.network.WellFormed)
    (hcomplete : session.network.outputLayer.isSome)
    (htransformer : KeepsCount session.network.transformer)
    (hsure : ∀ g : Generator, (g.happens (1 - session.network.dropRate)).1 = true)
    {batch batch' : List (Instance R)} (hperm : batch'.Perm batch) :
    let after := Step.after (trainBatch batch) session
    let after' := Step.after (trainBatch batch') session
    after'.network.weights = after.network.weights ∧
      after'.network.previous = after.network.previous := by
  intro after after'
  by_cases hvalid : ∀ given ∈ batch, ∃ checked, session.network.checkInstance given = .ok checked
  case neg =>
    have hinvalid : ¬ ∀ given ∈ batch', ∃ checked,
        session.network.checkInstance given = .ok checked :=
      fun hall => hvalid fun given hgiven => hall given (hperm.symm.subset hgiven)
    obtain ⟨hweights, hprevious⟩ := trainBatch_refused hnet hcomplete htransformer rfl hvalid
    obtain ⟨hweights', hprevious'⟩ := trainBatch_refused hnet hcomplete htransformer rfl hinvalid
    exact ⟨hweights'.trans hweights.symm, hprevious'.trans hprevious.symm⟩
  case pos =>
    rcases eq_or_ne batch [] with rfl | hmore
    · obtain rfl : batch' = [] := hperm.eq_nil
      exact ⟨rfl, rfl⟩
    · have hready : CanTrain session.network batch := ⟨hnet, hcomplete, htransformer, hvalid⟩
      have hsteady : Steady session.network batch := ⟨hready, hsure⟩
      obtain ⟨_, _, _, _, hrun, hrun', -, hlevel, -⟩ :=
        trainBatch_level hsteady (.refl _) hmore (fun _ hgiven => hgiven) hperm
      obtain ⟨_, _, hsame⟩ := hlevel.network.same
      simp only [after, after', Step.after, hrun, hrun', hsame, and_self]

end

end Session

end FeedForward
