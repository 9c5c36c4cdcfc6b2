import FeedForward.Proofs.Session.Failure
import FeedForward.Proofs.Session.Invariants

/-!
# What runs make of a network

A batch exchanges the weights and the last updates of a network for others of the same extents, and
a run does so over and over and switches training. Rates, modes, names and layers stay as they
are, so a well-formed network is well-formed behind every run, and its neurons aside it is the same
network with other numbers. A batch or a run that fails is no exception.
-/

namespace FeedForward

namespace Network

variable {α β : Type} [Scalar α]

/-- Neurons, source and training error aside, a network is another one with other weights and last
updates of the same extents, and with training on or off. -/
def Reweighted (net other : Network α β) : Prop :=
  ∃ (weights previous : List (Tensor β)) (training : Bool),
    other.lasting = { net with weights, previous, training }.lasting ∧
    weights.map Tensor.shape = net.weights.map Tensor.shape ∧
    previous.map Tensor.shape = net.weights.map Tensor.shape

/-- The last updates of a well-formed network have the extents of its weights. -/
theorem WellFormed.shapes_previous {net : Network α β} (hnet : net.WellFormed) :
    net.previous.map Tensor.shape = net.weights.map Tensor.shape := by
  apply List.ext_getElem?
  intro k
  rw [List.getElem?_map, List.getElem?_map]
  by_cases hk : k + 1 < net.sizes.length
  · obtain ⟨previous, hprevious, hshape⟩ := hnet.exists_previous hk
    obtain ⟨weights, hweights, hsame⟩ := hnet.exists_weights hk
    rw [hprevious, hweights, Option.map_some, Option.map_some, hshape, hsame]
  · rw [List.getElem?_eq_none (by rw [hnet.previous_length]; omega),
      List.getElem?_eq_none (by rw [hnet.weights_length]; omega)]

namespace Reweighted

variable {net other : Network α β}

theorem refl (hnet : net.WellFormed) : net.Reweighted net :=
  ⟨net.weights, net.previous, net.training, rfl, rfl, hnet.shapes_previous⟩

theorem of_lasting {after : Network α β} (hother : net.Reweighted other)
    (hlasting : after.lasting = other.lasting) : net.Reweighted after := by
  obtain ⟨weights, previous, training, hsame, hshapes⟩ := hother
  exact ⟨weights, previous, training, hlasting.trans hsame, hshapes⟩

theorem sizes_eq (hother : net.Reweighted other) : other.sizes = net.sizes := by
  obtain ⟨_, _, _, hsame, -⟩ := hother
  obtain ⟨_, _, _, rfl⟩ := lasting_eq_iff.mp hsame
  rfl

/-- The extents of the weights stay those of the first network. -/
theorem shapes_eq (hother : net.Reweighted other) :
    other.weights.map Tensor.shape = net.weights.map Tensor.shape := by
  obtain ⟨weights, previous, training, hsame, hshapes, -⟩ := hother
  obtain ⟨_, _, _, rfl⟩ := lasting_eq_iff.mp hsame
  exact hshapes

/-- The weights and the last updates are exchanged once more. -/
theorem exchange {after : Network α β} (hother : net.Reweighted other)
    {weights previous : List (Tensor β)}
    (hlasting : after.lasting = { other with weights, previous }.lasting)
    (hweights : weights.map Tensor.shape = other.weights.map Tensor.shape)
    (hprevious : previous.map Tensor.shape = other.weights.map Tensor.shape) :
    net.Reweighted after := by
  have hshapes := hother.shapes_eq
  obtain ⟨_, _, training, hsame, -, -⟩ := hother
  refine ⟨weights, previous, training, hlasting.trans ?_, hweights.trans hshapes,
    hprevious.trans hshapes⟩
  exact congrArg (fun net : Network α β => { net with weights, previous }) hsame

theorem switch (hother : net.Reweighted other) (training : Bool) :
    net.Reweighted (Step.after (setTraining training) other) := by
  obtain ⟨weights, previous, _, hsame, hshapes⟩ := hother
  exact ⟨weights, previous, training,
    congrArg (fun net : Network α β => { net with training }) hsame, hshapes⟩

theorem wellFormed (hother : net.Reweighted other) (hnet : net.WellFormed) :
    other.lasting.WellFormed := by
  obtain ⟨weights, previous, training, hsame, hweights, hprevious⟩ := hother
  rw [hsame]
  exact { hnet.exchange hweights hprevious with
    arena_complete := fun hnone => by cases hnone
    arena_fits := fun arena harena => by cases harena }

end Reweighted

end Network

namespace Session

open Network

variable {α β τ : Type} [Scalar α] [Add β] [Zero β] [Precision α β]

/-- Passes that succeed leave other last updates. -/
theorem lasting_of_trainOthers_ok {iteration : Nat} {previous : List (Tensor β)}
    {rest : List (Instance α)} {merged sum : List (Update α β)} {errors : List α}
    {net after : Network α β}
    (hrun : trainOthers iteration previous rest merged net = .ok (errors, sum) after) :
    ∃ updates, after.lasting = { net with previous := updates }.lasting := by
  induction rest generalizing merged errors net with
  | nil => cases hrun; exact ⟨after.previous, rfl⟩
  | cons x rest ih =>
      obtain ⟨_, _, hset, hrun₁⟩ := Step.bind_eq_ok hrun
      cases hset
      obtain ⟨updates, passed, htrain, hrun₂⟩ := Step.bind_eq_ok hrun₁
      obtain ⟨_, _, hget, hrun₃⟩ := Step.bind_eq_ok hrun₂
      cases hget
      have hpassed := (lasting_of_trainByInstance_ok htrain).1
      split at hrun₃
      next => cases hrun₃
      next =>
        obtain ⟨_, _, hothers, hreturn⟩ := Step.bind_eq_ok hrun₃
        cases hreturn
        obtain ⟨updates', hafter⟩ := ih hothers
        exact ⟨updates', hafter.trans
          (congrArg (fun net : Network α β => { net with previous := updates' }) hpassed)⟩

/-- A batch that succeeds exchanges the weights and the last updates for others of the same
extents. -/
theorem lasting_of_trainBatch_ok {x : Instance α} {rest : List (Instance α)}
    {s after : Session α β τ} {errors : List α}
    (hrun : trainBatch (x :: rest) s = .ok errors after) :
    ∃ weights previous, after.network.lasting = { s.network with weights, previous }.lasting ∧
      weights.map Tensor.shape = s.network.weights.map Tensor.shape ∧
      previous.map Tensor.shape = s.network.weights.map Tensor.shape := by
  obtain ⟨_, _, hget, hrun₁⟩ := Step.bind_eq_ok hrun
  cases hget
  obtain ⟨errors, trained, hnetwork, hrun₂⟩ := Step.bind_eq_ok hrun₁
  cases hrun₂
  obtain ⟨net, hbatch, rfl⟩ := onNetwork_eq_ok hnetwork
  obtain ⟨_, _, hget, hbatch₁⟩ := Step.bind_eq_ok hbatch
  cases hget
  obtain ⟨updates, first, hfirst, hbatch₂⟩ := Step.bind_eq_ok hbatch₁
  obtain ⟨_, _, hget, hbatch₃⟩ := Step.bind_eq_ok hbatch₂
  cases hget
  obtain ⟨⟨others, merged⟩, middle, hothers, hbatch₄⟩ := Step.bind_eq_ok hbatch₃
  obtain ⟨_, updated, hupdate, hbatch₅⟩ := Step.bind_eq_ok hbatch₄
  cases hbatch₅
  obtain ⟨hlasting, hshapes⟩ := lasting_of_trainByInstance_ok hfirst
  have hweights : first.weights = s.network.weights := weights_of_trainByInstance hfirst
  -- The sum of the updates has the extents of the weights, so it is added number by number.
  obtain ⟨total, rfl, htotal⟩ := shapes_of_trainOthers (by rw [hshapes, hweights]) hothers
  obtain ⟨left, hleft⟩ := lasting_of_trainOthers_ok hothers
  cases (updateWeights_run (α := α) htotal rfl).symm.trans hupdate
  have hmiddle : middle.lasting = { s.network with previous := left }.lasting :=
    hleft.trans (congrArg (fun net : Network α β => { net with previous := left }) hlasting)
  obtain ⟨_, _, _, rfl⟩ := lasting_eq_iff.mp hmiddle
  refine ⟨List.zipWith Tensor.added s.network.weights total, total, ?_, shapes_added htotal,
    htotal⟩
  rw [storedUpdates_stored]
  rfl

variable {net : Network α β}

theorem preserves_reweighted_trainBatch (batch : List (Instance α)) :
    Step.Preserves (fun s : Session α β τ => net.Reweighted s.network) (trainBatch batch) := by
  intro s hs
  cases batch with
  | nil => exact hs
  | cons x rest =>
      rw [Step.after]
      cases hrun : trainBatch (x :: rest) s with
      | error fault after => exact hs.of_lasting (lasting_of_trainBatch_error hrun).1
      | ok errors after =>
          obtain ⟨weights, previous, hlasting, hweights, hprevious⟩ :=
            lasting_of_trainBatch_ok hrun
          exact hs.exchange hlasting hweights hprevious

/-- A run leaves the network that it met with other numbers, whichever way it ends. -/
theorem reweighted_run (hnet : net.WellFormed) (plan : RunPlan) (listeners : List (Listener α τ))
    (instances : List (Instance α)) (iteration : Nat) (log : τ) :
    net.Reweighted (Step.after (run plan listeners instances) ⟨net, iteration, log⟩).network :=
  preserves_run preserves_reweighted_trainBatch (fun training _ hother => hother.switch training)
    plan listeners instances ⟨net, iteration, log⟩ (.refl hnet)

theorem reweighted_of_run {plan : RunPlan} {listeners : List (Listener α τ)}
    {instances : List (Instance α)} {iteration : Nat} {log : τ} {summary : RunSummary α}
    {ended : Session α β τ} (hnet : net.WellFormed)
    (hrun : run plan listeners instances ⟨net, iteration, log⟩ = .ok summary ended) :
    net.Reweighted ended.network := by
  have hafter := reweighted_run hnet plan listeners instances iteration log
  rwa [Step.after, hrun] at hafter

end Session

end FeedForward
