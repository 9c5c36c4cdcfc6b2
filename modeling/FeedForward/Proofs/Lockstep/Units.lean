import FeedForward.Network.Updates
import FeedForward.Proofs.Lockstep
import FeedForward.Proofs.Neuron

/-!
# Neurons in lockstep

Of two neurons that were built alike, and of which both or neither are dropped, a forward pass makes
two with one output, whatever it has found in them. A backward pass then makes two equal neurons:
it resets the buffer before it pushes anything, and it reads neither of the deltas that it replaces.
A pass that fails fails on both, and leaves them as much alike as they were built.
-/

namespace FeedForward

namespace Neuron

variable {α : Type}

/-- Neurons that were built alike; where flags count, both are dropped or neither is. -/
def Akin (flags : Prop) (n m : Neuron α) : Prop :=
  ∃ dropped output delta buffer, m = { n with dropped, output, delta, buffer } ∧
    (flags → dropped = n.dropped)

/-- Neurons that differ at most in the delta and the buffer. -/
def Settled (n m : Neuron α) : Prop := ∃ delta buffer, m = { n with delta, buffer }

/-- Neurons that differ at most in the buffer. -/
def Seeded (n m : Neuron α) : Prop := ∃ buffer, m = { n with buffer }

/-- Neurons that differ at most in the delta. -/
def Cleared (n m : Neuron α) : Prop := ∃ delta, m = { n with delta }

variable {flags : Prop} {n m : Neuron α}

theorem Akin.imp {flags' : Prop} (hunits : Akin flags n m) (hflags : flags' → flags) :
    Akin flags' n m := by
  obtain ⟨dropped, output, delta, buffer, rfl, hdropped⟩ := hunits
  exact ⟨dropped, output, delta, buffer, rfl, fun h => hdropped (hflags h)⟩

theorem Settled.akin (hunits : Settled n m) : Akin flags n m := by
  obtain ⟨delta, buffer, rfl⟩ := hunits
  exact ⟨n.dropped, n.output, delta, buffer, rfl, fun _ => rfl⟩

theorem Seeded.settled (hunits : Seeded n m) : Settled n m := by
  obtain ⟨buffer, rfl⟩ := hunits
  exact ⟨n.delta, buffer, rfl⟩

theorem Cleared.settled (hunits : Cleared n m) : Settled n m := by
  obtain ⟨delta, rfl⟩ := hunits
  exact ⟨delta, n.buffer, rfl⟩

theorem Settled.refl (n : Neuron α) : Settled n n := ⟨n.delta, n.buffer, rfl⟩

theorem Akin.fresh_eq [Scalar α] (hunits : Akin flags n m) : m.fresh = n.fresh := by
  obtain ⟨_, _, _, _, rfl, _⟩ := hunits
  rfl

theorem akin_of_fresh [Scalar α] (hfresh : m.fresh = n.fresh)
    (hdropped : flags → m.dropped = n.dropped) : Akin flags n m := by
  refine ⟨m.dropped, m.output, m.delta, m.buffer, ?_, hdropped⟩
  obtain ⟨_, _, _, _, _, _, _, _, _, _, _⟩ := n
  obtain ⟨_, _, _, _, _, _, _, _, _, _, _⟩ := m
  simp only [fresh, mk.injEq] at hfresh
  simp only [hfresh]

/-! ## Forward -/

theorem agree_feedforward (x : α) (hunits : Akin True n m) :
    Step.Agree Settled (Akin True) (feedforward x n) (feedforward x m) := by
  obtain ⟨dropped, output, delta, buffer, rfl, hdropped⟩ := hunits
  cases hdropped trivial
  exact .ok ⟨delta, buffer, rfl⟩

theorem agree_forward [Scalar α] (stream : SynapseStream α) (hunits : Akin True n m) :
    Step.Agree Settled (Akin True) (forward stream n) (forward stream m) := by
  obtain ⟨hrule, hactivation⟩ : m.rule = n.rule ∧ m.activation = n.activation := by
    obtain ⟨_, _, _, _, rfl, _⟩ := hunits
    exact ⟨rfl, rfl⟩
  simp only [forward, Step.bind_run, Step.get_run, hrule, hactivation]
  cases n.rule with
  | none => exact .error hunits
  | some rule =>
      cases stream.cut with
      | some fault => exact .error hunits
      | none => exact agree_feedforward _ hunits

/-! ## Backward -/

theorem agree_push (x : α) (hunits : Cleared n m) :
    Step.Agree Cleared Cleared (push x n) (push x m) := by
  obtain ⟨delta, rfl⟩ := hunits
  rw [push_run, push_run]
  cases n.buffer.push? x with
  | some buffer => exact .ok ⟨delta, rfl⟩
  | none => exact .error ⟨delta, rfl⟩

theorem agree_descend [Scalar α] (rate gradient : α) (synapses : List (Synapse α))
    (hunits : Cleared n m) :
    Step.Agree Cleared Cleared (descend rate gradient synapses n)
      (descend rate gradient synapses m) := by
  induction synapses generalizing gradient n m with
  | nil => exact .ok hunits
  | cons s rest ih =>
      have hupdate : m.update rate s = n.update rate s := by
        obtain ⟨_, rfl⟩ := hunits
        rfl
      rw [descend, Step.bind_run, Step.get_run, Step.bind_run, Step.get_run]
      dsimp only
      rw [hupdate]
      exact .bind (agree_push _ hunits) fun _ _ _ => ih _

theorem agree_pushZeros [Scalar α] (synapses : List (Synapse α)) (hunits : Cleared n m) :
    Step.Agree Cleared Cleared (pushZeros synapses n) (pushZeros synapses m) := by
  induction synapses generalizing n m with
  | nil => exact .ok hunits
  | cons s rest ih => exact .bind (agree_push 0 hunits) fun _ _ _ => ih

theorem agree_checkCut (stream : SynapseStream α) (hunits : Cleared n m) :
    Step.Agree Cleared Cleared (checkCut stream n) (checkCut stream m) := by
  rw [checkCut]
  cases stream.cut with
  | some fault => exact .error hunits
  | none => exact .ok hunits

theorem agree_backpropagate (x : α) (hunits : Cleared n m) :
    Step.Agree Eq Cleared (backpropagate x n) (backpropagate x m) := by
  obtain ⟨delta, rfl⟩ := hunits
  exact .ok rfl

theorem agree_backward [Scalar α] (stream : SynapseStream α) (iteration : Int)
    (hunits : Cleared n m) :
    Step.Agree Eq Cleared (backward stream iteration n) (backward stream iteration m) := by
  have hkept : m.rule = n.rule ∧ m.dropped = n.dropped ∧ m.output = n.output ∧
      m.activation = n.activation ∧
      m.effectiveLearningRate iteration = n.effectiveLearningRate iteration := by
    obtain ⟨_, rfl⟩ := hunits
    exact ⟨rfl, rfl, rfl, rfl, rfl⟩
  obtain ⟨hrule, hdropped, houtput, hactivation, hrate⟩ := hkept
  rw [backward, Step.bind_run, Step.get_run, Step.bind_run, Step.get_run]
  dsimp only
  rw [hrule, hdropped, houtput, hactivation, hrate]
  cases n.rule with
  | none => exact .error hunits
  | some rule =>
      cases n.dropped with
      | true =>
          exact .bind (agree_pushZeros _ hunits) fun _ _ _ hpushed =>
            .bind (agree_checkCut _ hpushed) fun _ _ _ => agree_backpropagate 0
      | false =>
          cases n.effectiveLearningRate iteration with
          | error fault => exact .error hunits
          | ok rate =>
              exact .bind (agree_descend _ _ _ hunits) fun _ _ _ hpushed =>
                .bind (agree_checkCut _ hpushed) fun _ _ _ => agree_backpropagate _

end Neuron

namespace Network

variable {α β : Type} [Scalar α] [Precision α β] {n m : Neuron α}

theorem agree_forwardRow (weights : Tensor β) (outputs : Array α) (row : Nat)
    (hunits : Neuron.Akin True n m) :
    Step.Agree Neuron.Settled (Neuron.Akin True) (forwardRow weights outputs row n)
      (forwardRow weights outputs row m) :=
  .lift_bind hunits fun stream _ => Neuron.agree_forward stream hunits

/-- A column is computed afresh: the buffer is reset before anything is pushed. -/
theorem agree_backwardColumn (weights : Tensor β) (previous : Except Fault (Tensor β))
    (deltas : Except Fault (Array α)) (rows : Nat) (iteration : Int) (column : Nat)
    (hunits : Neuron.Settled n m) :
    Step.Agree Eq Neuron.Settled (backwardColumn weights previous deltas rows iteration column n)
      (backwardColumn weights previous deltas rows iteration column m) := by
  have hreset : Step.Agree Neuron.Cleared Neuron.Settled (Neuron.resetBuffer rows n)
      (Neuron.resetBuffer rows m) := by
    obtain ⟨delta, buffer, rfl⟩ := hunits
    exact .ok ⟨delta, rfl⟩
  refine .bind hreset fun _ a b hab => ?_
  refine .lift_bind hab.settled fun _ _ => .lift_bind hab.settled fun _ _ =>
    .lift_bind hab.settled fun stream _ => ?_
  refine .bind ((Neuron.agree_backward stream iteration hab).mono (fun _ _ h => h)
    fun _ _ h => h.settled) fun _ a b heq => ?_
  cases heq
  exact .refl _ (fun _ => rfl) .refl

variable [Add β] [Zero β]

theorem agree_seedDelta (net : Network α β) (activation : Activation α) (weights : Tensor β)
    (labels : Array α) (i : Nat) (hunits : Neuron.Settled n m) :
    Step.Agree Neuron.Seeded Neuron.Settled (net.seedDelta activation weights labels i n)
      (net.seedDelta activation weights labels i m) := by
  have houtput : m.output = n.output := by
    obtain ⟨_, _, rfl⟩ := hunits
    rfl
  rw [seedDelta, Step.bind_run, Step.get_run, Step.bind_run, Step.get_run]
  dsimp only
  rw [houtput]
  refine .lift_bind hunits fun label _ => .lift_bind hunits fun row _ => ?_
  obtain ⟨_, buffer, rfl⟩ := hunits
  exact .ok ⟨buffer, rfl⟩

end Network

end FeedForward
