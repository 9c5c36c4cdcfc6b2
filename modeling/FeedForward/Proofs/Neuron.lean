import FeedForward.Neuron
import FeedForward.Proofs.Step

/-!
# Passes of single neurons

What a pass leaves in a neuron is its output or its delta, its buffer and whether it is dropped.
No step of a pass touches the rest, whichever way the step ends. On a stream that nothing cuts
short, and with a buffer that has room, both passes of a neuron with a rule succeed, and the
results are those of one expression over the synapses.
-/

namespace FeedForward

namespace UpdateBuffer

variable {α : Type}

/-- The buffer with some more values behind those it holds. -/
def append (b : UpdateBuffer α) (updates : List α) : UpdateBuffer α :=
  { b with pushed := b.pushed ++ updates.toArray }

theorem push?_eq_append {b : UpdateBuffer α} (x : α) (hroom : b.filled < b.capacity) :
    b.push? x = some (b.append [x]) := by
  rw [push?, if_pos hroom]
  simp [append]

theorem append_append (b : UpdateBuffer α) (updates more : List α) :
    (b.append updates).append more = b.append (updates ++ more) := by
  simp [append]

theorem append_nil (b : UpdateBuffer α) : b.append [] = b := by simp [append]

theorem filled_append (b : UpdateBuffer α) (updates : List α) :
    (b.append updates).filled = b.filled + updates.length := by
  simp [append, filled]

/-- A buffer that was filled from empty hands over what was pushed. -/
theorem full?_append_empty (updates : List α) :
    ((empty updates.length).append updates).full? = some updates := by
  simp [full?, append, empty, filled]

end UpdateBuffer

namespace Neuron

variable {α : Type}

/-- The neuron with another output. -/
def withOutput (n : Neuron α) (x : α) : Neuron α := { n with output := x }

/-- The neuron with another delta. -/
def withDelta (n : Neuron α) (x : α) : Neuron α := { n with delta := x }

/-- The neuron with another buffer. -/
def withBuffer (n : Neuron α) (buffer : UpdateBuffer α) : Neuron α := { n with buffer }

/-! ## Single steps -/

theorem feedforward_run (x : α) (n : Neuron α) : feedforward x n = .ok () (n.withOutput x) := rfl

theorem backpropagate_run (x : α) (n : Neuron α) :
    backpropagate x n = .ok () (n.withDelta x) := rfl

theorem resetBuffer_run (capacity : Nat) (n : Neuron α) :
    resetBuffer capacity n = .ok () (n.withBuffer (.empty capacity)) := rfl

theorem push_run (x : α) (n : Neuron α) : push x n = match n.buffer.push? x with
    | some buffer => .ok () (n.withBuffer buffer)
    | none => .error (.bufferFull n.id n.layer n.buffer.capacity) n := by
  simp only [push, Step.bind_run, Step.get_run]
  cases n.buffer.push? x <;> rfl

theorem push_of_lt {n : Neuron α} (x : α) (hroom : n.buffer.filled < n.buffer.capacity) :
    push x n = .ok () (n.withBuffer (n.buffer.append [x])) := by
  rw [push_run, UpdateBuffer.push?_eq_append x hroom]

theorem weights_run {n : Neuron α} {updates : List α} (hfull : n.buffer.full? = some updates) :
    weights n = .ok updates n := by
  simp only [weights, Step.bind_run, Step.get_run, hfull, Step.pure_run]

theorem delivered_ofList (synapses : List (Synapse α)) :
    (SynapseStream.ofList synapses).delivered = synapses := rfl

theorem checkCut_run (synapses : List (Synapse α)) (n : Neuron α) :
    checkCut (.ofList synapses) n = .ok () n := rfl

/-! ## What passes keep -/

/-- A view of neurons that shows nothing of what passes compute. -/
structure Overlooks {κ : Type} (view : Neuron α → κ) : Prop where
  output : ∀ n x, view (n.withOutput x) = view n
  delta : ∀ n x, view (n.withDelta x) = view n
  buffer : ∀ n b, view (n.withBuffer b) = view n

section Keeps

variable {κ : Type} {view : Neuron α → κ} (hview : Overlooks view) (stream : SynapseStream α)
  (x : α)

include hview

theorem keeps_feedforward : Step.Keeps view (feedforward x) :=
  .modify fun n => hview.output n x

theorem keeps_backpropagate : Step.Keeps view (backpropagate x) :=
  .modify fun n => hview.delta n x

theorem keeps_resetBuffer (capacity : Nat) :
    Step.Keeps view (resetBuffer capacity : Step (Neuron α) Unit) :=
  .modify fun n => hview.buffer n (.empty capacity)

theorem keeps_push : Step.Keeps view (push x) := by
  intro n
  rw [Step.after, push_run]
  cases n.buffer.push? x with
  | none => rfl
  | some buffer => exact hview.buffer n buffer

omit hview in
theorem keeps_weights : Step.Keeps view (weights : Step (Neuron α) (List α)) := by
  refine .bind .get fun n => ?_
  cases n.buffer.full? with
  | some updates => exact .pure updates
  | none => exact .throw _

omit hview in
theorem keeps_checkCut : Step.Keeps view (checkCut stream) := by
  rw [checkCut]
  cases stream.cut with
  | some fault => exact .throw fault
  | none => exact .pure ()

variable [Scalar α]

theorem keeps_forward : Step.Keeps view (forward stream) := by
  refine .bind .get fun n => ?_
  split
  · exact .throw _
  · exact .throw _
  · exact keeps_feedforward hview _

theorem keeps_descend (rate gradient : α) (synapses : List (Synapse α)) :
    Step.Keeps view (descend rate gradient synapses) := by
  induction synapses generalizing gradient with
  | nil => exact .pure gradient
  | cons s rest ih => exact .bind .get fun _ => .bind (keeps_push hview _) fun _ => ih _

theorem keeps_pushZeros (synapses : List (Synapse α)) :
    Step.Keeps view (pushZeros synapses) := by
  induction synapses with
  | nil => exact .pure ()
  | cons s rest ih => exact .bind (keeps_push hview 0) fun _ => ih

theorem keeps_backward (iteration : Int) : Step.Keeps view (backward stream iteration) := by
  refine .bind .get fun n => ?_
  have hzeros : Step.Keeps view (do
      pushZeros stream.delivered
      checkCut stream
      backpropagate 0) :=
    .bind (keeps_pushZeros hview _) fun _ => .bind (keeps_checkCut _) fun _ =>
      keeps_backpropagate hview 0
  refine .ite (.bind (.throw _) fun _ => .ite hzeros ?_) (.ite hzeros ?_)
  all_goals
    cases n.effectiveLearningRate iteration with
    | error fault => exact .throw fault
    | ok rate =>
        exact .bind (keeps_descend hview _ _ _) fun _ => .bind (keeps_checkCut _) fun _ =>
          keeps_backpropagate hview _

end Keeps

variable [Scalar α]

/-- The neuron as it was built, without what passes leave in it. -/
def fresh (n : Neuron α) : Neuron α :=
  { n with dropped := false, output := 0, delta := 0, buffer := .empty 0 }

theorem overlooks_fresh : Overlooks (fresh (α := α)) :=
  ⟨fun _ _ => rfl, fun _ _ => rfl, fun _ _ => rfl⟩

/-! ## Forward -/

theorem forward_run {n : Neuron α} {rule : Rule} (hrule : n.rule = some rule)
    (synapses : List (Synapse α)) :
    forward (.ofList synapses) n =
      .ok () (n.withOutput (n.activation.apply (weightedInput rule synapses))) := by
  simp only [forward, Step.bind_run, Step.get_run, hrule, SynapseStream.ofList, feedforward_run]

/-! ## Backward -/

/-- A dropped neuron pushes a zero for every synapse. -/
theorem pushZeros_run {n : Neuron α} {synapses : List (Synapse α)}
    (hroom : n.buffer.filled + synapses.length ≤ n.buffer.capacity) :
    pushZeros synapses n =
      .ok () (n.withBuffer (n.buffer.append (synapses.map fun _ => 0))) := by
  induction synapses generalizing n with
  | nil => rw [List.map_nil, UpdateBuffer.append_nil]; rfl
  | cons s rest ih =>
      rw [List.length_cons] at hroom
      have hlt : n.buffer.filled < n.buffer.capacity := by omega
      have hrest := ih (n := n.withBuffer (n.buffer.append [0])) (by
        change (n.buffer.append [0]).filled + rest.length ≤ n.buffer.capacity
        rw [UpdateBuffer.filled_append, List.length_singleton]
        omega)
      simp only [pushZeros, Step.bind_run, push_of_lt 0 hlt, hrest]
      simp only [withBuffer, UpdateBuffer.append_append, List.map_cons, List.singleton_append]

/-- The updates of the synapses are pushed in order, and the gradient is their weighted sum. -/
theorem descend_run {n : Neuron α} {synapses : List (Synapse α)} (rate gradient : α)
    (hroom : n.buffer.filled + synapses.length ≤ n.buffer.capacity) :
    descend rate gradient synapses n = .ok (sumOnto gradient (products synapses))
      (n.withBuffer (n.buffer.append (synapses.map (n.update rate)))) := by
  -- The neuron changes only in its buffer, so the rest of the synapses meet the same rates.
  induction synapses generalizing n gradient with
  | nil => rw [List.map_nil, UpdateBuffer.append_nil]; rfl
  | cons s rest ih =>
      rw [List.length_cons] at hroom
      have hlt : n.buffer.filled < n.buffer.capacity := by omega
      have hrest := ih (n := n.withBuffer (n.buffer.append [n.update rate s]))
        (gradient + s.value * s.weight) (by
          change (n.buffer.append [n.update rate s]).filled + rest.length ≤ n.buffer.capacity
          rw [UpdateBuffer.filled_append, List.length_singleton]
          omega)
      simp only [descend, Step.bind_run, Step.get_run, push_of_lt (n.update rate s) hlt, hrest]
      simp only [withBuffer, UpdateBuffer.append_append, List.map_cons, List.singleton_append]
      rfl

/-- A neuron that takes part in a backward pass pushes one update for every synapse, and its delta
is the weighted sum of theirs times the slope at its output. -/
theorem backward_run {n : Neuron α} {rule : Rule} {iteration : Int} {rate : α}
    (hrule : n.rule = some rule) (hdropped : n.dropped = false)
    (hrate : n.effectiveLearningRate iteration = .ok rate) {synapses : List (Synapse α)}
    (hroom : n.buffer.filled + synapses.length ≤ n.buffer.capacity) :
    backward (.ofList synapses) iteration n =
      .ok () ((n.withBuffer (n.buffer.append (synapses.map (n.update rate)))).withDelta
        (sumOnto 0 (products synapses) * n.activation.derivative n.output)) := by
  simp only [backward, Step.bind_run, Step.get_run, hrule, hdropped, hrate, Option.isNone_some,
    Bool.false_eq_true, if_false, delivered_ofList, descend_run rate 0 hroom, checkCut_run,
    backpropagate_run]

theorem backward_run_of_dropped {n : Neuron α} {rule : Rule} {iteration : Int}
    (hrule : n.rule = some rule) (hdropped : n.dropped = true) {synapses : List (Synapse α)}
    (hroom : n.buffer.filled + synapses.length ≤ n.buffer.capacity) :
    backward (.ofList synapses) iteration n =
      .ok () ((n.withBuffer (n.buffer.append (synapses.map fun _ => 0))).withDelta 0) := by
  simp only [backward, Step.bind_run, Step.get_run, hrule, hdropped, Option.isNone_some,
    Bool.false_eq_true, if_false, if_true, delivered_ofList, pushZeros_run hroom, checkCut_run,
    backpropagate_run]

end Neuron

end FeedForward
