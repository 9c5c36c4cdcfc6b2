import FeedForward.Proofs.Neuron

/-!
# Update buffers as bounded queues

Whatever a neuron is asked for, its buffer holds the values that were pushed since its size was last
set, in their order, with zeros behind them, and never more values than it has slots. A value that
is pushed into a full buffer is refused, and so is a buffer that is asked for before it is full. A
backward pass that has more synapses than there is room for stops at the first value too many; the
values in front of it stay, and the output and the delta are those from before. Nothing is said of
who sets the size: the passes of a network do so in front of every column.
-/

namespace FeedForward

namespace UpdateBuffer

variable {α : Type}

/-- A buffer of a given size into which these values were pushed. -/
def holding (size : Nat) (values : List α) : UpdateBuffer α := ⟨size, values.toArray⟩

theorem filled_holding (size : Nat) (values : List α) :
    (holding size values).filled = values.length := rfl

theorem append_holding (size : Nat) (values more : List α) :
    (holding size values).append more = holding size (values ++ more) := by
  simp [holding, append]

theorem slots_holding [Zero α] (size : Nat) (values : List α) :
    (holding size values).slots = values ++ .replicate (size - values.length) 0 := rfl

end UpdateBuffer

open UpdateBuffer (holding append_holding filled_holding slots_holding)

namespace Neuron

variable {α : Type}

/-! ## Values in a row -/

/-- Pushes some values one after the other, up to the first that finds the buffer full. -/
def pushAll : List α → Step (Neuron α) Unit
  | [] => return ()
  | x :: rest => do
    push x
    pushAll rest

theorem push_holding {n : Neuron α} {size : Nat} {values : List α}
    (hbuffer : n.buffer = holding size values) (hroom : values.length ≤ size) (x : α) :
    push x n = if values.length = size then .error (.bufferFull n.id n.layer size) n
      else .ok () (n.withBuffer (holding size (values ++ [x]))) := by
  by_cases hfull : values.length = size
  · have hpush : n.buffer.push? x = none := by
      rw [hbuffer, UpdateBuffer.push?, if_neg]
      exact Nat.not_lt.mpr (Nat.le_of_eq hfull.symm)
    rw [push_run, hpush, if_pos hfull, hbuffer]
    rfl
  · have hlt : n.buffer.filled < n.buffer.capacity := by
      rw [hbuffer]
      exact Nat.lt_of_le_of_ne hroom hfull
    rw [push_of_lt x hlt, if_neg hfull, hbuffer, append_holding]

/-- Values are pushed as long as there is room, and the first one too many is refused. -/
theorem pushAll_holding {n : Neuron α} {size : Nat} {values : List α}
    (hbuffer : n.buffer = holding size values) (hroom : values.length ≤ size) (more : List α) :
    pushAll more n = if values.length + more.length ≤ size
      then .ok () (n.withBuffer (holding size (values ++ more)))
      else .error (.bufferFull n.id n.layer size)
        (n.withBuffer (holding size (values ++ more.take (size - values.length)))) := by
  induction more generalizing n values with
  | nil =>
      rw [if_pos (by simpa using hroom), List.append_nil, ← hbuffer]
      rfl
  | cons x rest ih =>
      rw [pushAll, Step.bind_run, push_holding hbuffer hroom]
      by_cases hfull : values.length = size
      · rw [if_pos hfull, if_neg (by rw [List.length_cons]; omega), hfull, Nat.sub_self,
          List.take_zero, List.append_nil, ← hbuffer]
        rfl
      · have hmore : (values ++ [x]).length ≤ size := by
          rw [List.length_append, List.length_singleton]
          omega
        have hrest := ih (n := n.withBuffer (holding size (values ++ [x]))) rfl hmore
        have hleft : size - values.length = size - (values ++ [x]).length + 1 := by
          rw [List.length_append, List.length_singleton]
          omega
        have hcount : (values ++ [x]).length + rest.length =
            values.length + (x :: rest).length := by
          simp only [List.length_append, List.length_cons, List.length_nil]
          omega
        rw [if_neg hfull]
        dsimp only
        rw [hrest, hcount, hleft, List.take_succ_cons, List.append_assoc, List.append_assoc]
        rfl

variable [Scalar α]

theorem pushZeros_eq (synapses : List (Synapse α)) :
    pushZeros synapses = pushAll (synapses.map fun _ => 0) := by
  induction synapses with
  | nil => rfl
  | cons s rest ih => rw [pushZeros, List.map_cons, pushAll, ih]

/-- The updates are those of the neuron in front of the pass, which changes only in its buffer. -/
theorem descend_eq (rate gradient : α) (synapses : List (Synapse α)) (n : Neuron α) :
    descend rate gradient synapses n =
      (do
        pushAll (synapses.map (n.update rate))
        return sumOnto gradient (products synapses)) n := by
  induction synapses generalizing gradient n with
  | nil => rfl
  | cons s rest ih =>
      rw [descend, List.map_cons, pushAll]
      simp only [Step.bind_run, Step.get_run, push_run]
      cases n.buffer.push? (n.update rate s) with
      | none => rfl
      | some buffer =>
          have hrest := ih (gradient + s.value * s.weight) (n.withBuffer buffer)
          simp only [Step.bind_run] at hrest
          exact hrest

/-! ## Backward passes -/

/-- The values that a backward pass pushes if there is room for them: zeros of a dropped neuron, and
otherwise one update for every synapse, where the learning rate has a value. -/
def offered (n : Neuron α) (iteration : Int) (synapses : List (Synapse α)) :
    Except Fault (List α) :=
  if n.dropped then .ok (synapses.map fun _ => 0)
  else (n.effectiveLearningRate iteration).map fun rate => synapses.map (n.update rate)

/-- The delta that a backward pass over some synapses sets in the end. -/
def deltaOf (n : Neuron α) (synapses : List (Synapse α)) : α :=
  if n.dropped then 0 else sumOnto 0 (products synapses) * n.activation.derivative n.output

/-- A backward pass pushes what it offers, finds out whether the stream was cut and sets the delta.
Where it has nothing to offer it changes nothing. -/
theorem backward_eq {n : Neuron α} {rule : Rule} (hrule : n.rule = some rule)
    (stream : SynapseStream α) (iteration : Int) :
    backward stream iteration n = match n.offered iteration stream.delivered with
      | .error fault => .error fault n
      | .ok values => (do
          pushAll values
          checkCut stream
          backpropagate (n.deltaOf stream.delivered)) n := by
  cases hdropped : n.dropped with
  | true =>
      simp only [backward, Step.bind_run, Step.get_run, hrule, hdropped, Option.isNone_some,
        Bool.false_eq_true, if_false, if_true, pushZeros_eq, offered, deltaOf]
  | false =>
      simp only [backward, Step.bind_run, Step.get_run, hrule, hdropped, Option.isNone_some,
        Bool.false_eq_true, if_false, offered, deltaOf]
      cases n.effectiveLearningRate iteration with
      | error fault => rfl
      | ok rate =>
          simp only [Except.map, Step.bind_run, descend_eq, Step.pure_run]
          cases pushAll (stream.delivered.map (n.update rate)) n <;> rfl

theorem length_offered {n : Neuron α} {iteration : Int} {synapses : List (Synapse α)}
    {values : List α} (hoffered : n.offered iteration synapses = .ok values) :
    values.length = synapses.length := by
  rw [offered] at hoffered
  split at hoffered
  · cases hoffered
    exact List.length_map _
  · cases hrate : n.effectiveLearningRate iteration with
    | error fault => rw [hrate] at hoffered; cases hoffered
    | ok rate =>
        rw [hrate] at hoffered
        cases hoffered
        exact List.length_map _

/-! ## Histories -/

/-- What a neuron may be asked for. Between two passes it may be dropped and be taken back. -/
inductive Request (α : Type) where
  | setWeightVector (size : Int)
  | push (x : α)
  | weights
  | feedforward (x : α)
  | backpropagate (x : α)
  | forward (stream : SynapseStream α)
  | backward (stream : SynapseStream α) (iteration : Int)
  | drop (dropped : Bool)

namespace Request

/-- The neuron after it has been asked, whether it complied or refused. -/
def apply : Request α → Neuron α → Neuron α
  | setWeightVector size => Step.after (Neuron.setWeightVector size)
  | push x => Step.after (Neuron.push x)
  | weights => Step.after Neuron.weights
  | feedforward x => Step.after (Neuron.feedforward x)
  | backpropagate x => Step.after (Neuron.backpropagate x)
  | forward stream => Step.after (Neuron.forward stream)
  | backward stream iteration => Step.after (Neuron.backward stream iteration)
  | drop dropped => fun n => { n with dropped }

/-- The values that a neuron goes about to push when it is asked, first to last. -/
def pushes (n : Neuron α) : Request α → List α
  | push x => [x]
  | backward stream iteration =>
    match n.offered iteration stream.delivered with
    | .ok values => values
    | .error _ => []
  | _ => []

end Request

/-- The account of a buffer: the size that was last set and the values pushed since. -/
structure Ledger (α : Type) where
  size : Nat
  values : List α

namespace Ledger

/-- The account of a buffer whose size was never set. -/
def blank : Ledger α := ⟨0, []⟩

/-- The account after a request. A size that can be set starts a new one, and of the values that are
to be pushed as many are entered as there is room for. -/
def enter (n : Neuron α) (ledger : Ledger α) : Request α → Ledger α
  | .setWeightVector size =>
    match extent size with
    | .ok capacity => ⟨capacity, []⟩
    | .error _ => ledger
  | request => { ledger with
      values := ledger.values ++
        (request.pushes n).take (ledger.size - ledger.values.length) }

end Ledger

/-- The neuron after a history of requests. -/
def asked : List (Request α) → Neuron α → Neuron α
  | [], n => n
  | request :: rest, n => asked rest (request.apply n)

/-- The account of the buffer after a history of requests. -/
def ledger : List (Request α) → Neuron α → Ledger α → Ledger α
  | [], _, account => account
  | request :: rest, n, account => ledger rest (request.apply n) (account.enter n request)

/-- A neuron with a rule has the buffer that an account tells. -/
structure Agrees (n : Neuron α) (account : Ledger α) : Prop where
  rule_some : ∃ rule, n.rule = some rule
  buffer_eq : n.buffer = holding account.size account.values
  values_le : account.values.length ≤ account.size

/-- Requests leave alone what a neuron was built with. -/
theorem fresh_apply (request : Request α) (n : Neuron α) : (request.apply n).fresh = n.fresh := by
  cases request with
  | setWeightVector size =>
      have hset : Step.Keeps fresh (setWeightVector size : Step (Neuron α) Unit) := by
        refine .bind ?_ fun capacity => keeps_resetBuffer overlooks_fresh capacity
        intro n
        rw [Step.after, Step.ofExcept_run]
        cases extent size <;> rfl
      exact hset n
  | push x => exact keeps_push overlooks_fresh x n
  | weights => exact keeps_weights n
  | feedforward x => exact keeps_feedforward overlooks_fresh x n
  | backpropagate x => exact keeps_backpropagate overlooks_fresh x n
  | forward stream => exact keeps_forward overlooks_fresh stream n
  | backward stream iteration => exact keeps_backward overlooks_fresh stream iteration n
  | drop dropped => rfl

theorem fresh_asked (requests : List (Request α)) (n : Neuron α) :
    (asked requests n).fresh = n.fresh := by
  induction requests generalizing n with
  | nil => rfl
  | cons request rest ih => exact (ih _).trans (fresh_apply request n)

theorem values_le_enter {n : Neuron α} {account : Ledger α} (request : Request α)
    (hle : account.values.length ≤ account.size) :
    (account.enter n request).values.length ≤ (account.enter n request).size := by
  cases request with
  | setWeightVector size =>
      rw [Ledger.enter]
      cases extent size with
      | ok capacity => exact Nat.zero_le capacity
      | error fault => exact hle
  | _ =>
      simp only [Ledger.enter, List.length_append, List.length_take]
      omega

omit [Scalar α] in
/-- Pushing some values fills the buffer with as many of them as there is room for. -/
theorem buffer_pushAll {n : Neuron α} {size : Nat} {values : List α}
    (hbuffer : n.buffer = holding size values) (hroom : values.length ≤ size) (more : List α) :
    (Step.after (pushAll more) n).buffer =
      holding size (values ++ more.take (size - values.length)) := by
  rw [Step.after, pushAll_holding hbuffer hroom]
  by_cases hfits : values.length + more.length ≤ size
  · rw [if_pos hfits, List.take_of_length_le (by omega)]
    rfl
  · rw [if_neg hfits]
    rfl

omit [Scalar α] in
/-- What follows the pushes of a backward pass leaves the buffer alone. -/
theorem keepsBuffer_finish (stream : SynapseStream α) (delta : α) :
    Step.Keeps buffer (do checkCut stream; backpropagate delta) :=
  .bind (keeps_checkCut stream) fun _ => .modify fun _ => rfl

theorem keepsBuffer_forward (stream : SynapseStream α) :
    Step.Keeps buffer (forward stream) := by
  refine .bind .get fun n => ?_
  split
  · exact .throw _
  · exact .throw _
  · exact .modify fun _ => rfl

theorem buffer_backward {n : Neuron α} {account : Ledger α} (hagrees : n.Agrees account)
    (stream : SynapseStream α) (iteration : Int) :
    (Step.after (backward stream iteration) n).buffer = holding account.size (account.values ++
      ((Request.backward stream iteration).pushes n).take
        (account.size - account.values.length)) := by
  obtain ⟨rule, hrule⟩ := hagrees.rule_some
  rw [Step.after, backward_eq hrule, Request.pushes]
  cases n.offered iteration stream.delivered with
  | error fault => rw [List.take_nil, List.append_nil, ← hagrees.buffer_eq]
  | ok values =>
      have hpushed := buffer_pushAll hagrees.buffer_eq hagrees.values_le values
      have hrest := Step.after_bind (pushAll values)
        (fun _ => do checkCut stream; backpropagate (n.deltaOf stream.delivered)) n
      refine (congrArg buffer hrest).trans ?_
      rw [Step.after] at hpushed
      cases hrun : pushAll values n with
      | error fault t => rw [hrun] at hpushed; exact hpushed
      | ok x t =>
          rw [hrun] at hpushed
          exact (keepsBuffer_finish stream _ t).trans hpushed

/-- One request, whether the neuron complies or refuses. -/
theorem Agrees.apply {n : Neuron α} {account : Ledger α} (hagrees : n.Agrees account)
    (request : Request α) : (request.apply n).Agrees (account.enter n request) := by
  have hrule : (request.apply n).rule = n.rule :=
    (congrArg Neuron.rule (fresh_apply request n) : (request.apply n).fresh.rule = n.fresh.rule)
  have hquiet : n.buffer = holding account.size (account.values ++
      ([] : List α).take (account.size - account.values.length)) := by
    rw [List.take_nil, List.append_nil, hagrees.buffer_eq]
  refine ⟨hrule ▸ hagrees.rule_some, ?_, values_le_enter request hagrees.values_le⟩
  cases request with
  | setWeightVector size =>
      rw [Request.apply, Ledger.enter, Step.after, setWeightVector, Step.bind_run,
        Step.ofExcept_run]
      cases extent size with
      | ok capacity => rfl
      | error fault => exact hagrees.buffer_eq
  | push x =>
      have hpush : Step.after (push x) n = Step.after (pushAll [x]) n := by
        rw [Step.after, Step.after, pushAll, Step.bind_run]
        cases push x n <;> rfl
      rw [Request.apply, hpush]
      exact buffer_pushAll hagrees.buffer_eq hagrees.values_le [x]
  | weights => exact (keeps_weights n).trans hquiet
  | feedforward x => exact hquiet
  | backpropagate x => exact hquiet
  | forward stream => exact (keepsBuffer_forward stream n).trans hquiet
  | backward stream iteration => exact buffer_backward hagrees stream iteration
  | drop dropped => exact hquiet

/-- A history of requests. -/
theorem Agrees.asked {n : Neuron α} {account : Ledger α} (hagrees : n.Agrees account)
    (requests : List (Request α)) : (asked requests n).Agrees (ledger requests n account) := by
  induction requests generalizing n account with
  | nil => exact hagrees
  | cons request rest ih => exact ih (hagrees.apply request)

/-! ## What the account says -/

section

variable {n : Neuron α} {account : Ledger α} (hagrees : n.Agrees account)

include hagrees

omit [Scalar α] in
theorem Agrees.weights_run : weights n =
    if account.values.length = account.size then .ok account.values n
    else .error (.bufferNotFull n.id n.layer account.values.length account.size) n := by
  have hfull : n.buffer.full? =
      if account.values.length = account.size then some account.values else none := by
    rw [hagrees.buffer_eq]
    rfl
  simp only [weights, Step.bind_run, Step.get_run, hfull]
  split
  · rfl
  · rw [hagrees.buffer_eq]
    rfl

/-- A backward pass over a list of synapses pushes one value for each of them, or stops at the first
one that there is no room for. -/
theorem Agrees.backward_run {synapses : List (Synapse α)} {iteration : Int} {values : List α}
    (hoffered : n.offered iteration synapses = .ok values) :
    backward (.ofList synapses) iteration n =
      if account.values.length + synapses.length ≤ account.size then
        .ok () ((n.withBuffer (holding account.size (account.values ++ values))).withDelta
          (n.deltaOf synapses))
      else .error (.bufferFull n.id n.layer account.size) (n.withBuffer (holding account.size
        (account.values ++ values.take (account.size - account.values.length)))) := by
  obtain ⟨rule, hrule⟩ := hagrees.rule_some
  have hpushed := pushAll_holding hagrees.buffer_eq hagrees.values_le values
  rw [length_offered hoffered] at hpushed
  rw [backward_eq hrule, delivered_ofList, hoffered]
  simp only [Step.bind_run, hpushed]
  by_cases hfits : account.values.length + synapses.length ≤ account.size
  · simp only [if_pos hfits, checkCut_run, backpropagate_run]
  · simp only [if_neg hfits]

end

omit [Scalar α] in
theorem setWeightVector_run (size : Int) (n : Neuron α) :
    setWeightVector size n = match extent size with
      | .ok capacity => .ok () (n.withBuffer (holding capacity []))
      | .error fault => .error fault n := by
  rw [setWeightVector, Step.bind_run, Step.ofExcept_run]
  cases extent size <;> rfl

theorem exists_rate (rule : Rule) (learningRate : α) {iteration : Int}
    (hfits : Scalar.fits (α := α) iteration.toNat = true) :
    ∃ rate, rateOf rule learningRate iteration = .ok rate := by
  cases rule with
  | standard => exact ⟨_, rfl⟩
  | max => exact ⟨_, rfl⟩
  | annealing => exact ⟨_, if_pos hfits⟩

theorem offered_eq_ok {n : Neuron α} {rule : Rule} {iteration : Int} {rate : α}
    (hrule : n.rule = some rule) (hrate : rateOf rule n.learningRate iteration = .ok rate)
    (synapses : List (Synapse α)) : n.offered iteration synapses =
      .ok (synapses.map fun s => if n.dropped then 0 else n.update rate s) := by
  rw [offered]
  cases n.dropped with
  | true => rfl
  | false =>
      have hlearn : n.effectiveLearningRate iteration = .ok rate := by
        rw [effectiveLearningRate, hrule]
        exact hrate
      rw [hlearn]
      rfl

/-- After every history of a new neuron with a rule its buffer holds the values that were pushed
since its size was last set, followed by zeros, and they fit into it. The next value is refused if
there are as many as the size, and changes nothing then. A backward pass over a list of synapses
pushes a value for each of them in their order, zeros if the neuron is dropped, or stops at the
first one too many with the output and the delta from before. The buffer is handed over if there are
as many values as the size, and these are what is handed over. A negative size is refused. -/
theorem asked_create_bounded (rule : Rule) (id layer : Int) (activation : Activation α)
    (learningRate momentumWeight : α) (training : Bool) (requests : List (Request α)) :
    let start := create (some rule) id layer activation learningRate momentumWeight training
    let n := asked requests start
    let size := (ledger requests start .blank).size
    let pushed := (ledger requests start .blank).values
    (n.buffer = holding size pushed ∧ n.buffer.filled = pushed.length ∧ pushed.length ≤ size ∧
      n.buffer.slots = pushed ++ List.replicate (size - pushed.length) 0) ∧
    (∀ x, push x n = if pushed.length = size then .error (.bufferFull id layer size) n
      else .ok () (n.withBuffer (holding size (pushed ++ [x])))) ∧
    (∀ (synapses : List (Synapse α)) (iteration : Int),
      Scalar.fits (α := α) iteration.toNat = true →
      ∃ rate, rateOf rule learningRate iteration = .ok rate ∧
        let values := synapses.map fun s => if n.dropped then 0 else n.update rate s
        backward (.ofList synapses) iteration n =
          if pushed.length + synapses.length ≤ size then
            .ok () ((n.withBuffer (holding size (pushed ++ values))).withDelta
              (n.deltaOf synapses))
          else .error (.bufferFull id layer size)
            (n.withBuffer (holding size (pushed ++ values.take (size - pushed.length))))) ∧
    (weights n = if pushed.length = size then .ok pushed n
      else .error (.bufferNotFull id layer pushed.length size) n) ∧
    (∀ requested capacity, extent requested = .ok capacity →
      setWeightVector requested n = .ok () (n.withBuffer (holding capacity []))) ∧
    ∀ requested < 0, setWeightVector requested n = .error .extentRange n := by
  intro start n size pushed
  have hstart : start.Agrees .blank := ⟨⟨rule, rfl⟩, rfl, Nat.le_refl 0⟩
  have hagrees : n.Agrees (ledger requests start .blank) := hstart.asked requests
  have hfresh : n.fresh = start.fresh := fresh_asked requests start
  have hid : n.id = id := (congrArg Neuron.id hfresh : n.fresh.id = start.fresh.id)
  have hlayer : n.layer = layer :=
    (congrArg Neuron.layer hfresh : n.fresh.layer = start.fresh.layer)
  have hrule : n.rule = some rule :=
    (congrArg Neuron.rule hfresh : n.fresh.rule = start.fresh.rule)
  have hlearn : n.learningRate = learningRate :=
    (congrArg Neuron.learningRate hfresh : n.fresh.learningRate = start.fresh.learningRate)
  refine ⟨⟨hagrees.buffer_eq, ?_, hagrees.values_le, ?_⟩, fun x => ?_,
    fun synapses iteration hfits => ?_, ?_, fun requested capacity hextent => ?_,
    fun requested hnegative => ?_⟩
  · rw [hagrees.buffer_eq]
    exact filled_holding _ _
  · rw [hagrees.buffer_eq]
    exact slots_holding _ _
  · rw [← hid, ← hlayer]
    exact push_holding hagrees.buffer_eq hagrees.values_le x
  · obtain ⟨rate, hrate⟩ := exists_rate rule learningRate hfits
    rw [← hid, ← hlayer]
    exact ⟨rate, hrate, hagrees.backward_run (offered_eq_ok hrule (hlearn ▸ hrate) synapses)⟩
  · rw [← hid, ← hlayer]
    exact hagrees.weights_run
  · rw [setWeightVector_run, hextent]
  · have hextent : extent requested = .error .extentRange :=
      if_neg fun h => absurd h.1 (Int.not_le.mpr hnegative)
    rw [setWeightVector_run, hextent]

/-- A buffer of three slots that a dropped neuron fills, behind a value that nothing could take and
a size that could not be set. -/
def fillings : List (Request Double) :=
  [.push 1, .setWeightVector 3, .setWeightVector (-1), .push 1, .drop true,
    .backward (.ofList [⟨0, 1, 1, 0⟩, ⟨1, 1, 1, 0⟩]) 5]

/-- The buffer is full and takes nothing more, a further pass included. -/
theorem asked_create_bounded_fillings :
    Scalar.fits (α := Double) (Int.toNat 6) = true ∧
      let n := asked fillings (create (some .annealing) 4 2 .identity 1 1 false)
      n.buffer = holding 3 [1, 0, 0] ∧ weights n = .ok [1, 0, 0] n ∧
        push 1 n = .error (.bufferFull 4 2 3) n ∧
        backward (.ofList [⟨0, 1, 1, 0⟩]) 6 n =
          .error (.bufferFull 4 2 3) (n.withBuffer (holding 3 [1, 0, 0])) := by
  have hfits : Scalar.fits (α := Double) (Int.toNat 6) = true := by decide
  obtain ⟨⟨hbuffer, -⟩, hpush, hbackward, hweights, -⟩ :=
    asked_create_bounded .annealing 4 2 .identity 1 1 false fillings
  obtain ⟨rate, -, hpass⟩ := hbackward [⟨0, 1, 1, 0⟩] 6 hfits
  exact ⟨hfits, hbuffer, hweights, hpush 1, hpass⟩

end Neuron

end FeedForward
