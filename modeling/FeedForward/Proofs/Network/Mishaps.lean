import FeedForward.Proofs.Network.Lasting

/-!
# What passes can fail with

Once its checks are behind it, a pass fails only for mishaps: a position outside a list, shapes that
do not go together, a unit without a rule, a buffer of the wrong size, a number out of range. It
never refuses an argument any more. These laws ask nothing of the network, so they hold also of
lists that contradict each other.
-/

namespace FeedForward

namespace Fault

/-- A cause of failure that is no refusal: no argument breaks a rule of the network, and no mode is
asked for that does not exist. -/
def Mishap (fault : Fault) : Prop := fault.family ≠ .validation ∧ fault.family ≠ .unsupported

theorem mishap_indexOutside : Mishap .indexOutside := ⟨by decide, by decide⟩

theorem mishap_shapesDiffer : Mishap .shapesDiffer := ⟨by decide, by decide⟩

theorem mishap_wrongKind : Mishap .wrongKind := ⟨by decide, by decide⟩

end Fault

open Fault (Mishap mishap_indexOutside mishap_shapesDiffer mishap_wrongKind)

/-! ## Lists and tensors -/

section

variable {β γ : Type}

theorem itemAt_finds (items : List γ) (i : Nat) : Check.Finds Mishap (itemAt items i) := by
  rw [itemAt]
  split
  · exact .ok _
  · exact .error mishap_indexOutside

namespace Tensor

variable (t : Tensor β)

theorem rows_finds : Check.Finds Mishap t.rows := by
  rw [rows]
  split
  · exact .ok _
  · exact .error mishap_indexOutside

theorem columns_finds : Check.Finds Mishap t.columns := by
  rw [columns]
  split
  · exact .ok _
  · exact .error mishap_indexOutside

theorem matrixShape_finds : Check.Finds Mishap t.matrixShape := by
  rw [matrixShape]
  split
  · exact .ok _
  · exact .error mishap_shapesDiffer

theorem slab_finds (row : Nat) : Check.Finds Mishap (t.slab row) := by
  rw [slab]
  split
  · split
    · exact .ok _
    · exact .error mishap_indexOutside
  · exact .error mishap_indexOutside

theorem entry_finds (row column : Nat) : Check.Finds Mishap (t.entry row column) := by
  rw [entry]
  split
  · split
    · split
      · exact .ok _
      · exact .error mishap_wrongKind
    · exact .error mishap_indexOutside
  · exact .error mishap_indexOutside

theorem zipWith_finds {α : Type} [Zero α] [Zero β] (f : α → β → γ) (a : Tensor α) (b : Tensor β) :
    Check.Finds Mishap (zipWith f a b) := by
  rw [zipWith]
  split
  · exact .ok _
  · split
    · exact .error mishap_shapesDiffer
    · exact .ok _

end Tensor

end

/-! ## Streams -/

namespace SynapseStream

variable {α β γ : Type}

theorem unitAt_finds (items : Array γ) (i : Nat) : Check.Finds Mishap (unitAt items i) := by
  rw [unitAt]
  split
  · exact .ok _
  · exact .error mishap_indexOutside

/-- What cuts a stream short is a mishap. -/
def Clean (stream : SynapseStream α) : Prop := ∀ fault, stream.cut = some fault → fault.Mishap

theorem clean_deliver {form : Nat → Except Fault (Synapse α)}
    (hform : ∀ i, Check.Finds Mishap (form i)) (places : List Nat) :
    (deliver form places).Clean := by
  induction places with
  | nil => exact nofun
  | cons i rest ih =>
      rw [deliver]
      split
      next fault hfault =>
        intro other hother
        cases hother
        exact hform i fault hfault
      next => exact ih

variable [Scalar α] [Precision α β]

theorem incoming_finds (weights : Tensor β) (outputs : Array α) (row : Nat) :
    Check.Finds Mishap (incoming weights outputs row) :=
  weights.columns_finds.bind fun _ => .ok _

omit [Scalar α] in
theorem returning_finds (weights previous : Tensor β) (deltas : Array α) (column : Nat) :
    Check.Finds Mishap (returning weights previous deltas column) :=
  weights.rows_finds.bind fun _ => .ok _

theorem clean_incoming {weights : Tensor β} {outputs : Array α} {row : Nat}
    {stream : SynapseStream α} (hstream : incoming weights outputs row = .ok stream) :
    stream.Clean := by
  obtain ⟨columns, -, hstream⟩ := Check.bind_eq_ok_iff.mp hstream
  cases hstream
  exact clean_deliver (fun i => (unitAt_finds outputs i).bind fun _ =>
    (weights.entry_finds row i).bind fun _ => .ok _) _

omit [Scalar α] in
theorem clean_returning {weights previous : Tensor β} {deltas : Array α} {column : Nat}
    {stream : SynapseStream α} (hstream : returning weights previous deltas column = .ok stream) :
    stream.Clean := by
  obtain ⟨rows, -, hstream⟩ := Check.bind_eq_ok_iff.mp hstream
  cases hstream
  exact clean_deliver (fun i => (unitAt_finds deltas i).bind fun _ =>
    (weights.entry_finds i column).bind fun _ => (previous.entry_finds i column).bind fun _ =>
      .ok _) _

end SynapseStream

/-! ## Neurons -/

namespace Neuron

variable {α : Type}

theorem push_finds (x : α) : Step.Finds Mishap (push x) := by
  refine .bind .get fun n => ?_
  split
  · exact fun s fault t hrun => nomatch hrun
  · exact .throw ⟨nofun, nofun⟩

theorem weights_finds : Step.Finds Mishap (weights : Step (Neuron α) (List α)) := by
  refine .bind .get fun n => ?_
  split
  · exact .pure _
  · exact .throw ⟨nofun, nofun⟩

variable {stream : SynapseStream α} (hstream : stream.Clean)

include hstream

theorem checkCut_finds : Step.Finds Mishap (checkCut stream) := by
  rw [checkCut]
  split
  next fault hfault => exact .throw (hstream fault hfault)
  next => exact .pure ()

variable [Scalar α]

theorem forward_finds : Step.Finds Mishap (forward stream) := by
  refine .bind .get fun n => ?_
  split
  next => exact .throw ⟨nofun, nofun⟩
  next fault _ hfault => exact .throw (hstream fault hfault)
  next => exact .modify _

omit hstream in
theorem descend_finds (rate gradient : α) (synapses : List (Synapse α)) :
    Step.Finds Mishap (descend rate gradient synapses) := by
  induction synapses generalizing gradient with
  | nil => exact .pure gradient
  | cons s rest ih => exact .bind .get fun _ => .bind (push_finds _) fun _ => ih _

omit hstream in
theorem pushZeros_finds (synapses : List (Synapse α)) :
    Step.Finds Mishap (pushZeros synapses) := by
  induction synapses with
  | nil => exact .pure ()
  | cons s rest ih => exact .bind (push_finds 0) fun _ => ih

omit hstream in
theorem effectiveLearningRate_finds (n : Neuron α) (iteration : Int) :
    Check.Finds Mishap (n.effectiveLearningRate iteration) := by
  rw [effectiveLearningRate]
  split
  · exact .error ⟨nofun, nofun⟩
  · rw [rateOf.eq_def]
    split
    · exact .ok _
    · exact .ok _
    · split
      · exact .ok _
      · exact .error ⟨nofun, nofun⟩

theorem backward_finds (iteration : Int) : Step.Finds Mishap (backward stream iteration) := by
  refine .bind .get fun n => ?_
  have hzeros : Step.Finds Mishap (do
      pushZeros stream.delivered
      checkCut stream
      backpropagate 0) :=
    .bind (pushZeros_finds _) fun _ => .bind (checkCut_finds hstream) fun _ => .modify _
  refine .ite (.bind (.throw ⟨nofun, nofun⟩) fun _ => .ite hzeros ?_) (.ite hzeros ?_)
  all_goals
    split
    next fault hfault => exact .throw (effectiveLearningRate_finds n iteration fault hfault)
    next rate _ =>
      exact .bind (descend_finds rate 0 _) fun _ => .bind (checkCut_finds hstream) fun _ =>
        .modify _

end Neuron

theorem softmax_finds {α : Type} [Scalar α] (zs : List α) :
    Check.Finds Mishap (softmax zs) := by
  rw [softmax]
  split
  · exact .error ⟨nofun, nofun⟩
  · exact .ok _

theorem Cost.total_finds {α : Type} [Scalar α] (cost : Cost α) (target actual : Tensor α) :
    Check.Finds Mishap (cost.total target actual) :=
  (Tensor.zipWith_finds _ _ _).bind fun _ => .ok _

/-! ## Passes over layers -/

namespace Network

variable {α β : Type} [Scalar α] [Precision α β] (net : Network α β)

theorem forwardRow_finds (weights : Tensor β) (outputs : Array α) (row : Nat) :
    Step.Finds Mishap (forwardRow weights outputs row) :=
  .lift_bind (SynapseStream.incoming_finds _ _ _) fun _ hstream =>
    Neuron.forward_finds (SynapseStream.clean_incoming hstream)

omit [Precision α β] in
theorem normalise_finds (count : Nat) :
    Step.Finds Mishap (normalise count : Step (List (Neuron α)) Unit) := by
  have hunit (shares : List α) (i : Nat) : Step.Finds Mishap (do
      Neuron.feedforward (← SynapseStream.unitAt shares.toArray i)) :=
    .bind (.lift (SynapseStream.unitAt_finds _ i)) fun _ => .modify _
  exact .bind .get fun _ => .bind (.lift (softmax_finds _)) fun shares =>
    .bind (.visit mishap_indexOutside (hunit shares) count 0) fun _ => .pure _

theorem forwardLayer_finds (boundary rows : Nat) (weights : Tensor β) (outputs : Array α) :
    Step.Finds Mishap (net.forwardLayer boundary rows weights outputs) := by
  refine .bind (.beyond (.visit mishap_indexOutside (forwardRow_finds weights outputs) rows 0) _)
    fun _ => .bind (.lift (itemAt_finds _ _)) fun activation => ?_
  have hbias : Step.Finds Mishap
      (if !net.isOutput (boundary + 1) then
        Step.onItem (Neuron.feedforward (1 : α)) 0 else pure ()) :=
    .ite (.onItem mishap_indexOutside (.modify _) 0) (.pure ())
  exact .ite (.bind (.beyond (normalise_finds rows) _) fun _ => hbias) hbias

theorem forwardBoundary_finds (boundary : Nat) :
    Step.Finds Mishap (net.forwardBoundary boundary) :=
  .bind (.lift (itemAt_finds _ _)) fun weights => .bind (.lift weights.rows_finds) fun _ =>
    .bind .get fun _ => .onItem mishap_indexOutside (net.forwardLayer_finds _ _ _ _) _

theorem forwardBoundaries_finds (boundaries : List Nat) :
    Step.Finds Mishap (net.forwardBoundaries boundaries) := by
  induction boundaries with
  | nil => exact .pure ()
  | cons boundary rest ih => exact .bind (net.forwardBoundary_finds boundary) fun _ => ih

theorem forwardUnits_finds : Step.Finds Mishap net.forwardUnits :=
  .bind (net.forwardBoundaries_finds _) fun _ => .bind .get fun _ =>
    .bind (.lift (itemAt_finds _ _)) fun _ => .pure _

theorem backwardColumn_finds (weights : Tensor β) {previous : Except Fault (Tensor β)}
    (hprevious : Check.Finds Mishap previous) {deltas : Except Fault (Array α)}
    (hdeltas : Check.Finds Mishap deltas) (rows : Nat) (iteration : Int) (column : Nat) :
    Step.Finds Mishap (backwardColumn weights previous deltas rows iteration column) :=
  .bind (.modify _) fun _ => .bind (.lift hprevious) fun _ => .bind (.lift hdeltas) fun _ =>
    .lift_bind (SynapseStream.returning_finds _ _ _ _) fun _ hstream =>
      .bind (Neuron.backward_finds (SynapseStream.clean_returning hstream) _) fun _ =>
        .bind Neuron.weights_finds fun _ => .pure _

variable [Zero β]

theorem seedDeltas_finds [Add β] (labels : List α) :
    Step.Finds Mishap (net.seedDeltas labels) := by
  have hseed (activation : Activation α) (weights : Tensor β) (i : Nat) :
      Step.Finds Mishap (net.seedDelta activation weights labels.toArray i) :=
    .bind .get fun _ => .bind (.lift (SynapseStream.unitAt_finds _ i)) fun _ =>
      .bind (.lift (weights.slab_finds i)) fun _ => .modify _
  refine .bind (.lift (itemAt_finds _ _)) fun activation => .bind (.lift (itemAt_finds _ _))
    fun weights => .onItem mishap_indexOutside ?_ _
  refine .bind .get fun layer => .bind ?_ fun _ => .pure ()
  exact .visit mishap_indexOutside (hseed activation weights) layer.length 0

theorem backwardBoundary_finds (iteration : Int) (boundary : Nat) :
    Step.Finds Mishap (net.backwardBoundary iteration boundary) := by
  have hdeltas (arena : Arena α) :
      Check.Finds Mishap (net.deltasBehindBias arena (boundary + 1)) :=
    (itemAt_finds arena (boundary + 1)).bind fun _ => .ok _
  exact .bind (.lift (itemAt_finds _ _)) fun weights => .bind (.lift weights.matrixShape_finds)
    fun _ => .bind .get fun arena => .bind (.onItem mishap_indexOutside
      (.visit mishap_indexOutside (backwardColumn_finds weights (itemAt_finds _ _)
        (hdeltas arena) _ iteration) _ 0) _) fun _ => .pure _

theorem backwardBoundaries_finds (iteration : Int) (count : Nat) (done : List (Tensor β)) :
    Step.Finds Mishap (net.backwardBoundaries iteration count done) := by
  induction count generalizing done with
  | zero => exact .pure done
  | succ count ih => exact .bind (net.backwardBoundary_finds iteration count) fun _ => ih _

theorem backwardUnits_finds [Add β] (labels : List α) (iteration : Int) :
    Step.Finds Mishap (net.backwardUnits labels iteration) :=
  .bind (net.seedDeltas_finds labels) fun _ => net.backwardBoundaries_finds iteration _ _

/-! ## Whole passes -/

variable {net}

omit [Precision α β] [Zero β] in
/-- The neurons of a network with an output layer can only be missing for a mishap. -/
theorem Bare.mishap {fault : Fault} (hbare : net.Bare fault) {last : Nat}
    (hcomplete : net.checkComplete = .ok last) : fault.Mishap := by
  have hlayer (size layer : Nat) : Check.Finds Mishap (net.buildLayer layer size) := by
    cases layer with
    | zero => exact .ok _
    | succ boundary =>
        exact (itemAt_finds net.rules boundary).bind fun _ =>
          (itemAt_finds net.activations boundary).bind fun _ => .ok _
  have hbuild := hbare.2
  rw [buildArena, hcomplete] at hbuild
  change (net.sizes.zipIdx.mapM fun place : Nat × Nat => net.buildLayer place.2 place.1) = _
    at hbuild
  exact Check.Finds.mapM (fun place : Nat × Nat => hlayer place.1 place.2) _ fault hbuild

omit [Zero β] in
theorem mishap_of_forward {values : List α} {fault : Fault} {after : Network α β} {last : Nat}
    (hcomplete : net.checkComplete = .ok last)
    (hrun : forward values net = .error fault after) : fault.Mishap := by
  rcases net.bare_or_atHand with ⟨cause, hbare⟩ | ⟨arena, hhand⟩
  · cases (hbare.forward_run values).symm.trans hrun
    exact hbare.mishap hcomplete
  · rw [hhand.forward_run] at hrun
    exact ((net.withArena arena).forwardUnits_finds).mapState hrun

theorem mishap_of_backward [Add β] {labels : List α} {iteration : Int} {fault : Fault}
    {after : Network α β} {last : Nat} (hcomplete : net.checkComplete = .ok last)
    (hrun : backward labels iteration net = .error fault after) : fault.Mishap := by
  rw [backward_run] at hrun
  rcases net.bare_or_atHand with ⟨cause, hbare⟩ | ⟨arena, hhand⟩
  · rw [hbare.onArena_run] at hrun
    cases hrun
    exact hbare.mishap hcomplete
  · rw [hhand.onArena_run] at hrun
    cases hback : net.backwardUnits labels iteration arena with
    | ok updates units => rw [hback] at hrun; cases hrun
    | error cause units =>
        rw [hback] at hrun
        cases hrun
        exact net.backwardUnits_finds labels iteration _ _ _ hback

end Network

end FeedForward
