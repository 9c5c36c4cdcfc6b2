import FeedForward.Proofs.Network.Lasting
import FeedForward.Proofs.Session.Run

/-!
# Failing batches and failing runs

A batch that fails leaves the weights, the last updates and the layers as they were, whatever failed
and wherever in the batch: every instance puts the last updates back in front of its pass, and the
sum of the updates always fits the weights. So a run that fails is where its finished batches have
brought it, but for training being off, and it has written no checkpoint.
-/

namespace FeedForward.Session

open Network

variable {α β τ : Type} [Scalar α] [Add β] [Zero β] [Precision α β]

/-! ## Batches -/

section

variable {iteration : Nat} {previous : List (Tensor β)} {x : Instance α} {rest : List (Instance α)}
  {merged : List (Tensor β)} {net : Network α β}

/-- A pass over one instance that succeeds is followed by those over the rest; its updates have the
extents of those that they are added to. -/
theorem trainOthers_cons {updates : List (Tensor β)} {middle : Network α β}
    (hrun : trainByInstance x iteration { net with previous } = .ok updates middle)
    (hshapes : updates.map Tensor.shape = merged.map Tensor.shape) :
    trainOthers iteration previous (x :: rest) (merged.map .stored) net =
      match trainOthers iteration previous rest
        ((List.zipWith Tensor.added merged updates).map .stored) middle with
      | .ok (errors, sum) after => .ok (middle.trainingError :: errors, sum) after
      | .error fault after => .error fault after := by
  have hmerge := mergeUpdates_run (α := α) hshapes
  simp only [trainOthers, Step.bind_run, Step.modify_run, hrun, Step.get_run, hmerge]
  cases trainOthers iteration previous rest
    ((List.zipWith Tensor.added merged updates).map .stored) middle <;> rfl

theorem trainOthers_cons_of_error {middle : Network α β} {fault : Fault}
    (hrun : trainByInstance x iteration { net with previous } = .error fault middle)
    (merged : List (Update α β)) :
    trainOthers iteration previous (x :: rest) merged net = .error fault middle := by
  simp only [trainOthers, Step.bind_run, Step.modify_run, hrun]

/-- A pass that succeeds leaves matrices with the extents of the weights to add its updates to. -/
theorem shapes_of_pass {updates : List (Tensor β)} {middle : Network α β}
    (hrun : trainByInstance x iteration { net with previous } = .ok updates middle)
    (hmerged : merged.map Tensor.shape = net.weights.map Tensor.shape) :
    updates.map Tensor.shape = merged.map Tensor.shape ∧
      (List.zipWith Tensor.added merged updates).map Tensor.shape =
        middle.weights.map Tensor.shape := by
  have hshapes := (lasting_of_trainByInstance_ok hrun).2
  have hsame : updates.map Tensor.shape = merged.map Tensor.shape := hshapes.trans hmerged.symm
  have hweights := weights_of_trainByInstance hrun
  exact ⟨hsame, ((shapes_added hsame).trans hmerged).trans (by rw [hweights])⟩

/-- What the passes in front of a failing one have left as the last updates is taken back. -/
theorem lasting_of_trainOthers_error {rest : List (Instance α)}
    (hmerged : merged.map Tensor.shape = net.weights.map Tensor.shape) {fault : Fault}
    {after : Network α β}
    (hrun : trainOthers iteration previous rest (merged.map .stored) net = .error fault after) :
    after.lasting = { net with previous }.lasting := by
  -- The last updates are put back in front of each pass, and a pass that fails leaves them there.
  induction rest generalizing merged net with
  | nil => cases hrun
  | cons x rest ih =>
      cases hpass : trainByInstance x iteration { net with previous } with
      | error cause middle =>
          rw [trainOthers_cons_of_error hpass] at hrun
          cases hrun
          exact lasting_of_trainByInstance_error hpass
      | ok updates middle =>
          obtain ⟨hsame, hsum⟩ := shapes_of_pass hpass hmerged
          rw [trainOthers_cons hpass hsame] at hrun
          cases hrest : trainOthers iteration previous rest
              ((List.zipWith Tensor.added merged updates).map .stored) middle with
          | ok result _ => rw [hrest] at hrun; cases hrun
          | error cause _ =>
              rw [hrest] at hrun
              cases hrun
              have hlasting := (lasting_of_trainByInstance_ok hpass).1
              exact (ih hsum hrest).trans
                (congrArg (fun net : Network α β => { net with previous }) hlasting)

/-- The sum of the updates has the extents of the weights. -/
theorem shapes_of_trainOthers {rest : List (Instance α)}
    (hmerged : merged.map Tensor.shape = net.weights.map Tensor.shape) {errors : List α}
    {sum : List (Update α β)} {after : Network α β}
    (hrun : trainOthers iteration previous rest (merged.map .stored) net =
      .ok (errors, sum) after) :
    ∃ total : List (Tensor β), sum = total.map .stored ∧
      total.map Tensor.shape = after.weights.map Tensor.shape := by
  induction rest generalizing merged net errors with
  | nil => cases hrun; exact ⟨merged, rfl, hmerged⟩
  | cons x rest ih =>
      cases hpass : trainByInstance x iteration { net with previous } with
      | error cause middle =>
          rw [trainOthers_cons_of_error hpass] at hrun
          cases hrun
      | ok updates middle =>
          obtain ⟨hsame, hsum⟩ := shapes_of_pass hpass hmerged
          rw [trainOthers_cons hpass hsame] at hrun
          cases hrest : trainOthers iteration previous rest
              ((List.zipWith Tensor.added merged updates).map .stored) middle with
          | error cause _ => rw [hrest] at hrun; cases hrun
          | ok result _ => rw [hrest] at hrun; cases hrun; exact ih hsum hrest

end

/-- A batch that fails does so in the pass over one of its instances. -/
theorem lasting_of_trainBatch_error {batch : List (Instance α)} {s after : Session α β τ}
    {fault : Fault} (hrun : trainBatch batch s = .error fault after) :
    after.network.lasting = s.network.lasting ∧
      after = { s with network := after.network } := by
  cases batch with
  | nil => cases hrun
  | cons x rest =>
      rcases Step.bind_eq_error hrun with hget | ⟨_, _, hget, hrun₁⟩
      · cases hget
      cases hget
      rcases Step.bind_eq_error hrun₁ with hnetwork | ⟨_, _, -, hrun₂⟩
      case inr =>
        rcases Step.bind_eq_error hrun₂ with hcount | ⟨_, _, -, hreturn⟩
        · cases hcount
        · cases hreturn
      obtain ⟨net, hbatch, rfl⟩ := onNetwork_eq_error hnetwork
      refine ⟨?_, rfl⟩
      rcases Step.bind_eq_error hbatch with hget | ⟨_, _, hget, hbatch₁⟩
      · cases hget
      cases hget
      rcases Step.bind_eq_error hbatch₁ with hfirst | ⟨updates, first, hfirst, hbatch₂⟩
      · exact lasting_of_trainByInstance_error hfirst
      obtain ⟨hlasting, hshapes⟩ := lasting_of_trainByInstance_ok hfirst
      have hweights : first.weights = s.network.weights := weights_of_trainByInstance hfirst
      rcases Step.bind_eq_error hbatch₂ with hget | ⟨_, _, hget, hbatch₃⟩
      · cases hget
      cases hget
      have hmerged : updates.map Tensor.shape = first.weights.map Tensor.shape := by
        rw [hshapes, hweights]
      rcases Step.bind_eq_error hbatch₃ with hothers | ⟨⟨errors, sum⟩, middle, hothers, hbatch₄⟩
      · exact (lasting_of_trainOthers_error hmerged hothers).trans
          (congrArg (fun net : Network α β => { net with previous := s.network.previous }) hlasting)
      -- Behind the passes nothing can fail: the sum has the extents of the weights.
      obtain ⟨total, rfl, htotal⟩ := shapes_of_trainOthers hmerged hothers
      rcases Step.bind_eq_error hbatch₄ with hupdate | ⟨_, _, -, hbatch₅⟩
      · cases (updateWeights_run (α := α) htotal rfl).symm.trans hupdate
      rcases Step.bind_eq_error hbatch₅ with hset | ⟨_, _, -, hreturn⟩
      · cases hset
      · cases hreturn

/-! ## Refused instances -/

theorem trainOthers_refused {net : Network α β} {x : Instance α} {fault : Fault}
    (hcheck : net.checkInstance x = .error fault) (iteration : Nat) (previous : List (Tensor β))
    (rest : List (Instance α)) (merged : List (Update α β)) :
    trainOthers iteration previous (x :: rest) merged net = .error fault { net with previous } :=
  have hagain : Network.checkInstance { net with previous } x = .error fault := hcheck
  trainOthers_cons_of_error (trainByInstance_refused hagain iteration) merged

theorem trainOthers_append_error {iteration : Nat} {previous : List (Tensor β)}
    {front rest : List (Instance α)} {merged sum : List (Update α β)} {errors : List α}
    {net middle after : Network α β} {fault : Fault}
    (hfront : trainOthers iteration previous front merged net = .ok (errors, sum) middle)
    (hrest : trainOthers iteration previous rest sum middle = .error fault after) :
    trainOthers iteration previous (front ++ rest) merged net = .error fault after := by
  induction front generalizing merged net errors with
  | nil => cases hfront; exact hrest
  | cons x front ih =>
      obtain ⟨_, _, hset, hfront₁⟩ := Step.bind_eq_ok hfront
      cases hset
      obtain ⟨updates, passed, htrain, hfront₂⟩ := Step.bind_eq_ok hfront₁
      obtain ⟨_, _, hget, hfront₃⟩ := Step.bind_eq_ok hfront₂
      cases hget
      cases hmerge : mergeUpdates (updates.map (Update.stored (α := α))) merged with
      | error cause _ => simp only [hmerge] at hfront₃; cases hfront₃
      | ok _ merged' =>
          simp only [hmerge] at hfront₃
          obtain ⟨⟨others, _⟩, _, hothers, hreturn⟩ := Step.bind_eq_ok hfront₃
          cases hreturn
          have happend := ih hothers
          simp only [List.cons_append, trainOthers, Step.bind_run, Step.modify_run, htrain,
            Step.get_run, hmerge, happend]

omit [Scalar α] [Add β] [Zero β] [Precision α β] in
/-- Instances that are not all valid have a first one that is refused. -/
theorem exists_refused {net : Network α β} {batch : List (Instance α)}
    (hinvalid : ¬ ∀ given ∈ batch, ∃ checked, net.checkInstance given = .ok checked) :
    ∃ front bad rest fault, batch = front ++ bad :: rest ∧
      (∀ given ∈ front, ∃ checked, net.checkInstance given = .ok checked) ∧
      net.checkInstance bad = .error fault := by
  induction batch with
  | nil => exact absurd (fun _ hnone => absurd hnone List.not_mem_nil) hinvalid
  | cons given batch ih =>
      cases hcheck : net.checkInstance given with
      | error fault => exact ⟨[], given, batch, fault, rfl, by simp, hcheck⟩
      | ok checked =>
          have hrest : ¬ ∀ other ∈ batch, ∃ checked, net.checkInstance other = .ok checked :=
            fun hall => hinvalid (List.forall_mem_cons.mpr ⟨⟨checked, hcheck⟩, hall⟩)
          obtain ⟨front, bad, rest, fault, rfl, hfront, hbad⟩ := ih hrest
          exact ⟨given :: front, bad, rest, fault, rfl,
            List.forall_mem_cons.mpr ⟨⟨checked, hcheck⟩, hfront⟩, hbad⟩

/-- A batch whose first instance is refused changes nothing. -/
theorem trainBatch_refused_first {s : Session α β τ} {x : Instance α} {fault : Fault}
    (hcheck : s.network.checkInstance x = .error fault) (rest : List (Instance α)) :
    trainBatch (x :: rest) s = .error fault s := by
  have hrun := trainByInstance_refused hcheck s.iteration
  simp only [trainBatch, onNetwork, Step.bind_run, Step.get_run, hrun, Step.mapState]

/-- A batch is refused for the first of its instances that the checks refuse. -/
theorem trainBatch_of_refused {s : Session α β τ} (hnet : s.network.WellFormed)
    (hcomplete : s.network.outputLayer.isSome) (htransformer : KeepsCount s.network.transformer)
    (hfits : Scalar.fits (α := α) s.iteration = true) {front : List (Instance α)}
    {bad : Instance α} {fault : Fault}
    (hfront : ∀ given ∈ front, ∃ checked, s.network.checkInstance given = .ok checked)
    (hbad : s.network.checkInstance bad = .error fault) (rest : List (Instance α)) :
    ∃ after, trainBatch (front ++ bad :: rest) s = .error fault after := by
  cases front with
  | nil => exact ⟨s, trainBatch_refused_first hbad rest⟩
  | cons given front =>
      obtain ⟨last, houtput⟩ := Option.isSome_iff_exists.mp hcomplete
      obtain ⟨net, iteration, log⟩ := s
      dsimp only at hnet houtput htransformer hfits hfront hbad
      obtain ⟨hgiven, hfront⟩ := List.forall_mem_cons.mp hfront
      have halike : Alike (net.snapshot 0) net := ⟨⟨_, _, rfl⟩, .refl _⟩
      obtain ⟨outcome, arena, -, hshapes, hrun, hkept⟩ := trainByInstance_after hnet houtput
        htransformer hfits 0 hgiven halike
      obtain ⟨outcomes, previous, arena', -, -, hothers, -⟩ := trainOthers_run hnet houtput
        htransformer hfits hfront 1 hshapes outcome.2 outcome.1 hkept
      -- The refused instance meets the layers of the network from before the batch.
      have happend := trainOthers_append_error hothers
        (trainOthers_refused (by exact hbad) iteration net.previous rest _)
      exact ⟨_, by
        simp only [List.cons_append, trainBatch, onNetwork, Step.bind_run, Step.get_run, hrun]
        rw [happend]
        rfl⟩

/-! ## Epochs -/

/-- Batches of which one fails have trained those in front of it. -/
theorem trainBatches_eq_error (listeners : List (Listener α τ)) {parts : List (List (Instance α))}
    (hparts : ∀ part ∈ parts, part ≠ []) {s after : Session α β τ} {fault : Fault}
    (hrun : trainBatches parts s = .error fault after) :
    ∃ (trained : List (List (Instance α × α))) (batch : List (Instance α))
        (rest : List (List (Instance α))) (stopped : Session α β τ),
      trained.map (List.map Prod.fst) ++ batch :: rest = parts ∧
      Happens listeners (batchEvents s.iteration trained) s stopped ∧
      stopped.iteration = s.iteration + trained.length ∧
      trainBatch batch stopped = .error fault after := by
  induction parts generalizing s with
  | nil => cases hrun
  | cons part parts ih =>
      rcases Step.bind_eq_error hrun with hfirst | ⟨errors, middle, hfirst, hrun₁⟩
      · exact ⟨[], part, parts, s, rfl, .nil s, rfl, hfirst⟩
      rcases Step.bind_eq_error hrun₁ with hothers | ⟨_, _, -, hreturn⟩
      case inr => cases hreturn
      obtain ⟨hlength, hiteration, hbatch⟩ :=
        happens_trainBatch listeners (hparts part List.mem_cons_self) hfirst
      obtain ⟨trained, batch, rest, stopped, hsplit, hevents, hcount, hfails⟩ :=
        ih (fun other hother => hparts other (List.mem_cons_of_mem part hother)) hothers
      refine ⟨part.zip errors :: trained, batch, rest, stopped, ?_, ?_, ?_, hfails⟩
      · rw [List.map_cons, List.map_fst_zip (Nat.le_of_eq hlength.symm), List.cons_append, hsplit]
      · rw [hiteration] at hevents
        exact batchEvents_cons s.iteration (part.zip errors) trained ▸ hbatch.append hevents
      · rw [hcount, hiteration, List.length_cons]
        omega

/-- A run has come to a halt: some epochs are behind it, in the next one some batches have been
trained and some are left. At most so many epochs were to be run. -/
structure Halted (plan : RunPlan) (listeners : List (Listener α τ)) (instances : List (Instance α))
    (epoch limit : Nat) (s : Session α β τ) (epochs : List (List (List (Instance α × α))))
    (trained : List (List (Instance α × α))) (left : List (List (Instance α)))
    (stopped : Session α β τ) : Prop where
  covers : ∀ batches ∈ epochs, Covers plan instances batches
  within : epochs.length < limit
  ordered : ∃ order : List Nat, order.Perm (List.range instances.length) ∧
    (plan.shuffle = false → order = List.range instances.length) ∧
    trained.map (List.map Prod.fst) ++ left =
      batches plan.batchSize.toNat (order.filterMap (instances[·]?))
  happens : Happens listeners (journal s.iteration epoch epochs ++
    batchEvents (s.iteration + epochs.length * batchCount plan instances) trained) s stopped
  iteration_eq : stopped.iteration =
    s.iteration + (epochs.length * batchCount plan instances + trained.length)

/-- What a run fails with where it has come to a halt: the fault of the next batch, or that of a
listener that hears of the epoch. -/
inductive Breaks (listeners : List (Listener α τ)) (epoch : Nat)
    (trained : List (List (Instance α × α))) (stopped : Session α β τ) (fault : Fault) :
    List (List (Instance α)) → Session α β τ → Prop where
  | batch {batch : List (Instance α)} {rest : List (List (Instance α))} {after : Session α β τ}
      (hrun : trainBatch batch stopped = .error fault after) :
      Breaks listeners epoch trained stopped fault (batch :: rest) after
  | report {log : τ}
      (htold : Listener.Told epoch (lossOf trained) listeners stopped.log (.error fault log)) :
      Breaks listeners epoch trained stopped fault [] { stopped with log }

section

variable {plan : RunPlan} (hsize : 0 < plan.batchSize.toNat) {listeners : List (Listener α τ)}
  {instances : List (Instance α)} {s after : Session α β τ} {fault : Fault}

include hsize

/-- An epoch fails in one of its batches or in its report. -/
theorem halted_runEpoch {epoch : Nat} {progress : Progress α}
    (hrun : runEpoch plan listeners instances.toArray epoch progress s = .error fault after)
    (limit : Nat) :
    ∃ trained left stopped,
      Halted plan listeners instances epoch (limit + 1) s [] trained left stopped ∧
      Breaks listeners epoch trained stopped fault left after := by
  simp only [runEpoch, List.size_toArray, List.getElem?_toArray] at hrun
  obtain ⟨hperm, hsame⟩ := perm_epochOrder plan instances.length progress.source
  have hparts : ∀ part ∈ batches plan.batchSize.toNat
      ((epochOrder plan instances.length progress.source).1.filterMap (instances[·]?)),
      part ≠ [] := by
    rintro _ hpart rfl
    exact Nat.not_succ_le_zero 0 (length_of_mem_batches hsize _ hpart).1
  rcases Step.bind_eq_error hrun with htrain | ⟨errors, stopped, htrain, hrun₁⟩
  · obtain ⟨trained, batch, rest, stopped, hsplit, hevents, hcount, hfails⟩ :=
      trainBatches_eq_error listeners hparts htrain
    refine ⟨trained, batch :: rest, stopped, ?_, .batch hfails⟩
    exact ⟨by simp, Nat.succ_pos limit, ⟨_, hperm, hsame, hsplit⟩, by simpa [journal] using hevents,
      by simpa using hcount⟩
  · obtain ⟨trained, hsplit, rfl, hcount, hevents⟩ := happens_trainBatches listeners hparts htrain
    rcases Step.bind_eq_error hrun₁ with hreport | ⟨_, _, -, hrun₂⟩
    · obtain ⟨log, hnotify, rfl⟩ := onLog_eq_error hreport
      refine ⟨trained, [], stopped, ?_, .report (Listener.told_iff.mpr hnotify)⟩
      refine ⟨by simp, Nat.succ_pos limit, ⟨_, hperm, hsame, by rw [List.append_nil, hsplit]⟩,
        by simpa [journal] using hevents, ?_⟩
      rw [hcount, ← hsplit, List.length_map, List.length_nil, Nat.zero_mul, Nat.zero_add]
    · split at hrun₂ <;> cases hrun₂

/-- A run that fails has come to a halt in one of its epochs. -/
theorem halted_runEpochs {left epoch : Nat} {progress : Progress α}
    (hrun : runEpochs plan listeners instances.toArray left epoch progress s =
      .error fault after) :
    ∃ epochs trained remaining stopped,
      Halted plan listeners instances epoch left s epochs trained remaining stopped ∧
      Breaks listeners (epoch + epochs.length) trained stopped fault remaining after := by
  induction left generalizing epoch progress s with
  | zero => cases hrun
  | succ left ih =>
      rcases Step.bind_eq_error hrun with hfirst | ⟨progress', middle, hfirst, hrest⟩
      · obtain ⟨trained, remaining, stopped, hhalted, hbreaks⟩ := halted_runEpoch hsize hfirst left
        exact ⟨[], trained, remaining, stopped, hhalted, hbreaks⟩
      obtain ⟨batches, hcovers, hevents, hiteration, -, -⟩ := happens_runEpoch hsize hfirst
      split at hrest
      next => cases hrest
      next =>
        obtain ⟨epochs, trained, remaining, stopped, hhalted, hbreaks⟩ := ih hrest
        refine ⟨batches :: epochs, trained, remaining, stopped, ?_, ?_⟩
        · have hcount := hcovers.count_eq
          have hothers := hhalted.happens
          have hend := hhalted.iteration_eq
          rw [hiteration] at hothers hend
          refine ⟨List.forall_mem_cons.mpr ⟨hcovers, hhalted.covers⟩,
            Nat.succ_lt_succ hhalted.within, hhalted.ordered, ?_, ?_⟩
          · have happend := hevents.append hothers
            rw [List.length_cons, Nat.succ_mul, Nat.add_comm (epochs.length * _),
              ← hcount, ← Nat.add_assoc, journal]
            simpa only [List.append_assoc, List.cons_append, List.nil_append, hcount] using happend
          · rw [hend, List.length_cons, Nat.succ_mul, hcount]
            omega
        · rw [List.length_cons, Nat.add_comm epochs.length, ← Nat.add_assoc]
          exact hbreaks

omit hsize in
theorem runEpochs_of_trainBatches_error {left epoch : Nat} {progress : Progress α}
    (hrun : trainBatches (batches plan.batchSize.toNat
      ((epochOrder plan instances.length progress.source).1.filterMap (instances[·]?))) s =
        .error fault after) :
    runEpochs plan listeners instances.toArray (left + 1) epoch progress s =
      .error fault after := by
  simp only [runEpochs, runEpoch, List.size_toArray, List.getElem?_toArray, Step.bind_run, hrun]

end

/-! ## Runs -/

/-- What a batch or a report that fails leaves behind. -/
theorem Breaks.after_eq {listeners : List (Listener α τ)} {epoch : Nat}
    {trained : List (List (Instance α × α))} {stopped after : Session α β τ} {fault : Fault}
    {left : List (List (Instance α))}
    (hbreaks : Breaks listeners epoch trained stopped fault left after) :
    ∃ source trainingError arena log, after =
      { stopped with network := { stopped.network with source, trainingError, arena }, log } := by
  cases hbreaks with
  | batch hrun =>
      obtain ⟨hlasting, hafter⟩ := lasting_of_trainBatch_error hrun
      obtain ⟨source, trainingError, arena, hnetwork⟩ := lasting_eq_iff.mp hlasting
      exact ⟨source, trainingError, arena, stopped.log, by rw [hafter, hnetwork]⟩
  | report htold => exact ⟨_, _, _, _, rfl⟩

theorem run_eq_error {plan : RunPlan} {listeners : List (Listener α τ)}
    {instances : List (Instance α)} {source : Generator}
    (hcheck : plan.check instances = .ok source) {s after : Session α β τ} {fault : Fault}
    (hrun : run plan listeners instances s = .error fault after) :
    ∃ ended, runEpochs plan listeners instances.toArray plan.epochs.toNat 1
        ⟨source, 0, 0, Scalar.infinity, 0⟩ (switched true s) = .error fault ended ∧
      after = switched false ended := by
  rw [run_of_check hcheck] at hrun
  cases hall : runEpochs plan listeners instances.toArray plan.epochs.toNat 1
      ⟨source, 0, 0, Scalar.infinity, 0⟩ (switched true s) with
  | ok progress ended => rw [hall] at hrun; cases hrun
  | error cause ended => rw [hall] at hrun; cases hrun; exact ⟨ended, rfl, rfl⟩

theorem run_of_runEpochs_error {plan : RunPlan} {listeners : List (Listener α τ)}
    {instances : List (Instance α)} {source : Generator}
    (hcheck : plan.check instances = .ok source) {s ended : Session α β τ} {fault : Fault}
    (hepochs : runEpochs plan listeners instances.toArray plan.epochs.toNat 1
      ⟨source, 0, 0, Scalar.infinity, 0⟩ (switched true s) = .error fault ended) :
    run plan listeners instances s = .error fault (switched false ended) := by
  rw [run_of_check hcheck, hepochs]

/-- A run that fails leaves the checkpoint as it was. -/
theorem runSaving_of_error [Encoding α] [Encoding β] {plan : RunPlan}
    {listeners : List (Listener α τ)} {instances : List (Instance α)} {s after : Session α β τ}
    {fault : Fault} (hrun : run plan listeners instances s = .error fault after)
    (checkpoint : Option (List UInt8)) :
    runSaving plan listeners instances (s, checkpoint) = .error fault (after, checkpoint) := by
  simp only [runSaving, hrun]

/-- A batch that fails leaves everything as it was but what passes leave in the neurons, the random
source and the training error, and it does fail for the first of its instances that the checks
refuse, wherever that one stands. So a run that fails is where the batches behind it have brought it
but for these and for training being off, its iteration has counted these batches, and the
checkpoint is what it was. -/
theorem run_atomic [Encoding α] [Encoding β] (plan : RunPlan) (listeners : List (Listener α τ))
    (instances : List (Instance α)) (session : Session α β τ) :
    (∀ batch fault after, trainBatch batch session = .error fault after →
      ∃ source trainingError arena, after =
        { session with network := { session.network with source, trainingError, arena } }) ∧
    (session.network.WellFormed → session.network.outputLayer.isSome →
      KeepsCount session.network.transformer → Scalar.fits (α := α) session.iteration = true →
      ∀ front bad rest fault,
        (∀ given ∈ front, ∃ checked, session.network.checkInstance given = .ok checked) →
        session.network.checkInstance bad = .error fault →
        ∃ after, trainBatch (front ++ bad :: rest) session = .error fault after) ∧
    (∀ source fault after, plan.check instances = .ok source →
      run plan listeners instances session = .error fault after →
      ∃ epochs trained left stopped broken,
        Halted plan listeners instances 1 plan.epochs.toNat (switched true session) epochs trained
          left stopped ∧
        Breaks listeners (1 + epochs.length) trained stopped fault left broken ∧
        (∃ source trainingError arena log, after = switched false
          { stopped with
            network := { stopped.network with source, trainingError, arena }, log }) ∧
        after.iteration =
          session.iteration + (epochs.length * batchCount plan instances + trained.length) ∧
        after.network.training = false ∧
        ∀ arena, after.network.arena = some arena →
          ∀ layer ∈ arena, ∀ n ∈ layer, n.training = false) ∧
    ∀ fault after checkpoint, run plan listeners instances session = .error fault after →
      runSaving plan listeners instances (session, checkpoint) =
        .error fault (after, checkpoint) := by
  refine ⟨fun batch fault after hrun => ?_, ?_, fun source fault after hcheck hrun => ?_,
    fun fault after checkpoint hrun => runSaving_of_error hrun checkpoint⟩
  · obtain ⟨hlasting, hafter⟩ := lasting_of_trainBatch_error hrun
    obtain ⟨source, trainingError, arena, hnetwork⟩ := lasting_eq_iff.mp hlasting
    exact ⟨source, trainingError, arena, by rw [hafter, hnetwork]⟩
  · intro hnet hcomplete htransformer hfits front bad rest fault hfront hbad
    exact trainBatch_of_refused hnet hcomplete htransformer hfits hfront hbad rest
  · obtain ⟨ended, hepochs, rfl⟩ := run_eq_error hcheck hrun
    obtain ⟨epochs, trained, left, stopped, hhalted, hbreaks⟩ :=
      halted_runEpochs (batchSize_of_check hcheck) hepochs
    obtain ⟨source, trainingError, arena, log, hended⟩ := hbreaks.after_eq
    obtain ⟨hoff, hunits⟩ := training_switched false ended
    refine ⟨epochs, trained, left, stopped, ended, hhalted, hbreaks,
      ⟨source, trainingError, arena, log, by rw [← hended]⟩, ?_, hoff, hunits⟩
    rw [hended]
    exact hhalted.iteration_eq

/-- An instance without the label that a supervised network needs. -/
def unlabelled : Instance Double := ⟨some (.ofList [1, 0]), none⟩

theorem checkInstance_unlabelled :
    practice.checkInstance unlabelled = .error .labelMissing := by
  rw [checkInstance]
  rfl

theorem valid_exercise : ∃ checked, practice.checkInstance exercise = .ok checked := by
  obtain ⟨label, hcheck, _⟩ := trainable_exercise.checkInstance practice_sound.wellFormed rfl
    fun _ => rfl
  exact ⟨_, hcheck⟩

/-- The plan of one epoch of single instances in their order. -/
def inOrder : RunPlan := ⟨1, 7, 1, false, true, none⟩

/-- The first batch of a run succeeds and leaves layers that refuse the second one. -/
theorem run_unlabelled :
    ∃ after, run inOrder [] [exercise, unlabelled]
        (⟨practice, 5, ()⟩ : Session Double Single Unit) = .error .labelMissing after ∧
      after.iteration = 6 := by
  have hready : CanTrain practice [exercise] :=
    ⟨practice_sound.wellFormed, rfl, fun _ => rfl, by simpa using valid_exercise⟩
  have hswitched := hready.switched true
  have hfits : Scalar.fits (α := Double) 5 = true := rfl
  have houtput : (Step.after (setTraining true) practice).outputLayer = some 2 := rfl
  obtain ⟨errors, trained, hfirst, hrefused, hcount⟩ : ∃ errors trained,
      trainBatch [exercise] (switched true (⟨practice, 5, ()⟩ : Session Double Single Unit)) =
        .ok errors trained ∧
      trained.network.checkInstance unlabelled = .error .labelMissing ∧ trained.iteration = 6 := by
    obtain ⟨outcomes, _, _, -, -, -, hfirst⟩ := trainBatch_alike hswitched.wellFormed houtput
      hswitched.transformer hfits (List.cons_ne_nil exercise []) hswitched.valid (.refl _) ()
    exact ⟨_, _, hfirst, checkInstance_unlabelled, rfl⟩
  obtain ⟨source, hcheck⟩ : ∃ source, inOrder.check
    [exercise, unlabelled] = .ok source := ⟨_, rfl⟩
  have hbatches : batches 1 [exercise, unlabelled] = [[exercise], [unlabelled]] := by
    simp [batches]
  have hepochs : runEpochs inOrder [] [exercise, unlabelled].toArray 1 1
      ⟨source, 0, 0, Scalar.infinity, 0⟩ (switched true ⟨practice, 5, ()⟩) =
        .error .labelMissing trained := by
    refine runEpochs_of_trainBatches_error ?_
    change trainBatches (batches 1 [exercise, unlabelled]) _ = _
    simp only [hbatches, trainBatches, Step.bind_run, hfirst, trainBatch_refused_first hrefused]
  exact ⟨switched false trained, run_of_runEpochs_error hcheck hepochs, hcount⟩

/-- A batch whose second instance is refused, and a run whose second batch is, with an old
checkpoint. -/
theorem run_atomic_unlabelled :
    let session : Session Double Single Unit := ⟨practice, 5, ()⟩
    practice.WellFormed ∧ practice.outputLayer.isSome ∧ KeepsCount practice.transformer ∧
      Scalar.fits (α := Double) 5 = true ∧
      (∀ given ∈ [exercise], ∃ checked, practice.checkInstance given = .ok checked) ∧
      practice.checkInstance unlabelled = .error .labelMissing ∧
      (∃ source trainingError arena, trainBatch [exercise, unlabelled, exercise] session =
        .error .labelMissing
          { session with network := { practice with source, trainingError, arena } }) ∧
      (∃ source, inOrder.check [exercise, unlabelled] = .ok source) ∧
      ∃ after, run inOrder [] [exercise, unlabelled] session = .error .labelMissing after ∧
        after.iteration = 6 ∧ after.network.training = false ∧
        runSaving inOrder [] [exercise, unlabelled] (session, some [7]) =
          .error .labelMissing (after, some [7]) ∧
        ∃ epochs trained left stopped broken,
          Halted inOrder [] [exercise, unlabelled] 1 1 (switched true session) epochs trained left
            stopped ∧
          Breaks [] (1 + epochs.length) trained stopped .labelMissing left broken ∧
          6 = 5 + (epochs.length * 2 + trained.length) ∧
          ∃ source trainingError arena log, after = switched false
            { stopped with
              network := { stopped.network with source, trainingError, arena }, log } := by
  intro session
  have hnet := practice_sound.wellFormed
  have hcomplete : practice.outputLayer.isSome := rfl
  have htransformer : KeepsCount practice.transformer := fun _ => rfl
  have hfits : Scalar.fits (α := Double) 5 = true := rfl
  have hfront : ∀ given ∈ [exercise], ∃ checked, practice.checkInstance given = .ok checked := by
    simpa using valid_exercise
  obtain ⟨source, hcheck⟩ : ∃ source, inOrder.check [exercise, unlabelled] = .ok source :=
    ⟨_, rfl⟩
  obtain ⟨after, hrun, hcount⟩ := run_unlabelled
  obtain ⟨hbatch, hrefused, hfails, hsaving⟩ :=
    run_atomic inOrder [] [exercise, unlabelled] session
  obtain ⟨broken, hbroken⟩ := hrefused hnet hcomplete htransformer hfits [exercise] unlabelled
    [exercise] .labelMissing hfront checkInstance_unlabelled
  obtain ⟨drawn, trainingError, arena, rfl⟩ := hbatch _ _ _ hbroken
  obtain ⟨epochs, trained, left, stopped, halting, hhalted, hbreaks, hafter, hiteration, hoff, -⟩ :=
    hfails source _ after hcheck hrun
  exact ⟨hnet, hcomplete, htransformer, hfits, hfront, checkInstance_unlabelled,
    ⟨drawn, trainingError, arena, hbroken⟩, ⟨source, hcheck⟩, after, hrun, hcount, hoff,
    hsaving _ _ _ hrun, epochs, trained, left, stopped, halting, hhalted, hbreaks,
    hcount.symm.trans hiteration, hafter⟩

end FeedForward.Session
