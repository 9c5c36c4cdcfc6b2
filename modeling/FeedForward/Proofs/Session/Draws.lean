import FeedForward.Proofs.Network.Draws
import FeedForward.Proofs.Session.Coherence
import FeedForward.Proofs.Session.Reweighted

/-!
# What runs draw

A run draws the masks of its passes, as far as it comes, and nothing else: it shuffles with a source
of its own, and merging updates does not see the network. What a run draws is computed along the
run, step by step, and every step takes the source on by what its account tells. How many epochs a
run with patience makes is not said here.
-/

namespace FeedForward

/-! ## Steps that keep accounts -/

/-- What is drawn behind a step that succeeds. -/
def behind {σ γ : Type} (result : EStateM.Result Fault σ γ) (account : γ → σ → List Draw) :
    List Draw :=
  match result with
  | .ok x s => account x s
  | .error _ _ => []

theorem behind_nothing {σ γ : Type} (result : EStateM.Result Fault σ γ) :
    behind result (fun _ _ => []) = [] := by
  cases result <;> rfl

namespace Network

variable {α β : Type}

/-- The flags of a network agree and passes can feed it. -/
structure Auditable (net : Network α β) : Prop where
  coherent : net.Coherent
  primed : net.Primed

/-- A step leaves a network auditable and takes its source on by what an account tells, whichever
way it ends. -/
def Accounts {σ γ : Type} (view : σ → Network α β) (act : Step σ γ) (account : σ → List Draw) :
    Prop :=
  ∀ s, (view s).Auditable → (view (Step.after act s)).Auditable ∧
    (view (Step.after act s)).source = (view s).source.skip (Draw.total (account s))

namespace Accounts

variable {σ γ δ : Type} {view : σ → Network α β}

theorem same {act : Step σ γ} (hact : ∀ s, (view s).Auditable → (view (Step.after act s)).Auditable)
    (hsource : ∀ s, (view (Step.after act s)).source = (view s).source) :
    Accounts view act fun _ => [] := fun s hs =>
  ⟨hact s hs, by rw [hsource, Draw.total_nil, Generator.skip_zero]⟩

theorem congr {act : Step σ γ} {account other : σ → List Draw} (hact : Accounts view act account)
    (hsame : ∀ s, account s = other s) : Accounts view act other := by
  intro s hs
  rw [← hsame s]
  exact hact s hs

theorem pure (x : γ) : Accounts view (Pure.pure x : Step σ γ) fun _ => [] :=
  .same (fun _ hs => hs) fun _ => rfl

theorem throw (fault : Fault) : Accounts view (throw fault : Step σ γ) fun _ => [] :=
  .same (fun _ hs => hs) fun _ => rfl

theorem get : Accounts view (MonadState.get : Step σ σ) fun _ => [] :=
  .same (fun _ hs => hs) fun _ => rfl

theorem bind {act : Step σ γ} {account : σ → List Draw} {next : γ → Step σ δ}
    {more : γ → σ → List Draw} (hact : Accounts view act account)
    (hnext : ∀ x, Accounts view (next x) (more x)) :
    Accounts view (act >>= next) fun s => account s ++ behind (act s) more := by
  intro s hs
  have hfirst := hact s hs
  rw [Step.after] at hfirst
  rw [Step.after_bind]
  dsimp only
  cases hrun : act s with
  | ok x t =>
      rw [hrun] at hfirst
      obtain ⟨haudit, hsource⟩ := hnext x t hfirst.1
      refine ⟨haudit, hsource.trans ?_⟩
      rw [hfirst.2, behind, Draw.total_append, Generator.skip_add]
  | error fault t =>
      rw [hrun] at hfirst
      refine ⟨hfirst.1, hfirst.2.trans ?_⟩
      rw [behind, List.append_nil]

/-- What follows may draw nothing. -/
theorem andThen {act : Step σ γ} {account : σ → List Draw} {next : γ → Step σ δ}
    (hact : Accounts view act account) (hnext : ∀ x, Accounts view (next x) fun _ => []) :
    Accounts view (act >>= next) account := by
  refine (hact.bind hnext).congr fun s => ?_
  rw [behind_nothing, List.append_nil]

theorem onNetwork {β τ : Type} {act : Step (Network α β) γ} {account : Network α β → List Draw}
    (hact : Accounts id act account) :
    Accounts (fun s : Session α β τ => s.network) (Session.onNetwork act)
      fun s => account s.network := by
  intro s hs
  have hafter := hact s.network hs
  rw [Step.after] at hafter ⊢
  rw [Session.onNetwork]
  cases hrun : act s.network with
  | ok x net => rw [hrun] at hafter; exact hafter
  | error fault net => rw [hrun] at hafter; exact hafter

theorem onLog {β τ : Type} (act : Step τ γ) :
    Accounts (fun s : Session α β τ => s.network) (Session.onLog act) fun _ => [] := by
  refine .same (Session.preserves_onLog act) fun s => ?_
  rw [Step.after, Session.onLog]
  cases act s.log <;> rfl

end Accounts

end Network

namespace Session

open Network

variable {α β τ : Type} [Scalar α] [Add β] [Zero β] [Precision α β]

/-! ## What a run draws -/

/-- What the instances of a batch behind the first one draw. -/
def othersDraws (iteration : Nat) (previous : List (Tensor β)) :
    List (Instance α) → List (Update α β) → Network α β → List Draw
  | [], _, _ => []
  | x :: rest, merged, net =>
    checkedDraws net (net.checkInstance x) ++
      behind (trainByInstance x iteration { net with previous }) fun updates trained =>
        match mergeUpdates (updates.map .stored) merged with
        | .error _ _ => []
        | .ok () merged => othersDraws iteration previous rest merged trained

/-- What a batch draws. -/
def batchDraws (iteration : Nat) : List (Instance α) → Network α β → List Draw
  | [], _ => []
  | x :: rest, net =>
    checkedDraws net (net.checkInstance x) ++
      behind (trainByInstance x iteration net) fun updates trained =>
        othersDraws iteration net.previous rest (updates.map .stored) trained

/-- What batches draw, one after the other. -/
def batchesDraws : List (List (Instance α)) → Session α β τ → List Draw
  | [], _ => []
  | batch :: rest, s =>
    batchDraws s.iteration batch s.network ++ behind (trainBatch batch s) fun _ => batchesDraws rest

/-- What an epoch draws from the source of the network, given that of the run. -/
def epochDraws (plan : RunPlan) (instances : Array (Instance α)) (source : Generator) :
    Session α β τ → List Draw :=
  batchesDraws (batches plan.batchSize.toNat
    ((epochOrder plan instances.size source).1.filterMap fun i => instances[i]?))

/-- What the epochs draw that are left. -/
def epochsDraws (plan : RunPlan) (listeners : List (Listener α τ))
    (instances : Array (Instance α)) : Nat → Nat → Progress α → Session α β τ → List Draw
  | 0, _, _, _ => []
  | left + 1, epoch, progress, s =>
    epochDraws plan instances progress.source s ++
      behind (runEpoch plan listeners instances epoch progress s) fun progress s =>
        if 0 < progress.stale && plan.stopsAfter progress.stale then []
        else epochsDraws plan listeners instances left (epoch + 1) progress s

/-- What a run draws, whichever way it ends. -/
def runDraws (plan : RunPlan) (listeners : List (Listener α τ)) (instances : List (Instance α))
    (s : Session α β τ) : List Draw :=
  match plan.check instances with
  | .error _ => []
  | .ok source => epochsDraws plan listeners instances.toArray plan.epochs.toNat 1
      ⟨source, 0, 0, Scalar.infinity, 0⟩ (switched true s)

/-! ## Runs keep this account -/

omit [Scalar α] [Add β] [Zero β] [Precision α β] in
theorem accounts_setPrevious (previous : List (Tensor β)) :
    Accounts id (modify fun net : Network α β => { net with previous }) fun _ => [] :=
  .same (fun _ hnet => ⟨hnet.coherent.of_same rfl rfl, hnet.primed.of_bearings rfl⟩) fun _ => rfl

theorem accounts_trainByInstance (x : Instance α) (iteration : Int) :
    Accounts id (trainByInstance x iteration : Step (Network α β) (List (Tensor β)))
      fun net => checkedDraws net (net.checkInstance x) := fun net hnet =>
  ⟨⟨coherent_trainByInstance x iteration net hnet.coherent,
    primed_trainByInstance x iteration net hnet.primed⟩,
    source_apply hnet.coherent hnet.primed (.trainByInstance x iteration)⟩

theorem accounts_updateWeights (updates : List (Update α β)) :
    Accounts id (updateWeights updates : Step (Network α β) Unit) fun _ => [] := fun net hnet =>
  ⟨⟨coherent_updateWeights updates net hnet.coherent,
    hnet.primed.of_bearings (keepsBearings_updateWeights updates net)⟩,
    source_apply hnet.coherent hnet.primed (.updateWeights updates)⟩

theorem accounts_trainOthers (iteration : Nat) (previous : List (Tensor β))
    (rest : List (Instance α)) (merged : List (Update α β)) :
    Accounts id (trainOthers iteration previous rest merged)
      (othersDraws iteration previous rest merged) := by
  induction rest generalizing merged with
  | nil => exact .pure _
  | cons x rest ih =>
      have hmerge (updates : List (Tensor β)) (trained : Network α β) : Accounts id
          (match mergeUpdates (updates.map .stored) merged with
            | .error fault _ => throw fault
            | .ok () merged => do
              let others ← trainOthers iteration previous rest merged
              return (trained.trainingError :: others.1, others.2))
          fun net => match mergeUpdates (updates.map .stored) merged with
            | .error _ _ => []
            | .ok () merged => othersDraws iteration previous rest merged net := by
        cases mergeUpdates (updates.map (Update.stored (α := α))) merged with
        | error fault _ => exact .throw fault
        | ok _ merged => exact (ih merged).andThen fun _ => .pure _
      rw [trainOthers]
      exact ((accounts_setPrevious previous).bind fun _ =>
        (accounts_trainByInstance x iteration).bind fun updates =>
          Accounts.get.bind fun trained => hmerge updates trained).congr fun net => rfl

theorem accounts_trainBatch (batch : List (Instance α)) :
    Accounts (fun s : Session α β τ => s.network) (trainBatch batch)
      fun s => batchDraws s.iteration batch s.network := by
  cases batch with
  | nil => exact .pure _
  | cons x rest =>
      have hnet (iteration : Nat) : Accounts id (do
          let previous := (← get).previous
          let updates ← trainByInstance x iteration
          let error := (← get).trainingError
          let others ← trainOthers iteration previous rest (updates.map .stored)
          updateWeights others.2
          modify fun net => { net with previous := storedUpdates others.2 }
          return error :: others.1 : Step (Network α β) (List α))
          (batchDraws iteration (x :: rest)) := by
        exact (Accounts.get.bind fun net => (accounts_trainByInstance x iteration).bind
          fun updates => Accounts.get.bind fun _ => (accounts_trainOthers iteration net.previous
            rest (updates.map .stored)).andThen fun merged => (accounts_updateWeights _).andThen
              fun _ => (accounts_setPrevious _).andThen fun _ => .pure _).congr fun net => rfl
      have hcount (iteration : Nat) : Accounts (fun s : Session α β τ => s.network)
          (modify fun s => { s with iteration }) fun _ => [] :=
        .same (fun _ hs => hs) fun _ => rfl
      rw [trainBatch]
      exact (Accounts.get.bind fun s => (hnet s.iteration).onNetwork.andThen fun _ =>
        (hcount (s.iteration + 1)).andThen fun _ => .pure _).congr fun s => rfl

theorem accounts_trainBatches (parts : List (List (Instance α))) :
    Accounts (fun s : Session α β τ => s.network) (trainBatches parts) (batchesDraws parts) := by
  induction parts with
  | nil => exact .pure _
  | cons part parts ih =>
      rw [trainBatches]
      exact (accounts_trainBatch part).bind fun _ => ih.andThen fun _ => .pure _

theorem accounts_runEpoch (plan : RunPlan) (listeners : List (Listener α τ))
    (instances : Array (Instance α)) (epoch : Nat) (progress : Progress α) :
    Accounts (fun s : Session α β τ => s.network)
      (runEpoch plan listeners instances epoch progress)
      (epochDraws plan instances progress.source) := by
  rw [runEpoch]
  refine (accounts_trainBatches _).andThen fun errors => (Accounts.onLog _).andThen fun _ => ?_
  dsimp only
  split
  · exact .pure _
  · exact .pure _

theorem accounts_runEpochs (plan : RunPlan) (listeners : List (Listener α τ))
    (instances : Array (Instance α)) (left epoch : Nat) (progress : Progress α) :
    Accounts (fun s : Session α β τ => s.network)
      (runEpochs plan listeners instances left epoch progress)
      (epochsDraws plan listeners instances left epoch progress) := by
  induction left generalizing epoch progress with
  | zero => exact .pure _
  | succ left ih =>
      rw [runEpochs]
      refine (accounts_runEpoch plan listeners instances epoch progress).bind fun progress => ?_
      split
      · exact .pure _
      · exact ih (epoch + 1) progress

theorem accounts_run (plan : RunPlan) (listeners : List (Listener α τ))
    (instances : List (Instance α)) :
    Accounts (fun s : Session α β τ => s.network) (run plan listeners instances)
      (runDraws plan listeners instances) := by
  intro s hs
  cases hcheck : plan.check instances with
  | error fault =>
      rw [Step.after, run_of_check_error hcheck, runDraws, hcheck]
      exact ⟨hs, (Generator.skip_zero _).symm⟩
  | ok source =>
      have hswitched (s : Session α β τ) (training : Bool) (hs : s.network.Auditable) :
          (switched training s).network.Auditable :=
        ⟨coherent_setTraining training s.network hs.coherent,
          primed_setTraining training s.network hs.primed⟩
      obtain ⟨hafter, hsource⟩ := accounts_runEpochs plan listeners instances.toArray
        plan.epochs.toNat 1 ⟨source, 0, 0, Scalar.infinity, 0⟩ (switched true s)
        (hswitched s true hs)
      rw [Step.after] at hafter hsource
      rw [Step.after, run_of_check hcheck, runDraws, hcheck]
      cases hrun : runEpochs plan listeners instances.toArray plan.epochs.toNat 1
          ⟨source, 0, 0, Scalar.infinity, 0⟩ (switched true s) with
      | ok progress ended =>
          rw [hrun] at hafter hsource
          exact ⟨hswitched ended false hafter, hsource⟩
      | error fault ended =>
          rw [hrun] at hafter hsource
          exact ⟨hswitched ended false hafter, hsource⟩

/-! ## Runs draw masks only -/

omit [Scalar α] [Add β] [Zero β] [Precision α β] in
/-- Masks are drawn for so many input units. -/
def Masking (units : Nat) (net : Network α β) : Prop := net.training = true ∧ net.width 0 = units

variable {units : Nat}

omit [Add β] [Zero β] [Precision α β] in
theorem Masking.of_lasting {net after : Network α β} {weights previous : List (Tensor β)}
    (hnet : Masking units net)
    (hsame : after.lasting = { net with weights, previous }.lasting) : Masking units after := by
  obtain ⟨_, _, _, rfl⟩ := lasting_eq_iff.mp hsame
  exact hnet

omit [Scalar α] [Add β] [Zero β] [Precision α β] in
theorem Masking.checkedDraws {γ : Type} {net : Network α β} (hnet : Masking units net)
    (check : Except Fault γ) :
    ∃ count, checkedDraws net check = List.replicate count (.masks units) ∧
      ∀ x, check = .ok x → count = 1 := by
  obtain ⟨htraining, hwidth⟩ := hnet
  cases check with
  | error fault => exact ⟨0, rfl, nofun⟩
  | ok x =>
      refine ⟨1, ?_, fun _ _ => rfl⟩
      rw [Network.checkedDraws, passDraws, if_pos htraining, hwidth, List.replicate_one]

/-- The pass over an instance draws one mask for each unit, if it succeeds. -/
theorem Masking.trainingDraws {net : Network α β} (hnet : Masking units net) (x : Instance α)
    (iteration : Int) :
    ∃ count, Network.checkedDraws net (net.checkInstance x) =
        List.replicate count (.masks units) ∧
      ∀ updates trained, trainByInstance x iteration net = .ok updates trained →
        count = 1 ∧ Masking units trained := by
  obtain ⟨count, hdraws, hcount⟩ := hnet.checkedDraws (net.checkInstance x)
  refine ⟨count, hdraws, fun updates trained hpass => ⟨?_, ?_⟩⟩
  · obtain ⟨_, _, _, _, _, hcheck, -⟩ := parts_of_trainByInstance_ok hpass
    exact hcount _ hcheck
  · exact hnet.of_lasting (lasting_of_trainByInstance_ok hpass).1

theorem othersDraws_eq (iteration : Nat) (previous : List (Tensor β)) (rest : List (Instance α))
    (merged : List (Update α β)) {net : Network α β} (hnet : Masking units net) :
    ∃ count, othersDraws iteration previous rest merged net =
        List.replicate count (.masks units) ∧
      ∀ result after, trainOthers iteration previous rest merged net = .ok result after →
        count = rest.length := by
  induction rest generalizing merged net with
  | nil => exact ⟨0, rfl, fun _ _ _ => rfl⟩
  | cons x rest ih =>
      have hset : Masking units { net with previous : Network α β } := hnet
      obtain ⟨first, hfirst, hpassed⟩ := hset.trainingDraws x iteration
      change checkedDraws net (net.checkInstance x) = _ at hfirst
      cases hpass : trainByInstance x iteration { net with previous } with
      | error fault trained =>
          refine ⟨first, ?_, fun result after hrun => ?_⟩
          · rw [othersDraws, hpass, behind, List.append_nil, hfirst]
          · rw [trainOthers_cons_of_error hpass] at hrun
            cases hrun
      | ok updates trained =>
          obtain ⟨rfl, htrained⟩ := hpassed updates trained hpass
          cases hmerge : mergeUpdates (updates.map (Update.stored (α := α))) merged with
          | error fault _ =>
              refine ⟨1, ?_, fun result after hrun => ?_⟩
              · rw [othersDraws, hpass, behind, hmerge, List.append_nil, hfirst]
              · simp only [trainOthers, Step.bind_run, Step.modify_run, hpass, Step.get_run,
                  hmerge] at hrun
                cases hrun
          | ok _ merged =>
              obtain ⟨count, hdraws, hcount⟩ := ih merged htrained
              refine ⟨1 + count, ?_, fun result after hrun => ?_⟩
              · rw [othersDraws, hpass, behind, hmerge, hfirst]
                dsimp only
                rw [hdraws, List.replicate_append_replicate]
              · simp only [trainOthers, Step.bind_run, Step.modify_run, hpass, Step.get_run,
                  hmerge] at hrun
                cases hrest : trainOthers iteration previous rest merged trained with
                | error fault _ => rw [hrest] at hrun; cases hrun
                | ok others _ => rw [List.length_cons, hcount others _ hrest, Nat.add_comm]

theorem batchDraws_eq (batch : List (Instance α)) {s : Session α β τ}
    (hs : Masking units s.network) :
    ∃ count, batchDraws s.iteration batch s.network = List.replicate count (.masks units) ∧
      ∀ errors after, trainBatch batch s = .ok errors after →
        count = batch.length ∧ Masking units after.network := by
  cases batch with
  | nil => exact ⟨0, rfl, fun _ _ hrun => by cases hrun; exact ⟨rfl, hs⟩⟩
  | cons x rest =>
      obtain ⟨first, hfirst, hpassed⟩ := hs.trainingDraws x s.iteration
      have hafter {errors : List α} {after : Session α β τ}
          (hrun : trainBatch (x :: rest) s = .ok errors after) : Masking units after.network := by
        obtain ⟨_, _, hlasting, -⟩ := lasting_of_trainBatch_ok hrun
        exact hs.of_lasting hlasting
      cases hpass : trainByInstance x s.iteration s.network with
      | error fault trained =>
          refine ⟨first, ?_, fun errors after hrun => ?_⟩
          · rw [batchDraws, hpass, behind, List.append_nil, hfirst]
          · simp only [trainBatch, onNetwork, Step.bind_run, Step.get_run, hpass,
              Step.mapState] at hrun
            cases hrun
      | ok updates trained =>
          obtain ⟨rfl, htrained⟩ := hpassed updates trained hpass
          obtain ⟨count, hdraws, hcount⟩ := othersDraws_eq s.iteration s.network.previous rest
            (updates.map .stored) htrained
          refine ⟨1 + count, ?_, fun errors after hrun => ⟨?_, hafter hrun⟩⟩
          · rw [batchDraws, hpass, behind, hfirst, hdraws, List.replicate_append_replicate]
          · simp only [trainBatch, onNetwork, Step.bind_run, Step.get_run, hpass] at hrun
            cases hrest : trainOthers s.iteration s.network.previous rest
                (updates.map .stored) trained with
            | error fault _ => rw [hrest] at hrun; cases hrun
            | ok others _ => rw [List.length_cons, hcount others _ hrest, Nat.add_comm]

theorem batchesDraws_eq (parts : List (List (Instance α))) {s : Session α β τ}
    (hs : Masking units s.network) :
    ∃ count, batchesDraws parts s = List.replicate count (.masks units) ∧
      ∀ errors after, trainBatches parts s = .ok errors after →
        count = parts.flatten.length ∧ Masking units after.network := by
  induction parts generalizing s with
  | nil => exact ⟨0, rfl, fun _ _ hrun => by cases hrun; exact ⟨rfl, hs⟩⟩
  | cons part parts ih =>
      obtain ⟨first, hfirst, htrained⟩ := batchDraws_eq part hs
      cases hbatch : trainBatch part s with
      | error fault trained =>
          refine ⟨first, ?_, fun errors after hrun => ?_⟩
          · rw [batchesDraws, hbatch, behind, List.append_nil, hfirst]
          · simp only [trainBatches, Step.bind_run, hbatch] at hrun
            cases hrun
      | ok errors trained =>
          obtain ⟨rfl, hmiddle⟩ := htrained errors trained hbatch
          obtain ⟨count, hdraws, hcount⟩ := ih hmiddle
          refine ⟨part.length + count, ?_, fun errors after hrun => ?_⟩
          · rw [batchesDraws, hbatch, behind, hfirst, hdraws, List.replicate_append_replicate]
          · simp only [trainBatches, Step.bind_run, hbatch] at hrun
            cases hrest : trainBatches parts trained with
            | error fault _ => rw [hrest] at hrun; cases hrun
            | ok others _ =>
                rw [hrest] at hrun
                cases hrun
                obtain ⟨rfl, hended⟩ := hcount others _ hrest
                exact ⟨by rw [List.flatten_cons, List.length_append], hended⟩

/-- An epoch that succeeds draws masks for every instance once. -/
theorem epochDraws_eq {plan : RunPlan} (hsize : 0 < plan.batchSize.toNat)
    (listeners : List (Listener α τ)) (instances : List (Instance α)) (epoch : Nat)
    (progress : Progress α) {s : Session α β τ} (hs : Masking units s.network) :
    ∃ count, epochDraws plan instances.toArray progress.source s =
        List.replicate count (.masks units) ∧
      ∀ progress' after,
        runEpoch plan listeners instances.toArray epoch progress s = .ok progress' after →
        count = instances.length ∧ Masking units after.network := by
  simp only [epochDraws, List.size_toArray, List.getElem?_toArray]
  obtain ⟨count, hdraws, hcount⟩ := batchesDraws_eq (batches plan.batchSize.toNat
    ((epochOrder plan instances.length progress.source).1.filterMap (instances[·]?))) hs
  refine ⟨count, hdraws, fun progress' after hrun => ?_⟩
  obtain ⟨hperm, -⟩ := perm_epochOrder plan instances.length progress.source
  obtain ⟨parts, trained, log, hparts, hbatches, -, -, -, rfl, -⟩ := runEpoch_eq_ok hsize hrun
  rw [hparts] at hbatches
  obtain ⟨rfl, htrained⟩ := hcount _ trained hbatches
  exact ⟨by rw [flatten_batches hsize, (map_some_picked hperm).2], htrained⟩

theorem epochsDraws_eq {plan : RunPlan} (hsize : 0 < plan.batchSize.toNat)
    (listeners : List (Listener α τ)) (instances : List (Instance α)) (left epoch : Nat)
    (progress : Progress α) {s : Session α β τ} (hs : Masking units s.network) :
    ∃ count, epochsDraws plan listeners instances.toArray left epoch progress s =
        List.replicate count (.masks units) ∧
      ∀ progress' after,
        runEpochs plan listeners instances.toArray left epoch progress s = .ok progress' after →
        ∃ epochs ≤ left, count = epochs * instances.length ∧
          progress'.steps = progress.steps + epochs * batchCount plan instances := by
  induction left generalizing epoch progress s with
  | zero =>
      refine ⟨0, rfl, fun progress' after hrun => ⟨0, Nat.le_refl 0, ?_, ?_⟩⟩
      · rw [Nat.zero_mul]
      · cases hrun
        rw [Nat.zero_mul, Nat.add_zero]
  | succ left ih =>
      obtain ⟨first, hfirst, htrained⟩ :=
        epochDraws_eq hsize listeners instances epoch progress hs
      rw [epochsDraws, hfirst]
      cases hepoch : runEpoch plan listeners instances.toArray epoch progress s with
      | error fault trained =>
          refine ⟨first, by rw [behind, List.append_nil], fun progress' after hrun => ?_⟩
          simp only [runEpochs, Step.bind_run, hepoch] at hrun
          cases hrun
      | ok middle trained =>
          obtain ⟨rfl, hmiddle⟩ := htrained middle trained hepoch
          obtain ⟨parts, hcovers, -, -, hsteps, -⟩ := happens_runEpoch hsize hepoch
          rw [hcovers.count_eq] at hsteps
          simp only [runEpochs, Step.bind_run, hepoch, behind]
          split
          next =>
            refine ⟨instances.length, List.append_nil _, fun progress' after hrun => ?_⟩
            cases hrun
            exact ⟨1, by omega, by rw [Nat.one_mul], by rw [hsteps, Nat.one_mul]⟩
          next =>
            obtain ⟨count, hdraws, hcount⟩ := ih (epoch + 1) middle hmiddle
            refine ⟨instances.length + count, ?_, fun progress' after hrun => ?_⟩
            · rw [hdraws, List.replicate_append_replicate]
            · obtain ⟨epochs, hleft, rfl, hmore⟩ := hcount progress' after hrun
              refine ⟨epochs + 1, by omega, ?_, ?_⟩
              · rw [Nat.succ_mul, Nat.add_comm]
              · rw [hmore, hsteps, Nat.succ_mul, Nat.add_comm (epochs * _), Nat.add_assoc]

/-- A run draws masks of the input units and nothing else, and a run that succeeds draws them once
for every instance in each of its epochs. -/
theorem runDraws_eq (plan : RunPlan) (listeners : List (Listener α τ))
    (instances : List (Instance α)) (s : Session α β τ) :
    ∃ count, runDraws plan listeners instances s =
        List.replicate count (.masks (s.network.width 0)) ∧
      ∀ summary after, run plan listeners instances s = .ok summary after →
        ∃ epochs ≤ plan.epochs.toNat, count = epochs * instances.length ∧
          summary.steps = epochs * batchCount plan instances := by
  cases hcheck : plan.check instances with
  | error fault =>
      refine ⟨0, by rw [runDraws, hcheck, List.replicate_zero], fun summary after hrun => ?_⟩
      rw [run_of_check_error hcheck] at hrun
      cases hrun
  | ok source =>
      have hswitched : Masking (s.network.width 0) (switched true s).network := ⟨rfl, rfl⟩
      obtain ⟨count, hdraws, hcount⟩ := epochsDraws_eq (batchSize_of_check hcheck) listeners
        instances plan.epochs.toNat 1 ⟨source, 0, 0, Scalar.infinity, 0⟩ hswitched
      refine ⟨count, by rw [runDraws, hcheck]; exact hdraws, fun summary after hrun => ?_⟩
      obtain ⟨_, progress, ended, hsame, hepochs, -, rfl⟩ := run_eq_ok hrun
      cases hcheck.symm.trans hsame
      obtain ⟨epochs, hleft, hinstances, hsteps⟩ := hcount progress ended hepochs
      exact ⟨epochs, hleft, hinstances, by rw [hsteps, Nat.zero_add]⟩

end Session

end FeedForward
