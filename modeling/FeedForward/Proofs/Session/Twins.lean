import FeedForward.Proofs.Lockstep.Twins
import FeedForward.Proofs.Session.Lockstep

/-!
# Twin sessions

Sessions are twins when their networks are and when they have come equally far. Whatever is asked
of twin sessions one after the other, each request has one answer, and after each of them the
sessions show the same weights, last updates, errors and notes of listeners. This holds for requests
that fail, at whatever point they do.
-/

namespace FeedForward.Session

variable {α β τ γ : Type} [Scalar α]

/-- Sessions on twin networks that have come equally far. -/
structure Twins (s t : Session α β τ) : Prop where
  network : Network.Twins s.network t.network
  iteration_eq : t.iteration = s.iteration
  log_eq : t.log = s.log

namespace Twins

variable {s t : Session α β τ} (htwins : Twins s t)

include htwins

theorem agree_onNetwork {act act' : Step (Network α β) γ}
    (hact : Step.Agree Network.Twins Network.Twins (act s.network) (act' t.network)) :
    Step.Agree Twins Twins (onNetwork act s) (onNetwork act' t) :=
  hact.mapState (fun _ _ hnet => ⟨hnet, htwins.iteration_eq, htwins.log_eq⟩)
    fun _ _ hnet => ⟨hnet, htwins.iteration_eq, htwins.log_eq⟩

theorem agree_onLog (act : Step τ γ) : Step.Agree Twins Twins (onLog act s) (onLog act t) := by
  rw [onLog, onLog, htwins.log_eq]
  have hsame : Step.Agree Eq Eq (act s.log) (act s.log) := .refl _ (fun _ => rfl) fun _ => rfl
  exact hsame.mapState (fun _ _ hlog => ⟨htwins.network, htwins.iteration_eq, hlog.symm⟩)
    fun _ _ hlog => ⟨htwins.network, htwins.iteration_eq, hlog.symm⟩

end Twins

variable [Add β] [Zero β] [Precision α β]

/-! ## Batches -/

section

variable {net other : Network α β} (htwins : Network.Twins net other)

include htwins

/-- No extent of the summed updates of a batch is zero. -/
theorem whole_trainOthers {iteration : Nat} {previous : List (Tensor β)} {rest : List (Instance α)}
    {merged total : List (Update α β)} {errors : List α} {after : Network α β}
    (hmerged : Network.Whole merged)
    (hrun : trainOthers iteration previous rest merged net = .ok (errors, total) after) :
    Network.Whole total := by
  induction rest generalizing net other merged errors with
  | nil =>
      cases hrun
      exact hmerged
  | cons x rest ih =>
      obtain ⟨_, _, hmodify, hrun⟩ := Step.bind_eq_ok hrun
      cases hmodify
      obtain ⟨updates, trained, htrain, hrun⟩ := Step.bind_eq_ok hrun
      obtain ⟨_, _, hget, hrun⟩ := Step.bind_eq_ok hrun
      cases hget
      have hpass := (htwins.withPrevious previous).agree_trainByInstance x iteration
      rw [htrain] at hpass
      generalize Network.trainByInstance x iteration { other with previous } = second at hpass
      cases hpass with
      | ok hdone =>
          have hupdates := hdone.1.stretched.whole_trainByInstance htrain hdone.2
          split at hrun
          next => cases hrun
          next sum hmerge =>
            obtain ⟨⟨_, _⟩, _, hothers, hreturn⟩ := Step.bind_eq_ok hrun
            cases hreturn
            exact ih hdone.1 (Network.whole_mergeUpdates hupdates hmerged hmerge) hothers

theorem agree_trainOthers (iteration : Nat) (previous : List (Tensor β)) (rest : List (Instance α))
    {merged : List (Update α β)} (hmerged : Network.Whole merged) :
    Step.Agree Network.Twins Network.Twins (trainOthers iteration previous rest merged net)
      (trainOthers iteration previous rest merged other) := by
  induction rest generalizing net other merged with
  | nil => exact .ok htwins
  | cons x rest ih =>
      rw [trainOthers, Step.bind_run, Step.modify_run, Step.bind_run, Step.modify_run]
      dsimp only
      refine ((htwins.withPrevious previous).agree_trainByInstance x iteration).bind_of_ok
        fun updates s t htrain hdone => ?_
      have hupdates := hdone.1.stretched.whole_trainByInstance htrain hdone.2
      have herror : t.trainingError = s.trainingError :=
        hdone.1.view_eq Network.trainingError fun _ _ _ => rfl
      rw [Step.bind_run, Step.get_run, Step.bind_run, Step.get_run]
      dsimp only
      rw [herror]
      generalize hmerge : Network.mergeUpdates (updates.map (Update.stored (α := α))) merged = sums
      cases sums with
      | error fault _ => exact .error hdone.1
      | ok _ sums =>
          refine .bind (ih hdone.1 (Network.whole_mergeUpdates hupdates hmerged hmerge))
            fun _ _ _ hrest => .ok hrest

end

section

variable {s t : Session α β τ}

theorem agree_trainBatch (htwins : Twins s t) (batch : List (Instance α)) :
    Step.Agree Twins Twins (trainBatch batch s) (trainBatch batch t) := by
  cases batch with
  | nil => exact .ok htwins
  | cons x rest =>
      have hprevious : t.network.previous = s.network.previous :=
        htwins.network.view_eq Network.previous fun _ _ _ => rfl
      rw [trainBatch, Step.bind_run, Step.get_run, Step.bind_run, Step.get_run]
      dsimp only
      rw [htwins.iteration_eq]
      refine .bind (htwins.agree_onNetwork ?_) fun errors a b hdone => ?_
      · rw [Step.bind_run, Step.get_run, Step.bind_run, Step.get_run]
        dsimp only
        rw [hprevious]
        refine (htwins.network.agree_trainByInstance x s.iteration).bind_of_ok
          fun updates net other htrain hnet => ?_
        have hupdates := hnet.1.stretched.whole_trainByInstance htrain hnet.2
        have herror : other.trainingError = net.trainingError :=
          hnet.1.view_eq Network.trainingError fun _ _ _ => rfl
        rw [Step.bind_run, Step.get_run, Step.bind_run, Step.get_run]
        dsimp only
        rw [herror]
        refine (agree_trainOthers hnet.1 s.iteration s.network.previous rest hupdates).bind_of_ok
          fun sums net' other' hothers hrest => ?_
        have htotal := whole_trainOthers hnet.1 hupdates hothers
        exact .bind (hrest.agree_updateWeights htotal) fun _ _ _ hadded =>
          .ok (hadded.withPrevious _)
      · exact .ok ⟨hdone.network, rfl, hdone.log_eq⟩

/-! ## Runs -/

theorem tandem_twins (listeners : List (Listener α τ)) :
    Tandem (Twins (α := α) (β := β)) listeners listeners where
  batch := agree_trainBatch
  report := fun htwins _ _ => htwins.agree_onLog _
  switch := fun htwins training =>
    htwins.agree_onNetwork (htwins.network.agree_setTraining training)

theorem agree_run (htwins : Twins s t) (plan : RunPlan) (listeners : List (Listener α τ))
    (instances : List (Instance α)) :
    Step.Agree Twins Twins (run plan listeners instances s) (run plan listeners instances t) :=
  (tandem_twins listeners).run htwins plan instances

end

end FeedForward.Session

namespace FeedForward

/-! ## Requests -/

/-- What can be asked of a session, or done to its network from outside. -/
inductive Request (α β τ : Type) where
  | getOutput (features : Table α)
  | trainByInstance (x : Instance α) (iteration : Int)
  | trainOnline (x : Instance α) (iteration : Int)
  | updateWeights (updates : List (Update α β))
  | setWeightMatrix (index : Int) (table : Table β)
  | setTraining (training : Bool)
  | run (plan : RunPlan) (listeners : List (Listener α τ)) (instances : List (Instance α))
  | restart
  | encode

/-- The answer to a request. -/
inductive Reply (α β : Type) where
  | outputs (outputs : List α)
  | updates (updates : List (Tensor β))
  | summary (summary : RunSummary α)
  | bytes (bytes : List UInt8)
  | done

/-- What a session shows after a request: the answer or the fault, what its network has learned, and
what listeners have written down. -/
structure Shown (α β τ : Type) where
  reply : Except Fault (Reply α β)
  weights : List (Tensor β)
  previous : List (Tensor β)
  trainingError : α
  iteration : Nat
  log : τ

namespace Request

variable {α β τ : Type}

/-- Updates from outside have no zero among their extents. -/
def Admissible : Request α β τ → Prop
  | updateWeights updates => Network.Whole updates
  | _ => True

variable [Scalar α] [Add β] [Zero β] [Precision α β] [Encoding α] [Encoding β]

/-- Carries out a request. -/
def perform : Request α β τ → Step (Session α β τ) (Reply α β)
  | getOutput features => return .outputs (← Session.onNetwork (Network.getOutput features))
  | trainByInstance x iteration =>
    return .updates (← Session.onNetwork (Network.trainByInstance x iteration))
  | trainOnline x iteration =>
    return .updates (← Session.onNetwork (Network.trainOnline x iteration))
  | updateWeights updates => do
    Session.onNetwork (Network.updateWeights updates)
    return .done
  | setWeightMatrix index table => do
    Session.onNetwork (Network.setWeightMatrix index table)
    return .done
  | setTraining training => do
    Session.onNetwork (Network.setTraining training)
    return .done
  | run plan listeners instances => return .summary (← Session.run plan listeners instances)
  | restart => do
    modify fun session => { session with iteration := 0 }
    return .done
  | encode => return .bytes (← ModelFile.encode (← get).network)

theorem agree_perform {s t : Session α β τ} (htwins : Session.Twins s t) {request : Request α β τ}
    (hadmissible : request.Admissible) :
    Step.Agree Session.Twins Session.Twins (request.perform s) (request.perform t) := by
  have hnet := htwins.network
  cases request with
  | getOutput features =>
      exact .bind (htwins.agree_onNetwork (hnet.agree_getOutput features)) fun _ _ _ h => .ok h
  | trainByInstance x iteration =>
      have hpass := (hnet.agree_trainByInstance x iteration).mono (fun _ _ hdone => hdone.1)
        fun _ _ hfailed => hfailed
      exact .bind (htwins.agree_onNetwork hpass) fun _ _ _ h => .ok h
  | trainOnline x iteration =>
      exact .bind (htwins.agree_onNetwork (hnet.agree_trainOnline x iteration)) fun _ _ _ h => .ok h
  | updateWeights updates =>
      exact .bind (htwins.agree_onNetwork (hnet.agree_updateWeights hadmissible)) fun _ _ _ h =>
        .ok h
  | setWeightMatrix index table =>
      exact .bind (htwins.agree_onNetwork (hnet.agree_setWeightMatrix index table)) fun _ _ _ h =>
        .ok h
  | setTraining training =>
      exact .bind (htwins.agree_onNetwork (hnet.agree_setTraining training)) fun _ _ _ h => .ok h
  | run plan listeners instances =>
      exact .bind (Session.agree_run htwins plan listeners instances) fun _ _ _ h => .ok h
  | restart => exact .ok ⟨hnet, rfl, htwins.log_eq⟩
  | encode =>
      rw [perform, Step.bind_run, Step.get_run, Step.bind_run, Step.get_run]
      dsimp only
      rw [ModelFile.encode_twins hnet]
      exact .lift_bind htwins fun _ _ => .ok htwins

/-- What a session shows besides an answer. -/
def shown (reply : Except Fault (Reply α β)) (s : Session α β τ) : Shown α β τ :=
  ⟨reply, s.network.weights, s.network.previous, s.network.trainingError, s.iteration, s.log⟩

/-- What a session shows after each of some requests. A request that fails is not undone. -/
def transcript : List (Request α β τ) → Session α β τ → List (Shown α β τ)
  | [], _ => []
  | request :: rest, s =>
    match request.perform s with
    | .ok reply s => shown (.ok reply) s :: transcript rest s
    | .error fault s => shown (.error fault) s :: transcript rest s

/-- Twin sessions cannot be told apart by requests. -/
theorem transcript_eq {s t : Session α β τ} (htwins : Session.Twins s t)
    {requests : List (Request α β τ)} (hadmissible : ∀ request ∈ requests, request.Admissible) :
    transcript requests t = transcript requests s := by
  have hshown : ∀ {s t : Session α β τ}, Session.Twins s t →
      ∀ reply, shown reply t = shown reply s := by
    intro s t hst reply
    have hlearned := hst.network.view_eq (fun net => shown reply ⟨net, s.iteration, s.log⟩)
      fun _ _ _ => rfl
    rw [shown, hst.iteration_eq, hst.log_eq]
    exact hlearned
  induction requests generalizing s t with
  | nil => rfl
  | cons request rest ih =>
      have hstep := agree_perform htwins (hadmissible request List.mem_cons_self)
      have hrest : ∀ other ∈ rest, other.Admissible :=
        fun other hother => hadmissible other (List.mem_cons_of_mem request hother)
      rw [transcript, transcript]
      generalize request.perform s = first at hstep
      generalize request.perform t = second at hstep
      cases hstep with
      | ok hst =>
          dsimp only
          rw [hshown hst, ih hst hrest]
      | error hst =>
          dsimp only
          rw [hshown hst, ih hst hrest]

end Request

end FeedForward
