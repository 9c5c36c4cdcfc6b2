import FeedForward.Proofs.Session.Batch
import FeedForward.Session.Run

/-!
# What happens in a run

A run is a list of events: batches that are trained and epochs that are reported. Every epoch trains
each instance once, in the order of the epoch, in batches of one size of which only the last may be
smaller, and is reported behind its last batch with the mean of its errors. Of a report every
listener hears once, through its hook if it has one and by being called otherwise. The iterations of
the batches count on from that of the session. Nothing is said here about what the updates are.
-/

namespace FeedForward

/-! ## Orders and batches -/

namespace Generator

theorem shuffleDown_succ (place : Nat) (items : Array Nat) (g : Generator) :
    shuffleDown (place + 1) items g = shuffleDown place
      (items.swapIfInBounds (place + 1) (g.bits.1.toNat % (place + 2))) g.bits.2 := by
  delta shuffleDown
  rfl

theorem perm_shuffleDown (place : Nat) (items : Array Nat) (g : Generator) :
    (shuffleDown place items g).1.toList.Perm items.toList := by
  induction place generalizing items g with
  | zero => exact .refl _
  | succ place ih =>
      rw [shuffleDown_succ]
      refine (ih _ _).trans ?_
      rw [Array.swapIfInBounds_def]
      split
      · split
        · exact (Array.swap_perm _ _).toList
        · exact .refl _
      · exact .refl _

/-- The numbers in random order are all of these numbers. -/
theorem perm_permutation (n : Nat) (g : Generator) :
    (permutation n g).1.Perm (List.range n) := by
  have hshuffled := perm_shuffleDown (n - 1) (Array.range n) g
  rwa [Array.toList_range] at hshuffled

end Generator

section

variable {γ : Type} {size : Nat} (hsize : 0 < size) (xs : List γ)

include hsize

theorem flatten_batches : (batches size xs).flatten = xs := by
  induction xs using batches.induct size with
  | case1 xs hmore ih => rw [batches, if_pos hmore, List.flatten_cons, ih, List.take_append_drop]
  | case2 xs hnone =>
      rw [batches, if_neg hnone, List.flatten_nil]
      exact (List.length_eq_zero_iff.mp (by omega)).symm

/-- There are as many batches as are needed. -/
theorem length_batches : (batches size xs).length = (xs.length + size - 1) / size := by
  induction xs using batches.induct size with
  | case1 xs hmore ih =>
      rw [batches, if_pos hmore, List.length_cons, ih, List.length_drop]
      rcases Nat.le_total xs.length size with hle | hle
      · rw [Nat.sub_eq_zero_of_le hle, Nat.zero_add, Nat.div_eq_of_lt (by omega),
          show xs.length + size - 1 = xs.length - 1 + size by omega, Nat.add_div_right _ hsize,
          Nat.div_eq_of_lt (by omega)]
      · rw [show xs.length + size - 1 = (xs.length - size + size - 1) + size by omega,
          Nat.add_div_right _ hsize]
  | case2 xs hnone =>
      have hempty : xs.length = 0 := by omega
      rw [batches, if_neg hnone, hempty, Nat.zero_add, Nat.div_eq_of_lt (by omega)]
      rfl

theorem length_of_mem_batches {part : List γ} (hpart : part ∈ batches size xs) :
    1 ≤ part.length ∧ part.length ≤ size := by
  induction xs using batches.induct size with
  | case1 xs hmore ih =>
      rw [batches, if_pos hmore] at hpart
      rcases List.mem_cons.mp hpart with rfl | hrest
      · rw [List.length_take]
        omega
      · exact ih hrest
  | case2 xs hnone =>
      rw [batches, if_neg hnone] at hpart
      cases hpart

/-- Every batch but the last one is full. -/
theorem length_of_lt_batches {k : Nat} {part : List γ} (hpart : (batches size xs)[k]? = some part)
    (hlast : k + 1 < (batches size xs).length) : part.length = size := by
  induction xs using batches.induct size generalizing k with
  | case1 xs hmore ih =>
      rw [batches, if_pos hmore] at hpart hlast
      rw [List.length_cons] at hlast
      cases k with
      | zero =>
          -- There is a further batch, so more than one batch was left.
          have hmany : 0 < (batches size (xs.drop size)).length := by omega
          rw [length_batches hsize, List.length_drop] at hmany
          have hrest : size ≤ xs.length - size + size - 1 := by
            by_contra hless
            rw [Nat.div_eq_of_lt (by omega)] at hmany
            exact Nat.lt_irrefl 0 hmany
          rw [List.getElem?_cons_zero, Option.some.injEq] at hpart
          rw [← hpart, List.length_take]
          omega
      | succ k => exact ih (by simpa using hpart) (by omega)
  | case2 xs hnone =>
      rw [batches, if_neg hnone] at hpart
      cases hpart

end

/-! ## Listeners -/

namespace Listener

variable {α τ : Type} {epoch : Nat} {loss : α} {log : τ} {result : EStateM.Result Fault τ Unit}

/-- What comes of it when a listener hears of an epoch. Its hook is run if it has one, else it is
called; if it can do neither, nothing happens. -/
inductive Hears (listener : Listener α τ) (epoch : Nat) (loss : α) (log : τ)
    (result : EStateM.Result Fault τ Unit) : Prop where
  | hook {hook : EpochHook α τ} (hhook : listener.hook = some hook)
      (hrun : hook epoch loss log = result)
  | call {call : EpochHook α τ} (hhook : listener.hook = none) (hcall : listener.call = some call)
      (hrun : call epoch loss log = result)
  | neither (hhook : listener.hook = none) (hcall : listener.call = none)
      (hsame : result = .ok () log)

/-- What comes of it when listeners hear of an epoch one after the other, each behind the one in
front of it. Behind one that fails nobody hears of it. -/
inductive Told (epoch : Nat) (loss : α) :
    List (Listener α τ) → τ → EStateM.Result Fault τ Unit → Prop where
  | nil (log : τ) : Told epoch loss [] log (.ok () log)
  | cons {listener : Listener α τ} {rest : List (Listener α τ)} {log middle : τ}
      {result : EStateM.Result Fault τ Unit}
      (hfirst : listener.Hears epoch loss log (.ok () middle))
      (hrest : Told epoch loss rest middle result) : Told epoch loss (listener :: rest) log result
  | fault {listener : Listener α τ} {rest : List (Listener α τ)} {log log' : τ} {fault : Fault}
      (hfirst : listener.Hears epoch loss log (.error fault log')) :
      Told epoch loss (listener :: rest) log (.error fault log')

theorem hears_iff {listener : Listener α τ} :
    listener.Hears epoch loss log result ↔ listener.notify epoch loss log = result := by
  obtain ⟨hook, call⟩ := listener
  constructor
  · intro hhears
    cases hhears with
    | hook hhook hrun => cases hhook; exact hrun
    | call hhook hcall hrun => cases hhook; cases hcall; exact hrun
    | neither hhook hcall hsame => cases hhook; cases hcall; exact hsame.symm
  · intro hrun
    cases hook with
    | some hook => exact .hook rfl hrun
    | none =>
        cases call with
        | some call => exact .call rfl rfl hrun
        | none => exact .neither rfl rfl hrun.symm

theorem told_iff {listeners : List (Listener α τ)} :
    Told epoch loss listeners log result ↔ notifyAll listeners epoch loss log = result := by
  induction listeners generalizing log with
  | nil =>
      constructor
      · intro htold; cases htold; rfl
      · intro hrun; cases hrun; exact .nil log
  | cons listener rest ih =>
      rw [notifyAll, Step.bind_run]
      constructor
      · intro htold
        cases htold with
        | cons hfirst hrest => rw [hears_iff.mp hfirst]; exact ih.mp hrest
        | fault hfirst => rw [hears_iff.mp hfirst]
      · intro hrun
        cases hfirst : listener.notify epoch loss log with
        | ok _ middle => rw [hfirst] at hrun; exact .cons (hears_iff.mpr hfirst) (ih.mpr hrun)
        | error fault log' =>
            rw [hfirst] at hrun
            cases hrun
            exact .fault (hears_iff.mpr hfirst)

/-- Only a listener that fails ends the telling of an epoch. -/
theorem Told.exists_of_error {listeners : List (Listener α τ)} {fault : Fault} {log' : τ}
    (htold : Told epoch loss listeners log (.error fault log')) :
    ∃ listener ∈ listeners, ∃ before, listener.Hears epoch loss before (.error fault log') := by
  generalize hresult : EStateM.Result.error fault log' = result at htold
  induction htold with
  | nil => cases hresult
  | cons _ _ ih =>
      obtain ⟨other, hother, hfails⟩ := ih hresult
      exact ⟨other, List.mem_cons_of_mem _ hother, hfails⟩
  | fault hfirst =>
      cases hresult
      exact ⟨_, List.mem_cons_self, _, hfirst⟩

end Listener

/-! ## Events -/

namespace Session

/-- What happens in a run: a batch is trained at an iteration, every instance with its error, or an
epoch is reported with its loss. -/
inductive Event (α : Type) where
  | batch (iteration : Nat) (items : List (Instance α × α))
  | report (epoch : Nat) (loss : α)

variable {α β τ : Type} [Scalar α] [Add β] [Zero β] [Precision α β]

/-- Instances are trained one after the other at one iteration, each with the same last updates in
front of it, and each leaves its error. -/
inductive Trained (iteration : Nat) (previous : List (Tensor β)) :
    List (Instance α × α) → Network α β → Network α β → Prop where
  | nil (net : Network α β) : Trained iteration previous [] net net
  | cons {x : Instance α} {net middle after : Network α β} {updates : List (Tensor β)}
      {rest : List (Instance α × α)}
      (hrun : Network.trainByInstance x iteration { net with previous } = .ok updates middle)
      (hrest : Trained iteration previous rest middle after) :
      Trained iteration previous ((x, middle.trainingError) :: rest) net after

/-- Events happen one after the other. A batch is trained instance by instance, then the weights and
the last updates are exchanged and the batch counts. Of a report all listeners hear, and nothing but
their log changes. -/
inductive Happens (listeners : List (Listener α τ)) :
    List (Event α) → Session α β τ → Session α β τ → Prop where
  | nil (s : Session α β τ) : Happens listeners [] s s
  | batch {s after : Session α β τ} {middle : Network α β} {weights previous : List (Tensor β)}
      {items : List (Instance α × α)} {rest : List (Event α)}
      (hbatch : trainBatch (items.map Prod.fst) s = .ok (items.map Prod.snd)
        ⟨{ middle with weights, previous }, s.iteration + 1, s.log⟩)
      (hitems : Trained s.iteration s.network.previous items s.network middle)
      (hrest : Happens listeners rest
        ⟨{ middle with weights, previous }, s.iteration + 1, s.log⟩ after) :
      Happens listeners (.batch s.iteration items :: rest) s after
  | report {s after : Session α β τ} {epoch : Nat} {loss : α} {log : τ} {rest : List (Event α)}
      (hreport : Listener.Told epoch loss listeners s.log (.ok () log))
      (hrest : Happens listeners rest { s with log } after) :
      Happens listeners (.report epoch loss :: rest) s after

theorem Happens.append {listeners : List (Listener α τ)} {events more : List (Event α)}
    {s middle after : Session α β τ} (hfirst : Happens listeners events s middle)
    (hsecond : Happens listeners more middle after) :
    Happens listeners (events ++ more) s after := by
  induction hfirst with
  | nil => exact hsecond
  | batch hbatch hitems _ ih => exact .batch hbatch hitems (ih hsecond)
  | report hreport _ ih => exact .report hreport (ih hsecond)

/-! ## Batches -/

omit [Scalar α] [Add β] [Zero β] [Precision α β] in
theorem onNetwork_eq_ok {γ : Type} {act : Step (Network α β) γ} {s after : Session α β τ} {x : γ}
    (hrun : onNetwork act s = .ok x after) :
    ∃ net, act s.network = .ok x net ∧ after = { s with network := net } := by
  rw [onNetwork] at hrun
  cases hact : act s.network with
  | ok y net => rw [hact] at hrun; cases hrun; exact ⟨net, rfl, rfl⟩
  | error fault net => rw [hact] at hrun; cases hrun

omit [Scalar α] [Add β] [Zero β] [Precision α β] in
theorem onNetwork_eq_error {γ : Type} {act : Step (Network α β) γ} {s after : Session α β τ}
    {fault : Fault} (hrun : onNetwork act s = .error fault after) :
    ∃ net, act s.network = .error fault net ∧ after = { s with network := net } := by
  rw [onNetwork] at hrun
  cases hact : act s.network with
  | ok x net => rw [hact] at hrun; cases hrun
  | error cause net => rw [hact] at hrun; cases hrun; exact ⟨net, rfl, rfl⟩

omit [Scalar α] [Add β] [Zero β] [Precision α β] in
theorem onLog_eq_ok {γ : Type} {act : Step τ γ} {s after : Session α β τ} {x : γ}
    (hrun : onLog act s = .ok x after) :
    ∃ log, act s.log = .ok x log ∧ after = { s with log } := by
  rw [onLog] at hrun
  cases hact : act s.log with
  | ok y log => rw [hact] at hrun; cases hrun; exact ⟨log, rfl, rfl⟩
  | error fault log => rw [hact] at hrun; cases hrun

omit [Scalar α] [Add β] [Zero β] [Precision α β] in
theorem onLog_eq_error {γ : Type} {act : Step τ γ} {s after : Session α β τ} {fault : Fault}
    (hrun : onLog act s = .error fault after) :
    ∃ log, act s.log = .error fault log ∧ after = { s with log } := by
  rw [onLog] at hrun
  cases hact : act s.log with
  | ok x log => rw [hact] at hrun; cases hrun
  | error cause log => rw [hact] at hrun; cases hrun; exact ⟨log, rfl, rfl⟩

/-- Adding updates changes nothing but the weights. -/
theorem updateWeights_eq_ok {updates : List (Update α β)} {net after : Network α β}
    (hrun : Network.updateWeights updates net = .ok () after) :
    ∃ weights, after = { net with weights } := by
  obtain ⟨_, _, hget, hrun⟩ := Step.bind_eq_ok hrun
  cases hget
  split at hrun
  next => cases hrun
  next =>
    change Step.mapState _ (Step.combine Update.addTo updates net.weights) = _ at hrun
    cases hcombine : Step.combine Update.addTo updates net.weights with
    | ok _ weights => rw [hcombine] at hrun; cases hrun; exact ⟨weights, rfl⟩
    | error fault weights => rw [hcombine] at hrun; cases hrun

theorem trained_trainOthers {iteration : Nat} {previous : List (Tensor β)}
    {rest : List (Instance α)} {merged merged' : List (Update α β)} {errors : List α}
    {net after : Network α β}
    (hrun : trainOthers iteration previous rest merged net = .ok (errors, merged') after) :
    errors.length = rest.length ∧ Trained iteration previous (rest.zip errors) net after := by
  induction rest generalizing merged errors net with
  | nil => cases hrun; exact ⟨rfl, .nil _⟩
  | cons x rest ih =>
      obtain ⟨_, _, hset, hrun₁⟩ := Step.bind_eq_ok hrun
      cases hset
      obtain ⟨updates, middle, htrain, hrun₂⟩ := Step.bind_eq_ok hrun₁
      obtain ⟨_, _, hget, hrun₃⟩ := Step.bind_eq_ok hrun₂
      cases hget
      split at hrun₃
      next => cases hrun₃
      next merged _ =>
        obtain ⟨⟨others, merged'⟩, after', hothers, hreturn⟩ := Step.bind_eq_ok hrun₃
        cases hreturn
        obtain ⟨hlength, hrest⟩ := ih hothers
        exact ⟨by simp [hlength], .cons htrain hrest⟩

theorem happens_trainBatch (listeners : List (Listener α τ)) {batch : List (Instance α)}
    (hbatch : batch ≠ []) {errors : List α} {s after : Session α β τ}
    (hrun : trainBatch batch s = .ok errors after) :
    errors.length = batch.length ∧ after.iteration = s.iteration + 1 ∧
      Happens listeners [.batch s.iteration (batch.zip errors)] s after := by
  obtain ⟨x, rest, rfl⟩ := List.exists_cons_of_ne_nil hbatch
  have hwhole := hrun
  obtain ⟨_, _, hget, hrun₁⟩ := Step.bind_eq_ok hrun
  cases hget
  obtain ⟨errors, trained, hnetwork, hrun₂⟩ := Step.bind_eq_ok hrun₁
  cases hrun₂
  -- The batch is trained on the network alone.
  obtain ⟨net, hbatch, rfl⟩ := onNetwork_eq_ok hnetwork
  obtain ⟨_, _, hget, hbatch₁⟩ := Step.bind_eq_ok hbatch
  cases hget
  obtain ⟨updates, first, hfirst, hbatch₂⟩ := Step.bind_eq_ok hbatch₁
  obtain ⟨_, _, hget, hbatch₃⟩ := Step.bind_eq_ok hbatch₂
  cases hget
  obtain ⟨⟨others, merged⟩, middle, hothers, hbatch₄⟩ := Step.bind_eq_ok hbatch₃
  obtain ⟨_, updated, hupdate, hbatch₅⟩ := Step.bind_eq_ok hbatch₄
  obtain ⟨weights, rfl⟩ := updateWeights_eq_ok hupdate
  cases hbatch₅
  obtain ⟨hlength, hrest⟩ := trained_trainOthers hothers
  refine ⟨by simp [hlength], rfl, .batch ?_ (.cons hfirst hrest) (.nil _)⟩
  change trainBatch (x :: (rest.zip others).map Prod.fst) s =
    .ok (first.trainingError :: (rest.zip others).map Prod.snd) _
  rw [List.map_fst_zip (Nat.le_of_eq hlength.symm), List.map_snd_zip (Nat.le_of_eq hlength)]
  exact hwhole

/-- Batches that are trained one after the other count on from the iteration of the session. -/
def batchEvents (iteration : Nat) (batches : List (List (Instance α × α))) : List (Event α) :=
  batches.mapIdx fun k items => .batch (iteration + k) items

omit [Scalar α] in
theorem batchEvents_cons (iteration : Nat) (items : List (Instance α × α))
    (batches : List (List (Instance α × α))) :
    batchEvents iteration (items :: batches) =
      .batch iteration items :: batchEvents (iteration + 1) batches := by
  simp only [batchEvents, List.mapIdx_cons, Nat.add_zero, Nat.add_assoc, Nat.add_comm 1]

theorem happens_trainBatches (listeners : List (Listener α τ)) {parts : List (List (Instance α))}
    (hparts : ∀ part ∈ parts, part ≠ []) {errors : List α} {s after : Session α β τ}
    (hrun : trainBatches parts s = .ok errors after) :
    ∃ batches : List (List (Instance α × α)), batches.map (List.map Prod.fst) = parts ∧
      batches.flatten.map Prod.snd = errors ∧ after.iteration = s.iteration + parts.length ∧
      Happens listeners (batchEvents s.iteration batches) s after := by
  induction parts generalizing errors s with
  | nil => cases hrun; exact ⟨[], rfl, rfl, rfl, .nil _⟩
  | cons part parts ih =>
      obtain ⟨first, middle, hfirst, hrun₁⟩ := Step.bind_eq_ok hrun
      obtain ⟨others, _, hothers, hreturn⟩ := Step.bind_eq_ok hrun₁
      cases hreturn
      obtain ⟨hlength, hiteration, hbatch⟩ :=
        happens_trainBatch listeners (hparts part List.mem_cons_self) hfirst
      obtain ⟨batches, rfl, rfl, hcount, hrest⟩ :=
        ih (fun other hother => hparts other (List.mem_cons_of_mem part hother)) hothers
      refine ⟨part.zip first :: batches, ?_, ?_, ?_, ?_⟩
      · rw [List.map_cons, List.map_fst_zip (Nat.le_of_eq hlength.symm)]
      · rw [List.flatten_cons, List.map_append, List.map_snd_zip (Nat.le_of_eq hlength)]
      · rw [hcount, hiteration, List.length_cons]
        omega
      · rw [hiteration] at hrest
        rw [batchEvents_cons]
        exact hbatch.append hrest

/-! ## Epochs -/

/-- The number of batches in an epoch: the number of instances divided by that of a batch, rounded
up. -/
def batchCount (plan : RunPlan) (instances : List (Instance α)) : Nat :=
  (instances.length + plan.batchSize.toNat - 1) / plan.batchSize.toNat

/-- The batches of an epoch have every instance once, in the order of the epoch. All batches but the
last one are full, and none is empty. -/
structure Covers (plan : RunPlan) (instances : List (Instance α))
    (batches : List (List (Instance α × α))) : Prop where
  ordered : ∃ order : List Nat, order.Perm (List.range instances.length) ∧
    (plan.shuffle = false → order = List.range instances.length) ∧
    batches.flatten.map (fun item => some item.1) = order.map (instances[·]?)
  count_eq : batches.length = batchCount plan instances
  length_range : ∀ batch ∈ batches, 1 ≤ batch.length ∧ batch.length ≤ plan.batchSize.toNat
  length_eq : ∀ k batch, batches[k]? = some batch → k + 1 < batches.length →
    batch.length = plan.batchSize.toNat

/-- The mean of the errors of an epoch: their sum over their number. -/
def lossOf (batches : List (List (Instance α × α))) : α :=
  blockedSum (batches.flatten.map Prod.snd) / Scalar.ofNat (batches.flatten.map Prod.snd).length

/-- The events of some epochs, given the first iteration and the number of the first epoch: each is
reported behind its last batch. -/
def journal (iteration epoch : Nat) : List (List (List (Instance α × α))) → List (Event α)
  | [] => []
  | batches :: rest => batchEvents iteration batches ++ .report epoch (lossOf batches) ::
      journal (iteration + batches.length) (epoch + 1) rest

/-- Losses with the numbers of their epochs, given the first number. -/
def numbered : Nat → List α → List (Nat × α)
  | _, [] => []
  | epoch, loss :: losses => (epoch, loss) :: numbered (epoch + 1) losses

/-- The epochs that are reported among some events. -/
def reports : List (Event α) → List (Nat × α)
  | [] => []
  | .batch _ _ :: events => reports events
  | .report epoch loss :: events => (epoch, loss) :: reports events

omit [Scalar α] in
theorem reports_append (events more : List (Event α)) :
    reports (events ++ more) = reports events ++ reports more := by
  induction events with
  | nil => rfl
  | cons event events ih => cases event <;> simp [reports, ih]

omit [Scalar α] in
theorem reports_batchEvents (iteration : Nat) (batches : List (List (Instance α × α))) :
    reports (batchEvents iteration batches) = [] := by
  induction batches generalizing iteration with
  | nil => rfl
  | cons items batches ih => rw [batchEvents_cons, reports, ih]

theorem reports_journal (iteration epoch : Nat) (epochs : List (List (List (Instance α × α)))) :
    reports (journal iteration epoch epochs) = numbered epoch (epochs.map lossOf) := by
  induction epochs generalizing iteration epoch with
  | nil => rfl
  | cons batches epochs ih =>
      rw [journal, reports_append, reports_batchEvents, List.nil_append, reports, ih, List.map_cons,
        numbered]

theorem perm_epochOrder (plan : RunPlan) (count : Nat) (source : Generator) :
    (epochOrder plan count source).1.Perm (List.range count) ∧
      (plan.shuffle = false → (epochOrder plan count source).1 = List.range count) := by
  rw [epochOrder]
  cases plan.shuffle with
  | true => exact ⟨Generator.perm_permutation count source, fun hno => by cases hno⟩
  | false => exact ⟨.refl _, fun _ => rfl⟩

theorem map_some_filterMap {γ δ : Type} {f : γ → Option δ} {xs : List γ}
    (hsome : ∀ x ∈ xs, (f x).isSome) : (xs.filterMap f).map some = xs.map f := by
  induction xs with
  | nil => rfl
  | cons x xs ih =>
      obtain ⟨y, hy⟩ := Option.isSome_iff_exists.mp (hsome x List.mem_cons_self)
      rw [List.filterMap_cons_some hy, List.map_cons, List.map_cons, hy,
        ih fun other hother => hsome other (List.mem_cons_of_mem x hother)]

omit [Scalar α] in
/-- An order of all places of a list picks every item of the list once. -/
theorem map_some_picked {instances : List (Instance α)} {order : List Nat}
    (hperm : order.Perm (List.range instances.length)) :
    (order.filterMap (instances[·]?)).map some = order.map (instances[·]?) ∧
      (order.filterMap (instances[·]?)).length = instances.length := by
  have hthere : (order.filterMap (instances[·]?)).map some = order.map (instances[·]?) :=
    map_some_filterMap fun i hi => by
      rw [List.getElem?_eq_getElem (List.mem_range.mp (hperm.subset hi))]
      rfl
  have hlength := congrArg List.length hthere
  rw [List.length_map, List.length_map, hperm.length_eq, List.length_range] at hlength
  exact ⟨hthere, hlength⟩

omit [Scalar α] in
/-- The places of a list in their order pick the list. -/
theorem picked_range (instances : List (Instance α)) :
    (List.range instances.length).filterMap (instances[·]?) = instances := by
  have hthere : (List.range instances.length).map (instances[·]?) = instances.map some := by
    apply List.ext_getElem?
    intro k
    by_cases hk : k < instances.length
    · simp [hk]
    · simp [hk]
  rw [← (map_some_picked (.refl (List.range instances.length))).1] at hthere
  exact (List.map_inj_right fun _ _ => Option.some.inj).mp hthere

omit [Scalar α] in
/-- An order of all places of a list picks the items of the list in some order. -/
theorem perm_picked {instances : List (Instance α)} {order : List Nat}
    (hperm : order.Perm (List.range instances.length)) :
    (order.filterMap (instances[·]?)).Perm instances := by
  have hpicked := hperm.filterMap (instances[·]?)
  rwa [picked_range] at hpicked

omit [Scalar α] in
/-- Batches that are cut from an epoch's order. -/
theorem covers_of_batches {plan : RunPlan} (hsize : 0 < plan.batchSize.toNat)
    {instances : List (Instance α)} {order : List Nat}
    (hperm : order.Perm (List.range instances.length))
    (hsame : plan.shuffle = false → order = List.range instances.length)
    {batches : List (List (Instance α × α))}
    (hbatches : batches.map (List.map Prod.fst) =
      FeedForward.batches plan.batchSize.toNat (order.filterMap (instances[·]?))) :
    Covers plan instances batches := by
  obtain ⟨hthere, hcount⟩ := map_some_picked hperm
  have hlengths : ∀ (k : Nat) (batch : List (Instance α × α)), batches[k]? = some batch →
      (FeedForward.batches plan.batchSize.toNat (order.filterMap (instances[·]?)))[k]? =
        some (batch.map Prod.fst) := by
    intro k batch hk
    rw [← hbatches, List.getElem?_map, hk, Option.map_some]
  have hmany : batches.length = (FeedForward.batches plan.batchSize.toNat
      (order.filterMap (instances[·]?))).length := by rw [← hbatches, List.length_map]
  constructor
  case ordered =>
    refine ⟨order, hperm, hsame, ?_⟩
    rw [← hthere, ← flatten_batches hsize (order.filterMap (instances[·]?)), ← hbatches,
      ← List.map_flatten, List.map_map]
    rfl
  case count_eq => rw [hmany, length_batches hsize, hcount, batchCount]
  case length_range =>
    intro batch hbatch
    obtain ⟨k, hk⟩ := List.mem_iff_getElem?.mp hbatch
    have hrange := length_of_mem_batches hsize _ (List.mem_of_getElem? (hlengths k batch hk))
    rwa [List.length_map] at hrange
  case length_eq =>
    intro k batch hk hlast
    have hfull := length_of_lt_batches hsize _ (hlengths k batch hk) (hmany ▸ hlast)
    rwa [List.length_map] at hfull

/-- What an epoch does that succeeds: it trains the batches that are cut from its order and then
tells the listeners of their mean error. -/
theorem runEpoch_eq_ok {plan : RunPlan} (hsize : 0 < plan.batchSize.toNat)
    {listeners : List (Listener α τ)} {instances : List (Instance α)} {epoch : Nat}
    {progress progress' : Progress α} {s after : Session α β τ}
    (hrun : runEpoch plan listeners instances.toArray epoch progress s = .ok progress' after) :
    ∃ (batches : List (List (Instance α × α))) (trained : Session α β τ) (log : τ),
      batches.map (List.map Prod.fst) = FeedForward.batches plan.batchSize.toNat
        ((epochOrder plan instances.length progress.source).1.filterMap (instances[·]?)) ∧
      trainBatches (batches.map (List.map Prod.fst)) s = .ok (batches.flatten.map Prod.snd) trained ∧
      Happens listeners (batchEvents s.iteration batches) s trained ∧
      trained.iteration = s.iteration + batches.length ∧
      Listener.Told epoch (lossOf batches) listeners trained.log (.ok () log) ∧
      after = { trained with log } ∧
      progress'.source = (epochOrder plan instances.length progress.source).2 ∧
      progress'.steps = progress.steps + batches.length ∧ progress'.loss = lossOf batches := by
  simp only [runEpoch, List.size_toArray, List.getElem?_toArray] at hrun
  obtain ⟨errors, trained, hbatches, hrun₁⟩ := Step.bind_eq_ok hrun
  obtain ⟨_, reported, hreport, hrun₂⟩ := Step.bind_eq_ok hrun₁
  obtain ⟨log, hnotify, rfl⟩ := onLog_eq_ok hreport
  have hparts : ∀ part ∈ FeedForward.batches plan.batchSize.toNat
      ((epochOrder plan instances.length progress.source).1.filterMap (instances[·]?)),
      part ≠ [] := by
    rintro _ hpart rfl
    exact Nat.not_succ_le_zero 0 (length_of_mem_batches hsize _ hpart).1
  obtain ⟨batches, hmap, rfl, hiteration, hevents⟩ :=
    happens_trainBatches listeners hparts hbatches
  rw [← hmap] at hbatches hiteration hrun₂
  rw [List.length_map] at hiteration hrun₂
  refine ⟨batches, trained, log, hmap, hbatches, hevents, hiteration,
    Listener.told_iff.mpr hnotify, ?_⟩
  split at hrun₂ <;> cases hrun₂ <;> exact ⟨rfl, rfl, rfl, rfl⟩

/-- One epoch. -/
theorem happens_runEpoch {plan : RunPlan} (hsize : 0 < plan.batchSize.toNat)
    {listeners : List (Listener α τ)} {instances : List (Instance α)} {epoch : Nat}
    {progress progress' : Progress α} {s after : Session α β τ}
    (hrun : runEpoch plan listeners instances.toArray epoch progress s = .ok progress' after) :
    ∃ batches, Covers plan instances batches ∧
      Happens listeners (batchEvents s.iteration batches ++ [.report epoch (lossOf batches)]) s
        after ∧
      after.iteration = s.iteration + batches.length ∧
      progress'.steps = progress.steps + batches.length ∧ progress'.loss = lossOf batches := by
  obtain ⟨hperm, hsame⟩ := perm_epochOrder plan instances.length progress.source
  obtain ⟨batches, trained, log, hmap, -, hevents, hiteration, htold, rfl, -, hsteps, hloss⟩ :=
    runEpoch_eq_ok hsize hrun
  exact ⟨batches, covers_of_batches hsize hperm hsame hmap,
    hevents.append (.report htold (.nil _)), hiteration, hsteps, hloss⟩

/-- The epochs that are left. -/
theorem happens_runEpochs {plan : RunPlan} (hsize : 0 < plan.batchSize.toNat)
    {listeners : List (Listener α τ)} {instances : List (Instance α)} {left epoch : Nat}
    {progress progress' : Progress α} {s after : Session α β τ}
    (hrun : runEpochs plan listeners instances.toArray left epoch progress s =
      .ok progress' after) :
    ∃ epochs : List (List (List (Instance α × α))), epochs.length ≤ left ∧
      (∀ batches ∈ epochs, Covers plan instances batches) ∧
      Happens listeners (journal s.iteration epoch epochs) s after ∧
      after.iteration = s.iteration + epochs.length * batchCount plan instances ∧
      progress'.steps = progress.steps + epochs.length * batchCount plan instances ∧
      progress'.loss = (epochs.map lossOf).getLastD progress.loss := by
  induction left generalizing epoch progress s with
  | zero =>
      cases hrun
      exact ⟨[], Nat.le_refl _, by simp, .nil _, by simp, by simp, rfl⟩
  | succ left ih =>
      obtain ⟨middle, t, hfirst, hrest⟩ := Step.bind_eq_ok hrun
      obtain ⟨batches, hcovers, hevents, hiteration, hsteps, hloss⟩ := happens_runEpoch hsize hfirst
      split at hrest
      next =>
        cases hrest
        refine ⟨[batches], by simp, by simpa using hcovers, hevents, ?_, ?_, hloss⟩
        · rw [hiteration, hcovers.count_eq, List.length_singleton, Nat.one_mul]
        · rw [hsteps, hcovers.count_eq, List.length_singleton, Nat.one_mul]
      next =>
        obtain ⟨epochs, hleft, hall, hothers, hmore, hmoreSteps, hlast⟩ := ih hrest
        refine ⟨batches :: epochs, by simpa using hleft, ?_, ?_, ?_, ?_, ?_⟩
        · exact List.forall_mem_cons.mpr ⟨hcovers, hall⟩
        · have happend := hevents.append (hiteration ▸ hothers)
          rwa [List.append_assoc] at happend
        · rw [hmore, hiteration, hcovers.count_eq, List.length_cons, Nat.succ_mul, Nat.add_assoc,
            Nat.add_comm (batchCount plan instances)]
        · rw [hmoreSteps, hsteps, hcovers.count_eq, List.length_cons, Nat.succ_mul, Nat.add_assoc,
            Nat.add_comm (batchCount plan instances)]
        · rw [hlast, hloss, List.map_cons, List.getLastD_cons]

end Session

end FeedForward
