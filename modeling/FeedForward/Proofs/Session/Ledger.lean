import FeedForward.Proofs.ModelFile.Format
import FeedForward.Proofs.Session.Coherence
import FeedForward.Proofs.Session.Draws

/-!
# The ledger of a history

The source of a network stands behind every history where the ledger of the history says, which
tells in their order what was drawn by the operations and the runs, refused and failed ones among
them. What is drawn next is read off there, and a refused operation leaves no trace in any weight or
mask that comes later. Merging updates does not see the network, so it is no episode.
-/

namespace FeedForward

namespace Episode

variable {α β : Type} [Scalar α] [Add β] [Zero β] [Precision α β]

/-- What an episode draws. -/
def draws (net : Network α β) : Episode α β → List Draw
  | ask operation => operation.draws net
  | train plan listeners instances iteration log =>
    Session.runDraws plan listeners instances ⟨net, iteration, log⟩

omit [Add β] [Zero β] [Precision α β] in
/-- Restored activations are there. Nothing is demanded of other episodes. -/
def Resolves : Episode α β → Prop
  | ask operation => operation.Resolves
  | train _ _ _ _ _ => True

/-- An episode is refused for an argument that breaks a rule, or for a mode that is not there. -/
def Refused (net : Network α β) : Episode α β → Prop
  | ask operation => ∃ fault, operation.failure? net = some fault ∧ ¬ fault.Mishap
  | train plan _ instances _ _ => ∃ fault, plan.check instances = .error fault

end Episode

namespace Network

variable {α β : Type} [Scalar α] [Add β] [Zero β] [Precision α β]

/-- What a network draws in some episodes, one after the other. -/
def ledger : List (Episode α β) → Network α β → List Draw
  | [], _ => []
  | episode :: rest, net => episode.draws net ++ ledger rest (episode.apply net)

theorem Auditable.episode {net : Network α β} (hnet : net.Auditable) {episode : Episode α β}
    (hresolves : episode.Resolves) : (episode.apply net).Auditable ∧
      (episode.apply net).source = net.source.skip (Draw.total (episode.draws net)) := by
  cases episode with
  | ask operation =>
      exact ⟨⟨hnet.coherent.apply operation, hnet.primed.apply hresolves⟩,
        source_apply hnet.coherent hnet.primed operation⟩
  | train plan listeners instances iteration log =>
      exact Session.accounts_run plan listeners instances ⟨net, iteration, log⟩ hnet

/-- The source stands where the ledger says. -/
theorem Auditable.live {net : Network α β} (hnet : net.Auditable) {episodes : List (Episode α β)}
    (hresolves : ∀ episode ∈ episodes, episode.Resolves) : (live episodes net).Auditable ∧
      (Network.live episodes net).source = net.source.skip (Draw.total (ledger episodes net)) := by
  induction episodes generalizing net with
  | nil => exact ⟨hnet, (net.source.skip_zero).symm⟩
  | cons episode rest ih =>
      obtain ⟨hepisode, hothers⟩ := List.forall_mem_cons.mp hresolves
      obtain ⟨hafter, hsource⟩ := hnet.episode hepisode
      obtain ⟨hlive, hrest⟩ := ih hafter hothers
      refine ⟨hlive, hrest.trans ?_⟩
      rw [hsource, ledger, Draw.total_append, Generator.skip_add]

theorem live_append (episodes rest : List (Episode α β)) (net : Network α β) :
    live (episodes ++ rest) net = live rest (live episodes net) := by
  induction episodes generalizing net with
  | nil => rfl
  | cons episode episodes ih => exact ih (episode.apply net)

theorem ledger_append (episodes rest : List (Episode α β)) (net : Network α β) :
    ledger (episodes ++ rest) net = ledger episodes net ++ ledger rest (live episodes net) := by
  induction episodes generalizing net with
  | nil => rfl
  | cons episode episodes ih =>
      rw [List.cons_append, ledger, ledger, ih, List.append_assoc]
      rfl

theorem episode_of_refused {net : Network α β} {episode : Episode α β}
    (hresolves : episode.Resolves) (hrefused : episode.Refused net) :
    episode.apply net = net ∧ episode.draws net = [] := by
  cases episode with
  | ask operation =>
      obtain ⟨fault, hfault, hmishap⟩ := hrefused
      exact ⟨apply_of_refused hresolves hfault hmishap, draws_of_refused hfault hmishap⟩
  | train plan listeners instances iteration log =>
      obtain ⟨fault, hcheck⟩ := hrefused
      constructor
      · rw [Episode.apply, Step.after, Session.run_of_check_error hcheck]
      · rw [Episode.draws, Session.runDraws, hcheck]

omit [Add β] [Zero β] [Precision α β] in
theorem auditable_create {settings : Settings α} {created : Network α β}
    (hcreate : create settings = .ok created) (htransformer : KeepsCount created.transformer) :
    created.Auditable := by
  obtain ⟨hsizes, _, _, hactivations, hrules, _, hnone, _⟩ := create_eq_ok hcreate
  exact {
    coherent := .of_arena_none hnone
    primed := {
      transformer := htransformer
      rules_length := by rw [hrules, hsizes]; rfl
      activations_length := by rw [hactivations, hsizes]; rfl
      units := by
        intro arena harena
        rw [hnone] at harena
        cases harena } }

omit [Add β] [Zero β] [Precision α β] in
theorem source_of_create {settings : Settings α} {created : Network α β}
    (hcreate : create settings = .ok created) :
    Generator.ofSeed settings.seed = .ok created.source := by
  simp only [create, Check.bind_eq_ok_iff, Check.pure_eq_ok_iff] at hcreate
  obtain ⟨_, _, _, _, _, _, _, _, _, hsource, rfl⟩ := hcreate
  exact hsource

omit [Add β] in
/-- Decoding draws nothing: the source that a decoded network has of its own is at its start. -/
theorem source_of_decode [Encoding α] [Encoding β] {bytes : List UInt8} {decoded : Network α β}
    (hdecode : ModelFile.decode bytes = .ok decoded) :
    Generator.ofSeed none = .ok decoded.source := by
  obtain ⟨⟨net, rest⟩, hread, hrest⟩ := Check.bind_eq_ok_iff.mp hdecode
  obtain rfl : net = decoded := by
    cases rest with
    | nil => cases hrest; rfl
    | cons byte rest => cases hrest
  obtain ⟨contents, _, -, hassemble⟩ := Input.bind_eq_ok hread
  cases hnet : ModelFile.assemble (α := α) (β := β) contents with
  | error cause => rw [hnet] at hassemble; cases hassemble
  | ok made =>
      rw [hnet] at hassemble
      cases hassemble
      obtain ⟨_, -, hnet⟩ := Check.bind_eq_ok_iff.mp hnet
      obtain ⟨_, -, hnet⟩ := Check.bind_eq_ok_iff.mp hnet
      obtain ⟨created, hcreate, hrestore⟩ := Check.bind_eq_ok_iff.mp hnet
      cases hrun : restoreLayers contents.topology created with
      | error fault _ => rw [hrun] at hrestore; cases hrestore
      | ok _ restored =>
          rw [hrun] at hrestore
          cases hrestore
          rw [source_of_create hcreate, (keepsSource_restoreLayers _).of_ok hrun]

/-- The source of a network stands behind what an account tells, and goes on from there: what is
drawn next are the weights of a new layer, row by row, or a mask for each unit of the input layer in
turn. -/
structure Accounted (start : Generator) (account : List Draw) (net : Network α β) : Prop where
  source_eq : net.source = start.skip (Draw.total account)
  weights_next : ∀ (plan : LayerPlan) (index columns : Nat) (after : Network α β),
    addLayer plan net = .ok index after → net.sizes.getLast? = some columns →
    ∃ matrix : Tensor β, after.weights = net.weights ++ [matrix] ∧
      matrix.shape = [plan.size.toNat, columns] ∧
      ∀ row column, row < plan.size.toNat → column < columns → matrix.entry row column =
        .ok (Precision.centred α
          (start.skip (Draw.total account + (row * columns + column))).bits.1)
  masks_next : ∀ (operation : Operation α β) (units : Nat),
    .masks units ∈ operation.draws net →
    Drawn (start.skip (Draw.total account + units))
      ((List.range units).map fun k => !Scalar.lt
        (Scalar.fraction (start.skip (Draw.total account + k)).bits.1) (1 - net.dropRate))
      (operation.apply net)

theorem Auditable.accounted {net : Network α β} (hnet : net.Auditable) {start : Generator}
    {account : List Draw} (hsource : net.source = start.skip (Draw.total account)) :
    Accounted start account net where
  source_eq := hsource
  weights_next := by
    intro plan index columns after hrun hcolumns
    obtain ⟨matrix, hweights, hshape, hentries⟩ := addLayer_draws hrun hcolumns
    refine ⟨matrix, hweights, hshape, fun row column hrow hcolumn => ?_⟩
    rw [hentries row column hrow hcolumn, hsource, ← Generator.skip_add]
  masks_next := by
    intro operation units hmasks
    have hdrawn := masks_drawn hnet.coherent hnet.primed hmasks
    simpa only [hsource, Generator.skip_add] using hdrawn

/-- The ledger of a new network is exact behind every history, whatever was refused or failed in it.
What the network complies with draws for a layer that is not the first one and for a pass under
training, as many masks at one drop rate as at any other. What it refuses draws nothing and may be
struck from the history. A run draws masks only, once for every instance in each of its epochs if it
succeeds, and a decoded network starts with a source of its own. -/
theorem live_create_accounted {settings : Settings α} {created : Network α β}
    (hcreate : create settings = .ok created) (htransformer : KeepsCount created.transformer)
    {episodes : List (Episode α β)} (hresolves : ∀ episode ∈ episodes, episode.Resolves) :
    let net := live episodes created
    (∃ start, Generator.ofSeed settings.seed = .ok start ∧
      Accounted start (ledger episodes created) net) ∧
    (∀ episode : Episode α β, episode.Resolves → episode.Refused net →
      episode.draws net = [] ∧
      ∀ rest, live (episodes ++ episode :: rest) created = live (episodes ++ rest) created ∧
        ledger (episodes ++ episode :: rest) created = ledger (episodes ++ rest) created) ∧
    (∀ operation : Operation α β, operation.failure? net = none →
      operation.draws net = operation.dues net) ∧
    (∀ (operation : Operation α β) (rate : α),
      operation.draws { net with dropRate := rate } = operation.draws net) ∧
    (∀ {τ : Type} (plan : RunPlan) (listeners : List (Listener α τ))
        (instances : List (Instance α)) (iteration : Nat) (log : τ),
      let session : Session α β τ := ⟨net, iteration, log⟩
      ∃ count, Session.runDraws plan listeners instances session =
          List.replicate count (.masks (net.width 0)) ∧
        ∀ summary after, Session.run plan listeners instances session = .ok summary after →
          ∃ epochs ≤ plan.epochs.toNat, count = epochs * instances.length ∧
            summary.steps = epochs * Session.batchCount plan instances) ∧
    ∀ [Encoding α] [Encoding β] (bytes : List UInt8) (decoded : Network α β),
      ModelFile.decode bytes = .ok decoded → Generator.ofSeed none = .ok decoded.source := by
  intro net
  obtain ⟨hlive, hsource⟩ := (auditable_create hcreate htransformer).live hresolves
  refine ⟨⟨created.source, source_of_create hcreate, hlive.accounted hsource⟩,
    fun episode hepisode hrefused => ?_, fun _ => draws_of_complied,
    fun operation rate => by cases operation <;> rfl,
    fun plan listeners instances iteration log => Session.runDraws_eq plan listeners instances _,
    fun _ _ => source_of_decode⟩
  obtain ⟨hsame, hnone⟩ := episode_of_refused hepisode hrefused
  refine ⟨hnone, fun rest => ⟨?_, ?_⟩⟩
  · rw [live_append, live_append, live, hsame]
  · rw [ledger_append, ledger_append, ledger, hsame, hnone, List.nil_append]

/-- A new network whose source starts at a seed. -/
def seeded : Network Double Single := { blank with source := ⟨7⟩ }

/-- Two layers, a third one that is refused, and a pass under training. -/
def audited : List (Episode Double Single) :=
  [.ask (.addLayer (.default 2)), .ask (.addLayer { LayerPlan.default 2 with isOutput := true }),
    .ask (.addLayer (.default 1)), .ask (.setTraining true),
    .ask (.getOutput (some (.ofList [1, 0])))]

theorem ledger_audited : ledger audited seeded = [.weights 2 3, .masks 3] := rfl

/-- Six weights and three masks have been drawn, and one more layer leaves no trace either. -/
theorem live_create_accounted_audited :
    create { Settings.default with seed := some 7 } = .ok seeded ∧
      KeepsCount seeded.transformer ∧ (∀ episode ∈ audited, episode.Resolves) ∧
      (live audited seeded).source = Generator.skip 9 ⟨7⟩ ∧
      (Episode.ask (.addLayer (.default 1))).Refused (live audited seeded) ∧
      ∀ rest, live (audited ++ .ask (.addLayer (.default 1)) :: rest) seeded =
        live (audited ++ rest) seeded := by
  have hcreate : create { Settings.default with seed := some 7 } = .ok seeded := rfl
  have htransformer : KeepsCount seeded.transformer := fun _ => rfl
  have hresolves : ∀ episode ∈ audited, episode.Resolves := by
    simp [audited, Episode.Resolves, Operation.Resolves]
  have hrefused : (Episode.ask (.addLayer (.default 1))).Refused (live audited seeded) :=
    ⟨.topologyFixed, rfl, fun hmishap => hmishap.1 rfl⟩
  obtain ⟨⟨start, hstart, haccount⟩, herased, -⟩ :=
    live_create_accounted hcreate htransformer hresolves
  cases hstart
  have hsource := haccount.source_eq
  rw [ledger_audited] at hsource
  exact ⟨hcreate, htransformer, hresolves, hsource, hrefused,
    fun rest => ((herased (.ask (.addLayer (.default 1))) trivial hrefused).2 rest).1⟩

end Network

end FeedForward
