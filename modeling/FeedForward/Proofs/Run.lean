import FeedForward.Proofs.Network.Configured
import FeedForward.Proofs.Report
import FeedForward.Proofs.Session.Saving

/-!
# Configured runs and what they leave

A configured run that succeeds is the plain run that its configuration describes: the network of the
model section is trained on the data set by the plan of the train section. Its record log, its
metric table, its report and its model file all tell of that one run, whether it went through all
epochs, stopped early or had none, and whatever the files held before. Other files are left alone.
-/

namespace FeedForward

theorem Path.file_injective (directory : String) : Function.Injective (Path.file directory) := by
  intro name other hsame
  simp only [Path.file] at hsame
  split at hsame
  · exact hsame
  · split at hsame
    · exact (String.append_right_inj _).mp hsame
    · exact (String.append_right_inj _).mp hsame

namespace ConfiguredRun

open Session (diary numbered batchCount)

/-! ## What a configuration describes -/

/-- A configuration has a section with these entries. -/
def Holds (config : Value) (key : String) (entries : List (Atom × Value)) : Prop :=
  ∃ sections value, config = .mapping sections ∧ Value.lookup sections key = some value ∧
    value.toEntries = .ok entries

/-- The patience that a section gives a run. Where nothing stands, or null, it gives none. -/
inductive Waits (entries : List (Atom × Value)) : Option Int → Prop where
  | absent (hnone : Value.lookup entries "early_stopping_patience" = none) : Waits entries none
  | null (hnull : Value.lookup entries "early_stopping_patience" = some .null) : Waits entries none
  | given {value : Value} {patience : Int}
      (hvalue : Value.lookup entries "early_stopping_patience" = some value)
      (hconvert : value.toInteger = .ok patience) : Waits entries (some patience)

/-- What a configured run is made of, as the sections of its configuration say. -/
structure Described (config : Value) (p : Prepared) (plan : RunPlan) : Prop where
  train : Holds config "train" p.train
  seed : Value.Says p.train "seed" Value.toInteger 0 p.seed
  data_eq : ∃ data name options, Holds config "data" data ∧
    Value.lookup data "name" = some name ∧
    ((Value.lookup data "options").getD (.mapping [])).toEntries = .ok options ∧
    Dataset.get Dataset.registry name.shown options = .ok p.instances ∧
    ∃ given, Value.Says p.train "run_dir" Value.toText ("runs/" ++ name.shown) given ∧
      ∃ directory, Path.check given = .ok directory ∧ p.directory = Path.plain directory
  network_eq : ∃ model, Holds config "model" model ∧
    Network.configured (.mapping model) (some p.seed) = .ok p.network
  epochs : Value.Says p.train "epochs" Value.toInteger 1 plan.epochs
  batchSize : Value.Says p.train "batch_size" Value.toInteger 1 plan.batchSize
  shuffle : Value.Says p.train "shuffle" (.ok ·.isTrue) true plan.shuffle
  patience : Waits p.train plan.patience
  planSeed_eq : plan.seed = p.seed
  determinism_eq : plan.determinism = true

section

variable {config : Value} {entries : List (Atom × Value)} {key : String}

theorem sectionOf_eq_ok_iff : sectionOf config key = .ok entries ↔ Holds config key entries := by
  cases config with
  | atom a => simp [sectionOf, Holds]
  | list items => simp [sectionOf, Holds]
  | mapping sections =>
      rw [sectionOf]
      cases hlookup : Value.lookup sections key <;> simp [Holds, hlookup]

theorem wholeIn_eq_ok_iff {default n : Int} :
    wholeIn entries key default = .ok n ↔ Value.Says entries key Value.toInteger default n :=
  Value.says_iff.symm

theorem truthIn_eq_iff {default b : Bool} :
    truthIn entries key default = b ↔ Value.Says entries key (.ok ·.isTrue) default b := by
  rw [truthIn, Value.says_iff]
  cases Value.lookup entries key <;> simp

theorem patienceIn_eq_ok_iff {patience : Option Int} :
    patienceIn entries = .ok patience ↔ Waits entries patience := by
  rw [patienceIn]
  constructor
  · intro hread
    split at hread
    next hnull => cases hread; exact .null hnull
    next hnone => cases hread; exact .absent hnone
    next value _ hvalue =>
      cases hconvert : value.toInteger with
      | error fault => rw [hconvert] at hread; cases hread
      | ok n => rw [hconvert] at hread; cases hread; exact .given hvalue hconvert
  · intro hwaits
    cases hwaits with
    | absent hnone => rw [hnone]
    | null hnull => rw [hnull]; rfl
    | given hvalue hconvert =>
        rw [hvalue]
        split
        next hnull => cases hnull; cases hconvert
        next hnone => cases hnone
        next hsame => cases hsame; rw [hconvert]; rfl

end

theorem described_of_prepare {config : Value} {p : Prepared} {plan : RunPlan}
    (hprepare : prepare config = .ok p) (hplan : planIn p.train p.seed = .ok plan) :
    Described config p plan := by
  simp only [prepare, Check.bind_eq_ok_iff, sectionOf_eq_ok_iff, wholeIn_eq_ok_iff] at hprepare
  obtain ⟨data, hdata, model, hmodel, train, htrain, seed, hseed, hprepare⟩ := hprepare
  cases hname : Value.lookup data "name" with
  | none => rw [hname] at hprepare; cases hprepare
  | some name =>
      simp only [hname, Check.bind_eq_ok_iff, Check.pure_eq_ok_iff,
        Network.nameIn_eq_ok_iff] at hprepare
      obtain ⟨options, hoptions, instances, hinstances, net, hnet, given, hgiven, directory,
        hdirectory, rfl⟩ := hprepare
      simp only [planIn, Check.bind_eq_ok_iff, Check.pure_eq_ok_iff, wholeIn_eq_ok_iff,
        patienceIn_eq_ok_iff] at hplan
      obtain ⟨epochs, hepochs, batchSize, hbatchSize, patience, hpatience, rfl⟩ := hplan
      exact {
        train := htrain
        seed := hseed
        data_eq := ⟨data, name, options, hdata, hname, hoptions, hinstances, given, hgiven,
          directory, hdirectory, rfl⟩
        network_eq := ⟨model, hmodel, hnet⟩
        epochs := hepochs
        batchSize := hbatchSize
        shuffle := truthIn_eq_iff.mp rfl
        patience := hpatience
        planSeed_eq := rfl
        determinism_eq := rfl }

theorem Described.portable {config : Value} {p : Prepared} {plan : RunPlan}
    (hdescribed : Described config p plan) : ModelFile.Portable p.network := by
  obtain ⟨model, -, hnet⟩ := hdescribed.network_eq
  exact Network.portable_configured hnet

/-! ## Files -/

theorem lookup_written (there : List (String × Content)) (p : Prepared) (log : RunLog)
    (model : List UInt8) (path : String) :
    Registry.lookup (written there p log (some model)).files path =
      if Path.file p.directory "last.model" = path then some (.bytes model)
      else if Path.file p.directory "metrics.csv" = path then some (.text log.table.text)
      else if Path.file p.directory "metrics.jsonl" = path then some (.text log.records.text)
      else Registry.lookup there path := by
  simp only [written, files, Option.map_some, Option.toList_some, List.cons_append,
    List.nil_append, List.foldl_cons, List.foldl_nil, Registry.lookup_put]

/-- What listeners of a run have kept before it starts. -/
def blank (p : Prepared) : RunLog :=
  ⟨.empty (.integer p.seed) (.list (p.network.sizes.map fun (size : Nat) => .integer size)), .empty,
    .empty (truthIn p.train "enable_plots" false)⟩

/-- A run that saves its network ends well. -/
theorem execute_of_saving {p : Prepared} {plan : RunPlan} {summary : RunSummary Double}
    {ended : Session Double Single RunLog} {model : Option (List UInt8)}
    (hplan : planIn p.train p.seed = .ok plan)
    (hsaving : Session.runSaving plan RunLog.listeners p.instances
      (⟨p.network, 0, blank p⟩, none) = .ok summary (ended, model))
    (there : List (String × Content)) :
    execute there p = (written there p ended.log model, .ok ⟨summary.steps, summary.loss,
      Path.file p.directory "metrics.jsonl", Path.file p.directory "last.model"⟩) := by
  rw [blank] at hsaving
  simp only [execute, hplan, hsaving]

/-- A run that succeeds has trained the network and written it whole. -/
theorem execute_eq_ok {there : List (String × Content)} {p : Prepared} {after : Written}
    {report : RunReport} (hrun : execute there p = (after, .ok report)) :
    ∃ plan summary ended, planIn p.train p.seed = .ok plan ∧
      Session.run plan RunLog.listeners p.instances ⟨p.network, 0, blank p⟩ = .ok summary ended ∧
      (ModelFile.write ended.network).cut = none ∧
      after = written there p ended.log (some (ModelFile.write ended.network).bytes) ∧
      report = ⟨summary.steps, summary.loss, Path.file p.directory "metrics.jsonl",
        Path.file p.directory "last.model"⟩ := by
  simp only [execute] at hrun
  cases hplan : planIn p.train p.seed with
  | error fault => rw [hplan] at hrun; cases hrun
  | ok plan =>
      simp only [hplan] at hrun
      generalize hsave : Session.runSaving (α := Double) (β := Single) plan RunLog.listeners
        p.instances (_, none) = result at hrun
      cases result with
      | error fault saved => cases hrun
      | ok summary saved =>
          cases hrun
          obtain ⟨ended, htrained, hwhole, rfl⟩ := Session.runSaving_eq_ok hsave
          exact ⟨plan, summary, ended, rfl, htrained, hwhole, rfl, rfl⟩

/-- A run succeeds whose plan passes, on a network that can be trained and stored. -/
theorem exists_runOver {config : Value} {p : Prepared} {plan : RunPlan} {source : Generator}
    (hprepare : prepare config = .ok p) (hplan : planIn p.train p.seed = .ok plan)
    (hcheck : plan.check p.instances = .ok source)
    (hnet : Session.CanTrain p.network p.instances) (hstorable : ModelFile.Storable p.network)
    (hfits : ∀ k < plan.epochs.toNat * batchCount plan p.instances,
      Scalar.fits (α := Double) k = true) (there : List (String × Content)) :
    ∃ after report, runOver there config = (after, .ok report) := by
  have hportable := (described_of_prepare hprepare hplan).portable
  obtain ⟨summary, ended, htrained⟩ := Session.exists_run (s := ⟨p.network, 0, blank p⟩) hcheck
    RunLog.attentive_listeners hnet (fun k hk => by rw [Nat.zero_add]; exact hfits k hk)
  have hended := Session.reweighted_of_run hportable.wellFormed htrained
  have hsaving := Session.runSaving_of_ok htrained (hended.whole hportable hstorable) none
  rw [runOver, hprepare]
  exact ⟨_, _, execute_of_saving hplan hsaving there⟩

/-! ## Artefacts -/

/-- What a run leaves and reports that has gone through epochs with some losses and has ended with
some network. The record log is cut at its line feeds. Where a curve is wanted, there may be a
picture of it beside the other files. -/
structure Artefacts (there : List (String × Content)) (p : Prepared) (plan : RunPlan)
    (losses : List Double) (net : Network Double Single) (after : Written) (report : RunReport) :
    Prop where
  records : ∃ text, Registry.lookup after.files report.recordsPath = some (.text text) ∧
    text.toList.splitOn '\n' = (numbered 1 losses).map (fun epoch => (Json.write
      (RecordLog.record (.integer p.seed) (.list (net.sizes.map fun (size : Nat) => .integer size))
        epoch.1 epoch.2)).toList) ++ [[]]
  table : Registry.lookup after.files (Path.file p.directory "metrics.csv") =
    some (.text (if losses.isEmpty then "" else
      MetricTable.header ++ String.join ((numbered 1 losses).map MetricTable.row)))
  model : ∃ bytes loaded, Registry.lookup after.files report.modelPath = some (.bytes bytes) ∧
    ModelFile.decode bytes = .ok loaded ∧ ModelFile.Restores net loaded
  recordsPath_eq : report.recordsPath = Path.file p.directory "metrics.jsonl"
  modelPath_eq : report.modelPath = Path.file p.directory "last.model"
  steps_eq : report.steps = losses.length * batchCount plan p.instances
  loss_eq : report.loss = losses.getLastD 0
  others : Value.Says p.train "enable_plots" (.ok ·.isTrue) false false →
    ∀ path ∉ ["metrics.jsonl", "metrics.csv", "last.model"].map (Path.file p.directory),
      Registry.lookup after.files path = Registry.lookup there path

theorem isEmpty_numbered {γ : Type} (epoch : Nat) (losses : List γ) :
    (numbered epoch losses).isEmpty = losses.isEmpty := by
  cases losses <;> rfl

/-- What is written of notes on numbered epochs and of a network that is read back. -/
theorem artefacts_written {there : List (String × Content)} {p : Prepared} {plan : RunPlan}
    {losses : List Double} {net loaded : Network Double Single} {log : RunLog}
    (hlog : log = Session.notesOn RunLog.note (blank p) (numbered 1 losses).reverse)
    (hsizes : net.sizes = p.network.sizes)
    (hdecode : ModelFile.decode (ModelFile.write net).bytes = .ok loaded)
    (hrestores : ModelFile.Restores net loaded) :
    Artefacts there p plan losses net (written there p log (some (ModelFile.write net).bytes))
      ⟨losses.length * batchCount plan p.instances, losses.getLastD 0,
        Path.file p.directory "metrics.jsonl", Path.file p.directory "last.model"⟩ := by
  have hrecords := RunLog.records_notesOn (blank p) (numbered 1 losses)
  have htable := RunLog.table_notesOn (blank p) rfl (numbered 1 losses)
  rw [← hlog] at hrecords htable
  have hpaths := Path.file_injective p.directory
  have hmodelRecords := hpaths.ne (show "last.model" ≠ "metrics.jsonl" by decide)
  have hmodelTable := hpaths.ne (show "last.model" ≠ "metrics.csv" by decide)
  have htableRecords := hpaths.ne (show "metrics.csv" ≠ "metrics.jsonl" by decide)
  exact {
    records := by
      refine ⟨log.records.text, ?_, ?_⟩
      · rw [lookup_written, if_neg hmodelRecords, if_neg htableRecords, if_pos rfl]
      · rw [hrecords, hsizes]
        exact RecordLog.splitOn_recordLines _ _ _
    table := by
      rw [lookup_written, if_neg hmodelTable, if_pos rfl, htable, isEmpty_numbered]
    model := ⟨_, loaded, by rw [lookup_written, if_pos rfl], hdecode, hrestores⟩
    recordsPath_eq := rfl
    modelPath_eq := rfl
    steps_eq := rfl
    loss_eq := rfl
    others := by
      intro _ path hpath
      simp only [List.map_cons, List.map_nil, List.mem_cons, List.not_mem_nil, or_false,
        not_or] at hpath
      obtain ⟨hrecordsPath, htablePath, hmodelPath⟩ := hpath
      rw [lookup_written, if_neg (Ne.symm hmodelPath), if_neg (Ne.symm htablePath),
        if_neg (Ne.symm hrecordsPath)] }

/-- A configured run that succeeds is the run that its configuration describes, and the files, the
model and the report that it leaves tell of that run. It has gone through all epochs, or fewer of
them when its patience has ended. -/
theorem runOver_artefacts {there : List (String × Content)} {config : Value} {after : Written}
    {report : RunReport} (hrun : runOver there config = (after, .ok report)) :
    ∃ p plan losses net, Described config p plan ∧
      (∃ summary iteration, Session.run plan [diary] p.instances ⟨p.network, 0, []⟩ =
        .ok summary ⟨net, iteration, (numbered 1 losses).reverse⟩) ∧
      net.sizes = p.network.sizes ∧ losses.length ≤ plan.epochs.toNat ∧
      Artefacts there p plan losses net after report := by
  rw [runOver] at hrun
  cases hprepare : prepare config with
  | error fault => rw [hprepare] at hrun; cases hrun
  | ok p =>
      rw [hprepare] at hrun
      obtain ⟨plan, ⟨steps, loss⟩, ended, hplan, htrained, hwhole, rfl, rfl⟩ := execute_eq_ok hrun
      have hdescribed := described_of_prepare hprepare hplan
      -- The run with a diary has the same network, and the notes are those on its reports.
      obtain ⟨⟨net, iteration, log⟩, hdiary, hretold⟩ :=
        Session.run_retold RunLog.takeNotes_listeners htrained
      obtain ⟨losses, hcount, hkept, hsteps, hloss⟩ := Session.run_diary hdiary
      obtain rfl : log = (numbered 1 losses).reverse := hkept
      obtain rfl : net = ended.network := hretold.network_eq
      obtain rfl : steps = losses.length * batchCount plan p.instances := hsteps
      obtain rfl : loss = losses.getLastD 0 := hloss
      have hended := Session.reweighted_of_run hdescribed.portable.wellFormed htrained
      obtain ⟨loaded, hdecode, hrestores⟩ := hended.exists_decode hdescribed.portable hwhole
      exact ⟨p, plan, losses, ended.network, hdescribed, ⟨_, iteration, hdiary⟩, hended.sizes_eq,
        hcount, artefacts_written hretold.log_eq hended.sizes_eq hdecode hrestores⟩

/-- Two epochs over four instances in their order, in batches of three and with patience. -/
def shortRun : Value := .mapping [
  (.text "data", .mapping [(.text "name", .text "xor")]),
  (.text "model", .mapping [(.text "layers", .list [
    .mapping [(.text "size", .integer 2)], .mapping [(.text "size", .integer 1)]])]),
  (.text "train", .mapping [(.text "epochs", .integer 2), (.text "batch_size", .integer 3),
    (.text "shuffle", .bool false), (.text "early_stopping_patience", .text "1"),
    (.text "seed", .integer 7), (.text "run_dir", .text "out")])]

def shortPlan : RunPlan := ⟨2, 7, 3, false, true, some 1⟩

theorem exists_prepare_shortRun : ∃ p, prepare shortRun = .ok p ∧
    planIn p.train p.seed = .ok shortPlan ∧ p.instances = Dataset.xor ∧
    Session.CanTrain p.network p.instances ∧ ModelFile.Storable p.network := by
  obtain ⟨p, hprepare, hplan, hinstances, hvalid, htransformer, hsizes, hmethod⟩ :
      ∃ p, prepare shortRun = .ok p ∧
        planIn p.train p.seed = .ok shortPlan ∧ p.instances = Dataset.xor ∧
        (∀ given ∈ Dataset.xor, ∃ checked, p.network.checkInstance given = .ok checked) ∧
        Network.KeepsCount p.network.transformer ∧ p.network.sizes = [3, 1] ∧
        ∃ method, TrainingMethod.ofName p.network.method = .ok method := by
    refine ⟨_, rfl, ?_⟩
    refine ⟨rfl, rfl, fun given hgiven => ?_, fun _ => rfl, rfl, _, rfl⟩
    simp only [Dataset.xor, List.mem_cons, List.not_mem_nil, or_false] at hgiven
    rcases hgiven with rfl | rfl | rfl | rfl <;> exact ⟨_, rfl⟩
  have hportable := (described_of_prepare hprepare hplan).portable
  have hnet : Session.CanTrain p.network p.instances :=
    ⟨hportable.wellFormed, hportable.complete, htransformer, hinstances ▸ hvalid⟩
  have hsizesLt : ∀ size ∈ p.network.sizes.length :: p.network.sizes, size < 2147483648 := by
    rw [hsizes]
    decide
  exact ⟨p, hprepare, hplan, hinstances, hnet,
    { hportable.listed with sizes_lt := hsizesLt, method_ok := hmethod }⟩

/-- A short run over the files of an earlier one. -/
theorem runOver_artefacts_shortRun :
    let there := [("out/metrics.jsonl", .text "{}\n"), ("out/last.model", .bytes [7])]
    ∃ after report, runOver there shortRun = (after, .ok report) ∧
      ∃ p plan losses net, Described shortRun p plan ∧
        (∃ summary iteration, Session.run plan [diary] p.instances ⟨p.network, 0, []⟩ =
          .ok summary ⟨net, iteration, (numbered 1 losses).reverse⟩) ∧
        net.sizes = p.network.sizes ∧ losses.length ≤ plan.epochs.toNat ∧
        Artefacts there p plan losses net after report := by
  intro there
  obtain ⟨p, hprepare, hplan, hinstances, hnet, hstorable⟩ := exists_prepare_shortRun
  obtain ⟨source, hcheck⟩ : ∃ source, shortPlan.check p.instances = .ok source := by
    rw [hinstances]
    exact ⟨_, rfl⟩
  have hfits : ∀ k < shortPlan.epochs.toNat * batchCount shortPlan p.instances,
      Scalar.fits (α := Double) k = true := by
    rw [hinstances]
    decide
  obtain ⟨after, report, hrun⟩ :=
    exists_runOver hprepare hplan hcheck hnet hstorable hfits there
  exact ⟨after, report, hrun, runOver_artefacts hrun⟩

end ConfiguredRun

end FeedForward
