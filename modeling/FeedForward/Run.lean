import FeedForward.Config.Build
import FeedForward.Dataset.Options
import FeedForward.Path
import FeedForward.Report.Curve
import FeedForward.Report.MetricTable
import FeedForward.Report.RecordLog
import FeedForward.Session.Run

/-!
# Configured runs

A configured run builds a data set and a network, trains the network and keeps files in the
directory of the run: a record log and a metric table that grow with every epoch, and the
model file at the end. Each takes the place of a file of that name which was there before. A run
that fails leaves the console text and the files that it has written until then.
-/

namespace FeedForward

/-- The contents of a file. -/
inductive Content where
  | text (s : String)
  | bytes (bs : List UInt8)

/-- What a run has written so far: text on the console, and files by path. -/
structure Written where
  console : String
  files : List (String × Content)

/-- What a run that succeeds ends with. -/
structure RunReport where
  steps : Nat
  loss : Double
  recordsPath : String
  modelPath : String

/-- What listeners of a configured run keep. -/
structure RunLog where
  records : RecordLog
  table : MetricTable
  curve : Curve Int

namespace RunLog

/-- Puts an epoch into one of the things that listeners keep. -/
def listener {σ : Type} (part : RunLog → σ) (put : σ → RunLog → RunLog)
    (add : Int → Metrics → Step σ Unit) : Listener Double RunLog :=
  .ofHook fun epoch loss log => Step.mapState (fun s => put s log)
    (add epoch (Metrics.ofLoss loss) (part log))

/-- The listeners of a configured run. -/
def listeners : List (Listener Double RunLog) :=
  [listener records (fun records log => { log with records }) RecordLog.add,
    listener table (fun table log => { log with table }) MetricTable.add,
    listener curve (fun curve log => { log with curve }) Curve.add]

end RunLog

namespace ConfiguredRun

/-- A section of a configuration as entries. -/
def sectionOf (config : Value) (key : String) : Except Fault (List (Atom × Value)) :=
  match config with
  | .mapping entries =>
    match Value.lookup entries key with
    | some value => value.toEntries
    | none => .error .keyAbsent
  | _ => .error .wrongKind

/-- A whole number in a section. -/
def wholeIn (entries : List (Atom × Value)) (key : String) (default : Int) : Except Fault Int :=
  match Value.lookup entries key with
  | some value => value.toInteger
  | none => .ok default

/-- A truth value in a section. -/
def truthIn (entries : List (Atom × Value)) (key : String) (default : Bool) : Bool :=
  ((Value.lookup entries key).map Value.isTrue).getD default

/-- How long a configured run waits for an improvement. -/
def patienceIn (entries : List (Atom × Value)) : Except Fault (Option Int) :=
  match Value.lookup entries "early_stopping_patience" with
  | some (.atom .null) | none => .ok none
  | some value => value.toInteger.map some

/-- The training run that a section describes. -/
def planIn (entries : List (Atom × Value)) (seed : Int) : Except Fault RunPlan := do
  let epochs ← wholeIn entries "epochs" 1
  let batchSize ← wholeIn entries "batch_size" 1
  let shuffle := truthIn entries "shuffle" true
  let patience ← patienceIn entries
  return { epochs, seed, batchSize, shuffle, determinism := true, patience }

/-- What is shown on the console before the training starts. -/
def summary (dataset : String) (net : Network Double Single) (instances : Nat) : String :=
  String.join <| [
    "=== LayeredNet run ===",
    s!"Dataset       : {dataset} ({instances} instances)",
    s!"Layer sizes   : {Text.bracketed net.sizes}",
    s!"Activations   : {Text.quotedList (net.activations.map Activation.name)}",
    s!"Cost          : {net.cost.name}",
    s!"Learning style: {net.style.name}",
    "======================"].map (· ++ "\n")

/-- What is ready before anything is written. -/
structure Prepared where
  dataset : String
  instances : List (Instance Double)
  network : Network Double Single
  seed : Int
  directory : String
  train : List (Atom × Value)

/-- Everything that happens before anything is written. -/
def prepare (config : Value) : Except Fault Prepared := do
  let data ← sectionOf config "data"
  let model ← sectionOf config "model"
  let train ← sectionOf config "train"
  let seed ← wholeIn train "seed" 0
  let some name := Value.lookup data "name" | throw .keyAbsent
  let options ← (Value.lookup data "options").getD (.mapping []) |>.toEntries
  let instances ← Dataset.get Dataset.registry name.shown options
  let network ← Network.configured (.mapping model) (some seed)
  let directory ← Path.check (← Network.nameIn train "run_dir" ("runs/" ++ name.shown))
  return ⟨name.shown, instances, network, seed, Path.plain directory, train⟩

/-- The files of a run in the order in which they are begun. -/
def files (directory : String) (log : RunLog) (model : Option (List UInt8)) :
    List (String × Content) :=
  [(Path.file directory "metrics.jsonl", .text log.records.text),
    (Path.file directory "metrics.csv", .text log.table.text)] ++
  (model.map fun bytes => (Path.file directory "last.model", Content.bytes bytes)).toList

/-- What a run has written over the files that were there, given its log and its model file if it
came to that. -/
def written (there : List (String × Content)) (p : Prepared) (log : RunLog)
    (model : Option (List UInt8)) : Written where
  console := summary p.dataset p.network p.instances.length
  files := (files p.directory log model).foldl
    (fun all file => Registry.put file.1 file.2 all) there

/-- Trains a network that is ready. -/
def execute (there : List (String × Content)) (p : Prepared) : Written × Except Fault RunReport :=
  let sizes : List Value := p.network.sizes.map fun (size : Nat) => .integer size
  let log : RunLog := ⟨.empty (.integer p.seed) (.list sizes), .empty,
    .empty (truthIn p.train "enable_plots" false)⟩
  match planIn p.train p.seed with
  | .error fault => (written there p log none, .error fault)
  | .ok plan =>
    let session : Session Double Single RunLog := ⟨p.network, 0, log⟩
    match Session.runSaving plan RunLog.listeners p.instances (session, none) with
    | .error fault (session, model) => (written there p session.log model, .error fault)
    | .ok summary (session, model) => (written there p session.log model, .ok {
        steps := summary.steps
        loss := summary.loss
        recordsPath := Path.file p.directory "metrics.jsonl"
        modelPath := Path.file p.directory "last.model" })

/-- Carries out the run that a configuration describes where some files are already. -/
def runOver (there : List (String × Content)) (config : Value) : Written × Except Fault RunReport :=
  match prepare config with
  | .error fault => (⟨"", there⟩, .error fault)
  | .ok prepared => execute there prepared

/-- Carries out the run that a configuration describes where there are no files. -/
def run (config : Value) : Written × Except Fault RunReport := runOver [] config

end ConfiguredRun

end FeedForward
