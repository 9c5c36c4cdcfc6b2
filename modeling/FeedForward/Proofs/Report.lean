import FeedForward.Proofs.Config.Json
import FeedForward.Proofs.Session.Listeners
import FeedForward.Run

/-!
# Reports on epochs

The listeners of a configured run take notes: the record log gets a line for every epoch, the metric
table gets a row and in front of the first row a header, and the curve gets a point if it is wanted.
Behind a number of epochs the texts of log and table hold one record and one row for each of them,
in order, and nothing else.
-/

namespace FeedForward

/-! ## One epoch -/

/-- What the record log says about an epoch. -/
def RecordLog.record (seed layerSizes : Value) (epoch : Int) (loss : Double) : Value :=
  .mapping [(.text "epoch", .integer epoch), (.text "seed", seed),
    (.text "layer_sizes", layerSizes), (.text "loss", .number loss)]

/-- The line of an epoch in the record log. -/
def RecordLog.recordLine (seed layerSizes : Value) (report : Nat × Double) : String :=
  Json.write (record seed layerSizes report.1 report.2) ++ "\n"

theorem RecordLog.add_run (epoch : Nat) (loss : Double) (log : RecordLog) :
    RecordLog.add epoch (Metrics.ofLoss loss) log =
      .ok () { log with text := log.text ++ recordLine log.seed log.layerSizes (epoch, loss) } := by
  rw [recordLine, ← String.append_assoc]
  rfl

/-- The text of a record log is cut at its line feeds into one record for each epoch, in order, and
nothing behind the last line feed. -/
theorem RecordLog.splitOn_recordLines (seed layerSizes : Value) (reports : List (Nat × Double)) :
    (String.join (reports.map (recordLine seed layerSizes))).toList.splitOn '\n' =
      reports.map (fun report => (Json.write (record seed layerSizes report.1 report.2)).toList) ++
        [[]] := by
  rw [String.toList_join]
  induction reports with
  | nil => rfl
  | cons report reports ih =>
      have hline : (recordLine seed layerSizes report).toList =
          (Json.write (record seed layerSizes report.1 report.2)).toList ++ ['\n'] :=
        String.toList_append
      have hone : ∀ c ∈ (Json.write (record seed layerSizes report.1 report.2)).toList,
          (c == '\n') = false := fun c hc => beq_false_of_ne fun hsame =>
        Json.OneLine.write (record seed layerSizes report.1 report.2) (hsame ▸ hc)
      rw [List.map_cons, List.flatMap_cons, hline, List.append_assoc, List.singleton_append,
        List.splitOn, List.splitOnP_append_cons_of_forall_mem hone _ rfl, List.map_cons,
        List.cons_append]
      exact congrArg _ ih

/-- The row of an epoch in the metric table. -/
def MetricTable.row (report : Nat × Double) : String :=
  toString (report.1 : Int) ++ "," ++ Decimal.message report.2 ++ "\r\n"

/-- The header of a metric table of losses. -/
def MetricTable.header : String := "epoch,loss\r\n"

/-- A plain cell needs no quotes. -/
theorem MetricTable.cell_of_plain {s : String} (hs : Decimal.Plain s) : cell s = s := by
  refine if_neg fun hquotes => ?_
  obtain ⟨c, hc, hneeds⟩ := List.any_eq_true.mp hquotes
  have hplain := hs c hc
  simp only [needsQuotes, Bool.or_eq_true, decide_eq_true_eq] at hneeds
  rcases hneeds with ((rfl | rfl) | rfl) | rfl <;> exact absurd hplain (by decide)

theorem MetricTable.line_row (report : Nat × Double) :
    line [toString (report.1 : Int), Decimal.message report.2] = row report := by
  rw [line, row, List.map_cons, List.map_cons, List.map_nil, cell_of_plain (.int _),
    cell_of_plain (.message _)]
  simp [String.append_assoc]

theorem MetricTable.add_run (epoch : Nat) (loss : Double) (table : MetricTable) :
    MetricTable.add epoch (Metrics.ofLoss loss) table =
      .ok () ⟨table.text ++ (if table.text.isEmpty then header else "") ++ row (epoch, loss)⟩ := by
  have hrecord : Metrics.recordIn [(.text "epoch", .integer epoch)] (Metrics.ofLoss loss) =
      .ok [(.text "epoch", .integer epoch), (.text "loss", .number loss)] := rfl
  have hordered : ordered [(.text "epoch", .integer epoch), (.text "loss", .number loss)] =
      [("epoch", toString (epoch : Int)), ("loss", Decimal.message loss)] := by
    simp [ordered, Value.shown, Value.inspect, Atom.inspect, Value.integer, Value.number,
      List.mergeSort]
  have hheader : line ["epoch", "loss"] = header := by decide
  have hrow := line_row (epoch, loss)
  simp only [MetricTable.add, Step.bind_run, Step.lift_run, hrecord, hordered, List.map_cons,
    List.map_nil, hheader, hrow, Step.modify_run]

/-- A curve with the point of an epoch, if it is wanted. -/
def Curve.extended (curve : Curve Int) (epoch : Nat) (loss : Double) : Curve Int :=
  if curve.wanted then { curve with points := ((epoch : Int), loss) :: curve.points } else curve

theorem Curve.add_run (epoch : Nat) (loss : Double) (curve : Curve Int) :
    Curve.add (epoch : Int) (Metrics.ofLoss loss) curve = .ok () (curve.extended epoch loss) := by
  rw [Curve.add, Step.bind_run, Step.get_run, extended]
  dsimp only
  split <;> rfl

/-! ## A run -/

namespace RunLog

open Session (Attentive TakeNotes notesOn)

/-- The notes of a configured run on an epoch. -/
def note (epoch : Nat) (loss : Double) (log : RunLog) : RunLog where
  records := { log.records with
    text := log.records.text ++
      RecordLog.recordLine log.records.seed log.records.layerSizes (epoch, loss) }
  table := ⟨log.table.text ++ (if log.table.text.isEmpty then MetricTable.header else "") ++
    MetricTable.row (epoch, loss)⟩
  curve := log.curve.extended epoch loss

section

variable {σ : Type} {part : RunLog → σ} {put : σ → RunLog → RunLog}
  {add : Int → Metrics → Step σ Unit} {epoch : Nat} {loss : Double} {log : RunLog} {next : σ}

/-- What a listener adds to its part is put in place of the part. -/
theorem hears_listener (hadd : add epoch (Metrics.ofLoss loss) (part log) = .ok () next) :
    (listener part put add).Hears epoch loss log (.ok () (put next log)) :=
  .hook rfl (congrArg (Step.mapState fun state => put state log) hadd)

theorem notifyAll_listener (hadd : add epoch (Metrics.ofLoss loss) (part log) = .ok () next)
    (rest : List (Listener Double RunLog)) :
    Listener.notifyAll (listener part put add :: rest) epoch loss log =
      Listener.notifyAll rest epoch loss (put next log) := by
  rw [Listener.notifyAll, Step.bind_run, Listener.hears_iff.mp (hears_listener hadd)]

end

theorem takeNotes_listeners : TakeNotes listeners note := by
  intro epoch loss log
  rw [listeners, notifyAll_listener (RecordLog.add_run epoch loss _),
    notifyAll_listener (MetricTable.add_run epoch loss _),
    notifyAll_listener (Curve.add_run epoch loss _)]
  rfl

theorem attentive_listeners : ∀ listener ∈ listeners, Attentive listener := by
  refine List.forall_mem_cons.mpr ⟨fun epoch loss log => ?records,
    List.forall_mem_cons.mpr ⟨fun epoch loss log => ?table,
      List.forall_mem_singleton.mpr fun epoch loss log => ?curve⟩⟩
  case records => exact ⟨_, hears_listener (RecordLog.add_run epoch loss log.records)⟩
  case table => exact ⟨_, hears_listener (MetricTable.add_run epoch loss log.table)⟩
  case curve => exact ⟨_, hears_listener (Curve.add_run epoch loss log.curve)⟩

theorem notesOn_reverse (log : RunLog) (reports : List (Nat × Double)) :
    notesOn note log reports.reverse =
      reports.foldl (fun log report => note report.1 report.2 log) log :=
  List.foldr_reverse

/-- The record log has a line for every epoch. -/
theorem records_notesOn (log : RunLog) (reports : List (Nat × Double)) :
    (notesOn note log reports.reverse).records = { log.records with
      text := log.records.text ++ String.join
        (reports.map (RecordLog.recordLine log.records.seed log.records.layerSizes)) } := by
  rw [notesOn_reverse]
  induction reports generalizing log with
  | nil => simp
  | cons report reports ih =>
      rw [List.foldl_cons, ih, List.map_cons, String.join_cons, ← String.append_assoc]
      rfl

/-- A metric table with rows gets a row for every epoch. -/
theorem table_notesOn_of_nonempty {log : RunLog} (hrows : log.table.text ≠ "")
    (reports : List (Nat × Double)) :
    (notesOn note log reports.reverse).table.text =
      log.table.text ++ String.join (reports.map MetricTable.row) := by
  rw [notesOn_reverse]
  induction reports generalizing log with
  | nil => simp
  | cons report reports ih =>
      have hnext : (note report.1 report.2 log).table.text =
          log.table.text ++ MetricTable.row report := by
        simp [note, hrows]
      have hmore : (note report.1 report.2 log).table.text ≠ "" := by
        rw [hnext]
        simp [hrows]
      rw [List.foldl_cons, ih hmore, hnext, List.map_cons, String.join_cons, String.append_assoc]

/-- A metric table without rows stays empty, or gets a header and a row for every epoch. -/
theorem table_notesOn (log : RunLog) (hnone : log.table = .empty)
    (reports : List (Nat × Double)) :
    (notesOn note log reports.reverse).table.text = if reports.isEmpty then "" else
      MetricTable.header ++ String.join (reports.map MetricTable.row) := by
  cases reports with
  | nil => rw [List.reverse_nil, notesOn, List.foldr_nil, hnone]; rfl
  | cons report reports =>
      have hfirst : (note report.1 report.2 log).table.text =
          MetricTable.header ++ MetricTable.row report := by
        simp [note, hnone, MetricTable.empty]
      have hrows : (note report.1 report.2 log).table.text ≠ "" := by
        rw [hfirst]
        simp [MetricTable.header]
      have hrest := table_notesOn_of_nonempty hrows reports
      rw [notesOn_reverse] at hrest ⊢
      rw [List.foldl_cons, hrest, hfirst, List.map_cons, String.join_cons, String.append_assoc]
      rfl

end RunLog

end FeedForward
