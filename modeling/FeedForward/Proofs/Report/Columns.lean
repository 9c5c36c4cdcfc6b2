import FeedForward.Proofs.Report
import Mathlib.Data.List.Perm.Subperm

/-!
# The columns of metric tables

A metric table is read back row by row, with quotes undone. The first row has the names of the first
epoch's cells, and behind it every epoch has its row, in which the cells stand in the order of the
epoch's own names. So a row is read rightly under the header if its names are the first names of the
header, and only then. What numbers their texts stand for is not said here.
-/

namespace FeedForward

/-! ## Reading tables -/

namespace MetricTable

/-- Where a reader is: in front of a cell, in it, between its quotes, or behind a quote that may
close it. -/
inductive Reading where
  | start
  | plain
  | quoted
  | closing
  deriving DecidableEq, Repr

/-- The rows that are read from some place on, given the characters of the cell and the cells of the
row so far, the last first. -/
def rowsFrom (reading : Reading) (cell : List Char) (row : List String) :
    List Char → List (List String)
  | [] => if reading = .start ∧ row = [] then [] else [(String.ofList cell.reverse :: row).reverse]
  | c :: rest =>
    if reading = .quoted then
      if c = '"' then rowsFrom .closing cell row rest else rowsFrom .quoted (c :: cell) row rest
    else if c = '"' then rowsFrom .quoted (if reading = .start then cell else c :: cell) row rest
    else if c = ',' then rowsFrom .start [] (String.ofList cell.reverse :: row) rest
    else if c = '\n' then
      (String.ofList cell.reverse :: row).reverse :: rowsFrom .start [] [] rest
    else if c = '\r' then rowsFrom reading cell row rest
    else rowsFrom .plain (c :: cell) row rest

/-- The rows of a table. -/
def read (text : String) : List (List String) := rowsFrom .start [] [] text.toList

section

variable {row : List String} {tail : List Char} {next : List Char → List (List String)}
  (htail : ∀ reading cell, reading ≠ .quoted → rowsFrom reading cell row tail = next cell)

include htail

theorem rowsFrom_plain {cs : List Char} (hcs : ∀ c ∈ cs, needsQuotes c = false) {reading : Reading}
    (hreading : reading ≠ .quoted) (cell : List Char) :
    rowsFrom reading cell row (cs ++ tail) = next (cs.reverse ++ cell) := by
  induction cs generalizing reading cell with
  | nil => exact htail reading cell hreading
  | cons c cs ih =>
      obtain ⟨hc, hrest⟩ := List.forall_mem_cons.mp hcs
      simp only [needsQuotes, Bool.or_eq_false_iff, decide_eq_false_iff_not] at hc
      obtain ⟨⟨⟨hcomma, hquote⟩, hreturn⟩, hfeed⟩ := hc
      rw [List.cons_append, rowsFrom, if_neg hreading, if_neg hquote, if_neg hcomma, if_neg hfeed,
        if_neg hreturn, ih hrest (by decide), List.reverse_cons, List.append_assoc,
        List.singleton_append]

/-- Between quotes every quote is doubled. -/
theorem rowsFrom_quoted (cs cell : List Char) :
    rowsFrom .quoted cell row
      (cs.flatMap (fun c => if c = '"' then ['"', '"'] else [c]) ++ '"' :: tail) =
      next (cs.reverse ++ cell) := by
  induction cs generalizing cell with
  | nil =>
      rw [List.flatMap_nil, List.nil_append, rowsFrom, if_pos rfl, if_pos rfl]
      exact htail .closing cell nofun
  | cons c cs ih =>
      rw [List.flatMap_cons, List.reverse_cons, List.append_assoc, List.append_assoc,
        List.singleton_append, ← ih]
      by_cases hquote : c = '"'
      · subst hquote
        rw [if_pos rfl, List.cons_append, List.cons_append, List.nil_append, rowsFrom, if_pos rfl,
          if_pos rfl, rowsFrom, if_neg (by decide), if_pos rfl, if_neg (by decide)]
      · rw [if_neg hquote, List.cons_append, List.nil_append, rowsFrom, if_pos rfl, if_neg hquote]

/-- What is written for a cell is read as the cell. -/
theorem rowsFrom_cell (s : String) :
    rowsFrom .start [] row ((cell s).toList ++ tail) = next s.toList.reverse := by
  rw [cell]
  split
  next =>
    rw [String.toList_ofList, List.append_assoc, List.singleton_append, List.cons_append, rowsFrom,
      if_neg (by decide), if_pos rfl, if_pos rfl, rowsFrom_quoted htail, List.append_nil]
  next hplain =>
    have hcs : ∀ c ∈ s.toList, needsQuotes c = false := by
      simpa only [List.any_eq_true, not_exists, not_and, Bool.not_eq_true] using hplain
    rw [rowsFrom_plain htail hcs (by decide), List.append_nil]

end

theorem rowsFrom_comma (row : List String) (rest : List Char) (reading : Reading)
    (cell : List Char) (hreading : reading ≠ .quoted) :
    rowsFrom reading cell row (',' :: rest) =
      rowsFrom .start [] (String.ofList cell.reverse :: row) rest := by
  rw [rowsFrom, if_neg hreading, if_neg (by decide), if_pos rfl]

theorem rowsFrom_lineEnd (row : List String) (rest : List Char) (reading : Reading)
    (cell : List Char) (hreading : reading ≠ .quoted) :
    rowsFrom reading cell row ('\r' :: '\n' :: rest) =
      (String.ofList cell.reverse :: row).reverse :: rowsFrom .start [] [] rest := by
  rw [rowsFrom, if_neg hreading, if_neg (by decide), if_neg (by decide), if_neg (by decide),
    if_pos rfl, rowsFrom, if_neg hreading, if_neg (by decide), if_neg (by decide), if_pos rfl]

/-- What is written for a line is read as its cells. -/
theorem rowsFrom_line (first : String) (cells : List String) (row : List String)
    (rest : List Char) :
    rowsFrom .start [] row ((line (first :: cells)).toList ++ rest) =
      (row.reverse ++ first :: cells) :: rowsFrom .start [] [] rest := by
  induction cells generalizing first row with
  | nil =>
      have hline : (line [first]).toList ++ rest =
          (cell first).toList ++ '\r' :: '\n' :: rest := by
        simp [line]
      rw [hline, rowsFrom_cell (rowsFrom_lineEnd row rest), List.reverse_reverse,
        String.ofList_toList, List.reverse_cons]
  | cons second cells ih =>
      have hline : (line (first :: second :: cells)).toList ++ rest =
          (cell first).toList ++ ',' :: ((line (second :: cells)).toList ++ rest) := by
        simp [line, String.intercalate_cons_cons]
      rw [hline, rowsFrom_cell (rowsFrom_comma row _), List.reverse_reverse, String.ofList_toList,
        ih, List.reverse_cons, List.append_assoc, List.singleton_append]

/-- Lines are read one after the other. -/
theorem read_lines {lines : List (List String)} (hlines : ∀ cells ∈ lines, cells ≠ []) :
    read (String.join (lines.map line)) = lines := by
  rw [read, String.toList_join]
  induction lines with
  | nil => rfl
  | cons cells lines ih =>
      obtain ⟨hcells, hrest⟩ := List.forall_mem_cons.mp hlines
      obtain ⟨first, others, rfl⟩ := List.exists_cons_of_ne_nil hcells
      rw [List.map_cons, List.flatMap_cons, rowsFrom_line, ih hrest, List.reverse_nil,
        List.nil_append]

end MetricTable

/-! ## What a table is told -/

namespace Value

/-- An entry under a new key comes last. -/
theorem put_of_new {key : Atom} {entries : List (Atom × Value)}
    (hnew : ∀ entry ∈ entries, entry.1.sameKey key = false) (value : Value) :
    put key value entries = entries ++ [(key, value)] := by
  induction entries with
  | nil => rfl
  | cons entry entries ih =>
      obtain ⟨hentry, hrest⟩ := List.forall_mem_cons.mp hnew
      rw [put, if_neg (by rw [hentry]; exact Bool.false_ne_true), ih hrest, List.cons_append]

end Value

/-- What a table is told of an epoch: its number, and the metrics with their values. -/
structure Report where
  epoch : Int
  values : List (String × Double)

namespace Report

/-- The metrics of an epoch. -/
def metrics (report : Report) : Metrics :=
  report.values.map fun metric => (metric.1, .number metric.2)

/-- Every metric has a name of its own, which is not that of the epoch. -/
def Named (report : Report) : Prop := ("epoch" :: report.values.map Prod.fst).Nodup

instance (report : Report) : Decidable report.Named := inferInstanceAs (Decidable (List.Nodup _))

/-- What there is to write of an epoch, each text with its name. -/
def cells (report : Report) : List (String × String) :=
  ("epoch", toString report.epoch) ::
    report.values.map fun metric => (metric.1, Decimal.message metric.2)

/-- What there is to write in the order of the names. -/
def columns (report : Report) : List (String × String) :=
  report.cells.mergeSort fun a b => decide (a.1 ≤ b.1)

/-- The names of an epoch in their order. -/
def names (report : Report) : List String := report.columns.map Prod.fst

/-- The texts of an epoch in the order of their names. -/
def texts (report : Report) : List String := report.columns.map Prod.snd

/-- Tells a table of some epochs, one after the other. -/
def tabulate : List Report → Step MetricTable Unit
  | [] => return ()
  | report :: rest => do
    MetricTable.add report.epoch report.metrics
    tabulate rest

theorem perm_columns (report : Report) : report.columns.Perm report.cells :=
  List.mergeSort_perm _ _

theorem names_ne_nil (report : Report) : report.names ≠ [] := by
  intro hnil
  have hlength := report.perm_columns.length_eq
  rw [names, List.map_eq_nil_iff] at hnil
  rw [hnil] at hlength
  cases hlength

theorem length_texts (report : Report) : report.texts.length = report.names.length := by
  rw [texts, names, List.length_map, List.length_map]

theorem texts_ne_nil (report : Report) : report.texts ≠ [] := by
  rw [← List.length_pos_iff, length_texts, List.length_pos_iff]
  exact report.names_ne_nil

/-- The metrics of an epoch are recorded behind what is recorded already. -/
theorem recordIn_values {record : List (Atom × Value)} {values : List (String × Double)}
    (hnew : ∀ metric ∈ values, ∀ entry ∈ record, entry.1.sameKey (.text metric.1) = false)
    (hnodup : (values.map Prod.fst).Nodup) :
    Metrics.recordIn record (values.map fun metric => (metric.1, .number metric.2)) =
      .ok (record ++ values.map fun metric => (.text metric.1, .number metric.2)) := by
  induction values generalizing record with
  | nil => rw [List.map_nil, List.map_nil, List.append_nil, Metrics.recordIn]
  | cons metric values ih =>
      obtain ⟨hmetric, hrest⟩ := List.forall_mem_cons.mp hnew
      obtain ⟨hother, hothers⟩ := List.nodup_cons.mp hnodup
      have hnext : ∀ other ∈ values, ∀ entry ∈ record ++ [(.text metric.1, .number metric.2)],
          entry.1.sameKey (.text other.1) = false := by
        intro other hmem entry hentry
        rcases List.mem_append.mp hentry with hold | hlast
        · exact hrest other hmem entry hold
        · obtain rfl := List.mem_singleton.mp hlast
          refine beq_false_of_ne fun hsame => hother ?_
          exact hsame ▸ List.mem_map_of_mem hmem
      change Metrics.recordIn (Value.put (.text metric.1) (.number metric.2) record) _ = _
      rw [Value.put_of_new hmetric, ih hnext hothers, List.map_cons, List.append_assoc,
        List.singleton_append]

theorem recordIn_metrics {report : Report} (hnamed : report.Named) :
    Metrics.recordIn [(.text "epoch", .integer report.epoch)] report.metrics =
      .ok ((.text "epoch", .integer report.epoch) ::
        report.values.map fun metric => (.text metric.1, .number metric.2)) := by
  obtain ⟨hepoch, hnodup⟩ := List.nodup_cons.mp hnamed
  refine recordIn_values (fun metric hmetric entry hentry => ?_) hnodup
  obtain rfl := List.mem_singleton.mp hentry
  refine beq_false_of_ne fun hsame => hepoch ?_
  exact hsame ▸ List.mem_map_of_mem hmetric

/-- A table gets the row of an epoch, behind a header if it has none. -/
theorem add_run {report : Report} (hnamed : report.Named) (table : MetricTable) :
    MetricTable.add report.epoch report.metrics table = .ok ()
      ⟨table.text ++ (if table.text.isEmpty then MetricTable.line report.names else "") ++
        MetricTable.line report.texts⟩ := by
  have hordered : MetricTable.ordered ((.text "epoch", .integer report.epoch) ::
      report.values.map fun metric => (.text metric.1, .number metric.2)) = report.columns := by
    simp only [MetricTable.ordered, columns, cells, List.map_cons, List.map_map]
    rfl
  simp only [MetricTable.add, Step.bind_run, Step.lift_run, recordIn_metrics hnamed, hordered,
    Step.modify_run, names, texts]

theorem tabulate_run_of_nonempty {reports : List Report} (hnamed : ∀ r ∈ reports, r.Named)
    {text : String} (htext : text ≠ "") :
    tabulate reports ⟨text⟩ = .ok ()
      ⟨text ++ String.join (reports.map fun r => MetricTable.line r.texts)⟩ := by
  induction reports generalizing text with
  | nil => rw [tabulate, Step.pure_run, List.map_nil, String.join_nil, String.append_empty]
  | cons report reports ih =>
      obtain ⟨hreport, hrest⟩ := List.forall_mem_cons.mp hnamed
      have hempty : text.isEmpty = false := by simpa using htext
      have hmore : text ++ MetricTable.line report.texts ≠ "" := by simp [htext]
      rw [tabulate, Step.bind_run, add_run hreport]
      simp only [hempty, Bool.false_eq_true, if_false, String.append_empty]
      rw [ih hrest hmore, List.map_cons, String.join_cons, String.append_assoc]

/-- A new table has the names of the first epoch in front of the rows. -/
theorem tabulate_run {first : Report} {rest : List Report}
    (hnamed : ∀ r ∈ first :: rest, r.Named) :
    tabulate (first :: rest) .empty = .ok ()
      ⟨String.join ((first.names :: (first :: rest).map texts).map MetricTable.line)⟩ := by
  obtain ⟨hfirst, hrest⟩ := List.forall_mem_cons.mp hnamed
  have hheader : MetricTable.line first.names ++ MetricTable.line first.texts ≠ "" := by
    simp [MetricTable.line]
  have hadd : MetricTable.add first.epoch first.metrics .empty =
      .ok () ⟨MetricTable.line first.names ++ MetricTable.line first.texts⟩ := by
    rw [add_run hfirst]
    simp [MetricTable.empty]
  rw [tabulate, Step.bind_run, hadd]
  dsimp only
  rw [tabulate_run_of_nonempty hrest hheader]
  simp only [List.map_cons, List.map_map, String.join_cons, String.append_assoc,
    Function.comp_def]

/-! ## What stands under a name -/

/-- What stands in a row under a name of the header. -/
def under (header row : List String) (name : String) : Option String := (header.zip row).lookup name

/-- A row is read rightly under a header: every text of the epoch stands under its own name, and
nothing stands under a name that is not its own. -/
structure Aligned (header : List String) (report : Report) : Prop where
  own : ∀ cell ∈ report.cells, under header report.texts cell.1 = some cell.2
  nothing_else : ∀ cell ∈ header.zip report.texts, cell ∈ report.cells

theorem pairwise_names (report : Report) : report.names.Pairwise (· ≤ ·) := by
  have hsorted : report.columns.Pairwise fun a b => decide (a.1 ≤ b.1) = true :=
    List.pairwise_mergeSort (fun a b c hab hbc => ?trans) (fun a b => ?total) report.cells
  case trans =>
    rw [decide_eq_true_eq] at hab hbc ⊢
    exact String.le_trans hab hbc
  case total =>
    rw [Bool.or_eq_true, decide_eq_true_eq, decide_eq_true_eq]
    exact String.le_total a.1 b.1
  rw [names, List.pairwise_map]
  exact hsorted.imp fun hle => of_decide_eq_true hle

theorem perm_names (report : Report) :
    report.names.Perm ("epoch" :: report.values.map Prod.fst) := by
  have hperm := report.perm_columns.map Prod.fst
  rwa [cells, List.map_cons, List.map_map] at hperm

theorem nodup_names {report : Report} (hnamed : report.Named) : report.names.Nodup :=
  report.perm_names.nodup_iff.mpr hnamed

theorem zip_names_texts (report : Report) : report.names.zip report.texts = report.columns := by
  rw [names, texts, List.zip_map']
  exact List.map_id _

theorem lookup_of_mem {γ : Type} {entries : List (String × γ)}
    (hnodup : (entries.map Prod.fst).Nodup) {entry : String × γ} (hentry : entry ∈ entries) :
    entries.lookup entry.1 = some entry.2 := by
  obtain ⟨front, rest, rfl⟩ := List.append_of_mem hentry
  rw [List.map_append, List.map_cons, List.nodup_append] at hnodup
  refine List.lookup_eq_some_iff.mpr ⟨front, rest, rfl, fun other hother => ?_⟩
  exact bne_iff_ne.mpr fun hsame => hnodup.2.2 other.1 (List.mem_map_of_mem hother) entry.1
    List.mem_cons_self hsame.symm

/-- A row is read rightly exactly under a header that starts with its names. -/
theorem aligned_iff (first : Report) {report : Report} (hreport : report.Named) :
    Aligned first.names report ↔ report.names <+: first.names := by
  constructor
  · rintro ⟨hown, -⟩
    -- All names are among as many names of the header as the row has texts.
    let covered := first.names.take (min first.names.length report.texts.length)
    have hsubset : report.names ⊆ covered := by
      intro name hname
      obtain ⟨cell, hcell, rfl⟩ := List.mem_map.mp hname
      have hlookup := hown cell (report.perm_columns.mem_iff.mp hcell)
      obtain ⟨front, rest, hzip, -⟩ := List.lookup_eq_some_iff.mp hlookup
      have hmem : (cell.1, cell.2) ∈ first.names.zip report.texts := by
        rw [hzip]
        exact List.mem_append_right front List.mem_cons_self
      rw [List.zip_eq_zip_take_min] at hmem
      exact (List.of_mem_zip hmem).1
    have hcount : covered.length ≤ report.names.length := by
      rw [List.length_take, ← report.length_texts]
      omega
    have hperm := (List.subperm_of_subset (nodup_names hreport) hsubset).perm_of_length_le hcount
    have hprefix : covered <+: first.names := List.take_prefix _ _
    have hsame : report.names = covered :=
      hperm.eq_of_pairwise (fun _ _ _ _ => String.le_antisymm) report.pairwise_names
        (first.pairwise_names.sublist hprefix.sublist)
    exact hsame ▸ hprefix
  · rintro ⟨extra, hheader⟩
    have hzip : first.names.zip report.texts = report.columns := by
      rw [← hheader, ← List.append_nil report.texts, List.zip_append report.length_texts.symm,
        List.zip_nil_right, List.append_nil, zip_names_texts]
    constructor
    case own =>
      intro cell hcell
      rw [under, hzip]
      exact lookup_of_mem (nodup_names hreport) (report.perm_columns.mem_iff.mpr hcell)
    case nothing_else =>
      intro cell hcell
      rw [hzip] at hcell
      exact report.perm_columns.mem_iff.mp hcell

/-- Epochs with the same metrics have the same names. -/
theorem names_eq_of_perm {first report : Report}
    (hperm : (report.values.map Prod.fst).Perm (first.values.map Prod.fst)) :
    report.names = first.names := by
  have hnames : report.names.Perm first.names :=
    (report.perm_names.trans (hperm.cons "epoch")).trans first.perm_names.symm
  exact hnames.eq_of_pairwise (fun _ _ _ _ => String.le_antisymm) report.pairwise_names
    first.pairwise_names

/-- A new table that is told of some epochs is read back as one header, the names of the first
epoch, and a row for each epoch, the texts in the order of its own names. A row is read rightly
under the header exactly if its names are the first ones of the header, as they are for an epoch
with the metrics of the first one. -/
theorem read_tabulate {first : Report} {rest : List Report}
    (hnamed : ∀ report ∈ first :: rest, report.Named) :
    ∃ table, tabulate (first :: rest) .empty = .ok () table ∧
      MetricTable.read table.text = first.names :: (first :: rest).map texts ∧
      ∀ report ∈ first :: rest,
        (Aligned first.names report ↔ report.names <+: first.names) ∧
        ((report.values.map Prod.fst).Perm (first.values.map Prod.fst) →
          Aligned first.names report) := by
  refine ⟨_, tabulate_run hnamed, MetricTable.read_lines fun cells hcells => ?_,
    fun report hreport => ?_⟩
  · rcases List.mem_cons.mp hcells with rfl | hrow
    · exact first.names_ne_nil
    · obtain ⟨report, -, rfl⟩ := List.mem_map.mp hrow
      exact report.texts_ne_nil
  · have haligned := aligned_iff first (hnamed report hreport)
    exact ⟨haligned, fun hperm => haligned.mpr (names_eq_of_perm hperm ▸ List.prefix_refl _)⟩

/-- Two metrics. -/
def early : Report := ⟨1, [("a", 0.5), ("b", 0.75)]⟩

/-- The second one of them only. -/
def late : Report := ⟨2, [("b", 0.25)]⟩

theorem columns_early : early.columns = [("a", "0.5"), ("b", "0.75"), ("epoch", "1")] := by
  have hcells : early.cells = [("epoch", "1"), ("a", "0.5"), ("b", "0.75")] := by decide +kernel
  rw [columns, hcells]
  simp [List.mergeSort]

theorem columns_late : late.columns = [("b", "0.25"), ("epoch", "2")] := by
  have hcells : late.cells = [("epoch", "2"), ("b", "0.25")] := by decide +kernel
  rw [columns, hcells]
  simp [List.mergeSort]

theorem read_tabulate_early : early.Named ∧ late.Named ∧
    ∃ table, tabulate [early, late] .empty = .ok () table ∧
      MetricTable.read table.text = early.names :: [early.texts, late.texts] ∧
      Aligned early.names early ∧ ¬ Aligned early.names late := by
  have hearly : early.Named := by decide
  have hlate : late.Named := by decide
  have hnamed : ∀ report ∈ [early, late], report.Named := by simp [hearly, hlate]
  obtain ⟨table, hrun, hread, haligned⟩ := read_tabulate hnamed
  refine ⟨hearly, hlate, table, hrun, hread,
    (haligned early (by simp)).2 (.refl _), fun hwrong => ?_⟩
  have hprefix := (haligned late (by simp)).1.mp hwrong
  rw [names, names, columns_early, columns_late] at hprefix
  exact absurd hprefix (by decide)

/-- The value of the second metric stands under the first one. -/
theorem late_misread : ∃ table, tabulate [early, late] .empty = .ok () table ∧
    MetricTable.read table.text = [["a", "b", "epoch"], ["0.5", "0.75", "1"], ["0.25", "2"]] ∧
    ("b", "0.25") ∈ late.cells ∧
    under ["a", "b", "epoch"] ["0.25", "2"] "b" = some "2" ∧
    under ["a", "b", "epoch"] ["0.25", "2"] "a" = some "0.25" := by
  have hnamed : ∀ report ∈ [early, late], report.Named := by decide
  refine ⟨_, tabulate_run hnamed, ?_, ?_, by decide, by decide⟩
  · rw [MetricTable.read_lines (by simp [names_ne_nil, texts_ne_nil])]
    simp only [names, texts, List.map_cons, List.map_nil, columns_early, columns_late]
  · rw [← late.perm_columns.mem_iff, columns_late]
    exact List.mem_cons_self

end Report

end FeedForward
