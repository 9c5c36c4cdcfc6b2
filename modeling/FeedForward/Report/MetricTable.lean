import FeedForward.Report.Metrics

/-!
# Metric tables

A metric table has one row per epoch, with the epoch and the metrics as cells ordered by
name. The names of the first row make the header; later rows are ordered by their own names,
whatever the header says. Cells are parted by commas, and a cell with a comma, a quote or a
line end stands in quotes with its quotes doubled. Lines end in a carriage return and a line
feed.
-/

namespace FeedForward

/-- The text of a metric table. -/
structure MetricTable where
  text : String

namespace MetricTable

/-- A table without rows. -/
def empty : MetricTable := ⟨""⟩

/-- Whether a character makes a cell stand in quotes. -/
def needsQuotes (c : Char) : Bool := c = ',' || c = '"' || c = '\r' || c = '\n'

/-- A cell as it is written. -/
def cell (s : String) : String :=
  if s.toList.any needsQuotes then
    String.ofList ('"' :: s.toList.flatMap (fun c => if c = '"' then ['"', '"'] else [c]) ++ ['"'])
  else s

/-- A line of cells. -/
def line (cells : List String) : String := ",".intercalate (cells.map cell) ++ "\r\n"

/-- The names and values of a row, ordered by name. -/
def ordered (row : List (Atom × Value)) : List (String × String) :=
  (row.map fun entry => (Value.shown (.atom entry.1), entry.2.shown)).mergeSort
    fun a b => decide (a.1 ≤ b.1)

/-- Adds the row of an epoch, behind the header if it is the first. -/
def add (epoch : Int) (metrics : Metrics) : Step MetricTable Unit := do
  let row ← Metrics.recordIn [(.text "epoch", .integer epoch)] metrics
  let cells := ordered row
  modify fun table =>
    let header := if table.text.isEmpty then line (cells.map Prod.fst) else ""
    ⟨table.text ++ header ++ line (cells.map Prod.snd)⟩

end MetricTable

end FeedForward
