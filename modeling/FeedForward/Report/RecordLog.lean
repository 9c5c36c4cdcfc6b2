import FeedForward.Config.Json
import FeedForward.Report.Metrics

/-!
# Record logs

A record log has one JSON record per epoch and line: the epoch, the seed and the layer sizes
of the run, and the metrics of the epoch. A metric of the same name takes the place of one
of the first three.
-/

namespace FeedForward

/-- The text of a record log, and what all its records share. -/
structure RecordLog where
  seed : Value
  layerSizes : Value
  text : String

namespace RecordLog

/-- A log without records. -/
def empty (seed layerSizes : Value) : RecordLog := ⟨seed, layerSizes, ""⟩

/-- What a record starts with. -/
def head (log : RecordLog) (epoch : Int) : List (Atom × Value) :=
  [(.text "epoch", .integer epoch), (.text "seed", log.seed),
    (.text "layer_sizes", log.layerSizes)]

/-- Adds the record of an epoch. -/
def add (epoch : Int) (metrics : Metrics) : Step RecordLog Unit := do
  let log ← get
  let record ← Metrics.recordIn (log.head epoch) metrics
  set { log with text := log.text ++ Json.write (.mapping record) ++ "\n" }

end RecordLog

end FeedForward
