import FeedForward.Config.Value
import FeedForward.Registry
import FeedForward.Step

/-!
# Metrics

The metrics of an epoch are named values in order, each name once. Only numbers and truth
values are recorded, as numbers; all else is passed over.
-/

namespace FeedForward

/-- The named values of an epoch. -/
abbrev Metrics := List (String × Value)

namespace Metrics

/-- Pairs as metrics. A name that is given twice keeps its first place and its last value. -/
def ofPairs (pairs : List (String × Value)) : Metrics :=
  pairs.foldl (fun metrics pair => Registry.put pair.1 pair.2 metrics) []

/-- Whether a value is recorded. -/
def isRecorded : Value → Bool
  | .atom (.bool _) | .atom (.integer _) | .atom (.number _) => true
  | _ => false

/-- A record with the recorded values put into it. -/
def recordIn (record : List (Atom × Value)) : Metrics → Except Fault (List (Atom × Value))
  | [] => .ok record
  | (name, value) :: rest =>
    if isRecorded value then
      match value.toNumber with
      | .ok x => recordIn (Value.put (.text name) (.number x) record) rest
      | .error fault => .error fault
    else recordIn record rest

/-- The metrics that consist of the loss. -/
def ofLoss (loss : Double) : Metrics := [("loss", .number loss)]

end Metrics

end FeedForward
