import FeedForward.Config.Value
import FeedForward.Dataset

/-!
# Data sets by name

A data set is chosen by its name and takes options; options that it does not know are
passed over. Sizes are whole numbers, and some may be truth values, which count as zero and
one. What is combined with arrays may be numbers in nested lists. Nothing is read from text.
-/

namespace FeedForward

/-- Options of a data set. -/
abbrev Options := List (Atom × Value)

namespace Options

/-- A whole number or a truth value. -/
def countOf : Value → Except Fault Int
  | .atom (.bool b) => .ok (if b then 1 else 0)
  | .atom (.integer n) => .ok n
  | _ => .error .wrongKind

/-- A whole number. -/
def sizeOf : Value → Except Fault Int
  | .atom (.integer n) => .ok n
  | _ => .error .wrongKind

/-- A number or a truth value. -/
def numberOf : Value → Except Fault Double
  | .atom (.bool b) => .ok (if b then 1 else 0)
  | .atom (.integer n) => Value.ofInteger n
  | .atom (.number x) => .ok x
  | _ => .error .wrongKind

mutual

/-- A value with its lists as nested lists. -/
def nestedOf : Value → Nested Value
  | .list items => .list (nestedItems items)
  | value => .item value

/-- The items of a list as nested lists. -/
def nestedItems : List Value → List (Nested Value)
  | [] => []
  | item :: rest => nestedOf item :: nestedItems rest

end

/-- Whether a value is a text. -/
def isText : Value → Bool
  | .atom (.text _) => true
  | _ => false

/-- Whether a value keeps lists from being of one kind: it is no number at all, or a whole
number that sixty-four bits cannot hold. -/
def isOdd : Value → Bool
  | .atom (.integer n) => n < -0x8000000000000000 || 0xffffffffffffffff < n
  | .atom .null | .atom (.moment _) | .mapping _ => true
  | _ => false

/-- What is combined with an array. Lists of texts cannot be combined with numbers at all;
texts beside what is odd are only faults of their own, and so is everything odd. -/
def operandOf : Value → Operand Double
  | .list items =>
    match (nestedOf (.list items)).toTensor? with
    | none => .error .ragged
    | some t =>
      if t.toList.any isText && !t.toList.any isOdd then .error .wrongKind
      else .ok (t.map numberOf)
  | .atom (.text _) => .error .wrongKind
  | .atom (.integer n) => (Value.ofInteger n).bind Operand.single
  | value => .ok (.fill [] (numberOf value))

/-- An option as some reading of it. -/
def read {γ : Type} (options : Options) (key : String) (reading : Value → Except Fault γ)
    (default : γ) : Except Fault γ :=
  match Value.lookup options key with
  | some value => reading value
  | none => .ok default

/-- An option that is combined with an array. -/
def operand (options : Options) (key : String) (default : Double) : Operand Double :=
  match Value.lookup options key with
  | some value => operandOf value
  | none => .single default

/-- The random source for the seed among some options. -/
def source (options : Options) : Except Fault Generator :=
  match Value.lookup options "seed" with
  | some (.atom .null) | none => Generator.ofSeed none
  | some value => do Generator.ofSeed (some (← countOf value))

/-- Options of one call over those that a data set was registered with. -/
def override (registered given : Options) : Options :=
  given.foldl (fun options entry => Value.put entry.1 entry.2 options) registered

end Options

/-- A data set that takes options. -/
abbrev DatasetFactory := Options → Except Fault (List (Instance Double))

namespace Dataset

/-- Points of a straight line. -/
def linearOf : DatasetFactory := fun options => do
  let source ← options.source
  let points ← extent (← options.read "n_points" Options.countOf 64)
  linear points (options.operand "slope" 0.5) (options.operand "intercept" (-0.2))
    (options.operand "noise" 0.01) source

/-- The ratio of a circle's circumference to its diameter. -/
def pi : Double := 3.141592653589793

/-- Points of a sine curve. -/
def sineOf : DatasetFactory := fun options => do
  let source ← options.source
  let points ← extent (← options.read "n_points" Options.countOf 64)
  let frequency ← options.read "freq" Options.numberOf 1
  return curve points (fun x => 0.5 + 0.4 * (frequency * pi * x).sin) 0.01 source

/-- Whether a value is a number equal to one. -/
def isOne (value : Value) : Bool :=
  match Options.numberOf value with
  | .ok x => x.equals 1
  | .error _ => false

/-- Whether a value is a list. -/
def isList : Value → Bool
  | .list _ => true
  | .atom _ | .mapping _ => false

/-- A value as a whole number of sixty-four bits. -/
def wordOf (value : Value) : Except Fault Int := do
  let n ← value.toInteger
  if n < -0x8000000000000000 ∨ 0x7fffffffffffffff < n then throw .tooLarge
  return n

/-- How often unit vectors are repeated. A number equal to one will do, all else is a whole
number. Of no unit vectors it does not matter how often. Otherwise what is neither a whole
number nor a truth value is refused only when it could be read as a number of repetitions. -/
def repeatsOf (dimension : Nat) (value : Value) : Except Fault Nat := do
  if isOne value then return 1
  if dimension = 0 then
    let _ ← Options.countOf value
    return 0
  match value with
  | .list items =>
    if items.any isList then throw .ragged
    let [count] ← items.mapM wordOf | throw .shapesDiffer
    let _ ← extent (count * dimension * dimension)
    throw .wrongKind
  | _ =>
    let _ ← extent ((← wordOf value) * dimension * dimension)
    return (← Options.countOf value).toNat

/-- Unit vectors. Of no unit vectors there are none, however often. -/
def oneHotOf : DatasetFactory := fun options => do
  let size ← options.read "dim" Options.sizeOf 4
  let dimension ← extent size
  let _ ← extent (size * size)
  return oneHot dimension (← options.read "repeats" (repeatsOf dimension) 1)

/-- Rows and columns to draw numbers for. One of them may be negative, and counts as none,
if the other one is positive. -/
def drawnExtents (rows columns : Int) : Except Fault (Nat × Nat) :=
  if (rows < 0 ∧ columns ≤ 0) ∨ (columns < 0 ∧ rows ≤ 0) ∨ 0x7fffffffffffffff < max rows columns
  then .error .extentRange
  else .ok (rows.toNat, columns.toNat)

/-- Clusters. There is at least one, and a cluster has no negative number of instances. -/
def blobsOf : DatasetFactory := fun options => do
  let source ← options.source
  let rows ← options.read "n_classes" Options.sizeOf 3
  let columns ← options.read "dim" Options.sizeOf 2
  let (classes, dimension) ← drawnExtents rows columns
  if classes = 0 then throw .extentRange
  let perClass ← options.read "n_per_class" Options.sizeOf 16
  let _ ← drawnExtents perClass columns
  blobs perClass classes dimension (options.operand "spread" 0.15) source

/-- The built-in data sets. -/
def registry : Registry DatasetFactory where
  role := .dataset
  fold := id
  entries := [("xor", fun _ => .ok xor), ("linear", linearOf), ("sine", sineOf),
    ("one_hot", oneHotOf), ("blobs", blobsOf)]

/-- Registers a data set under a name that is not taken. -/
def register (r : Registry DatasetFactory) (name : String) (factory : DatasetFactory) :
    Except Fault (Registry DatasetFactory) :=
  if r.contains name then .error (.datasetTaken name) else .ok (r.register name factory)

/-- Whether a key names an option: it is a text, and not the one for the data set. -/
def isOptionKey : Atom → Bool
  | .text key => key != "name"
  | _ => false

/-- The instances of the data set with a given name. -/
def get (r : Registry DatasetFactory) (name : String) (options : Options) :
    Except Fault (List (Instance Double)) := do
  if !options.all fun entry => isOptionKey entry.1 then throw .wrongKind
  (← r.get name) options

end Dataset

end FeedForward
