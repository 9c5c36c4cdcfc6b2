import FeedForward.Dataset.Operand
import FeedForward.Network.Training

/-!
# Data sets

A data set is a list of instances. The built-in ones are computed from a few numbers and,
where there is noise, from a random source; all noise is drawn row by row. Arrays become
instances row by row, where a plain list of numbers counts as one column.
-/

namespace FeedForward

namespace Dataset

variable {α : Type}

/-- An array as rows: a vector becomes a single column. -/
def asRows (t : Tensor α) : Tensor α :=
  match h : t.shape with
  | [n] => ⟨[n, 1], t.data, by simp [t.size_eq, h, places]⟩
  | _ => t

/-- Rows of features paired with rows of labels. -/
def pairRows (features labels : List (Tensor α)) : Except Fault (List (Instance α)) :=
  if labels.length = features.length then
    .ok (List.zipWith (fun row label => ⟨some row, some (some label)⟩) features labels)
  else .error (.rowCounts features.length labels.length)

/-- The rows of features as instances, paired with the rows of labels if there are any. -/
def fromArrays (features : Tensor α) (labels : Option (Tensor α)) :
    Except Fault (List (Instance α)) := do
  let features := asRows features
  match labels with
  | none => return (← features.parts).map fun row => ⟨some row, none⟩
  | some labels =>
    let labels := asRows labels
    let _ ← labels.rows
    let _ ← features.rows
    pairRows (← features.parts) (← labels.parts)

/-- An instance of given numbers. -/
def instanceOf (features : List α) (label : Option (List α)) : Instance α where
  features := some (.ofList features)
  label := label.map fun xs => some (.ofList xs)

variable [Scalar α]

/-- The exclusive or of two truth values. -/
def xor : List (Instance α) :=
  [instanceOf [0, 0] (some [0]), instanceOf [0, 1] (some [1]),
    instanceOf [1, 0] (some [1]), instanceOf [1, 1] (some [0])]

/-- Evenly spaced numbers from minus one to one; a single one is minus one. -/
def evenly (count : Nat) : List α :=
  let step : α := Scalar.ofNat 2 / Scalar.ofNat (count - 1)
  (List.range count).map fun i =>
    if i + 1 = count ∧ 1 < count then 1
    else if count = 1 then -1
    else Scalar.ofNat i * step + -1

/-- Noise for all places of some rows and columns. -/
def bells (rows columns : Nat) (source : Generator) : Tensor α × Generator :=
  let drawn := source.collect Generator.bell (rows * columns)
  (⟨[rows, columns], drawn.1.toArray, by simp [drawn, places]⟩, drawn.2)

/-- Points of a curve with noise of some width. -/
def curve (points : Nat) (f : α → α) (width : α) (source : Generator) : List (Instance α) :=
  let (noise, _) := source.collect Generator.bell points
  List.zipWith (fun x e => instanceOf [x] (some [f x + width * e])) (evenly points) noise

/-- Points of a straight line with noise. -/
def linear (points : Nat) (slope intercept width : Operand α) (source : Generator) :
    Except Fault (List (Instance α)) := do
  let x := asRows (.ofList (evenly points))
  let line ← Operand.combine (· + ·) intercept (← Operand.combine (· * ·) slope x)
  let noise ← Operand.combine (· * ·) width (bells points 1 source).1
  fromArrays x (some (← Tensor.zipWith (· + ·) line noise))

/-- The unit vector at a position. -/
def unitVector (size i : Nat) : List α := (List.range size).map fun j => if j = i then 1 else 0

/-- The unit vectors in turn, again and again, without labels. -/
def oneHot (dimension repeats : Nat) : List (Instance α) :=
  (List.replicate repeats ()).flatMap fun _ =>
    (List.range dimension).map fun i => instanceOf (unitVector dimension i) none

/-- The features of clusters around given centres, row by row. -/
def clusters (spread : Operand α) (perClass dimension : Nat) :
    List (List α) → Generator → Except Fault (List (Tensor α))
  | [], _ => .ok []
  | centre :: rest, source => do
    let (noise, source) := bells perClass dimension source
    let offsets ← Operand.combine (· * ·) spread noise
    let rows ← (← Tensor.zipWith (· + ·) (.ofList centre) offsets).parts
    return rows ++ (← clusters spread perClass dimension rest source)

/-- The labels of clusters, row by row: the unit vector of the cluster. -/
def clusterLabels (perClass classes : Nat) : List (Tensor α) :=
  (List.range classes).flatMap fun i =>
    List.replicate perClass (.ofList (unitVector classes i))

/-- Centres between minus one and one. -/
def centres (classes dimension : Nat) (source : Generator) : List (List α) × Generator :=
  source.collect (Generator.collect (Generator.between (-1) 1) dimension) classes

/-- Clusters around centres that are drawn first. That a cluster has a negative number of
instances is found when its features are there. -/
def blobs (perClass : Int) (classes dimension : Nat) (spread : Operand α) (source : Generator) :
    Except Fault (List (Instance α)) := do
  let (centres, source) := centres classes dimension source
  let features ← clusters spread perClass.toNat dimension centres source
  if perClass < 0 then throw .extentRange
  pairRows features (clusterLabels perClass.toNat classes)

end Dataset

end FeedForward
