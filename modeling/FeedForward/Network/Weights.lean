import FeedForward.Network.Topology

/-!
# Weights and updates

A weight matrix is replaced only by one of its own shape. Updates come in one list with
a matrix per boundary, as stored numbers or as scalars. Stored updates are added with
the stored numbers' own addition; scalar updates are added as scalars and the sum is
stored. Lists of updates are merged boundary by boundary. Matrices in front of one that
does not fit have been added by then, and that stays.
-/

namespace FeedForward

/-- An update of a weight matrix, in stored numbers or in scalars. -/
inductive Update (α β : Type) where
  | stored (matrix : Tensor β)
  | wide (matrix : Tensor α)

namespace Update

variable {α β : Type} [Scalar α] [Add β] [Zero β] [Precision α β]

/-- The update in scalars. -/
def widened : Update α β → Tensor α
  | stored matrix => matrix.map Precision.widen
  | wide matrix => matrix

/-- A weight matrix with an update added. -/
def addTo (weights : Tensor β) : Update α β → Except Fault (Tensor β)
  | stored matrix => Tensor.zipWith (· + ·) weights matrix
  | wide matrix => do
    let sum ← Tensor.zipWith (· + ·) (weights.map (Precision.widen (α := α))) matrix
    return sum.map Precision.narrow

/-- Two updates added. -/
def add : Update α β → Update α β → Except Fault (Update α β)
  | stored a, stored b => return stored (← Tensor.zipWith (· + ·) a b)
  | a, b => return wide (← Tensor.zipWith (· + ·) a.widened b.widened)

end Update

namespace Step

variable {σ τ : Type}

/-- Changes the items of a list one after the other, each by the partner at its place. -/
def combine (change : σ → τ → Except Fault σ) : List τ → Step (List σ) Unit
  | [], items => .ok () items
  | _ :: _, [] => .error .indexOutside []
  | partner :: partners, item :: items =>
    match change item partner with
    | .error fault => .error fault (item :: items)
    | .ok item => mapState (item :: ·) (combine change partners items)

end Step

namespace Network

variable {α β : Type} [Scalar α] [Add β] [Zero β] [Precision α β]

/-- Replaces a weight matrix by one of its own shape. -/
def setWeightMatrix (index : Int) (table : Table β) : Step (Network α β) Unit := do
  let net ← get
  match (if index < 0 then none else net.weights[index.toNat]?) with
  | none => throw (.matrixIndex index net.weights.length)
  | some current =>
    let matrix ← lineUp table
    if matrix.shape ≠ current.shape then throw (.replacementShape index current.shape)
    set { net with weights := net.weights.set index.toNat matrix }

/-- Adds one update to each weight matrix. -/
def updateWeights (updates : List (Update α β)) : Step (Network α β) Unit := do
  let net ← get
  if updates.length ≠ net.weights.length then
    throw (.updateCount net.weights.length updates.length)
  fun net => Step.mapState (fun weights => { net with weights })
    (Step.combine Update.addTo updates net.weights)

/-- Adds a list of updates to another one. -/
def mergeUpdates (source : List (Update α β)) : Step (List (Update α β)) Unit := do
  let dest ← get
  if dest.length ≠ source.length then throw (.mergeCount source.length dest.length)
  Step.combine Update.add source

end Network

end FeedForward
