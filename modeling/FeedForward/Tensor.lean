import FeedForward.Fault

/-!
# Tensors

A tensor holds numbers in row-major order under a list of extents. Tensors of
different extents combine number by number after broadcasting: extents are aligned at
the last one, and an extent of one is repeated. Nested lists line up to a tensor when
all lists at one depth have equal length and there are at most 64 depths; otherwise they
are ragged.
-/

namespace FeedForward

/-- How many numbers there are under some extents. -/
def places : List Nat → Nat
  | [] => 1
  | n :: inner => n * places inner

/-- The extent that a whole number stands for. It is not negative, and so many numbers of
eight bytes can be counted byte by byte in sixty-three bits. -/
def extent (n : Int) : Except Fault Nat :=
  if 0 ≤ n ∧ n < 0x1000000000000000 then .ok n.toNat else .error .extentRange

/-- Numbers in row-major order under some extents. -/
structure Tensor (β : Type) where
  shape : List Nat
  data : Array β
  size_eq : data.size = places shape

/-- Numbers in nested lists, as callers write them and as answers show them. -/
inductive Nested (β : Type) where
  | item (x : β)
  | list (xs : List (Nested β))
  deriving Inhabited

/-- What nested lists line up to; `none` stands for ragged lists. -/
abbrev Table (β : Type) := Option (Tensor β)

namespace Tensor

variable {α β γ : Type}

/-- The tensor with given extents and a number for each place in row-major order. -/
def ofFn (shape : List Nat) (f : Fin (places shape) → β) : Tensor β := ⟨shape, .ofFn f, by simp⟩

/-- The tensor that holds one number throughout. -/
def fill (shape : List Nat) (x : β) : Tensor β := ⟨shape, .replicate (places shape) x, by simp⟩

/-- The vector of some numbers. -/
def ofList (xs : List β) : Tensor β := ⟨[xs.length], xs.toArray, by simp [places]⟩

/-- A list of numbers under some extents, if it has the right length. -/
def ofData? (shape : List Nat) (xs : List β) : Table β :=
  if h : xs.toArray.size = places shape then some ⟨shape, xs.toArray, h⟩ else none

/-- Every number changed alike. -/
def map (f : α → β) (t : Tensor α) : Tensor β := ⟨t.shape, t.data.map f, by simp [t.size_eq]⟩

/-- The numbers in row-major order. -/
def toList (t : Tensor β) : List β := t.data.toList

/-- The first extent. -/
def rows (t : Tensor β) : Except Fault Nat :=
  match t.shape with
  | rows :: _ => .ok rows
  | [] => .error .indexOutside

/-- The second extent. -/
def columns (t : Tensor β) : Except Fault Nat :=
  match t.shape with
  | _ :: columns :: _ => .ok columns
  | _ => .error .indexOutside

/-- The two extents of a matrix. -/
def matrixShape (t : Tensor β) : Except Fault (Nat × Nat) :=
  match t.shape with
  | [rows, columns] => .ok (rows, columns)
  | _ => .error .shapesDiffer

/-- The numbers below one position of the first extent. -/
def slab (t : Tensor β) (row : Nat) : Except Fault (List β) :=
  match t.shape with
  | rows :: inner =>
    if row < rows then
      .ok (t.data.extract (row * places inner) (row * places inner + places inner)).toList
    else .error .indexOutside
  | [] => .error .indexOutside

/-- The parts below the positions of the first extent; a single number has none. -/
def parts (t : Tensor β) : Except Fault (List (Tensor β)) :=
  match h : t.shape with
  | [] => .error .wrongKind
  | rows :: inner => .ok <| (List.finRange rows).map fun (row : Fin rows) => ofFn inner fun i =>
      have bound : row.val * places inner + i.val < t.data.size := by
        have step : (row.val + 1) * places inner ≤ rows * places inner :=
          Nat.mul_le_mul_right _ row.isLt
        rw [Nat.succ_mul] at step
        rw [t.size_eq, h, places]
        omega
      t.data[row.val * places inner + i.val]

/-- One number of a matrix. Below further extents a single number still counts. -/
def entry (t : Tensor β) (row column : Nat) : Except Fault β :=
  match t.shape with
  | rows :: columns :: inner =>
    if row < rows ∧ column < columns then
      match places inner, t.data[(row * columns + column) * places inner]? with
      | 1, some x => .ok x
      | _, _ => .error .wrongKind
    else .error .indexOutside
  | _ => .error .indexOutside

/-- The matrix with some columns, all of one length. -/
def ofColumns [Zero β] (rows : Nat) (columns : List (List β)) : Tensor β :=
  let table := (columns.map List.toArray).toArray
  ofFn [rows, columns.length] fun i =>
    match table[i.val % columns.length]? with
    | some column => column.getD (i.val / columns.length) 0
    | none => 0

/-- The numbers of a vector, if the tensor is one. -/
def vector? (t : Tensor β) : Option (List β) :=
  match t.shape with
  | [_] => some t.toList
  | _ => none

/-- One extent that two aligned extents broadcast to. -/
def joinExtent (a b : Nat) : Option Nat :=
  if a = b then some a else if a = 1 then some b else if b = 1 then some a else none

/-- The extents, last one first, that two such lists of extents broadcast to. -/
def joinReversed : List Nat → List Nat → Option (List Nat)
  | [], bs => some bs
  | as, [] => some as
  | a :: as, b :: bs => do return (← joinExtent a b) :: (← joinReversed as bs)

/-- Where a place of a broadcast tensor comes from; extents are given last one first. -/
def sourceIndex : List Nat → List Nat → Nat → Nat
  | out :: outs, extent :: extents, i =>
    (if extent = 1 then 0 else i % out) + extent * sourceIndex outs extents (i / out)
  | _, _, _ => 0

/-- Two tensors combined number by number after broadcasting. -/
def zipWith [Zero α] [Zero β] (f : α → β → γ) (a : Tensor α) (b : Tensor β) :
    Except Fault (Tensor γ) :=
  if h : a.shape = b.shape then
    .ok ⟨a.shape, Array.zipWith f a.data b.data, by simp [a.size_eq, b.size_eq, h]⟩
  else
    match joinReversed a.shape.reverse b.shape.reverse with
    | none => .error .shapesDiffer
    | some shape => .ok <| ofFn shape.reverse fun i =>
        f (a.data.getD (sourceIndex shape a.shape.reverse i) 0)
          (b.data.getD (sourceIndex shape b.shape.reverse i) 0)

/-- The numbers under some extents as nested lists. -/
def nest : List Nat → List β → Nested β
  | [], x :: _ => .item x
  | [], [] => .list []
  | n :: inner, xs =>
    .list ((List.range n).map fun i => nest inner ((xs.drop (i * places inner)).take (places inner)))

/-- The numbers as nested lists. -/
def toNested (t : Tensor β) : Nested β := nest t.shape t.toList

/-- The parts below the positions of the first extent, as nested lists. -/
def rowsNested (t : Tensor β) : List (Nested β) :=
  match t.toNested with
  | .item x => [.item x]
  | .list xs => xs

end Tensor

namespace Nested

variable {β : Type}

mutual

/-- The extents and the numbers in row-major order, unless the lists are ragged. -/
def flatten? : Nested β → Option (List Nat × List β)
  | .item x => some ([], [x])
  | .list xs => flattenAll? xs

/-- The same for a list of lists. -/
def flattenAll? : List (Nested β) → Option (List Nat × List β)
  | [] => some ([0], [])
  | [x] => (flatten? x).map fun (shape, data) => (1 :: shape, data)
  | x :: y :: rest =>
    match flatten? x, flattenAll? (y :: rest) with
    | some (shape, data), some (n :: shape', data') =>
      if shape = shape' then some ((n + 1) :: shape, data ++ data') else none
    | _, _ => none

end

/-- How many extents a tensor may have. -/
def depthLimit : Nat := 64

/-- What nested lists line up to. -/
def toTensor? (nested : Nested β) : Table β :=
  nested.flatten?.bind fun (shape, data) =>
    if depthLimit < shape.length then none else Tensor.ofData? shape data

end Nested

end FeedForward
