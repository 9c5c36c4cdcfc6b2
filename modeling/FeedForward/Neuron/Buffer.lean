import FeedForward.Fault

/-!
# Update buffers

A neuron hands over its weight updates through a buffer of fixed size. Values go into
the slots one after the other, and the buffer is handed over only when every slot has
been filled.
-/

namespace FeedForward

/-- Room for `capacity` weight updates, of which the first ones have been pushed. -/
structure UpdateBuffer (α : Type) where
  capacity : Nat
  pushed : Array α

namespace UpdateBuffer

variable {α : Type}

/-- A buffer of empty slots. -/
def empty (capacity : Nat) : UpdateBuffer α := ⟨capacity, #[]⟩

/-- The number of slots that hold a pushed value. -/
def filled (b : UpdateBuffer α) : Nat := b.pushed.size

/-- What every slot holds: the pushed values, then zeros. -/
def slots [Zero α] (b : UpdateBuffer α) : List α :=
  b.pushed.toList ++ .replicate (b.capacity - b.filled) 0

/-- The buffer with one more value, unless all slots are filled. -/
def push? (b : UpdateBuffer α) (x : α) : Option (UpdateBuffer α) :=
  if b.filled < b.capacity then some { b with pushed := b.pushed.push x } else none

/-- The values in the slots once all are filled. -/
def full? (b : UpdateBuffer α) : Option (List α) :=
  if b.filled = b.capacity then some b.pushed.toList else none

end UpdateBuffer

end FeedForward
