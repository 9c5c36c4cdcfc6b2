import FeedForward.Bytes.Word
import FeedForward.Fault

/-!
# Reading bytes

Reading takes bytes from the front and leaves the rest. Asking for more bytes than there
are is a fault that names both numbers, or only the size where no read can have it.
-/

namespace FeedForward

/-- Reads something from the front of some bytes and leaves the rest. -/
abbrev Input := StateT (List UInt8) (Except Fault)

namespace Input

variable {γ : Type}

/-- The size from which on there are never enough bytes, and no read is tried. -/
def sizeLimit : Nat := 1 <<< 63

/-- As many bytes as asked for. -/
def exactly (size : Nat) : Input (List UInt8) := fun bytes =>
  let taken := bytes.take size
  if taken.length = size then .ok (taken, bytes.drop size)
  else if sizeLimit ≤ size then .error (.unreadableSize size)
  else .error (.truncated size taken.length)

/-- A word of some bytes. -/
def word (size : Nat) : Input Nat := return Word.value (← exactly size)

/-- A signed number in four bytes. -/
def int : Input Int := return Word.toSigned (← word 4)

/-- The number of things that follow. -/
def count (what : String) : Input Nat := do
  let n ← int
  if n < 0 then throw (.negativeCount what n)
  return n.toNat

/-- A text behind its length in bytes. -/
def text : Input String := do
  let bytes ← exactly (← count "string byte")
  match String.fromUTF8? ⟨bytes.toArray⟩ with
  | some s => return s
  | none => throw .malformedText

/-- As many things as asked for, one after the other. -/
def times (item : Input γ) : Nat → Input (List γ)
  | 0 => return []
  | n + 1 => do
    let x ← item
    return x :: (← times item n)

/-- A list behind its length. -/
def list (what : String) (item : Input γ) : Input (List γ) := do
  times item (← count what)

end Input

end FeedForward
