import FeedForward.Bytes.Word
import FeedForward.Fault

/-!
# Written bytes

Writing goes on until everything is written or a fault stops it; what was written before
the fault is there. Parts are joined in order, and nothing follows a part that stopped.
-/

namespace FeedForward

/-- The bytes written and the fault that stopped the writing, if any. -/
structure Output where
  bytes : List UInt8
  cut : Option Fault

namespace Output

/-- Bytes that are written whole. -/
def ofBytes (bytes : List UInt8) : Output := ⟨bytes, none⟩

/-- A fault before anything is written. -/
def fail (fault : Fault) : Output := ⟨[], some fault⟩

/-- Parts written one after the other. -/
def join : List Output → Output
  | [] => ofBytes []
  | ⟨bytes, some fault⟩ :: _ => ⟨bytes, some fault⟩
  | ⟨bytes, none⟩ :: rest => ⟨bytes ++ (join rest).bytes, (join rest).cut⟩

/-- A signed number in four bytes, if they can hold it. -/
def int (n : Int) : Output :=
  if -2147483648 ≤ n ∧ n < 2147483648 then ofBytes (Word.bytes 4 (Word.ofSigned n))
  else fail .tooLarge

/-- A text: its length in bytes and its bytes. -/
def text (s : String) : Output :=
  join [int s.toUTF8.size, ofBytes s.toUTF8.toList]

/-- A list: its length and its items. -/
def list {γ : Type} (item : γ → Output) (items : List γ) : Output :=
  join (int items.length :: items.map item)

/-- All bytes, unless the writing was stopped. -/
def complete (output : Output) : Except Fault (List UInt8) :=
  match output.cut with
  | none => .ok output.bytes
  | some fault => .error fault

end Output

end FeedForward
