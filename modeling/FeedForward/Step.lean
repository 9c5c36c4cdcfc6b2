import FeedForward.Fault

/-!
# Steps that may fail half-way

A step acts on a state and may fail; what it did to the state before failing stays.
A step on one item becomes a step on a list by choosing a position, and a step for each
position becomes one pass over the list. A position that the list does not have is a
fault of its own, found only when the pass gets there.
-/

namespace FeedForward

/-- An action on a state that may fail; what it did to the state before failing stays. -/
abbrev Step (σ : Type) := EStateM Fault σ

/-- The item at a position, or the fault that there is none. -/
def itemAt {γ : Type} (items : List γ) (i : Nat) : Except Fault γ :=
  match items[i]? with
  | some item => .ok item
  | none => .error .indexOutside

/-- The position that a whole number means among `count` items; a negative one counts
from the end. -/
def position (count : Nat) (i : Int) : Except Fault Nat :=
  let i := if i < 0 then i + count else i
  if 0 ≤ i ∧ i < count then .ok i.toNat else .error .indexOutside

namespace Step

variable {σ τ γ : Type}

/-- A result that depends on no state. -/
def ofExcept : Except Fault γ → Step σ γ
  | .ok x => pure x
  | .error fault => throw fault

instance : MonadLift (Except Fault) (EStateM Fault σ) := ⟨ofExcept⟩

/-- The result of a step under a change of state that loses nothing. -/
def mapState (put : σ → τ) : EStateM.Result Fault σ γ → EStateM.Result Fault τ γ
  | .ok x state => .ok x (put state)
  | .error fault state => .error fault (put state)

/-- The items from a position on. -/
def beyond (act : Step (List σ) γ) : Nat → Step (List σ) γ
  | 0, items => act items
  | _ + 1, [] => act []
  | i + 1, item :: rest => mapState (item :: ·) (beyond act i rest)

/-- The item at a position. -/
def onItem (act : Step σ γ) : Nat → Step (List σ) γ
  | _, [] => .error .indexOutside []
  | 0, item :: rest => mapState (· :: rest) (act item)
  | i + 1, item :: rest => mapState (item :: ·) (onItem act i rest)

/-- As many items as asked for, first to last, each with its position counted from a
start. -/
def visit (act : Nat → Step σ γ) : Nat → Nat → Step (List σ) (List γ)
  | 0, _, items => .ok [] items
  | _ + 1, _, [] => .error .indexOutside []
  | count + 1, i, item :: rest =>
    match act i item with
    | .error fault item => .error fault (item :: rest)
    | .ok x item =>
      match visit act count (i + 1) rest with
      | .error fault rest => .error fault (item :: rest)
      | .ok xs rest => .ok (x :: xs) (item :: rest)

end Step

end FeedForward
