import FeedForward.Tensor

/-!
# Operands of a caller

What a caller gives to be combined with an array may be a single number or nested lists. The
lists have to line up and to fit the array. They may hold what is no number, which is a fault
only where it is combined with a number; of several such places the first one counts.
-/

namespace FeedForward

/-- Numbers of a caller, or why they cannot be used at all. -/
abbrev Operand (α : Type) := Except Fault (Tensor (Except Fault α))

namespace Operand

variable {α : Type} [Zero α]

instance : Zero (Except Fault α) := ⟨.ok 0⟩

/-- A single number. -/
def single (x : α) : Operand α := .ok (.fill [] (.ok x))

/-- The first fault among some places. -/
def firstFault? (xs : List (Except Fault α)) : Option Fault :=
  xs.findSome? fun
    | .ok _ => none
    | .error fault => some fault

/-- The numbers at all places, unless there is a fault at one. -/
def settle (t : Tensor (Except Fault α)) : Except Fault (Tensor α) :=
  match firstFault? t.toList with
  | some fault => .error fault
  | none => .ok (t.map fun x => x.toOption.getD 0)

/-- An operand combined with an array, place by place after broadcasting. -/
def combine (f : α → α → α) (operand : Operand α) (t : Tensor α) : Except Fault (Tensor α) := do
  settle (← Tensor.zipWith (fun x y => x.map fun x => f x y) (← operand) t)

end Operand

end FeedForward
