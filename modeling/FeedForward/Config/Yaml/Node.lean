import FeedForward.Config.Yaml.Scalar

/-!
# The parts of a YAML document

A document is a tree of scalars, lists and mappings before its scalars are read. Under the key
`<<` a mapping takes over the entries of another mapping, or of each one in a list of them.
Its own entries count for more than those, and in a list the first mapping counts most. What
is not a mapping there cannot be taken over, which is found when the mapping is read.

A tree is read depth by depth: what lies at one depth comes before all that lies below it.
The first fault in this order is the fault of the document. A list or a mapping cannot be a
key. Of equal keys the last one counts.
-/

namespace FeedForward.Yaml

/-- A part of a document. -/
inductive Node where
  | scalar (text : String) (plain : Bool)
  | list (items : List Node)
  | mapping (entries : List (Node × Node))
  /-- A mapping that takes over what is not a mapping. -/
  | unmergeable
  deriving Inhabited

/-- What has been read, with the first fault at each depth of it. -/
structure Reading (γ : Type) where
  value : γ
  faults : List (Option Fault)

namespace Reading

variable {γ δ ε : Type}

/-- What reads without a fault. -/
def pure (value : γ) : Reading γ := ⟨value, []⟩

/-- What cannot be read; some value takes its place. -/
def fail (value : γ) (fault : Fault) : Reading γ := ⟨value, [some fault]⟩

/-- The result of reading a scalar. -/
def ofExcept (default : γ) : Except Fault γ → Reading γ
  | .ok value => pure value
  | .error fault => fail default fault

/-- The first fault at each depth of two parts. -/
def firstFaults : List (Option Fault) → List (Option Fault) → List (Option Fault)
  | [], ys => ys
  | xs, [] => xs
  | x :: xs, y :: ys => x.or y :: firstFaults xs ys

/-- Two parts beside each other. -/
def both (f : γ → δ → ε) (x : Reading γ) (y : Reading δ) : Reading ε :=
  ⟨f x.value y.value, firstFaults x.faults y.faults⟩

/-- What surrounds parts, which lie one deeper than it. -/
def around (f : γ → δ) (x : Reading γ) : Reading δ := ⟨f x.value, none :: x.faults⟩

/-- What has been read unless there is a fault at some depth. -/
def toExcept (x : Reading γ) : Except Fault γ :=
  match x.faults.findSome? id with
  | some fault => .error fault
  | none => .ok x.value

end Reading

namespace Node

/-- Nothing at all. -/
def null : Node := .scalar "" true

/-- The entries of a mapping. -/
def entries? : Node → Option (List (Node × Node))
  | mapping entries => some entries
  | scalar .. | list _ | unmergeable => none

/-- Whether a key takes over the entries of what stands under it. -/
def isMerge : Node → Bool
  | scalar text plain => plain && text == "<<"
  | list _ | mapping _ | unmergeable => false

/-- The entries that are taken over from a mapping or a list of mappings. -/
def mergedEntries? : Node → Option (List (Node × Node))
  | list items => (items.mapM entries?).map fun parts => parts.reverse.flatten
  | node => node.entries?

/-- The mapping with some entries, where those that are taken over come first. -/
def ofEntries (entries : List (Node × Node)) : Node :=
  let (merges, own) := entries.partition fun entry => entry.1.isMerge
  match merges.mapM fun entry => entry.2.mergedEntries? with
  | some merged => .mapping (merged.flatten ++ own)
  | none => .unmergeable

/-- The atom that a scalar stands for: what is quoted is text. -/
def atomOf (text : String) (plain : Bool) : Except Fault Atom :=
  if plain then plainAtom text else .ok (.text text)

/-- A key of a mapping. The equals sign, which is no value, may be a key. -/
def readKey : Node → Reading Atom
  | scalar text plain =>
    if text = "=" then .pure (.text text) else .ofExcept .null (atomOf text plain)
  | list _ | mapping _ | unmergeable => .fail .null .invalidYaml

/-- The entries of a mapping, each key once. -/
def distinct (entries : List (Atom × Value)) : List (Atom × Value) :=
  entries.foldl (fun done entry => Value.put entry.1 entry.2 done) []

mutual

/-- The value that a part stands for. -/
def read : Node → Reading Value
  | scalar text plain => .ofExcept .null ((atomOf text plain).map .atom)
  | list items => (readItems items).around .list
  | mapping entries => (readEntries entries).around fun entries => .mapping (distinct entries)
  | unmergeable => (Reading.fail () .invalidYaml).around fun _ => .null

/-- The items of a list. -/
def readItems : List Node → Reading (List Value)
  | [] => .pure []
  | item :: rest => .both List.cons (read item) (readItems rest)

/-- The entries of a mapping. -/
def readEntries : List (Node × Node) → Reading (List (Atom × Value))
  | [] => .pure []
  | (key, item) :: rest => .both List.cons (.both Prod.mk key.readKey (read item)) (readEntries rest)

end

end Node

end FeedForward.Yaml
