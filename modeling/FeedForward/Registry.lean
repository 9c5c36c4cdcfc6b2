import FeedForward.Fault

/-!
# Registries of named entries

A registry keeps entries in the order in which their names came in. A name may be
folded before it is used as a key, so that spellings count as one. Registering a name
again replaces the entry and keeps its place. Messages list the keys in code point
order.
-/

namespace FeedForward

/-- Entries under folded names. -/
structure Registry (γ : Type) where
  role : Role
  fold : String → String
  entries : List (String × γ)

/-- An entry, either by name or as a value. -/
inductive Ref (γ : Type) where
  | named (name : String)
  | given (value : γ)

namespace Registry

variable {γ : Type}

/-- The entry under a key that is folded already. -/
def lookup (entries : List (String × γ)) (key : String) : Option γ :=
  (entries.find? fun entry => entry.1 == key).map Prod.snd

/-- The entries with one key set: in its place if it is there, at the end otherwise. -/
def put (key : String) (value : γ) : List (String × γ) → List (String × γ)
  | [] => [(key, value)]
  | entry :: rest =>
    if entry.1 == key then (key, value) :: rest else entry :: put key value rest

/-- The entry under a name. -/
def find? (r : Registry γ) (name : String) : Option γ := lookup r.entries (r.fold name)

/-- Whether a name has an entry. -/
def contains (r : Registry γ) (name : String) : Bool := (r.find? name).isSome

/-- The registry with an entry under a name. -/
def register (r : Registry γ) (name : String) (value : γ) : Registry γ :=
  { r with entries := put (r.fold name) value r.entries }

/-- The keys in code point order. -/
def names (r : Registry γ) : List String :=
  (r.entries.map Prod.fst).mergeSort fun a b => decide (a ≤ b)

/-- The entry under a name, or the fault that lists the names there are. -/
def get (r : Registry γ) (name : String) : Except Fault γ :=
  match r.find? name with
  | some value => .ok value
  | none => .error (.unknownName r.role name r.names)

/-- The entry that a reference means. -/
def resolve (r : Registry γ) : Ref γ → Except Fault γ
  | .named name => r.get name
  | .given value => .ok value

/-- The registry with a second name for an entry. The entry itself stays as it is. -/
def addAlias (r : Registry γ) (name target : String) : Except Fault (Registry γ) :=
  match r.find? target with
  | some value => .ok (r.register name value)
  | none => .error .aliasTarget

theorem lookup_put (entries : List (String × γ)) (key other : String) (value : γ) :
    lookup (put key value entries) other =
      if key = other then some value else lookup entries other := by
  induction entries with
  | nil => by_cases h : key = other <;> simp [put, lookup, h]
  | cons entry rest ih =>
    unfold lookup at ih ⊢
    by_cases hkey : entry.1 = key
    · subst hkey
      by_cases h : entry.1 = other <;> simp [put, h]
    · by_cases h : entry.1 = other
      · subst h
        simp [put, hkey, Ne.symm hkey]
      · simp [put, hkey, h, ih]

end Registry

end FeedForward
