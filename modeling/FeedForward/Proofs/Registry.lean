import FeedForward.Registry

/-!
# Registries and their entries

What a name stands for is one of the entries, under that name. A thing that goes by a name is
listed when there is an entry under this name that goes by it too; a second name of an entry does
not make it listed.
-/

namespace FeedForward.Registry

variable {γ : Type}

theorem mem_of_find? {r : Registry γ} {name : String} {value : γ}
    (hfind : r.find? name = some value) : (r.fold name, value) ∈ r.entries := by
  rw [find?, lookup, Option.map_eq_some_iff] at hfind
  obtain ⟨⟨key, other⟩, hentry, rfl⟩ := hfind
  obtain rfl : key = r.fold name := by simpa using List.find?_some hentry
  exact List.mem_of_find?_eq_some hentry

theorem contains_iff {r : Registry γ} {name : String} :
    r.contains name = true ↔ ∃ value, r.find? name = some value :=
  Option.isSome_iff_exists

theorem find?_eq_none_iff {r : Registry γ} {name : String} :
    r.find? name = none ↔ r.contains name = false := by
  rw [contains, Option.isSome_eq_false_iff, Option.isNone_iff_eq_none]

/-- Names that all have an entry stand for a list of values. -/
theorem exists_values_iff {r : Registry γ} {names : List String} :
    (∃ values : List γ, names.map r.find? = values.map some) ↔
      ∀ name ∈ names, r.contains name = true := by
  induction names with
  | nil => exact ⟨fun _ name hname => by simp at hname, fun _ => ⟨[], rfl⟩⟩
  | cons name names ih =>
      rw [List.forall_mem_cons, ← ih, contains_iff]
      constructor
      · rintro ⟨values, hvalues⟩
        cases values with
        | nil => cases hvalues
        | cons value values =>
            obtain ⟨hvalue, hrest⟩ := List.cons.inj hvalues
            exact ⟨⟨value, hvalue⟩, values, hrest⟩
      · rintro ⟨⟨value, hvalue⟩, values, hrest⟩
        exact ⟨value :: values, by rw [List.map_cons, List.map_cons, hvalue, hrest]⟩

/-- There is an entry under the name of a thing, and it goes by the same name. -/
def Lists (r : Registry γ) (name : γ → String) (x : γ) : Prop :=
  ∃ entry, r.find? (name x) = some entry ∧ name entry = name x

/-- The entry under the name of a thing, or the thing itself where there is none. -/
def entryFor (r : Registry γ) (name : γ → String) (x : γ) : γ := (r.find? (name x)).getD x

section

variable {r : Registry γ} {name : γ → String} {x : γ} (hlists : r.Lists name x)

include hlists

theorem find?_of_lists : r.find? (name x) = some (r.entryFor name x) := by
  obtain ⟨entry, hfind, _⟩ := hlists
  rw [entryFor, hfind, Option.getD_some]

theorem name_entryFor : name (r.entryFor name x) = name x := by
  obtain ⟨entry, hfind, hname⟩ := hlists
  rw [entryFor, hfind, Option.getD_some, hname]

/-- A listed thing goes by the name of some entry. -/
theorem Lists.name_mem : name x ∈ r.entries.map fun entry => name entry.2 := by
  obtain ⟨entry, hfind, hname⟩ := hlists
  exact List.mem_map.mpr ⟨_, mem_of_find? hfind, hname⟩

end

end FeedForward.Registry
