import FeedForward.Proofs.Tensor
import FeedForward.Synapse

/-!
# Streams that nothing cuts short

A stream delivers a synapse for every edge when the units and the numbers that it reads are there:
as many outputs as a matrix has columns, or as many deltas as it has rows.
-/

namespace FeedForward

/-- The number at a place of a matrix as a scalar; outside the matrix there are zeros. -/
def Tensor.scalarAt {α β : Type} [Scalar α] [Precision α β] (t : Tensor β) (row column : Nat) : α :=
  match t.entry row column with
  | .ok x => Precision.widen x
  | .error _ => 0

namespace SynapseStream

variable {α β γ : Type}

theorem unitAt_eq_ok {items : List γ} {i : Nat} {x : γ} (hitem : items[i]? = some x) :
    unitAt items.toArray i = .ok x := by
  simp [unitAt, hitem]

theorem deliver_eq_ofList {form : Nat → Except Fault (Synapse α)} {synapses : List (Synapse α)}
    (hform : ∀ i s, synapses[i]? = some s → form i = .ok s) :
    deliver form (List.range synapses.length) = ofList synapses := by
  -- The induction is on the synapses and so needs edges that start anywhere.
  suffices hshift : ∀ start, (∀ i s, synapses[i]? = some s → form (start + i) = .ok s) →
      deliver form (List.range' start synapses.length) = ofList synapses by
    rw [List.range_eq_range']
    exact hshift 0 (by simpa using hform)
  clear hform
  induction synapses with
  | nil => intro _ _; rfl
  | cons s rest ih =>
      intro start hform
      have hhead : form start = .ok s := hform 0 s rfl
      have htail := ih (start + 1) fun i other hother => by
        have hstep := hform (i + 1) other (by simpa using hother)
        rwa [show start + (i + 1) = start + 1 + i by omega] at hstep
      rw [List.length_cons, List.range'_succ, deliver, hhead]
      simp only [htail, ofList]

variable [Scalar α] [Precision α β]

/-- The synapses into a row carry the outputs in front and the numbers of the row. -/
theorem incoming_eq_ok {weights : Tensor β} {outputs : List α} {rows row : Nat}
    (hshape : weights.shape = [rows, outputs.length]) (hrow : row < rows) :
    incoming weights outputs.toArray row = .ok (.ofList
      (outputs.mapIdx fun i x => ⟨i, x, weights.scalarAt row i, 0⟩)) := by
  simp only [incoming, Check.bind_eq_ok_iff, Check.pure_eq_ok_iff]
  refine ⟨outputs.length, Tensor.columns_eq_ok hshape, ?_⟩
  rw [← List.length_mapIdx (f := fun i x => (⟨i, x, weights.scalarAt row i, 0⟩ : Synapse α))]
  refine deliver_eq_ofList fun i s hs => ?_
  rw [List.getElem?_mapIdx] at hs
  obtain ⟨x, hx, rfl⟩ := Option.map_eq_some_iff.mp hs
  obtain ⟨hlt, _⟩ := List.getElem?_eq_some_iff.mp hx
  obtain ⟨w, hw⟩ := Tensor.exists_entry hshape hrow hlt
  simp only [unitAt_eq_ok hx, hw, Tensor.scalarAt]
  rfl

/-- The synapses back to a column carry the deltas behind and the numbers of the column, those of
the last update among them. -/
theorem returning_eq_ok {weights previous : Tensor β} {deltas : List α} {columns column : Nat}
    (hshape : weights.shape = [deltas.length, columns]) (hprevious : previous.shape = weights.shape)
    (hcolumn : column < columns) :
    returning weights previous deltas.toArray column = .ok (.ofList
      (deltas.mapIdx fun i x =>
        ⟨i, x, weights.scalarAt i column, previous.scalarAt i column⟩)) := by
  simp only [returning, Check.bind_eq_ok_iff, Check.pure_eq_ok_iff]
  refine ⟨deltas.length, Tensor.rows_eq_ok hshape, ?_⟩
  rw [← List.length_mapIdx (f := fun i x =>
    (⟨i, x, weights.scalarAt i column, previous.scalarAt i column⟩ : Synapse α))]
  refine deliver_eq_ofList fun i s hs => ?_
  rw [List.getElem?_mapIdx] at hs
  obtain ⟨x, hx, rfl⟩ := Option.map_eq_some_iff.mp hs
  obtain ⟨hlt, _⟩ := List.getElem?_eq_some_iff.mp hx
  obtain ⟨w, hw⟩ := Tensor.exists_entry hshape hlt hcolumn
  obtain ⟨p, hp⟩ := Tensor.exists_entry (hprevious.trans hshape) hlt hcolumn
  simp only [unitAt_eq_ok hx, hw, hp, Tensor.scalarAt]
  rfl

end SynapseStream

end FeedForward
