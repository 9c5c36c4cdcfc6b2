import FeedForward.Proofs.Check
import FeedForward.Tensor

/-!
# Tensors of equal extents, rows and columns

Tensors of equal extents combine place by place, without broadcasting. Inside the extents of a
matrix every number can be had, and the matrix of some columns has their numbers.
-/

namespace FeedForward.Tensor

variable {α β γ : Type}

theorem length_toList (t : Tensor β) : t.toList.length = places t.shape := by
  rw [toList, Array.length_toList, t.size_eq]

/-- A tensor is its extents and its numbers. -/
theorem eq_of_toList {s t : Tensor β} (hshape : s.shape = t.shape) (hlist : s.toList = t.toList) :
    s = t := by
  obtain ⟨shape, data, hsize⟩ := s
  obtain ⟨other, numbers, hother⟩ := t
  cases hshape
  cases Array.toList_inj.mp hlist
  rfl

theorem zipWith_eq_ok [Zero α] [Zero β] (f : α → β → γ) {a : Tensor α} {b : Tensor β}
    (hshape : a.shape = b.shape) :
    ∃ t, zipWith f a b = .ok t ∧ t.shape = a.shape ∧
      t.toList = List.zipWith f a.toList b.toList := by
  rw [zipWith, dif_pos hshape]
  exact ⟨_, rfl, rfl, by simp [toList]⟩

/-- Numbers added place by place, for tensors of equal extents. -/
def added [Add β] [Zero β] (a b : Tensor β) : Tensor β :=
  .ofFn a.shape fun i => a.data.getD i 0 + b.data.getD i 0

@[simp] theorem shape_added [Add β] [Zero β] (a b : Tensor β) : (a.added b).shape = a.shape := rfl

theorem toList_added [Add β] [Zero β] {a b : Tensor β} (hshape : a.shape = b.shape) :
    (a.added b).toList = List.zipWith (· + ·) a.toList b.toList := by
  have ha : a.data.size = places a.shape := a.size_eq
  have hb : b.data.size = places a.shape := by rw [b.size_eq, hshape]
  apply List.ext_getElem?
  intro i
  simp only [added, ofFn, toList, Array.getElem?_toList, Array.getElem?_ofFn,
    List.getElem?_zipWith]
  split
  next hi => simp [ha, hb, hi]
  next hi => simp [ha, Nat.le_of_not_lt hi]

theorem zipWith_add [Add β] [Zero β] {a b : Tensor β} (hshape : a.shape = b.shape) :
    zipWith (· + ·) a b = .ok (a.added b) := by
  obtain ⟨sum, hsum, hsumShape, hlist⟩ := zipWith_eq_ok (· + ·) hshape
  have hadded : sum = a.added b := eq_of_toList hsumShape (hlist.trans (toList_added hshape).symm)
  rw [hsum, hadded]

/-- A place in row-major order lies below the number of places. -/
theorem place_lt {rows columns row column : Nat} (hrow : row < rows) (hcolumn : column < columns) :
    row * columns + column < rows * columns := by
  have hnext : (row + 1) * columns ≤ rows * columns := Nat.mul_le_mul_right columns hrow
  rw [Nat.succ_mul] at hnext
  omega

theorem shape_of_matrixShape {t : Tensor β} {rows columns : Nat}
    (hextents : t.matrixShape = .ok (rows, columns)) : t.shape = [rows, columns] := by
  rw [matrixShape] at hextents
  split at hextents
  next hshape => cases hextents; exact hshape
  next => cases hextents

section

variable {t : Tensor β} {rows columns row column : Nat} (hshape : t.shape = [rows, columns])

include hshape

theorem rows_eq_ok : t.rows = .ok rows := by rw [Tensor.rows, hshape]

theorem columns_eq_ok : t.columns = .ok columns := by rw [Tensor.columns, hshape]

theorem matrixShape_eq_ok : t.matrixShape = .ok (rows, columns) := by
  rw [matrixShape, hshape]

/-- A number inside a matrix is the one at its place in row-major order. -/
theorem entry_eq_ok_iff (hrow : row < rows) (hcolumn : column < columns) {x : β} :
    t.entry row column = .ok x ↔ t.toList[row * columns + column]? = some x := by
  rw [entry, hshape]
  simp only [hrow, hcolumn, and_self, if_true, places, Nat.mul_one, toList,
    Array.getElem?_toList]
  cases t.data[row * columns + column]? <;> simp

theorem exists_slab (hrow : row < rows) : ∃ xs, t.slab row = .ok xs := by
  rw [slab, hshape]
  exact ⟨_, if_pos hrow⟩

theorem exists_entry (hrow : row < rows) (hcolumn : column < columns) :
    ∃ x, t.entry row column = .ok x := by
  have hplace : row * columns + column < t.toList.length := by
    rw [length_toList, hshape, places, places, places, Nat.mul_one]
    exact place_lt hrow hcolumn
  exact ⟨t.toList[row * columns + column],
    (entry_eq_ok_iff hshape hrow hcolumn).mpr (List.getElem?_eq_getElem hplace)⟩

end

/-- The matrix of some columns has their numbers. -/
theorem entry_ofColumns [Zero β] {rows row column : Nat} {columns : List (List β)}
    {values : List β} {x : β} (hrow : row < rows) (hcolumn : columns[column]? = some values)
    (hx : values[row]? = some x) : (ofColumns rows columns).entry row column = .ok x := by
  obtain ⟨hlt, _⟩ := List.getElem?_eq_some_iff.mp hcolumn
  have hplace : row * columns.length + column < places [rows, columns.length] := by
    rw [places, places, places, Nat.mul_one]
    exact place_lt hrow hlt
  have hmod : (row * columns.length + column) % columns.length = column := by
    rw [Nat.add_comm, Nat.add_mul_mod_self_right, Nat.mod_eq_of_lt hlt]
  have hdiv : (row * columns.length + column) / columns.length = row := by
    rw [Nat.add_comm, Nat.add_mul_div_right _ _ (by omega), Nat.div_eq_of_lt hlt, Nat.zero_add]
  rw [entry_eq_ok_iff (show (ofColumns rows columns).shape = [rows, columns.length] from rfl) hrow
    hlt, ofColumns, ofFn, toList, Array.getElem?_toList, Array.getElem?_ofFn, dif_pos hplace]
  simp [hmod, hdiv, hcolumn, hx]

end FeedForward.Tensor
