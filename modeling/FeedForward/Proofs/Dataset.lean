import FeedForward.Dataset.Options
import FeedForward.Proofs.Check
import FeedForward.Proofs.Random
import FeedForward.Proofs.Tensor
import Mathlib.Data.List.Basic
import Mathlib.Tactic.Ring

/-!
# What data sets consist of

Arrays become instances row by row, unit vectors come in turn, and clusters stand one behind the
other with the unit vectors of their classes for labels. Every number of a cluster is told by the
draws that it was made of: where it is in the row of all draws follows from where its instance is.
The built-in sets that are read off curves are left out, and so is noise of other widths than a
single number.
-/

namespace FeedForward

namespace Tensor

variable {α β γ : Type}

/-- The parts of a matrix are its rows. -/
theorem parts_eq_ok {t : Tensor β} {rows columns : Nat} (hshape : t.shape = [rows, columns]) :
    t.parts = .ok ((List.range rows).map fun row =>
      .ofList ((t.toList.drop (row * columns)).take columns)) := by
  obtain ⟨shape, data, hsize⟩ := t
  cases hshape
  have hlength : data.size = rows * columns := by rw [hsize, places, places, places, Nat.mul_one]
  refine congrArg Except.ok (List.ext_getElem (by simp) fun row hrow _ => ?_)
  have hrow : row < rows := by simpa using hrow
  have hnext : (row + 1) * columns ≤ rows * columns := Nat.mul_le_mul_right columns hrow
  rw [Nat.succ_mul] at hnext
  refine eq_of_toList ?_ (List.ext_getElem ?_ ?_)
  · simp [ofFn, ofList, toList]
    omega
  · simp [ofFn, ofList, toList, places]
    omega
  · intro i hi _
    simp [ofFn, ofList, toList, places]

theorem toList_map (f : α → β) (t : Tensor α) : (t.map f).toList = t.toList.map f :=
  Array.toList_map

theorem ite_mod_one (extent i : Nat) : (if extent = 1 then 0 else i % extent) = i % extent := by
  split
  next hone => rw [hone, Nat.mod_one]
  next => rfl

/-- A place of a matrix comes from itself, and from its column where there is only a row. -/
theorem sourceIndex_matrix {rows columns i : Nat} (hi : i < rows * columns) :
    sourceIndex [columns, rows] [columns, rows] i = i ∧
      sourceIndex [columns, rows] [columns] i = i % columns := by
  have hrow : i / columns < rows := Nat.div_lt_of_lt_mul (Nat.mul_comm rows columns ▸ hi)
  simp only [sourceIndex, ite_mod_one, Nat.mul_zero, Nat.add_zero, and_true]
  rw [Nat.mod_eq_of_lt hrow, Nat.mod_add_div]

theorem sourceIndex_nil (extents : List Nat) (i : Nat) : sourceIndex extents [] i = 0 := by
  cases extents <;> rfl

/-- A single number is combined with every number of a matrix. -/
theorem zipWith_single [Zero α] [Zero β] (f : α → β → γ) (x : α) {t : Tensor β}
    {rows columns : Nat} (hshape : t.shape = [rows, columns]) :
    zipWith f (fill [] x) t = .ok (t.map (f x)) := by
  obtain ⟨shape, data, hsize⟩ := t
  cases hshape
  rw [zipWith, dif_neg (by simp [fill])]
  refine congrArg Except.ok (eq_of_toList rfl (List.ext_getElem ?_ fun i hi _ => ?_))
  · simp [ofFn, toList, map, hsize]
  · have hi : i < rows * columns := by simpa [ofFn, toList, places] using hi
    obtain ⟨hself, -⟩ := sourceIndex_matrix hi
    have hdata : i < data.size := by rw [hsize, places, places, places, Nat.mul_one]; exact hi
    simp [ofFn, toList, map, fill, places, sourceIndex_nil, hself, hdata]

/-- A row is combined with every row of a matrix. -/
theorem zipWith_row [Zero α] [Zero β] (f : α → β → γ) (xs : List α) {t : Tensor β}
    {rows : Nat} (hshape : t.shape = [rows, xs.length]) :
    ∃ sum, zipWith f (.ofList xs) t = .ok sum ∧ sum.shape = [rows, xs.length] ∧
      sum.toList = t.toList.mapIdx fun i y => f (xs.getD (i % xs.length) 0) y := by
  obtain ⟨shape, data, hsize⟩ := t
  cases hshape
  have hjoin : joinReversed (ofList xs).shape.reverse [rows, xs.length].reverse =
      some [xs.length, rows] := by
    simp [ofList, joinReversed, joinExtent]
  rw [zipWith, dif_neg (by simp [ofList])]
  dsimp only
  rw [hjoin]
  refine ⟨_, rfl, rfl, List.ext_getElem ?_ fun i hi _ => ?_⟩
  · simp [ofFn, toList, hsize]
  · have hi : i < rows * xs.length := by simpa [ofFn, toList, places] using hi
    obtain ⟨hself, hcolumn⟩ := sourceIndex_matrix hi
    have hdata : i < data.size := by rw [hsize, places, places, places, Nat.mul_one]; exact hi
    simp [ofFn, toList, ofList, hself, hcolumn, hdata]

end Tensor

namespace Operand

variable {α : Type} [Zero α]

/-- Where all places are numbers, these are the numbers. -/
theorem settle_ok (t : Tensor α) : settle (t.map .ok) = .ok t := by
  have hnone : firstFault? (t.map (Except.ok : α → Except Fault α)).toList = none := by
    simp [firstFault?, Tensor.map, Tensor.toList]
  rw [settle, hnone]
  refine congrArg Except.ok (Tensor.eq_of_toList rfl ?_)
  simp [Tensor.map, Tensor.toList, Function.comp_def, Except.toOption]

/-- A single number combined with a matrix. -/
theorem combine_single (f : α → α → α) (x : α) {t : Tensor α} {rows columns : Nat}
    (hshape : t.shape = [rows, columns]) : combine f (single x) t = .ok (t.map (f x)) := by
  have hzip : Tensor.zipWith (fun (x : Except Fault α) y => x.map fun x => f x y)
      (.fill [] (.ok x)) t = .ok ((t.map (f x)).map .ok) := by
    rw [Tensor.zipWith_single _ _ hshape]
    simp [Tensor.map, Function.comp_def, Except.map]
  rw [combine, single, Check.ok_bind, hzip, Check.ok_bind, settle_ok]

end Operand

namespace Dataset

variable {α : Type}

/-! ## Rows -/

/-- How many rows an array has. -/
def rowCount (t : Tensor α) : Nat := t.shape.headD 0

/-- The numbers of one row; those of a plain list of numbers stand in one column. -/
def rowOf (t : Tensor α) (i : Nat) : List α :=
  let columns := places t.shape.tail
  (t.toList.drop (i * columns)).take columns

/-- Plain lists of numbers and matrices, of which rows can be taken. -/
def HasRows (t : Tensor α) : Prop := t.shape.length = 1 ∨ t.shape.length = 2

theorem asRows_eq {t : Tensor α} (ht : HasRows t) :
    (asRows t).shape = [rowCount t, places t.shape.tail] ∧ (asRows t).toList = t.toList := by
  obtain ⟨shape, data, hsize⟩ := t
  rcases ht with hone | htwo
  · obtain ⟨n, rfl⟩ := List.length_eq_one_iff.mp hone
    exact ⟨rfl, rfl⟩
  · obtain ⟨n, m, rfl⟩ := List.length_eq_two.mp htwo
    exact ⟨by simp [asRows, rowCount, places], rfl⟩

theorem parts_asRows {t : Tensor α} (ht : HasRows t) :
    (asRows t).parts = .ok ((List.range (rowCount t)).map fun i => .ofList (rowOf t i)) := by
  obtain ⟨hshape, hlist⟩ := asRows_eq ht
  rw [Tensor.parts_eq_ok hshape, hlist]
  rfl

/-- Arrays with as many rows each become one instance for every row, and other ones are refused. -/
theorem fromArrays_eq {features labels : Tensor α} (hfeatures : HasRows features)
    (hlabels : HasRows labels) : fromArrays features (some labels) =
      if rowCount features = rowCount labels then
        .ok ((List.range (rowCount features)).map fun i =>
          instanceOf (rowOf features i) (some (rowOf labels i)))
      else .error (.rowCounts (rowCount features) (rowCount labels)) := by
  simp only [fromArrays, Tensor.rows_eq_ok (asRows_eq hfeatures).1,
    Tensor.rows_eq_ok (asRows_eq hlabels).1, parts_asRows hfeatures, parts_asRows hlabels]
  change pairRows _ _ = _
  rw [pairRows, List.length_map, List.length_map, List.length_range, List.length_range]
  by_cases hrows : rowCount features = rowCount labels
  · rw [if_pos hrows.symm, if_pos hrows, ← hrows, List.zipWith_map_left, List.zipWith_map_right,
      List.zipWith_self]
    rfl
  · rw [if_neg (Ne.symm hrows), if_neg hrows]

/-! ## Blocks -/

section

variable {γ : Type} {block : Nat → List γ} {size : Nat} (hsize : ∀ k, (block k).length = size)

include hsize

theorem length_flatMap_range (count : Nat) :
    ((List.range count).flatMap block).length = count * size := by
  simp [List.length_flatMap, hsize, List.map_const']

/-- Of blocks of one length, the item at a place of a block. -/
theorem getElem?_flatMap_range {count k j : Nat} (hk : k < count) (hj : j < size) :
    ((List.range count).flatMap block)[k * size + j]? = (block k)[j]? := by
  induction count with
  | zero => exact absurd hk (Nat.not_lt_zero k)
  | succ count ih =>
      have hlength := length_flatMap_range hsize count
      rw [List.range_succ, List.flatMap_append, List.flatMap_singleton]
      rcases Nat.lt_succ_iff_lt_or_eq.mp hk with hlt | rfl
      · rw [List.getElem?_append_left (hlength ▸ Tensor.place_lt hlt hj), ih hlt]
      · rw [List.getElem?_append_right (by omega), hlength, Nat.add_sub_cancel_left]

end

/-! ## Unit vectors -/

variable [Scalar α]

theorem oneHot_eq (dimension repeats : Nat) : (oneHot dimension repeats : List (Instance α)) =
    (List.range repeats).flatMap fun _ =>
      (List.range dimension).map fun i => instanceOf (unitVector dimension i) none := by
  have hunits : List.replicate repeats () = (List.range repeats).map fun _ => () := by
    rw [List.map_const', List.length_range]
  rw [oneHot, hunits, List.flatMap_map]

theorem length_oneHot (dimension repeats : Nat) :
    (oneHot dimension repeats : List (Instance α)).length = dimension * repeats := by
  rw [oneHot_eq, length_flatMap_range (fun _ => by rw [List.length_map, List.length_range]),
    Nat.mul_comm]

/-- The unit vectors come in turn. -/
theorem getElem?_oneHot {dimension repeats i : Nat} (hi : i < dimension * repeats) :
    (oneHot dimension repeats : List (Instance α))[i]? =
      some (instanceOf (unitVector dimension (i % dimension)) none) := by
  have hpositive : 0 < dimension := Nat.pos_of_ne_zero fun hzero => by simp [hzero] at hi
  have hturn : i / dimension < repeats := Nat.div_lt_of_lt_mul hi
  have hplace : i % dimension < dimension := Nat.mod_lt i hpositive
  have hi : i = i / dimension * dimension + i % dimension := (Nat.div_add_mod' i dimension).symm
  rw [oneHot_eq]
  nth_rewrite 1 [hi]
  rw [getElem?_flatMap_range (fun _ => by rw [List.length_map, List.length_range]) hturn hplace,
    List.getElem?_map, List.getElem?_range hplace, Option.map_some]

theorem sum_replicate_zero (count : Nat) : (List.replicate count (0 : Double)).sum = 0 := by
  induction count with
  | zero => rfl
  | succ count ih => rw [List.replicate_succ, List.sum_cons, ih]; rfl

/-- The numbers of a unit vector add up to one. -/
theorem sum_unitVector {size i : Nat} (hi : i < size) :
    (unitVector size i : List Double).sum = 1 := by
  induction size generalizing i with
  | zero => exact absurd hi (Nat.not_lt_zero i)
  | succ size ih =>
      rw [unitVector, List.range_succ_eq_map, List.map_cons, List.map_map, List.sum_cons]
      cases i with
      | zero =>
          have hzeros : (List.range size).map ((fun j => if j = 0 then (1 : Double) else 0) ∘
              Nat.succ) = List.replicate size 0 := by
            simp [Function.comp_def, List.map_const']
          rw [hzeros, sum_replicate_zero]
          rfl
      | succ i =>
          have hrest : (List.range size).map ((fun j => if j = i + 1 then (1 : Double) else 0) ∘
              Nat.succ) = unitVector size i := by
            simp [Function.comp_def, unitVector]
          rw [hrest, ih (Nat.lt_of_succ_lt_succ hi), if_neg (Nat.succ_ne_zero i).symm]
          rfl

/-! ## Clusters -/

open Generator (after drawn bell between)

theorem bells_eq (rows columns : Nat) (source : Generator) :
    (bells rows columns source : Tensor α × Generator).1.shape = [rows, columns] ∧
      (bells rows columns source : Tensor α × Generator).1.toList =
        (List.range (rows * columns)).map (fun k => drawn bell k source) ∧
      (bells rows columns source : Tensor α × Generator).2 =
        after (bell (α := α)) (rows * columns) source := by
  simp only [bells, Generator.collect_eq_drawn, Tensor.toList, and_self]

/-- A row of numbers that are told place by place. -/
theorem take_drop_map_range {γ : Type} (f : Nat → γ) {rows columns row : Nat} (hrow : row < rows) :
    (((List.range (rows * columns)).map f).drop (row * columns)).take columns =
      (List.range columns).map fun i => f (row * columns + i) := by
  have hnext : (row + 1) * columns ≤ rows * columns := Nat.mul_le_mul_right columns hrow
  rw [Nat.succ_mul] at hnext
  refine List.ext_getElem ?_ fun i hi _ => ?_
  · simp
    omega
  · simp

/-- The rows of one cluster: its centre and noise of some width. -/
theorem cluster_eq (width : α) (perClass : Nat) (centre : List α) (source : Generator) :
    ∃ offsets sum, Operand.combine (· * ·) (.single width)
        (bells perClass centre.length source).1 = .ok offsets ∧
      Tensor.zipWith (· + ·) (.ofList centre) offsets = .ok sum ∧
      sum.parts = .ok ((List.range perClass).map fun j =>
        .ofList ((List.range centre.length).map fun i =>
          centre.getD i 0 + width * drawn bell (j * centre.length + i) source)) := by
  obtain ⟨hshape, hlist, -⟩ := bells_eq (α := α) perClass centre.length source
  obtain ⟨sum, hsum, hrows, hnumbers⟩ := Tensor.zipWith_row (· + ·) centre
    (t := (bells perClass centre.length source).1.map (width * ·)) hshape
  refine ⟨_, sum, Operand.combine_single _ _ hshape, hsum, ?_⟩
  rw [Tensor.parts_eq_ok hrows]
  have hplaces : sum.toList = (List.range (perClass * centre.length)).map fun k =>
      centre.getD (k % centre.length) 0 + width * drawn bell k source := by
    rw [hnumbers, Tensor.toList_map, hlist]
    exact List.ext_getElem (by simp) fun k _ _ => by simp
  refine congrArg Except.ok (List.map_congr_left fun j hj => congrArg Tensor.ofList ?_)
  rw [hplaces, take_drop_map_range _ (List.mem_range.mp hj)]
  refine List.map_congr_left fun i hi => ?_
  rw [Nat.mul_add_mod_self_right, Nat.mod_eq_of_lt (List.mem_range.mp hi)]

/-- The rows of clusters stand one behind the other, and so do their draws. -/
theorem clusters_eq (width : α) (perClass : Nat) {dimension : Nat} {centres : List (List α)}
    (hcentres : ∀ centre ∈ centres, centre.length = dimension) (source : Generator) :
    ∃ rows, clusters (.single width) perClass dimension centres source = .ok rows ∧
      rows.length = centres.length * perClass ∧
      ∀ k j centre, centres[k]? = some centre → j < perClass → rows[k * perClass + j]? =
        some (.ofList ((List.range dimension).map fun i => centre.getD i 0 +
          width * drawn bell ((k * perClass + j) * dimension + i) source)) := by
  induction centres generalizing source with
  | nil => exact ⟨[], rfl, (Nat.zero_mul _).symm, fun k j centre hk => by simp at hk⟩
  | cons centre centres ih =>
      obtain ⟨rfl, hcentres⟩ := List.forall_mem_cons.mp hcentres
      obtain ⟨rows, hrows, hlength, hplaces⟩ :=
        ih hcentres (after (bell (α := α)) (perClass * centre.length) source)
      obtain ⟨offsets, sum, hoffsets, hsum, hparts⟩ := cluster_eq width perClass centre source
      rw [← (bells_eq (α := α) perClass centre.length source).2.2] at hrows
      refine ⟨_ ++ rows, by simp only [clusters, hoffsets, hsum, hparts, hrows, Check.ok_bind]; rfl,
        ?_, fun k j other hk hj => ?_⟩
      · simp [hlength, Nat.succ_mul, Nat.add_comm]
      cases k with
      | zero =>
          obtain rfl : centre = other := by simpa using hk
          rw [List.getElem?_append_left (by simpa using hj)]
          simp [hj]
      | succ k =>
          have hbehind : (k + 1) * perClass + j - perClass = k * perClass + j := by
            rw [Nat.succ_mul]
            omega
          have hdraw (i : Nat) : ((k + 1) * perClass + j) * centre.length + i =
              perClass * centre.length + ((k * perClass + j) * centre.length + i) := by
            ring
          rw [List.getElem?_append_right (by simp [Nat.succ_mul]; omega), List.length_map,
            List.length_range, hbehind, hplaces k j other (by simpa using hk) hj]
          simp only [hdraw, Generator.drawn_add]

/-- Clusters have as many instances each, with the unit vectors of their classes for labels. -/
theorem blobs_eq (width : α) (perClass classes dimension : Nat) (source : Generator) :
    ∃ xs, blobs perClass classes dimension (.single width) source = .ok xs ∧
      xs.length = classes * perClass ∧
      ∀ c j, c < classes → j < perClass → xs[c * perClass + j]? =
        some (instanceOf ((List.range dimension).map fun d =>
            drawn (between (-1) 1) (c * dimension + d) source +
              width * drawn bell ((c * perClass + j) * dimension + d)
                (after (between (-1 : α) 1) (classes * dimension) source))
          (some (unitVector classes c))) := by
  have hcentres : centres classes dimension source =
      ((List.range classes).map fun c => (List.range dimension).map fun d =>
        drawn (between (-1 : α) 1) (c * dimension + d) source,
        after (between (-1 : α) 1) (classes * dimension) source) :=
    Generator.collect_collect _ _ _ _
  have hdimension : ∀ centre ∈ (centres classes dimension source : List (List α) × Generator).1,
      centre.length = dimension := by
    rw [hcentres]
    simp
  obtain ⟨rows, hrows, hlength, hplaces⟩ :=
    clusters_eq width perClass hdimension (centres (α := α) classes dimension source).2
  have hcount : rows.length = classes * perClass := by
    rw [hlength, hcentres, List.length_map, List.length_range]
  have hlabels : (clusterLabels perClass classes : List (Tensor α)).length = rows.length := by
    rw [hcount]
    exact length_flatMap_range (fun _ => List.length_replicate) classes
  refine ⟨List.zipWith (fun row label => ⟨some row, some (some label)⟩) rows
    (clusterLabels perClass classes), ?_, ?_, fun c j hc hj => ?_⟩
  · simp only [blobs, Int.toNat_natCast, hrows, Check.ok_bind,
      Int.not_lt.mpr (Int.natCast_nonneg _), if_false, pairRows, hlabels, if_true]
  · rw [List.length_zipWith, hlabels, Nat.min_self, hcount]
  · have hcentre : (centres classes dimension source).1[c]? =
        some ((List.range dimension).map fun d =>
          drawn (between (-1 : α) 1) (c * dimension + d) source) := by
      rw [hcentres]
      simp [hc]
    have hlabel : (clusterLabels perClass classes : List (Tensor α))[c * perClass + j]? =
        some (.ofList (unitVector classes c)) := by
      rw [clusterLabels, getElem?_flatMap_range (fun _ => List.length_replicate) hc hj]
      simp [hj]
    have hrow : ((List.range dimension).map fun i =>
        ((List.range dimension).map fun d =>
            drawn (between (-1 : α) 1) (c * dimension + d) source).getD i 0 +
          width * drawn bell ((c * perClass + j) * dimension + i)
            (after (between (-1 : α) 1) (classes * dimension) source)) =
        (List.range dimension).map fun d =>
          drawn (between (-1) 1) (c * dimension + d) source +
            width * drawn bell ((c * perClass + j) * dimension + d)
              (after (between (-1 : α) 1) (classes * dimension) source) := by
      refine List.map_congr_left fun i hi => ?_
      rw [List.getD_eq_getElem?_getD, List.getElem?_map, List.getElem?_range (List.mem_range.mp hi)]
      rfl
    rw [List.getElem?_zipWith, hplaces c j _ hcentre hj, hlabel, hcentres]
    simp only [hrow]
    rfl

/-! ## Data sets by name -/

theorem extent_eq_ok {n : Nat} (hfits : n < 0x1000000000000000) : extent n = .ok n := by
  rw [extent, if_pos ⟨Int.natCast_nonneg n, by exact_mod_cast hfits⟩, Int.toNat_natCast]

/-- The options of unit vectors are how many numbers each has and how often they come. -/
theorem oneHotOf_eq {options : Options} {dimension repeats : Nat}
    (hdimension : options.read "dim" Options.sizeOf 4 = .ok (dimension : Int))
    (hfits : dimension * dimension < 0x1000000000000000)
    (hrepeats : options.read "repeats" (repeatsOf dimension) 1 = .ok repeats) :
    oneHotOf options = .ok (oneHot dimension repeats) := by
  have hsmall : dimension < 0x1000000000000000 :=
    Nat.lt_of_le_of_lt (Nat.le_mul_self dimension) hfits
  have hsquare : extent (dimension * dimension : Int) = .ok (dimension * dimension) := by
    rw [← Int.natCast_mul, extent_eq_ok hfits]
  exact Check.bind_eq_ok_iff.mpr ⟨_, hdimension, Check.bind_eq_ok_iff.mpr ⟨_, extent_eq_ok hsmall,
    Check.bind_eq_ok_iff.mpr ⟨_, hsquare, Check.bind_eq_ok_iff.mpr ⟨_, hrepeats, rfl⟩⟩⟩⟩

theorem drawnExtents_eq_ok {rows columns : Nat} (hrows : rows ≤ 0x7fffffffffffffff)
    (hcolumns : columns ≤ 0x7fffffffffffffff) :
    drawnExtents rows columns = .ok (rows, columns) := by
  rw [drawnExtents, if_neg (by omega), Int.toNat_natCast, Int.toNat_natCast]

/-- The options of clusters are what they are made of. -/
theorem blobsOf_eq {options : Options} {source : Generator} {perClass classes dimension : Nat}
    {width : Double} (hsource : options.source = .ok source)
    (hclasses : options.read "n_classes" Options.sizeOf 3 = .ok (classes : Int))
    (hdimension : options.read "dim" Options.sizeOf 2 = .ok (dimension : Int))
    (hperClass : options.read "n_per_class" Options.sizeOf 16 = .ok (perClass : Int))
    (hwidth : options.operand "spread" 0.15 = .single width) (hleast : 1 ≤ classes)
    (hfits : max (max perClass classes) dimension ≤ 0x7fffffffffffffff) :
    blobsOf options = blobs perClass classes dimension (.single width) source := by
  have hrows : drawnExtents classes dimension = .ok (classes, dimension) :=
    drawnExtents_eq_ok (by omega) (by omega)
  have hplaces : drawnExtents perClass dimension = .ok (perClass, dimension) :=
    drawnExtents_eq_ok (by omega) (by omega)
  simp only [blobsOf, hsource, hclasses, hdimension, Check.ok_bind, hrows, Nat.ne_of_gt hleast,
    if_false, hperClass, hplaces, hwidth]

/-- The rows of features and the rows of labels stay together. Arrays become one instance for every
row, or they are refused as values that cannot be used if one of them has more rows. Unit vectors
come in turn and have no labels. Clusters stand one behind the other: every instance has the unit
vector of its class for a label, and for features the centre of its class, each number with noise of
its own. All centres are drawn first, and then the noise is drawn in the order of the instances. -/
theorem rows_keep_labels :
    (∀ features labels : Tensor Double, HasRows features → HasRows labels →
      fromArrays features (some labels) =
        (if rowCount features = rowCount labels then
          .ok ((List.range (rowCount features)).map fun i =>
            instanceOf (rowOf features i) (some (rowOf labels i)))
        else .error (.rowCounts (rowCount features) (rowCount labels))) ∧
      (Fault.rowCounts (rowCount features) (rowCount labels)).family = .badValue) ∧
    (∀ dimension repeats : Nat,
      (oneHot dimension repeats : List (Instance Double)).length = dimension * repeats ∧
      (∀ i < dimension * repeats, (oneHot dimension repeats : List (Instance Double))[i]? =
        some (instanceOf (unitVector dimension (i % dimension)) none)) ∧
      ∀ options : Options, options.read "dim" Options.sizeOf 4 = .ok (dimension : Int) →
        dimension * dimension < 0x1000000000000000 →
        options.read "repeats" (repeatsOf dimension) 1 = .ok repeats →
        oneHotOf options = .ok (oneHot dimension repeats)) ∧
    ∀ (perClass classes dimension : Nat) (width : Double) (source : Generator),
      ∃ xs, blobs perClass classes dimension (.single width) source = .ok xs ∧
        xs.length = classes * perClass ∧
        (∀ c j, c < classes → j < perClass → xs[c * perClass + j]? =
          some (instanceOf ((List.range dimension).map fun d =>
              drawn (between (-1) 1) (c * dimension + d) source +
                width * drawn bell ((c * perClass + j) * dimension + d)
                  (after (between (-1 : Double) 1) (classes * dimension) source))
            (some (unitVector classes c)))) ∧
        (∀ c < classes, (unitVector classes c : List Double).sum = 1) ∧
        ∀ options : Options, options.source = .ok source →
          options.read "n_classes" Options.sizeOf 3 = .ok (classes : Int) →
          options.read "dim" Options.sizeOf 2 = .ok (dimension : Int) →
          options.read "n_per_class" Options.sizeOf 16 = .ok (perClass : Int) →
          options.operand "spread" 0.15 = .single width → 1 ≤ classes →
          max (max perClass classes) dimension ≤ 0x7fffffffffffffff →
          blobsOf options = .ok xs := by
  refine ⟨fun features labels hfeatures hlabels => ⟨fromArrays_eq hfeatures hlabels, rfl⟩,
    fun dimension repeats => ⟨length_oneHot dimension repeats, fun i hi => getElem?_oneHot hi,
      fun options hdimension hfits hrepeats => oneHotOf_eq hdimension hfits hrepeats⟩,
    fun perClass classes dimension width source => ?_⟩
  obtain ⟨xs, hblobs, hlength, hplaces⟩ := blobs_eq width perClass classes dimension source
  refine ⟨xs, hblobs, hlength, hplaces, fun c hc => sum_unitVector hc,
    fun options hsource hclasses hdimension hperClass hwidth hleast hfits => ?_⟩
  rw [blobsOf_eq hsource hclasses hdimension hperClass hwidth hleast hfits, hblobs]

/-- Two clusters of two points each, with noise of half a unit. -/
def pairsOptions : Options := [(.text "n_classes", .integer 2), (.text "n_per_class", .integer 2),
  (.text "dim", .integer 1), (.text "spread", .number 0.5), (.text "seed", .integer 7),
  (.text "repeats", .integer 3)]

/-- A plain list of features beside a matrix of labels with another number of rows, three turns of a
single unit vector, and the last point of the second one of two clusters. -/
theorem rows_keep_labels_pairs :
    HasRows (.ofList [0, 1] : Tensor Double) ∧ HasRows (.fill [1, 2] 0 : Tensor Double) ∧
      fromArrays (.ofList [0, 1]) (some (.fill [1, 2] (0 : Double))) = .error (.rowCounts 2 1) ∧
      pairsOptions.read "repeats" (repeatsOf 1) 1 = .ok 3 ∧
      oneHotOf pairsOptions = .ok (oneHot 1 3) ∧
      pairsOptions.operand "spread" 0.15 = .single 0.5 ∧ pairsOptions.source = .ok ⟨7⟩ ∧
      ∃ xs, blobsOf pairsOptions = .ok xs ∧ xs.length = 4 ∧ xs[3]? =
        some (instanceOf [drawn (between (-1) 1) 1 ⟨7⟩ + (0.5 : Double) *
          drawn bell 3 (after (between (-1 : Double) 1) 2 ⟨7⟩)] (some [0, 1])) := by
  obtain ⟨harrays, honeHot, hblobs⟩ := rows_keep_labels
  have hfeatures : HasRows (.ofList [0, 1] : Tensor Double) := .inl rfl
  have hlabels : HasRows (.fill [1, 2] 0 : Tensor Double) := .inr rfl
  have hrepeats : pairsOptions.read "repeats" (repeatsOf 1) 1 = .ok 3 := rfl
  have hdimension : pairsOptions.read "dim" Options.sizeOf 4 = .ok ((1 : Nat) : Int) := rfl
  obtain ⟨xs, -, hlength, hplaces, -, hnamed⟩ := hblobs 2 2 1 0.5 ⟨7⟩
  exact ⟨hfeatures, hlabels, (harrays _ _ hfeatures hlabels).1, hrepeats,
    (honeHot 1 3).2.2 pairsOptions hdimension (by decide) hrepeats, rfl, rfl, xs,
    hnamed pairsOptions rfl rfl rfl rfl rfl (by decide) (by decide), hlength,
    hplaces 1 1 (by decide) (by decide)⟩

end Dataset

end FeedForward
