import FeedForward.Proofs.Network.History

/-!
# Stretched weights

Updates may broadcast with the weights that they are added to. As long as no update has a zero
among its extents, a matrix then only grows: its last two extents reach all units that they are for,
and further extents may come in front. Rows of a matrix with further extents cannot be read, so a
network with such weights refuses every pass. Nothing is said about the numbers.
-/

namespace FeedForward

/-! ## Extents that reach -/

/-- Extents whose last two reach so many rows and columns. There may be others in front, of which
none is zero. -/
def Reaches (rows columns : Nat) (shape : List Nat) : Prop :=
  ∃ front r c, shape = front ++ [r, c] ∧ 0 ∉ front ∧ rows ≤ r ∧ columns ≤ c

theorem reaches_matrix (rows columns : Nat) : Reaches rows columns [rows, columns] :=
  ⟨[], rows, columns, rfl, by simp, Nat.le_refl _, Nat.le_refl _⟩

theorem places_append (xs ys : List Nat) : places (xs ++ ys) = places xs * places ys := by
  induction xs with
  | nil => rw [List.nil_append, places, Nat.one_mul]
  | cons x xs ih => rw [List.cons_append, places, places, ih, Nat.mul_assoc]

theorem places_pos {shape : List Nat} (hshape : 0 ∉ shape) : 0 < places shape := by
  induction shape with
  | nil => exact Nat.one_pos
  | cons x xs ih =>
      rw [List.mem_cons, not_or] at hshape
      exact Nat.mul_pos (Nat.pos_of_ne_zero (Ne.symm hshape.1)) (ih hshape.2)

/-- Extents that reach are those of a matrix, or there is more than one number in every row. -/
theorem Reaches.cases {rows columns : Nat} {shape : List Nat} (hreaches : Reaches rows columns shape)
    (hrows : 0 < rows) (hcolumns : 1 < columns) :
    (∃ r c, shape = [r, c] ∧ rows ≤ r ∧ columns ≤ c) ∨
      ∃ r c inner, shape = r :: c :: inner ∧ 0 < r ∧ 0 < c ∧ places inner ≠ 1 := by
  obtain ⟨front, r, c, rfl, hfront, hr, hc⟩ := hreaches
  rcases front with _ | ⟨x, _ | ⟨y, front⟩⟩
  · exact .inl ⟨r, c, rfl, hr, hc⟩
  · simp only [List.mem_singleton] at hfront
    refine .inr ⟨x, r, [c], rfl, by omega, by omega, ?_⟩
    rw [places, places, Nat.mul_one]
    omega
  · simp only [List.mem_cons, not_or] at hfront
    obtain ⟨hx, hy, hfront⟩ := hfront
    refine .inr ⟨x, y, front ++ [r, c], rfl, by omega, by omega, ?_⟩
    have hpositive := places_pos hfront
    have hlast : 1 < r * c := by
      calc 1 < 1 * c := by omega
        _ ≤ r * c := Nat.mul_le_mul_right c (by omega)
    have hplaces : places (front ++ [r, c]) = places front * (r * c) := by
      rw [places_append, places, places, places, Nat.mul_one]
    rw [hplaces]
    have hproduct : 1 * (r * c) ≤ places front * (r * c) := Nat.mul_le_mul_right _ hpositive
    omega

namespace Tensor

theorem le_joinExtent {a b x : Nat} (hjoin : joinExtent a b = some x) (hb : b ≠ 0) :
    a ≤ x ∧ (a ≠ 0 → x ≠ 0) := by
  rw [joinExtent] at hjoin
  split at hjoin
  next => cases hjoin; exact ⟨Nat.le_refl a, id⟩
  next =>
    split at hjoin
    next hone => cases hjoin; exact ⟨by omega, fun _ => hb⟩
    next =>
      split at hjoin
      next => cases hjoin; exact ⟨Nat.le_refl a, id⟩
      next => cases hjoin

theorem zero_notMem_joinReversed {as bs out : List Nat} (hjoin : joinReversed as bs = some out)
    (has : 0 ∉ as) (hbs : 0 ∉ bs) : 0 ∉ out := by
  induction as, bs using joinReversed.induct generalizing out with
  | case1 bs => cases hjoin; exact hbs
  | case2 as hne =>
      cases as with
      | nil => exact absurd rfl hne
      | cons a as => cases hjoin; exact has
  | case3 a as b bs ih =>
      simp only [List.mem_cons, not_or] at has hbs
      simp only [joinReversed, Option.bind_eq_bind, Option.bind_eq_some_iff] at hjoin
      obtain ⟨x, hx, xs, hxs, hout⟩ := hjoin
      cases hout
      rw [List.mem_cons, not_or]
      exact ⟨Ne.symm ((le_joinExtent hx (Ne.symm hbs.1)).2 (Ne.symm has.1)), ih hxs has.2 hbs.2⟩

theorem zero_notMem_zipWith {α β γ : Type} [Zero α] [Zero β] {f : α → β → γ} {a : Tensor α}
    {b : Tensor β} {t : Tensor γ} (ha : 0 ∉ a.shape) (hb : 0 ∉ b.shape)
    (hzip : zipWith f a b = .ok t) : 0 ∉ t.shape := by
  rw [zipWith] at hzip
  split at hzip
  next => cases hzip; exact ha
  next =>
    split at hzip
    next => cases hzip
    next out hout =>
      cases hzip
      have hjoined := zero_notMem_joinReversed hout (by simpa using ha) (by simpa using hb)
      exact fun hzero => hjoined (List.mem_reverse.mp hzero)

end Tensor

/-- Extents that reach still do after broadcasting with others of which none is zero. -/
theorem Reaches.join {rows columns : Nat} {shape other out : List Nat}
    (hreaches : Reaches rows columns shape) (hother : 0 ∉ other)
    (hjoin : Tensor.joinReversed shape.reverse other = some out) :
    Reaches rows columns out.reverse := by
  obtain ⟨front, r, c, rfl, hfront, hr, hc⟩ := hreaches
  simp only [List.reverse_append, List.reverse_cons, List.reverse_nil, List.nil_append,
    List.cons_append] at hjoin
  -- The last extent is joined first, then the one in front of it, then the others.
  rcases other with _ | ⟨b, _ | ⟨b', other⟩⟩
  · cases hjoin
    exact ⟨front, r, c, by simp, hfront, hr, hc⟩
  · simp only [Tensor.joinReversed, Option.bind_eq_bind, Option.bind_eq_some_iff] at hjoin
    obtain ⟨x, hx, xs, hxs, hout⟩ := hjoin
    cases hxs
    cases hout
    have hlast := (Tensor.le_joinExtent hx (by simpa [eq_comm] using hother)).1
    exact ⟨front, r, x, by simp, hfront, hr, Nat.le_trans hc hlast⟩
  · simp only [Tensor.joinReversed, Option.bind_eq_bind, Option.bind_eq_some_iff] at hjoin
    obtain ⟨x, hx, _, ⟨y, hy, xs, hxs, hrest⟩, hout⟩ := hjoin
    cases hrest
    cases hout
    simp only [List.mem_cons, not_or] at hother
    have hlast := (Tensor.le_joinExtent hx (Ne.symm hother.1)).1
    have hnext := (Tensor.le_joinExtent hy (Ne.symm hother.2.1)).1
    have hothers := Tensor.zero_notMem_joinReversed hxs (by simpa using hfront) hother.2.2
    exact ⟨xs.reverse, y, x, by simp, by simpa using hothers, Nat.le_trans hr hnext,
      Nat.le_trans hc hlast⟩

theorem Reaches.zipWith {α β γ : Type} [Zero α] [Zero β] {rows columns : Nat} {f : α → β → γ}
    {a : Tensor α} {b : Tensor β} {t : Tensor γ} (hreaches : Reaches rows columns a.shape)
    (hb : 0 ∉ b.shape)
    (hzip : Tensor.zipWith f a b = .ok t) : Reaches rows columns t.shape := by
  rw [Tensor.zipWith] at hzip
  split at hzip
  next => cases hzip; exact hreaches
  next =>
    split at hzip
    next => cases hzip
    next out hout =>
      cases hzip
      exact hreaches.join (by simpa using hb) hout

/-! ## Networks with stretched weights -/

namespace Update

variable {α β : Type} [Scalar α] [Add β] [Zero β] [Precision α β]

theorem reaches_addTo {rows columns : Nat} {weights sum : Tensor β} {update : Update α β}
    (hreaches : Reaches rows columns weights.shape)
    (hupdate : 0 ∉ update.shape) (hadd : addTo weights update = .ok sum) :
    Reaches rows columns sum.shape := by
  cases update with
  | stored matrix => exact hreaches.zipWith hupdate hadd
  | wide matrix =>
      rw [addTo, Check.bind_eq_ok_iff] at hadd
      obtain ⟨wide, hwide, hsum⟩ := hadd
      cases hsum
      have hweights : Reaches rows columns (weights.map (Precision.widen (α := α))).shape := hreaches
      exact Reaches.zipWith (t := wide) hweights hupdate hwide

end Update

namespace Step

variable {σ τ : Type}

/-- What a change of an item by its partner keeps, a change of all items keeps at every place,
whichever way it ends. -/
theorem combine_keeps {change : σ → τ → Except Fault σ} {good : Nat → σ → Prop} {partners : List τ}
    {items : List σ} (hitems : ∀ k item, items[k]? = some item → good k item)
    (hchange : ∀ k item item', ∀ partner ∈ partners, good k item →
      change item partner = .ok item' → good k item') :
    (after (combine change partners) items).length = items.length ∧
      ∀ k item, (after (combine change partners) items)[k]? = some item → good k item := by
  induction partners generalizing items good with
  | nil => exact ⟨rfl, hitems⟩
  | cons partner partners ih =>
      cases items with
      | nil => exact ⟨rfl, hitems⟩
      | cons item items =>
          simp only [after, combine]
          cases hfirst : change item partner with
          | error fault => exact ⟨rfl, hitems⟩
          | ok item' =>
              have hothers : ∀ (k : Nat) (other : σ), items[k]? = some other → good (k + 1) other :=
                fun k other hk => hitems (k + 1) other (by simpa using hk)
              obtain ⟨hlength, hrest⟩ := ih hothers fun k old new other hother =>
                hchange (k + 1) old new other (List.mem_cons_of_mem partner hother)
              have hhead : good 0 item' :=
                hchange 0 item item' partner List.mem_cons_self (hitems 0 item rfl) hfirst
              dsimp only
              rw [after_mapState]
              refine ⟨by rw [List.length_cons, hlength, List.length_cons], fun k other hk => ?_⟩
              cases k with
              | zero => cases hk; exact hhead
              | succ k => exact hrest k other (by simpa using hk)

end Step

namespace Network

variable {α β : Type} [Scalar α]

/-- All parts of the network that passes rely on describe the same layers, and the weights reach all
units. -/
structure Stretched (net : Network α β) : Prop where
  wellFormed : ∃ weights previous dropRate,
    { net with weights, previous, dropRate : Network α β }.WellFormed
  weights_length : net.weights.length = net.sizes.length - 1
  reaches : ∀ k matrix, net.weights[k]? = some matrix →
    Reaches (net.fedWidth (k + 1)) (net.width k) matrix.shape

theorem WellFormed.stretched {net : Network α β} (hnet : net.WellFormed) : net.Stretched where
  wellFormed := ⟨net.weights, net.previous, net.dropRate, hnet⟩
  weights_length := hnet.weights_length
  reaches k matrix hmatrix := by
    rw [hnet.weights_shape k matrix hmatrix]
    exact reaches_matrix _ _

namespace Stretched

variable {net : Network α β} (hnet : net.Stretched)

include hnet

theorem withWeights {weights : List (Tensor β)} (hlength : weights.length = net.weights.length)
    (hreaches : ∀ k matrix, weights[k]? = some matrix →
      Reaches (net.fedWidth (k + 1)) (net.width k) matrix.shape) :
    { net with weights : Network α β }.Stretched :=
  ⟨hnet.wellFormed, hlength.trans hnet.weights_length, hreaches⟩

/-- Other neurons may stand in the network, and all but the layers and the weights may change. -/
theorem of_layers {learningRate momentumWeight regularizationWeight dropRate trainingError : α}
    {cost : Cost α} {style : LearningStyle} {method : String} {transformer : Transformer α}
    {training : Bool} {previous : List (Tensor β)} {source : Generator} {arena : Option (Arena α)}
    (hcomplete : arena.isSome → net.outputLayer.isSome)
    (hfits : ∀ units, arena = some units → net.Fits units) :
    { net with
      learningRate, momentumWeight, regularizationWeight, cost, style, method, transformer
      dropRate, training, trainingError, previous, source, arena : Network α β }.Stretched := by
  obtain ⟨weights, previous, dropRate, hwell⟩ := hnet.wellFormed
  refine ⟨⟨weights, previous, dropRate, ?_⟩, hnet.weights_length, hnet.reaches⟩
  exact { hwell with
    arena_complete := hcomplete
    arena_fits := fun units harena => (hfits units harena).of_layers rfl rfl rfl }

theorem withRecords (trainingError : α) (previous : List (Tensor β)) :
    { net with trainingError, previous : Network α β }.Stretched := by
  obtain ⟨weights, previous, dropRate, hwell⟩ := hnet.wellFormed
  have hfits (arena : Arena α) (harena : net.arena = some arena) := hwell.arena_fits arena harena
  exact ⟨⟨weights, previous, dropRate, { hwell with
    arena_fits := fun arena harena => (hfits arena harena).of_layers rfl rfl rfl }⟩,
    hnet.weights_length, hnet.reaches⟩

theorem fits_units : net.Fits net.units := by
  obtain ⟨weights, previous, dropRate, hwell⟩ := hnet.wellFormed
  exact hwell.fits_units.of_layers rfl rfl rfl

theorem output_last {last : Nat} (houtput : net.outputLayer = some last) :
    last + 1 = net.sizes.length ∧ 1 ≤ last := by
  obtain ⟨weights, previous, dropRate, hwell⟩ := hnet.wellFormed
  exact hwell.output_last last houtput

theorem neurons_run {last : Nat} (houtput : net.outputLayer = some last) :
    neurons net = .ok net.units (net.withArena net.units) := by
  cases harena : net.arena with
  | some arena =>
      have hsame : net.withArena arena = net := by rw [withArena, ← harena]
      simp only [neurons, Step.bind_run, Step.get_run, Step.pure_run, harena, units,
        Option.getD_some, hsame]
  | none =>
      obtain ⟨weights, previous, dropRate, hwell⟩ := hnet.wellFormed
      have hlayers : ({ net with weights, previous, dropRate } : Network α β).buildArena =
          .ok net.built := buildArena_eq_ok hwell houtput
      have hbuilt : net.buildArena = .ok net.built := hlayers
      simp only [neurons, Step.bind_run, Step.get_run, Step.set_run, Step.lift_run,
        Step.pure_run, harena, hbuilt, units, Option.getD_none]
      rfl

/-- Behind a boundary there are units with incoming weights, and in front of it there is one besides
the bias unit. -/
theorem widths_pos {k : Nat} (hk : k + 1 < net.sizes.length) :
    0 < net.fedWidth (k + 1) ∧ 1 < net.width k := by
  obtain ⟨weights, previous, dropRate, hwell⟩ := hnet.wellFormed
  have hfront : k < net.sizes.length := Nat.lt_of_succ_lt hk
  have hhidden : net.isOutput k = false := by
    rw [isOutput, beq_eq_false_iff_ne]
    intro houtput
    have hlast := (hwell.output_last k houtput).1
    exact absurd hlast (Nat.ne_of_lt hk)
  have hleast := hwell.size_least k net.sizes[k] (List.getElem?_eq_getElem hfront)
  have hsame : ({ net with weights, previous, dropRate } : Network α β).isOutput k =
      net.isOutput k := rfl
  rw [hsame, hhidden, if_neg Bool.false_ne_true] at hleast
  refine ⟨hwell.fedWidth_pos hk, ?_⟩
  rw [width, List.getD_eq_getElem?_getD, List.getElem?_eq_getElem hfront, Option.getD_some]
  exact hleast

/-- No extent of the weights is zero. -/
theorem zero_notMem_shape {matrix : Tensor β} (hmatrix : matrix ∈ net.weights) :
    0 ∉ matrix.shape := by
  obtain ⟨k, hk⟩ := List.mem_iff_getElem?.mp hmatrix
  obtain ⟨hlt, _⟩ := List.getElem?_eq_some_iff.mp hk
  rw [hnet.weights_length] at hlt
  obtain ⟨hfed, hwidth⟩ := hnet.widths_pos (show k + 1 < net.sizes.length by omega)
  obtain ⟨front, r, c, hshape, hfront, hr, hc⟩ := hnet.reaches k matrix hk
  rw [hshape]
  simp only [List.mem_append, List.mem_cons, List.not_mem_nil, or_false, not_or]
  exact ⟨hfront, by omega, by omega⟩

/-- A new training flag keeps the weights. -/
theorem after_setTraining (training : Bool) :
    (Step.after (setTraining training) net).Stretched := by
  obtain ⟨weights, previous, dropRate, hwell⟩ := hnet.wellFormed
  exact ⟨⟨weights, previous, dropRate, hwell.after_setTraining training⟩, hnet.weights_length,
    hnet.reaches⟩

/-- Matrices with the same extents may be put in. -/
theorem withShapes {weights : List (Tensor β)}
    (hshapes : weights.map Tensor.shape = net.weights.map Tensor.shape) :
    { net with weights : Network α β }.Stretched := by
  refine hnet.withWeights (by simpa using congrArg List.length hshapes) fun k matrix hk => ?_
  have hmap := congrArg (·[k]?) hshapes
  simp only [List.getElem?_map, hk, Option.map_some] at hmap
  obtain ⟨old, hold, hshape⟩ := Option.map_eq_some_iff.mp hmap.symm
  rw [← hshape]
  exact hnet.reaches k old hold

/-- Updates without zero extents may be added, whichever way that ends. -/
theorem withUpdates [Add β] [Zero β] [Precision α β] {updates : List (Update α β)}
    (hupdates : ∀ update ∈ updates, 0 ∉ update.shape) :
    { net with
      weights := Step.after (Step.combine Update.addTo updates) net.weights
      : Network α β }.Stretched := by
  have hchange : ∀ (k : Nat) (matrix sum : Tensor β), ∀ update ∈ updates,
      Reaches (net.fedWidth (k + 1)) (net.width k) matrix.shape →
      Update.addTo matrix update = .ok sum →
      Reaches (net.fedWidth (k + 1)) (net.width k) sum.shape :=
    fun k matrix sum update hupdate hmatrix hadd =>
      Update.reaches_addTo hmatrix (hupdates update hupdate) hadd
  obtain ⟨hlength, hreaches⟩ := Step.combine_keeps hnet.reaches hchange
  exact hnet.withWeights hlength hreaches

end Stretched

end Network

end FeedForward
