import FeedForward.Proofs.Lockstep.Units
import FeedForward.Proofs.Network.Stretched

/-!
# Layers in lockstep

A forward run goes through the boundaries first to last and leaves equal outputs in every unit that
it has passed; a backward run goes through them last to first and leaves equal deltas, and equal
buffers in front of the output layer. What the units held before is never read. Each run starts
from units that were built alike and stays among those, also when it fails.
-/

namespace FeedForward

namespace Network

variable {α β : Type} [Scalar α]

/-! ## Rows that cannot be read -/

section

variable [Precision α β] {weights : Tensor β}

/-- Where there is more than one number at every place of a row, its stream is cut at once. -/
theorem exists_incoming_cut {r c : Nat} {inner : List Nat}
    (hshape : weights.shape = r :: c :: inner)
    (hcolumns : 0 < c) (hinner : places inner ≠ 1) (outputs : Array α) (row : Nat) :
    ∃ fault, SynapseStream.incoming weights outputs row = .ok ⟨[], some fault⟩ := by
  obtain ⟨fault, hentry⟩ : ∃ fault, weights.entry row 0 = .error fault := by
    rw [Tensor.entry, hshape]
    dsimp only
    split
    next =>
      split
      next hone _ => exact absurd hone hinner
      next => exact ⟨_, rfl⟩
    next => exact ⟨_, rfl⟩
  obtain ⟨last, rfl⟩ : ∃ last, c = last + 1 := ⟨c - 1, by omega⟩
  simp only [SynapseStream.incoming, Tensor.columns, hshape, bind, Except.bind,
    List.range_succ_eq_map, SynapseStream.deliver, hentry]
  cases SynapseStream.unitAt outputs 0 with
  | ok value => exact ⟨fault, rfl⟩
  | error fault => exact ⟨fault, rfl⟩

/-- So no unit can be computed from it. -/
theorem forwardRow_ne_ok {r c : Nat} {inner : List Nat} (hshape : weights.shape = r :: c :: inner)
    (hcolumns : 0 < c) (hinner : places inner ≠ 1) {outputs : Array α} {row : Nat}
    {n after : Neuron α} : forwardRow weights outputs row n ≠ .ok () after := by
  intro hrun
  obtain ⟨fault, hcut⟩ := exists_incoming_cut hshape hcolumns hinner outputs row
  obtain ⟨stream, _, hlift, hforward⟩ := Step.bind_eq_ok hrun
  obtain ⟨hstream, rfl⟩ := Step.lift_eq_ok hlift
  rw [hcut, Except.ok.injEq] at hstream
  subst hstream
  simp only [Neuron.forward, Step.bind_run, Step.get_run] at hforward
  cases hrule : n.rule with
  | none => rw [hrule] at hforward; cases hforward
  | some rule => rw [hrule] at hforward; cases hforward

end

/-! ## Forward -/

section

variable [Precision α β]

/-- Units are normalised together when their outputs are settled. -/
theorem agree_normalise (count : Nat) {layer other : List (Neuron α)}
    (hunits : Places (fun _ => Neuron.Settled) layer other) :
    Step.Agree (Places fun _ => Neuron.Settled) (Places fun _ => Neuron.Akin True)
      (normalise count layer) (normalise count other) := by
  have houtputs : outputsOf (other.take count) = outputsOf (layer.take count) :=
    (hunits.take count).map_eq fun _ n m hnm => by
      obtain ⟨_, _, rfl⟩ := hnm
      rfl
  have hakin : Places (fun _ => Neuron.Akin True) layer other :=
    hunits.mono fun _ _ _ hnm => hnm.akin
  have hvisit (shares : List α) : Step.Agree (Places fun _ => Neuron.Settled)
      (Places fun _ => Neuron.Akin True)
      (Step.visit (fun i => do Neuron.feedforward (← SynapseStream.unitAt shares.toArray i)) count 0
        layer)
      (Step.visit (fun i => do Neuron.feedforward (← SynapseStream.unitAt shares.toArray i)) count 0
        other) := by
    refine .visit hunits (fun k n m _ hnm => ?_) (fun _ _ _ _ _ hnm => hnm)
      (fun _ _ _ hnm => hnm.akin) fun _ _ _ hnm => hnm.akin
    exact .lift_bind hnm.akin fun share _ => Neuron.agree_feedforward share hnm.akin
  rw [normalise, Step.bind_run, Step.get_run, Step.bind_run, Step.get_run]
  dsimp only
  rw [houtputs]
  exact .lift_bind hakin fun shares _ => .bind (hvisit shares) fun _ _ _ hdone => .ok hdone

/-- Units of a layer that were built alike and are settled behind the first ones. -/
def SettledBehind (bias k : Nat) (n m : Neuron α) : Prop :=
  Neuron.Akin True n m ∧ (bias ≤ k → Neuron.Settled n m)

/-- Computing rows settles the units behind the bias, if the rows go through all of them: a unit
that can be computed shows that they do. -/
theorem agree_rows {bias rows : Nat} {weights : Tensor β} {outputs : Array α}
    {layer other : List (Neuron α)} (hlength : bias ≤ layer.length) (hrows : 0 < rows)
    (hall : ∀ row n after, forwardRow weights outputs row n = .ok () after →
      layer.length ≤ bias + rows)
    (hunits : Places (fun _ => Neuron.Akin True) layer other) :
    Step.Agree (Places (SettledBehind bias)) (Places fun _ => Neuron.Akin True)
      (Step.beyond (Step.visit (forwardRow weights outputs) rows 0) bias layer)
      (Step.beyond (Step.visit (forwardRow weights outputs) rows 0) bias other) := by
  have hvisit : Step.Agree
      (Places fun k n m => Neuron.Akin True n m ∧
        (k < rows → Neuron.Settled n m ∧ layer.length ≤ bias + rows))
      (Places fun _ => Neuron.Akin True)
      (Step.visit (forwardRow weights outputs) rows 0 (layer.drop bias))
      (Step.visit (forwardRow weights outputs) rows 0 (other.drop bias)) := by
    refine .visit (hunits.drop bias) (fun k n m hk hnm => ?_)
      (fun k n m hk _ hnm => ⟨hnm, fun hlt => absurd hlt (Nat.not_lt.mpr hk)⟩)
      (fun _ _ _ hnm => hnm) (fun _ _ _ hnm => hnm.1)
    have hrow := (agree_forwardRow weights outputs k hnm).and_of_ok fun _ after hrun =>
      hall k n after hrun
    exact hrow.mono (fun a b hab => ⟨hab.1.akin, fun _ => hab⟩) fun _ _ hab => hab
  refine .beyond hunits hlength ?_
    (fun k n m hk hnm => ⟨hnm, fun hle => absurd hk (Nat.not_lt.mpr hle)⟩) fun _ _ _ _ hnm => hnm
  refine (hvisit.keep
    (.visit (keeps_forwardRow Neuron.overlooks_fresh weights outputs) rows 0)).mono
    (fun units others hdone => ?_) fun _ _ hdone => hdone.2
  obtain ⟨hfresh, hdone⟩ := hdone
  have hsame := congrArg List.length hfresh
  rw [List.length_map, List.length_map, List.length_drop] at hsame
  rcases hdone.getElem? 0 with ⟨hnone, _⟩ | ⟨n, m, _, _, hnm⟩
  · have hempty : units.length = 0 := by simpa using hnone
    exact hdone.mono_of_lt fun k _ _ hk => absurd hk (by omega)
  · have hcover := (hnm.2 hrows).2
    exact hdone.mono_of_lt fun k _ _ hk hab => ⟨hab.1, fun _ => (hab.2 (by omega)).1⟩

omit [Precision α β] in
/-- The bias unit is settled last, where there is one. -/
theorem agree_bias (net : Network α β) (layer : Nat) {units others : List (Neuron α)}
    (hdone : Places (SettledBehind (net.biasUnits layer)) units others) :
    Step.Agree (Places fun _ => Neuron.Settled) (Places fun _ => Neuron.Akin True)
      ((if !net.isOutput layer then Step.onItem (Neuron.feedforward 1) 0 else pure () :
        Step (List (Neuron α)) Unit) units)
      ((if !net.isOutput layer then Step.onItem (Neuron.feedforward 1) 0 else pure () :
        Step (List (Neuron α)) Unit) others) := by
  refine .ite (fun hhidden => ?_) fun houtput => ?_
  · have hone : net.biasUnits layer = 1 := if_neg (by simpa using hhidden)
    rw [hone] at hdone
    exact .onItem hdone (fun n m hnm => Neuron.agree_feedforward 1 hnm.1)
      (fun k n m hk hnm => hnm.2 (Nat.pos_of_ne_zero hk)) fun _ _ _ hnm => hnm.1
  · have hzero : net.biasUnits layer = 0 := if_pos (by simpa using houtput)
    rw [hzero] at hdone
    exact .ok (hdone.mono fun k _ _ hnm => hnm.2 (Nat.zero_le k))

/-- A layer whose units were built alike is settled by a run forward, if that goes through all units
with incoming weights. -/
theorem agree_forwardLayer (net : Network α β) {boundary rows : Nat} {weights : Tensor β}
    {outputs : Array α} {layer other : List (Neuron α)}
    (hlength : net.biasUnits (boundary + 1) ≤ layer.length) (hrows : 0 < rows)
    (hall : ∀ row n after, forwardRow weights outputs row n = .ok () after →
      layer.length ≤ net.biasUnits (boundary + 1) + rows)
    (hunits : Places (fun _ => Neuron.Akin True) layer other) :
    Step.Agree (Places fun _ => Neuron.Settled) (Places fun _ => Neuron.Akin True)
      (net.forwardLayer boundary rows weights outputs layer)
      (net.forwardLayer boundary rows weights outputs other) := by
  have hrun := ((agree_rows hlength hrows hall hunits).keep
    (.beyond (.visit (keeps_forwardRow Neuron.overlooks_fresh weights outputs) rows 0) _)).mono
      (fun _ _ hdone => hdone) fun _ _ hdone => hdone.2
  refine .bind hrun fun _ units others hdone => ?_
  obtain ⟨hfresh, hdone⟩ := hdone
  have hsame := congrArg List.length hfresh
  rw [List.length_map, List.length_map] at hsame
  refine .lift_bind (hdone.mono fun _ _ _ hnm => hnm.1) fun activation _ => ?_
  refine .ite (fun _ => .bind ?_ fun _ _ _ => net.agree_bias _) fun _ => net.agree_bias _ hdone
  refine .beyond hdone (hsame ▸ hlength) ?_ (fun _ _ _ _ hnm => hnm) fun _ _ _ _ hnm => hnm.1
  have hbehind := (hdone.drop (net.biasUnits (boundary + 1))).mono fun k _ _ hnm =>
    hnm.2 (Nat.le_add_left _ k)
  exact (agree_normalise rows hbehind).mono
    (fun _ _ hshares => hshares.mono fun _ _ _ hnm => ⟨hnm.akin, fun _ => hnm⟩) fun _ _ hab => hab

/-! ## Runs over all layers -/

/-- Neurons related place by place, by a relation for each layer. -/
def Related (unit : Nat → Neuron α → Neuron α → Prop) : Arena α → Arena α → Prop :=
  Places fun k => Places fun _ => unit k

/-- Neurons that were built alike, and are dropped alike behind the input layer. -/
def AkinAt (k : Nat) : Neuron α → Neuron α → Prop := Neuron.Akin (0 < k)

/-- Neurons that were built alike and are settled up to a layer. -/
def SettledTo (reached k : Nat) (n m : Neuron α) : Prop :=
  AkinAt k n m ∧ (k ≤ reached → Neuron.Settled n m)

omit [Scalar α] in
theorem Related.mono {unit unit' : Nat → Neuron α → Neuron α → Prop} {arena other : Arena α}
    (hunits : Related unit arena other) (hunit : ∀ k n m, unit k n m → unit' k n m) :
    Related unit' arena other :=
  Places.mono hunits fun k _ _ hlayer => hlayer.mono fun _ n m hnm => hunit k n m hnm

omit [Scalar α] in
/-- A view of the units of one layer. -/
theorem Related.getD_map_eq {κ : Type} {unit : Nat → Neuron α → Neuron α → Prop}
    {arena other : Arena α} (hunits : Related unit arena other) (k : Nat) {view : Neuron α → κ}
    (hview : ∀ n m, unit k n m → view m = view n) :
    (other.getD k []).map view = (arena.getD k []).map view := by
  rw [List.getD_eq_getElem?_getD, List.getD_eq_getElem?_getD]
  rcases Places.getElem? hunits k with ⟨hnone, hother⟩ | ⟨layer, otherLayer, hlayer, hother, hsame⟩
  · rw [hnone, hother]
  · rw [hlayer, hother]
    exact hsame.map_eq fun _ => hview

section

variable {net : Network α β} (hnet : net.Stretched)

include hnet

/-- A row of the weights can be computed only if rows go through all units behind the boundary. -/
theorem Stretched.width_le_of_forwardRow {boundary rows row : Nat}
    (hboundary : boundary + 1 < net.sizes.length)
    {weights : Tensor β} (hweights : net.weights[boundary]? = some weights)
    (hrows : weights.rows = .ok rows) {outputs : Array α} {n after : Neuron α}
    (hrun : forwardRow weights outputs row n = .ok () after) :
    net.width (boundary + 1) ≤ net.biasUnits (boundary + 1) + rows := by
  obtain ⟨hfed, hwidth⟩ := hnet.widths_pos hboundary
  rcases (hnet.reaches boundary weights hweights).cases hfed hwidth with
    ⟨r, c, hshape, hr, _⟩ | ⟨r, c, inner, hshape, _, hc, hinner⟩
  · rw [Tensor.rows, hshape, Except.ok.injEq] at hrows
    rw [fedWidth] at hr
    omega
  · exact absurd hrun (forwardRow_ne_ok hshape hc hinner)

omit [Precision α β] in
theorem Stretched.rows_pos {boundary rows : Nat} (hboundary : boundary + 1 < net.sizes.length)
    {weights : Tensor β} (hweights : net.weights[boundary]? = some weights)
    (hrows : weights.rows = .ok rows) : 0 < rows := by
  obtain ⟨hfed, hwidth⟩ := hnet.widths_pos hboundary
  rcases (hnet.reaches boundary weights hweights).cases hfed hwidth with
    ⟨r, c, hshape, hr, _⟩ | ⟨r, c, inner, hshape, hr, _, _⟩
  · rw [Tensor.rows, hshape, Except.ok.injEq] at hrows
    omega
  · rw [Tensor.rows, hshape, Except.ok.injEq] at hrows
    omega

theorem Stretched.agree_forwardBoundary {boundary : Nat}
    (hboundary : boundary + 1 < net.sizes.length)
    {arena other : Arena α} (hfits : net.Fits arena)
    (hunits : Related (SettledTo boundary) arena other) :
    Step.Agree (Related (SettledTo (boundary + 1))) (Related AkinAt)
      (net.forwardBoundary boundary arena) (net.forwardBoundary boundary other) := by
  have hakin : Related AkinAt arena other := hunits.mono fun _ _ _ hnm => hnm.1
  have houtputs : outputsOf (other.getD boundary []) = outputsOf (arena.getD boundary []) :=
    hunits.getD_map_eq boundary fun n m hnm => by
      obtain ⟨_, _, rfl⟩ := hnm.2 (Nat.le_refl boundary)
      rfl
  refine .lift_bind hakin fun weights hitem => .lift_bind hakin fun rows hrows => ?_
  rw [Step.bind_run, Step.get_run, Step.bind_run, Step.get_run]
  dsimp only
  rw [houtputs]
  have hweights := itemAt_eq_ok_iff.mp hitem
  refine .onItem (Places.and_of hunits hfits.layer_length) (fun layer others hlayer => ?_)
    (fun k layer others hk hlayer => ?_)
    fun k layer others hlayer => hlayer.2.mono fun _ _ _ hnm => hnm.1
  · obtain ⟨hlength, hlayer⟩ := hlayer
    have hbias : net.biasUnits (boundary + 1) ≤ layer.length := by
      obtain ⟨_, _, _, hwell⟩ := hnet.wellFormed
      rw [hlength]
      exact Nat.le_of_lt (hwell.biasUnits_lt_width hboundary)
    have hunits : Places (fun _ => Neuron.Akin True) layer others :=
      hlayer.mono fun _ _ _ hnm => hnm.1.imp fun _ => Nat.succ_pos boundary
    refine (net.agree_forwardLayer hbias (hnet.rows_pos hboundary hweights hrows)
      (fun row n after hrun => ?_) hunits).mono
      (fun _ _ hdone => hdone.mono fun _ _ _ hnm => ⟨hnm.akin, fun _ => hnm⟩)
      fun _ _ hdone => hdone.mono fun _ _ _ hnm => hnm.imp fun _ => trivial
    rw [hlength]
    exact hnet.width_le_of_forwardRow hboundary hweights hrows hrun
  · exact hlayer.2.mono fun _ _ _ hnm => ⟨hnm.1, fun hle => hnm.2 (by omega)⟩

/-- A run over neighbouring boundaries, from one that has been reached. -/
theorem Stretched.agree_forwardBoundaries {start count : Nat}
    (hlast : start + count < net.sizes.length) {arena other : Arena α} (hfits : net.Fits arena)
    (hunits : Related (SettledTo start) arena other) :
    Step.Agree (Related (SettledTo (start + count))) (Related AkinAt)
      (net.forwardBoundaries (List.range' start count) arena)
      (net.forwardBoundaries (List.range' start count) other) := by
  induction count generalizing start arena other with
  | zero => exact .ok hunits
  | succ count ih =>
      have hfirst := (hnet.agree_forwardBoundary (by omega) hfits hunits).keep
        (net.keeps_forwardBoundary Neuron.overlooks_fresh start)
      refine .bind (hfirst.mono (fun _ _ hdone => hdone) fun _ _ hdone => hdone.2)
        fun _ middle otherMiddle hdone => ?_
      have hrest := @ih (start + 1) (by omega) _ _ (hfits.of_fresh hdone.1) hdone.2
      rwa [Nat.add_assoc, Nat.add_comm 1 count] at hrest

/-- A run forward from an input layer that is settled. -/
theorem Stretched.agree_forwardUnits {arena other : Arena α} (hfits : net.Fits arena)
    (hcomplete : 0 < net.sizes.length) (hunits : Related (SettledTo 0) arena other) :
    Step.Agree (Related fun _ => Neuron.Settled) (Related AkinAt) (net.forwardUnits arena)
      (net.forwardUnits other) := by
  have hlast : 0 + (net.sizes.length - 1) < net.sizes.length := by omega
  have hrun := (hnet.agree_forwardBoundaries hlast hfits hunits).keep
    (net.keeps_forwardBoundaries Neuron.overlooks_fresh _)
  rw [← List.range_eq_range'] at hrun
  refine .bind (hrun.mono (fun _ _ hdone => hdone) fun _ _ hdone => hdone.2)
    fun _ middle otherMiddle hdone => ?_
  obtain ⟨hfresh, hdone⟩ := hdone
  have hlength := (hfits.of_fresh hfresh).length_eq
  have hsettled : Related (fun _ => Neuron.Settled) middle otherMiddle :=
    Places.mono_of_lt hdone fun k _ _ hk hlayer => hlayer.mono fun _ _ _ hnm => hnm.2 (by omega)
  have hakin : Related AkinAt middle otherMiddle := hdone.mono fun _ _ _ hnm => hnm.1
  simp only [Step.bind_run, Step.get_run, Step.lift_run, itemAt]
  rcases Places.getElem? hsettled (net.outputLayer.getD 0) with
    ⟨hnone, hother⟩ | ⟨layer, otherLayer, hlayer, hother, hsame⟩
  · rw [hnone, hother]
    exact .error hakin
  · have houtputs : outputsOf otherLayer = outputsOf layer := hsame.map_eq fun _ n m hnm => by
      obtain ⟨_, _, rfl⟩ := hnm
      rfl
    rw [hlayer, hother]
    simp only [Step.pure_run, houtputs]
    exact .ok hsettled

end

end

/-! ## Backward -/

/-- Units that are settled and that a run backward has left equal from some layer on, where those
of the last layer may differ in the buffer. -/
def TrainedFrom (reached last k : Nat) (n m : Neuron α) : Prop :=
  Neuron.Settled n m ∧ (reached ≤ k → k ≤ last → Neuron.Seeded n m) ∧
    (reached ≤ k → k < last → m = n)

section

variable [Precision α β] [Zero β] {net : Network α β} {last : Nat}

theorem agree_seedDeltas [Add β] (houtput : net.outputLayer = some last) (labels : List α)
    {arena other : Arena α} (hunits : Related (fun _ => Neuron.Settled) arena other) :
    Step.Agree (Related (TrainedFrom last last)) (Related fun _ => Neuron.Settled)
      (net.seedDeltas labels arena) (net.seedDeltas labels other) := by
  refine .lift_bind hunits fun activation _ => .lift_bind hunits fun weights _ => ?_
  rw [houtput, Option.getD_some]
  refine .onItem hunits (fun layer others hlayer => ?_) (fun k layer others hk hlayer => ?_)
    fun _ _ _ hlayer => hlayer
  · rw [Step.bind_run, Step.get_run, Step.bind_run, Step.get_run]
    dsimp only
    rw [hlayer.length_eq]
    refine .bind (.visit hlayer (fun i n m _ hnm => ?_)
      (fun i _ _ hi hlt => absurd hlt (Nat.not_lt.mpr hi)) (fun _ _ _ hnm => hnm)
      fun _ _ _ hnm => hnm.1) fun _ _ _ hdone => .ok hdone
    refine (net.agree_seedDelta activation weights labels.toArray i hnm).mono
      (fun _ _ hab => ⟨hab.settled, fun _ _ => hab, fun _ hlt => ?_⟩) fun _ _ hab => hab
    exact absurd hlt (Nat.lt_irrefl last)
  · refine hlayer.mono fun _ _ _ hnm => ⟨hnm, fun hle hge => ?_, fun hle hlt => ?_⟩
    · exact absurd (Nat.le_antisymm hge hle) hk
    · exact absurd hlt (Nat.not_lt.mpr hle)

omit [Scalar α] [Precision α β] [Zero β] in
/-- The deltas behind a boundary that a run backward has reached. -/
theorem deltasBehindBias_eq {reached : Nat} (hreached : reached ≤ last) {arena other : Arena α}
    (hunits : Related (TrainedFrom reached last) arena other) :
    net.deltasBehindBias other reached = net.deltasBehindBias arena reached := by
  rw [deltasBehindBias, deltasBehindBias, itemAt, itemAt]
  rcases Places.getElem? hunits reached with
    ⟨hnone, hother⟩ | ⟨layer, otherLayer, hlayer, hother, hsame⟩
  · rw [hnone, hother]
  · have hdeltas : otherLayer.map Neuron.delta = layer.map Neuron.delta :=
      hsame.map_eq fun _ n m hnm => by
        obtain ⟨_, rfl⟩ := hnm.2.1 (Nat.le_refl reached) hreached
        rfl
    rw [hlayer, hother]
    change Except.ok _ = Except.ok _
    rw [List.map_drop, List.map_drop, hdeltas]

omit [Precision α β] [Zero β] in
theorem Stretched.width_le_of_matrixShape (hnet : net.Stretched) {boundary rows columns : Nat}
    {weights : Tensor β} (hweights : net.weights[boundary]? = some weights)
    (hshape : weights.matrixShape = .ok (rows, columns)) : net.width boundary ≤ columns := by
  obtain ⟨front, r, c, hextents, _, _, hc⟩ := hnet.reaches boundary weights hweights
  rw [Tensor.shape_of_matrixShape hshape] at hextents
  rcases front with _ | ⟨x, _ | ⟨y, front⟩⟩
  · cases hextents
    exact hc
  · cases hextents
  · cases front <;> cases hextents

/-- A run over a boundary backward leaves the units in front of it equal. -/
theorem Stretched.agree_backwardBoundary (hnet : net.Stretched) {boundary : Nat}
    (hboundary : boundary + 1 ≤ last) (iteration : Int)
    {arena other : Arena α} (hfits : net.Fits arena)
    (hunits : Related (TrainedFrom (boundary + 1) last) arena other) :
    Step.Agree (Related (TrainedFrom boundary last)) (Related fun _ => Neuron.Settled)
      (net.backwardBoundary iteration boundary arena)
      (net.backwardBoundary iteration boundary other) := by
  have hsettled : Related (fun _ => Neuron.Settled) arena other :=
    hunits.mono fun _ _ _ hnm => hnm.1
  refine .lift_bind hsettled fun weights hitem => .lift_bind hsettled fun shape hshape => ?_
  obtain ⟨rows, columns⟩ := shape
  have hcolumns := hnet.width_le_of_matrixShape (itemAt_eq_ok_iff.mp hitem) hshape
  dsimp only
  rw [Step.bind_run, Step.get_run, Step.bind_run, Step.get_run]
  dsimp only
  rw [deltasBehindBias_eq hboundary hunits]
  refine .bind (.onItem (Places.and_of hunits hfits.layer_length) (fun layer others hlayer => ?_)
    (fun k layer others hk hlayer => ?_) fun k layer others hlayer =>
      hlayer.2.mono fun _ _ _ hnm => hnm.1) fun _ _ _ hdone => .ok hdone
  · obtain ⟨hlength, hlayer⟩ := hlayer
    refine .visit hlayer (fun i n m _ hnm => ?_)
      (fun i _ _ hi hlt => absurd hlt (by omega)) (fun _ _ _ hnm => hnm.1) fun _ _ _ hnm => hnm.1
    refine (agree_backwardColumn weights _ _ rows iteration i hnm.1).mono (fun n m hsame => ?_)
      fun _ _ hab => hab
    cases hsame
    exact ⟨.refl n, fun _ _ => ⟨n.buffer, rfl⟩, fun _ _ => rfl⟩
  · refine hlayer.2.mono fun _ _ _ hnm => ⟨hnm.1, fun hle hge => ?_, fun hle hlt => ?_⟩
    · exact hnm.2.1 (by omega) hge
    · exact hnm.2.2 (by omega) hlt

/-- A run over the first boundaries backward, given that those behind them have been reached. -/
theorem Stretched.agree_backwardBoundaries (hnet : net.Stretched) {count : Nat}
    (hcount : count ≤ last) (iteration : Int)
    (done : List (Tensor β)) {arena other : Arena α} (hfits : net.Fits arena)
    (hunits : Related (TrainedFrom count last) arena other) :
    Step.Agree (Related (TrainedFrom 0 last)) (Related fun _ => Neuron.Settled)
      (net.backwardBoundaries iteration count done arena)
      (net.backwardBoundaries iteration count done other) := by
  induction count generalizing done arena other with
  | zero => exact .ok hunits
  | succ count ih =>
      have hfirst := (hnet.agree_backwardBoundary hcount iteration hfits hunits).keep
        (net.keeps_backwardBoundary Neuron.overlooks_fresh iteration count)
      exact .bind (hfirst.mono (fun _ _ hdone => hdone) fun _ _ hdone => hdone.2)
        fun _ middle otherMiddle hdone =>
          ih (by omega) _ (hfits.of_fresh hdone.1) hdone.2

end

end Network

end FeedForward
