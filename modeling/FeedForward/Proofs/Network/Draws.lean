import FeedForward.Proofs.Network.Primed
import FeedForward.Proofs.Network.Refusals
import FeedForward.Proofs.Random

/-!
# What a network draws

Every draw takes the random source of a network one step on. The weights of a layer that is added
are drawn row by row, and a pass that gets past its checks under training draws a mask for every
unit of the input layer, its bias unit included. Nothing else draws. The account of a network tells
these draws in their order and is read off the network without drawing anything. Weights may have
been stretched by updates that broadcast; how a pass ends that has drawn its masks plays no part.
-/

namespace FeedForward

/-- What is drawn in one go: the weights of a matrix, row by row, or the masks of some units. -/
inductive Draw where
  | weights (rows columns : Nat)
  | masks (units : Nat)
  deriving DecidableEq, Repr

namespace Draw

/-- How many draws these are. -/
def count : Draw → Nat
  | weights rows columns => rows * columns
  | masks units => units

/-- How many draws an account tells. -/
def total : List Draw → Nat
  | [] => 0
  | draw :: account => draw.count + total account

@[simp] theorem total_nil : total [] = 0 := rfl

@[simp] theorem total_cons (draw : Draw) (account : List Draw) :
    total (draw :: account) = draw.count + total account := rfl

@[simp] theorem total_append (account more : List Draw) :
    total (account ++ more) = total account + total more := by
  induction account with
  | nil => rw [List.nil_append, total_nil, Nat.zero_add]
  | cons draw account ih => rw [List.cons_append, total_cons, total_cons, ih, Nat.add_assoc]

end Draw

/-- What a step fails with, if it fails. -/
def Step.failure? {σ γ : Type} (act : Step σ γ) (s : σ) : Option Fault :=
  match act s with
  | .ok _ _ => none
  | .error fault _ => some fault

/-- Items that are changed one after the other may run out, or one of the changes fails. -/
theorem Step.Finds.combine {σ τ : Type} {kind : Fault → Prop} (hindex : kind .indexOutside)
    {change : σ → τ → Except Fault σ}
    (hchange : ∀ item partner, Check.Finds kind (change item partner)) (partners : List τ) :
    Step.Finds kind (Step.combine change partners) := by
  intro items
  induction partners generalizing items with
  | nil => exact fun fault t hrun => nomatch hrun
  | cons partner partners ih =>
      intro fault t hrun
      cases items with
      | nil => cases hrun; exact hindex
      | cons item items =>
          rw [Step.combine] at hrun
          cases hfirst : change item partner with
          | error cause =>
              rw [hfirst] at hrun
              cases hrun
              exact hchange item partner fault hfirst
          | ok sum =>
              rw [hfirst] at hrun
              cases hrest : Step.combine change partners items with
              | ok x rest => rw [hrest] at hrun; cases hrun
              | error cause rest => rw [hrest] at hrun; cases hrun; exact ih items fault rest hrest

namespace Network

variable {α β γ : Type}

/-- What a pass draws that gets past its checks. -/
def passDraws (net : Network α β) : List Draw :=
  if net.training then [.masks (net.width 0)] else []

/-- What a pass draws behind its checks. -/
def checkedDraws (net : Network α β) (check : Except Fault γ) : List Draw :=
  match check with
  | .ok _ => net.passDraws
  | .error _ => []

variable [Scalar α]

/-- What adding a layer draws: there is a matrix in front of every layer but the first. -/
def layerDraws (net : Network α β) (plan : LayerPlan) : List Draw :=
  match net.checkLayer plan, net.sizes.getLast? with
  | .ok _, some columns => [.weights plan.size.toNat columns]
  | _, _ => []

end Network

/-- What an operation draws of the network that it meets. -/
def Operation.draws {α β : Type} [Scalar α] (net : Network α β) : Operation α β → List Draw
  | addLayer plan => net.layerDraws plan
  | getOutput features => net.checkedDraws (net.checkFeatures features)
  | trainByInstance x _ | trainOnline x _ => net.checkedDraws (net.checkInstance x)
  | _ => []

namespace Network

variable {α β γ : Type} [Scalar α]

/-! ## Weights -/

omit [Scalar α] in
/-- Drawn weights stand row by row in the matrix. -/
theorem toList_drawWeights [Zero β] [Precision α β] (rows columns : Nat) (source : Generator) :
    (drawWeights α rows columns source : Tensor β × Generator).1.toList =
        (List.range (rows * columns)).map (fun k => Precision.centred α (source.skip k).bits.1) ∧
      (drawWeights α rows columns source : Tensor β × Generator).2 =
        source.skip (rows * columns) := by
  have hdraw (g : Generator) :
      Generator.weight α g = ((Precision.centred α g.bits.1 : β), g.step) := rfl
  have hcollect := Generator.collect_eq hdraw (rows * columns) source
  simp only [drawWeights, hcollect, Tensor.ofFn, Tensor.toList, and_true]
  refine List.ext_getElem (by simp [places]) fun k _ hk => ?_
  have hplace : k < rows * columns := by simpa using hk
  simp [hplace]

omit [Scalar α] in
theorem drawWeights_eq [Zero β] [Precision α β] (rows columns : Nat) (source : Generator) :
    ∃ matrix : Tensor β, drawWeights α rows columns source =
        (matrix, source.skip (rows * columns)) ∧ matrix.shape = [rows, columns] ∧
      ∀ row column, row < rows → column < columns → matrix.entry row column =
        .ok (Precision.centred α (source.skip (row * columns + column)).bits.1) := by
  obtain ⟨hlist, hsource⟩ := toList_drawWeights (α := α) (β := β) rows columns source
  refine ⟨(drawWeights α rows columns source).1, Prod.ext rfl hsource, rfl,
    fun row column hrow hcolumn => ?_⟩
  rw [Tensor.entry_eq_ok_iff rfl hrow hcolumn, hlist, List.getElem?_map,
    List.getElem?_range (Tensor.place_lt hrow hcolumn), Option.map_some]

/-! ## Masks -/

/-- Feeding an input layer under training draws a mask for each unit, which is dropped if the draw
is not below the rate at which units are kept. Otherwise nothing is drawn. -/
theorem feedInputs_drawn (keep : α) {training : Bool} {layer : List (Neuron α)}
    (hlayer : ∀ n ∈ layer, n.training = training) {values : List α}
    (hlength : layer.length ≤ values.length) (source : Generator) :
    (feedInputs keep layer values source).2 =
        source.skip (if training then layer.length else 0) ∧
      (feedInputs keep layer values source).1.map Neuron.dropped =
        (List.range layer.length).map fun k =>
          training && !Scalar.lt (Scalar.fraction (source.skip k).bits.1) keep := by
  induction layer generalizing values source with
  | nil =>
      cases values <;> cases training <;> exact ⟨(source.skip_zero).symm, rfl⟩
  | cons n layer ih =>
      cases values with
      | nil => simp at hlength
      | cons value values =>
          obtain ⟨hn, hrest⟩ := List.forall_mem_cons.mp hlayer
          have hcount : layer.length ≤ values.length := by simpa using hlength
          cases training with
          | false =>
              obtain ⟨hsource, hdropped⟩ := ih hrest hcount source
              simp only [feedInputs, feedInput, hn, Bool.false_eq_true, if_false, hsource, hdropped,
                List.map_cons, List.length_cons, List.range_succ_eq_map, List.map_map,
                Function.comp_def, Bool.false_and, Bool.not_true]
              exact ⟨trivial, trivial⟩
          | true =>
              obtain ⟨hsource, hdropped⟩ := ih hrest hcount source.step
              simp only [feedInputs, feedInput, hn, if_true, Generator.happens, hsource, hdropped,
                List.map_cons, List.length_cons, List.range_succ_eq_map, List.map_map,
                Generator.skip_succ, Generator.skip_zero, Function.comp_def, Bool.true_and]
              exact ⟨trivial, trivial⟩

/-! ## What does not draw -/

theorem keepsSource_restoreLayers [Zero β] (plan : TopologyPlan α β) :
    Step.Keeps source (restoreLayers plan : Step (Network α β) Unit) :=
  keeps_restoreLayers (fun _ _ => rfl) (fun _ _ _ => rfl) plan

theorem keepsSource_onArena (act : Step (Arena α) γ) :
    Step.Keeps source (onArena act : Step (Network α β) γ) :=
  keeps_onArena (fun _ _ => rfl) act

/-! ## Passes -/

/-- The input units that the next pass drops: under training each by its own draw, in their
order. -/
def nextDropped (net : Network α β) : List Bool :=
  (List.range (net.width 0)).map fun k =>
    net.training && !Scalar.lt (Scalar.fraction (net.source.skip k).bits.1) (1 - net.dropRate)

/-- Some draws have been made: the source stands behind them, and the input units are dropped as
they say. -/
structure Drawn (source : Generator) (dropped : List Bool) (net : Network α β) : Prop where
  source_eq : net.source = source
  dropped_eq : ∃ arena, net.arena = some arena ∧ (arena.headD []).map Neuron.dropped = dropped

omit [Scalar α] in
theorem dropped_of_flags {arena other : Arena α}
    (hflags : other.map (List.map Neuron.flags) = arena.map (List.map Neuron.flags)) :
    (other.headD []).map Neuron.dropped = (arena.headD []).map Neuron.dropped := by
  have hview (layers : Arena α) : (layers.headD []).map Neuron.dropped =
      ((layers.map (List.map Neuron.flags)).headD []).map Prod.snd := by
    cases layers <;> simp [Neuron.flags, Function.comp_def]
  rw [hview, hflags, ← hview]

omit [Scalar α] in
theorem total_passDraws (net : Network α β) :
    Draw.total net.passDraws = if net.training then net.width 0 else 0 := by
  rw [passDraws]
  split <;> rfl

section

variable {net : Network α β} (hcoherent : net.Coherent) (hprimed : net.Primed)

include hcoherent hprimed

/-- A forward run that values reach draws the masks of its input units, however it ends. -/
theorem forward_draws [Precision α β] {last : Nat} (hcomplete : net.checkComplete = .ok last)
    {values : List α} (hvalues : net.width 0 ≤ values.length) :
    Drawn (net.source.skip (Draw.total net.passDraws)) net.nextDropped
      (Step.after (forward values) net) := by
  obtain ⟨arena, hhand⟩ := hprimed.exists_atHand hcomplete
  have hcarry := hcoherent.atHand hhand
  have hlengths := hprimed.lengths_of_atHand hhand
  have hwidth : (arena.headD []).length = net.width 0 := by
    rw [width, ← hlengths]
    cases arena <;> rfl
  have hinputs : ∀ n ∈ arena.headD [], n.training = net.training := by
    cases arena with
    | nil => exact fun n hn => absurd hn List.not_mem_nil
    | cons layer rest => exact hcarry.training_eq layer List.mem_cons_self
  obtain ⟨hsource, hdropped⟩ :=
    feedInputs_drawn (1 - net.dropRate) hinputs (hwidth ▸ hvalues) net.source
  rw [Step.after, hhand.forward_run, Step.after_mapState]
  constructor
  case source_eq =>
    rw [total_passDraws, ← hwidth]
    exact hsource
  case dropped_eq =>
    refine ⟨_, rfl, ?_⟩
    rw [dropped_of_flags (keeps_forwardUnits _ Neuron.overlooks_flags _), nextDropped, ← hwidth,
      ← hdropped]
    change ((arena.set 0 _).headD []).map Neuron.dropped = _
    cases arena <;> rfl

theorem getOutput_drawn [Precision α β] {features : Table α} {vector : Tensor α}
    (hcheck : net.checkFeatures features = .ok vector) :
    Drawn (net.source.skip (Draw.total net.passDraws)) net.nextDropped
      (Step.after (getOutput features) net) := by
  obtain ⟨_, hcomplete, -⟩ := Check.bind_eq_ok_iff.mp hcheck
  rw [Step.after, getOutput_cases, hcheck]
  exact forward_draws hcoherent hprimed hcomplete
    (hprimed.width_le (length_of_checkFeatures hcheck) _)

end

section

variable [Add β] [Zero β] [Precision α β] {source : Generator} {dropped : List Bool}

omit [Scalar α] [Add β] [Zero β] [Precision α β] in
theorem Drawn.of_same {net other : Network α β} (hdrawn : Drawn source dropped net)
    (hsource : other.source = net.source) (harena : other.arena = net.arena) :
    Drawn source dropped other :=
  ⟨hsource.trans hdrawn.source_eq, harena ▸ hdrawn.dropped_eq⟩

theorem drawn_backward (labels : List α) (iteration : Int) :
    Step.Preserves (Drawn source dropped)
      (backward labels iteration : Step (Network α β) (List (Tensor β))) := by
  refine .bind .get fun net => .bind (fun other hother => ?_) fun _ =>
    .bind (.modify fun _ hdrawn => hdrawn.of_same rfl rfl) fun _ => .pure _
  obtain ⟨arena, harena, hdropped⟩ := hother.dropped_eq
  have hhand : other.AtHand arena := .inl harena
  refine ⟨(keepsSource_onArena _ other).trans hother.source_eq, ?_⟩
  rw [Step.after, hhand.onArena_run, Step.after_mapState]
  exact ⟨_, rfl, (dropped_of_flags
    (net.keeps_backwardUnits Neuron.overlooks_flags labels iteration arena)).trans hdropped⟩

variable {net : Network α β} (hcoherent : net.Coherent) (hprimed : net.Primed)
  {x : Instance α} {checked : Tensor α × Option (List α)}
  (hcheck : net.checkInstance x = .ok checked)

include hcoherent hprimed hcheck

/-- A training pass draws in its forward run only. -/
theorem trainByInstance_drawn (iteration : Int) :
    Drawn (net.source.skip (Draw.total net.passDraws)) net.nextDropped
      (Step.after (trainByInstance x iteration) net) := by
  obtain ⟨vector, label⟩ := checked
  obtain ⟨_, -, hrest⟩ := Check.bind_eq_ok_iff.mp hcheck
  obtain ⟨_, hcomplete, -⟩ := Check.bind_eq_ok_iff.mp hrest
  have hforward := forward_draws hcoherent hprimed hcomplete
    (hprimed.width_le (length_of_checkInstance hcheck) 1)
  rw [trainByInstance, Step.after_bind, Step.get_run]
  dsimp only
  rw [Step.after_bind, Step.lift_run, hcheck]
  dsimp only
  refine Step.after_bind_of hforward fun outputs fed _ hfed => ?_
  exact Step.Preserves.bind (.lift _) (fun _ =>
    .bind (.modify fun _ hdrawn => hdrawn.of_same rfl rfl) fun _ => drawn_backward _ _) fed hfed

theorem trainOnline_drawn (iteration : Int) :
    Drawn (net.source.skip (Draw.total net.passDraws)) net.nextDropped
      (Step.after (trainOnline x iteration) net) := by
  refine Step.after_bind_of (trainByInstance_drawn hcoherent hprimed hcheck iteration)
    fun updates trained _ htrained => ?_
  refine Step.Preserves.bind (fun other hother => ?_) (fun _ => .pure _) trained htrained
  have hbearings := keepsBearings_updateWeights (updates.map (Update.stored (α := α))) other
  simp only [bearings, Prod.mk.injEq] at hbearings
  exact hother.of_same hbearings.2.2.2.2.2 hbearings.2.2.2.2.1

end

/-! ## Operations -/

/-- An added layer draws the weights in front of it from where the source stands. -/
theorem addLayer_draws [Zero β] [Precision α β] {plan : LayerPlan} {net after : Network α β}
    {index columns : Nat} (hrun : addLayer plan net = .ok index after)
    (hcolumns : net.sizes.getLast? = some columns) :
    ∃ matrix : Tensor β, after.weights = net.weights ++ [matrix] ∧
      matrix.shape = [plan.size.toNat, columns] ∧
      ∀ row column, row < plan.size.toNat → column < columns → matrix.entry row column =
        .ok (Precision.centred α (net.source.skip (row * columns + column)).bits.1) := by
  obtain ⟨matrix, hdraw, hshape, hentries⟩ :=
    drawWeights_eq (α := α) (β := β) plan.size.toNat columns net.source
  rw [addLayer_run] at hrun
  split at hrun
  next =>
    cases hrun
    refine ⟨matrix, ?_, hshape, hentries⟩
    simp only [grow, hcolumns, addBoundary, hdraw]
  next => cases hrun

end Network

namespace Operation

variable {α β : Type} [Scalar α] [Add β] [Zero β] [Precision α β]

/-- What an operation fails with, if it fails. -/
def failure? (net : Network α β) : Operation α β → Option Fault
  | addLayer plan => (Network.addLayer plan).failure? net
  | restoreLayers plan => (Network.restoreLayers plan).failure? net
  | setWeightMatrix index table => (Network.setWeightMatrix index table).failure? net
  | updateWeights updates => (Network.updateWeights updates).failure? net
  | setTraining training => (Network.setTraining training).failure? net
  | setDropRate rate => (Network.setDropRate rate).failure? net
  | neurons => (Network.neurons).failure? net
  | getOutput features => (Network.getOutput features).failure? net
  | trainByInstance x iteration => (Network.trainByInstance x iteration).failure? net
  | trainOnline x iteration => (Network.trainOnline x iteration).failure? net

/-- What an operation draws of a network that complies. -/
def dues (net : Network α β) : Operation α β → List Draw
  | addLayer plan => (net.sizes.getLast?.map (Draw.weights plan.size.toNat)).toList
  | getOutput _ | trainByInstance _ _ | trainOnline _ _ => net.passDraws
  | _ => []

end Operation

namespace Network

variable {α β : Type} [Scalar α] [Add β] [Zero β] [Precision α β]

/-- One operation takes the source on by what its account tells, whether the network complies or
refuses. -/
theorem source_apply {net : Network α β} (hcoherent : net.Coherent) (hprimed : net.Primed)
    (operation : Operation α β) :
    (operation.apply net).source = net.source.skip (Draw.total (operation.draws net)) := by
  have hnothing {other : Network α β} (hsame : other.source = net.source) :
      other.source = net.source.skip (Draw.total []) := by
    rw [hsame, Draw.total_nil, Generator.skip_zero]
  cases operation with
  | addLayer plan =>
      change (Step.after (addLayer plan) net).source = net.source.skip
        (Draw.total (net.layerDraws plan))
      rw [Step.after, addLayer_run, layerDraws]
      cases net.checkLayer plan with
      | error fault => exact hnothing rfl
      | ok checked =>
          dsimp only
          rw [grow]
          cases net.sizes.getLast? with
          | none => exact hnothing rfl
          | some columns =>
              obtain ⟨matrix, hdraw, -⟩ :=
                drawWeights_eq (α := α) (β := β) plan.size.toNat columns net.source
              simp only [addBoundary, hdraw, Draw.total_cons, Draw.total_nil, Draw.count,
                Nat.add_zero]
  | restoreLayers plan => exact hnothing (keepsSource_restoreLayers plan net)
  | setWeightMatrix index table =>
      exact hnothing (source_of_bearings (keepsBearings_setWeightMatrix index table net))
  | updateWeights updates =>
      exact hnothing (source_of_bearings (keepsBearings_updateWeights updates net))
  | setTraining training => exact hnothing rfl
  | setDropRate rate => exact hnothing (source_of_bearings (keepsBearings_setDropRate rate net))
  | neurons => exact hnothing (keeps_neurons (fun _ _ => rfl) net)
  | getOutput features =>
      change (Step.after (getOutput features) net).source = net.source.skip
        (Draw.total (net.checkedDraws (net.checkFeatures features)))
      cases hcheck : net.checkFeatures features with
      | error fault =>
          refine hnothing ?_
          rw [Step.after, getOutput_cases, hcheck]
      | ok vector => exact (getOutput_drawn hcoherent hprimed hcheck).source_eq
  | trainByInstance x iteration =>
      change (Step.after (trainByInstance x iteration) net).source = net.source.skip
        (Draw.total (net.checkedDraws (net.checkInstance x)))
      cases hcheck : net.checkInstance x with
      | error fault =>
          refine hnothing ?_
          rw [Step.after, trainByInstance_refused hcheck]
      | ok checked => exact (trainByInstance_drawn hcoherent hprimed hcheck iteration).source_eq
  | trainOnline x iteration =>
      change (Step.after (trainOnline x iteration) net).source = net.source.skip
        (Draw.total (net.checkedDraws (net.checkInstance x)))
      cases hcheck : net.checkInstance x with
      | error fault =>
          refine hnothing ?_
          rw [Step.after, trainOnline_eq_error_iff.mpr (trainByInstance_refused hcheck iteration)]
      | ok checked => exact (trainOnline_drawn hcoherent hprimed hcheck iteration).source_eq

omit [Scalar α] [Add β] [Zero β] [Precision α β] in
theorem failure?_eq_some {act : Step (Network α β) γ} {net : Network α β} {fault : Fault}
    (hfault : act.failure? net = some fault) : ∃ after, act net = .error fault after := by
  rw [Step.failure?] at hfault
  cases hrun : act net with
  | ok x after => rw [hrun] at hfault; cases hfault
  | error cause after => rw [hrun] at hfault; cases hfault; exact ⟨after, rfl⟩

/-- Weights refuse updates for their number only: updates that do not fit are a mishap. -/
theorem updateWeights_refused {updates : List (Update α β)} {net after : Network α β}
    {fault : Fault} (hrun : updateWeights updates net = .error fault after) :
    fault.Mishap ∨ after = net := by
  have hadd (weights : Tensor β) (update : Update α β) :
      Check.Finds Fault.Mishap (update.addTo weights) := by
    cases update with
    | stored matrix => exact Tensor.zipWith_finds _ _ _
    | wide matrix => exact (Tensor.zipWith_finds _ _ _).bind fun _ => .ok _
  rcases Step.bind_eq_error hrun with hget | ⟨_, _, hget, hrun₁⟩
  · cases hget
  cases hget
  split at hrun₁
  next => cases hrun₁; exact .inr rfl
  next => exact .inl ((Step.Finds.combine Fault.mishap_indexOutside hadd updates).mapState hrun₁)

omit [Scalar α] [Add β] [Zero β] [Precision α β] in
theorem mem_checkedDraws {net : Network α β} {check : Except Fault γ} {draw : Draw}
    (hdraw : draw ∈ net.checkedDraws check) :
    net.training = true ∧ draw = .masks (net.width 0) ∧ ∃ x, check = .ok x := by
  cases check with
  | error fault => cases hdraw
  | ok x =>
      change draw ∈ net.passDraws at hdraw
      rw [passDraws] at hdraw
      split at hdraw
      next htraining => exact ⟨htraining, List.mem_singleton.mp hdraw, x, rfl⟩
      next => cases hdraw

/-- An operation whose account tells of masks drops the input units that they say, from where the
source stands, whichever way it ends. -/
theorem masks_drawn {net : Network α β} (hcoherent : net.Coherent) (hprimed : net.Primed)
    {operation : Operation α β} {units : Nat} (hmasks : .masks units ∈ operation.draws net) :
    Drawn (net.source.skip units)
      ((List.range units).map fun k =>
        !Scalar.lt (Scalar.fraction (net.source.skip k).bits.1) (1 - net.dropRate))
      (operation.apply net) := by
  have hpass {δ : Type} {check : Except Fault δ} (hdraw : .masks units ∈ net.checkedDraws check) :
      (∃ x, check = .ok x) ∧ units = Draw.total net.passDraws ∧
        ((List.range units).map fun k =>
          !Scalar.lt (Scalar.fraction (net.source.skip k).bits.1) (1 - net.dropRate)) =
          net.nextDropped := by
    obtain ⟨htraining, hunits, hchecked⟩ := mem_checkedDraws hdraw
    obtain rfl := Draw.masks.inj hunits
    refine ⟨hchecked, by rw [total_passDraws, if_pos htraining], ?_⟩
    simp only [nextDropped, htraining, Bool.true_and]
  cases operation with
  | addLayer plan =>
      change _ ∈ net.layerDraws plan at hmasks
      rw [layerDraws] at hmasks
      split at hmasks
      · cases List.mem_singleton.mp hmasks
      · cases hmasks
  | getOutput features =>
      obtain ⟨⟨vector, hcheck⟩, hunits, hdropped⟩ := hpass hmasks
      rw [hdropped, hunits]
      exact getOutput_drawn hcoherent hprimed hcheck
  | trainByInstance x iteration =>
      obtain ⟨⟨checked, hcheck⟩, hunits, hdropped⟩ := hpass hmasks
      rw [hdropped, hunits]
      exact trainByInstance_drawn hcoherent hprimed hcheck iteration
  | trainOnline x iteration =>
      obtain ⟨⟨checked, hcheck⟩, hunits, hdropped⟩ := hpass hmasks
      rw [hdropped, hunits]
      exact trainOnline_drawn hcoherent hprimed hcheck iteration
  | restoreLayers _ | setWeightMatrix _ _ | updateWeights _ | setTraining _ | setDropRate _
  | neurons => cases hmasks

/-- A network that refuses an operation for an argument that breaks a rule, or for a mode that is
not there, is the network that it was. -/
theorem apply_of_refused {net : Network α β} {operation : Operation α β}
    (hresolves : operation.Resolves) {fault : Fault}
    (hfault : operation.failure? net = some fault) (hrefused : ¬ fault.Mishap) :
    operation.apply net = net := by
  have hsame {δ : Type} {act : Step (Network α β) δ} {after : Network α β}
      (hrun : act net = .error fault after) (hafter : after = net) : Step.after act net = net := by
    rw [Step.after, hrun]
    exact hafter
  cases operation with
  | addLayer plan =>
      obtain ⟨after, hrun⟩ := failure?_eq_some hfault
      refine hsame hrun ?_
      rw [addLayer_run] at hrun
      split at hrun <;> cases hrun
      rfl
  | restoreLayers plan =>
      obtain ⟨after, hrun⟩ := failure?_eq_some hfault
      obtain ⟨activations, hactivations⟩ := mapM_resolveOrRefuse hresolves
      refine hsame hrun ?_
      rw [restoreLayers_stages, hactivations] at hrun
      split at hrun <;> cases hrun
      rfl
  | setWeightMatrix index table =>
      obtain ⟨after, hrun⟩ := failure?_eq_some hfault
      refine hsame hrun ?_
      rw [setWeightMatrix, Step.bind_run, Step.get_run] at hrun
      dsimp only at hrun
      cases hplace : if index < 0 then none else net.weights[index.toNat]? with
      | none => rw [hplace] at hrun; cases hrun; rfl
      | some current =>
          rw [hplace] at hrun
          rcases Step.bind_eq_error hrun with hline | ⟨matrix, _, hline, hrest⟩
          · exact (Step.lift_eq_error hline).2
          · obtain ⟨-, rfl⟩ := Step.lift_eq_ok hline
            by_cases hshape : matrix.shape ≠ current.shape
            · rw [if_pos hshape] at hrest
              cases hrest
              rfl
            · rw [if_neg hshape] at hrest
              cases hrest
  | updateWeights updates =>
      obtain ⟨after, hrun⟩ := failure?_eq_some hfault
      exact hsame hrun ((updateWeights_refused hrun).resolve_left hrefused)
  | setTraining training => cases hfault
  | setDropRate rate =>
      obtain ⟨after, hrun⟩ := failure?_eq_some hfault
      refine hsame hrun ?_
      rcases Step.bind_eq_error hrun with hcheck | ⟨_, _, -, hmodify⟩
      · exact (Step.lift_eq_error hcheck).2
      · cases hmodify
  | neurons =>
      obtain ⟨after, hrun⟩ := failure?_eq_some hfault
      refine hsame hrun ?_
      rcases net.bare_or_atHand with ⟨cause, hbare⟩ | ⟨arena, hhand⟩
      · rw [hbare.neurons_run] at hrun
        cases hrun
        rfl
      · rw [hhand.neurons_run] at hrun
        cases hrun
  | getOutput features =>
      obtain ⟨after, hrun⟩ := failure?_eq_some hfault
      exact hsame hrun ((mishap_or_refused_of_getOutput hrun).resolve_left hrefused).2
  | trainByInstance x iteration =>
      obtain ⟨after, hrun⟩ := failure?_eq_some hfault
      exact hsame hrun ((mishap_or_refused_of_trainByInstance hrun).resolve_left hrefused).2
  | trainOnline x iteration =>
      obtain ⟨after, hrun⟩ := failure?_eq_some hfault
      have hpass := trainOnline_eq_error_iff.mp hrun
      exact hsame hrun ((mishap_or_refused_of_trainByInstance hpass).resolve_left hrefused).2

theorem draws_of_refused {net : Network α β} {operation : Operation α β} {fault : Fault}
    (hfault : operation.failure? net = some fault) (hrefused : ¬ fault.Mishap) :
    operation.draws net = [] := by
  cases operation with
  | addLayer plan =>
      obtain ⟨after, hrun⟩ := failure?_eq_some hfault
      rw [addLayer_run] at hrun
      change net.layerDraws plan = []
      rw [layerDraws]
      cases hcheck : net.checkLayer plan with
      | error cause => rfl
      | ok checked => rw [hcheck] at hrun; cases hrun
  | getOutput features =>
      obtain ⟨after, hrun⟩ := failure?_eq_some hfault
      change net.checkedDraws (net.checkFeatures features) = []
      rw [((mishap_or_refused_of_getOutput hrun).resolve_left hrefused).1]
      rfl
  | trainByInstance x iteration =>
      obtain ⟨after, hrun⟩ := failure?_eq_some hfault
      change net.checkedDraws (net.checkInstance x) = []
      rw [((mishap_or_refused_of_trainByInstance hrun).resolve_left hrefused).1]
      rfl
  | trainOnline x iteration =>
      obtain ⟨after, hrun⟩ := failure?_eq_some hfault
      have hpass := trainOnline_eq_error_iff.mp hrun
      change net.checkedDraws (net.checkInstance x) = []
      rw [((mishap_or_refused_of_trainByInstance hpass).resolve_left hrefused).1]
      rfl
  | restoreLayers _ | setWeightMatrix _ _ | updateWeights _ | setTraining _ | setDropRate _
  | neurons => rfl

/-- An operation that a network complies with draws for a new layer that is not the first one, or
for a pass. -/
theorem draws_of_complied {net : Network α β} {operation : Operation α β}
    (hcomplied : operation.failure? net = none) : operation.draws net = operation.dues net := by
  have hchecked {δ ε : Type} {act : Step (Network α β) δ} {check : Except Fault ε}
      (hok : act.failure? net = none)
      (hrefuses : ∀ fault, check = .error fault → act net = .error fault net) :
      net.checkedDraws check = net.passDraws := by
    cases hcheck : check with
    | ok x => rfl
    | error fault =>
        rw [Step.failure?, hrefuses fault hcheck] at hok
        cases hok
  cases operation with
  | addLayer plan =>
      change (addLayer plan).failure? net = none at hcomplied
      change net.layerDraws plan = (net.sizes.getLast?.map _).toList
      rw [Step.failure?, addLayer_run] at hcomplied
      rw [layerDraws]
      cases hcheck : net.checkLayer plan with
      | error fault => rw [hcheck] at hcomplied; cases hcomplied
      | ok checked => cases net.sizes.getLast? <;> rfl
  | getOutput features => exact hchecked hcomplied fun _ => getOutput_refused
  | trainByInstance x iteration =>
      exact hchecked hcomplied fun _ hcheck => trainByInstance_refused hcheck iteration
  | trainOnline x iteration =>
      exact hchecked hcomplied fun _ hcheck =>
        trainOnline_eq_error_iff.mpr (trainByInstance_refused hcheck iteration)
  | restoreLayers _ | setWeightMatrix _ _ | updateWeights _ | setTraining _ | setDropRate _
  | neurons => rfl

end Network

end FeedForward
