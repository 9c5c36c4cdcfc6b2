import FeedForward.Proofs.Dense.Totality

/-!
# Dropped inputs are silent

The masks of a training pass are drawn from the random source alone, whatever the features are. A
dropped unit puts out its value times zero, so training cannot tell apart features that differ only
where units are dropped. On the way back a dropped unit takes no part: it has a zero for a delta,
and its column of the first update is zero, whatever momentum and last updates are. The columns of
the other units are steps down the gradient with their share of the last update. Nothing is said
about drops behind the input layer, which no pass makes.
-/

namespace FeedForward.Network

variable {α β : Type} [Scalar α]

/-! ## Features that differ in dropped places -/

omit [Scalar α] in
/-- A label that passes the check of a supervised network is there. -/
theorem exists_of_checkLabel {net : Network α β} (hstyle : net.style = .supervised) {width : Nat}
    {given : Option (Table α)} {label : Option (List α)}
    (hlabel : net.checkLabel width given = .ok label) : ∃ xs, label = some xs := by
  cases given with
  | none => simp only [checkLabel, hstyle] at hlabel; cases hlabel
  | some table =>
      simp only [checkLabel, hstyle, Check.throw_bind] at hlabel
      obtain ⟨⟨_, xs⟩, -, hcount⟩ := Check.bind_eq_ok_iff.mp hlabel
      split at hcount
      next => cases hcount
      next => cases hcount; exact ⟨xs, rfl⟩

/-- Vectors that training cannot tell apart: they agree where the unit behind the bias is kept by
the next draws, and times zero where it is dropped. -/
structure AgreesWhereKept (net : Network α β) (f g : Tensor α) : Prop where
  left_shape : f.shape = [net.inputWidth]
  right_shape : g.shape = [net.inputWidth]
  kept : ∀ i, net.drawn.1[i + 1]? = some true → f.toList[i]? = g.toList[i]?
  dropped : ∀ i x y, net.drawn.1[i + 1]? = some false → f.toList[i]? = some x →
    g.toList[i]? = some y → x * 0 = y * 0

/-- The masks leave nothing of the difference. -/
theorem AgreesWhereKept.masked_eq {net : Network α β} {f g : Tensor α}
    (hagree : net.AgreesWhereKept f g) :
    masked (1 :: f.toList) net.drawn.1 = masked (1 :: g.toList) net.drawn.1 := by
  have hlength : f.toList.length = g.toList.length := by
    rw [(vectorOf_eq_ok .features hagree.left_shape).2,
      (vectorOf_eq_ok .features hagree.right_shape).2]
  apply List.ext_getElem?
  intro i
  rw [masked, masked, List.getElem?_zipWith, List.getElem?_zipWith]
  cases i with
  | zero => rfl
  | succ i =>
      rw [List.getElem?_cons_succ, List.getElem?_cons_succ]
      cases hmask : net.drawn.1[i + 1]? with
      | none => cases f.toList[i]? <;> cases g.toList[i]? <;> rfl
      | some kept =>
          cases kept with
          | true => rw [hagree.kept i hmask]
          | false =>
              by_cases hi : i < f.toList.length
              · have hleft := List.getElem?_eq_getElem hi
                have hright := List.getElem?_eq_getElem (hlength ▸ hi)
                have hzero := hagree.dropped i _ _ hmask hleft hright
                rw [hleft, hright]
                exact congrArg some hzero
              · rw [List.getElem?_eq_none (by omega), List.getElem?_eq_none (by omega)]

/-- Training gives the same on vectors that it cannot tell apart. -/
theorem trainByInstance_of_agreesWhereKept [Precision α β] [Add β] [Zero β] {net : Network α β}
    (hnet : net.WellFormed) {last : Nat} (houtput : net.outputLayer = some last)
    (hstyle : net.style = .supervised) (hidentity : ∀ t, net.transformer.apply t = t)
    {f g : Tensor α} (hagree : net.AgreesWhereKept f g) (label : Option (Table α))
    (iteration : Int) :
    trainByInstance ⟨some f, label⟩ iteration net =
      trainByInstance ⟨some g, label⟩ iteration net := by
  have hmore : 1 < net.sizes.length := by
    have hlast := hnet.output_last last houtput
    omega
  have hcount (t : Tensor α) : (net.transformer.apply t).toList.length = t.toList.length := by
    rw [hidentity]
  have hforward : forward (1 :: f.toList) net = forward (1 :: g.toList) net := by
    have hleft := length_bias_cons hnet hmore hcount hagree.left_shape 1
    have hright := length_bias_cons hnet hmore hcount hagree.right_shape 1
    rw [hidentity] at hleft hright
    rw [forward_eq hnet houtput hleft, forward_eq hnet houtput hright, hagree.masked_eq]
  have hcheck {t : Tensor α} (hshape : t.shape = [net.inputWidth]) :
      net.checkInstance ⟨some t, label⟩ = _ := checkInstance_of_features hnet houtput rfl hshape
  simp only [trainByInstance, Step.bind_run, Step.get_run, Step.lift_run,
    hcheck hagree.left_shape, hcheck hagree.right_shape]
  cases TrainingMethod.ofName net.method with
  | error fault => rfl
  | ok method =>
      cases hlabel : net.checkLabel (net.width last) label with
      | error fault => rfl
      | ok checked =>
          obtain ⟨xs, rfl⟩ := exists_of_checkLabel hstyle hlabel
          simp only [bind, Except.bind, pure, Except.pure, hidentity, hforward, Option.getD_some]

/-! ## The first layer on the way back -/

section

variable [Precision α β] [Zero β] {net : Network α β} {iteration : Int}

/-- A backward pass over a boundary changes the layer in front of it only. -/
theorem getElem?_of_backwardBoundary {boundary k : Nat} (hk : k ≠ boundary)
    {arena after : Arena α} {update : Tensor β}
    (hrun : net.backwardBoundary iteration boundary arena = .ok update after) :
    after[k]? = arena[k]? := by
  obtain ⟨weights, _, hweights, hrun₁⟩ := Step.bind_eq_ok hrun
  obtain ⟨-, rfl⟩ := Step.lift_eq_ok hweights
  obtain ⟨_, _, hshape, hrun₂⟩ := Step.bind_eq_ok hrun₁
  obtain ⟨-, rfl⟩ := Step.lift_eq_ok hshape
  obtain ⟨_, _, hget, hrun₃⟩ := Step.bind_eq_ok hrun₂
  cases hget
  obtain ⟨updates, _, hcolumns, hreturn⟩ := Step.bind_eq_ok hrun₃
  cases hreturn
  obtain ⟨layer, layer', -, -, rfl⟩ := Step.onItem_eq_set hcolumns
  rw [List.getElem?_set_ne (Ne.symm hk)]

/-- The first boundary comes last, when the input layer is still as it was. -/
theorem backwardBoundaries_eq_ok {count : Nat} {done updates : List (Tensor β)}
    {arena after : Arena α}
    (hrun : net.backwardBoundaries iteration (count + 1) done arena = .ok updates after) :
    ∃ middle update, freshUnits middle = freshUnits arena ∧ middle[0]? = arena[0]? ∧
      net.backwardBoundary iteration 0 middle = .ok update after ∧ updates[0]? = some update := by
  induction count generalizing done arena with
  | zero =>
      obtain ⟨update, _, hfirst, hreturn⟩ := Step.bind_eq_ok hrun
      cases hreturn
      exact ⟨arena, update, rfl, rfl, hfirst, rfl⟩
  | succ count ih =>
      obtain ⟨_, next, hlast, hrest⟩ := Step.bind_eq_ok hrun
      obtain ⟨middle, update, hfresh, hinput, hfirst, hupdate⟩ := ih hrest
      have hkeeps := net.keeps_backwardBoundary Neuron.overlooks_fresh iteration (count + 1)
      exact ⟨middle, update, hfresh.trans (hkeeps.of_ok hlast),
        hinput.trans (getElem?_of_backwardBoundary (by omega) hlast), hfirst, hupdate⟩

/-- Seeding the deltas of the output layer changes no other layer. -/
theorem getElem?_of_seedDeltas [Add β] {labels : List α} {last k : Nat}
    (houtput : net.outputLayer = some last) (hk : k ≠ last) {arena after : Arena α}
    (hrun : net.seedDeltas labels arena = .ok () after) : after[k]? = arena[k]? := by
  obtain ⟨activation, _, hactivation, hrun₁⟩ := Step.bind_eq_ok hrun
  obtain ⟨-, rfl⟩ := Step.lift_eq_ok hactivation
  obtain ⟨weights, _, hweights, hseeds⟩ := Step.bind_eq_ok hrun₁
  obtain ⟨-, rfl⟩ := Step.lift_eq_ok hweights
  obtain ⟨layer, layer', -, -, rfl⟩ := Step.onItem_eq_set hseeds
  rw [houtput, Option.getD_some, List.getElem?_set_ne (Ne.symm hk)]

/-- The first boundary: every input unit sees the deltas that the units behind it have. -/
theorem backwardBoundary_zero (hnet : net.WellFormed)
    {arena : Arena α} (hfits : net.Fits arena) {layer behind : List (Neuron α)}
    (hlayer : arena[0]? = some layer) (hbehind : arena[1]? = some behind)
    {weights previous : Tensor β} (hweights : net.weights[0]? = some weights)
    (hprevious : net.previous[0]? = some previous) :
    let deltas := (behind.drop (net.biasUnits 1)).map Neuron.delta
    net.backwardBoundary iteration 0 arena =
      .ok (.ofColumns (net.fedWidth 1) (layer.mapIdx fun column n =>
          (pushes weights previous n.learningRate deltas column n).map Precision.narrow))
        (arena.set 0 (layer.mapIdx fun column n =>
          afterColumn weights previous n.learningRate deltas column n)) := by
  intro deltas
  have hwidth : layer.length = net.width 0 := hfits.layer_length 0 layer hlayer
  have hdeltas : deltas.length = net.fedWidth 1 := by
    rw [List.length_map, List.length_drop, hfits.layer_length 1 behind hbehind, fedWidth]
  have hshape := hnet.weights_shape 0 weights hweights
  have hsame := (hnet.previous_shape 0 previous hprevious).trans hshape.symm
  have hextents := hshape
  rw [boundaryShape, ← hdeltas] at hshape
  -- Input units learn at the same rate in all iterations.
  have hcolumn : ∀ column n, layer[column]? = some n →
      backwardColumn weights (.ok previous) (.ok deltas.toArray) (net.fedWidth 1) iteration column
        n = .ok ((pushes weights previous n.learningRate deltas column n).map Precision.narrow)
          (afterColumn weights previous n.learningRate deltas column n) := by
    intro column n hn
    obtain ⟨hlt, -⟩ := List.getElem?_eq_some_iff.mp hn
    have hrule : n.rule = some .standard := (hfits.stands 0 layer column n hlayer hn).rule_eq
    rw [← hdeltas]
    exact backwardColumn_of_rate hshape hsame (hwidth ▸ hlt) hrule
      (by rw [Neuron.effectiveLearningRate, hrule]; rfl)
  have hvisit := Step.visit_run layer hcolumn
  rw [hwidth] at hvisit
  have hbehindDeltas : net.deltasBehindBias arena (0 + 1) = .ok deltas.toArray := by
    rw [deltasBehindBias, itemAt_eq_ok_iff.mpr hbehind]
    rfl
  simp only [backwardBoundary, Step.bind_run, Step.lift_run, itemAt_eq_ok_iff.mpr hweights,
    Tensor.matrixShape_eq_ok hextents, Step.get_run, hbehindDeltas, itemAt_eq_ok_iff.mpr hprevious,
    Step.onItem_run hlayer hvisit, Step.pure_run]

end

/-! ## The first update -/

section

variable [Precision α β] [Add β] [Zero β] {net : Network α β}

/-- Training that succeeds has run backward on the neurons that the forward run settled. -/
theorem trainByInstance_eq_ok (hnet : net.WellFormed) {last : Nat}
    (houtput : net.outputLayer = some last) (htransformer : KeepsCount net.transformer)
    {given : Instance α} {iteration : Int} {updates : List (Tensor β)}
    {after : Network α β} (hrun : trainByInstance given iteration net = .ok updates after) :
    ∃ inputs labels trainingError trained, inputs.length = net.width 0 ∧
      net.backwardUnits labels iteration
        (net.settled inputs (markInputs net.drawn.1 net.units)) = .ok updates trained ∧
      after = { net with
        source := net.drawn.2, trainingError
        previous := updates
        arena := some trained } := by
  have hlast := hnet.output_last last houtput
  obtain ⟨features, label, _, _, trainingError, hchecked, hforward, hbackward⟩ :=
    parts_of_trainByInstance_ok hrun
  obtain ⟨vector, labels, htrainable⟩ := exists_trainable hnet houtput hchecked
  obtain ⟨_, hsame, -⟩ := htrainable.checkInstance hnet houtput htransformer
  obtain rfl : vector = features :=
    congrArg Prod.fst (Except.ok.inj (hsame.symm.trans hchecked))
  have hvalues := length_bias_cons hnet (by omega) htransformer htrainable.features_shape 1
  rw [forward_eq hnet houtput hvalues] at hforward
  cases hforward
  rw [backward_run_of_arena rfl] at hbackward
  split at hbackward
  next trained hunits =>
    cases hbackward
    refine ⟨_, label.getD (net.transformer.apply vector).toList, trainingError, trained,
      length_masked_drawn hnet (by omega) hvalues, ?_, rfl⟩
    -- The run belongs to a network with another source and other neurons, which it does not read.
    rw [← hunits]
    exact congrFun (congrFun (congrFun (backwardUnits_congr ⟨_, _, _, _, _, _, rfl⟩).symm _) _) _
  next => cases hbackward

omit [Add β] in
/-- A number of the first update: what the unit of the column has pushed for that of the row. -/
theorem entry_first {weights previous : Tensor β} {layer behind : List (Neuron α)}
    (hprevious : net.previous[0]? = some previous) {row column : Nat} {n b : Neuron α}
    (hn : layer[column]? = some n) (hb : behind[row + net.biasUnits 1]? = some b)
    (hrow : row < net.fedWidth 1) :
    (Tensor.ofColumns (net.fedWidth 1) (layer.mapIdx fun column n =>
        (pushes weights previous n.learningRate ((behind.drop (net.biasUnits 1)).map Neuron.delta)
          column n).map (Precision.narrow (β := β)))).entry row column =
      .ok (Precision.narrow <|
        if n.dropped then 0
        else -n.learningRate * b.delta * n.output +
          n.momentumWeight * net.lastUpdate 0 row column) := by
  have hdelta : ((behind.drop (net.biasUnits 1)).map Neuron.delta)[row]? = some b.delta := by
    rw [List.getElem?_map, List.getElem?_drop, Nat.add_comm, hb]
    rfl
  refine Tensor.entry_ofColumns hrow (by rw [List.getElem?_mapIdx, hn, Option.map_some]) ?_
  rw [List.getElem?_map, pushes, List.getElem?_mapIdx, hdelta, Option.map_some, Option.map_some,
    lastUpdate, hprevious]
  rfl

omit [Precision α β] [Add β] [Zero β] in
theorem unitAt?_of_arena {arena : Arena α} (harena : net.arena = some arena) (layer i : Nat) :
    net.unitAt? layer i = arena[layer]?.bind (·[i]?) := by
  rw [unitAt?, units, harena, Option.getD_some]

/-- What training that succeeds leaves in the first update and in the units on both sides of it. A
column belongs to an input unit, and the draw for that unit decides what it holds. -/
theorem first_update (hnet : net.WellFormed) {last : Nat} (houtput : net.outputLayer = some last)
    (htransformer : KeepsCount net.transformer) {given : Instance α} {iteration : Int}
    {updates : List (Tensor β)} {after : Network α β}
    (hrun : trainByInstance given iteration net = .ok updates after) :
    ∃ first, updates[0]? = some first ∧ first.shape = net.boundaryShape 0 ∧
      ∀ column kept, net.drawn.1[column]? = some kept →
        ∃ unit, after.unitAt? 0 column = some unit ∧ unit.dropped = !kept ∧
          (kept = false → unit.delta = 0) ∧
          ∀ row < net.fedWidth 1, ∃ behind,
            after.unitAt? 1 (row + net.biasUnits 1) = some behind ∧
            first.entry row column = .ok (Precision.narrow <|
              if kept then
                -net.rate iteration 0 column * behind.delta * unit.output +
                  net.momentum 0 column * net.lastUpdate 0 row column
              else 0) := by
  obtain ⟨hlast, hpositive⟩ := hnet.output_last last houtput
  obtain ⟨inputs, labels, _, trained, hinputs, hunits, rfl⟩ :=
    trainByInstance_eq_ok hnet houtput htransformer hrun
  have hfits : net.Fits (net.settled inputs (markInputs net.drawn.1 net.units)) :=
    hnet.fits_units.of_fresh (freshUnits_settled hnet (by omega) hinputs)
  obtain ⟨_, seeded, hseeds, hboundaries⟩ := Step.bind_eq_ok hunits
  have hseeded := (net.keeps_seedDeltas Neuron.overlooks_fresh labels).of_ok hseeds
  rw [show net.sizes.length - 1 = last - 1 + 1 by omega] at hboundaries
  obtain ⟨middle, first, hfresh, hinput, hfirst, hupdate⟩ := backwardBoundaries_eq_ok hboundaries
  have hmiddle := hfits.of_fresh (hfresh.trans hseeded)
  obtain ⟨layer, hlayer, hwidth⟩ := hmiddle.exists_layer (k := 0) (by omega)
  obtain ⟨behind, hbehind, hbehindWidth⟩ := hmiddle.exists_layer (k := 1) (by omega)
  obtain ⟨weights, hweights, -⟩ := hnet.exists_weights (show 0 + 1 < net.sizes.length by omega)
  obtain ⟨previous, hprevious, -⟩ := hnet.exists_previous (show 0 + 1 < net.sizes.length by omega)
  rw [backwardBoundary_zero hnet hmiddle hlayer hbehind hweights hprevious] at hfirst
  cases hfirst
  refine ⟨_, hupdate, ?_, fun column kept hkept => ?_⟩
  · change [_, (layer.mapIdx _).length] = _
    rw [List.length_mapIdx, hwidth, boundaryShape]
  · have hcolumn : column < layer.length := by
      rw [hwidth, ← length_drawn hnet (by omega)]
      exact (List.getElem?_eq_some_iff.mp hkept).1
    have hn := List.getElem?_eq_getElem hcolumn
    generalize layer[column] = n at hn
    -- The forward run has marked the unit, and no later step touches the mark.
    have hsettled := (getElem?_of_seedDeltas houtput (k := 0) (by omega) hseeds).symm.trans
      (hinput.symm.trans hlayer)
    obtain ⟨m, hm, hmn, -, hmarked, -⟩ := exists_of_settled hsettled hn
    obtain rfl : kept = !n.dropped := Option.some.inj (hkept.symm.trans (hmarked rfl))
    have hrate : n.fresh.learningRate = net.rate iteration 0 column := by
      rw [hmn, rate, hm]
      rfl
    have hmomentum : n.fresh.momentumWeight = net.momentum 0 column := by
      rw [hmn, momentum, hm]
      rfl
    refine ⟨afterColumn weights previous n.learningRate
      ((behind.drop (net.biasUnits 1)).map Neuron.delta) column n, ?_, (Bool.not_not _).symm,
      fun hkept => ?_, fun row hrow => ?_⟩
    · rw [unitAt?_of_arena rfl, List.getElem?_set_self (List.getElem?_eq_some_iff.mp hlayer).1]
      simp [hn]
    · have hdropped : n.dropped = true := by simpa using hkept
      exact if_pos hdropped
    · have hplace : row + net.biasUnits 1 < behind.length := by
        rw [fedWidth] at hrow
        omega
      have hb := List.getElem?_eq_getElem hplace
      refine ⟨behind[row + net.biasUnits 1], ?_, ?_⟩
      · rw [unitAt?_of_arena rfl, List.getElem?_set_ne (by decide), hbehind]
        exact hb
      · rw [entry_first hprevious hn hb hrow, ← hrate, ← hmomentum]
        cases n.dropped <;> rfl

end

/-! ## Dropped inputs -/

/-- Dropped inputs have no influence on the training of a supervised network. On features that
differ only where the draws for the next pass drop units, it gives the same, whatever the label and
the iteration: the same updates, and the same network down to the last neuron. Training that
succeeds leaves zeros in the column of each dropped unit of the first update and a zero for the
unit's delta, and in every other column steps down the gradient with their share of the last
update. It succeeds on every instance that passes the checks, if the iteration is in range. -/
theorem dropped_inputs_silent [Precision α β] [Add β] [Zero β] {net : Network α β}
    (hnet : net.WellFormed) {last : Nat} (houtput : net.outputLayer = some last)
    (hstyle : net.style = .supervised) (hidentity : ∀ t, net.transformer.apply t = t)
    (hzero : Precision.narrow (0 : α) = (0 : β)) :
    (∀ (f g : Tensor α) (label : Option (Table α)) (iteration : Int), net.AgreesWhereKept f g →
      trainByInstance ⟨some f, label⟩ iteration net =
        trainByInstance ⟨some g, label⟩ iteration net) ∧
    ∀ (given : Instance α) (iteration : Int),
      ((∃ checked, net.checkInstance given = .ok checked) →
        Scalar.fits (α := α) iteration.toNat = true →
          ∃ updates after, trainByInstance given iteration net = .ok updates after) ∧
      ∀ updates after, trainByInstance given iteration net = .ok updates after →
        ∃ first, updates[0]? = some first ∧ first.shape = net.boundaryShape 0 ∧
          ∀ column kept, net.drawn.1[column]? = some kept →
            ∃ unit, after.unitAt? 0 column = some unit ∧ unit.dropped = !kept ∧
              (kept = false → unit.delta = 0 ∧
                ∀ row < net.fedWidth 1, first.entry row column = .ok 0) ∧
              (kept = true → ∀ row < net.fedWidth 1, ∃ behind,
                after.unitAt? 1 (row + net.biasUnits 1) = some behind ∧
                first.entry row column = .ok (Precision.narrow <|
                  -net.rate iteration 0 column * behind.delta * unit.output +
                    net.momentum 0 column * net.lastUpdate 0 row column)) := by
  have hcount : KeepsCount net.transformer := fun t => by rw [hidentity]
  refine ⟨fun f g label iteration hagree =>
    trainByInstance_of_agreesWhereKept hnet houtput hstyle hidentity hagree label iteration,
    fun given iteration => ⟨fun hchecked hfits => ?_, fun updates after hrun => ?_⟩⟩
  · obtain ⟨checked, hcheck⟩ := hchecked
    obtain ⟨features, labels, htrainable⟩ := exists_trainable hnet houtput hcheck
    obtain ⟨-, -, hrun⟩ := trainByInstance_run hnet houtput hcount
      (net.attends_ownLesson features labels iteration) rfl htrainable hfits
    exact ⟨_, _, hrun⟩
  · obtain ⟨first, hfirst, hshape, hcolumns⟩ := first_update hnet houtput hcount hrun
    refine ⟨first, hfirst, hshape, fun column kept hkept => ?_⟩
    obtain ⟨unit, hunit, hdropped, hdelta, hrows⟩ := hcolumns column kept hkept
    refine ⟨unit, hunit, hdropped, fun hno => ⟨hdelta hno, fun row hrow => ?_⟩,
      fun hyes row hrow => ?_⟩
    · obtain ⟨_, -, hentry⟩ := hrows row hrow
      rw [hentry, hno, ← hzero]
      rfl
    · obtain ⟨behind, hbehind, hentry⟩ := hrows row hrow
      exact ⟨behind, hbehind, by rw [hentry, hyes]; rfl⟩

/-- The draws keep the bias and the first feature and drop the second one. -/
theorem agreesWhereKept_practice : practice.AgreesWhereKept (.ofList [1, 0]) (.ofList [1, 1]) where
  left_shape := rfl
  right_shape := rfl
  kept i hkept := by
    have hdrawn : practice.drawn.1 = [true, true, false] := by decide
    rw [hdrawn] at hkept
    rcases i with _ | _ | i
    · rfl
    · cases hkept
    · cases hkept
  dropped i x y _ hx hy := by
    rcases i with _ | _ | i
    · cases hx; cases hy; rfl
    · cases hx; cases hy; decide
    · cases hx

/-- Three layers of which the second feature is dropped. -/
theorem dropped_inputs_silent_practice :
    practice.WellFormed ∧ practice.outputLayer = some 2 ∧ practice.style = .supervised ∧
      (∀ t, practice.transformer.apply t = t) ∧
      Precision.narrow (0 : Double) = (0 : Single) ∧
      practice.AgreesWhereKept (.ofList [1, 0]) (.ofList [1, 1]) ∧
      trainByInstance exercise 7 practice =
        trainByInstance ⟨some (.ofList [1, 1]), exercise.label⟩ 7 practice ∧
      (∃ checked, practice.checkInstance exercise = .ok checked) ∧
      Scalar.fits (α := Double) (7 : Int).toNat = true ∧
      practice.drawn.1[1]? = some true ∧ practice.drawn.1[2]? = some false ∧
      ∃ updates after first kept dropped, trainByInstance exercise 7 practice = .ok updates after ∧
        updates[0]? = some first ∧ after.unitAt? 0 1 = some kept ∧
        after.unitAt? 0 2 = some dropped ∧ kept.dropped = false ∧ dropped.dropped = true ∧
        dropped.delta = 0 ∧ (∀ row < practice.fedWidth 1, first.entry row 2 = .ok 0) ∧
        ∀ row < practice.fedWidth 1, ∃ behind,
          after.unitAt? 1 (row + practice.biasUnits 1) = some behind ∧
          first.entry row 1 = .ok (Precision.narrow <|
            -practice.rate 7 0 1 * behind.delta * kept.output +
              practice.momentum 0 1 * practice.lastUpdate 0 row 1) := by
  have houtput : practice.outputLayer = some 2 := rfl
  have hidentity : ∀ t, practice.transformer.apply t = t := fun _ => rfl
  have hzero : Precision.narrow (0 : Double) = (0 : Single) := by decide
  have hchecked : ∃ checked, practice.checkInstance exercise = .ok checked := ⟨_, rfl⟩
  have hfits : Scalar.fits (α := Double) (7 : Int).toNat = true := rfl
  have hkept : practice.drawn.1[1]? = some true := by decide
  have hdropped : practice.drawn.1[2]? = some false := by decide
  obtain ⟨hsame, hcolumns⟩ :=
    dropped_inputs_silent practice_sound.wellFormed houtput rfl hidentity hzero
  obtain ⟨hsucceeds, hupdate⟩ := hcolumns exercise 7
  obtain ⟨updates, after, hrun⟩ := hsucceeds hchecked hfits
  obtain ⟨first, hfirst, -, hunits⟩ := hupdate updates after hrun
  obtain ⟨kept, hkeptUnit, hkeptFlag, -, hsteps⟩ := hunits 1 true hkept
  obtain ⟨dropped, hdroppedUnit, hdroppedFlag, hzeros, -⟩ := hunits 2 false hdropped
  obtain ⟨hdelta, hentries⟩ := hzeros rfl
  exact ⟨practice_sound.wellFormed, houtput, rfl, hidentity, hzero, agreesWhereKept_practice,
    hsame _ _ _ 7 agreesWhereKept_practice, hchecked, hfits, hkept, hdropped, updates, after, first,
    kept, dropped, hrun, hfirst, hkeptUnit, hdroppedUnit, hkeptFlag, hdroppedFlag, hdelta, hentries,
    hsteps rfl⟩

end FeedForward.Network
