import FeedForward.Proofs.Network.Mishaps
import FeedForward.Proofs.Network.History
import FeedForward.Proofs.Dense.Totality

/-!
# Refused passes

A pass checks what it is given before it touches anything. The checks come in a fixed order, and the
first one that refuses decides the fault, so each check is stated by itself here, as if the others
were not there. A refused pass leaves the network as it was, complete or not and with its neurons
built or not. Of the network only one thing is asked, that its output layer is one of its layers,
and this holds after every history. What an instance that passes the checks is good for is said
elsewhere.
-/

namespace FeedForward

namespace TrainingMethod

theorem ofName_heeds (name : String) : Check.Heeds
    [if Text.upper name ≠ gradientDescent.name then
      some (.unsupportedMode "TrainingMethod" name [gradientDescent.name]) else none]
    (ofName name) := by
  rw [ofName, modeNamed]
  by_cases hname : Text.upper name = gradientDescent.name
  · rw [if_neg (not_not_intro hname)]
    exact ⟨gradientDescent, by simp [hname]⟩
  · rw [if_pos hname]
    simp [Check.Heeds, List.find?, Ne.symm hname]

end TrainingMethod

namespace Network

variable {α β : Type}

/-! ## Where the output layer is -/

/-- What tells where the output layer is. -/
def layout (net : Network α β) : List Nat × Option Nat := (net.sizes, net.outputLayer)

theorem checkComplete_of_layout {net other : Network α β} (hsame : other.layout = net.layout) :
    other.checkComplete = net.checkComplete := by
  rw [checkComplete, checkComplete, (Prod.mk.inj hsame).2]

/-- The output layer, if there is one, is one of the layers. -/
def Laid (net : Network α β) : Prop :=
  ∀ last, net.outputLayer = some last → last < net.sizes.length

theorem Laid.of_layout {net other : Network α β} (hlaid : net.Laid)
    (hsame : other.layout = net.layout) : other.Laid := by
  obtain ⟨hsizes, houtput⟩ := Prod.mk.inj hsame
  intro last hlast
  rw [hsizes]
  exact hlaid last (houtput ▸ hlast)

section

variable [Scalar α]

theorem WellFormed.laid {net : Network α β} (hnet : net.WellFormed) : net.Laid := by
  intro last hlast
  have hlength := (hnet.output_last last hlast).1
  omega

theorem layout_of_lasting {net other : Network α β} (hsame : other.lasting = net.lasting) :
    other.layout = net.layout := by
  obtain ⟨_, _, _, rfl⟩ := lasting_eq_iff.mp hsame
  rfl

theorem keepsLayout_neurons : Step.Keeps layout (neurons : Step (Network α β) (Arena α)) := by
  intro net
  rw [Step.after]
  rcases net.bare_or_atHand with ⟨fault, hbare⟩ | ⟨arena, hhand⟩
  · rw [hbare.neurons_run]
  · rw [hhand.neurons_run]
    rfl

omit [Scalar α] in
theorem keepsLayout_setWeightMatrix (index : Int) (table : Table β) :
    Step.Keeps layout (setWeightMatrix index table : Step (Network α β) Unit) :=
  keeps_setWeightMatrix (fun _ _ => rfl) index table

theorem keepsLayout_setDropRate (rate : α) :
    Step.Keeps layout (setDropRate rate : Step (Network α β) Unit) :=
  .bind (.lift _) fun _ => .modify fun _ => rfl

theorem keepsLayout_getOutput [Precision α β] (features : Table α) :
    Step.Keeps layout (getOutput features : Step (Network α β) (List α)) :=
  .bind .get fun _ => .bind (.lift _) fun _ net => layout_of_lasting (keeps_forward _ net)

variable [Add β] [Zero β] [Precision α β]

theorem keepsLayout_updateWeights (updates : List (Update α β)) :
    Step.Keeps layout (updateWeights updates : Step (Network α β) Unit) :=
  keeps_updateWeights (fun _ _ => rfl) updates

theorem keepsLayout_trainByInstance (x : Instance α) (iteration : Int) :
    Step.Keeps layout (trainByInstance x iteration : Step (Network α β) (List (Tensor β))) := by
  intro net
  rw [Step.after]
  cases hrun : trainByInstance x iteration net with
  | ok updates after =>
      have hlayout := layout_of_lasting (lasting_of_trainByInstance_ok hrun).1
      exact hlayout
  | error fault after => exact layout_of_lasting (lasting_of_trainByInstance_error hrun)

theorem keepsLayout_trainOnline (x : Instance α) (iteration : Int) :
    Step.Keeps layout (trainOnline x iteration : Step (Network α β) (List (Tensor β))) :=
  (keepsLayout_trainByInstance x iteration).bind fun _ =>
    (keepsLayout_updateWeights _).bind fun _ => .pure _

omit [Add β] in
/-- A layer that is added as the output layer is the last one. -/
theorem Laid.after_addLayer {net : Network α β} (hlaid : net.Laid) (plan : LayerPlan) :
    (Step.after (addLayer plan) net).Laid := by
  rw [Step.after, addLayer_run]
  cases hcheck : net.checkLayer plan with
  | error fault => exact hlaid
  | ok checked =>
      intro last hlast
      change (if plan.isOutput then some net.sizes.length else none) = some last at hlast
      change last < (net.sizes ++ [_]).length
      rw [List.length_append, List.length_singleton]
      split at hlast
      · cases hlast; omega
      · cases hlast

omit [Add β] [Precision α β] in
/-- The sizes and the output layer are restored together, also where an activation is not there. -/
theorem Laid.after_restoreLayers {net : Network α β} (hlaid : net.Laid) (plan : TopologyPlan α β) :
    (Step.after (restoreLayers plan) net).Laid := by
  rw [restoreLayers, Step.after_bind, Step.lift_run]
  cases hcheck : checkTopology plan with
  | error fault => exact hlaid
  | ok restored =>
      have hlast := (checkTopology_eq_ok_iff.mp hcheck).output_last
      dsimp only
      rw [Step.after_bind, Step.modify_run]
      dsimp only
      rw [Step.after_bind, Step.ofExcept_run]
      cases plan.activations.mapM (resolveOrRefuse Activation.registry) <;>
        (rintro last ⟨⟩; change _ < restored.sizes.length; omega)

theorem Laid.apply {net : Network α β} (hlaid : net.Laid) (operation : Operation α β) :
    (operation.apply net).Laid := by
  cases operation with
  | addLayer plan => exact hlaid.after_addLayer plan
  | restoreLayers plan => exact hlaid.after_restoreLayers plan
  | setWeightMatrix index table =>
      exact hlaid.of_layout (keepsLayout_setWeightMatrix index table net)
  | updateWeights updates => exact hlaid.of_layout (keepsLayout_updateWeights updates net)
  | setTraining training => exact hlaid
  | setDropRate rate => exact hlaid.of_layout (keepsLayout_setDropRate rate net)
  | neurons => exact hlaid.of_layout (keepsLayout_neurons net)
  | getOutput features => exact hlaid.of_layout (keepsLayout_getOutput features net)
  | trainByInstance x iteration =>
      exact hlaid.of_layout (keepsLayout_trainByInstance x iteration net)
  | trainOnline x iteration => exact hlaid.of_layout (keepsLayout_trainOnline x iteration net)

/-- The output layer is one of the layers after every history, whatever is asked for in it. -/
theorem laid_run {settings : Settings α} {created : Network α β}
    (hcreate : create settings = .ok created) (operations : List (Operation α β)) :
    (Network.run operations created).Laid := by
  have hcreated : created.Laid := (create_wellFormed hcreate).laid
  clear hcreate
  induction operations generalizing created with
  | nil => exact hcreated
  | cons operation rest ih => exact ih (hcreated.apply operation)

end

/-! ## Reasons to refuse -/

/-- What is checked of an instance that is to be trained. -/
inductive TrainingCheck where
  | method
  | outputLayer
  | featuresVector
  | featuresCount
  | labelThere
  | labelVector
  | labelCount
  | reproduction

namespace TrainingCheck

/-- The checks of an instance that is to be trained, first to last. -/
def order : List TrainingCheck :=
  [method, outputLayer, featuresVector, featuresCount, labelThere, labelVector, labelCount,
    reproduction]

/-- What callers see when a check refuses. -/
def family : TrainingCheck → Family
  | method => .unsupported
  | _ => .validation

end TrainingCheck

/-- What is checked of features that outputs are asked for. -/
inductive OutputCheck where
  | outputLayer
  | vector
  | count

/-- The checks of features that outputs are asked for, first to last. -/
def OutputCheck.order : List OutputCheck := [outputLayer, vector, count]

/-- The reason to refuse a table for a vector: it has another number of extents than one, if it
lines up at all. -/
def vectorRefusal? (use : VectorUse) : Table α → Option Fault
  | none => some .ragged
  | some t => if t.shape.length ≠ 1 then some (.notVector use t.shape) else none

/-- The first extent of a table. -/
def extentOf : Table α → Nat
  | none => 0
  | some t => t.shape.headD 0

/-- The reason to refuse every pass: there is no output layer, or it is the first one. -/
def layerRefusal? (net : Network α β) : Option Fault :=
  if net.outputLayer.getD 0 = 0 then some .noOutputLayer else none

/-- The number of units of the output layer. -/
def outputWidth (net : Network α β) : Nat := net.sizes.getD (net.outputLayer.getD 0) 0

/-- What a check has against training an instance, taken by itself. The checks of labels are for
supervised networks, and the last one is for unsupervised ones. -/
def refusal? (net : Network α β) (x : Instance α) : TrainingCheck → Option Fault
  | .method =>
    if Text.upper net.method ≠ TrainingMethod.gradientDescent.name then
      some (.unsupportedMode "TrainingMethod" net.method [TrainingMethod.gradientDescent.name])
    else none
  | .outputLayer => net.layerRefusal?
  | .featuresVector => vectorRefusal? .features x.features
  | .featuresCount =>
    if extentOf x.features ≠ net.inputWidth then
      some (.featureDimension (extentOf x.features) net.inputWidth)
    else none
  | .labelThere => if net.style = .supervised ∧ x.label = none then some .labelMissing else none
  | .labelVector =>
    if net.style = .supervised then x.label.bind (vectorRefusal? .label) else none
  | .labelCount =>
    if net.style = .supervised then
      x.label.bind fun label =>
        if extentOf label ≠ net.outputWidth then
          some (.labelDimension (extentOf label) net.outputWidth)
        else none
    else none
  | .reproduction =>
    if net.style = .unsupervised ∧ net.outputWidth ≠ net.inputWidth then
      some (.notReproducing net.outputWidth net.inputWidth)
    else none

/-- What a check has against asking for the outputs of some features, taken by itself. -/
def outputRefusal? (net : Network α β) (features : Table α) : OutputCheck → Option Fault
  | .outputLayer => net.layerRefusal?
  | .vector => vectorRefusal? .input features
  | .count =>
    if extentOf features ≠ net.inputWidth then some (.inputDimension net.inputWidth) else none

/-! ## Checks heed them in order -/

theorem checkComplete_heeds (net : Network α β) :
    Check.Heeds [net.layerRefusal?] net.checkComplete := by
  rw [checkComplete, layerRefusal?]
  rcases net.outputLayer with _ | _ | last
  · rfl
  · rfl
  · exact ⟨last + 1, rfl⟩

theorem vectorOf_heeds (use : VectorUse) (table : Table α) :
    Check.Heeds [vectorRefusal? use table] (vectorOf use table) := by
  cases table with
  | none => rfl
  | some t =>
      rw [vectorRefusal?]
      by_cases hone : t.shape.length = 1
      · obtain ⟨n, hshape⟩ := List.length_eq_one_iff.mp hone
        rw [if_neg (not_not_intro hone)]
        exact ⟨_, (vectorOf_eq_ok use hshape).1⟩
      · have hnone : t.vector? = none := by
          rw [Tensor.vector?]
          split
          next n hshape => simp [hshape] at hone
          next => rfl
        have hvector : vectorOf use (some t) = .error (.notVector use t.shape) :=
          Check.bind_eq_error_iff.mpr (.inr ⟨t, rfl, by rw [hnone]; rfl⟩)
        rw [if_pos hone, hvector]
        exact .stop _ _

theorem length_of_vectorOf {use : VectorUse} {table : Table α} {vector : Tensor α} {xs : List α}
    (hvector : vectorOf use table = .ok (vector, xs)) : xs.length = extentOf table := by
  obtain ⟨rfl, hshape, -⟩ := vectorOf_eq_ok_iff.mp hvector
  rw [extentOf, hshape, List.headD_cons]

theorem Laid.outputWidth {net : Network α β} (hlaid : net.Laid) {last : Nat}
    (hcomplete : net.checkComplete = .ok last) : itemAt net.sizes last = .ok net.outputWidth := by
  have houtput : net.outputLayer = some last := by
    rw [checkComplete] at hcomplete
    split at hcomplete
    next layer hlayer => cases hcomplete; exact hlayer
    next => cases hcomplete
  have hlast := hlaid last houtput
  rw [itemAt_eq_ok_iff, Network.outputWidth, houtput, Option.getD_some,
    List.getD_eq_getElem?_getD, List.getElem?_eq_getElem hlast, Option.getD_some]

theorem checkFeatures_heeds (net : Network α β) (features : Table α) :
    Check.Heeds (OutputCheck.order.map (net.outputRefusal? features))
      (net.checkFeatures features) := by
  simp only [OutputCheck.order, List.map_cons, List.map_nil, outputRefusal?]
  refine .bind net.checkComplete_heeds fun _ _ => .bind (vectorOf_heeds .input features) ?_
  rintro ⟨vector, xs⟩ hvector
  rw [← length_of_vectorOf hvector]
  exact .guard _ (.pass vector)

theorem checkLabel_heeds (net : Network α β) (x : Instance α) :
    Check.Heeds ([.labelThere, .labelVector, .labelCount, .reproduction].map (net.refusal? x))
      (net.checkLabel net.outputWidth x.label) := by
  cases hstyle : net.style with
  | unsupervised =>
      simp only [List.map_cons, List.map_nil, refusal?, checkLabel, hstyle, reduceCtorEq,
        false_and, true_and, if_false]
      exact .skip (.skip (.skip (.guard _ (.pass none))))
  | supervised =>
      cases hlabel : x.label with
      | none =>
          simp only [List.map_cons, refusal?, checkLabel, hstyle, hlabel, true_and, if_true]
          exact .stop _ _
      | some label =>
          simp only [List.map_cons, List.map_nil, refusal?, checkLabel, hstyle, hlabel,
            reduceCtorEq, and_false, false_and, if_false, if_true, Option.bind_some]
          refine .skip (.bind (vectorOf_heeds .label label) ?_)
          rintro ⟨_, xs⟩ hvector
          rw [← length_of_vectorOf hvector]
          exact .guard _ (.skip (.pass (some xs)))

theorem checkInstance_heeds {net : Network α β} (hlaid : net.Laid) (x : Instance α) :
    Check.Heeds (TrainingCheck.order.map (net.refusal? x)) (net.checkInstance x) := by
  rw [TrainingCheck.order]
  change Check.Heeds (net.refusal? x .method :: net.refusal? x .outputLayer ::
    net.refusal? x .featuresVector :: net.refusal? x .featuresCount ::
    [.labelThere, .labelVector, .labelCount, .reproduction].map (net.refusal? x)) _
  refine .bind (TrainingMethod.ofName_heeds net.method) fun _ _ =>
    .bind net.checkComplete_heeds fun last hlast =>
      .bind (vectorOf_heeds .features x.features) ?_
  rintro ⟨vector, xs⟩ hvector
  have hwidth := hlaid.outputWidth hlast
  rw [refusal?, ← length_of_vectorOf hvector]
  refine .guard _ ?_
  rw [hwidth]
  exact (net.checkLabel_heeds x).andThen fun label => (vector, label)

/-- What the first check that refuses has against training an instance. -/
def firstRefusal? (net : Network α β) (x : Instance α) : Option Fault :=
  TrainingCheck.order.findSome? (net.refusal? x)

/-- What the first check that refuses has against asking for the outputs of some features. -/
def firstOutputRefusal? (net : Network α β) (features : Table α) : Option Fault :=
  OutputCheck.order.findSome? (net.outputRefusal? features)

theorem checkInstance_eq_error_iff {net : Network α β} (hlaid : net.Laid) {x : Instance α}
    {fault : Fault} : net.checkInstance x = .error fault ↔ net.firstRefusal? x = some fault := by
  rw [(checkInstance_heeds hlaid x).error_iff, List.findSome?_map, firstRefusal?]
  rfl

theorem checkFeatures_eq_error_iff {net : Network α β} {features : Table α} {fault : Fault} :
    net.checkFeatures features = .error fault ↔
      net.firstOutputRefusal? features = some fault := by
  rw [(net.checkFeatures_heeds features).error_iff, List.findSome?_map, firstOutputRefusal?]
  rfl

/-! ## What callers see -/

theorem vectorRefusal?_family {use : VectorUse} {table : Table α} {fault : Fault}
    (hrefusal : vectorRefusal? use table = some fault) :
    fault.family = .validation ∨ fault = .ragged ∧ table = none := by
  cases table with
  | none => cases hrefusal; exact .inr ⟨rfl, rfl⟩
  | some t =>
      obtain ⟨-, ⟨⟩⟩ := Option.ite_none_right_eq_some.mp hrefusal
      exact .inl rfl

theorem layerRefusal?_family {net : Network α β} {fault : Fault}
    (hrefusal : net.layerRefusal? = some fault) : fault.family = .validation := by
  obtain ⟨-, ⟨⟩⟩ := Option.ite_none_right_eq_some.mp hrefusal
  rfl

/-- The fault of a check is of the family of the check, unless a table does not line up. -/
theorem refusal?_family {net : Network α β} {x : Instance α} {check : TrainingCheck}
    {fault : Fault} (hrefusal : net.refusal? x check = some fault) :
    fault.family = check.family ∨
      fault = .ragged ∧ (x.features = none ∨ x.label = some none) := by
  cases check with
  | outputLayer => exact .inl (layerRefusal?_family hrefusal)
  | featuresVector =>
      exact (vectorRefusal?_family hrefusal).imp_right fun hragged => ⟨hragged.1, .inl hragged.2⟩
  | labelVector =>
      obtain ⟨-, hlabel⟩ := Option.ite_none_right_eq_some.mp hrefusal
      obtain ⟨label, hgiven, hvector⟩ := Option.bind_eq_some_iff.mp hlabel
      refine (vectorRefusal?_family hvector).imp_right fun hragged => ⟨hragged.1, .inr ?_⟩
      rw [hgiven, hragged.2]
  | labelCount =>
      obtain ⟨-, hlabel⟩ := Option.ite_none_right_eq_some.mp hrefusal
      obtain ⟨label, -, hcount⟩ := Option.bind_eq_some_iff.mp hlabel
      obtain ⟨-, ⟨⟩⟩ := Option.ite_none_right_eq_some.mp hcount
      exact .inl rfl
  | method | featuresCount | labelThere | reproduction =>
      obtain ⟨-, ⟨⟩⟩ := Option.ite_none_right_eq_some.mp hrefusal
      exact .inl rfl

theorem outputRefusal?_family {net : Network α β} {features : Table α} {check : OutputCheck}
    {fault : Fault} (hrefusal : net.outputRefusal? features check = some fault) :
    fault.family = .validation ∨ fault = .ragged ∧ features = none := by
  cases check with
  | outputLayer => exact .inl (layerRefusal?_family hrefusal)
  | vector => exact vectorRefusal?_family hrefusal
  | count =>
      obtain ⟨-, ⟨⟩⟩ := Option.ite_none_right_eq_some.mp hrefusal
      exact .inl rfl

/-! ## Passes that are refused -/

variable [Scalar α] [Precision α β]

theorem getOutput_refused {net : Network α β} {features : Table α} {fault : Fault}
    (hcheck : net.checkFeatures features = .error fault) :
    getOutput features net = .error fault net := by
  simp only [getOutput, Step.bind_run, Step.get_run, Step.lift_run, hcheck]

/-- Asking for outputs fails by a mishap or in the checks. -/
theorem mishap_or_refused_of_getOutput {net after : Network α β} {features : Table α}
    {fault : Fault} (hrun : getOutput features net = .error fault after) :
    fault.Mishap ∨ net.checkFeatures features = .error fault ∧ after = net := by
  rcases Step.bind_eq_error hrun with hget | ⟨_, _, hget, hrun₁⟩
  · cases hget
  cases hget
  cases hcheck : net.checkFeatures features with
  | error cause => cases (getOutput_refused hcheck).symm.trans hrun; exact .inr ⟨rfl, rfl⟩
  | ok vector =>
      obtain ⟨last, hcomplete, -⟩ := Check.bind_eq_ok_iff.mp hcheck
      rw [hcheck] at hrun₁
      exact .inl (mishap_of_forward hcomplete hrun₁)

variable [Add β] [Zero β]

/-- A training pass fails by a mishap or in the checks. -/
theorem mishap_or_refused_of_trainByInstance {net after : Network α β} {x : Instance α}
    {iteration : Int} {fault : Fault}
    (hrun : trainByInstance x iteration net = .error fault after) :
    fault.Mishap ∨ net.checkInstance x = .error fault ∧ after = net := by
  rcases parts_of_trainByInstance_error hrun with hrefused | ⟨_, _, hcheck, hpass⟩
  · exact .inr hrefused
  left
  obtain ⟨_, -, hchecks⟩ := Check.bind_eq_ok_iff.mp hcheck
  obtain ⟨last, hcomplete, -⟩ := Check.bind_eq_ok_iff.mp hchecks
  rcases hpass with hforward | ⟨_, fed, hforward, ⟨_, _, hcost, -⟩ | ⟨_, hbackward⟩⟩
  · exact mishap_of_forward hcomplete hforward
  · exact Cost.total_finds _ _ _ _ hcost
  · -- The forward run has left the output layer where it was.
    have hfed := layout_of_lasting ((keeps_forward _).of_ok hforward)
    refine mishap_of_backward (?_ : checkComplete _ = .ok last) hbackward
    exact (checkComplete_of_layout hfed).trans hcomplete

/-- Training online fails exactly where its training pass fails: updates of a pass that succeeds can
be added. -/
theorem trainOnline_eq_error_iff {net after : Network α β} {x : Instance α} {iteration : Int}
    {fault : Fault} : trainOnline x iteration net = .error fault after ↔
      trainByInstance x iteration net = .error fault after := by
  cases hpass : trainByInstance x iteration net with
  | error cause middle => simp only [trainOnline, Step.bind_run, hpass]
  | ok updates middle =>
      have hshapes := (lasting_of_trainByInstance_ok hpass).2
      rw [← weights_of_trainByInstance hpass] at hshapes
      rw [trainOnline_run hpass hshapes]
      constructor <;> intro hrun <;> cases hrun

/-- Training and asking for outputs are refused for what the first check of their order says that
refuses, whatever the checks behind it say, and a network that refuses is the network that it was:
no neurons have been built and no number has been drawn. Conversely, whenever a call fails for an
argument that breaks a rule or for a mode that is not there, it was refused by these checks. Their
faults are what callers tell apart by family; a table that does not line up to a tensor has a fault
of its own in place of the check of its extents. -/
theorem refused_calls_change_nothing {net : Network α β} (hlaid : net.Laid) :
    (∀ (x : Instance α) (iteration : Int) (fault : Fault),
      (net.firstRefusal? x = some fault →
        trainByInstance x iteration net = .error fault net ∧
          trainOnline x iteration net = .error fault net) ∧
      ∀ after, fault.family = .validation ∨ fault.family = .unsupported →
        trainByInstance x iteration net = .error fault after ∨
          trainOnline x iteration net = .error fault after →
        net.firstRefusal? x = some fault ∧ after = net) ∧
    (∀ (features : Table α) (fault : Fault),
      (net.firstOutputRefusal? features = some fault →
        getOutput features net = .error fault net) ∧
      ∀ after, fault.family = .validation ∨ fault.family = .unsupported →
        getOutput features net = .error fault after →
        net.firstOutputRefusal? features = some fault ∧ after = net) ∧
    (∀ (x : Instance α) (check : TrainingCheck) (fault : Fault),
      net.refusal? x check = some fault → fault.family = check.family ∨
        fault = .ragged ∧ (x.features = none ∨ x.label = some none)) ∧
    ∀ (features : Table α) (check : OutputCheck) (fault : Fault),
      net.outputRefusal? features check = some fault → fault.family = .validation ∨
        fault = .ragged ∧ features = none := by
  refine ⟨fun x iteration fault => ⟨fun hfirst => ?_, fun after hfamily hrun => ?_⟩,
    fun features fault => ⟨fun hfirst => ?_, fun after hfamily hrun => ?_⟩,
    fun _ _ _ => refusal?_family, fun _ _ _ => outputRefusal?_family⟩
  · have hpass := trainByInstance_refused ((checkInstance_eq_error_iff hlaid).mpr hfirst) iteration
    exact ⟨hpass, trainOnline_eq_error_iff.mpr hpass⟩
  · have hpass := hrun.elim id trainOnline_eq_error_iff.mp
    rcases mishap_or_refused_of_trainByInstance hpass with hmishap | ⟨hcheck, hsame⟩
    · exact absurd hfamily (not_or.mpr hmishap)
    · exact ⟨(checkInstance_eq_error_iff hlaid).mp hcheck, hsame⟩
  · exact getOutput_refused (checkFeatures_eq_error_iff.mpr hfirst)
  · rcases mishap_or_refused_of_getOutput hrun with hmishap | ⟨hcheck, hsame⟩
    · exact absurd hfamily (not_or.mpr hmishap)
    · exact ⟨checkFeatures_eq_error_iff.mp hcheck, hsame⟩

/-- One feature in place of two, and no label. -/
def stray : Instance Double := ⟨some (.ofList [1]), none⟩

/-- The number of features is checked in front of the label, and a network without layers refuses
for them, whatever it is given. -/
theorem refused_calls_change_nothing_practice :
    practice.Laid ∧ practice.firstRefusal? stray = some (.featureDimension 1 2) ∧
      trainByInstance stray 7 practice = .error (.featureDimension 1 2) practice ∧
      trainOnline stray 7 practice = .error (.featureDimension 1 2) practice ∧
      getOutput (some (.fill [2, 1] 0)) practice = .error (.notVector .input [2, 1]) practice ∧
      blank.Laid ∧ blank.firstRefusal? stray = some .noOutputLayer ∧
      trainByInstance stray 7 blank = .error .noOutputLayer blank := by
  have hpractice : practice.Laid := practice_sound.wellFormed.laid
  have hblank : blank.Laid := (create_wellFormed create_blank).laid
  have hcount : practice.firstRefusal? stray = some (.featureDimension 1 2) := by decide
  have hlayers : blank.firstRefusal? stray = some .noOutputLayer := by decide
  obtain ⟨htrain, hask, -⟩ := refused_calls_change_nothing hpractice
  obtain ⟨hpass, honline⟩ := (htrain stray 7 _).1 hcount
  exact ⟨hpractice, hcount, hpass, honline, (hask _ _).1 (by decide), hblank, hlayers,
    (((refused_calls_change_nothing hblank).1 stray 7 _).1 hlayers).1⟩

end Network

end FeedForward
