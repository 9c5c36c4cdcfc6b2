import FeedForward.Proofs.Check
import FeedForward.Proofs.Network.WellFormed
import FeedForward.Proofs.Registry

/-!
# Topology keeps networks well-formed

A new network is well-formed, adding a layer keeps it so, and restored layers make any network
well-formed when their activations are there. What the checks in front of these changes let
through is said exactly.
-/

namespace FeedForward

namespace Network

variable {α β : Type}

section

variable [Scalar α]

/-! ## New networks -/

theorem create_eq_ok {settings : Settings α} {net : Network α β}
    (hcreate : create settings = .ok net) :
    net.sizes = [] ∧ net.weights = [] ∧ net.previous = [] ∧ net.activations = [] ∧
      net.rules = [] ∧ net.outputLayer = none ∧ net.arena = none ∧
      Settings.checkDropRate settings.dropRate = .ok net.dropRate := by
  simp only [create, Check.bind_eq_ok_iff, Check.pure_eq_ok_iff] at hcreate
  obtain ⟨_, _, _, _, _, _, _, hrate, _, _, rfl⟩ := hcreate
  exact ⟨rfl, rfl, rfl, rfl, rfl, rfl, rfl, hrate⟩

theorem checkDropRate_eq_ok_iff {rate checked : α} :
    Settings.checkDropRate rate = .ok checked ↔
      checked = rate ∧ Scalar.le 0 rate = true ∧ Scalar.le rate 1 = true := by
  rw [Settings.checkDropRate]
  split
  next h =>
    rw [Bool.and_eq_true] at h
    constructor
    · intro hrate; cases hrate; exact ⟨rfl, h⟩
    · rintro ⟨rfl, _⟩; rfl
  next h =>
    rw [Bool.and_eq_true] at h
    constructor
    · intro hrate; cases hrate
    · exact fun hrate => absurd hrate.2 h

theorem create_wellFormed {settings : Settings α} {net : Network α β}
    (hcreate : create settings = .ok net) : net.WellFormed := by
  obtain ⟨hsizes, hweights, hprevious, hactivations, hrules, houtput, harena, hrate⟩ :=
    create_eq_ok hcreate
  constructor
  case dropRate_unit =>
    obtain ⟨hrate, hunit⟩ := checkDropRate_eq_ok_iff.mp hrate
    exact hrate ▸ hunit
  all_goals simp [hsizes, hweights, hprevious, hactivations, hrules, houtput, harena]

theorem create_sound {settings : Settings α} {net : Network α β}
    (hcreate : create settings = .ok net) : net.Sound where
  wellFormed := create_wellFormed hcreate
  follow := by
    obtain ⟨_, _, _, _, _, _, hnone, _⟩ := create_eq_ok hcreate
    exact .of_arena_none hnone

/-! ## Added layers -/

theorem checkLayer_eq_ok {net : Network α β} {plan : LayerPlan} {activation : Activation α}
    {rule : Rule} (hcheck : net.checkLayer plan = .ok (activation, rule)) :
    0 < plan.size ∧ net.arena = none ∧ net.outputLayer = none ∧
      (plan.isOutput = true → net.sizes ≠ []) := by
  simp only [checkLayer, Check.throw_bind, Check.ite_error_eq_ok_iff] at hcheck
  obtain ⟨hsize, harena, houtput, hinput, _⟩ := hcheck
  refine ⟨by omega, ?_, ?_, ?_⟩
  · simpa using harena
  · simpa using houtput
  · intro hfinal hempty
    simp [hfinal, hempty] at hinput

theorem addLayer_run [Zero β] [Precision α β] (plan : LayerPlan) (net : Network α β) :
    addLayer plan net = match net.checkLayer plan with
      | .ok (activation, rule) => .ok net.sizes.length (net.grow plan activation rule)
      | .error fault => .error fault net := by
  simp only [addLayer, Step.bind_run, Step.get_run, Step.lift_run]
  cases net.checkLayer plan <;> rfl

end

section

variable [Zero β] [Precision α β] (net : Network α β) (plan : LayerPlan)
  (activation : Activation α) (rule : Rule)

theorem grow_dropRate : (net.grow plan activation rule).dropRate = net.dropRate := by
  rw [grow]
  cases net.sizes.getLast? <;> rfl

theorem grow_arena : (net.grow plan activation rule).arena = net.arena := by
  rw [grow]
  cases net.sizes.getLast? <;> rfl

theorem width_grow_of_lt {k : Nat} (hk : k < net.sizes.length) :
    (net.grow plan activation rule).width k = net.width k := by
  simp [width, grow, List.getElem?_append_left hk]

theorem width_grow_length : (net.grow plan activation rule).width net.sizes.length =
    if plan.isOutput then plan.size.toNat else plan.size.toNat + 1 := by
  simp [width, grow]

theorem biasUnits_grow_of_lt {k : Nat} (hk : k < net.sizes.length) :
    (net.grow plan activation rule).biasUnits k = 1 := by
  have hne : ¬ net.sizes.length = k := by omega
  cases hfinal : plan.isOutput <;> simp [biasUnits, isOutput, grow, hfinal, hne]

theorem biasUnits_grow_length : (net.grow plan activation rule).biasUnits net.sizes.length =
    if plan.isOutput then 0 else 1 := by
  cases hfinal : plan.isOutput <;> simp [biasUnits, isOutput, grow, hfinal]

theorem grow_of_nil (hempty : net.sizes = []) :
    (net.grow plan activation rule).weights = net.weights ∧
      (net.grow plan activation rule).previous = net.previous ∧
      (net.grow plan activation rule).activations = net.activations ∧
      (net.grow plan activation rule).rules = net.rules := by
  simp [grow, hempty]

theorem grow_of_getLast? {columns : Nat} (hlast : net.sizes.getLast? = some columns) :
    ∃ drawn : Tensor β, drawn.shape = [plan.size.toNat, columns] ∧
      (net.grow plan activation rule).weights = net.weights ++ [drawn] ∧
      (net.grow plan activation rule).previous =
        net.previous ++ [Tensor.fill [plan.size.toNat, columns] 0] ∧
      (net.grow plan activation rule).activations = net.activations ++ [activation] ∧
      (net.grow plan activation rule).rules = net.rules ++ [rule] := by
  refine ⟨(drawWeights α plan.size.toNat columns net.source).1, rfl, ?_⟩
  simp [grow, hlast, addBoundary]

variable {net plan activation rule}

/-- Matrices that had the shapes of the boundaries have them still, and the one added for the
boundary in front of the new layer has its shape. -/
theorem boundaryShape_grow (houtput : net.outputLayer = none) {columns k : Nat}
    {matrices : List (Tensor β)} {added matrix : Tensor β}
    (hlast : net.sizes.getLast? = some columns)
    (hlength : matrices.length = net.sizes.length - 1)
    (hshape : ∀ k matrix, matrices[k]? = some matrix → matrix.shape = net.boundaryShape k)
    (hadded : added.shape = [plan.size.toNat, columns])
    (hmatrix : (matrices ++ [added])[k]? = some matrix) :
    matrix.shape = (net.grow plan activation rule).boundaryShape k := by
  have hpositive : 0 < net.sizes.length := List.length_pos_of_mem (List.mem_of_getLast? hlast)
  -- An old boundary leads into a layer that was not the output layer and is not now.
  rcases Nat.lt_trichotomy k matrices.length with hlt | heq | hgt
  · rw [List.getElem?_append_left hlt] at hmatrix
    rw [hshape k matrix hmatrix, boundaryShape, boundaryShape, fedWidth, fedWidth,
      width_grow_of_lt _ _ _ _ (by omega), width_grow_of_lt _ _ _ _ (by omega),
      biasUnits_grow_of_lt _ _ _ _ (by omega)]
    simp [biasUnits, isOutput, houtput]
  · subst heq
    rw [List.getElem?_concat_length, Option.some.injEq] at hmatrix
    have hbehind : matrices.length + 1 = net.sizes.length := by omega
    have hcolumns : net.width matrices.length = columns := by
      rw [List.getLast?_eq_getElem?, ← hlength] at hlast
      simp [width, hlast]
    rw [← hmatrix, hadded, boundaryShape, fedWidth, hbehind, width_grow_length,
      biasUnits_grow_length, width_grow_of_lt _ _ _ _ (by omega), hcolumns]
    cases plan.isOutput <;> simp
  · rw [List.getElem?_eq_none (by simp; omega)] at hmatrix
    cases hmatrix

variable [Scalar α]

variable (plan activation rule) in
/-- The lists of a grown network are as long as its boundaries are many. -/
theorem lengths_grow (hnet : net.WellFormed) :
    (net.grow plan activation rule).weights.length = net.sizes.length ∧
      (net.grow plan activation rule).previous.length = net.sizes.length ∧
      (net.grow plan activation rule).activations.length = net.sizes.length ∧
      (net.grow plan activation rule).rules.length = net.sizes.length := by
  have hweights := hnet.weights_length
  have hprevious := hnet.previous_length
  have hactivations := hnet.activations_length
  have hrules := hnet.rules_length
  cases hlast : net.sizes.getLast? with
  | none =>
      have hempty : net.sizes = [] := by simpa using hlast
      obtain ⟨hw, hp, ha, hr⟩ := grow_of_nil net plan activation rule hempty
      rw [hempty, List.length_nil] at hweights hprevious hactivations hrules
      rw [hw, hp, ha, hr, hempty]
      exact ⟨hweights, hprevious, hactivations, hrules⟩
  | some columns =>
      have hpositive : 0 < net.sizes.length := List.length_pos_of_mem (List.mem_of_getLast? hlast)
      obtain ⟨drawn, _, hw, hp, ha, hr⟩ := grow_of_getLast? net plan activation rule hlast
      rw [hw, hp, ha, hr]
      simp only [List.length_append, List.length_singleton]
      omega

/-- The matrices of a grown network have the shapes of its boundaries. -/
theorem shapes_grow (hnet : net.WellFormed) (houtput : net.outputLayer = none) (k : Nat)
    (matrix : Tensor β) :
    ((net.grow plan activation rule).weights[k]? = some matrix →
      matrix.shape = (net.grow plan activation rule).boundaryShape k) ∧
    ((net.grow plan activation rule).previous[k]? = some matrix →
      matrix.shape = (net.grow plan activation rule).boundaryShape k) := by
  cases hlast : net.sizes.getLast? with
  | none =>
      have hempty : net.sizes = [] := by simpa using hlast
      obtain ⟨hw, hp, _⟩ := lengths_grow plan activation rule hnet
      rw [hempty] at hw hp
      constructor
      · intro hmatrix; rw [List.length_eq_zero_iff.mp hw] at hmatrix; cases hmatrix
      · intro hmatrix; rw [List.length_eq_zero_iff.mp hp] at hmatrix; cases hmatrix
  | some columns =>
      obtain ⟨drawn, hdrawn, hw, hp, _⟩ := grow_of_getLast? net plan activation rule hlast
      constructor
      · intro hmatrix
        rw [hw] at hmatrix
        exact boundaryShape_grow houtput hlast hnet.weights_length hnet.weights_shape hdrawn
          hmatrix
      · intro hmatrix
        rw [hp] at hmatrix
        exact boundaryShape_grow houtput hlast hnet.previous_length hnet.previous_shape rfl
          hmatrix

theorem WellFormed.grow (hnet : net.WellFormed)
    (hcheck : net.checkLayer plan = .ok (activation, rule)) :
    (net.grow plan activation rule).WellFormed := by
  obtain ⟨hsize, harena, houtput, hinput⟩ := checkLayer_eq_ok hcheck
  have hsizes : (net.grow plan activation rule).sizes.length = net.sizes.length + 1 := by
    simp [Network.grow]
  obtain ⟨hw, hp, ha, hr⟩ := lengths_grow plan activation rule hnet
  constructor
  case weights_length => rw [hw, hsizes, Nat.add_sub_cancel]
  case previous_length => rw [hp, hsizes, Nat.add_sub_cancel]
  case activations_length => rw [ha, hsizes, Nat.add_sub_cancel]
  case rules_length => rw [hr, hsizes, Nat.add_sub_cancel]
  case weights_shape => exact fun k matrix => (shapes_grow hnet houtput k matrix).1
  case previous_shape => exact fun k matrix => (shapes_grow hnet houtput k matrix).2
  case output_last =>
    intro layer hlayer
    cases hfinal : plan.isOutput with
    | false => simp [Network.grow, hfinal] at hlayer
    | true =>
        simp only [Network.grow, hfinal, if_true, Option.some.injEq] at hlayer
        subst hlayer
        exact ⟨hsizes.symm, List.length_pos_iff.mpr (hinput hfinal)⟩
  case size_least =>
    intro k size hk
    rcases Nat.lt_trichotomy k net.sizes.length with hlt | heq | hgt
    · have hold : net.sizes[k]? = some size := by
        simpa [Network.grow, List.getElem?_append_left hlt] using hk
      have hleast : 2 ≤ size := by simpa [isOutput, houtput] using hnet.size_least k size hold
      split
      · exact Nat.le_of_succ_le hleast
      · exact hleast
    · subst heq
      have hnew : (if plan.isOutput then plan.size.toNat else plan.size.toNat + 1) = size := by
        simpa [Network.grow] using hk
      subst hnew
      cases hfinal : plan.isOutput <;> simp [isOutput, Network.grow, hfinal] <;> omega
    · rw [List.getElem?_eq_none (by omega)] at hk
      cases hk
  case dropRate_unit =>
    rw [grow_dropRate]
    exact hnet.dropRate_unit
  case arena_complete => rw [grow_arena, harena]; simp
  case arena_fits => rw [grow_arena, harena]; simp

end

theorem preserves_addLayer [Scalar α] [Zero β] [Precision α β] (plan : LayerPlan) :
    Step.Preserves Sound (addLayer plan : Step (Network α β) Nat) := by
  intro net hnet
  rw [Step.after, addLayer_run]
  cases hcheck : net.checkLayer plan with
  | error fault => exact hnet
  | ok checked =>
      obtain ⟨activation, rule⟩ := checked
      have harena := (checkLayer_eq_ok hcheck).2.1
      exact ⟨hnet.wellFormed.grow hcheck, .of_arena_none ((net.grow_arena ..).trans harena)⟩

/-! ## Restored layers -/

theorem checkSizes_eq_ok_iff {layer : Nat} {sizes : List Int} {ns : List Nat} :
    checkSizes layer sizes = .ok ns ↔ sizes = ns.map Int.ofNat ∧
      ∀ k n, ns[k]? = some n → (if k + 1 = ns.length then 1 else 2) ≤ n := by
  induction sizes generalizing layer ns with
  | nil =>
      rw [checkSizes]
      cases ns <;> simp
  | cons size rest ih =>
      simp only [checkSizes, Check.throw_bind, Check.ite_error_eq_ok_iff, Check.bind_eq_ok_iff,
        Check.pure_eq_ok_iff, ih]
      constructor
      · rintro ⟨hsize, ms, ⟨rfl, hms⟩, rfl⟩
        refine ⟨by cases ms <;> simp at hsize ⊢ <;> omega, ?_⟩
        intro k n hk
        -- Whether a size is the last one is seen from the sizes behind it.
        cases k with
        | zero => cases ms <;> simp at hsize hk ⊢ <;> omega
        | succ k => simpa using hms k n (by simpa using hk)
      · rintro ⟨hsizes, hns⟩
        cases ns with
        | nil => simp at hsizes
        | cons m ms =>
            simp only [List.map_cons, List.cons.injEq] at hsizes
            obtain ⟨rfl, rfl⟩ := hsizes
            have hfirst := hns 0 m (by simp)
            refine ⟨by cases ms <;> simp at hfirst ⊢ <;> omega, ms, ⟨rfl, ?_⟩, by simp⟩
            intro k n hk
            simpa using hns (k + 1) n (by simpa using hk)

theorem checkShapes_eq_ok_iff {index : Nat} {matrices : List (Tensor β)}
    {shapes : List (List Nat)} (hlength : matrices.length = shapes.length) :
    checkShapes index matrices shapes = .ok () ↔ matrices.map Tensor.shape = shapes := by
  induction matrices generalizing index shapes with
  | nil =>
      rw [List.length_nil] at hlength
      simp [checkShapes, List.length_eq_zero_iff.mp hlength.symm]
  | cons matrix matrices ih =>
      cases shapes with
      | nil => simp at hlength
      | cons shape shapes =>
          rw [checkShapes]
          split
          next hshape =>
            rw [ih (by simpa using hlength)]
            simp [hshape]
          next hshape => simp [hshape]

theorem lineUp_eq_ok_iff {table : Table β} {matrix : Tensor β} :
    lineUp table = .ok matrix ↔ table = some matrix := by
  cases table <;> simp [lineUp]

theorem find?_ruleRegistry {name : String} {rule : Rule} :
    Rule.registry.find? name = some rule ↔ name = rule.key := by
  constructor
  · intro hfind
    obtain ⟨other, _, heq⟩ := List.mem_map.mp (Registry.mem_of_find? hfind)
    cases heq
    rfl
  · rintro rfl
    cases rule <;> rfl

theorem ruleNamed_eq_ok_iff {name : String} {rule : Rule} :
    ruleNamed name = .ok rule ↔ name = rule.key := by
  rw [← find?_ruleRegistry, ruleNamed]
  cases Rule.registry.find? name <;> simp

theorem length_le_one {sizes : List Nat}
    (hmore : ∀ source destination rest, sizes = source :: destination :: rest → False) :
    sizes.length ≤ 1 := by
  match sizes, hmore with
  | [], _ => exact Nat.zero_le 1
  | [_], _ => exact Nat.le_refl 1
  | source :: destination :: rest, hmore => exact absurd rfl (hmore source destination rest)

theorem getElem?_boundaryShapes (sizes : List Nat) (k : Nat) :
    (boundaryShapes sizes)[k]? = if k + 1 < sizes.length then
      some [if k + 2 = sizes.length then sizes.getD (k + 1) 0 else sizes.getD (k + 1) 0 - 1,
        sizes.getD k 0] else none := by
  induction sizes using boundaryShapes.induct generalizing k with
  | case1 source destination => cases k <;> simp [boundaryShapes]
  | case2 source destination rest hrest ih =>
      cases k with
      | zero => cases rest <;> simp [boundaryShapes] at hrest ⊢
      | succ k => simp [boundaryShapes, ih k]
  | case3 sizes htwo hmore =>
      have hshort := length_le_one hmore
      rw [boundaryShapes, if_neg (by omega)]
      · rfl
      · exact htwo
      · exact hmore

theorem length_boundaryShapes (sizes : List Nat) :
    (boundaryShapes sizes).length = sizes.length - 1 := by
  induction sizes using boundaryShapes.induct with
  | case1 source destination => rfl
  | case2 source destination rest hrest ih => simp [boundaryShapes, ih]
  | case3 sizes htwo hmore =>
      have hshort := length_le_one hmore
      rw [boundaryShapes, List.length_nil]
      · omega
      · exact htwo
      · exact hmore

theorem mapM_lineUp_eq_ok_iff {tables : List (Table β)} {matrices : List (Tensor β)} :
    tables.mapM lineUp = .ok matrices ↔ tables = matrices.map some := by
  rw [Check.mapM_eq_ok_iff]
  induction tables generalizing matrices with
  | nil => cases matrices <;> simp
  | cons table tables ih => cases matrices <;> simp [ih, lineUp_eq_ok_iff]

theorem mapM_ruleNamed_eq_ok_iff {names : List String} {rules : List Rule} :
    names.mapM ruleNamed = .ok rules ↔ names = rules.map Rule.key := by
  rw [Check.mapM_eq_ok_iff]
  induction names generalizing rules with
  | nil => cases rules <;> simp
  | cons name names ih => cases rules <;> simp [ih, ruleNamed_eq_ok_iff]

/-- Layers that a plan may restore: at least two of them, all but the last with room for a bias
unit, and with matrices that lead from each of them to the next. -/
structure Describes (plan : TopologyPlan α β) (restored : RestoredLayers β) : Prop where
  sizes_eq : plan.sizes = restored.sizes.map Int.ofNat
  outputLayer_eq : plan.outputLayer = restored.outputLayer
  matrices_eq : plan.matrices = restored.matrices.map some
  rules_eq : plan.rules = restored.rules.map Rule.key
  output_pos : 1 ≤ restored.outputLayer
  output_last : restored.outputLayer + 1 = restored.sizes.length
  size_least : ∀ k n, restored.sizes[k]? = some n →
    (if k + 1 = restored.sizes.length then 1 else 2) ≤ n
  shapes_eq : restored.matrices.map Tensor.shape = boundaryShapes restored.sizes
  activations_length : plan.activations.length = restored.outputLayer
  rules_length : restored.rules.length = restored.outputLayer

/-- The checks of a plan pass exactly where the plan writes down the restored layers. -/
theorem checkTopology_eq_ok_iff {plan : TopologyPlan α β} {restored : RestoredLayers β} :
    checkTopology plan = .ok restored ↔ Describes plan restored := by
  simp only [checkTopology, Check.throw_bind, Check.ite_error_eq_ok_iff, Check.bind_eq_ok_iff,
    Check.pure_eq_ok_iff, mapM_lineUp_eq_ok_iff, mapM_ruleNamed_eq_ok_iff, checkSizes_eq_ok_iff]
  constructor
  · rintro ⟨htwo, hcounts, sizes, ⟨hsizes, hleast⟩, houtput, matrices, hmatrices, _, hshapes, rules,
      hrules, rfl⟩
    have hlength : plan.sizes.length = sizes.length := by rw [hsizes, List.length_map]
    have hm : plan.matrices.length = matrices.length := by rw [hmatrices, List.length_map]
    have hr : plan.rules.length = rules.length := by rw [hrules, List.length_map]
    have hmany : matrices.length = (boundaryShapes sizes).length := by
      rw [length_boundaryShapes]
      omega
    rw [checkShapes_eq_ok_iff hmany] at hshapes
    exact {
      sizes_eq := hsizes
      outputLayer_eq := by simpa using houtput
      matrices_eq := hmatrices
      rules_eq := hrules
      output_pos := by simp only; omega
      output_last := by simp only; omega
      size_least := hleast
      shapes_eq := hshapes
      activations_length := by simp only; omega
      rules_length := by simp only; omega }
  · intro hplan
    have hlength : plan.sizes.length = restored.sizes.length := by
      rw [hplan.sizes_eq, List.length_map]
    have hlast := hplan.output_last
    have hpositive := hplan.output_pos
    have hmany : restored.matrices.length = (boundaryShapes restored.sizes).length := by
      rw [← hplan.shapes_eq, List.length_map]
    have hmatrices : restored.matrices.length = restored.outputLayer := by
      rw [hmany, length_boundaryShapes]
      omega
    have hboundaries : plan.sizes.length - 1 = restored.outputLayer := by omega
    refine ⟨by omega, ?_, restored.sizes, ⟨hplan.sizes_eq, hplan.size_least⟩, ?_,
      restored.matrices, hplan.matrices_eq, (), (checkShapes_eq_ok_iff hmany).mpr hplan.shapes_eq,
      restored.rules, hplan.rules_eq, ?_⟩
    · rw [hboundaries, hplan.matrices_eq, hplan.rules_eq, List.length_map, List.length_map,
        hmatrices, hplan.activations_length, hplan.rules_length]
      simp
    · rw [hplan.outputLayer_eq, hboundaries]
      simp
    · rw [hboundaries]

/-- The network with restored layers in the place of its own. -/
def withLayers [Zero β] (net : Network α β) (restored : RestoredLayers β)
    (activations : List (Activation α)) : Network α β :=
  { net with
    sizes := restored.sizes
    outputLayer := some restored.outputLayer
    activations
    rules := restored.rules
    weights := restored.matrices
    previous := restored.matrices.map fun matrix => Tensor.fill matrix.shape 0
    arena := none }

variable [Scalar α]

/-- Restoring a plan whose activations are all there puts the layers that it writes down in the
place of the network's own, or changes nothing. -/
theorem restoreLayers_run [Zero β] {plan : TopologyPlan α β} {activations : List (Activation α)}
    (hactivations : plan.activations.mapM (resolveOrRefuse Activation.registry) = .ok activations)
    (net : Network α β) :
    restoreLayers plan net = match checkTopology plan with
      | .ok restored => .ok () (net.withLayers restored activations)
      | .error fault => .error fault net := by
  simp only [restoreLayers, Step.bind_run, Step.lift_run, Step.modify_run, Step.ofExcept_run,
    hactivations]
  cases checkTopology plan <;> rfl

theorem withLayers_wellFormed [Zero β] {plan : TopologyPlan α β} {restored : RestoredLayers β}
    {activations : List (Activation α)} {net : Network α β} (hplan : Describes plan restored)
    (hactivations : activations.length = plan.activations.length)
    (hrate : Scalar.le 0 net.dropRate = true ∧ Scalar.le net.dropRate 1 = true) :
    (net.withLayers restored activations).WellFormed := by
  have hlast := hplan.output_last
  have hpositive := hplan.output_pos
  have hshapes : ∀ k matrix, restored.matrices[k]? = some matrix →
      matrix.shape = (net.withLayers restored activations).boundaryShape k := by
    intro k matrix hmatrix
    have hk := congrArg (·[k]?) hplan.shapes_eq
    simp only [List.getElem?_map, hmatrix, Option.map_some, getElem?_boundaryShapes] at hk
    split at hk
    next hlt =>
      rw [Option.some.injEq] at hk
      rw [hk, boundaryShape, fedWidth, width, width, biasUnits, isOutput, withLayers]
      -- Only the last boundary leads into a layer without a bias unit.
      by_cases hfinal : k + 2 = restored.sizes.length
      · have houtput : restored.outputLayer = k + 1 := by omega
        simp [hfinal, houtput]
      · have houtput : restored.outputLayer ≠ k + 1 := by omega
        simp [hfinal, houtput]
    next => cases hk
  have hmany : restored.matrices.length = restored.sizes.length - 1 := by
    rw [← length_boundaryShapes, ← hplan.shapes_eq, List.length_map]
  constructor
  case weights_length => exact hmany
  case previous_length => simpa [withLayers] using hmany
  case activations_length =>
    change activations.length = restored.sizes.length - 1
    rw [hactivations, hplan.activations_length]
    omega
  case rules_length =>
    change restored.rules.length = restored.sizes.length - 1
    rw [hplan.rules_length]
    omega
  case weights_shape => exact hshapes
  case previous_shape =>
    intro k matrix hmatrix
    simp only [withLayers, List.getElem?_map, Option.map_eq_some_iff] at hmatrix
    obtain ⟨old, hold, rfl⟩ := hmatrix
    exact hshapes k old hold
  case output_last =>
    intro layer hlayer
    obtain rfl : restored.outputLayer = layer := by simpa [withLayers] using hlayer
    exact ⟨hlast, hpositive⟩
  case size_least =>
    intro k size hk
    have hleast := hplan.size_least k size hk
    by_cases hfinal : k + 1 = restored.sizes.length
    · have houtput : restored.outputLayer = k := by omega
      simpa [withLayers, isOutput, hfinal, houtput] using hleast
    · have houtput : restored.outputLayer ≠ k := by omega
      simpa [withLayers, isOutput, hfinal, houtput] using hleast
  case dropRate_unit => exact hrate
  case arena_complete => simp [withLayers]
  case arena_fits => simp [withLayers]

/-- Restored layers keep a network sound when their activations are there. -/
theorem Sound.after_restoreLayers [Zero β] {plan : TopologyPlan α β} {net : Network α β}
    (hnet : net.Sound) {activations : List (Activation α)}
    (hactivations : plan.activations.mapM (resolveOrRefuse Activation.registry) = .ok activations) :
    (Step.after (restoreLayers plan) net).Sound := by
  rw [Step.after, restoreLayers_run hactivations]
  cases hcheck : checkTopology plan with
  | error fault => exact hnet
  | ok restored =>
      have hlength : activations.length = plan.activations.length := by
        have hmap := congrArg List.length (Check.mapM_eq_ok_iff.mp hactivations)
        rw [List.length_map, List.length_map] at hmap
        exact hmap.symm
      exact ⟨withLayers_wellFormed (checkTopology_eq_ok_iff.mp hcheck) hlength
        hnet.wellFormed.dropRate_unit, .of_arena_none rfl⟩

end Network

end FeedForward
