import FeedForward.Proofs.ModelFile.RoundTrip
import FeedForward.Proofs.ModelFile.Sections

/-!
# The format of model files

Bytes are a model file when they spell sections that agree with each other and nothing else.
Decoding succeeds on exactly these bytes, and all others it refuses for the same kind of reason:
they are no model file. The format is said without the reader and without the checks of restored
layers. Which network a model file stands for is another matter.
-/

namespace FeedForward

/-! ## Modes -/

/-- The mode of a name is the one whose canonical name is the upper case of that name. -/
theorem modeNamed_eq_ok_iff {μ : Type} {canonical : μ → String} (kind name : String)
    (hcanonical : canonical.Injective) {modes : List μ} {mode : μ} :
    modeNamed kind (modes.map fun mode => (canonical mode, mode)) name = .ok mode ↔
      mode ∈ modes ∧ Text.upper name = canonical mode := by
  rw [modeNamed]
  generalize ((modes.map fun mode => (canonical mode, mode)).map Prod.fst) = available
  induction modes with
  | nil => simp
  | cons first modes ih =>
      rw [List.map_cons, List.find?_cons]
      by_cases hfirst : canonical first = Text.upper name
      · simp only [hfirst, beq_self_eq_true, Except.ok.injEq, List.mem_cons]
        constructor
        · rintro rfl
          exact ⟨.inl rfl, hfirst.symm⟩
        · exact fun hmode => hcanonical (hfirst.trans hmode.2)
      · simp only [beq_eq_false_iff_ne.mpr hfirst, ih, List.mem_cons]
        constructor
        · exact fun hmode => ⟨.inr hmode.1, hmode.2⟩
        · rintro ⟨rfl | hmode, hname⟩
          · exact absurd hname.symm hfirst
          · exact ⟨hmode, hname⟩

theorem LearningStyle.ofName_eq_ok_iff {name : String} {style : LearningStyle} :
    LearningStyle.ofName name = .ok style ↔ Text.upper name = style.name := by
  have hcanonical : LearningStyle.name.Injective := by
    intro a b hname
    cases a <;> cases b <;> first | rfl | exact absurd hname (by decide)
  rw [LearningStyle.ofName, modeNamed_eq_ok_iff _ _ hcanonical]
  cases style <;> simp

theorem TrainingMethod.ofName_eq_ok_iff {name : String} {method : TrainingMethod} :
    TrainingMethod.ofName name = .ok method ↔ Text.upper name = method.name := by
  rw [TrainingMethod.ofName, modeNamed_eq_ok_iff _ _ fun a b _ => by cases a; cases b; rfl]
  cases method
  simp

theorem modeNamed_finds {μ : Type} (kind name : String) (modes : List (String × μ)) :
    Check.Finds (fun fault => fault.family = .unsupported) (modeNamed kind modes name) := by
  rw [modeNamed]
  split
  · exact .ok _
  · exact .error rfl

namespace ModelFile

variable {α β : Type} [Scalar α] [Precision α β]

/-! ## What sections have to agree on -/

/-- Whether sections describe a network: every name stands for something, there are at least two
layers of which all but the last have room for a bias unit, and there is one rule, one activation
and one matrix of the right shape between any two neighbouring layers. -/
structure Sections.Consistent (s : Sections α β) : Prop where
  cost_registered : (Cost.registry : Registry (Cost α)).contains s.cost = true
  style_named : ∃ style : LearningStyle, Text.upper s.style = style.name
  method_named : ∃ method : TrainingMethod, Text.upper s.method = method.name
  transformer_registered :
    (Transformer.registry : Registry (Transformer α)).contains s.transformer = true
  two_layers : 2 ≤ s.sizes.length
  size_least : ∀ k size, s.sizes[k]? = some size →
    (if k + 1 = s.sizes.length then 1 else 2) ≤ size
  outputLayer_eq : s.outputLayer = s.sizes.length - 1
  dropRate_unit : Scalar.le (0 : α) (Precision.widen s.dropRate) = true ∧
    Scalar.le (Precision.widen s.dropRate) (1 : α) = true
  rules_length : s.rules.length = s.sizes.length - 1
  rules_registered : ∀ name ∈ s.rules, Rule.registry.contains name = true
  activations_length : s.activations.length = s.sizes.length - 1
  activations_registered : ∀ name ∈ s.activations,
    (Activation.registry : Registry (Activation α)).contains name = true
  matrices_length : s.matrices.length = s.sizes.length - 1
  matrices_shape : ∀ k t, s.matrices[k]? = some t → t.shape.map Int.ofNat =
    [if k + 2 = s.sizes.length then s.sizes.getD (k + 1) 0 else s.sizes.getD (k + 1) 0 - 1,
      s.sizes.getD k 0]

variable {s : Sections α β} {contents : Contents α β}

open Network

/-! ## Assembled networks -/

/-- What the network of some contents is created from. -/
def settings (contents : Contents α β) (style : LearningStyle) (method : TrainingMethod) :
    Settings α where
  learningRate := contents.learningRate
  momentumWeight := contents.momentumWeight
  regularizationWeight := contents.regularizationWeight
  cost := .given contents.cost
  style := style.name
  method := method.name
  transformer := .given contents.transformer
  dropRate := Precision.widen contents.dropRate
  training := false
  seed := none

theorem assemble_eq_ok_iff [Zero β] {activations : List (Activation α)} {net : Network α β}
    (hgiven : contents.topology.activations = activations.map .given) :
    assemble contents = .ok net ↔ ∃ style method bare restored,
      LearningStyle.ofName contents.style = .ok style ∧
        TrainingMethod.ofName contents.method = .ok method ∧
        create (settings contents style method) = .ok bare ∧
        Describes contents.topology restored ∧ bare.withLayers restored activations = net := by
  have hactivations : contents.topology.activations.mapM (resolveOrRefuse Activation.registry) =
      .ok activations := by rw [hgiven, mapM_given]
  simp only [assemble, Check.bind_eq_ok_iff, restoreLayers_run hactivations]
  constructor
  · rintro ⟨style, hstyle, method, hmethod, bare, hbare, hlayers⟩
    cases hcheck : checkTopology contents.topology with
    | error fault => rw [hcheck] at hlayers; cases hlayers
    | ok restored =>
        rw [hcheck] at hlayers
        cases hlayers
        exact ⟨style, method, bare, restored, hstyle, hmethod, hbare,
          checkTopology_eq_ok_iff.mp hcheck, rfl⟩
  · rintro ⟨style, method, bare, restored, hstyle, hmethod, hbare, hplan, rfl⟩
    refine ⟨style, hstyle, method, hmethod, bare, hbare, ?_⟩
    rw [checkTopology_eq_ok_iff.mpr hplan]
    rfl

theorem exists_create_iff (contents : Contents α β) (style : LearningStyle)
    (method : TrainingMethod) :
    (∃ bare : Network α β, create (settings contents style method) = .ok bare) ↔
      Scalar.le (0 : α) (Precision.widen contents.dropRate) = true ∧
        Scalar.le (Precision.widen contents.dropRate) (1 : α) = true := by
  constructor
  · rintro ⟨bare, hbare⟩
    obtain ⟨_, _, _, _, _, _, _, hrate⟩ := create_eq_ok hbare
    exact (checkDropRate_eq_ok_iff.mp hrate).2
  · intro hunit
    have hstyle : LearningStyle.ofName style.name = .ok style := by cases style <;> rfl
    have hrate := checkDropRate_eq_ok_iff.mpr ⟨rfl, hunit⟩
    simp only [create, Check.bind_eq_ok_iff]
    exact ⟨_, _, rfl, style, hstyle, _, rfl, _, hrate, _, rfl, rfl⟩

/-! ## Contents that describe no network -/

theorem checkSizes_finds (layer : Nat) (sizes : List Int) :
    Check.Finds (fun fault => fault.family = .validation) (checkSizes layer sizes) := by
  induction sizes generalizing layer with
  | nil => exact .ok []
  | cons size rest ih =>
      rw [checkSizes]
      exact .guard rfl ((ih (layer + 1)).bind fun _ => .ok _)

theorem checkShapes_finds {γ : Type} (index : Nat) (matrices : List (Tensor γ))
    (shapes : List (List Nat)) :
    Check.Finds (fun fault => fault.family = .validation) (checkShapes index matrices shapes) := by
  induction matrices generalizing index shapes with
  | nil =>
      rw [checkShapes]
      · exact .ok ()
      · simp
  | cons matrix matrices ih =>
      cases shapes with
      | nil => exact .ok ()
      | cons shape shapes =>
          rw [checkShapes]
          split
          · exact ih (index + 1) shapes
          · exact .error rfl

omit [Precision α β] [Scalar α] in
theorem checkTopology_finds {plan : TopologyPlan α β} {matrices : List (Tensor β)}
    (hmatrices : plan.matrices = matrices.map some) :
    Check.Finds (fun fault => fault.family = .validation) (checkTopology plan) := by
  have hrule : ∀ name, Check.Finds (fun fault => fault.family = .validation) (ruleNamed name) := by
    intro name
    rw [ruleNamed]
    split
    · exact .ok _
    · exact .error rfl
  simp only [checkTopology, Check.throw_bind, mapM_lineUp_eq_ok_iff.mpr hmatrices]
  refine .guard rfl (.guard rfl ((checkSizes_finds 0 _).bind fun sizes => .guard rfl ?_))
  exact (checkShapes_finds 0 _ _).bind fun _ => (Check.Finds.mapM hrule _).bind fun _ => .ok _

/-- Contents that describe no network break a rule or ask for a mode in vain. -/
theorem assemble_finds [Zero β] {activations : List (Activation α)} {matrices : List (Tensor β)}
    (hgiven : contents.topology.activations = activations.map .given)
    (hmatrices : contents.topology.matrices = matrices.map some) :
    Check.Finds (fun fault => fault.family = .validation ∨ fault.family = .unsupported)
      (assemble contents : Except Fault (Network α β)) := by
  have hactivations : contents.topology.activations.mapM (resolveOrRefuse Activation.registry) =
      .ok activations := by rw [hgiven, mapM_given]
  have hrate : ∀ rate : α, Check.Finds (fun fault => fault.family = .validation)
      (Settings.checkDropRate rate) := by
    intro rate
    rw [Settings.checkDropRate]
    split
    · exact .ok _
    · exact .error rfl
  have hmode : ∀ {μ : Type} (kind name : String) (modes : List (String × μ)),
      Check.Finds (fun fault => fault.family = .validation ∨ fault.family = .unsupported)
        (modeNamed kind modes name) := fun kind name modes =>
    (modeNamed_finds kind name modes).mono fun _ => .inr
  simp only [assemble, restoreLayers_run hactivations]
  refine .bind (hmode _ _ _) fun style => .bind (hmode _ _ _) fun method => .bind ?_ fun bare => ?_
  · exact .bind (.ok _) fun _ => .bind (hmode _ _ _) fun _ => .bind (.ok _) fun _ =>
      .bind ((hrate _).mono fun _ => .inl) fun _ => .bind (.ok _) fun _ => .ok _
  · cases hcheck : checkTopology contents.topology with
    | error fault => exact .error (.inl (checkTopology_finds hmatrices fault hcheck))
    | ok restored => exact .ok _

/-! ## Sections that describe a network -/

namespace Sections

omit [Precision α β] in
/-- Names that are registered stand for something. -/
theorem exists_names (hcost : (Cost.registry : Registry (Cost α)).contains s.cost = true)
    (htransformer : (Transformer.registry : Registry (Transformer α)).contains s.transformer = true)
    (hrules : ∀ name ∈ s.rules, Rule.registry.contains name = true)
    (hactivations : ∀ name ∈ s.activations,
      (Activation.registry : Registry (Activation α)).contains name = true) :
    ∃ contents : Contents α β, s.Names contents := by
  obtain ⟨cost, hcostFind⟩ := Registry.contains_iff.mp hcost
  obtain ⟨transformer, htransformerFind⟩ := Registry.contains_iff.mp htransformer
  obtain ⟨activations, hactivationsFind⟩ := Registry.exists_values_iff.mpr hactivations
  exact ⟨⟨s.learningRate, s.momentumWeight, s.regularizationWeight, cost, s.style, s.method,
    transformer, s.dropRate, ⟨s.sizes, s.outputLayer, activations.map .given, s.rules,
    s.matrices.map some⟩⟩, {
      learningRate_eq := rfl
      momentumWeight_eq := rfl
      regularizationWeight_eq := rfl
      cost_find := hcostFind
      style_eq := rfl
      method_eq := rfl
      transformer_find := htransformerFind
      dropRate_eq := rfl
      sizes_eq := rfl
      outputLayer_eq := rfl
      rules_eq := rfl
      rules_find := Registry.exists_values_iff.mpr hrules
      activations_find := ⟨activations, hactivationsFind, rfl⟩
      matrices_eq := rfl }⟩

theorem map_find?_ruleRegistry {names : List String} {rules : List Rule} :
    names.map Rule.registry.find? = rules.map some ↔ names = rules.map Rule.key := by
  induction names generalizing rules with
  | nil => cases rules <;> simp
  | cons name names ih => cases rules <;> simp [ih, find?_ruleRegistry]

/-- A matrix has the extents that whole numbers ask for when it has those that the same counts ask
for. -/
theorem shape_eq_iff {sizes shape : List Nat} {k : Nat} (hpositive : 1 ≤ sizes.getD (k + 1) 0) :
    shape.map Int.ofNat = [if k + 2 = (sizes.map Int.ofNat).length then
        (sizes.map Int.ofNat).getD (k + 1) 0 else (sizes.map Int.ofNat).getD (k + 1) 0 - 1,
      (sizes.map Int.ofNat).getD k 0] ↔
    shape = [if k + 2 = sizes.length then sizes.getD (k + 1) 0 else sizes.getD (k + 1) 0 - 1,
      sizes.getD k 0] := by
  have hget : ∀ i, (sizes.map Int.ofNat).getD i 0 = Int.ofNat (sizes.getD i 0) := fun i => by
    simp only [List.getD_eq_getElem?_getD, List.getElem?_map]
    cases sizes[i]? <;> rfl
  have hless : Int.ofNat (sizes.getD (k + 1) 0) - 1 = Int.ofNat (sizes.getD (k + 1) 0 - 1) :=
    (Int.ofNat_sub hpositive).symm
  rw [List.length_map, hget, hget, hless, ← apply_ite Int.ofNat]
  exact ⟨fun hshape => List.map_injective_iff.mpr (fun _ _ => Int.ofNat.inj) hshape,
    fun hshape => congrArg (List.map Int.ofNat) hshape⟩

/-- Every size that leaves room for a unit is positive. -/
theorem getD_pos {sizes : List Nat} (hleast : ∀ k n, sizes[k]? = some n →
    (if k + 1 = sizes.length then 1 else 2) ≤ n) {k : Nat} (hk : k < sizes.length) :
    1 ≤ sizes.getD k 0 := by
  have hsize := hleast k _ (List.getElem?_eq_getElem hk)
  rw [List.getD_eq_getElem _ _ hk]
  split at hsize <;> omega

/-- The shapes of matrices are those between layers of given sizes when there is one matrix for each
pair of neighbouring layers, with the extents of these. -/
theorem shapes_eq_iff {γ : Type} {sizes : List Nat} {matrices : List (Tensor γ)}
    (hleast : ∀ k n, sizes[k]? = some n → (if k + 1 = sizes.length then 1 else 2) ≤ n) :
    matrices.map Tensor.shape = boundaryShapes sizes ↔ matrices.length = sizes.length - 1 ∧
      ∀ k t, matrices[k]? = some t → t.shape.map Int.ofNat =
        [if k + 2 = (sizes.map Int.ofNat).length then (sizes.map Int.ofNat).getD (k + 1) 0
          else (sizes.map Int.ofNat).getD (k + 1) 0 - 1, (sizes.map Int.ofNat).getD k 0] := by
  constructor
  · intro hshapes
    refine ⟨by rw [← List.length_map Tensor.shape, hshapes, length_boundaryShapes], ?_⟩
    intro k t hk
    have hshape := congrArg (·[k]?) hshapes
    simp only [List.getElem?_map, hk, Option.map_some, getElem?_boundaryShapes] at hshape
    split at hshape
    next hlt => exact (shape_eq_iff (getD_pos hleast hlt)).mpr (Option.some.inj hshape)
    next => cases hshape
  · rintro ⟨hlength, hshapes⟩
    apply List.ext_getElem?
    intro k
    rw [List.getElem?_map, getElem?_boundaryShapes]
    split
    next hk =>
      have hmatrix := List.getElem?_eq_getElem (show k < matrices.length by omega)
      rw [hmatrix, Option.map_some, (shape_eq_iff (getD_pos hleast hk)).mp (hshapes k _ hmatrix)]
    next hk => rw [List.getElem?_eq_none (by omega), Option.map_none]

/-- Sizes that leave room for the bias units are counts. -/
theorem Consistent.exists_counts (hs : s.Consistent) :
    ∃ sizes : List Nat, s.sizes = sizes.map Int.ofNat ∧
      ∀ k n, sizes[k]? = some n → (if k + 1 = sizes.length then 1 else 2) ≤ n := by
  have hcounts : ∀ size ∈ s.sizes, Int.ofNat size.toNat = id size := by
    intro size hmem
    obtain ⟨k, hk⟩ := List.mem_iff_getElem?.mp hmem
    have hsize := hs.size_least k size hk
    exact Int.toNat_of_nonneg (by split at hsize <;> omega)
  refine ⟨s.sizes.map Int.toNat, ?_, fun k n hk => ?_⟩
  · rw [List.map_map]
    exact (List.map_id s.sizes).symm.trans (List.map_congr_left fun size hmem =>
      (hcounts size hmem).symm)
  · rw [List.getElem?_map, Option.map_eq_some_iff] at hk
    obtain ⟨size, hk, rfl⟩ := hk
    have hsize := hs.size_least k size hk
    rw [List.length_map]
    split at hsize <;> split <;> omega

section

variable (hnames : s.Names contents)

include hnames

omit [Precision α β] in
theorem Names.length_activations :
    contents.topology.activations.length = s.activations.length := by
  obtain ⟨activations, hfind, hgiven⟩ := hnames.activations_find
  have hlength := congrArg List.length hfind
  rw [List.length_map, List.length_map] at hlength
  rw [hgiven, List.length_map, hlength]

/-- Sections that agree with each other describe layers. -/
theorem Consistent.exists_describes (hs : s.Consistent) :
    ∃ restored, Describes contents.topology restored := by
  obtain ⟨sizes, hsizes, hleast⟩ := hs.exists_counts
  obtain ⟨rules, hrulesFind⟩ := hnames.rules_find
  have hrules := map_find?_ruleRegistry.mp hrulesFind
  have hlength : s.sizes.length = sizes.length := by rw [hsizes, List.length_map]
  have htwo := hs.two_layers
  have hshapes := hs.matrices_shape
  rw [hsizes] at hshapes
  refine ⟨⟨sizes, sizes.length - 1, s.matrices, rules⟩, ?_⟩
  constructor
  case sizes_eq => rw [hnames.sizes_eq, hsizes]
  case outputLayer_eq =>
    rw [hnames.outputLayer_eq, hs.outputLayer_eq, hlength]
    simp only
    omega
  case matrices_eq => exact hnames.matrices_eq
  case rules_eq => rw [hnames.rules_eq, hrules]
  case output_pos => simp only; omega
  case output_last => simp only; omega
  case size_least => exact hleast
  case shapes_eq =>
    exact (shapes_eq_iff hleast).mpr ⟨by rw [hs.matrices_length, hlength], hshapes⟩
  case activations_length => rw [hnames.length_activations, hs.activations_length, hlength]
  case rules_length =>
    have hrulesLength := hs.rules_length
    rw [hrules, List.length_map, hlength] at hrulesLength
    exact hrulesLength

/-- Sections that describe layers agree with each other, if modes and drop rate are right. -/
theorem consistent_of_describes {restored : RestoredLayers β}
    (hplan : Describes contents.topology restored)
    (hstyle : ∃ style : LearningStyle, Text.upper s.style = style.name)
    (hmethod : ∃ method : TrainingMethod, Text.upper s.method = method.name)
    (hunit : Scalar.le (0 : α) (Precision.widen s.dropRate) = true ∧
      Scalar.le (Precision.widen s.dropRate) (1 : α) = true) : s.Consistent := by
  have hsizes : s.sizes = restored.sizes.map Int.ofNat := hnames.sizes_eq ▸ hplan.sizes_eq
  have hmatrices : s.matrices = restored.matrices :=
    List.map_injective_iff.mpr (Option.some_injective _)
      (hnames.matrices_eq ▸ hplan.matrices_eq)
  have hrules : s.rules = restored.rules.map Rule.key := hnames.rules_eq ▸ hplan.rules_eq
  have houtput : s.outputLayer = restored.outputLayer :=
    hnames.outputLayer_eq ▸ hplan.outputLayer_eq
  obtain ⟨activations, hactivations, _⟩ := hnames.activations_find
  obtain ⟨hmatrixCount, hshapes⟩ := (shapes_eq_iff hplan.size_least).mp hplan.shapes_eq
  have hlast := hplan.output_last
  have hpositive := hplan.output_pos
  have hlength : s.sizes.length = restored.sizes.length := by rw [hsizes, List.length_map]
  constructor
  case cost_registered => exact Registry.contains_iff.mpr ⟨_, hnames.cost_find⟩
  case style_named => exact hstyle
  case method_named => exact hmethod
  case transformer_registered => exact Registry.contains_iff.mpr ⟨_, hnames.transformer_find⟩
  case two_layers => omega
  case size_least =>
    intro k size hk
    rw [hsizes, List.getElem?_map, Option.map_eq_some_iff] at hk
    obtain ⟨n, hn, rfl⟩ := hk
    have hleast := hplan.size_least k n hn
    rw [hlength]
    change _ ≤ (n : Int)
    exact_mod_cast hleast
  case outputLayer_eq => omega
  case dropRate_unit => exact hunit
  case rules_length => rw [hrules, List.length_map, hplan.rules_length]; omega
  case rules_registered => exact Registry.exists_values_iff.mp hnames.rules_find
  case activations_length => rw [← hnames.length_activations, hplan.activations_length]; omega
  case activations_registered => exact Registry.exists_values_iff.mp ⟨_, hactivations⟩
  case matrices_length => rw [hmatrices, hmatrixCount, hlength]
  case matrices_shape =>
    rw [hmatrices, hsizes]
    exact hshapes

/-- Sections whose names stand for something describe a network exactly where the checks of modes,
drop rate and layers pass. -/
theorem consistent_iff :
    s.Consistent ↔ (∃ style, LearningStyle.ofName contents.style = .ok style) ∧
      (∃ method, TrainingMethod.ofName contents.method = .ok method) ∧
      (Scalar.le (0 : α) (Precision.widen contents.dropRate) = true ∧
        Scalar.le (Precision.widen contents.dropRate) (1 : α) = true) ∧
      ∃ restored, Describes contents.topology restored := by
  simp only [hnames.style_eq, hnames.method_eq, hnames.dropRate_eq,
    LearningStyle.ofName_eq_ok_iff, TrainingMethod.ofName_eq_ok_iff]
  constructor
  · intro hs
    exact ⟨hs.style_named, hs.method_named, hs.dropRate_unit, hs.exists_describes hnames⟩
  · rintro ⟨hstyle, hmethod, hunit, restored, hplan⟩
    exact consistent_of_describes hnames hplan hstyle hmethod hunit

end

end Sections

/-- What sections describe is a network exactly where they agree with each other. -/
theorem exists_assemble_iff [Zero β] (hnames : s.Names contents) :
    (∃ net : Network α β, assemble contents = .ok net) ↔ s.Consistent := by
  obtain ⟨activations, _, hgiven⟩ := hnames.activations_find
  rw [Sections.consistent_iff hnames]
  constructor
  · rintro ⟨net, hassemble⟩
    obtain ⟨style, method, bare, restored, hstyle, hmethod, hbare, hplan, _⟩ :=
      (assemble_eq_ok_iff hgiven).mp hassemble
    exact ⟨⟨style, hstyle⟩, ⟨method, hmethod⟩,
      (exists_create_iff contents style method).mp ⟨bare, hbare⟩, restored, hplan⟩
  · rintro ⟨⟨style, hstyle⟩, ⟨method, hmethod⟩, hunit, restored, hplan⟩
    obtain ⟨bare, hbare⟩ := (exists_create_iff contents style method).mpr hunit
    exact ⟨_, (assemble_eq_ok_iff hgiven).mpr
      ⟨style, method, bare, restored, hstyle, hmethod, hbare, hplan, rfl⟩⟩

/-! ## Model files -/

section

variable [Encoding α] [Encoding β] [Zero β]

theorem decode_eq_ok_iff {bytes : List UInt8} {net : Network α β} :
    decode bytes = .ok net ↔ read.run bytes = .ok (net, []) := by
  rw [decode, Check.bind_eq_ok_iff]
  constructor
  · rintro ⟨⟨decoded, rest⟩, hread, hrest⟩
    cases rest with
    | nil => cases hrest; exact hread
    | cons byte rest => cases hrest
  · exact fun hread => ⟨(net, []), hread, rfl⟩

variable [FullEncoding α] [FullEncoding β]

/-- Reading gives what the sections describe that are spelled in front. -/
theorem read_eq_ok_iff {bytes rest : List UInt8} {net : Network α β} :
    read.run bytes = .ok (net, rest) ↔ ∃ (s : Sections α β) (contents : Contents α β),
      s.Fits ∧ s.Names contents ∧ bytes = s.bytes ++ rest ∧ assemble contents = .ok net := by
  constructor
  · intro hrun
    obtain ⟨contents, middle, hcontents, hassemble⟩ := Input.bind_eq_ok hrun
    obtain ⟨s, hfits, hnames, rfl⟩ := readContents_eq_ok_iff.mp hcontents
    split at hassemble
    next net hnet => cases hassemble; exact ⟨s, contents, hfits, hnames, rfl, hnet⟩
    next => cases hassemble
  · rintro ⟨s, contents, hfits, hnames, rfl, hassemble⟩
    rw [read, Input.bind_run (readContents_eq_ok_iff.mpr ⟨s, hfits, hnames, rfl⟩), hassemble]
    rfl

/-- Reading fails in one way only. -/
theorem read_refuses : (read : Input (Network α β)).Refuses := by
  intro bytes
  cases hcontents : (readContents : Input (Contents α β)).run bytes with
  | error fault =>
      rw [read, StateT.run_bind, hcontents]
      exact .error (readContents_refuses bytes fault hcontents)
  | ok taken =>
      obtain ⟨contents, rest⟩ := taken
      obtain ⟨s, _, hnames, _⟩ := readContents_eq_ok_iff.mp hcontents
      obtain ⟨activations, _, hgiven⟩ := hnames.activations_find
      rw [read, Input.bind_run hcontents]
      split
      next => exact .ok _
      next cause hassemble =>
        have hblamed : (blamed cause).family = .malformedModel := by
          rcases assemble_finds hgiven hnames.matrices_eq cause hassemble with hfamily | hfamily <;>
            rw [blamed, hfamily] <;> rfl
        exact .error hblamed

/-- Decoding fails in one way only. -/
theorem decode_finds (bytes : List UInt8) :
    Check.Finds (fun fault => fault.family = .malformedModel)
      (decode bytes : Except Fault (Network α β)) := by
  refine (read_refuses bytes).bind fun taken => ?_
  obtain ⟨net, rest⟩ := taken
  cases rest with
  | nil => exact .ok _
  | cons byte rest => exact .error rfl

/-- What comes back is complete and well-formed, and its transformer is a registered one. -/
theorem decode_wellFormed {bytes : List UInt8} {net : Network α β}
    (hdecode : decode bytes = .ok net) : net.WellFormed ∧ net.outputLayer.isSome ∧
      ∃ name, Transformer.registry.find? name = some net.transformer := by
  obtain ⟨s, contents, _, hnames, _, hassemble⟩ :=
    read_eq_ok_iff.mp (decode_eq_ok_iff.mp hdecode)
  obtain ⟨activations, _, hgiven⟩ := hnames.activations_find
  obtain ⟨style, method, bare, restored, _, _, hbare, hplan, rfl⟩ :=
    (assemble_eq_ok_iff hgiven).mp hassemble
  refine ⟨withLayers_wellFormed hplan (by rw [hgiven, List.length_map])
    (create_wellFormed hbare).dropRate_unit, rfl, s.transformer, ?_⟩
  simp only [create, Check.bind_eq_ok_iff, Check.pure_eq_ok_iff] at hbare
  obtain ⟨_, _, _, _, transformer, htransformer, _, _, _, _, rfl⟩ := hbare
  cases htransformer
  exact hnames.transformer_find

end

/-- Whether bytes spell sections that agree with each other, and nothing else. -/
def IsModelFile (bytes : List UInt8) : Prop :=
  ∃ s : Sections Double Single, s.Fits ∧ s.Consistent ∧ bytes = s.bytes

/-- Model files are decoded, and all other bytes are refused because they are no model file. -/
theorem decode_iff_isModelFile (bytes : List UInt8) :
    ((∃ net : Network Double Single, decode bytes = .ok net) ↔ IsModelFile bytes) ∧
      ((∃ fault, (decode bytes : Except Fault (Network Double Single)) = .error fault ∧
        fault.family = .malformedModel) ↔ ¬ IsModelFile bytes) := by
  have haccepts : (∃ net : Network Double Single, decode bytes = .ok net) ↔ IsModelFile bytes := by
    constructor
    · rintro ⟨net, hdecode⟩
      obtain ⟨s, contents, hfits, hnames, hbytes, hassemble⟩ :=
        read_eq_ok_iff.mp (decode_eq_ok_iff.mp hdecode)
      rw [List.append_nil] at hbytes
      exact ⟨s, hfits, (exists_assemble_iff hnames).mp ⟨net, hassemble⟩, hbytes⟩
    · rintro ⟨s, hfits, hs, rfl⟩
      obtain ⟨contents, hnames⟩ := Sections.exists_names hs.cost_registered
        hs.transformer_registered hs.rules_registered hs.activations_registered
      obtain ⟨net, hassemble⟩ := (exists_assemble_iff hnames).mpr hs
      exact ⟨net, decode_eq_ok_iff.mpr (read_eq_ok_iff.mpr
        ⟨s, contents, hfits, hnames, (List.append_nil _).symm, hassemble⟩)⟩
  refine ⟨haccepts, ?_⟩
  rw [← haccepts]
  constructor
  · rintro ⟨fault, hfault, _⟩ ⟨net, hdecode⟩
    rw [hfault] at hdecode
    cases hdecode
  · intro hrefused
    cases hdecode : (decode bytes : Except Fault (Network Double Single)) with
    | ok net => exact absurd ⟨net, hdecode⟩ hrefused
    | error fault => exact ⟨fault, rfl, decode_finds bytes fault hdecode⟩

end ModelFile

end FeedForward
