import FeedForward.Proofs.Network.Configured
import FeedForward.Proofs.Network.Stacked
import FeedForward.Proofs.Numeric.Centred
import FeedForward.Proofs.Session.Ledger

/-!
# What configured networks are built from

A model section is accepted if its layers, its names and its drop rate are valid, and then it says
everything about the network that is built. All checks are made layer by layer on the way, so what
is accepted is first told as the layers that the section resolves to. The names of the input layer
are checked with the others and used for nothing. A training method is only taken down; one that
does not exist is what every training pass complains about.
-/

namespace FeedForward

theorem Registry.exists_find?_iff {γ : Type} {r : Registry γ} {name : String} :
    (∃ value, r.find? name = some value) ↔ r.fold name ∈ r.names := by
  rw [names, List.mem_mergeSort, List.mem_map]
  constructor
  · rintro ⟨value, hfind⟩
    exact ⟨_, mem_of_find? hfind, rfl⟩
  · rintro ⟨entry, hentry, hkey⟩
    rw [← Option.isSome_iff_exists, find?, lookup, Option.isSome_map, List.find?_isSome]
    exact ⟨entry, hentry, by simpa using hkey⟩

namespace Network

/-! ## Sections -/

/-- What a section calls something, or what it is called by default, is as it should be. -/
def Called (entries : List (Atom × Value)) (key default : String) (fits : String → Prop) : Prop :=
  ∃ name, Value.Says entries key Value.toText default name ∧ fits name

/-- What a section calls something, or what it is called by default, stands for a value. -/
def Names {γ : Type} (entries : List (Atom × Value)) (key default : String) (r : Registry γ)
    (value : γ) : Prop :=
  Called entries key default fun name => r.find? name = some value

/-- What a section names beside its layers. -/
structure Chooses (entries : List (Atom × Value)) (cost : Cost Double)
    (transformer : Transformer Double) (style : LearningStyle) : Prop where
  cost : Names entries "cost" "squared_error" Cost.registry cost
  transformer : Names entries "feature_transformer" "identity" Transformer.registry transformer
  style : Called entries "learning_style" "supervised" fun name => Text.upper name = style.name

/-- The section of a layer gives it a size. -/
def Sizes (layer : List (Atom × Value)) (size : Int) : Prop :=
  ∃ value, Value.lookup layer "size" = some value ∧ value.toInteger = .ok size

/-- What the fields of a section are converted to whose values are not looked up anywhere. -/
structure Figures where
  sizes : List Int
  learningRate : Double
  momentumWeight : Double
  regularizationWeight : Double
  dropRate : Double
  method : String

/-- The layers of a section are mappings, and these fields of it are converted. Every method is
converted that can be written down. -/
structure Converts (entries : List (Atom × Value)) (layers : List (List (Atom × Value)))
    (figures : Figures) : Prop where
  layers_eq : Value.lookup entries "layers" = some (.list (layers.map .mapping))
  sizes : List.Forall₂ Sizes layers figures.sizes
  learningRate : Value.Says entries "learning_rate" Value.toNumber 0.1 figures.learningRate
  momentumWeight : Value.Says entries "momentum_weight" Value.toNumber 0 figures.momentumWeight
  regularizationWeight :
    Value.Says entries "regularization_weight" Value.toNumber 0 figures.regularizationWeight
  dropRate : Value.Says entries "drop_rate" Value.toNumber 0 figures.dropRate
  method : Value.Says entries "training_method" Value.toText "gradient_descent" figures.method

/-- What a section has to comply with. The case of an activation and of a style does not matter. -/
structure Valid (entries : List (Atom × Value)) (layers : List (List (Atom × Value)))
    (figures : Figures) : Prop where
  layers_least : 2 ≤ layers.length
  sizes_pos : ∀ size ∈ figures.sizes, 0 < size
  activations : ∀ layer ∈ layers, Called layer "activation" "sigmoid" fun name =>
    Text.lower name ∈ (Activation.registry (α := Double)).names
  rules : ∀ layer ∈ layers, Called layer "neuron" "standard" fun name => name ∈ Rule.registry.names
  cost : Called entries "cost" "squared_error" fun name =>
    name ∈ (Cost.registry (α := Double)).names
  transformer : Called entries "feature_transformer" "identity" fun name =>
    name ∈ (Transformer.registry (α := Double)).names
  style : Called entries "learning_style" "supervised" fun name =>
    ∃ style : LearningStyle, Text.upper name = style.name
  dropRate_unit : Scalar.le 0 figures.dropRate = true ∧ Scalar.le figures.dropRate 1 = true

/-- The network that a section says. Its weights, boundary by boundary and row by row, are the first
draws of the source, each a fraction of one less one half. -/
structure Built (entries : List (Atom × Value)) (layers : List (List (Atom × Value)))
    (figures : Figures) (start : Generator) (net : Network Double Single) : Prop where
  wellFormed : net.WellFormed
  complete : net.checkComplete = .ok (layers.length - 1)
  sizes_eq : net.sizes = unitCounts figures.sizes
  activations : List.Forall₂ (Names · "activation" "sigmoid" Activation.registry ·) layers.tail
    net.activations
  rules : List.Forall₂ (Names · "neuron" "standard" Rule.registry ·) layers.tail net.rules
  weights_shape : net.weights.map Tensor.shape = boundaryShapes net.sizes
  weights_drawn : ∃ count, net.weights.flatMap Tensor.toList = start.initialWeights Double count ∧
    (net.weights.flatMap Tensor.toList).map Single.value? =
      (List.range count).map (fun k => some ((start.skip k).coarse - 1 / 2)) ∧
    net.source = start.skip count
  weights_range : ∀ matrix ∈ net.weights, ∀ x ∈ matrix.toList, ∃ v, x.value? = some v ∧
    -1 / 2 ≤ v ∧ v < 1 / 2
  previous_eq : net.previous = (boundaryShapes net.sizes).map fun shape => Tensor.fill shape 0
  chooses : Chooses entries net.cost net.transformer net.style
  learningRate_eq : net.learningRate = figures.learningRate
  momentumWeight_eq : net.momentumWeight = figures.momentumWeight
  regularizationWeight_eq : net.regularizationWeight = figures.regularizationWeight
  dropRate_eq : net.dropRate = figures.dropRate
  method_eq : net.method = figures.method
  training_eq : net.training = false

/-! ## Layers that are resolved -/

/-- A section of a layer resolves to this layer. -/
structure Resolves (layer : List (Atom × Value)) (resolved : ResolvedLayer Double) : Prop where
  size : Sizes layer resolved.size
  activation : Names layer "activation" "sigmoid" Activation.registry resolved.activation
  rule : Names layer "neuron" "standard" Rule.registry resolved.rule

theorem Called.congr {entries others : List (Atom × Value)} {key default : String}
    {fits : String → Prop} (hcalled : Called entries key default fits)
    (hsame : Value.lookup others key = Value.lookup entries key) :
    Called others key default fits := by
  obtain ⟨name, hname, hfits⟩ := hcalled
  exact ⟨name, hname.congr hsame, hfits⟩

theorem Sizes.unique {layer : List (Atom × Value)} {m n : Int} (hm : Sizes layer m)
    (hn : Sizes layer n) : m = n := by
  obtain ⟨value, hvalue, hm⟩ := hm
  obtain ⟨other, hother, hn⟩ := hn
  rw [hvalue] at hother
  cases hother
  rw [hm] at hn
  cases hn
  rfl

theorem exists_forall₂_iff {γ δ : Type} {r : γ → δ → Prop} {xs : List γ} :
    (∃ ys, List.Forall₂ r xs ys) ↔ ∀ x ∈ xs, ∃ y, r x y := by
  induction xs with
  | nil => exact ⟨fun _ => List.forall_mem_nil _, fun _ => ⟨[], .nil⟩⟩
  | cons x xs ih =>
      rw [List.forall_mem_cons, ← ih]
      constructor
      · rintro ⟨_, hall⟩
        cases hall with
        | cons hx hxs => exact ⟨⟨_, hx⟩, ⟨_, hxs⟩⟩
      · rintro ⟨⟨y, hx⟩, ⟨ys, hxs⟩⟩
        exact ⟨y :: ys, .cons hx hxs⟩

theorem exists_names_iff {γ : Type} {entries : List (Atom × Value)} {key default : String}
    {r : Registry γ} : (∃ value, Names entries key default r value) ↔
      Called entries key default fun name => r.fold name ∈ r.names := by
  constructor
  · rintro ⟨value, name, hname, hfind⟩
    exact ⟨name, hname, Registry.exists_find?_iff.mp ⟨value, hfind⟩⟩
  · rintro ⟨name, hname, hkey⟩
    obtain ⟨value, hfind⟩ := Registry.exists_find?_iff.mpr hkey
    exact ⟨value, name, hname, hfind⟩

/-- Behind the input layer there is another layer. -/
theorem exists_input {layers : List (List (Atom × Value))} {resolved : List (ResolvedLayer Double)}
    (hmany : 2 ≤ layers.length) (hresolved : List.Forall₂ Resolves layers resolved) :
    ∃ first rest input others, layers = first :: rest ∧ resolved = input :: others ∧
      others ≠ [] ∧ List.Forall₂ Resolves rest others := by
  cases hresolved with
  | nil => simp at hmany
  | @cons first input rest others _ hothers =>
      refine ⟨first, rest, input, others, rfl, rfl, ?_, hothers⟩
      rintro rfl
      cases hothers
      simp at hmany

/-- A layer with a size resolves if both of its names are found. -/
theorem exists_resolves_iff {layer : List (Atom × Value)} {size : Int}
    (hsize : Sizes layer size) :
    (∃ resolved, Resolves layer resolved) ↔
      (Called layer "activation" "sigmoid" fun name =>
        Text.lower name ∈ (Activation.registry (α := Double)).names) ∧
      Called layer "neuron" "standard" fun name => name ∈ Rule.registry.names := by
  constructor
  · rintro ⟨resolved, -, hactivation, hrule⟩
    exact ⟨exists_names_iff.mp ⟨_, hactivation⟩, exists_names_iff.mp ⟨_, hrule⟩⟩
  · rintro ⟨hactivation, hrule⟩
    obtain ⟨activation, hactivation⟩ := exists_names_iff.mpr hactivation
    obtain ⟨rule, hrule⟩ := exists_names_iff.mpr hrule
    exact ⟨⟨size, activation, rule⟩, hsize, hactivation, hrule⟩

section

variable {net after : Network Double Single} (harena : net.arena = none)

include harena

theorem addConfigured_cons_eq_ok_iff {layer : List (Atom × Value)} {rest : List Value}
    (houtput : net.outputLayer = none) (hinput : rest.isEmpty = true → net.sizes ≠ []) :
    addConfigured (.mapping layer :: rest) net = .ok () after ↔ ∃ resolved,
      Resolves layer resolved ∧ 0 < resolved.size ∧
      addConfigured rest (net.extended resolved rest.isEmpty) = .ok () after := by
  rw [addConfigured]
  constructor
  · intro hrun
    obtain ⟨plan, _, hlift, hrun⟩ := Step.bind_eq_ok hrun
    obtain ⟨hplan, rfl⟩ := Step.lift_eq_ok hlift
    obtain ⟨hlast, hsize, hactivation, hrule⟩ := layerOf_eq_ok_iff.mp hplan
    obtain ⟨_, grown, hadd, hrest⟩ := Step.bind_eq_ok hrun
    rw [addLayer_run] at hadd
    cases hcheck : net.checkLayer plan with
    | error fault => rw [hcheck] at hadd; cases hadd
    | ok checked =>
        obtain ⟨activation, rule⟩ := checked
        rw [hcheck] at hadd
        cases hadd
        obtain ⟨hpositive, -, -, -, hf, hr⟩ := checkLayer_eq_ok_iff.mp hcheck
        refine ⟨⟨plan.size, activation, rule⟩,
          ⟨hsize, ⟨_, hactivation, hf⟩, ⟨_, hrule, hr⟩⟩, hpositive, ?_⟩
        rw [← hlast]
        exact hrest
  · rintro ⟨resolved, ⟨hsize, ⟨f, hactivation, hf⟩, ⟨key, hrule, hr⟩⟩, hpositive, hrest⟩
    have hplan : layerOf (.mapping layer) rest.isEmpty =
        .ok ⟨resolved.size, rest.isEmpty, f, key⟩ :=
      layerOf_eq_ok_iff.mpr ⟨rfl, hsize, hactivation, hrule⟩
    have hcheck : net.checkLayer ⟨resolved.size, rest.isEmpty, f, key⟩ =
        .ok (resolved.activation, resolved.rule) :=
      checkLayer_eq_ok_iff.mpr ⟨hpositive, harena, houtput, hinput, hf, hr⟩
    simp only [Step.bind_run, Step.lift_run, hplan, addLayer_run, hcheck]
    exact hrest

/-- Adding configured layers succeeds if they resolve to layers that have a unit each. -/
theorem addConfigured_eq_ok_iff {layers : List (List (Atom × Value))}
    (houtput : layers ≠ [] → net.outputLayer = none)
    (hinput : net.sizes = [] → layers.length ≠ 1) :
    addConfigured (layers.map .mapping) net = .ok () after ↔ ∃ resolved,
      List.Forall₂ Resolves layers resolved ∧ (∀ layer ∈ resolved, 0 < layer.size) ∧
      after = stacked resolved net := by
  induction layers generalizing net with
  | nil =>
      constructor
      · intro hrun
        cases hrun
        exact ⟨[], .nil, List.forall_mem_nil _, rfl⟩
      · rintro ⟨resolved, hresolved, -, rfl⟩
        cases hresolved
        rfl
  | cons layer rest ih =>
      have hnone := houtput (List.cons_ne_nil _ _)
      have hinner : (rest.map Value.mapping).isEmpty = true → net.sizes ≠ [] := by
        intro hlast hempty
        exact hinput hempty (by simpa using hlast)
      have hlast {others : List (ResolvedLayer Double)}
          (hothers : List.Forall₂ Resolves rest others) : rest.isEmpty = others.isEmpty := by
        cases hothers <;> rfl
      have hrest (resolved : ResolvedLayer Double) :=
        @ih (net.extended resolved rest.isEmpty) ((net.grow_arena ..).trans harena)
          (fun hmore => by simp [extended, grow, hmore]) (by simp [extended, grow])
      rw [List.map_cons, addConfigured_cons_eq_ok_iff harena hnone hinner]
      simp only [List.isEmpty_map, hrest]
      constructor
      · rintro ⟨resolved, hresolves, hpositive, others, hothers, hmore, hafter⟩
        exact ⟨resolved :: others, .cons hresolves hothers,
          List.forall_mem_cons.mpr ⟨hpositive, hmore⟩, by rw [stacked, ← hlast hothers, hafter]⟩
      · rintro ⟨all, hall, hpositive, rfl⟩
        cases hall with
        | cons hresolves hothers =>
            obtain ⟨hfirst, hmore⟩ := List.forall_mem_cons.mp hpositive
            exact ⟨_, hresolves, hfirst, _, hothers, hmore, by rw [stacked, hlast hothers]⟩

end

/-! ## Methods -/

section

variable {α β γ : Type} [Scalar α] [Add β] [Zero β] [Precision α β]

omit [Add β] [Zero β] [Precision α β] in
theorem method_of_lasting {net other : Network α β} (hsame : other.lasting = net.lasting) :
    other.method = net.method :=
  (congrArg method hsame : other.lasting.method = net.lasting.method)

theorem keepsMethod_trainByInstance (x : Instance α) (iteration : Int) :
    Step.Keeps method (trainByInstance x iteration : Step (Network α β) (List (Tensor β))) :=
  .bind .get fun _ => .bind (.lift _) fun _ =>
    .bind (fun net => method_of_lasting (keeps_forward _ net)) fun _ => .bind (.lift _) fun _ =>
      .bind (.modify fun _ => rfl) fun _ => keeps_backward (fun _ _ => rfl) (fun _ _ => rfl) _ _

theorem method_apply (operation : Operation α β) (net : Network α β) :
    (operation.apply net).method = net.method := by
  cases operation with
  | addLayer plan =>
      change (Step.after (addLayer plan) net).method = net.method
      rw [Step.after, addLayer_run]
      cases net.checkLayer plan with
      | error fault => rfl
      | ok checked =>
          dsimp only
          rw [grow]
          cases net.sizes.getLast? <;> rfl
  | restoreLayers plan => exact keeps_restoreLayers (fun _ _ => rfl) (fun _ _ _ => rfl) plan net
  | setWeightMatrix index table => exact keeps_setWeightMatrix (fun _ _ => rfl) index table net
  | updateWeights updates => exact keeps_updateWeights (fun _ _ => rfl) updates net
  | setTraining training => rfl
  | setDropRate rate =>
      have hrate : Step.Keeps method (setDropRate rate : Step (Network α β) Unit) :=
        .bind (.lift _) fun _ => .modify fun _ => rfl
      exact hrate net
  | neurons => exact keeps_neurons (fun _ _ => rfl) net
  | getOutput features =>
      have houtput : Step.Keeps method (getOutput features : Step (Network α β) (List α)) :=
        .bind .get fun _ => .bind (.lift _) fun _ net => method_of_lasting (keeps_forward _ net)
      exact houtput net
  | trainByInstance x iteration => exact keepsMethod_trainByInstance x iteration net
  | trainOnline x iteration =>
      exact Step.Keeps.bind (keepsMethod_trainByInstance x iteration)
        (fun _ => .bind (keeps_updateWeights (fun _ _ => rfl) _) fun _ => .pure _) net

/-- Nothing that befalls a network changes its method. -/
theorem method_live (episodes : List (Episode α β)) (net : Network α β) :
    (live episodes net).method = net.method := by
  have hupdate (updates : List (Update α β)) :
      Step.Keeps method (updateWeights updates : Step (Network α β) Unit) :=
    keeps_updateWeights (fun _ _ => rfl) updates
  have henduring (name : String) :
      Session.Enduring fun net : Network α β => net.method = name := {
    previous := fun _ _ hnet => hnet
    pass := fun x iteration net hnet => (keepsMethod_trainByInstance x iteration net).trans hnet
    update := fun updates net hnet => (hupdate updates net).trans hnet
    training := fun training net hnet => hnet }
  induction episodes generalizing net with
  | nil => rfl
  | cons episode rest ih =>
      refine (ih (episode.apply net)).trans ?_
      cases episode with
      | ask operation => exact method_apply operation net
      | train plan listeners instances iteration log =>
          exact (henduring net.method).run plan listeners instances ⟨net, iteration, log⟩ rfl

/-- A method that does not exist is what is wrong with every instance. -/
theorem trainByInstance_of_method {net : Network α β}
    (hmethod : Text.upper net.method ≠ TrainingMethod.gradientDescent.name) (x : Instance α)
    (iteration : Int) : trainByInstance x iteration net =
      .error (.unsupportedMode "TrainingMethod" net.method [TrainingMethod.gradientDescent.name])
        net := by
  refine trainByInstance_refused ?_ iteration
  have hname := TrainingMethod.ofName_heeds net.method
  rw [if_pos hmethod] at hname
  rw [checkInstance, show TrainingMethod.ofName net.method = .error _ from hname]
  rfl

end

/-! ## What is accepted -/

/-- Weights that are drawn one after the other are fractions of one less one half. -/
theorem value_initialWeights (count : Nat) (start : Generator) :
    (start.initialWeights Double count : List Single).map Single.value? =
      (List.range count).map fun k => some ((start.skip k).coarse - 1 / 2) := by
  simp only [Generator.initialWeights, List.map_map, Function.comp_def, Single.value_centred]

theorem value_of_mem_initialWeights {count : Nat} {start : Generator} {x : Single}
    (hx : x ∈ (start.initialWeights Double count : List Single)) :
    ∃ v, x.value? = some v ∧ -1 / 2 ≤ v ∧ v < 1 / 2 := by
  obtain ⟨k, -, rfl⟩ := List.mem_map.mp hx
  refine ⟨_, Single.value_centred _, ?_, ?_⟩
  · linarith [(start.skip k).coarse_nonneg]
  · linarith [(start.skip k).coarse_lt_one]

/-- A network without boundaries. -/
def Figures.found (figures : Figures) (cost : Cost Double) (transformer : Transformer Double)
    (style : LearningStyle) (start : Generator) (sizes : List Nat) : Network Double Single where
  learningRate := figures.learningRate
  momentumWeight := figures.momentumWeight
  regularizationWeight := figures.regularizationWeight
  cost := cost
  style := style
  method := figures.method
  transformer := transformer
  dropRate := figures.dropRate
  training := false
  trainingError := 0
  sizes := sizes
  weights := []
  previous := []
  activations := []
  rules := []
  outputLayer := none
  source := start
  arena := none

/-- The first layer that is stacked on a network without layers brings only its units. -/
theorem stacked_found (figures : Figures) (cost : Cost Double) (transformer : Transformer Double)
    (style : LearningStyle) (start : Generator) (input : ResolvedLayer Double)
    {others : List (ResolvedLayer Double)} (hmore : others ≠ []) :
    stacked (input :: others) (figures.found cost transformer style start []) =
      stacked others (figures.found cost transformer style start [input.size.toNat + 1]) := by
  have hlast : others.isEmpty = false := by simpa using hmore
  rw [stacked, hlast, extended_of_nil rfl]
  rfl

section

variable {entries : List (Atom × Value)} {layers : List (List (Atom × Value))} {figures : Figures}
  {seed : Option Int} {start : Generator} (hconverts : Converts entries layers figures)
  (hseed : Generator.ofSeed seed = .ok start)

include hconverts

theorem layersIn_eq_ok_iff {values : List Value} : layersIn entries = .ok values ↔
    2 ≤ layers.length ∧ values = layers.map .mapping := by
  rw [layersIn, hconverts.layers_eq]
  simp only [Check.ite_error_eq_ok_iff, List.length_map, Nat.not_lt, Except.ok.injEq]
  exact and_congr_right fun _ => eq_comm

theorem Converts.sizes_of_resolves {resolved : List (ResolvedLayer Double)}
    (hresolved : List.Forall₂ Resolves layers resolved) :
    resolved.map ResolvedLayer.size = figures.sizes := by
  have hsizes := hconverts.sizes
  generalize figures.sizes = sizes at hsizes
  clear hconverts
  induction hsizes generalizing resolved with
  | nil => cases hresolved; rfl
  | cons hsize _ ih =>
      cases hresolved with
      | cons hfirst hrest => rw [List.map_cons, hfirst.size.unique hsize, ih hrest]

theorem Converts.exists_resolved_iff : (∃ resolved, List.Forall₂ Resolves layers resolved) ↔
    (∀ layer ∈ layers, Called layer "activation" "sigmoid" fun name =>
      Text.lower name ∈ (Activation.registry (α := Double)).names) ∧
    ∀ layer ∈ layers, Called layer "neuron" "standard" fun name => name ∈ Rule.registry.names := by
  have hsize : ∀ layer ∈ layers, ∃ size, Sizes layer size :=
    exists_forall₂_iff.mp ⟨_, hconverts.sizes⟩
  rw [exists_forall₂_iff]
  constructor
  · intro hall
    have hnames layer hlayer := (exists_resolves_iff (hsize layer hlayer).choose_spec).mp
      (hall layer hlayer)
    exact ⟨fun layer hlayer => (hnames layer hlayer).1, fun layer hlayer => (hnames layer hlayer).2⟩
  · rintro ⟨hactivations, hrules⟩ layer hlayer
    obtain ⟨size, hsize⟩ := hsize layer hlayer
    exact (exists_resolves_iff hsize).mpr ⟨hactivations layer hlayer, hrules layer hlayer⟩

include hseed

theorem create_settingsIn_eq_ok_iff {created : Network Double Single} :
    (settingsIn entries seed >>= create) = .ok created ↔
      (Scalar.le 0 figures.dropRate = true ∧ Scalar.le figures.dropRate 1 = true) ∧
      ∃ cost transformer style, Chooses entries cost transformer style ∧
        created = figures.found cost transformer style start [] := by
  simp only [settingsIn, numberIn_eq_ok_iff.mpr hconverts.learningRate,
    numberIn_eq_ok_iff.mpr hconverts.momentumWeight,
    numberIn_eq_ok_iff.mpr hconverts.regularizationWeight,
    numberIn_eq_ok_iff.mpr hconverts.dropRate, nameIn_eq_ok_iff.mpr hconverts.method,
    nameIn_eq_ok_iff, Check.bind_eq_ok_iff, Check.pure_eq_ok_iff, create,
    LearningStyle.ofName_eq_ok_iff, checkDropRate_eq_ok_iff, Except.ok.injEq]
  constructor
  · rintro ⟨settings, ⟨_, rfl, _, rfl, _, rfl, costName, hcostName, styleName, hstyleName, _, rfl,
      transformerName, htransformerName, _, rfl, rfl⟩, cost, hcost, style, hstyle, transformer,
      htransformer, _, ⟨rfl, hunit⟩, source, hsource, rfl⟩
    obtain rfl : start = source := Except.ok.inj (hseed.symm.trans hsource)
    exact ⟨hunit, cost, transformer, style,
      ⟨⟨costName, hcostName, resolve_named_eq_ok_iff.mp hcost⟩,
        ⟨transformerName, htransformerName, resolve_named_eq_ok_iff.mp htransformer⟩,
        ⟨styleName, hstyleName, hstyle⟩⟩, rfl⟩
  · rintro ⟨hunit, cost, transformer, style, ⟨⟨costName, hcostName, hcost⟩,
      ⟨transformerName, htransformerName, htransformer⟩, ⟨styleName, hstyleName, hstyle⟩⟩, rfl⟩
    exact ⟨_, ⟨_, rfl, _, rfl, _, rfl, costName, hcostName, styleName, hstyleName, _, rfl,
      transformerName, htransformerName, _, rfl, rfl⟩, cost, resolve_named_eq_ok_iff.mpr hcost,
      style, hstyle, transformer, resolve_named_eq_ok_iff.mpr htransformer, _, ⟨rfl, hunit⟩, start,
      hseed, rfl⟩

/-- A section is accepted if its layers, its names and its drop rate are, and it is told what comes
of it. -/
theorem configured_eq_ok_iff {net : Network Double Single} :
    configured (.mapping entries) seed = .ok net ↔ 2 ≤ layers.length ∧
      (Scalar.le 0 figures.dropRate = true ∧ Scalar.le figures.dropRate 1 = true) ∧
      ∃ cost transformer style resolved, Chooses entries cost transformer style ∧
        List.Forall₂ Resolves layers resolved ∧ (∀ layer ∈ resolved, 0 < layer.size) ∧
        net = stacked resolved (figures.found cost transformer style start []) := by
  constructor
  · intro hnet
    rw [configured] at hnet
    simp only [Check.bind_eq_ok_iff, layersIn_eq_ok_iff hconverts] at hnet
    obtain ⟨_, ⟨hmany, rfl⟩, settings, hsettings, created, hcreate, hadd⟩ := hnet
    obtain ⟨hunit, cost, transformer, style, hchooses, rfl⟩ :=
      (create_settingsIn_eq_ok_iff hconverts hseed).mp
        (Check.bind_eq_ok_iff.mpr ⟨settings, hsettings, hcreate⟩)
    cases hrun : addConfigured (layers.map .mapping)
        (figures.found cost transformer style start []) with
    | error fault after => rw [hrun] at hadd; cases hadd
    | ok _ after =>
        rw [hrun] at hadd
        cases hadd
        obtain ⟨resolved, hresolved⟩ :=
          (addConfigured_eq_ok_iff rfl (fun _ => rfl) (fun _ => by omega)).mp hrun
        exact ⟨hmany, hunit, cost, transformer, style, resolved, hchooses, hresolved⟩
  · rintro ⟨hmany, hunit, cost, transformer, style, resolved, hchooses, hresolved⟩
    obtain ⟨settings, hsettings, hcreate⟩ := Check.bind_eq_ok_iff.mp
      ((create_settingsIn_eq_ok_iff hconverts hseed).mpr
        ⟨hunit, cost, transformer, style, hchooses, rfl⟩)
    have hrun := (addConfigured_eq_ok_iff rfl (fun _ => rfl) (fun _ => by omega)).mpr
      ⟨resolved, hresolved⟩
    rw [configured]
    simp only [Check.bind_eq_ok_iff, layersIn_eq_ok_iff hconverts]
    refine ⟨_, ⟨hmany, rfl⟩, settings, hsettings, _, hcreate, ?_⟩
    rw [hrun]
    rfl

/-- A section is accepted if it is valid. -/
theorem exists_configured_iff :
    (∃ net, configured (.mapping entries) seed = .ok net) ↔ Valid entries layers figures := by
  simp only [configured_eq_ok_iff hconverts hseed]
  constructor
  · rintro ⟨_, hmany, hunit, cost, transformer, style, resolved,
      ⟨hcost, htransformer, ⟨styleName, hstyleName, hstyle⟩⟩, hresolved, hpositive, rfl⟩
    obtain ⟨hactivations, hrules⟩ := hconverts.exists_resolved_iff.mp ⟨resolved, hresolved⟩
    exact {
      layers_least := hmany
      sizes_pos := by
        rw [← hconverts.sizes_of_resolves hresolved, List.forall_mem_map]
        exact hpositive
      activations := hactivations
      rules := hrules
      cost := exists_names_iff.mp ⟨cost, hcost⟩
      transformer := exists_names_iff.mp ⟨transformer, htransformer⟩
      style := ⟨styleName, hstyleName, style, hstyle⟩
      dropRate_unit := hunit }
  · intro hvalid
    obtain ⟨resolved, hresolved⟩ :=
      hconverts.exists_resolved_iff.mpr ⟨hvalid.activations, hvalid.rules⟩
    obtain ⟨cost, hcost⟩ := exists_names_iff.mpr hvalid.cost
    obtain ⟨transformer, htransformer⟩ := exists_names_iff.mpr hvalid.transformer
    obtain ⟨styleName, hstyleName, style, hstyle⟩ := hvalid.style
    refine ⟨_, hvalid.layers_least, hvalid.dropRate_unit, cost, transformer, style, resolved,
      ⟨hcost, htransformer, ⟨styleName, hstyleName, hstyle⟩⟩, hresolved, ?_, rfl⟩
    rw [← List.forall_mem_map, hconverts.sizes_of_resolves hresolved]
    exact hvalid.sizes_pos

/-! ## What is built -/

/-- What an accepted section builds is what it says. -/
theorem built_of_configured {net : Network Double Single}
    (hnet : configured (.mapping entries) seed = .ok net) :
    Built entries layers figures start net := by
  have hwellFormed := (portable_configured hnet).wellFormed
  obtain ⟨hmany, -, cost, transformer, style, resolved, hchooses, hresolved, -, rfl⟩ :=
    (configured_eq_ok_iff hconverts hseed).mp hnet
  have hsizes := hconverts.sizes_of_resolves hresolved
  obtain ⟨first, rest, input, others, rfl, rfl, hmore, hothers⟩ := exists_input hmany hresolved
  rw [stacked_found _ _ _ _ _ _ hmore] at hwellFormed ⊢
  have hstacks : Stacks (figures.found cost transformer style start [input.size.toNat + 1])
    others (stacked others _) := stacks_stacked (List.cons_ne_nil _ _) others
  generalize stacked (β := Single) others _ = net at hstacks hwellFormed ⊢
  have houtput : net.outputLayer = some others.length := by
    rw [hstacks.outputLayer_eq hmore]
    exact congrArg some (Nat.add_sub_cancel_left ..)
  obtain ⟨drawn, count, hweights, hlist, hsource, hprevious⟩ := hstacks.matrices
  have hweights : net.weights = drawn := hweights
  have hshapes := hwellFormed.shapes_eq_boundaryShapes houtput
  exact {
    wellFormed := hwellFormed
    complete := by
      rw [checkComplete, houtput, List.length_cons, Nat.add_sub_cancel, hothers.length_eq]
      cases others with
      | nil => exact absurd rfl hmore
      | cons other others => rfl
    sizes_eq := by
      rw [hstacks.sizes_eq, ← hsizes, List.map_cons, unitCounts_cons, List.isEmpty_map,
        if_neg (by simpa using hmore)]
      rfl
    activations := by
      rw [hstacks.activations_eq]
      exact List.forall₂_map_right_iff.mpr (hothers.imp fun _ _ h => h.activation)
    rules := by
      rw [hstacks.rules_eq]
      exact List.forall₂_map_right_iff.mpr (hothers.imp fun _ _ h => h.rule)
    weights_shape := hshapes
    weights_drawn := ⟨count, by rw [hweights, hlist]; rfl, by
      rw [hweights, hlist]; exact value_initialWeights count start, hsource⟩
    weights_range := by
      intro matrix hmatrix x hx
      have hmem : x ∈ net.weights.flatMap Tensor.toList :=
        List.mem_flatMap.mpr ⟨matrix, hmatrix, hx⟩
      rw [hweights, hlist] at hmem
      exact value_of_mem_initialWeights hmem
    previous_eq := by
      rw [hprevious, ← hshapes, hweights, List.map_map]
      rfl
    chooses := by
      have hcost : net.cost = cost := congrArg Network.cost hstacks.unlayered_eq
      have htransformer : net.transformer = transformer :=
        congrArg Network.transformer hstacks.unlayered_eq
      have hstyle : net.style = style := congrArg Network.style hstacks.unlayered_eq
      rw [hcost, htransformer, hstyle]
      exact hchooses
    learningRate_eq := congrArg Network.learningRate hstacks.unlayered_eq
    momentumWeight_eq := congrArg Network.momentumWeight hstacks.unlayered_eq
    regularizationWeight_eq := congrArg Network.regularizationWeight hstacks.unlayered_eq
    dropRate_eq := congrArg Network.dropRate hstacks.unlayered_eq
    method_eq := congrArg Network.method hstacks.unlayered_eq
    training_eq := congrArg Network.training hstacks.unlayered_eq }

/-- The names of the input layer have to be valid and are used for nothing. -/
theorem configured_of_input {others : List (Atom × Value)} {input : List (Atom × Value)}
    (hothers : Converts others (input :: layers.tail) figures)
    (hsame : ∀ key, key ≠ "layers" → Value.lookup others key = Value.lookup entries key)
    (hvalid : Valid others (input :: layers.tail) figures) {net : Network Double Single}
    (hnet : configured (.mapping entries) seed = .ok net) :
    configured (.mapping others) seed = .ok net := by
  obtain ⟨hmany, hunit, cost, transformer, style, resolved, hchooses, hresolved, hpositive, rfl⟩ :=
    (configured_eq_ok_iff hconverts hseed).mp hnet
  obtain ⟨all, hall⟩ := hothers.exists_resolved_iff.mpr ⟨hvalid.activations, hvalid.rules⟩
  have hsizes : all.map ResolvedLayer.size = resolved.map ResolvedLayer.size :=
    (hothers.sizes_of_resolves hall).trans (hconverts.sizes_of_resolves hresolved).symm
  obtain ⟨_, _, first, others', rfl, rfl, hmore, hrest⟩ := exists_input hmany hresolved
  cases hall with
  | @cons _ again _ _ hagain _ =>
      have hsize : again.size = first.size := (List.cons.inj hsizes).1
      refine (configured_eq_ok_iff hothers hseed).mpr ⟨hmany, hunit, cost, transformer, style,
        again :: others', ⟨hchooses.cost.congr (hsame _ (by decide)),
          hchooses.transformer.congr (hsame _ (by decide)),
          hchooses.style.congr (hsame _ (by decide))⟩, .cons hagain hrest, ?_, ?_⟩
      · rw [List.forall_mem_cons] at hpositive ⊢
        exact ⟨hsize ▸ hpositive.1, hpositive.2⟩
      · rw [stacked_found _ _ _ _ _ _ hmore, stacked_found _ _ _ _ _ _ hmore, hsize]

/-- A section is accepted if it is valid, and then it builds what it says: a complete network that
has a bias unit in every layer but the last one, the activation and the rule of each layer behind
the first one at its boundary, and the first draws of the seed as weights, less one half each. What
the first layer has of names may be exchanged for other valid names. A method that does not exist
is accepted; it is what every training pass of the network fails with, whatever befalls the network
in between and whatever the instance is. -/
theorem configured_builds :
    ((∃ net, configured (.mapping entries) seed = .ok net) ↔ Valid entries layers figures) ∧
    ∀ net, configured (.mapping entries) seed = .ok net →
      Built entries layers figures start net ∧
      (∀ others input : List (Atom × Value), Converts others (input :: layers.tail) figures →
        (∀ key, key ≠ "layers" → Value.lookup others key = Value.lookup entries key) →
        Valid others (input :: layers.tail) figures →
        configured (.mapping others) seed = .ok net) ∧
      (Text.upper figures.method ≠ TrainingMethod.gradientDescent.name →
        ∀ (episodes : List (Episode Double Single)) (x : Instance Double) (iteration : Int),
          let later := live episodes net
          trainByInstance x iteration later = .error (.unsupportedMode "TrainingMethod"
            figures.method [TrainingMethod.gradientDescent.name]) later) := by
  refine ⟨exists_configured_iff hconverts hseed, fun net hnet => ?_⟩
  have hbuilt := built_of_configured hconverts hseed hnet
  refine ⟨hbuilt, fun others input hothers hsame hvalid =>
    configured_of_input hconverts hseed hothers hsame hvalid hnet,
    fun hmethod episodes x iteration => ?_⟩
  have hlater := (method_live episodes net).trans hbuilt.method_eq
  rw [← hlater] at hmethod ⊢
  exact trainByInstance_of_method hmethod x iteration

end

/-- Two layers, the first with an activation that it has no use for, rates that are given as
numbers and as texts, and a method that does not exist. -/
def newtonSection : List (Atom × Value) := [
  (.text "layers", .list [
    .mapping [(.text "size", .integer 2), (.text "activation", .text "TANH")],
    .mapping [(.text "size", .integer 1)]]),
  (.text "learning_rate", .number 0.5), (.text "momentum_weight", .text "0.25"),
  (.text "regularization_weight", .integer 2), (.text "drop_rate", .text "5e-1"),
  (.text "training_method", .text "newton")]

/-- The layers of this section. -/
def newtonLayers : List (List (Atom × Value)) := [
  [(.text "size", .integer 2), (.text "activation", .text "TANH")], [(.text "size", .integer 1)]]

/-- What its fields are converted to. -/
def newtonFigures : Figures := ⟨[2, 1], 0.5, 0.25, 2.0, 0.5, "newton"⟩

theorem converts_newton : Converts newtonSection newtonLayers newtonFigures where
  layers_eq := rfl
  sizes := .cons ⟨_, rfl, rfl⟩ (.cons ⟨_, rfl, rfl⟩ .nil)
  learningRate := .given rfl rfl
  momentumWeight := .given rfl rfl
  regularizationWeight := .given rfl rfl
  dropRate := .given rfl rfl
  method := .given rfl rfl

/-- The section is accepted, and the network that it builds cannot be trained. -/
theorem configured_builds_newton :
    Converts newtonSection newtonLayers newtonFigures ∧ Generator.ofSeed (some 7) = .ok ⟨7⟩ ∧
      Valid newtonSection newtonLayers newtonFigures ∧
      ∃ net, configured (.mapping newtonSection) (some 7) = .ok net ∧ net.sizes = [3, 1] ∧
        net.checkComplete = .ok 1 ∧ net.learningRate = 0.5 ∧ net.momentumWeight = 0.25 ∧
        net.regularizationWeight = 2.0 ∧ net.dropRate = 0.5 ∧ ∀ episodes x iteration,
          let later := live episodes net
          trainByInstance x iteration later = .error (.unsupportedMode "TrainingMethod" "newton"
            ["GRADIENT_DESCENT"]) later := by
  have hseed : Generator.ofSeed (some 7) = .ok ⟨7⟩ := rfl
  obtain ⟨haccepted, hbuilds⟩ := configured_builds converts_newton hseed
  obtain ⟨net, hnet⟩ : ∃ net, configured (.mapping newtonSection) (some 7) = .ok net := ⟨_, rfl⟩
  obtain ⟨hbuilt, -, hmethod⟩ := hbuilds net hnet
  exact ⟨converts_newton, hseed, haccepted.mp ⟨net, hnet⟩, net, hnet, hbuilt.sizes_eq,
    hbuilt.complete, hbuilt.learningRate_eq, hbuilt.momentumWeight_eq,
    hbuilt.regularizationWeight_eq, hbuilt.dropRate_eq, hmethod (by decide)⟩

end Network

end FeedForward
