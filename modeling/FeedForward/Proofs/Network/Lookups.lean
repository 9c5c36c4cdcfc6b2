import FeedForward.Proofs.Config.Build

/-!
# Names that are not there

Networks are told what to use by name: a cost, a transformer, activations, rules, a learning style
and a training method. Each name is looked up in its turn, and what a name that is not there comes
to depends on what it is a name of. All of them are refused with a fault of the network's own except
those of costs and transformers, which come out as the fault of the registry, also where a
configuration gives them. A training method is looked up by training passes alone. What is left of a
network that refuses is not told here.
-/

namespace FeedForward

theorem Step.failure?_eq_some_iff {σ γ : Type} {act : Step σ γ} {s : σ} {fault : Fault} :
    act.failure? s = some fault ↔ ∃ t, act s = .error fault t := by
  rw [failure?]
  cases act s <;> simp

namespace Check

variable {γ : Type}

/-- What a check finds, if it does not pass. -/
def failure? : Except Fault γ → Option Fault
  | .ok _ => none
  | .error fault => some fault

theorem failure?_eq_some_iff {check : Except Fault γ} {fault : Fault} :
    failure? check = some fault ↔ check = .error fault := by
  cases check <;> simp [failure?]

end Check

/-! ## What names stand for -/

/-- What a name is a name of. Rules of restored layers are looked up in their own way. -/
inductive Naming where
  | cost
  | style
  | transformer
  | activation
  | rule
  | restoredRule
  | method
  deriving DecidableEq

namespace Naming

/-- Whether there is something of this name. -/
def known : Naming → String → Bool
  | cost, name => (Cost.registry (α := Double)).contains name
  | style, name =>
    [LearningStyle.supervised, .unsupervised].any fun style => style.name == Text.upper name
  | transformer, name => (Transformer.registry (α := Double)).contains name
  | activation, name => (Activation.registry (α := Double)).contains name
  | rule, name | restoredRule, name => Rule.registry.contains name
  | method, name => TrainingMethod.gradientDescent.name == Text.upper name

/-- What is said of a name that is not there. -/
def complaint : Naming → String → Fault
  | cost, name => .unknownName .cost name (Cost.registry (α := Double)).names
  | style, name => .unsupportedMode "LearningStyle" name
      [LearningStyle.supervised.name, LearningStyle.unsupervised.name]
  | transformer, name => .unknownName .transformer name (Transformer.registry (α := Double)).names
  | activation, name => .refusedName .activation name (Activation.registry (α := Double)).names
  | rule, name => .refusedName .neuron name Rule.registry.names
  | restoredRule, name => .unknownNeuron name
  | method, name => .unsupportedMode "TrainingMethod" name [TrainingMethod.gradientDescent.name]

/-- Names whose complaints are those of a registry. -/
def Leaks (naming : Naming) : Prop := naming = cost ∨ naming = transformer

theorem family_eq_missingKey_iff (naming : Naming) (name : String) :
    (naming.complaint name).family = .missingKey ↔ naming.Leaks := by
  cases naming <;> simp [complaint, Fault.family, Leaks]

theorem family_own_iff (naming : Naming) (name : String) :
    (naming.complaint name).family = .validation ∨ (naming.complaint name).family = .unsupported ↔
      ¬ naming.Leaks := by
  cases naming <;> simp [complaint, Fault.family, Leaks]

end Naming

theorem Registry.resolve_eq_error_iff {γ : Type} {r : Registry γ} {ref : Ref γ} {fault : Fault} :
    r.resolve ref = .error fault ↔ ∃ name, ref = .named name ∧ r.contains name = false ∧
      fault = .unknownName r.role name r.names := by
  cases ref with
  | given value => simp [resolve]
  | named name =>
      rw [resolve, get]
      constructor
      · intro hfault
        split at hfault
        next => cases hfault
        next hnone => cases hfault; exact ⟨name, rfl, find?_eq_none_iff.mp hnone, rfl⟩
      · rintro ⟨_, ⟨⟩, hname, rfl⟩
        rw [find?_eq_none_iff.mpr hname]

theorem LearningStyle.ofName_unknown {name : String} (hname : Naming.style.known name = false) :
    ofName name = .error (Naming.style.complaint name) := by
  have hfind : ([supervised, unsupervised].map fun style => (style.name, style)).find?
      (fun mode => mode.1 == Text.upper name) = none := by
    simpa [Naming.known] using hname
  rw [ofName, modeNamed, hfind]
  rfl

namespace Network

/-! ## Calls that look names up -/

/-- A call that makes a network or asks something of one. -/
inductive EntryCall where
  | create (settings : Settings Double)
  | ask (operation : Operation Double Single) (net : Network Double Single)
  | configured (model : Value) (seed : Option Int)

/-- What a call fails with, if it fails. -/
def EntryCall.fault? : EntryCall → Option Fault
  | create settings =>
    Check.failure? (Network.create settings : Except Fault (Network Double Single))
  | ask operation net => operation.failure? net
  | configured model seed => Check.failure? (Network.configured model seed)

/-- A network has room for a layer, whatever the names of the layer are. -/
structure HasRoom (net : Network Double Single) (plan : LayerPlan) : Prop where
  size_pos : 0 < plan.size
  arena_none : net.arena = none
  outputLayer_none : net.outputLayer = none
  input_first : plan.isOutput = true → net.sizes ≠ []

/-- A plan with the standard rule at every boundary. -/
def standardised (plan : TopologyPlan Double Single) : TopologyPlan Double Single :=
  { plan with rules := plan.rules.map fun _ => Rule.standard.key }

/-- Adds configured layers that have others behind them. -/
def addInner : List Value → Step (Network Double Single) Unit
  | [] => return ()
  | layer :: rest => do
    let plan ← layerOf layer false
    let _ ← addLayer plan
    addInner rest

/-- A call gets as far as looking a name up, since nothing is wrong with what it checks before. -/
inductive EntryCall.Reaches : EntryCall → Naming → String → Prop where
  | cost {settings : Settings Double} {name : String} (hname : settings.cost = .named name) :
      Reaches (.create settings) .cost name
  | style {settings : Settings Double} {cost : Cost Double}
      (hcost : Cost.registry.resolve settings.cost = .ok cost) :
      Reaches (.create settings) .style settings.style
  | transformer {settings : Settings Double} {cost : Cost Double} {style : LearningStyle}
      {name : String} (hcost : Cost.registry.resolve settings.cost = .ok cost)
      (hstyle : LearningStyle.ofName settings.style = .ok style)
      (hname : settings.transformer = .named name) :
      Reaches (.create settings) .transformer name
  | activation {plan : LayerPlan} {net : Network Double Single} (hroom : net.HasRoom plan) :
      Reaches (.ask (.addLayer plan) net) .activation plan.activation
  | rule {plan : LayerPlan} {net : Network Double Single} (hroom : net.HasRoom plan)
      (hactivation : Naming.activation.known plan.activation = true) :
      Reaches (.ask (.addLayer plan) net) .rule plan.rule
  | restoredRule {plan : TopologyPlan Double Single} {net : Network Double Single}
      {restored : RestoredLayers Single} {front rest : List String} {name : String}
      (hplan : Describes (standardised plan) restored) (hrules : plan.rules = front ++ name :: rest)
      (hfront : ∀ other ∈ front, Naming.restoredRule.known other = true) :
      Reaches (.ask (.restoreLayers plan) net) .restoredRule name
  | restoredActivation {plan : TopologyPlan Double Single} {net : Network Double Single}
      {restored : RestoredLayers Single} {front rest : List (Ref (Activation Double))}
      {activations : List (Activation Double)} {name : String} (hplan : Describes plan restored)
      (hactivations : plan.activations = front ++ .named name :: rest)
      (hfront : List.Forall₂ (Ref.Means Activation.registry) front activations) :
      Reaches (.ask (.restoreLayers plan) net) .activation name
  | method {x : Instance Double} {iteration : Int} {net : Network Double Single} :
      Reaches (.ask (.trainByInstance x iteration) net) .method net.method
  | methodOnline {x : Instance Double} {iteration : Int} {net : Network Double Single} :
      Reaches (.ask (.trainOnline x iteration) net) .method net.method
  | configured {entries : List (Atom × Value)} {seed : Option Int} {layers : List Value}
      {settings : Settings Double} {naming : Naming} {name : String}
      (hlayers : layersIn entries = .ok layers) (hsettings : settingsIn entries seed = .ok settings)
      (hreaches : Reaches (.create settings) naming name) :
      Reaches (.configured (.mapping entries) seed) naming name
  | configuredLayer {entries : List (Atom × Value)} {seed : Option Int} {front rest : List Value}
      {layer : Value} {settings : Settings Double} {created net : Network Double Single}
      {plan : LayerPlan} {naming : Naming} {name : String}
      (hlayers : layersIn entries = .ok (front ++ layer :: rest))
      (hsettings : settingsIn entries seed = .ok settings)
      (hcreate : Network.create settings = .ok created)
      (hfront : addInner front created = .ok () net)
      (hplan : layerOf layer rest.isEmpty = .ok plan)
      (hreaches : Reaches (.ask (.addLayer plan) net) naming name) :
      Reaches (.configured (.mapping entries) seed) naming name

/-! ## Complaints -/

/-- A new network is refused for the first of its names that is not there. -/
theorem create_unknown {settings : Settings Double} {naming : Naming} {name : String}
    (hreaches : EntryCall.Reaches (.create settings) naming name)
    (hname : naming.known name = false) :
    (create settings : Except Fault (Network Double Single)) = .error (naming.complaint name) := by
  cases hreaches with
  | cost hcost =>
      exact Check.bind_eq_error_iff.mpr
        (.inl (Registry.resolve_eq_error_iff.mpr ⟨name, hcost, hname, rfl⟩))
  | style hcost =>
      exact Check.bind_eq_error_iff.mpr (.inr ⟨_, hcost, Check.bind_eq_error_iff.mpr
        (.inl (LearningStyle.ofName_unknown hname))⟩)
  | transformer hcost hstyle htransformer =>
      exact Check.bind_eq_error_iff.mpr (.inr ⟨_, hcost, Check.bind_eq_error_iff.mpr
        (.inr ⟨_, hstyle, Check.bind_eq_error_iff.mpr
          (.inl (Registry.resolve_eq_error_iff.mpr ⟨name, htransformer, hname, rfl⟩))⟩)⟩)

/-- Where a network has room for a layer, only the names of the layer are checked. -/
theorem checkLayer_of_room {net : Network Double Single} {plan : LayerPlan}
    (hroom : net.HasRoom plan) : net.checkLayer plan = do
      let activation ← resolveOrRefuse Activation.registry (.named plan.activation)
      let rule ← resolveOrRefuse Rule.registry (.named plan.rule)
      return (activation, rule) := by
  obtain ⟨hsize, harena, houtput, hinput⟩ := hroom
  have hinput : (plan.isOutput && net.sizes.isEmpty) = false := by
    cases hfinal : plan.isOutput with
    | false => rfl
    | true => simpa using hinput hfinal
  simp [checkLayer, harena, houtput, hinput, Int.not_le.mpr hsize]

theorem addLayer_unknown {plan : LayerPlan} {net : Network Double Single} {naming : Naming}
    {name : String} (hreaches : EntryCall.Reaches (.ask (.addLayer plan) net) naming name)
    (hname : naming.known name = false) :
    addLayer plan net = .error (naming.complaint name) net := by
  have hcheck : net.checkLayer plan = .error (naming.complaint name) := by
    cases hreaches with
    | activation hroom =>
        rw [checkLayer_of_room hroom]
        exact Check.bind_eq_error_iff.mpr (.inl (resolveOrRefuse_eq_error_iff.mpr
          ⟨_, rfl, Registry.find?_eq_none_iff.mpr hname, rfl⟩))
    | rule hroom hactivation =>
        obtain ⟨activation, hfind⟩ := Registry.contains_iff.mp hactivation
        rw [checkLayer_of_room hroom]
        exact Check.bind_eq_error_iff.mpr (.inr ⟨activation,
          resolveOrRefuse_named_eq_ok_iff.mpr hfind, Check.bind_eq_error_iff.mpr
            (.inl (resolveOrRefuse_eq_error_iff.mpr
              ⟨_, rfl, Registry.find?_eq_none_iff.mpr hname, rfl⟩))⟩)
  rw [addLayer_run, hcheck]

/-- Where a plan describes layers up to its rules, only the rules are checked. -/
theorem checkTopology_of_standardised {plan : TopologyPlan Double Single}
    {restored : RestoredLayers Single} (hplan : Describes (standardised plan) restored) :
    checkTopology plan = do
      let rules ← plan.rules.mapM ruleNamed
      return { restored with rules } := by
  have hchecked := checkTopology_eq_ok_iff.mpr hplan
  rw [standardised] at hchecked
  simp only [checkTopology, List.length_map, Check.throw_bind, Check.ite_error_eq_ok_iff,
    Check.bind_eq_ok_iff, Check.pure_eq_ok_iff] at hchecked
  obtain ⟨htwo, hcounts, sizes, hsizes, houtput, matrices, hmatrices, _, hshapes, _, -, rfl⟩ :=
    hchecked
  simp only [checkTopology, if_neg htwo, if_neg hcounts, hsizes, if_neg houtput, hmatrices, hshapes,
    Check.throw_bind, Check.ok_bind]

theorem ruleNamed_unknown {name : String} (hname : Naming.restoredRule.known name = false) :
    ruleNamed name = .error (.unknownNeuron name) := by
  rw [ruleNamed, Registry.find?_eq_none_iff.mpr hname]

theorem mapM_ruleNamed_of_known {names : List String}
    (hknown : ∀ name ∈ names, Naming.restoredRule.known name = true) :
    ∃ rules, names.mapM ruleNamed = .ok rules := by
  induction names with
  | nil => exact ⟨[], rfl⟩
  | cons name names ih =>
      obtain ⟨hname, hnames⟩ := List.forall_mem_cons.mp hknown
      obtain ⟨rule, hrule⟩ := Registry.contains_iff.mp hname
      obtain ⟨rules, hrules⟩ := ih hnames
      refine ⟨rule :: rules, ?_⟩
      rw [List.mapM_cons, ruleNamed, hrule, hrules]
      rfl

theorem restoreLayers_unknown {plan : TopologyPlan Double Single} {net : Network Double Single}
    {naming : Naming} {name : String}
    (hreaches : EntryCall.Reaches (.ask (.restoreLayers plan) net) naming name)
    (hname : naming.known name = false) :
    ∃ after, restoreLayers plan net = .error (naming.complaint name) after := by
  cases hreaches with
  | restoredRule hplan hrules hfront =>
      obtain ⟨rules, hpassed⟩ := mapM_ruleNamed_of_known hfront
      have hfault : plan.rules.mapM ruleNamed = .error (.unknownNeuron name) :=
        Check.mapM_eq_error_iff.mpr ⟨_, _, _, _, hrules, hpassed, ruleNamed_unknown hname⟩
      have hcheck : checkTopology plan = .error (.unknownNeuron name) := by
        rw [checkTopology_of_standardised hplan, hfault]
        rfl
      refine ⟨net, ?_⟩
      rw [restoreLayers_stages, hcheck]
      rfl
  | @restoredActivation _ _ restored _ _ _ _ hplan hactivations hfront =>
      have hfault : plan.activations.mapM (resolveOrRefuse Activation.registry) =
          .error (Naming.activation.complaint name) :=
        mapM_resolveOrRefuse_eq_error_iff.mpr
          ⟨_, _, _, _, hactivations, hfront, Registry.find?_eq_none_iff.mpr hname, rfl⟩
      refine ⟨net.withSizes restored, ?_⟩
      rw [restoreLayers_stages, checkTopology_eq_ok_iff.mpr hplan]
      simp only [hfault]

/-- A method that is not there is what every training pass is refused for. -/
theorem trainByInstance_unknown {net : Network Double Single}
    (hmethod : Naming.method.known net.method = false) (x : Instance Double) (iteration : Int) :
    trainByInstance x iteration net = .error (Naming.method.complaint net.method) net := by
  refine trainByInstance_of_method (fun hsame => ?_) x iteration
  rw [Naming.known, hsame, beq_self_eq_true] at hmethod
  cases hmethod

theorem addConfigured_append {front back : List Value} (hback : back ≠ [])
    {net after : Network Double Single} (hfront : addInner front net = .ok () after) :
    addConfigured (front ++ back) net = addConfigured back after := by
  induction front generalizing net with
  | nil => cases hfront; rfl
  | cons layer front ih =>
      obtain ⟨plan, _, hlift, hfront⟩ := Step.bind_eq_ok hfront
      obtain ⟨hplan, rfl⟩ := Step.lift_eq_ok hlift
      obtain ⟨index, grown, hadd, hrest⟩ := Step.bind_eq_ok hfront
      have hinner : (front ++ back).isEmpty = false := by simp [hback]
      simp only [List.cons_append, addConfigured, hinner, Step.bind_run, Step.lift_run, hplan, hadd]
      exact ih hrest

theorem addConfigured_cons_of_error {layer : Value} {rest : List Value}
    {net after : Network Double Single} {plan : LayerPlan} {fault : Fault}
    (hplan : layerOf layer rest.isEmpty = .ok plan)
    (hadd : addLayer plan net = .error fault after) :
    addConfigured (layer :: rest) net = .error fault after := by
  simp only [addConfigured, Step.bind_run, Step.lift_run, hplan, hadd]

section

variable {entries : List (Atom × Value)} {seed : Option Int} {layers : List Value}
  {settings : Settings Double} (hlayers : layersIn entries = .ok layers)
  (hsettings : settingsIn entries seed = .ok settings)

include hlayers hsettings

theorem configured_of_create {fault : Fault}
    (hcreate : (create settings : Except Fault (Network Double Single)) = .error fault) :
    configured (.mapping entries) seed = .error fault := by
  simp only [configured, hlayers, hsettings, Check.ok_bind, hcreate]
  rfl

theorem configured_of_layers {created after : Network Double Single} {fault : Fault}
    (hcreate : create settings = .ok created)
    (hadd : addConfigured layers created = .error fault after) :
    configured (.mapping entries) seed = .error fault := by
  simp only [configured, hlayers, hsettings, Check.ok_bind, hcreate, hadd]
  rfl

end

/-- Where a call gets as far as a name that is not there, this is what it complains of. -/
theorem EntryCall.fault?_unknown {call : EntryCall} {naming : Naming} {name : String}
    (hreaches : call.Reaches naming name) (hname : naming.known name = false) :
    call.fault? = some (naming.complaint name) := by
  induction hreaches with
  | cost hcost => exact Check.failure?_eq_some_iff.mpr (create_unknown (.cost hcost) hname)
  | style hcost => exact Check.failure?_eq_some_iff.mpr (create_unknown (.style hcost) hname)
  | transformer hcost hstyle htransformer =>
      exact Check.failure?_eq_some_iff.mpr
        (create_unknown (.transformer hcost hstyle htransformer) hname)
  | activation hroom =>
      exact Step.failure?_eq_some_iff.mpr ⟨_, addLayer_unknown (.activation hroom) hname⟩
  | rule hroom hactivation =>
      exact Step.failure?_eq_some_iff.mpr ⟨_, addLayer_unknown (.rule hroom hactivation) hname⟩
  | restoredRule hplan hrules hfront =>
      exact Step.failure?_eq_some_iff.mpr
        (restoreLayers_unknown (.restoredRule hplan hrules hfront) hname)
  | restoredActivation hplan hactivations hfront =>
      exact Step.failure?_eq_some_iff.mpr
        (restoreLayers_unknown (.restoredActivation hplan hactivations hfront) hname)
  | method => exact Step.failure?_eq_some_iff.mpr ⟨_, trainByInstance_unknown hname _ _⟩
  | methodOnline =>
      exact Step.failure?_eq_some_iff.mpr
        ⟨_, trainOnline_eq_error_iff.mpr (trainByInstance_unknown hname _ _)⟩
  | configured hlayers hsettings _ ih =>
      exact Check.failure?_eq_some_iff.mpr
        (configured_of_create hlayers hsettings (Check.failure?_eq_some_iff.mp (ih hname)))
  | configuredLayer hlayers hsettings hcreate hfront hplan hreaches ih =>
      obtain ⟨after, hadd⟩ := Step.failure?_eq_some_iff.mp (ih hname)
      have hlast : addConfigured (_ :: _) _ = .error _ after :=
        addConfigured_cons_of_error hplan hadd
      rw [← addConfigured_append (List.cons_ne_nil _ _) hfront] at hlast
      exact Check.failure?_eq_some_iff.mpr (configured_of_layers hlayers hsettings hcreate hlast)

/-! ## Missing keys -/

end Network

namespace Fault

/-- A fault that is not about a missing key. -/
def Keyless (fault : Fault) : Prop := fault.family ≠ .missingKey

/-- A fault that is not about a missing key, unless a field of a section is missing. -/
def Keyed (fault : Fault) : Prop := fault.Keyless ∨ fault = .keyAbsent

theorem keyless {fault : Fault} (hfamily : decide (fault.family = .missingKey) = false) :
    fault.Keyless :=
  of_decide_eq_false hfamily

end Fault

open Fault (Keyed Keyless keyless)

theorem Value.toNumber_finds (value : Value) : Check.Finds Keyless value.toNumber := by
  intro fault hfault
  rw [toNumber.eq_def] at hfault
  split at hfault
  next => cases hfault
  next n =>
    rw [ofInteger] at hfault
    split at hfault
    · cases hfault
    · cases hfault
      exact keyless rfl
  next => cases hfault
  next => split at hfault <;> cases hfault; exact keyless rfl
  all_goals cases hfault; exact keyless rfl

theorem Value.toText_finds (value : Value) : Check.Finds Keyless value.toText := by
  rw [toText]
  split
  · exact .ok _
  · exact .error (keyless rfl)

theorem Value.toInteger_finds (value : Value) : Check.Finds Keyless value.toInteger := by
  intro fault hfault
  rw [toInteger.eq_def] at hfault
  split at hfault
  next => cases hfault
  next => cases hfault
  next x =>
    rw [truncate] at hfault
    split at hfault <;> cases hfault <;> exact keyless rfl
  next => split at hfault <;> cases hfault; exact keyless rfl
  all_goals cases hfault; exact keyless rfl

namespace Network

section

variable (entries : List (Atom × Value)) (key : String)

theorem numberIn_finds (default : Double) : Check.Finds Keyless (numberIn entries key default) := by
  rw [numberIn]
  split
  · exact Value.toNumber_finds _
  · exact .ok _

theorem nameIn_finds (default : String) : Check.Finds Keyless (nameIn entries key default) := by
  rw [nameIn]
  split
  · exact Value.toText_finds _
  · exact .ok _

end

theorem layersIn_finds (entries : List (Atom × Value)) : Check.Finds Keyless (layersIn entries) :=
  .guard (keyless rfl) (.ok _)

theorem settingsIn_finds (entries : List (Atom × Value)) (seed : Option Int) :
    Check.Finds Keyless (settingsIn entries seed) :=
  .bind (numberIn_finds _ _ _) fun _ => .bind (numberIn_finds _ _ _) fun _ =>
    .bind (numberIn_finds _ _ _) fun _ => .bind (nameIn_finds _ _ _) fun _ =>
      .bind (nameIn_finds _ _ _) fun _ => .bind (nameIn_finds _ _ _) fun _ =>
        .bind (nameIn_finds _ _ _) fun _ => .bind (numberIn_finds _ _ _) fun _ => .ok _

/-- The one field that a layer cannot do without is its size. -/
theorem layerOf_finds (layer : Value) (isOutput : Bool) :
    Check.Finds Keyed (layerOf layer isOutput) := by
  rw [layerOf.eq_def]
  split
  next entries =>
    split
    · exact .error (.inr rfl)
    · exact Check.Finds.mono (.bind (Value.toInteger_finds _) fun _ =>
        .bind (nameIn_finds _ _ _) fun _ => .bind (nameIn_finds _ _ _) fun _ => .ok _) fun _ => .inl
  next => exact .error (.inl (keyless rfl))

theorem resolveOrRefuse_finds {γ : Type} (registry : Registry γ) (ref : Ref γ) :
    Check.Finds Keyless (resolveOrRefuse registry ref) := by
  intro fault hfault
  obtain ⟨name, -, -, rfl⟩ := resolveOrRefuse_eq_error_iff.mp hfault
  exact keyless rfl

theorem addLayer_finds (plan : LayerPlan) :
    Step.Finds Keyless (addLayer plan : Step (Network Double Single) Nat) := by
  have hcheck (net : Network Double Single) : Check.Finds Keyless (net.checkLayer plan) := by
    simp only [checkLayer, Check.throw_bind]
    exact .guard (keyless rfl) (.guard (keyless rfl) (.guard (keyless rfl) (.guard (keyless rfl)
      (.bind (resolveOrRefuse_finds _ _) fun _ => .bind (resolveOrRefuse_finds _ _) fun _ =>
        .ok _))))
  intro net fault after hrun
  rw [addLayer_run] at hrun
  cases hchecked : net.checkLayer plan with
  | ok checked => rw [hchecked] at hrun; cases hrun
  | error cause => rw [hchecked] at hrun; cases hrun; exact hcheck net fault hchecked

theorem addConfigured_finds (layers : List Value) : Step.Finds Keyed (addConfigured layers) := by
  induction layers with
  | nil => exact .pure _
  | cons layer rest ih =>
      exact .bind (.lift (layerOf_finds _ _)) fun _ =>
        .bind (fun net fault after hrun => .inl (addLayer_finds _ net fault after hrun)) fun _ => ih

theorem checkSizes_finds (layer : Nat) (sizes : List Int) :
    Check.Finds Keyless (checkSizes layer sizes) := by
  induction sizes generalizing layer with
  | nil => exact .ok _
  | cons size rest ih =>
      simp only [checkSizes, Check.throw_bind]
      exact .guard (keyless rfl) ((ih _).bind fun _ => .ok _)

theorem checkShapes_finds (index : Nat) (matrices : List (Tensor Single))
    (shapes : List (List Nat)) : Check.Finds Keyless (checkShapes index matrices shapes) := by
  induction matrices generalizing index shapes with
  | nil => exact .ok _
  | cons matrix matrices ih =>
      cases shapes with
      | nil => exact .ok _
      | cons shape shapes =>
          rw [checkShapes]
          split
          · exact ih _ _
          · exact .error (keyless rfl)

theorem restoreLayers_finds (plan : TopologyPlan Double Single) :
    Step.Finds Keyless (restoreLayers plan) := by
  have hlineUp (table : Table Single) : Check.Finds Keyless (lineUp table) := by
    cases table with
    | none => exact .error (keyless rfl)
    | some t => exact .ok t
  have hrule (name : String) : Check.Finds Keyless (ruleNamed name) := by
    rw [ruleNamed]
    split
    · exact .ok _
    · exact .error (keyless rfl)
  have hcheck : Check.Finds Keyless (checkTopology plan) := by
    simp only [checkTopology, Check.throw_bind]
    exact .guard (keyless rfl) (.guard (keyless rfl) ((checkSizes_finds _ _).bind fun _ =>
      .guard (keyless rfl) ((Check.Finds.mapM hlineUp _).bind fun _ =>
        (checkShapes_finds _ _ _).bind fun _ => (Check.Finds.mapM hrule _).bind fun _ => .ok _)))
  exact .bind (.lift hcheck) fun _ => .bind (.modify _) fun _ =>
    .bind (.lift (Check.Finds.mapM (resolveOrRefuse_finds _) _)) fun _ => .modify _

/-- Only for a cost or a transformer that is not there, a new network is refused with a missing
key. -/
theorem leak_of_create {settings : Settings Double} {fault : Fault}
    (hfault : (create settings : Except Fault (Network Double Single)) = .error fault)
    (hkey : fault.family = .missingKey) :
    ∃ naming name, naming.Leaks ∧ EntryCall.Reaches (.create settings) naming name ∧
      naming.known name = false ∧ fault = naming.complaint name := by
  obtain hcost | ⟨cost, hcost, hfault⟩ := Check.bind_eq_error_iff.mp hfault
  · obtain ⟨name, hname, hunknown, rfl⟩ := Registry.resolve_eq_error_iff.mp hcost
    exact ⟨.cost, name, .inl rfl, .cost hname, hunknown, rfl⟩
  obtain hstyle | ⟨style, hstyle, hfault⟩ := Check.bind_eq_error_iff.mp hfault
  · have hfamily : fault.family = .unsupported := modeNamed_finds _ _ _ fault hstyle
    exact absurd (hkey.symm.trans hfamily) (by decide)
  obtain htransformer | ⟨transformer, -, hfault⟩ := Check.bind_eq_error_iff.mp hfault
  · obtain ⟨name, hname, hunknown, rfl⟩ := Registry.resolve_eq_error_iff.mp htransformer
    exact ⟨.transformer, name, .inr rfl, .transformer hcost hstyle hname, hunknown, rfl⟩
  · have hrate : Check.Finds Keyless (Settings.checkDropRate settings.dropRate) := by
      rw [Settings.checkDropRate]
      split
      · exact .ok _
      · exact .error (keyless rfl)
    have hseed : Check.Finds Keyless (Generator.ofSeed settings.seed) := by
      cases settings.seed with
      | none => exact .ok _
      | some seed => exact .guard (keyless rfl) (.ok _)
    exact absurd hkey (hrate.bind (fun _ => hseed.bind fun _ => .ok _) fault hfault)

/-- A configuration without such a name is refused with a missing key where the size of a layer is
missing. -/
theorem leak_of_configured {model : Value} {seed : Option Int} {fault : Fault}
    (hfault : configured model seed = .error fault) (hkey : fault.family = .missingKey) :
    fault = .keyAbsent ∨ ∃ naming name, naming.Leaks ∧
      EntryCall.Reaches (.configured model seed) naming name ∧ naming.known name = false ∧
      fault = naming.complaint name := by
  cases model with
  | atom a => cases hfault; cases hkey
  | list items => cases hfault; cases hkey
  | mapping entries =>
      obtain hlayers | ⟨layers, hlayers, hfault⟩ := Check.bind_eq_error_iff.mp hfault
      · exact absurd hkey (layersIn_finds entries fault hlayers)
      obtain hsettings | ⟨settings, hsettings, hfault⟩ := Check.bind_eq_error_iff.mp hfault
      · exact absurd hkey (settingsIn_finds entries seed fault hsettings)
      obtain hcreate | ⟨created, -, hfault⟩ := Check.bind_eq_error_iff.mp hfault
      · obtain ⟨naming, name, hleaks, hreaches, hname, hcomplaint⟩ := leak_of_create hcreate hkey
        exact .inr ⟨naming, name, hleaks, .configured hlayers hsettings hreaches, hname, hcomplaint⟩
      · cases hadd : addConfigured layers created with
        | ok _ after => rw [hadd] at hfault; cases hfault
        | error cause after =>
            rw [hadd] at hfault
            cases hfault
            exact .inl ((addConfigured_finds layers created fault after hadd).resolve_left
              (not_not_intro hkey))

/-- A call that makes or extends a network and runs nothing through it. -/
def EntryCall.Builds : EntryCall → Prop
  | create _ | configured _ _ | ask (.addLayer _) _ | ask (.restoreLayers _) _ => True
  | ask _ _ => False

theorem EntryCall.leak_of_fault {call : EntryCall} (hbuilds : call.Builds) {fault : Fault}
    (hfault : call.fault? = some fault) (hkey : fault.family = .missingKey) :
    (fault = .keyAbsent ∧ ∃ model seed, call = .configured model seed) ∨ ∃ naming name,
      naming.Leaks ∧ call.Reaches naming name ∧ naming.known name = false ∧
      fault = naming.complaint name := by
  cases call with
  | create settings => exact .inr (leak_of_create (Check.failure?_eq_some_iff.mp hfault) hkey)
  | configured model seed =>
      exact (leak_of_configured (Check.failure?_eq_some_iff.mp hfault) hkey).imp_left
        fun habsent => ⟨habsent, model, seed, rfl⟩
  | ask operation net =>
      cases operation with
      | addLayer plan =>
          obtain ⟨after, hrun⟩ := Step.failure?_eq_some_iff.mp hfault
          exact absurd hkey (addLayer_finds plan net fault after hrun)
      | restoreLayers plan =>
          obtain ⟨after, hrun⟩ := Step.failure?_eq_some_iff.mp hfault
          exact absurd hkey (restoreLayers_finds plan net fault after hrun)
      | _ => exact hbuilds.elim

/-- What becomes of a name that is not there, whatever the name is, in every call that gets as far
as looking it up: the call fails, and it complains of this name. The complaint is an argument that
breaks a rule or a mode that does not exist unless the name is that of a cost or a transformer. Of
these callers see the missing key of the registry, and apart from configured layers without a size,
no call that builds networks fails with a missing key for any other reason. A method is taken down
unseen by new networks. -/
theorem unknown_names_reported (call : EntryCall) :
    (∀ (naming : Naming) (name : String), call.Reaches naming name → naming.known name = false →
      call.fault? = some (naming.complaint name) ∧
        ((naming.complaint name).family = .missingKey ↔ naming = .cost ∨ naming = .transformer) ∧
        ((naming.complaint name).family = .validation ∨
            (naming.complaint name).family = .unsupported ↔
          naming ≠ .cost ∧ naming ≠ .transformer)) ∧
    (∀ fault : Fault, call.Builds → call.fault? = some fault → fault.family = .missingKey →
      (fault = .keyAbsent ∧ ∃ model seed, call = .configured model seed) ∨ ∃ naming name,
        (naming = .cost ∨ naming = .transformer) ∧ call.Reaches naming name ∧
        naming.known name = false ∧ fault = naming.complaint name) ∧
    ∀ (settings : Settings Double) (method : String),
      (create { settings with method } : Except Fault (Network Double Single)) =
        (fun net => { net with method }) <$> create settings := by
  refine ⟨fun naming name hreaches hname => ⟨EntryCall.fault?_unknown hreaches hname,
    Naming.family_eq_missingKey_iff naming name, ?_⟩,
    fun fault hbuilds hfault hkey => EntryCall.leak_of_fault hbuilds hfault hkey,
    fun settings method => ?_⟩
  · rw [Naming.family_own_iff, Naming.Leaks, not_or]
  · simp only [create, map_bind, map_pure]

/-- A cost that is not there. -/
def hinge : Settings Double := { Settings.default with cost := .named "hinge" }

/-- A cost that is not there is reached at once, and the fault of the registry comes out. -/
theorem create_hinge_leaks :
    ¬ ∀ (call : EntryCall) (naming : Naming) (name : String), call.Reaches naming name →
      naming.known name = false →
      ∃ fault, call.fault? = some fault ∧
        (fault.family = .validation ∨ fault.family = .unsupported) := by
  intro hrefused
  obtain ⟨fault, hfault, hfamily⟩ := hrefused (.create hinge) .cost "hinge" (.cost rfl) (by decide)
  have hleak : EntryCall.fault? (.create hinge) = some (Naming.cost.complaint "hinge") := rfl
  rw [hleak] at hfault
  cases hfault
  exact absurd hfamily (by decide)

/-- The section of a layer whose activation is not there. -/
def swishLayer : Value :=
  .mapping [(.text "size", .integer 1), (.text "activation", .text "swish")]

/-- A section of two layers, of which the second one is this layer. -/
def swishSection : List (Atom × Value) :=
  [(.text "layers", .list [.mapping [(.text "size", .integer 2)], swishLayer])]

theorem reaches_swish :
    EntryCall.Reaches (.configured (.mapping swishSection) (some 7)) .activation "swish" := by
  have hlayers : layersIn swishSection =
      .ok ([.mapping [(.text "size", .integer 2)]] ++ swishLayer :: []) := rfl
  exact .configuredLayer hlayers rfl rfl rfl rfl (.activation ⟨by decide, rfl, rfl, nofun⟩)

theorem unknown_names_reported_swish :
    EntryCall.Reaches (.configured (.mapping swishSection) (some 7)) .activation "swish" ∧
      Naming.activation.known "swish" = false ∧
      EntryCall.fault? (.configured (.mapping swishSection) (some 7)) =
        some (Naming.activation.complaint "swish") ∧
      ((Naming.activation.complaint "swish").family = .validation ∨
        (Naming.activation.complaint "swish").family = .unsupported) := by
  have hname : Naming.activation.known "swish" = false := by decide
  obtain ⟨hfault, -, hfamily⟩ := (unknown_names_reported _).1 _ _ reaches_swish hname
  exact ⟨reaches_swish, hname, hfault, hfamily.mpr ⟨nofun, nofun⟩⟩

end Network

end FeedForward
