import FeedForward.Config.Build
import FeedForward.Proofs.ModelFile.Canonical
import FeedForward.Proofs.ModelFile.Stream

/-!
# Configured networks

A section of a configuration says something under a key, or it leaves that to a default. A network
that is built from a section is well-formed and complete, for the last of its layers is the output
layer. Its cost, transformer and activations have been looked up by name, so the registries list
them under the names that they bear.
-/

namespace FeedForward

/-! ## What sections say -/

namespace Value

variable {γ : Type} {entries : List (Atom × Value)} {key : String}
  {convert : Value → Except Fault γ} {default x : γ}

/-- What a section says under a key: the value that stands there, converted, or the default where
none stands there. -/
inductive Says (entries : List (Atom × Value)) (key : String) (convert : Value → Except Fault γ)
    (default x : γ) : Prop where
  | given {value : Value} (hvalue : lookup entries key = some value)
      (hconvert : convert value = .ok x)
  | absent (hnone : lookup entries key = none) (hdefault : x = default)

theorem says_iff : Says entries key convert default x ↔
    (match lookup entries key with
      | some value => convert value
      | none => .ok default) = .ok x := by
  constructor
  · intro hsaid
    cases hsaid with
    | given hvalue hconvert => rw [hvalue]; exact hconvert
    | absent hnone hdefault => rw [hnone, hdefault]
  · intro hread
    cases hlookup : lookup entries key with
    | some value => rw [hlookup] at hread; exact .given hlookup hread
    | none => rw [hlookup] at hread; exact .absent hlookup (Except.ok.inj hread).symm

theorem Says.congr {others : List (Atom × Value)} (hsaid : Says entries key convert default x)
    (hsame : lookup others key = lookup entries key) : Says others key convert default x := by
  rw [says_iff, hsame]
  exact says_iff.mp hsaid

end Value

namespace Network

open ModelFile (Listed Portable find?_name_activation name_of_find?_cost name_of_find?_transformer)

variable {α β : Type} [Scalar α]

/-! ## Names that are looked up -/

theorem resolve_named_eq_ok_iff {γ : Type} {r : Registry γ} {name : String} {value : γ} :
    r.resolve (.named name) = .ok value ↔ r.find? name = some value := by
  rw [Registry.resolve, Registry.get]
  cases r.find? name <;> simp

theorem resolveOrRefuse_named_eq_ok_iff {γ : Type} {r : Registry γ} {name : String} {value : γ} :
    resolveOrRefuse r (.named name) = .ok value ↔ r.find? name = some value := by
  rw [← resolve_named_eq_ok_iff, resolveOrRefuse]
  split
  next hresolve => rw [hresolve]; simp
  next => rfl

/-- The layers that may be added to a network, with what their names stand for. -/
theorem checkLayer_eq_ok_iff {net : Network α β} {plan : LayerPlan} {activation : Activation α}
    {rule : Rule} : net.checkLayer plan = .ok (activation, rule) ↔
      0 < plan.size ∧ net.arena = none ∧ net.outputLayer = none ∧
        (plan.isOutput = true → net.sizes ≠ []) ∧
        Activation.registry.find? plan.activation = some activation ∧
        Rule.registry.find? plan.rule = some rule := by
  simp only [checkLayer, Check.throw_bind, Check.ite_error_eq_ok_iff, Check.bind_eq_ok_iff,
    Check.pure_eq_ok_iff, resolveOrRefuse_named_eq_ok_iff]
  simp

theorem lists_activation {name : String} {f : Activation α}
    (hfind : Activation.registry.find? name = some f) :
    Activation.registry.Lists Activation.name f :=
  ⟨f, find?_name_activation hfind, rfl⟩

/-- The network that is created from names has them listed. -/
theorem listed_create {settings : Settings α} {cost transformer : String} {net : Network α β}
    (hcost : settings.cost = .named cost) (htransformer : settings.transformer = .named transformer)
    (hcreate : create settings = .ok net) : Listed net := by
  simp only [create, Check.bind_eq_ok_iff, Check.pure_eq_ok_iff, hcost, htransformer,
    resolve_named_eq_ok_iff] at hcreate
  obtain ⟨found, hfound, _, _, made, hmade, _, _, _, _, rfl⟩ := hcreate
  exact {
    cost_listed := ⟨found, (congrArg _ (name_of_find?_cost hfound)).trans hfound, rfl⟩
    transformer_listed :=
      ⟨made, (congrArg _ (name_of_find?_transformer hmade)).trans hmade, rfl⟩
    activations_listed := fun f hf => absurd hf List.not_mem_nil }

section

variable [Zero β] [Precision α β] {net : Network α β} {plan : LayerPlan}
  {activation : Activation α} {rule : Rule}

theorem listed_grow (hlisted : Listed net)
    (hactivation : Activation.registry.Lists Activation.name activation) :
    Listed (net.grow plan activation rule) := by
  rw [grow]
  cases net.sizes.getLast? with
  | none => exact ⟨hlisted.cost_listed, hlisted.transformer_listed, hlisted.activations_listed⟩
  | some columns =>
      refine ⟨hlisted.cost_listed, hlisted.transformer_listed, fun f hf => ?_⟩
      rcases List.mem_append.mp hf with hold | hnew
      · exact hlisted.activations_listed f hold
      · obtain rfl := List.mem_singleton.mp hnew
        exact hactivation

/-- A layer that is added by name. -/
theorem addLayer_eq_ok {layer : Nat} {after : Network α β} (hnet : net.WellFormed)
    (hlisted : Listed net) (hrun : addLayer plan net = .ok layer after) :
    after.WellFormed ∧ Listed after ∧ (plan.isOutput = true → after.outputLayer.isSome) := by
  rw [addLayer_run] at hrun
  cases hcheck : net.checkLayer plan with
  | error fault => rw [hcheck] at hrun; cases hrun
  | ok checked =>
      obtain ⟨activation, rule⟩ := checked
      rw [hcheck] at hrun
      cases hrun
      obtain ⟨-, -, -, -, hnamed, -⟩ := checkLayer_eq_ok_iff.mp hcheck
      exact ⟨hnet.grow hcheck, listed_grow hlisted (lists_activation hnamed),
        fun houtput => by simp [grow, houtput]⟩

end

/-! ## Configured layers -/

theorem numberIn_eq_ok_iff {entries : List (Atom × Value)} {key : String} {default x : Double} :
    numberIn entries key default = .ok x ↔ Value.Says entries key Value.toNumber default x :=
  Value.says_iff.symm

theorem nameIn_eq_ok_iff {entries : List (Atom × Value)} {key default name : String} :
    nameIn entries key default = .ok name ↔ Value.Says entries key Value.toText default name :=
  Value.says_iff.symm

theorem length_of_layersIn {entries : List (Atom × Value)} {layers : List Value}
    (hlayers : layersIn entries = .ok layers) : 2 ≤ layers.length := by
  simp only [layersIn, Check.ite_error_eq_ok_iff] at hlayers
  obtain ⟨hmany, heq⟩ := hlayers
  cases heq
  omega

theorem named_of_settingsIn {entries : List (Atom × Value)} {seed : Option Int}
    {settings : Settings Double} (hsettings : settingsIn entries seed = .ok settings) :
    ∃ cost transformer, settings.cost = .named cost ∧
      settings.transformer = .named transformer := by
  simp only [settingsIn, Check.bind_eq_ok_iff, Check.pure_eq_ok_iff] at hsettings
  obtain ⟨_, _, _, _, _, _, cost, _, _, _, _, _, transformer, _, _, _, rfl⟩ := hsettings
  exact ⟨cost, transformer, rfl, rfl⟩

/-- What the section of a layer has to say. -/
theorem layerOf_eq_ok_iff {entries : List (Atom × Value)} {isOutput : Bool} {plan : LayerPlan} :
    layerOf (.mapping entries) isOutput = .ok plan ↔ plan.isOutput = isOutput ∧
      (∃ value, Value.lookup entries "size" = some value ∧ value.toInteger = .ok plan.size) ∧
      Value.Says entries "activation" Value.toText "sigmoid" plan.activation ∧
      Value.Says entries "neuron" Value.toText "standard" plan.rule := by
  obtain ⟨size, output, activation, rule⟩ := plan
  rw [layerOf]
  cases Value.lookup entries "size" with
  | none => simp [throw, throwThe, MonadExceptOf.throw]
  | some value =>
      simp only [Check.bind_eq_ok_iff, Check.pure_eq_ok_iff, nameIn_eq_ok_iff, LayerPlan.mk.injEq]
      constructor
      · rintro ⟨_, hsize, _, hactivation, _, hrule, rfl, rfl, rfl, rfl⟩
        exact ⟨rfl, ⟨value, rfl, hsize⟩, hactivation, hrule⟩
      · rintro ⟨rfl, ⟨_, hvalue, hsize⟩, hactivation, hrule⟩
        cases hvalue
        exact ⟨_, hsize, _, hactivation, _, hrule, rfl, rfl, rfl, rfl⟩

theorem isOutput_of_layerOf {layer : Value} {isOutput : Bool} {plan : LayerPlan}
    (hplan : layerOf layer isOutput = .ok plan) : plan.isOutput = isOutput := by
  cases layer with
  | atom a => cases hplan
  | list items => cases hplan
  | mapping entries => exact (layerOf_eq_ok_iff.mp hplan).1

/-- Layers are added one after the other, and the last one becomes the output layer. -/
theorem addConfigured_eq_ok {layers : List Value} {net after : Network Double Single}
    (hnet : net.WellFormed) (hlisted : Listed net)
    (hrun : addConfigured layers net = .ok () after) :
    after.WellFormed ∧ Listed after ∧ (layers ≠ [] → after.outputLayer.isSome) := by
  induction layers generalizing net with
  | nil => cases hrun; exact ⟨hnet, hlisted, fun hmore => absurd rfl hmore⟩
  | cons layer rest ih =>
      obtain ⟨plan, _, hlift, hrun₁⟩ := Step.bind_eq_ok hrun
      obtain ⟨hplan, rfl⟩ := Step.lift_eq_ok hlift
      obtain ⟨_, grown, hadd, hrest⟩ := Step.bind_eq_ok hrun₁
      obtain ⟨hgrown, hnames, houtput⟩ := addLayer_eq_ok hnet hlisted hadd
      obtain ⟨hafter, hlast, hmore⟩ := ih hgrown hnames hrest
      refine ⟨hafter, hlast, fun _ => ?_⟩
      cases rest with
      | nil =>
          cases hrest
          exact houtput (isOutput_of_layerOf hplan)
      | cons other rest => exact hmore (List.cons_ne_nil other rest)

/-- A configured network is portable. -/
theorem portable_configured {model : Value} {seed : Option Int} {net : Network Double Single}
    (hnet : configured model seed = .ok net) : Portable net := by
  cases model with
  | atom a => cases hnet
  | list items => cases hnet
  | mapping entries =>
      rw [configured] at hnet
      simp only [Check.bind_eq_ok_iff] at hnet
      obtain ⟨layers, hlayers, settings, hsettings, created, hcreate, hadd⟩ := hnet
      have hmore : layers ≠ [] := by
        rintro rfl
        exact absurd (length_of_layersIn hlayers) (by decide)
      obtain ⟨cost, transformer, hcost, htransformer⟩ := named_of_settingsIn hsettings
      cases hrun : addConfigured layers created with
      | error fault after => rw [hrun] at hadd; cases hadd
      | ok _ after =>
          rw [hrun] at hadd
          cases hadd
          obtain ⟨hwellFormed, hlisted, hcomplete⟩ := addConfigured_eq_ok
            (create_wellFormed hcreate) (listed_create hcost htransformer hcreate) hrun
          exact ⟨hwellFormed, hcomplete hmore, hlisted⟩

end Network

end FeedForward
