import FeedForward.Proofs.Dense.Forward
import FeedForward.Proofs.Network.Topology
import Mathlib.Data.List.Forall2

/-!
# How restored layers are installed

Restoring layers either installs everything that its plan writes down or stops. Where it stops at
a check, nothing has changed. The activations are looked up after the sizes and the output layer
have been set, and a name without an entry stops it there: the new sizes stand in front of the old
matrices, rules and neurons. So only plans whose activations are all there are restored as a whole
or not at all.
-/

namespace FeedForward

/-- A reference means a value, under one of the names of a registry or as it is. -/
inductive Ref.Means {γ : Type} (registry : Registry γ) : Ref γ → γ → Prop where
  | named {name : String} {value : γ} (hfind : registry.find? name = some value) :
      Means registry (.named name) value
  | given (value : γ) : Means registry (.given value) value

namespace Network

section

variable {γ : Type} {registry : Registry γ}

theorem resolveOrRefuse_eq_ok_iff {ref : Ref γ} {value : γ} :
    resolveOrRefuse registry ref = .ok value ↔ ref.Means registry value := by
  cases ref with
  | given other =>
      constructor
      · intro hresolve; cases hresolve; exact .given _
      · intro hmeans; cases hmeans; rfl
  | named name =>
      cases hfind : registry.find? name with
      | none =>
          constructor
          · intro hresolve
            simp [resolveOrRefuse, Registry.resolve, Registry.get, hfind] at hresolve
          · intro hmeans
            cases hmeans with
            | named hvalue => rw [hfind] at hvalue; cases hvalue
      | some other =>
          have hresolve : resolveOrRefuse registry (.named name) = .ok other := by
            simp [resolveOrRefuse, Registry.resolve, Registry.get, hfind]
          rw [hresolve]
          constructor
          · intro heq; cases heq; exact .named hfind
          · intro hmeans
            cases hmeans with
            | named hvalue => rw [hfind, Option.some.injEq] at hvalue; rw [hvalue]

/-- Only a name without an entry is refused, and the refusal lists the names there are. -/
theorem resolveOrRefuse_eq_error_iff {ref : Ref γ} {fault : Fault} :
    resolveOrRefuse registry ref = .error fault ↔ ∃ name, ref = .named name ∧
      registry.find? name = none ∧ fault = .refusedName registry.role name registry.names := by
  cases ref with
  | given value => simp [resolveOrRefuse, Registry.resolve]
  | named name =>
      cases hfind : registry.find? name with
      | none => simp [resolveOrRefuse, Registry.resolve, Registry.get, hfind, eq_comm]
      | some value => simp [resolveOrRefuse, Registry.resolve, Registry.get, hfind]

/-- The first of some references that means nothing is a name, and this is the fault that says
so. -/
def FirstUnknown (registry : Registry γ) (refs : List (Ref γ)) (fault : Fault) : Prop :=
  ∃ known name rest values, refs = known ++ .named name :: rest ∧
    List.Forall₂ (Ref.Means registry) known values ∧ registry.find? name = none ∧
    fault = .refusedName registry.role name registry.names

theorem mapM_resolveOrRefuse_eq_ok_iff {refs : List (Ref γ)} {values : List γ} :
    refs.mapM (resolveOrRefuse registry) = .ok values ↔
      List.Forall₂ (Ref.Means registry) refs values := by
  rw [Check.mapM_eq_ok_iff]
  induction refs generalizing values with
  | nil => cases values <;> simp
  | cons ref refs ih => cases values <;> simp [ih, resolveOrRefuse_eq_ok_iff]

theorem mapM_resolveOrRefuse_eq_error_iff {refs : List (Ref γ)} {fault : Fault} :
    refs.mapM (resolveOrRefuse registry) = .error fault ↔ FirstUnknown registry refs fault := by
  rw [Check.mapM_eq_error_iff]
  constructor
  · rintro ⟨known, ref, rest, values, rfl, hknown, href⟩
    obtain ⟨name, rfl, hnone, hfault⟩ := resolveOrRefuse_eq_error_iff.mp href
    exact ⟨known, name, rest, values, rfl, mapM_resolveOrRefuse_eq_ok_iff.mp hknown, hnone, hfault⟩
  · rintro ⟨known, name, rest, values, rfl, hknown, hnone, hfault⟩
    exact ⟨known, .named name, rest, values, rfl, mapM_resolveOrRefuse_eq_ok_iff.mpr hknown,
      resolveOrRefuse_eq_error_iff.mpr ⟨name, rfl, hnone, hfault⟩⟩

end

variable {α β : Type} [Scalar α]

/-- The network with new sizes and a new output layer in front of the matrices, activations, rules
and neurons that it had. -/
def withSizes (net : Network α β) (restored : RestoredLayers β) : Network α β :=
  { net with sizes := restored.sizes, outputLayer := some restored.outputLayer }

variable [Zero β]

/-- Restoring layers goes through three stages: the checks, the new sizes, and the rest once the
activations are found. -/
theorem restoreLayers_stages (plan : TopologyPlan α β) (net : Network α β) :
    restoreLayers plan net = match checkTopology plan with
      | .error fault => .error fault net
      | .ok restored => match plan.activations.mapM (resolveOrRefuse Activation.registry) with
        | .error fault => .error fault (net.withSizes restored)
        | .ok activations => .ok () (net.withLayers restored activations) := by
  simp only [restoreLayers, Step.bind_run, Step.lift_run, Step.modify_run, Step.ofExcept_run]
  cases checkTopology plan with
  | error fault => rfl
  | ok restored => cases plan.activations.mapM (resolveOrRefuse Activation.registry) <;> rfl

/-- Restoring layers keeps what does not see them. -/
theorem keeps_restoreLayers {κ : Type} {view : Network α β → κ}
    (hsizes : ∀ net restored, view (net.withSizes restored) = view net)
    (hlayers : ∀ net restored activations, view (net.withLayers restored activations) = view net)
    (plan : TopologyPlan α β) :
    Step.Keeps view (restoreLayers plan : Step (Network α β) Unit) := by
  intro net
  rw [Step.after, restoreLayers_stages]
  cases checkTopology plan with
  | error fault => rfl
  | ok restored =>
      cases plan.activations.mapM (resolveOrRefuse Activation.registry) with
      | error fault => exact hsizes net restored
      | ok activations => exact hlayers net restored activations

/-- What a call that restores layers gives and leaves. It succeeds exactly where the plan writes
down layers and all its activations are there, and then all layers are the plan's, the last updates
are zero and no neurons are built. It fails either at a check, which leaves the network as it was,
or at the first activation that is not there, which leaves the new sizes and the new output layer
with everything else as it was. -/
theorem restoreLayers_eq_iff (plan : TopologyPlan α β) (net after : Network α β) :
    (restoreLayers plan net = .ok () after ↔ ∃ restored activations, Describes plan restored ∧
      List.Forall₂ (Ref.Means Activation.registry) plan.activations activations ∧
      after = net.withLayers restored activations) ∧
    ∀ fault, restoreLayers plan net = .error fault after ↔
      (checkTopology plan = .error fault ∧ after = net) ∨
      ∃ restored, Describes plan restored ∧
        FirstUnknown Activation.registry plan.activations fault ∧
        after = net.withSizes restored := by
  simp only [restoreLayers_stages, ← checkTopology_eq_ok_iff, ← mapM_resolveOrRefuse_eq_ok_iff,
    ← mapM_resolveOrRefuse_eq_error_iff]
  cases checkTopology plan with
  | error fault => simp [eq_comm]
  | ok restored =>
      cases plan.activations.mapM (resolveOrRefuse Activation.registry) with
      | error fault => simp [eq_comm]
      | ok activations => simp [eq_comm]

/-- Where all activations are there, restoring layers is all or nothing. -/
theorem restoreLayers_atomic {plan : TopologyPlan α β} {activations : List (Activation α)}
    (hmeans : List.Forall₂ (Ref.Means Activation.registry) plan.activations activations)
    {net after : Network α β} {fault : Fault} (hrun : restoreLayers plan net = .error fault after) :
    after = net := by
  rw [restoreLayers_run (mapM_resolveOrRefuse_eq_ok_iff.mpr hmeans)] at hrun
  cases hcheck : checkTopology plan with
  | error cause => rw [hcheck] at hrun; cases hrun; rfl
  | ok restored => rw [hcheck] at hrun; cases hrun

/-- Two layers whose activation has no entry. -/
def misnamed : TopologyPlan Double Single :=
  ⟨[2, 1], 1, [.named "nope"], [Rule.standard.key], [some (Tensor.fill [1, 2] 0)]⟩

/-- A name without an entry leaves a well-formed network with the new sizes and the old matrices,
so that it is not well-formed any more. -/
theorem restoreLayers_misnamed :
    practice.WellFormed ∧
      restoreLayers misnamed practice =
        .error (.refusedName .activation "nope" (Activation.registry (α := Double)).names)
          { practice with sizes := [2, 1], outputLayer := some 1 } ∧
      practice.sizes = [3, 3, 2] ∧
      ¬ Network.WellFormed { practice with sizes := [2, 1], outputLayer := some 1 } := by
  refine ⟨practice_sound.wellFormed, rfl, rfl, fun hstale => ?_⟩
  have hlength : practice.weights.length = 1 := hstale.weights_length
  exact absurd hlength (by decide)

end Network

end FeedForward
