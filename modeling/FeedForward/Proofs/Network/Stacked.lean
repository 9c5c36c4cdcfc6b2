import FeedForward.Proofs.Network.Draws

/-!
# Stacked layers

Layers whose names have been resolved are put behind a network one after the other, the last of them
as the output layer. What comes of it is told for all of them at once: the sizes, what stands at the
boundaries, and the weights, which are drawn without a gap. The first layer of a network has no
boundary in front of it, so its activation and its rule are lost. Whether the layers may be added is
not asked here.
-/

namespace FeedForward

/-- The number of units of each layer: all but the last one have a bias unit in front. -/
def unitCounts : List Int → List Nat
  | [] => []
  | [size] => [size.toNat]
  | size :: rest => (size.toNat + 1) :: unitCounts rest

theorem unitCounts_cons (size : Int) (rest : List Int) :
    unitCounts (size :: rest) =
      (if rest.isEmpty then size.toNat else size.toNat + 1) :: unitCounts rest := by
  cases rest <;> rfl

/-! ## Weights in a row -/

section

variable {β : Type} (α : Type) [Precision α β]

/-- The first initial weights that a source gives. -/
def Generator.initialWeights (count : Nat) (source : Generator) : List β :=
  (List.range count).map fun k => Precision.centred α (source.skip k).bits.1

theorem Generator.initialWeights_add (count more : Nat) (source : Generator) :
    (source.initialWeights α (count + more) : List β) =
      source.initialWeights α count ++ (source.skip count).initialWeights α more := by
  simp only [initialWeights, List.range_add, List.map_append, List.map_map, Function.comp_def,
    skip_add]

end

/-- A layer to be added whose activation and rule have been found. -/
structure ResolvedLayer (α : Type) where
  size : Int
  activation : Activation α
  rule : Rule

namespace Network

variable {α β : Type} [Zero β] [Precision α β]

/-- The network with a resolved layer behind the others. -/
def extended (net : Network α β) (layer : ResolvedLayer α) (isOutput : Bool) : Network α β :=
  net.grow ⟨layer.size, isOutput, layer.activation.name, layer.rule.key⟩ layer.activation layer.rule

/-- The network with resolved layers behind the others, the last one as the output layer. -/
def stacked : List (ResolvedLayer α) → Network α β → Network α β
  | [], net => net
  | layer :: rest, net => stacked rest (net.extended layer rest.isEmpty)

omit [Zero β] [Precision α β] in
/-- The network without what layers bring along. -/
def unlayered (net : Network α β) : Network α β :=
  { net with
    sizes := []
    weights := []
    previous := []
    activations := []
    rules := []
    outputLayer := none
    source := ⟨0⟩ }

/-- Layers behind the input layer of a network have been stacked on it. The matrices of their
boundaries hold one draw after the other. -/
structure Stacks (net : Network α β) (layers : List (ResolvedLayer α)) (after : Network α β) :
    Prop where
  sizes_eq : after.sizes = net.sizes ++ unitCounts (layers.map ResolvedLayer.size)
  activations_eq : after.activations = net.activations ++ layers.map ResolvedLayer.activation
  rules_eq : after.rules = net.rules ++ layers.map ResolvedLayer.rule
  matrices : ∃ (drawn : List (Tensor β)) (count : Nat), after.weights = net.weights ++ drawn ∧
    drawn.flatMap Tensor.toList = net.source.initialWeights α count ∧
    after.source = net.source.skip count ∧
    after.previous = net.previous ++ drawn.map fun matrix => Tensor.fill matrix.shape 0
  outputLayer_eq : layers ≠ [] → after.outputLayer = some (net.sizes.length + layers.length - 1)
  unlayered_eq : after.unlayered = net.unlayered

theorem stacks_extended {net : Network α β} (hinput : net.sizes ≠ []) (layer : ResolvedLayer α)
    (isOutput : Bool) :
    let after := net.extended layer isOutput
    let rows := layer.size.toNat
    after.sizes = net.sizes ++ [if isOutput then rows else rows + 1] ∧
      after.activations = net.activations ++ [layer.activation] ∧
      after.rules = net.rules ++ [layer.rule] ∧
      (∃ (matrix : Tensor β) (count : Nat), after.weights = net.weights ++ [matrix] ∧
        matrix.toList = net.source.initialWeights α count ∧
        after.source = net.source.skip count ∧
        after.previous = net.previous ++ [Tensor.fill matrix.shape 0]) ∧
      after.outputLayer = (if isOutput then some net.sizes.length else none) ∧
      after.unlayered = net.unlayered := by
  intro after rows
  obtain ⟨columns, hcolumns⟩ := Option.isSome_iff_exists.mp
    (List.getLast?_isSome.mpr hinput)
  obtain ⟨hlist, hsource⟩ := toList_drawWeights (α := α) (β := β) rows columns net.source
  have hafter : after = { net.addBoundary rows columns layer.activation layer.rule with
      sizes := net.sizes ++ [if isOutput then rows else rows + 1]
      outputLayer := if isOutput then some net.sizes.length else none } := by
    simp only [after, extended, grow, hcolumns, rows]
  rw [hafter]
  exact ⟨rfl, rfl, rfl, ⟨_, rows * columns, rfl, hlist, hsource, rfl⟩, rfl, rfl⟩

/-- By induction over the layers: each of them goes behind those that are there already. -/
theorem stacks_stacked {net : Network α β} (hinput : net.sizes ≠ [])
    (layers : List (ResolvedLayer α)) : Stacks net layers (stacked layers net) := by
  induction layers generalizing net with
  | nil =>
      exact {
        sizes_eq := (List.append_nil _).symm
        activations_eq := (List.append_nil _).symm
        rules_eq := (List.append_nil _).symm
        matrices := ⟨[], 0, (List.append_nil _).symm, rfl, (net.source.skip_zero).symm,
          (List.append_nil _).symm⟩
        outputLayer_eq := fun hmore => absurd rfl hmore
        unlayered_eq := rfl }
  | cons layer rest ih =>
      obtain ⟨hsizes, hactivations, hrules, ⟨matrix, count, hweights, hmatrix, hsource, hprevious⟩,
        houtput, hunlayered⟩ := stacks_extended hinput layer rest.isEmpty
      have hrest : Stacks (net.extended layer rest.isEmpty) rest _ := ih (by rw [hsizes]; simp)
      obtain ⟨drawn, more, hdrawn, hlist, hskip, hlast⟩ := hrest.matrices
      exact {
        sizes_eq := by
          rw [stacked, hrest.sizes_eq, hsizes, List.map_cons, unitCounts_cons, List.isEmpty_map,
            List.append_assoc, List.singleton_append]
        activations_eq := by
          rw [stacked, hrest.activations_eq, hactivations, List.append_assoc]
          rfl
        rules_eq := by
          rw [stacked, hrest.rules_eq, hrules, List.append_assoc]
          rfl
        matrices := by
          refine ⟨matrix :: drawn, count + more, ?_, ?_, ?_, ?_⟩
          · rw [stacked, hdrawn, hweights, List.append_assoc, List.singleton_append]
          · rw [List.flatMap_cons, hmatrix, hlist, hsource, Generator.initialWeights_add]
          · rw [stacked, hskip, hsource, Generator.skip_add]
          · rw [stacked, hlast, hprevious, List.append_assoc, List.singleton_append, List.map_cons]
        outputLayer_eq := by
          intro _
          cases rest with
          | nil => exact houtput
          | cons other others =>
              rw [stacked, hrest.outputLayer_eq (List.cons_ne_nil _ _), hsizes]
              simp only [List.length_append, List.length_cons, List.length_nil]
              congr 1
              omega
        unlayered_eq := hrest.unlayered_eq.trans hunlayered }

/-- The first layer brings nothing along but its units. -/
theorem extended_of_nil {net : Network α β} (hnone : net.sizes = []) (layer : ResolvedLayer α) :
    net.extended layer false =
      { net with sizes := [layer.size.toNat + 1], outputLayer := none } := by
  simp [extended, grow, hnone]

end Network

end FeedForward
