import FeedForward.Proofs.Lockstep.Passes
import FeedForward.Proofs.Network.Coherence

/-!
# Networks at rest

A network whose training is off, with all its neurons, can be asked for outputs without any random
draw: no unit is dropped by the request, and the outputs do not depend on the drop rate. A unit of
the input layer that no value reaches stays as it was; there are such units only where restoring
has left new sizes in front of old neurons.
-/

namespace FeedForward.Network

variable {α β : Type} [Scalar α]

/-! ## Units that are fed without training -/

/-- The unit at a place of a layer is dropped. -/
def Dropped (net : Network α β) (layer place : Nat) : Prop :=
  ∃ arena units n, net.arena = some arena ∧ arena[layer]? = some units ∧ units[place]? = some n ∧
    n.dropped = true

/-- Values put out of some units of which none is dropped, as far as both go. -/
def putOut : List (Neuron α) → List α → List (Neuron α)
  | n :: layer, value :: values =>
    { n with dropped := false, output := value * 1 } :: putOut layer values
  | layer, _ => layer

/-- Units that are not under training put their values out without a draw. -/
theorem feedInputs_of_off {layer : List (Neuron α)} (hoff : ∀ n ∈ layer, n.training = false)
    (keep : α) (values : List α) (source : Generator) :
    feedInputs keep layer values source = (putOut layer values, source) := by
  induction layer generalizing values with
  | nil => cases values <;> rfl
  | cons n layer ih =>
      cases values with
      | nil => rfl
      | cons value values =>
          obtain ⟨hn, hrest⟩ := List.forall_mem_cons.mp hoff
          simp [feedInputs, feedInput, putOut, hn, ih hrest values]

/-- A unit that is dropped behind some values was dropped before them, and none of them is its
own. -/
theorem dropped_putOut {layer : List (Neuron α)} {values : List α} {place : Nat} {n : Neuron α}
    (hn : (putOut layer values)[place]? = some n) (hdropped : n.dropped = true) :
    values.length ≤ place ∧ layer[place]? = some n := by
  induction layer generalizing values place with
  | nil => cases values <;> simp [putOut] at hn
  | cons m layer ih =>
      cases values with
      | nil => exact ⟨Nat.zero_le place, hn⟩
      | cons value values =>
          cases place with
          | zero =>
              rw [putOut, List.getElem?_cons_zero, Option.some.injEq] at hn
              subst hn
              cases hdropped
          | succ place =>
              rw [putOut, List.getElem?_cons_succ] at hn
              obtain ⟨hlength, hsame⟩ := ih hn
              exact ⟨Nat.succ_le_succ hlength, hsame⟩

/-! ## Requests -/

section

variable [Precision α β]

/-- The values that a request puts out of the input layer: those of the features behind that of the
bias unit. -/
def asked (net : Network α β) (vector : Tensor α) : List α :=
  inferenceBias :: (net.transformer.apply vector).toList

theorem getOutput_cases (features : Table α) (net : Network α β) :
    getOutput features net = match net.checkFeatures features with
      | .ok vector => forward (net.asked vector) net
      | .error fault => .error fault net := by
  simp only [getOutput, Step.bind_run, Step.get_run, Step.lift_run]
  cases net.checkFeatures features <;> rfl

omit [Scalar α] in
/-- The unit at the same place of the same layer has the same flags. -/
theorem exists_unit_of_flags {arena other : Arena α}
    (hflags : other.map (List.map Neuron.flags) = arena.map (List.map Neuron.flags))
    {layer place : Nat} {units : List (Neuron α)} {n : Neuron α}
    (hunits : other[layer]? = some units) (hn : units[place]? = some n) :
    ∃ old m, arena[layer]? = some old ∧ old[place]? = some m ∧ m.flags = n.flags := by
  have hlayers := congrArg (·[layer]?) hflags
  simp only [List.getElem?_map, hunits, Option.map_some] at hlayers
  obtain ⟨old, hold, hsame⟩ := Option.map_eq_some_iff.mp hlayers.symm
  have hplaces := congrArg (·[place]?) hsame
  simp only [List.getElem?_map, hn, Option.map_some] at hplaces
  obtain ⟨m, hm, hmn⟩ := Option.map_eq_some_iff.mp hplaces
  exact ⟨old, m, hold, hm, hmn⟩

section

variable {net : Network α β} (hnet : net.Coherent) {arena : Arena α} (hhand : net.AtHand arena)

include hnet hhand

omit [Precision α β] in
/-- A unit at hand that is dropped is there already and belongs to the input layer. -/
theorem Coherent.dropped_of_atHand {layer place : Nat} {units : List (Neuron α)} {n : Neuron α}
    (hunits : arena[layer]? = some units) (hn : units[place]? = some n)
    (hdropped : n.dropped = true) : layer = 0 ∧ net.Dropped 0 place := by
  have hfirst : layer = 0 := by
    cases layer with
    | zero => rfl
    | succ layer =>
        have hmem : units ∈ arena.tail := by
          have htail : arena.tail[layer]? = some units := by rwa [List.getElem?_tail]
          exact List.mem_of_getElem? htail
        rw [(hnet.atHand hhand).kept units hmem n (List.mem_of_getElem? hn)] at hdropped
        cases hdropped
  subst hfirst
  refine ⟨rfl, ?_⟩
  rcases hhand with hthere | ⟨-, hbuild⟩
  · exact ⟨arena, units, n, hthere, hunits, hn, hdropped⟩
  · -- Neurons that have just been built are not dropped.
    have hflags :=
      flags_of_buildArena hbuild (List.mem_of_getElem? hunits) (List.mem_of_getElem? hn)
    rw [Neuron.flags, hdropped] at hflags
    cases congrArg Prod.snd hflags

variable (hoff : net.training = false)

include hoff

omit [Precision α β] in
/-- Feeding the input layer of a network at rest. -/
theorem Coherent.fedUnits_of_off (values : List α) : (net.withArena arena).fedUnits values =
    (arena.set 0 (putOut (arena.headD []) values), net.source) := by
  have hinputs : ∀ n ∈ arena.headD [], n.training = false := by
    intro n hn
    cases arena with
    | nil => cases hn
    | cons layer arena =>
        exact ((hnet.atHand hhand).training_eq layer List.mem_cons_self n hn).trans hoff
  have hunits : (net.withArena arena).units = arena := rfl
  rw [fedUnits, hunits, feedInputs_of_off hinputs]
  rfl

/-- A unit that a forward run leaves dropped was dropped before, and no value has reached it. -/
theorem Coherent.dropped_of_forward {values : List α} {layer place : Nat}
    (hdropped : (Step.after (forward values) net).Dropped layer place) :
    layer = 0 ∧ net.Dropped 0 place ∧ values.length ≤ place := by
  obtain ⟨after, units, n, hafter, hunits, hn, hmark⟩ := hdropped
  rw [Step.after, hhand.forward_run, Step.after_mapState] at hafter
  obtain rfl := Option.some.inj hafter
  obtain ⟨fed, m, hfed, hm, hmn⟩ :=
    exists_unit_of_flags (keeps_forwardUnits _ Neuron.overlooks_flags _) hunits hn
  rw [hnet.fedUnits_of_off hhand hoff] at hfed
  have hmark' : m.dropped = true := (congrArg Prod.snd hmn).trans hmark
  cases layer with
  | zero =>
      cases arena with
      | nil => cases hfed
      | cons first rest =>
          obtain rfl : putOut first values = fed := Option.some.inj hfed
          obtain ⟨hlength, hold⟩ := dropped_putOut hm hmark'
          have hfirst : (first :: rest)[0]? = some first := rfl
          exact ⟨rfl, (hnet.dropped_of_atHand hhand hfirst hold hmark').2, hlength⟩
  | succ layer =>
      rw [List.getElem?_set_ne (Nat.succ_ne_zero layer).symm] at hfed
      cases (hnet.dropped_of_atHand hhand hfed hm hmark').1

end

section

variable {net : Network α β} (hnet : net.Coherent) (hoff : net.training = false)

include hnet hoff

/-- A request draws nothing. -/
theorem Coherent.source_getOutput (features : Table α) :
    (Step.after (getOutput features) net).source = net.source := by
  rw [Step.after, getOutput_cases]
  cases net.checkFeatures features with
  | error fault => rfl
  | ok vector =>
      dsimp only
      rcases net.bare_or_atHand with ⟨fault, hbare⟩ | ⟨arena, hhand⟩
      · rw [hbare.forward_run]
      · rw [hhand.forward_run, Step.after_mapState]
        exact congrArg Prod.snd (hnet.fedUnits_of_off hhand hoff (net.asked vector))

/-- A unit that a request leaves dropped was dropped before, and no value has reached it. -/
theorem Coherent.dropped_getOutput {features : Table α} {layer place : Nat}
    (hdropped : (Step.after (getOutput features) net).Dropped layer place) :
    layer = 0 ∧ net.Dropped 0 place ∧
      ∀ vector, net.checkFeatures features = .ok vector → (net.asked vector).length ≤ place := by
  rw [Step.after, getOutput_cases] at hdropped
  cases hcheck : net.checkFeatures features with
  | error fault =>
      rw [hcheck] at hdropped
      obtain ⟨arena, units, n, harena, hunits, hn, hmark⟩ := hdropped
      obtain ⟨hlayer, hold⟩ := hnet.dropped_of_atHand (.inl harena) hunits hn hmark
      exact ⟨hlayer, hold, fun vector hvector => by cases hvector⟩
  | ok vector =>
      rw [hcheck] at hdropped
      rcases net.bare_or_atHand with ⟨fault, hbare⟩ | ⟨arena, hhand⟩
      · -- Where no neurons are there, the refused request leaves none.
        simp only [hbare.forward_run] at hdropped
        obtain ⟨arena, -, -, harena, -⟩ := hdropped
        rw [hbare.1] at harena
        cases harena
      · obtain ⟨hlayer, hold, hlength⟩ := hnet.dropped_of_forward hhand hoff hdropped
        refine ⟨hlayer, hold, fun other hother => ?_⟩
        cases hother
        exact hlength

/-- The values of a request reach every input unit of a well-formed network. -/
theorem Coherent.not_dropped_getOutput (hwell : net.WellFormed)
    (htransformer : KeepsCount net.transformer) {features : Table α} {vector : Tensor α}
    (hcheck : net.checkFeatures features = .ok vector) (layer place : Nat) :
    ¬ (Step.after (getOutput features) net).Dropped layer place := by
  intro hdropped
  obtain ⟨-, ⟨arena, units, n, harena, hunits, hn, -⟩, hlength⟩ :=
    hnet.dropped_getOutput hoff hdropped
  obtain ⟨last, houtput⟩ := Option.isSome_iff_exists.mp
    (hwell.arena_complete (harena ▸ rfl : net.arena.isSome))
  obtain ⟨hlast, hpositive⟩ := hwell.output_last last houtput
  have hvalues := length_bias_cons hwell (by omega) htransformer
    (shape_of_checkFeatures hcheck).2 inferenceBias
  have hunits := (hwell.arena_fits arena harena).layer_length 0 units hunits
  have hplace := (List.getElem?_eq_some_iff.mp hn).1
  have hasked := hlength vector hcheck
  rw [asked] at hasked
  omega

/-- The drop rate has no part in a request. -/
theorem Coherent.getOutput_withDropRate (features : Table α) (dropRate : α) :
    getOutput features { net with dropRate } =
      Step.mapState (fun after => { after with dropRate }) (getOutput features net) := by
  have hcheck : Network.checkFeatures { net with dropRate } features =
    net.checkFeatures features := rfl
  rw [getOutput_cases, getOutput_cases, hcheck]
  cases net.checkFeatures features with
  | error fault => rfl
  | ok vector =>
      dsimp only
      rcases net.bare_or_atHand with ⟨fault, hbare⟩ | ⟨arena, hhand⟩
      · have hother : Network.Bare { net with dropRate } fault := hbare
        rw [hbare.forward_run, hother.forward_run]
        rfl
      · have hother : Network.AtHand { net with dropRate } arena := hhand
        have hcoherent : Network.Coherent { net with dropRate } := hnet
        have hvalues : Network.asked { net with dropRate } vector = net.asked vector := rfl
        have hunits : (Network.withArena { net with dropRate } arena).forwardUnits =
            (net.withArena arena).forwardUnits := forwardUnits_congr ⟨_, _, _, _, _, _, rfl⟩
        rw [hother.forward_run, hhand.forward_run, hvalues, hunits, fed, fed,
          hcoherent.fedUnits_of_off hother hoff, hnet.fedUnits_of_off hhand hoff]
        cases (net.withArena arena).forwardUnits
          (arena.set 0 (putOut (arena.headD []) (net.asked vector))) <;> rfl

end

/-- Training is off for the network and its neurons, and a request for outputs drops nothing: it
draws nothing, a unit that it leaves dropped was dropped before and out of reach of its values, in
a well-formed network there is no such unit, and any drop rate would have given the same. -/
structure AtRest (net : Network α β) : Prop where
  training_eq : net.training = false
  units_eq : ∀ arena, net.arena = some arena → ∀ layer ∈ arena, ∀ n ∈ layer, n.training = false
  source_eq : ∀ features, (Step.after (getOutput features) net).source = net.source
  dropped_before : ∀ features layer place,
    (Step.after (getOutput features) net).Dropped layer place →
      layer = 0 ∧ net.Dropped 0 place ∧
        ∀ vector, net.checkFeatures features = .ok vector → (net.asked vector).length ≤ place
  none_dropped : net.WellFormed → KeepsCount net.transformer → ∀ features vector,
    net.checkFeatures features = .ok vector →
      ∀ layer place, ¬ (Step.after (getOutput features) net).Dropped layer place
  rate_free : ∀ features dropRate, getOutput features { net with dropRate } =
    Step.mapState (fun after => { after with dropRate }) (getOutput features net)

theorem Coherent.atRest {net : Network α β} (hnet : net.Coherent) (hoff : net.training = false) :
    net.AtRest where
  training_eq := hoff
  units_eq := fun arena harena layer hlayer n hn =>
    ((hnet arena harena).training_eq layer hlayer n hn).trans hoff
  source_eq := hnet.source_getOutput hoff
  dropped_before := fun _ _ _ => hnet.dropped_getOutput hoff
  none_dropped := fun hwell htransformer _ _ => hnet.not_dropped_getOutput hoff hwell htransformer
  rate_free := hnet.getOutput_withDropRate hoff

end

end FeedForward.Network
