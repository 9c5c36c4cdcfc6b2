import FeedForward.Proofs.Session.Twins

/-!
# Asking a network leaves no trace

A network that is not under training may be asked for outputs at any time. What is asked in between
changes the neurons only, and of them only what the next pass writes anew: with training off no mask
is drawn, so the random source stands still. Two copies of a network, of which only one is asked in
between, give the same answers, faults and errors to whatever else they are called for, and end with
the same weights and last updates. The neurons must use the rates of the network, and added updates
must have the extents of the weights; nothing is demanded of other calls.
-/

namespace FeedForward

/-! ## Calls -/

/-- What a network is called for between changes of its layers. -/
inductive Call (α β : Type) where
  | trainByInstance (x : Instance α) (iteration : Int)
  | trainOnline (x : Instance α) (iteration : Int)
  | updateWeights (updates : List (Update α β))
  | setWeightMatrix (index : Int) (table : Table β)
  | setDropRate (rate : α)
  | getOutput (features : Table α)

/-- The answer to a call or its fault, and the training error that the network has then. -/
structure Noted (α β : Type) where
  answer : Except Fault (Reply α β)
  trainingError : α

namespace Call

variable {α β : Type}

/-- Added updates have the extents of the weights. -/
def Admissible (net : Network α β) : Call α β → Prop
  | updateWeights updates => net.Paired updates
  | _ => True

variable [Scalar α] [Add β] [Zero β] [Precision α β]

/-- Carries out a call. -/
def perform : Call α β → Step (Network α β) (Reply α β)
  | trainByInstance x iteration => return .updates (← Network.trainByInstance x iteration)
  | trainOnline x iteration => return .updates (← Network.trainOnline x iteration)
  | updateWeights updates => do
    Network.updateWeights updates
    return .done
  | setWeightMatrix index table => do
    Network.setWeightMatrix index table
    return .done
  | setDropRate rate => do
    Network.setDropRate rate
    return .done
  | getOutput features => return .outputs (← Network.getOutput features)

end Call

namespace Network

variable {α β : Type} [Scalar α]

/-- Asks for outputs and heeds neither what comes back nor what is refused. -/
def ask [Precision α β] : List (Table α) → Network α β → Network α β
  | [], net => net
  | features :: rest, net => ask rest (Step.after (getOutput features) net)

/-- Carries out calls, each behind some questions, and notes what becomes of the calls. -/
def converse [Add β] [Zero β] [Precision α β] :
    List (List (Table α) × Call α β) → Network α β → List (Noted α β) × Network α β
  | [], net => ([], net)
  | (questions, call) :: rest, net =>
    match call.perform (ask questions net) with
    | .ok reply net =>
      let (notes, last) := converse rest net
      (⟨.ok reply, net.trainingError⟩ :: notes, last)
    | .error fault net =>
      let (notes, last) := converse rest net
      (⟨.error fault, net.trainingError⟩ :: notes, last)

/-! ## Networks that were asked in between -/

/-- A network that is not under training, and one that differs from it only in what passes leave in
the neurons. -/
structure Shadows (net other : Network α β) : Prop where
  sound : net.Sound
  complete : net.outputLayer.isSome
  transformer : KeepsCount net.transformer
  idle : net.training = false
  same : ∃ arena, other = { net with arena }
  resembles : Resembles net.units other.units

theorem Related.resembles {arena other : Arena α} (hunits : Related AkinAt arena other) :
    Resembles arena other where
  fresh_eq := hunits.freshUnits_eq
  dropped_eq k hk := by
    obtain ⟨hnone, hother⟩ | ⟨layer, otherLayer, hlayer, hother, hsame⟩ := Places.getElem? hunits k
    · rw [hnone, hother]
    · rw [hlayer, hother, Option.map_some, Option.map_some]
      refine congrArg some (hsame.map_eq fun _ n m hnm => ?_)
      obtain ⟨_, _, _, _, rfl, hdropped⟩ := hnm
      exact hdropped hk

/-- Idle units are kept, and no mask is drawn for them. -/
theorem masks_idle {keep : α} {layer : List (Neuron α)} (hidle : ∀ n ∈ layer, n.training = false)
    (source : Generator) : (masks keep layer source).2 = source := by
  induction layer with
  | nil => rfl
  | cons n layer ih =>
      have hrest := ih fun m hm => hidle m (List.mem_cons_of_mem n hm)
      simpa [masks, hidle n List.mem_cons_self] using hrest

theorem Sound.drawn_of_idle {net : Network α β} (hnet : net.Sound) (hidle : net.training = false) :
    net.drawn.2 = net.source := by
  refine masks_idle (fun n hn => ?_) net.source
  obtain ⟨layer, hlayer, hn⟩ : ∃ layer ∈ net.units, n ∈ layer := by
    cases hunits : net.units with
    | nil => rw [hunits] at hn; cases hn
    | cons layer rest => exact ⟨layer, List.mem_cons_self, by rwa [hunits] at hn⟩
  rw [(hnet.follows_units hlayer hn).training_eq, hidle]

omit [Scalar α] in
/-- Stored updates with the extents of the weights. -/
theorem paired_stored {net : Network α β} {updates : List (Tensor β)}
    (hshapes : updates.map Tensor.shape = net.weights.map Tensor.shape) :
    net.Paired (updates.map (Update.stored (α := α))) := by
  intro k update matrix hk hmatrix
  rw [List.getElem?_map] at hk
  obtain ⟨stored, hstored, rfl⟩ := Option.map_eq_some_iff.mp hk
  exact (shape_eq_of_map hshapes hmatrix hstored).symm

/-- Networks of which one still shadows the other, with the extents of an earlier one. -/
def Persist (net s t : Network α β) : Prop :=
  Shadows s t ∧ s.weights.map Tensor.shape = net.weights.map Tensor.shape

theorem Persist.trans {net s t s' t' : Network α β} (hfirst : Persist net s t)
    (hsecond : Persist s s' t') : Persist net s' t' :=
  ⟨hsecond.1, hsecond.2.trans hfirst.2⟩

namespace Shadows

variable {net other : Network α β} (hshadows : Shadows net other)

include hshadows

theorem alike : Alike net other where
  same := by
    obtain ⟨arena, hsame⟩ := hshadows.same
    exact ⟨net.trainingError, arena, hsame⟩
  resembles := hshadows.resembles

theorem mates : Mates net other := by
  obtain ⟨arena, hsame⟩ := hshadows.same
  exact mates_of_resembles ⟨net.training, net.trainingError, arena, hsame⟩ hshadows.resembles

/-- What calls write besides the neurons may be exchanged. -/
theorem exchanged {trainingError dropRate : α} {weights previous : List (Tensor β)}
    (hnet : { net with trainingError, dropRate, weights, previous : Network α β }.Sound) :
    Shadows { net with trainingError, dropRate, weights, previous }
      { other with trainingError, dropRate, weights, previous } :=
  { hshadows with
    sound := hnet
    same := by
      obtain ⟨_, rfl⟩ := hshadows.same
      exact ⟨_, rfl⟩ }

/-- The neurons may be exchanged for others that were built alike, and the sources have drawn the
same masks. -/
theorem of_ran {unit : Nat → Neuron α → Neuron α → Prop} {s t : Network α β}
    (hran : Ran unit net other s t) (hunit : ∀ k n m, unit k n m → AkinAt k n m) :
    Persist net s t := by
  have hdrawn := hshadows.alike.drawn_eq
  obtain ⟨arena, otherArena, rfl, rfl, hunits, hfresh⟩ := hran
  refine ⟨{
    sound := (hshadows.sound.withSource net.drawn.2).withArena hshadows.complete hfresh
    complete := hshadows.complete
    transformer := hshadows.transformer
    idle := hshadows.idle
    same := ?_
    resembles := Related.resembles (hunits.mono hunit) }, rfl⟩
  rw [hdrawn]
  obtain ⟨_, rfl⟩ := hshadows.same
  exact ⟨_, rfl⟩

/-! ## Calls to both networks -/

theorem agree_setDropRate (rate : α) :
    Step.Agree (Persist net) (Persist net) (setDropRate rate net) (setDropRate rate other) := by
  refine .lift_bind ⟨hshadows, rfl⟩ fun checked hcheck => .ok ⟨?_, rfl⟩
  obtain ⟨rfl, hunit⟩ := checkDropRate_eq_ok_iff.mp hcheck
  obtain ⟨_, rfl⟩ := hshadows.same
  exact hshadows.exchanged (hshadows.sound.withDropRate hunit)

theorem agree_setWeightMatrix (index : Int) (table : Table β) :
    Step.Agree (Persist net) (Persist net) (setWeightMatrix index table net)
      (setWeightMatrix index table other) := by
  obtain ⟨_, rfl⟩ := hshadows.same
  rw [setWeightMatrix, Step.bind_run, Step.get_run, Step.bind_run, Step.get_run]
  dsimp only
  generalize hcurrent : (if index < 0 then none else net.weights[index.toNat]?) = found
  cases found with
  | none => exact .error ⟨hshadows, rfl⟩
  | some current =>
      refine .lift_bind ⟨hshadows, rfl⟩ fun matrix _ => ?_
      refine .ite (fun _ => .error ⟨hshadows, rfl⟩) fun hshape => ?_
      have hshapes := shapes_set (getElem?_of_index hcurrent) (Decidable.not_not.mp hshape)
      exact .ok ⟨hshadows.exchanged (hshadows.sound.withWeights hshapes), hshapes⟩

section

variable [Precision α β]

theorem agree_getOutput (features : Table α) :
    Step.Agree (Persist net) (Persist net) (getOutput features net) (getOutput features other) := by
  obtain ⟨last, houtput⟩ := Option.isSome_iff_exists.mp hshadows.complete
  refine (hshadows.mates.agree_getOutput hshadows.sound.wellFormed.stretched houtput
    hshadows.transformer features).mono (fun s t hran => ?_) fun s t hleft => ?_
  · exact hshadows.of_ran hran fun _ _ _ hnm => hnm.akin
  · rcases hleft with ⟨rfl, rfl⟩ | hran
    · exact ⟨hshadows, rfl⟩
    · exact hshadows.of_ran hran fun _ _ _ hnm => hnm

variable [Add β] [Zero β]

theorem agree_updateWeights {updates : List (Update α β)} (hpaired : net.Paired updates) :
    Step.Agree (Persist net) (Persist net) (updateWeights updates net)
      (updateWeights updates other) := by
  obtain ⟨_, rfl⟩ := hshadows.same
  rw [updateWeights, Step.bind_run, Step.get_run, Step.bind_run, Step.get_run]
  dsimp only
  refine .ite (fun _ => .error ⟨hshadows, rfl⟩) fun _ => ?_
  have hshapes := Update.shapes_combine hpaired
  rw [Step.after] at hshapes
  generalize Step.combine Update.addTo updates net.weights = result at hshapes
  cases result with
  | ok _ weights => exact .ok ⟨hshadows.exchanged (hshadows.sound.withWeights hshapes), hshapes⟩
  | error _ weights =>
      exact .error ⟨hshadows.exchanged (hshadows.sound.withWeights hshapes), hshapes⟩

/-- What a training pass that succeeds keeps as the last updates has the extents of the weights. -/
theorem agree_trainByInstance (x : Instance α) (iteration : Int) :
    Step.Agree
      (fun s t => Persist net s t ∧ s.previous.map Tensor.shape = s.weights.map Tensor.shape)
      (Persist net) (trainByInstance x iteration net) (trainByInstance x iteration other) := by
  obtain ⟨last, houtput⟩ := Option.isSome_iff_exists.mp hshadows.complete
  have hruns := (hshadows.mates.agree_trainByInstance hshadows.sound.wellFormed.stretched houtput
    hshadows.transformer x iteration).and_after
    (preserves_trainByInstance x iteration net hshadows.sound)
  refine hruns.mono (fun s t hdone => ?_) fun s t hleft => ?_
  · obtain ⟨hs, error, previous, start, otherStart, hran, hshapes, rfl, rfl⟩ := hdone
    obtain ⟨hstart, hextents⟩ := hshadows.of_ran hran fun _ _ _ hnm => hnm.1.akin
    refine ⟨⟨?_, hextents⟩, hshapes.trans hextents.symm⟩
    obtain ⟨_, rfl⟩ := hstart.same
    exact hstart.exchanged hs
  · obtain ⟨-, hleft⟩ := hleft
    cases hleft with
    | refused => exact ⟨hshadows, rfl⟩
    | forward hran => exact hshadows.of_ran hran fun _ _ _ hnm => hnm
    | backward error hran =>
        obtain ⟨hstart, hextents⟩ := hshadows.of_ran hran fun _ _ _ hnm => hnm
        refine ⟨?_, hextents⟩
        obtain ⟨_, rfl⟩ := hstart.same
        exact hstart.exchanged (hstart.sound.withTrainingError error)

theorem agree_trainOnline (x : Instance α) (iteration : Int) :
    Step.Agree (Persist net) (Persist net) (trainOnline x iteration net)
      (trainOnline x iteration other) := by
  refine (hshadows.agree_trainByInstance x iteration).bind_of_ok fun updates s t hrun hdone => ?_
  obtain ⟨hst, hshapes⟩ := hdone
  rw [trainByInstance_previous hrun] at hshapes
  refine .bind ((hst.1.agree_updateWeights (paired_stored hshapes)).mono ?_ ?_)
    fun _ _ _ hadded => .ok hadded
  · exact fun _ _ hadded => hst.trans hadded
  · exact fun _ _ hadded => hst.trans hadded

theorem agree_perform {call : Call α β} (hadmissible : call.Admissible net) :
    Step.Agree (Persist net) (Persist net) (call.perform net) (call.perform other) := by
  cases call with
  | trainByInstance x iteration =>
      have hpass := (hshadows.agree_trainByInstance x iteration).mono (fun _ _ hdone => hdone.1)
        fun _ _ hfailed => hfailed
      exact .bind hpass fun _ _ _ h => .ok h
  | trainOnline x iteration =>
      exact .bind (hshadows.agree_trainOnline x iteration) fun _ _ _ h => .ok h
  | updateWeights updates =>
      exact .bind (hshadows.agree_updateWeights hadmissible) fun _ _ _ h => .ok h
  | setWeightMatrix index table =>
      exact .bind (hshadows.agree_setWeightMatrix index table) fun _ _ _ h => .ok h
  | setDropRate rate => exact .bind (hshadows.agree_setDropRate rate) fun _ _ _ h => .ok h
  | getOutput features => exact .bind (hshadows.agree_getOutput features) fun _ _ _ h => .ok h

end

/-! ## Questions to one of them -/

variable [Precision α β]

/-- A question changes of the other network only what passes leave in its neurons. -/
theorem after_getOutput (features : Table α) :
    Shadows net (Step.after (getOutput features) other) := by
  have hother := hshadows.alike.wellFormed hshadows.sound.wellFormed hshadows.complete
  have hdrawn : other.drawn.2 = net.source := by
    rw [hshadows.alike.drawn_eq, hshadows.sound.drawn_of_idle hshadows.idle]
  obtain ⟨last, houtput⟩ := Option.isSome_iff_exists.mp hshadows.complete
  obtain ⟨hotherOutput, htransformer⟩ : other.outputLayer = some last ∧
      KeepsCount other.transformer := by
    obtain ⟨_, rfl⟩ := hshadows.same
    exact ⟨houtput, hshadows.transformer⟩
  cases hcheck : other.checkFeatures features with
  | error fault =>
      have hrun : getOutput features other = .error fault other := by
        simp only [getOutput, Step.bind_run, Step.get_run, Step.lift_run, hcheck]
      rw [Step.after, hrun]
      exact hshadows
  | ok vector =>
      obtain ⟨rfl, hshape⟩ := shape_of_checkFeatures hcheck
      obtain ⟨hinputs, hrun⟩ := getOutput_run hother hotherOutput htransformer hshape
      have hlast := (hother.output_last last hotherOutput).1
      have hsettled := resembles_settled hother (show 0 < other.sizes.length by omega) hinputs
      rw [Step.after, hrun, hdrawn]
      refine { hshadows with same := ?_, resembles := hshadows.resembles.trans hsettled }
      obtain ⟨_, rfl⟩ := hshadows.same
      exact ⟨_, rfl⟩

theorem after_ask (questions : List (Table α)) : Shadows net (ask questions other) := by
  induction questions generalizing other with
  | nil => exact hshadows
  | cons features questions ih => exact ih (hshadows.after_getOutput features)

end Shadows

/-! ## Conversations -/

omit [Scalar α] in
/-- What is admissible depends on the extents of the weights only. -/
theorem admissible_of_shapes {net s : Network α β} {call : Call α β}
    (hadmissible : call.Admissible net)
    (hshapes : s.weights.map Tensor.shape = net.weights.map Tensor.shape) :
    call.Admissible s := by
  cases call with
  | updateWeights updates =>
      intro k update matrix hk hmatrix
      have hmap := congrArg (·[k]?) hshapes
      simp only [List.getElem?_map, hmatrix, Option.map_some] at hmap
      obtain ⟨old, hold, hsame⟩ := Option.map_eq_some_iff.mp hmap.symm
      exact (hadmissible k update old hk hold).trans hsame
  | _ => trivial

variable [Precision α β] [Add β] [Zero β]

theorem Shadows.converse_eq {net other : Network α β} (hshadows : Shadows net other)
    {script : List (List (Table α) × Call α β)}
    (hadmissible : ∀ entry ∈ script, entry.2.Admissible net) :
    (converse script other).1 = (converse (script.map fun entry => ([], entry.2)) net).1 ∧
      Shadows (converse (script.map fun entry => ([], entry.2)) net).2
        (converse script other).2 := by
  induction script generalizing net other with
  | nil => exact ⟨rfl, hshadows⟩
  | cons entry rest ih =>
      obtain ⟨questions, call⟩ := entry
      have hstep := (hshadows.after_ask questions).agree_perform
        (hadmissible (questions, call) List.mem_cons_self)
      have hrest : ∀ {s t : Network α β}, Persist net s t → t.trainingError = s.trainingError ∧
          (converse rest t).1 = (converse (rest.map fun entry => ([], entry.2)) s).1 ∧
          Shadows (converse (rest.map fun entry => ([], entry.2)) s).2 (converse rest t).2 := by
        rintro s t ⟨hst, hshapes⟩
        refine ⟨?_, ih hst fun other hother => ?_⟩
        · obtain ⟨_, rfl⟩ := hst.same
          rfl
        · exact admissible_of_shapes (hadmissible other (List.mem_cons_of_mem _ hother)) hshapes
      rw [List.map_cons, converse, converse, ask]
      generalize call.perform net = first at hstep ⊢
      generalize call.perform (ask questions other) = second at hstep ⊢
      cases hstep with
      | ok hpost =>
          obtain ⟨herror, hnotes, hlast⟩ := hrest hpost
          exact ⟨by dsimp only; rw [herror, hnotes], hlast⟩
      | error hfail =>
          obtain ⟨herror, hnotes, hlast⟩ := hrest hfail
          exact ⟨by dsimp only; rw [herror, hnotes], hlast⟩

/-- Whatever a network that is not under training is asked in front of and behind its calls,
accepted or refused, the calls have the same answers, faults and training errors as without the
questions, and at the end only the neurons may be others: the weights, the last updates and the
random source are the same. -/
theorem converse_ask {net : Network α β} (hnet : net.Sound) (hcomplete : net.outputLayer.isSome)
    (htransformer : KeepsCount net.transformer) (hidle : net.training = false)
    {script : List (List (Table α) × Call α β)}
    (hadmissible : ∀ entry ∈ script, entry.2.Admissible net) (closing : List (Table α)) :
    let quiet := converse (script.map fun entry => ([], entry.2)) net
    let asked := converse script net
    let last := ask closing asked.2
    asked.1 = quiet.1 ∧ last.weights = quiet.2.weights ∧ last.previous = quiet.2.previous ∧
      last.source = quiet.2.source ∧ ∃ arena, last = { quiet.2 with arena } := by
  intro quiet asked last
  have hshadows : Shadows net net := ⟨hnet, hcomplete, htransformer, hidle, ⟨_, rfl⟩, .refl _⟩
  obtain ⟨hnotes, hend⟩ := hshadows.converse_eq hadmissible
  obtain ⟨arena, hlast⟩ : ∃ arena, last = { quiet.2 with arena } := (hend.after_ask closing).same
  rw [hlast]
  exact ⟨hnotes, rfl, rfl, rfl, arena, rfl⟩

/-- The layers of the example with training off. -/
def idlePractice : Network Double Single := Step.after (setTraining false) practice

/-- A call of every kind, some of them refused, behind questions of which some are refused. -/
def manyCalls : List (List (Table Double) × Call Double Single) :=
  [([some (.ofList [0, 1]), none], .trainByInstance exercise 7),
    ([], .updateWeights [.stored (.fill [2, 3] 0), .stored (.fill [2, 3] 0)]),
    ([some (.ofList [1]), some (.ofList [1, 1])], .setWeightMatrix 0 none),
    ([some (.ofList [1, 0])], .setDropRate 0.25), ([], .getOutput (some (.ofList [1, 0]))),
    ([some (.ofList [0, 0])], .trainOnline exercise 3)]

theorem converse_ask_idlePractice :
    idlePractice.Sound ∧ idlePractice.outputLayer.isSome ∧ KeepsCount idlePractice.transformer ∧
      idlePractice.training = false ∧
      (∀ entry ∈ manyCalls, entry.2.Admissible idlePractice) ∧
      let quiet := converse (manyCalls.map fun entry => ([], entry.2)) idlePractice
      let asked := converse manyCalls idlePractice
      let last := ask [some (.ofList [1, 0]), none] asked.2
      asked.1 = quiet.1 ∧ last.weights = quiet.2.weights ∧ last.previous = quiet.2.previous ∧
        last.source = quiet.2.source ∧ ∃ arena, last = { quiet.2 with arena } := by
  have hnet : idlePractice.Sound := preserves_setTraining false practice practice_sound
  let updates : List (Tensor Single) := [.fill [2, 3] 0, .fill [2, 3] 0]
  have hshapes : updates.map Tensor.shape = idlePractice.weights.map Tensor.shape := rfl
  have hpaired : idlePractice.Paired [.stored (.fill [2, 3] 0), .stored (.fill [2, 3] 0)] :=
    paired_stored hshapes
  have hadmissible : ∀ entry ∈ manyCalls, entry.2.Admissible idlePractice := by
    simp [manyCalls, Call.Admissible, hpaired]
  have htransformer : KeepsCount idlePractice.transformer := fun _ => rfl
  exact ⟨hnet, rfl, htransformer, rfl, hadmissible,
    converse_ask hnet rfl htransformer rfl hadmissible _⟩

end Network

end FeedForward
