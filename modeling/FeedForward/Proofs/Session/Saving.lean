import FeedForward.Proofs.ModelFile.Stream
import FeedForward.Proofs.Session.Reweighted

/-!
# Runs that write a checkpoint

A run that succeeds has written its checkpoint whole, and there is the file of the network that it
has trained. Training exchanges nothing but numbers. So a network that can be stored before a run
can be stored behind it, and what is written of it is decoded as a network with its layers, names
and numbers.
-/

namespace FeedForward

/-! ## Checkpoints -/

namespace Session

variable {α β τ : Type}

theorem saved_eq_ok {γ : Type} {model : Output} {result returned : γ} {session : Session α β τ}
    {after : Session α β τ × Option (List UInt8)}
    (hsaved : saved model result session = .ok returned after) :
    result = returned ∧ model.cut = none ∧ after = (session, some model.bytes) := by
  rw [saved] at hsaved
  split at hsaved
  next => cases hsaved
  next hwhole => cases hsaved; exact ⟨rfl, hwhole, rfl⟩

/-- A run that succeeds has written its checkpoint whole. -/
theorem runSaving_eq_ok [Scalar α] [Add β] [Zero β] [Precision α β] [Encoding α] [Encoding β]
    {plan : RunPlan} {listeners : List (Listener α τ)} {instances : List (Instance α)}
    {s : Session α β τ} {checkpoint : Option (List UInt8)} {summary : RunSummary α}
    {after : Session α β τ × Option (List UInt8)}
    (hrun : runSaving plan listeners instances (s, checkpoint) = .ok summary after) :
    ∃ ended, run plan listeners instances s = .ok summary ended ∧
      (ModelFile.write ended.network).cut = none ∧
      after = (ended, some (ModelFile.write ended.network).bytes) := by
  rw [runSaving] at hrun
  cases htrain : run plan listeners instances s with
  | error fault ended => rw [htrain] at hrun; cases hrun
  | ok trained ended =>
      rw [htrain] at hrun
      obtain ⟨rfl, hwhole⟩ := saved_eq_ok hrun
      exact ⟨ended, rfl, hwhole⟩

theorem saved_of_whole {γ : Type} {model : Output} (hwhole : model.cut = none) (result : γ)
    (session : Session α β τ) :
    saved model result session = .ok result (session, some model.bytes) := by
  rw [saved, hwhole]

theorem runSaving_of_ok [Scalar α] [Add β] [Zero β] [Precision α β] [Encoding α] [Encoding β]
    {plan : RunPlan} {listeners : List (Listener α τ)} {instances : List (Instance α)}
    {s ended : Session α β τ} {summary : RunSummary α}
    (hrun : run plan listeners instances s = .ok summary ended)
    (hwhole : (ModelFile.write ended.network).cut = none) (checkpoint : Option (List UInt8)) :
    runSaving plan listeners instances (s, checkpoint) =
      .ok summary (ended, some (ModelFile.write ended.network).bytes) := by
  rw [runSaving, hrun]
  exact saved_of_whole hwhole summary ended

end Session

/-! ## Trained networks -/

namespace Network.Reweighted

open ModelFile (Portable Storable Restores)

variable {net other : Network Double Single}

/-- A network is portable with other numbers, too. -/
theorem portable (hother : net.Reweighted other) (hnet : Portable net) :
    Portable other.lasting where
  wellFormed := hother.wellFormed hnet.wellFormed
  complete := by
    obtain ⟨_, _, _, hsame, -⟩ := hother
    rw [hsame]
    exact hnet.complete
  listed := by
    obtain ⟨_, _, _, hsame, -⟩ := hother
    rw [hsame]
    exact ⟨hnet.listed.cost_listed, hnet.listed.transformer_listed,
      hnet.listed.activations_listed⟩

/-- What is written of it whole is decoded as a network with its layers, names and numbers. -/
theorem exists_decode (hother : net.Reweighted other) (hnet : Portable net)
    (hwhole : (ModelFile.write other).cut = none) :
    ∃ loaded, ModelFile.decode (ModelFile.write other).bytes = .ok loaded ∧
      Restores other loaded := by
  have hportable := hother.portable hnet
  have hstorable : Storable other.lasting := hportable.listed.storable hwhole
  have hread := (hportable.reads hstorable).run_eq []
  rw [List.append_nil] at hread
  have hrestores := hportable.restores hstorable
  exact ⟨_, ModelFile.decode_eq_ok_iff.mpr hread, { hrestores with }⟩

/-- What can be stored can be stored with other numbers, too. -/
theorem whole (hother : net.Reweighted other) (hnet : Portable net) (hstorable : Storable net) :
    (ModelFile.write other).cut = none := by
  have hsame : Storable other.lasting := by
    obtain ⟨_, _, _, hlasting, -⟩ := hother
    rw [hlasting]
    exact { hstorable with }
  exact ((hother.portable hnet).reads hsame).whole

end Network.Reweighted

end FeedForward
