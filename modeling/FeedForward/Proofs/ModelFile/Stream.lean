import FeedForward.Proofs.ModelFile.Format
import FeedForward.Proofs.ModelFile.RoundTrip

/-!
# Model files in one stream

A model file says itself where it ends. Reading takes a network from the front of some bytes and
does the same in front of any other bytes, so nothing that is cut off a model file and nothing that
is put behind one is decoded. Networks that are written one after the other into one stream are read
back one after the other, each from where the one before has stopped, and a reading that starts at
the end of the stream is refused.

A network whose names the registries list is written whole exactly where it can be stored.
-/

namespace FeedForward

/-! ## Parts that are written whole -/

namespace Output

theorem join_cut_eq_none_iff {outs : List Output} :
    (join outs).cut = none ↔ ∀ out ∈ outs, out.cut = none := by
  induction outs with
  | nil => simp [join, ofBytes]
  | cons out outs ih =>
      obtain ⟨bytes, _ | fault⟩ := out
      · simpa [join] using ih
      · simp [join]

theorem list_cut_eq_none_iff {κ : Type} {item : κ → Output} {items : List κ} :
    (list item items).cut = none ↔ ∀ out ∈ int items.length :: items.map item, out.cut = none := by
  rw [list, join_cut_eq_none_iff]

theorem join_bytes {outs : List Output} (hwhole : ∀ out ∈ outs, out.cut = none) :
    (join outs).bytes = outs.flatMap bytes := by
  induction outs with
  | nil => rfl
  | cons out outs ih =>
      obtain ⟨hout, houts⟩ := List.forall_mem_cons.mp hwhole
      obtain ⟨bytes, cut⟩ := out
      cases (show cut = none from hout)
      rw [join, ih houts, List.flatMap_cons]

theorem complete_eq_ok_iff {out : Output} {bytes : List UInt8} :
    out.complete = .ok bytes ↔ out.cut = none ∧ out.bytes = bytes := by
  rw [complete]
  split
  next hcut => simp [hcut]
  next fault hcut => simp [hcut]

theorem fits_of_int_whole {n : Int} (hwhole : (int n).cut = none) : FitsInt n := by
  rw [int] at hwhole
  split at hwhole
  next hfits => exact hfits
  next => cases hwhole

end Output

/-! ## Where reading stops -/

namespace Input

variable {γ : Type}

/-- Reading takes bytes from the front that settle what is read, whatever follows them. -/
def Delimits (input : Input γ) : Prop :=
  ∀ bytes x rest, input.run bytes = .ok (x, rest) →
    ∃ taken, bytes = taken ++ rest ∧ ∀ other, input.run (taken ++ other) = .ok (x, other)

/-- What is read to the end and starts what is read to the end is all of it. -/
theorem Delimits.eq_of_isPrefix {input : Input γ} (hinput : input.Delimits)
    {bytes other : List UInt8} {x y : γ} (hbytes : input.run bytes = .ok (x, []))
    (hother : input.run other = .ok (y, [])) (hstart : bytes <+: other) : bytes = other := by
  obtain ⟨rest, rfl⟩ := hstart
  obtain ⟨taken, htaken, hrun⟩ := hinput bytes x [] hbytes
  rw [List.append_nil] at htaken
  subst htaken
  rw [hrun rest] at hother
  cases hother
  rw [List.append_nil]

/-- What fails after some things have been read fails as one more of them. -/
theorem times_succ_eq_error {input : Input γ} {fault : Fault} {count : Nat}
    {bytes rest : List UInt8} {xs : List γ} (hrun : (times input count).run bytes = .ok (xs, rest))
    (hfail : input.run rest = .error fault) :
    (times input (count + 1)).run bytes = .error fault := by
  induction count generalizing bytes xs with
  | zero =>
      cases hrun
      rw [times, StateT.run_bind, hfail]
      rfl
  | succ count ih =>
      obtain ⟨x, middle, hfirst, hrun⟩ := bind_eq_ok hrun
      obtain ⟨others, _, hothers, hreturn⟩ := bind_eq_ok hrun
      cases hreturn
      rw [times, bind_run hfirst, StateT.run_bind, ih hothers]
      rfl

end Input

namespace ModelFile

open Network

section

variable {α β : Type} [Scalar α] [Precision α β] [Encoding α] [Encoding β] [Zero β]
  [FullEncoding α] [FullEncoding β]

theorem delimits_read : (read : Input (Network α β)).Delimits := by
  intro bytes net rest hrun
  obtain ⟨s, contents, hfits, hnames, rfl, hassemble⟩ := read_eq_ok_iff.mp hrun
  exact ⟨s.bytes, rfl, fun other =>
    read_eq_ok_iff.mpr ⟨s, contents, hfits, hnames, rfl, hassemble⟩⟩

/-- There is no network at the end of a stream. -/
theorem read_nil : ∃ fault, (read : Input (Network α β)).run [] = .error fault ∧
    fault.family = .malformedModel := by
  cases hread : (read : Input (Network α β)).run [] with
  | error fault => exact ⟨fault, rfl, read_refuses [] fault hread⟩
  | ok taken => cases hread

end

/-! ## What can be written -/

/-- A network whose cost, transformer and activations are listed under their names. -/
structure Listed {α β : Type} [Scalar α] (net : Network α β) : Prop where
  cost_listed : Cost.registry.Lists Cost.name net.cost
  transformer_listed : Transformer.registry.Lists Transformer.name net.transformer
  activations_listed : ∀ f ∈ net.activations, Activation.registry.Lists Activation.name f

section

variable {α β : Type} [Scalar α] [Precision α β] [Encoding α] [Encoding β]

/-- What is written whole has sizes that fit and a method that is supported. -/
theorem Listed.storable {net : Network α β} (hlisted : Listed net)
    (hwhole : (write net).cut = none) : Storable net where
  cost_listed := hlisted.cost_listed
  transformer_listed := hlisted.transformer_listed
  activations_listed := hlisted.activations_listed
  sizes_lt := by
    have hsizes := Output.join_cut_eq_none_iff.mp hwhole
      (.list (fun (size : Nat) => .int size) net.sizes) (by simp)
    have houts := Output.list_cut_eq_none_iff.mp hsizes
    have hfits : ∀ size ∈ net.sizes.length :: net.sizes, FitsInt size :=
      List.forall_mem_cons.mpr ⟨Output.fits_of_int_whole (houts _ List.mem_cons_self),
        fun size hmem => Output.fits_of_int_whole
          (houts (.int size) (List.mem_cons_of_mem _ (List.mem_map_of_mem hmem)))⟩
    intro size hmem
    obtain ⟨_, hfit⟩ := hfits size hmem
    omega
  method_ok := by
    have hmethod := Output.join_cut_eq_none_iff.mp hwhole (method net.method) (by simp)
    cases hname : TrainingMethod.ofName net.method with
    | ok name => exact ⟨name, rfl⟩
    | error fault =>
        rw [method, hname] at hmethod
        cases hmethod

/-- Networks written into one stream, one after the other. -/
def writeAll (nets : List (Network α β)) : Output := .join (nets.map write)

end

/-- A complete well-formed network whose names are listed. -/
structure Portable {α β : Type} [Scalar α] (net : Network α β) : Prop where
  wellFormed : net.WellFormed
  complete : net.outputLayer.isSome
  listed : Listed net

section

variable {net : Network Double Single} {nets : List (Network Double Single)}

theorem Portable.reads (hnet : Portable net) (hstorable : Storable net) :
    (write net).Reads read (reloaded net .gradientDescent) := by
  obtain ⟨last, houtput⟩ := Option.isSome_iff_exists.mp hnet.complete
  obtain ⟨⟨⟩, hmethod⟩ := hstorable.method_ok
  exact reads_reloaded hnet.wellFormed houtput hstorable hmethod

theorem Portable.restores (hnet : Portable net) (hstorable : Storable net) :
    Restores net (reloaded net .gradientDescent) := by
  obtain ⟨⟨⟩, hmethod⟩ := hstorable.method_ok
  exact restores_reloaded hnet.wellFormed hstorable hmethod

/-- A stream is written whole exactly where each of its networks can be stored. -/
theorem writeAll_whole_iff (hnets : ∀ net ∈ nets, Portable net) :
    (writeAll nets).cut = none ↔ ∀ net ∈ nets, Storable net := by
  rw [writeAll, Output.join_cut_eq_none_iff, List.forall_mem_map]
  exact forall₂_congr fun net hnet =>
    ⟨(hnets net hnet).listed.storable, fun hstorable => ((hnets net hnet).reads hstorable).whole⟩

/-- What is written into a stream is read back from its front, and what follows is left alone. -/
theorem reads_writeAll (hnets : ∀ net ∈ nets, Portable net)
    (hstorable : ∀ net ∈ nets, Storable net) :
    (writeAll nets).Reads (Input.times read nets.length)
      (nets.map fun net => reloaded net .gradientDescent) :=
  .times fun net hnet => (hnets net hnet).reads (hstorable net hnet)

/-- Networks that can be stored are encoded one by one as the parts of their stream. -/
theorem mapM_encode (hnets : ∀ net ∈ nets, Portable net) (hstorable : ∀ net ∈ nets, Storable net) :
    nets.mapM encode = .ok (nets.map fun net => (write net).bytes) := by
  rw [Check.mapM_eq_ok_iff, List.map_map]
  exact List.map_congr_left fun net hnet => Output.complete_eq_ok_iff.mpr
    ⟨((hnets net hnet).reads (hstorable net hnet)).whole, rfl⟩

/-- The bytes of a stream are those of its networks. -/
theorem bytes_writeAll (hnets : ∀ net ∈ nets, Portable net)
    (hstorable : ∀ net ∈ nets, Storable net) :
    (writeAll nets).bytes = (nets.map fun net => (write net).bytes).flatten := by
  rw [writeAll, Output.join_bytes (Output.join_cut_eq_none_iff.mp
    ((writeAll_whole_iff hnets).mpr hstorable)), List.flatMap_map, List.flatMap_def]

/-- Reading some networks of a stream stops in front of the file of the next one. -/
theorem run_times_read (hnets : ∀ net ∈ nets, Portable net) (hstorable : ∀ net ∈ nets, Storable net)
    {k : Nat} (hk : k ≤ nets.length) :
    (Input.times read k).run (writeAll nets).bytes =
      .ok ((nets.map fun net => reloaded net .gradientDescent).take k,
        ((nets.map fun net => (write net).bytes).drop k).flatten) := by
  have hportable : ∀ net ∈ nets.take k, Portable net :=
    fun net hnet => hnets net (List.mem_of_mem_take hnet)
  have hstored : ∀ net ∈ nets.take k, Storable net :=
    fun net hnet => hstorable net (List.mem_of_mem_take hnet)
  have hread := (reads_writeAll hportable hstored).run_eq
    ((nets.map fun net => (write net).bytes).drop k).flatten
  rwa [bytes_writeAll hportable hstored, List.map_take, ← List.flatten_append,
    List.take_append_drop, ← bytes_writeAll hnets hstorable, List.length_take_of_le hk,
    List.map_take] at hread

/-- Nothing that is cut off a model file or put behind one is decoded. Networks are written into one
stream exactly where each of them can be stored. The stream holds their files one after the other,
and reading takes one network after the other from it, each time up to the start of the next file;
at the end of the stream it is refused. -/
theorem stream_delimited :
    (∀ (bytes other : List UInt8) (net : Network Double Single), decode bytes = .ok net →
      other ≠ bytes → (other <+: bytes ∨ bytes <+: other) →
      ∃ fault, (decode other : Except Fault (Network Double Single)) = .error fault ∧
        fault.family = .malformedModel) ∧
    ∀ nets : List (Network Double Single), (∀ net ∈ nets, Portable net) →
      ((∃ bytes, (writeAll nets).complete = .ok bytes) ↔ ∀ net ∈ nets, Storable net) ∧
      ∀ bytes, (writeAll nets).complete = .ok bytes →
        ∃ files loaded, nets.mapM encode = .ok files ∧ bytes = files.flatten ∧
          List.Forall₂ Restores nets loaded ∧
          (∀ k, k ≤ nets.length →
            (Input.times read k).run bytes = .ok (loaded.take k, (files.drop k).flatten)) ∧
          ∃ fault, (Input.times read (nets.length + 1) : Input (List (Network Double Single))).run
            bytes = .error fault ∧ fault.family = .malformedModel := by
  refine ⟨fun bytes other net hbytes hne hcomparable => ?_, fun nets hnets => ⟨?_, ?_⟩⟩
  · cases hother : (decode other : Except Fault (Network Double Single)) with
    | error fault => exact ⟨fault, rfl, decode_finds other fault hother⟩
    | ok net' =>
        have hread := decode_eq_ok_iff.mp hbytes
        have hreadOther := decode_eq_ok_iff.mp hother
        rcases hcomparable with hstart | hstart
        · exact absurd (delimits_read.eq_of_isPrefix hreadOther hread hstart) hne
        · exact absurd (delimits_read.eq_of_isPrefix hread hreadOther hstart).symm hne
  · rw [← writeAll_whole_iff hnets]
    simp [Output.complete_eq_ok_iff]
  · intro bytes hbytes
    obtain ⟨hwhole, rfl⟩ := Output.complete_eq_ok_iff.mp hbytes
    have hstorable := (writeAll_whole_iff hnets).mp hwhole
    refine ⟨_, nets.map fun net => reloaded net .gradientDescent, mapM_encode hnets hstorable,
      bytes_writeAll hnets hstorable, ?restored, ?front, ?behind⟩
    case restored =>
      rw [List.forall₂_map_right_iff, List.forall₂_same]
      exact fun net hnet => (hnets net hnet).restores (hstorable net hnet)
    case front => exact fun k hk => run_times_read hnets hstorable hk
    case behind =>
      obtain ⟨fault, hfault, hfamily⟩ := read_nil (α := Double) (β := Single)
      have hall := run_times_read hnets hstorable (Nat.le_refl nets.length)
      rw [List.drop_eq_nil_of_le (by rw [List.length_map])] at hall
      exact ⟨fault, Input.times_succ_eq_error hall hfault, hfamily⟩

end

theorem portable_practice : Portable practice where
  wellFormed := practice_sound.wellFormed
  complete := rfl
  listed := {
    cost_listed := storable_practice.cost_listed
    transformer_listed := storable_practice.transformer_listed
    activations_listed := storable_practice.activations_listed }

theorem stream_delimited_practice :
    (∃ fault, (decode ((write practice).bytes ++ [0]) : Except Fault (Network Double Single)) =
      .error fault ∧ fault.family = .malformedModel) ∧
    ∃ bytes files loaded, (writeAll [practice, practice]).complete = .ok bytes ∧
      [practice, practice].mapM encode = .ok files ∧ bytes = files.flatten ∧
      List.Forall₂ Restores [practice, practice] loaded ∧
      (∀ k, k ≤ 2 →
        (Input.times read k).run bytes = .ok (loaded.take k, (files.drop k).flatten)) ∧
      ∃ fault, (Input.times read 3 : Input (List (Network Double Single))).run bytes =
        .error fault ∧ fault.family = .malformedModel := by
  have hportable : ∀ net ∈ [practice, practice], Portable net := by simp [portable_practice]
  have hstorable : ∀ net ∈ [practice, practice], Storable net := by simp [storable_practice]
  obtain ⟨_, hdecode⟩ := decode_reloaded practice_sound.wellFormed rfl storable_practice rfl
  obtain ⟨hwritten, hread⟩ := stream_delimited.2 [practice, practice] hportable
  obtain ⟨bytes, hbytes⟩ := hwritten.mpr hstorable
  obtain ⟨files, loaded, hloaded⟩ := hread bytes hbytes
  exact ⟨stream_delimited.1 _ _ _ hdecode (by simp) (.inr (List.prefix_append _ _)),
    bytes, files, loaded, hbytes, hloaded⟩

end ModelFile

end FeedForward
