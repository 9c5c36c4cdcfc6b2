import FeedForward.Proofs.ModelFile.Contents
import FeedForward.Proofs.Step
import FeedForward.Proofs.Text.Case

/-!
# Activations under their names

A registry of activations starts without entries and is then asked to register functions, to give
names to what is there and to look names up. As long as no name is given twice, whatever its case,
each name keeps for good the entry of one registration: the one in which the chain of its aliases
ends. The entry bears the name of that registration in lower case and is found under it, so that an
activation whose name is written is the one that is read back. An alias of a name that is not there
is refused and changes nothing. Names that are given again, which replaces what they stood for, are
left out.
-/

namespace FeedForward.Activation

open Text (lower)

variable {α : Type}

/-! ## Requests -/

/-- What a registry of activations may be asked for. -/
inductive Request (α : Type) where
  | register (name : String) (apply derivative : α → α)
  | addAlias (name target : String)
  | get (name : String)
  | resolve (ref : Ref (Activation α))
  | contains (name : String)
  | names

/-- What a registry says when it complies. -/
inductive Answer (α : Type) where
  | done
  | entry (f : Activation α)
  | verdict (present : Bool)
  | listing (names : List String)

/-- How a registry answers a request. -/
def answer : Request α → Step (Registry (Activation α)) (Answer α)
  | .register name apply derivative => do
    modify fun r => register r name apply derivative
    return .done
  | .addAlias name target => do
    set (← liftM ((← get).addAlias name target))
    return .done
  | .get name => return .entry (← liftM ((← get).get name))
  | .resolve ref => return .entry (← liftM ((← get).resolve ref))
  | .contains name => return .verdict ((← get).contains name)
  | .names => return .listing (← get).names

/-- The registry after a request, whether it complied or refused. -/
def Request.apply (request : Request α) : Registry (Activation α) → Registry (Activation α) :=
  Step.after (answer request)

/-- The registry after a history of requests. -/
def asked : List (Request α) → Registry (Activation α) → Registry (Activation α)
  | [], r => r
  | request :: rest, r => asked rest (request.apply r)

/-- A registry of activations without entries. -/
def noEntries : Registry (Activation α) where
  role := .activation
  fold := lower
  entries := []

theorem addAlias_run (name target : String) (r : Registry (Activation α)) :
    answer (.addAlias name target) r = match r.find? target with
      | some f => .ok .done (r.register name f)
      | none => .error .aliasTarget r := by
  rw [answer, Step.bind_run, Step.get_run]
  dsimp only
  rw [Step.bind_run, Step.lift_run, Registry.addAlias]
  cases r.find? target <;> rfl

theorem addAlias_apply (name target : String) (r : Registry (Activation α)) :
    (Request.addAlias name target).apply r = match r.find? target with
      | some f => r.register name f
      | none => r := by
  rw [Request.apply, Step.after, addAlias_run]
  cases r.find? target <;> rfl

/-- Requests that only ask. -/
def Request.LooksUp : Request α → Prop
  | register .. | addAlias .. => False
  | _ => True

theorem Request.LooksUp.apply_eq {request : Request α} (hlookUp : request.LooksUp)
    (r : Registry (Activation α)) : request.apply r = r := by
  have hkeeps : Step.Keeps id (answer request) := by
    cases request with
    | register name apply derivative => exact hlookUp.elim
    | addAlias name target => exact hlookUp.elim
    | get name => exact .bind .get fun _ => .bind (.lift _) fun _ => .pure _
    | resolve ref => exact .bind .get fun _ => .bind (.lift _) fun _ => .pure _
    | contains name => exact .bind .get fun _ => .pure _
    | names => exact .bind .get fun _ => .pure _
  exact hkeeps r

/-! ## What a key leads to -/

/-- Where a key leads after a history: the key of a registration to the entry that was registered,
and the key of an alias to where the key of its target led when the alias was given. -/
inductive LeadsTo : List (Request α) → String → Activation α → Prop
  | registered {requests before after : List (Request α)} {name : String}
      {apply derivative : α → α}
      (hsplit : requests = before ++ .register name apply derivative :: after) :
      LeadsTo requests (lower name) ⟨lower name, apply, derivative⟩
  | aliased {requests before after : List (Request α)} {name target : String} {f : Activation α}
      (hsplit : requests = before ++ .addAlias name target :: after)
      (htarget : LeadsTo before (lower target) f) : LeadsTo requests (lower name) f

/-- Whether a history introduced a key: by a registration or by an alias of a key that it had
introduced before. -/
def Introduced (requests : List (Request α)) (key : String) : Prop := ∃ f, LeadsTo requests key f

/-- Whether the next request introduces a key, and with which entry. -/
def Introduces (requests : List (Request α)) : Request α → String → Activation α → Prop
  | .register name apply derivative, key, f =>
    key = lower name ∧ f = ⟨lower name, apply, derivative⟩
  | .addAlias name target, key, f => key = lower name ∧ LeadsTo requests (lower target) f
  | _, _, _ => False

theorem Request.LooksUp.not_introduces {request : Request α} (hlookUp : request.LooksUp)
    {requests : List (Request α)} {key : String} {f : Activation α} :
    ¬ Introduces requests request key f := by
  cases request with
  | register name apply derivative => exact hlookUp.elim
  | addAlias name target => exact hlookUp.elim
  | _ => exact not_false

/-- Whether all keys that further requests introduce are new when they come. -/
def FreshAfter (before : List (Request α)) : List (Request α) → Prop
  | [] => True
  | request :: rest =>
    (∀ key f, Introduces before request key f → ¬ Introduced before key) ∧
      FreshAfter (before ++ [request]) rest

/-- Whether no key of a history is introduced twice. -/
def Fresh (requests : List (Request α)) : Prop := FreshAfter [] requests

theorem freshAfter_append {before requests later : List (Request α)} :
    FreshAfter before (requests ++ later) ↔
      FreshAfter before requests ∧ FreshAfter (before ++ requests) later := by
  induction requests generalizing before with
  | nil => simp [FreshAfter]
  | cons request rest ih => simp [FreshAfter, ih, and_assoc]

namespace LeadsTo

variable {requests : List (Request α)} {key : String} {f : Activation α}

/-- Further requests leave alone where a key leads. -/
theorem append (hleads : LeadsTo requests key f) (later : List (Request α)) :
    LeadsTo (requests ++ later) key f := by
  cases hleads with
  | registered hsplit => exact .registered (by rw [hsplit, List.append_assoc, List.cons_append])
  | aliased hsplit htarget =>
      exact .aliased (by rw [hsplit, List.append_assoc, List.cons_append]) htarget

/-- However many aliases there are in between, a key leads to a registration. -/
theorem exists_register (hleads : LeadsTo requests key f) :
    ∃ name apply derivative, Request.register name apply derivative ∈ requests ∧
      f = ⟨lower name, apply, derivative⟩ := by
  induction hleads with
  | registered hsplit =>
      exact ⟨_, _, _, hsplit ▸ List.mem_append_right _ List.mem_cons_self, rfl⟩
  | aliased hsplit _ ih =>
      obtain ⟨name, apply, derivative, hmem, hf⟩ := ih
      exact ⟨name, apply, derivative, hsplit ▸ List.mem_append_left _ hmem, hf⟩

/-- The name of the registration that a key leads to leads to it too. -/
theorem name (hleads : LeadsTo requests key f) : LeadsTo requests f.name f := by
  induction hleads with
  | registered hsplit => exact .registered hsplit
  | aliased hsplit _ ih => exact hsplit ▸ ih.append _

theorem lower_name (hleads : LeadsTo requests key f) : lower f.name = f.name := by
  obtain ⟨name, _, _, _, rfl⟩ := hleads.exists_register
  exact Text.lower_lower name

end LeadsTo

/-- An item of a list with one item added is this one or stands further in front. -/
theorem split_of_concat {γ : Type} {xs before after : List γ} {x y : γ}
    (hsplit : xs ++ [x] = before ++ y :: after) :
    (before = xs ∧ y = x) ∨ ∃ rest, xs = before ++ y :: rest := by
  obtain rfl | ⟨rest, z, rfl⟩ := List.eq_nil_or_concat after
  · obtain ⟨rfl, hlast⟩ := List.append_inj' hsplit rfl
    exact .inl ⟨rfl, (List.singleton_inj.mp hlast).symm⟩
  · rw [List.concat_eq_append, ← List.cons_append, ← List.append_assoc] at hsplit
    exact .inr ⟨rest, (List.append_inj' hsplit rfl).1⟩

/-- A key leads to what it led to before the last request, or to what this request introduced it
with. -/
theorem leadsTo_concat {requests : List (Request α)} {request : Request α} {key : String}
    {f : Activation α} : LeadsTo (requests ++ [request]) key f ↔
      LeadsTo requests key f ∨ Introduces requests request key f := by
  constructor
  · intro hleads
    cases hleads with
    | registered hsplit =>
        obtain ⟨-, rfl⟩ | ⟨rest, hrest⟩ := split_of_concat hsplit
        · exact .inr ⟨rfl, rfl⟩
        · exact .inl (.registered hrest)
    | aliased hsplit htarget =>
        obtain ⟨rfl, rfl⟩ | ⟨rest, hrest⟩ := split_of_concat hsplit
        · exact .inr ⟨rfl, htarget⟩
        · exact .inl (.aliased hrest htarget)
  · rintro (hleads | hintroduces)
    · exact hleads.append _
    · cases request with
      | register name apply derivative =>
          obtain ⟨rfl, rfl⟩ := hintroduces
          exact .registered rfl
      | addAlias name target =>
          obtain ⟨rfl, htarget⟩ := hintroduces
          exact .aliased rfl htarget
      | _ => exact hintroduces.elim

/-! ## The entries of a registry -/

/-- A registry of activations has the entries that the keys of a history lead to. -/
structure Reflects (r : Registry (Activation α)) (requests : List (Request α)) : Prop where
  role_eq : r.role = .activation
  fold_eq : r.fold = lower
  lookup_iff : ∀ key f, Registry.lookup r.entries key = some f ↔ LeadsTo requests key f

theorem reflects_noEntries : Reflects (noEntries : Registry (Activation α)) [] where
  role_eq := rfl
  fold_eq := rfl
  lookup_iff key f := by
    constructor
    · intro hlookup
      cases hlookup
    · intro hleads
      obtain ⟨_, _, _, hmem, _⟩ := hleads.exists_register
      cases hmem

namespace Reflects

variable {r : Registry (Activation α)} {requests : List (Request α)}

theorem find?_iff (hr : Reflects r requests) {name : String} {f : Activation α} :
    r.find? name = some f ↔ LeadsTo requests (lower name) f := by
  rw [Registry.find?, hr.fold_eq, hr.lookup_iff]

theorem contains_iff (hr : Reflects r requests) {name : String} :
    r.contains name = true ↔ Introduced requests (lower name) := by
  simp only [Registry.contains_iff, hr.find?_iff, Introduced]

theorem find?_eq_none_iff (hr : Reflects r requests) {name : String} :
    r.find? name = none ↔ ¬ Introduced requests (lower name) := by
  rw [Registry.find?_eq_none_iff, ← hr.contains_iff, Bool.not_eq_true]

theorem get_iff (hr : Reflects r requests) {name : String} {f : Activation α} :
    r.get name = .ok f ↔ LeadsTo requests (lower name) f := by
  rw [← hr.find?_iff, Registry.get]
  cases r.find? name <;> simp

theorem get_unknown (hr : Reflects r requests) {name : String}
    (hunknown : ¬ Introduced requests (lower name)) :
    r.get name = .error (.unknownName .activation name r.names) := by
  rw [Registry.get, hr.find?_eq_none_iff.mpr hunknown, hr.role_eq]

/-- An alias is refused for its target only. -/
theorem addAlias_refused_iff (hr : Reflects r requests) {name target : String} :
    answer (.addAlias name target) r = .error .aliasTarget r ↔
      ¬ Introduced requests (lower target) := by
  rw [addAlias_run, ← hr.find?_eq_none_iff]
  cases r.find? target <;> simp

/-- An entry is found under its own name. -/
theorem find?_name (hr : Reflects r requests) {name : String} {f : Activation α}
    (hfind : r.find? name = some f) : r.find? f.name = some f := by
  have hleads := hr.find?_iff.mp hfind
  rw [hr.find?_iff, hleads.lower_name]
  exact hleads.name

/-- The written name of an entry is read back as this entry. -/
theorem run_readNamed (hr : Reflects r requests) {name : String} {f : Activation α}
    {bytes : List UInt8} (hfind : r.find? name = some f)
    (hwritten : (Output.text f.name).complete = .ok bytes) (rest : List UInt8) :
    (ModelFile.readNamed r).run (bytes ++ rest) = .ok ((f.name, f), rest) := by
  have hreads := ModelFile.reads_named (hr.find?_name hfind) (Output.size_lt_of_complete hwritten)
  have hbytes : (Output.text f.name).bytes = bytes := by
    rw [Output.complete, hreads.whole] at hwritten
    exact Except.ok.inj hwritten
  rw [← hbytes]
  exact hreads.run_eq rest

/-- A request that introduces nothing and leaves the registry as it is. -/
theorem idle (hr : Reflects r requests) {request : Request α}
    (hidle : ∀ key f, ¬ Introduces requests request key f) :
    Reflects r (requests ++ [request]) where
  role_eq := hr.role_eq
  fold_eq := hr.fold_eq
  lookup_iff key f := by rw [leadsTo_concat, or_iff_left (hidle key f), hr.lookup_iff]

/-- A registered or added key has the new entry, and all other keys have what they had. -/
theorem register (hr : Reflects r requests) {request : Request α} {name : String}
    {f : Activation α}
    (hintroduces : ∀ key g, Introduces requests request key g ↔ key = lower name ∧ g = f)
    (hnew : ¬ Introduced requests (lower name)) :
    Reflects (r.register name f) (requests ++ [request]) where
  role_eq := hr.role_eq
  fold_eq := hr.fold_eq
  lookup_iff key g := by
    rw [Registry.register, Registry.lookup_put, hr.fold_eq, leadsTo_concat, hintroduces]
    by_cases hkey : lower name = key
    · subst hkey
      have hnone : ¬ LeadsTo requests (lower name) g := fun hleads => hnew ⟨g, hleads⟩
      simp [hnone, eq_comm]
    · simp [hkey, Ne.symm hkey, hr.lookup_iff]

theorem of_lookUp (hr : Reflects r requests) {request : Request α} (hlookUp : request.LooksUp) :
    Reflects (request.apply r) (requests ++ [request]) := by
  rw [hlookUp.apply_eq]
  exact hr.idle fun key f => hlookUp.not_introduces

/-- One request that introduces no key a second time. -/
theorem apply (hr : Reflects r requests) {request : Request α}
    (hnew : ∀ key f, Introduces requests request key f → ¬ Introduced requests key) :
    Reflects (request.apply r) (requests ++ [request]) := by
  cases request with
  | register name apply derivative =>
      have hregister : (Request.register name apply derivative).apply r =
          r.register name ⟨lower name, apply, derivative⟩ := by
        rw [← hr.fold_eq]
        rfl
      rw [hregister]
      exact hr.register (fun key g => Iff.rfl) (hnew _ _ ⟨rfl, rfl⟩)
  | addAlias name target =>
      rw [addAlias_apply]
      cases htarget : r.find? target with
      | none =>
          have hunknown := hr.find?_eq_none_iff.mp htarget
          exact hr.idle fun key f hintroduces => hunknown ⟨f, hintroduces.2⟩
      | some f =>
          have hleads := hr.find?_iff.mp htarget
          refine hr.register (fun key g => and_congr_right fun _ => ?_) (hnew _ _ ⟨rfl, hleads⟩)
          rw [← hr.find?_iff, htarget, Option.some.injEq, eq_comm]
  | get name => exact hr.of_lookUp trivial
  | resolve ref => exact hr.of_lookUp trivial
  | contains name => exact hr.of_lookUp trivial
  | names => exact hr.of_lookUp trivial

/-- A history of requests that introduces no key a second time. -/
theorem asked {before : List (Request α)} (hr : Reflects r before)
    (hfresh : FreshAfter before requests) :
    Reflects (asked requests r) (before ++ requests) := by
  induction requests generalizing r before with
  | nil => rwa [List.append_nil]
  | cons request rest ih =>
      have hrest := ih (hr.apply hfresh.1) hfresh.2
      rwa [List.append_assoc, List.singleton_append] at hrest

end Reflects

/-! ## Fresh histories can be told -/

/-- Whether a request introduces a key that the registry has. -/
def clashes (r : Registry (Activation α)) : Request α → Bool
  | .register name _ _ => r.contains name
  | .addAlias name target => r.contains target && r.contains name
  | _ => false

/-- Whether no request of a history introduces a key that the registry has by then. -/
def runsFresh (r : Registry (Activation α)) : List (Request α) → Bool
  | [] => true
  | request :: rest => !clashes r request && runsFresh (request.apply r) rest

theorem Reflects.clashes_eq_false_iff {r : Registry (Activation α)} {requests : List (Request α)}
    (hr : Reflects r requests) {request : Request α} : clashes r request = false ↔
      ∀ key f, Introduces requests request key f → ¬ Introduced requests key := by
  cases request with
  | register name apply derivative =>
      rw [clashes, Bool.eq_false_iff, Ne, hr.contains_iff]
      exact ⟨fun hnew key f hkey => hkey.1 ▸ hnew, fun hnew => hnew _ _ ⟨rfl, rfl⟩⟩
  | addAlias name target =>
      rw [clashes, Bool.eq_false_iff, Ne, Bool.and_eq_true, hr.contains_iff, hr.contains_iff]
      constructor
      · rintro hnew key f ⟨rfl, htarget⟩ hkey
        exact hnew ⟨⟨f, htarget⟩, hkey⟩
      · rintro hnew ⟨⟨f, htarget⟩, hkey⟩
        exact hnew _ f ⟨rfl, htarget⟩ hkey
  | _ => exact iff_of_true rfl fun _ _ hintroduces => hintroduces.elim

theorem Reflects.runsFresh_iff {r : Registry (Activation α)} {before requests : List (Request α)}
    (hr : Reflects r before) : runsFresh r requests = true ↔ FreshAfter before requests := by
  induction requests generalizing r before with
  | nil => exact iff_of_true rfl trivial
  | cons request rest ih =>
      rw [runsFresh, Bool.and_eq_true, Bool.not_eq_true', hr.clashes_eq_false_iff, FreshAfter]
      exact and_congr_right fun hnew => ih (hr.apply hnew)

instance : DecidablePred (Fresh (α := α)) := fun _ =>
  decidable_of_iff _ reflects_noEntries.runsFresh_iff

/-! ## The registry of the library -/

/-- The requests that the built-in activations come from. -/
def builtIns [Scalar α] : List (Request α) :=
  [.register "identity" identity.apply identity.derivative,
    .register "sigmoid" sigmoid.apply sigmoid.derivative,
    .register "tanh" hyperbolicTangent.apply hyperbolicTangent.derivative,
    .register "relu" relu.apply relu.derivative,
    .register "softmax" softmaxPart.apply softmaxPart.derivative,
    .addAlias "linear" "identity", .addAlias "logistic" "sigmoid"]

theorem asked_builtIns [Scalar α] : asked builtIns noEntries = registry (α := α) := rfl

theorem fresh_builtIns [Scalar α] : Fresh (builtIns (α := α)) :=
  reflects_noEntries.runsFresh_iff.mp rfl

theorem reflects_registry [Scalar α] : Reflects (registry (α := α)) builtIns := by
  rw [← asked_builtIns]
  exact reflects_noEntries.asked fresh_builtIns

/-! ## Names that last -/

/-- After every history of a new registry that introduces no key twice, a name has an entry if its
lower case was introduced, whatever its own case, and then it has the entry that this key leads to:
the one of a registration, under the name of this registration in lower case. The entry is found
under its own name too, and where this name is written it is read back as the entry. Further
requests leave all this as it is. An alias is refused if its target was not introduced, and changes
nothing then. -/
theorem asked_names_stable {requests : List (Request α)} (hfresh : Fresh requests) :
    let r := asked requests noEntries
    (∀ name target, answer (.addAlias name target) r = .error .aliasTarget r ↔
      ¬ Introduced requests (lower target)) ∧
    Fault.aliasTarget.family = .missingKey ∧
    (∀ name other, lower name = lower other → ∀ f, r.get name = .ok f ↔ r.get other = .ok f) ∧
    (∀ name, (∃ f, r.get name = .ok f) ↔ Introduced requests (lower name)) ∧
    (∀ name, ¬ Introduced requests (lower name) →
      r.get name = .error (.unknownName .activation name r.names)) ∧
    (∀ name, r.contains name = true ↔ Introduced requests (lower name)) ∧
    (∀ name f, r.get name = .ok f ↔ LeadsTo requests (lower name) f) ∧
    (∀ name f, r.get name = .ok f →
      (∃ own apply derivative, Request.register own apply derivative ∈ requests ∧
        f = ⟨lower own, apply, derivative⟩) ∧
      r.get f.name = .ok f ∧
      ∀ bytes, (Output.text f.name).complete = .ok bytes →
        ∀ rest, (ModelFile.readNamed r).run (bytes ++ rest) = .ok ((f.name, f), rest)) ∧
    ∀ later, Fresh (requests ++ later) →
      ∀ name f, r.get name = .ok f → (asked later r).get name = .ok f := by
  intro r
  have hr : Reflects r requests := reflects_noEntries.asked hfresh
  refine ⟨fun name target => hr.addAlias_refused_iff, rfl, fun name other hcase f => ?_,
    fun name => exists_congr fun f => hr.get_iff, fun name hunknown => hr.get_unknown hunknown,
    fun name => hr.contains_iff, fun name f => hr.get_iff, fun name f hget => ?_,
    fun later hlater name f hget => ?_⟩
  · rw [hr.get_iff, hr.get_iff, hcase]
  · have hfind : r.find? name = some f := hr.find?_iff.mpr (hr.get_iff.mp hget)
    have hown : r.get f.name = .ok f := hr.get_iff.mpr (hr.find?_iff.mp (hr.find?_name hfind))
    exact ⟨(hr.get_iff.mp hget).exists_register, hown,
      fun bytes hwritten => hr.run_readNamed hfind hwritten⟩
  · have hafter : Reflects (asked later r) (requests ++ later) :=
      hr.asked (freshAfter_append.mp hlater).2
    exact hafter.get_iff.mpr ((hr.get_iff.mp hget).append later)

/-- Aliases of aliases of a built-in activation, and a name that is first refused as an alias and
then registered. -/
def nicknames : List (Request Double) :=
  builtIns ++ [.addAlias "Ramp" "RELU", .addAlias "Hinge" "Swish", .get "ramp",
    .register "HINGE" relu.apply identity.derivative, .addAlias "Slope" "rAMP", .names]

/-- The last alias leads to the activation at the end of the chain, also after a name has come that
an alias asked for too early. -/
theorem asked_names_stable_nicknames :
    Fresh nicknames ∧
      let r := asked nicknames noEntries
      answer (.addAlias "Hinges" "Swish") r = .error .aliasTarget r ∧
      LeadsTo nicknames (lower "SLOPE") relu ∧ r.get "relu" = .ok relu ∧
      (asked [.register "Swish" relu.apply relu.derivative] r).get "SLOPE" = .ok relu := by
  have hfresh : Fresh nicknames := by decide
  have hlater : Fresh (nicknames ++ [.register "Swish" relu.apply relu.derivative]) := by decide
  obtain ⟨halias, -, -, -, -, hcontains, hleads, hentry, hlast⟩ := asked_names_stable hfresh
  have hget : (asked nicknames noEntries).get "SLOPE" = .ok relu := rfl
  have hunknown : (asked nicknames noEntries).contains "Swish" = false := rfl
  refine ⟨hfresh, (halias "Hinges" "Swish").mpr fun hintroduced => ?_, (hleads _ _).mp hget,
    (hentry _ _ hget).2.1, hlast _ hlater _ _ hget⟩
  rw [(hcontains "Swish").mpr hintroduced] at hunknown
  cases hunknown

end FeedForward.Activation
