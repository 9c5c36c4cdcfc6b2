import FeedForward.Proofs.Activation
import FeedForward.Proofs.ModelFile.Format

/-!
# Stored again

A network that was decoded is written as the sections that it came from. Three kinds of names may
have been spelled in another way: a style and a method are written in upper case, and an activation
under the name that it bears itself. Everything else comes back byte for byte, the drop rate too,
although a network holds it in twice as many bits. What is written in this way is decoded as the
same network again.
-/

namespace FeedForward

/-! ## Parts that are written whole -/

namespace Output

variable {κ : Type}

theorem join_ofBytes_cons (bytes : List UInt8) {outs : List Output} {rest : List UInt8}
    (hrest : join outs = ofBytes rest) : join (ofBytes bytes :: outs) = ofBytes (bytes ++ rest) := by
  rw [ofBytes, join, hrest]
  rfl

theorem int_eq {n : Int} (hn : FitsInt n) : int n = ofBytes (intBytes n) := if_pos hn

theorem count_eq {n : Nat} (hn : FitsCount n) : int n = ofBytes (intBytes n) := by
  rw [FitsCount] at hn
  exact int_eq ⟨by omega, by omega⟩

theorem text_eq {s : String} (hs : FitsCount s.toUTF8.size) : text s = ofBytes (textBytes s) := by
  rw [text, count_eq hs, join_ofBytes_cons _ (join_ofBytes_cons _ rfl), List.append_nil]
  rfl

theorem join_map_eq {item : κ → Output} {spelling : κ → List UInt8} {items : List κ}
    (hitems : ∀ k ∈ items, item k = ofBytes (spelling k)) :
    join (items.map item) = ofBytes (items.flatMap spelling) := by
  induction items with
  | nil => rfl
  | cons k items ih =>
      rw [List.map_cons, hitems k List.mem_cons_self, List.flatMap_cons]
      exact join_ofBytes_cons _ (ih fun other hother => hitems other (List.mem_cons_of_mem k hother))

/-- A list of things whose items are written as the spellings of something of theirs. -/
theorem list_eq {ι : Type} {item : κ → Output} {view : κ → ι} {spelling : ι → List UInt8}
    {items : List κ} (hcount : FitsCount items.length)
    (hitems : ∀ k ∈ items, item k = ofBytes (spelling (view k))) :
    list item items = ofBytes (listBytes spelling (items.map view)) := by
  rw [list, count_eq hcount, join_ofBytes_cons _ (join_map_eq hitems), listBytes, List.length_map,
    List.flatMap_map]

end Output

/-! ## Spellings in front of something -/

namespace Input.Accepts

variable {γ : Type} {input : Input γ} {valid : γ → Prop} {spelling : γ → List UInt8}
  (haccepts : input.Accepts valid spelling id)

include haccepts

/-- Bytes start with the spelling of one thing only. -/
theorem inj {x y : γ} {rest other : List UInt8} (hx : valid x) (hy : valid y)
    (hbytes : spelling x ++ rest = spelling y ++ other) : x = y ∧ rest = other := by
  have hrun := haccepts.run_eq hx rest
  rw [hbytes, haccepts.run_eq hy other] at hrun
  cases hrun
  exact ⟨rfl, rfl⟩

theorem list (what : String) : (Input.list what input).Accepts
    (fun xs => FitsCount xs.length ∧ ∀ x ∈ xs, valid x) (listBytes spelling) id := by
  refine .of_eq_ok_iff fun {xs bytes rest} => ?_
  rw [haccepts.list_eq_ok_iff]
  constructor
  · rintro ⟨items, hcount, hitems, rfl, rfl⟩
    rw [List.map_id]
    exact ⟨⟨hcount, hitems⟩, rfl⟩
  · rintro ⟨⟨hcount, hitems⟩, rfl⟩
    exact ⟨xs, hcount, hitems, List.map_id xs, rfl⟩

end Input.Accepts

namespace ModelFile

variable {α β : Type}

/-- Different sections are spelled differently. -/
theorem Sections.bytes_inj [Encoding α] [Encoding β] [FullEncoding α] [FullEncoding β]
    {s t : Sections α β} (hs : s.Fits) (ht : t.Fits) (hbytes : s.bytes = t.bytes) : s = t := by
  have hnumber : ∀ {γ : Type} [Encoding γ] [FullEncoding γ],
      (readNumber : Input γ).Accepts (fun _ => True) numberBytes id := by
    intro γ _ _
    exact .of_eq_ok_iff fun {x bytes rest} => by rw [readNumber_eq_ok_iff, true_and]
  have htext : Input.text.Accepts FitsText textBytes id := .of_eq_ok_iff Input.text_eq_ok_iff
  have htexts := htext.list "text"
  have hints := accepts_int.list "number"
  have hmatrices := (accepts_readMatrix (β := β)).list "matrix"
  have hsName := hs.names_fit
  have htName := ht.names_fit
  have hsCount := hs.counts_fit
  have htCount := ht.counts_fit
  obtain ⟨hsOutput, hsSizes⟩ := List.forall_mem_cons.mp hs.sizes_fit
  obtain ⟨htOutput, htSizes⟩ := List.forall_mem_cons.mp ht.sizes_fit
  simp only [Sections.bytes, List.append_assoc] at hbytes
  rw [← List.append_nil (listBytes matrixBytes s.matrices),
    ← List.append_nil (listBytes matrixBytes t.matrices)] at hbytes
  -- Section by section the spellings are taken from the front of both sides.
  have hmark : FitsText modelType := by rw [FitsText]; decide
  obtain ⟨_, hbytes⟩ := htext.inj hmark hmark hbytes
  obtain ⟨hlearning, hbytes⟩ := hnumber.inj trivial trivial hbytes
  obtain ⟨hmomentum, hbytes⟩ := hnumber.inj trivial trivial hbytes
  obtain ⟨hregularization, hbytes⟩ := hnumber.inj trivial trivial hbytes
  obtain ⟨hcost, hbytes⟩ := htext.inj (hsName _ (by simp)) (htName _ (by simp)) hbytes
  obtain ⟨hstyle, hbytes⟩ := htext.inj (hsName _ (by simp)) (htName _ (by simp)) hbytes
  obtain ⟨hmethod, hbytes⟩ := htext.inj (hsName _ (by simp)) (htName _ (by simp)) hbytes
  obtain ⟨htransformer, hbytes⟩ := htext.inj (hsName _ (by simp)) (htName _ (by simp)) hbytes
  obtain ⟨hsizes, hbytes⟩ := hints.inj ⟨hsCount _ (by simp), hsSizes⟩
    ⟨htCount _ (by simp), htSizes⟩ hbytes
  obtain ⟨houtput, hbytes⟩ := accepts_int.inj hsOutput htOutput hbytes
  obtain ⟨hdropRate, hbytes⟩ := hnumber.inj trivial trivial hbytes
  obtain ⟨hrules, hbytes⟩ := htexts.inj
    ⟨hsCount _ (by simp), fun name hmem => hsName name (by simp [hmem])⟩
    ⟨htCount _ (by simp), fun name hmem => htName name (by simp [hmem])⟩ hbytes
  obtain ⟨hactivations, hbytes⟩ := htexts.inj
    ⟨hsCount _ (by simp), fun name hmem => hsName name (by simp [hmem])⟩
    ⟨htCount _ (by simp), fun name hmem => htName name (by simp [hmem])⟩ hbytes
  obtain ⟨hweights, _⟩ := hmatrices.inj ⟨hsCount _ (by simp), hs.matrices_fit⟩
    ⟨htCount _ (by simp), ht.matrices_fit⟩ hbytes
  cases s
  cases t
  simp only [Sections.mk.injEq]
  exact ⟨hlearning, hmomentum, hregularization, hcost, hstyle, hmethod, htransformer, hsizes,
    houtput, hdropRate, hrules, hactivations, hweights⟩

/-! ## Written networks -/

section

variable [Encoding β]

theorem matrix_eq {t : Tensor β} (ht : FitsMatrix t) : matrix t = .ofBytes (matrixBytes t) := by
  obtain ⟨rows, columns, hshape, hrows, hcolumns⟩ := ht
  have hnumbers := Output.join_ofBytes_cons (intBytes columns) (join_number t.toList)
  rw [matrix, Tensor.matrixShape_eq_ok hshape]
  simp only
  rw [Output.count_eq hrows, Output.count_eq hcolumns, Output.join_ofBytes_cons _ hnumbers,
    matrixBytes, hshape, List.flatMap_cons, List.flatMap_cons, List.flatMap_nil, List.append_nil,
    List.append_assoc]

variable [Encoding α] [Precision α β]

/-- The sections that a network is written as. -/
def sections (net : Network α β) (method : TrainingMethod) : Sections α β where
  learningRate := net.learningRate
  momentumWeight := net.momentumWeight
  regularizationWeight := net.regularizationWeight
  cost := net.cost.name
  style := net.style.name
  method := method.name
  transformer := net.transformer.name
  sizes := net.sizes.map Int.ofNat
  outputLayer := (net.outputLayer.map Int.ofNat).getD (-1)
  dropRate := Precision.narrow net.dropRate
  rules := net.rules.map Rule.key
  activations := net.activations.map Activation.name
  matrices := net.weights

/-- A network is written as its sections where these fit. -/
theorem write_eq {net : Network α β} {method : TrainingMethod}
    (hmethod : TrainingMethod.ofName net.method = .ok method)
    (hfits : (sections net method).Fits) : write net = .ofBytes (sections net method).bytes := by
  have hname : ∀ name ∈ [net.cost.name, net.style.name, method.name, net.transformer.name] ++
      net.rules.map Rule.key ++ net.activations.map Activation.name,
      Output.text name = .ofBytes (textBytes name) := fun name hmem =>
    Output.text_eq (hfits.names_fit name hmem)
  have hcounts := hfits.counts_fit
  simp only [sections, List.length_map] at hcounts
  obtain ⟨houtput, hsizes⟩ := List.forall_mem_cons.mp hfits.sizes_fit
  have hmethodOutput : ModelFile.method net.method = .text method.name := by
    rw [ModelFile.method, hmethod]
  have houtputOutput : Output.int ((net.outputLayer.map Int.ofNat).getD (-1)) =
      .ofBytes (intBytes (sections net method).outputLayer) := Output.int_eq houtput
  have hsizesOutput : Output.list (fun (size : Nat) => .int size) net.sizes =
      .ofBytes (listBytes intBytes (net.sizes.map Int.ofNat)) :=
    Output.list_eq (hcounts _ (by simp)) fun size hmem =>
      Output.int_eq (hsizes _ (List.mem_map_of_mem hmem))
  have hrulesOutput : Output.list (fun rule => .text rule.key) net.rules =
      .ofBytes (listBytes textBytes (net.rules.map Rule.key)) :=
    Output.list_eq (hcounts _ (by simp)) fun rule hmem =>
      hname _ (by simp [List.mem_map_of_mem (f := Rule.key) hmem])
  have hactivationsOutput : Output.list (fun f => .text f.name) net.activations =
      .ofBytes (listBytes textBytes (net.activations.map Activation.name)) :=
    Output.list_eq (hcounts _ (by simp)) fun f hmem =>
      hname _ (by simp [List.mem_map_of_mem (f := Activation.name) hmem])
  have hweightsOutput : Output.list matrix net.weights =
      .ofBytes (listBytes matrixBytes (net.weights.map id)) :=
    Output.list_eq (hcounts _ (by simp)) fun t hmem => matrix_eq (hfits.matrices_fit t hmem)
  rw [List.map_id] at hweightsOutput
  rw [write, Output.text_eq (by decide), hname net.cost.name (by simp),
    hname net.style.name (by simp), hmethodOutput, hname method.name (by simp),
    hname net.transformer.name (by simp), hsizesOutput, houtputOutput, hrulesOutput,
    hactivationsOutput, hweightsOutput]
  simp only [Sections.bytes, List.append_assoc]
  iterate 13 refine Output.join_ofBytes_cons _ ?_
  exact (Output.join_ofBytes_cons _ rfl).trans (by rw [List.append_nil]; rfl)

end

/-! ## Canonical names -/

section

variable [Scalar α]

/-- The name that the entry under a name bears itself. -/
def registeredName (name : String) : String :=
  ((Activation.registry (α := α)).find? name).elim name Activation.name

/-- The sections with the style and the method in upper case, and with every activation under the
name that it bears itself. -/
def Sections.canonical (s : Sections α β) : Sections α β := { s with
  style := Text.upper s.style
  method := Text.upper s.method
  activations := s.activations.map (registeredName (α := α)) }

/-- An activation is found under the name that it bears. -/
theorem find?_name_activation {name : String} {f : Activation α}
    (hfind : Activation.registry.find? name = some f) :
    Activation.registry.find? f.name = some f :=
  Activation.reflects_registry.find?_name hfind

theorem name_of_find?_cost {name : String} {cost : Cost α}
    (hfind : Cost.registry.find? name = some cost) : cost.name = name := by
  have hmem := Registry.mem_of_find? hfind
  simp only [Cost.registry, List.mem_cons, Prod.mk.injEq, List.not_mem_nil, or_false, id] at hmem
  rcases hmem with ⟨rfl, rfl⟩ | ⟨rfl, rfl⟩ | ⟨rfl, rfl⟩ <;> rfl

theorem name_of_find?_transformer {name : String} {transformer : Transformer α}
    (hfind : Transformer.registry.find? name = some transformer) : transformer.name = name := by
  have hmem := Registry.mem_of_find? hfind
  simp only [Transformer.registry, List.mem_cons, Prod.mk.injEq, List.not_mem_nil, or_false, id]
    at hmem
  rcases hmem with ⟨rfl, rfl⟩ | ⟨rfl, rfl⟩ <;> rfl

/-- Names that are resolved one by one, and the names that are registered for them. -/
theorem map_registeredName {names : List String} {activations : List (Activation α)}
    (hfind : names.map Activation.registry.find? = activations.map some) :
    names.map (registeredName (α := α)) = activations.map Activation.name := by
  have hread : ∀ name, registeredName (α := α) name =
      ((Activation.registry (α := α)).find? name).elim name Activation.name := fun _ => rfl
  induction names generalizing activations with
  | nil => cases activations with
    | nil => rfl
    | cons => cases hfind
  | cons name names ih =>
      cases activations with
      | nil => cases hfind
      | cons f activations =>
          obtain ⟨hf, hrest⟩ := List.cons.inj hfind
          rw [List.map_cons, List.map_cons, ih hrest, hread, hf]
          rfl

/-- Sections are canonical already when no name in them is changed. -/
theorem canonical_eq_iff {s : Sections α β} {activations : List (Activation α)}
    (hfind : s.activations.map Activation.registry.find? = activations.map some) :
    s.canonical = s ↔ Text.upper s.style = s.style ∧ Text.upper s.method = s.method ∧
      ∀ name ∈ s.activations, ∃ f : Activation α,
        Activation.registry.find? name = some f ∧ f.name = name := by
  have hnames : s.activations.map (registeredName (α := α)) = s.activations ↔
      ∀ name ∈ s.activations, ∃ f : Activation α,
        Activation.registry.find? name = some f ∧ f.name = name := by
    constructor
    · intro hsame name hname
      obtain ⟨f, _, hf⟩ := List.mem_map.mp (hfind ▸ List.mem_map_of_mem hname)
      have hregistered :=
        List.map_inj_left.mp (hsame.trans (List.map_id s.activations).symm) name hname
      rw [registeredName, ← hf] at hregistered
      exact ⟨f, hf.symm, hregistered⟩
    · intro hregistered
      refine (List.map_congr_left fun name hname => ?_).trans (List.map_id s.activations)
      obtain ⟨f, hf, hsame⟩ := hregistered name hname
      rw [registeredName, hf]
      exact hsame
  rw [← hnames]
  obtain ⟨_, _, _, _, style, method, _, _, _, _, _, names, _⟩ := s
  simp only [Sections.canonical, Sections.mk.injEq, true_and, and_true]

end

/-! ## Decoded networks -/

section

variable [Scalar α] [Precision α β] [Zero β] {s : Sections α β} {contents : Contents α β}

/-- The network that some contents describe. -/
theorem assemble_eq_ok {activations : List (Activation α)} {net : Network α β}
    (hgiven : contents.topology.activations = activations.map .given)
    (hassemble : assemble contents = .ok net) : ∃ style method restored,
      LearningStyle.ofName contents.style = .ok style ∧
      TrainingMethod.ofName contents.method = .ok method ∧
      Network.Describes contents.topology restored ∧
      (Scalar.le (0 : α) (Precision.widen contents.dropRate) = true ∧
        Scalar.le (Precision.widen contents.dropRate) (1 : α) = true) ∧
      net = {
        learningRate := contents.learningRate
        momentumWeight := contents.momentumWeight
        regularizationWeight := contents.regularizationWeight
        cost := contents.cost
        style
        method := method.name
        transformer := contents.transformer
        dropRate := Precision.widen contents.dropRate
        training := false
        trainingError := 0
        sizes := restored.sizes
        weights := restored.matrices
        previous := restored.matrices.map fun matrix => .fill matrix.shape 0
        activations
        rules := restored.rules
        outputLayer := some restored.outputLayer
        source := ⟨0⟩
        arena := none } := by
  obtain ⟨style, method, bare, restored, hstyle, hmethod, hbare, hplan, rfl⟩ :=
    (assemble_eq_ok_iff hgiven).mp hassemble
  refine ⟨style, method, restored, hstyle, hmethod, hplan,
    (exists_create_iff contents style method).mp ⟨bare, hbare⟩, ?_⟩
  have hstyleName : LearningStyle.ofName style.name = .ok style := by cases style <;> rfl
  simp only [Network.create, settings, hstyleName, Check.bind_eq_ok_iff, Check.pure_eq_ok_iff]
    at hbare
  obtain ⟨_, hcost, _, hsame, _, htransformer, _, hrate, _, hsource, rfl⟩ := hbare
  obtain ⟨rfl, _⟩ := Network.checkDropRate_eq_ok_iff.mp hrate
  cases hcost
  cases hsame
  cases htransformer
  cases hsource
  rfl

/-- The sections of the network that some sections describe are these, with canonical names. -/
theorem sections_of_assemble (hnames : s.Names contents) {net : Network α β}
    (hassemble : assemble contents = .ok net)
    (hback : Precision.narrow (Precision.widen s.dropRate : α) = s.dropRate) :
    ∃ method, TrainingMethod.ofName net.method = .ok method ∧
      sections net method = s.canonical := by
  obtain ⟨activations, hfind, hgiven⟩ := hnames.activations_find
  obtain ⟨style, method, restored, hstyle, hmethod, hplan, _, rfl⟩ :=
    assemble_eq_ok hgiven hassemble
  have hweights : restored.matrices = s.matrices :=
    List.map_injective_iff.mpr (Option.some_injective _)
      (hplan.matrices_eq.symm.trans hnames.matrices_eq)
  have hupperStyle := LearningStyle.ofName_eq_ok_iff.mp hstyle
  have hupperMethod := TrainingMethod.ofName_eq_ok_iff.mp hmethod
  rw [hnames.style_eq] at hupperStyle
  rw [hnames.method_eq] at hupperMethod
  refine ⟨method, ofName_name method, ?_⟩
  rw [sections, Sections.canonical, Sections.mk.injEq]
  exact ⟨hnames.learningRate_eq, hnames.momentumWeight_eq, hnames.regularizationWeight_eq,
    name_of_find?_cost hnames.cost_find, hupperStyle.symm, hupperMethod.symm,
    name_of_find?_transformer hnames.transformer_find,
    hplan.sizes_eq.symm.trans hnames.sizes_eq, hplan.outputLayer_eq.symm.trans hnames.outputLayer_eq,
    by rw [hnames.dropRate_eq, hback], hplan.rules_eq.symm.trans hnames.rules_eq,
    (map_registeredName hfind).symm, hweights⟩

/-! ## Canonical sections -/

omit [Precision α β] [Zero β] in
theorem fits_canonical (hfits : s.Fits) (hnames : s.Names contents)
    (hstyle : ∃ style, LearningStyle.ofName contents.style = .ok style)
    (hmethod : ∃ method, TrainingMethod.ofName contents.method = .ok method) :
    s.canonical.Fits := by
  obtain ⟨activations, hfind, _⟩ := hnames.activations_find
  obtain ⟨style, hstyle⟩ := hstyle
  obtain ⟨method, hmethod⟩ := hmethod
  rw [hnames.style_eq, LearningStyle.ofName_eq_ok_iff] at hstyle
  rw [hnames.method_eq, TrainingMethod.ofName_eq_ok_iff] at hmethod
  have hregistered : ∀ f ∈ activations, FitsText f.name := by
    intro f hf
    obtain ⟨name, _, hname⟩ := List.mem_map.mp (hfind ▸ List.mem_map_of_mem (f := some) hf)
    exact size_activation ⟨f, find?_name_activation hname, rfl⟩
  constructor
  case names_fit =>
    intro name hmem
    simp only [Sections.canonical, map_registeredName hfind, List.cons_append, List.nil_append,
      List.mem_cons, List.mem_append, List.mem_map] at hmem
    rcases hmem with rfl | rfl | rfl | rfl | hrule | ⟨f, hf, rfl⟩
    · exact hfits.names_fit _ (by simp)
    · rw [hstyle, FitsText]
      cases style <;> decide
    · rw [hmethod, FitsText]
      cases method
      decide
    · exact hfits.names_fit _ (by simp)
    · exact hfits.names_fit _ (by simp [hrule])
    · exact hregistered f hf
  case counts_fit => simpa [Sections.canonical] using hfits.counts_fit
  case sizes_fit => exact hfits.sizes_fit
  case matrices_fit => exact hfits.matrices_fit

omit [Precision α β] [Zero β] in
/-- Canonical sections stand for the same things. -/
theorem names_canonical (hnames : s.Names contents) : s.canonical.Names { contents with
    style := Text.upper s.style
    method := Text.upper s.method } := by
  obtain ⟨activations, hfind, hgiven⟩ := hnames.activations_find
  have hagain : s.canonical.activations.map Activation.registry.find? = activations.map some := by
    rw [Sections.canonical, map_registeredName hfind, List.map_map]
    refine List.map_congr_left fun f hf => ?_
    obtain ⟨name, _, hname⟩ := List.mem_map.mp (hfind ▸ List.mem_map_of_mem (f := some) hf)
    exact find?_name_activation hname
  exact { hnames with
    style_eq := rfl
    method_eq := rfl
    activations_find := ⟨activations, hagain, hgiven⟩ }

/-- Canonical sections describe the same network. -/
theorem assemble_canonical (hnames : s.Names contents) {net : Network α β}
    (hassemble : assemble contents = .ok net) :
    assemble { contents with
      style := Text.upper s.style
      method := Text.upper s.method } = .ok net := by
  obtain ⟨activations, _, hgiven⟩ := hnames.activations_find
  obtain ⟨style, method, bare, restored, hstyle, hmethod, hbare, hplan, hnet⟩ :=
    (assemble_eq_ok_iff hgiven).mp hassemble
  rw [hnames.style_eq, LearningStyle.ofName_eq_ok_iff] at hstyle
  rw [hnames.method_eq, TrainingMethod.ofName_eq_ok_iff] at hmethod
  have hstyleAgain : LearningStyle.ofName (Text.upper s.style) = .ok style := by
    rw [hstyle]
    cases style <;> rfl
  have hmethodAgain : TrainingMethod.ofName (Text.upper s.method) = .ok method := by
    rw [hmethod]
    exact ofName_name method
  have hrenamed : ({ contents with
      style := Text.upper s.style
      method := Text.upper s.method } : Contents α β).topology.activations =
        activations.map .given := hgiven
  exact (assemble_eq_ok_iff hrenamed).mpr
    ⟨style, method, bare, restored, hstyleAgain, hmethodAgain, hbare, hplan, hnet⟩

end

/-- Sections that fit and agree with each other are decoded. -/
theorem exists_decode {s : Sections Double Single} (hfits : s.Fits) (hconsistent : s.Consistent) :
    ∃ net : Network Double Single, decode s.bytes = .ok net := by
  obtain ⟨contents, hnames⟩ := Sections.exists_names hconsistent.cost_registered
    hconsistent.transformer_registered hconsistent.rules_registered
    hconsistent.activations_registered
  obtain ⟨net, hassemble⟩ := (exists_assemble_iff hnames).mpr hconsistent
  exact ⟨net, decode_eq_ok_iff.mpr (read_eq_ok_iff.mpr
    ⟨s, contents, hfits, hnames, (List.append_nil _).symm, hassemble⟩)⟩

/-- What accepted bytes are stored as again: the same sections with canonical names. That changes
nothing exactly where the names were canonical already, and the bytes that are stored are decoded as
the same network. -/
theorem encode_decode {bytes : List UInt8} {net : Network Double Single}
    (hdecode : decode bytes = .ok net) :
    ∃ s : Sections Double Single, s.Fits ∧ s.Consistent ∧ bytes = s.bytes ∧
      encode net = .ok s.canonical.bytes ∧
      (s.canonical.bytes = bytes ↔ Text.upper s.style = s.style ∧ Text.upper s.method = s.method ∧
        ∀ name ∈ s.activations, ∃ f : Activation Double,
          Activation.registry.find? name = some f ∧ f.name = name) ∧
      decode s.canonical.bytes = .ok net := by
  obtain ⟨s, contents, hfits, hnames, hbytes, hassemble⟩ :=
    read_eq_ok_iff.mp (decode_eq_ok_iff.mp hdecode)
  rw [List.append_nil] at hbytes
  obtain ⟨activations, hfind, hgiven⟩ := hnames.activations_find
  have hconsistent := (exists_assemble_iff hnames).mp ⟨net, hassemble⟩
  obtain ⟨hstyle, hmethod, _⟩ := (Sections.consistent_iff hnames).mp hconsistent
  have hcanonical := fits_canonical hfits hnames hstyle hmethod
  obtain ⟨method, hofName, hsections⟩ := sections_of_assemble hnames hassemble
    (Single.ofDouble_toDouble hconsistent.dropRate_unit)
  refine ⟨s, hfits, hconsistent, hbytes, ?_, ?_, ?_⟩
  · rw [← hsections, encode, write_eq hofName (hsections ▸ hcanonical)]
    rfl
  · have hinj : s.canonical.bytes = bytes ↔ s.canonical = s := by
      rw [hbytes]
      exact ⟨Sections.bytes_inj hcanonical hfits, congrArg Sections.bytes⟩
    rw [hinj, canonical_eq_iff hfind]
  · exact decode_eq_ok_iff.mpr (read_eq_ok_iff.mpr ⟨s.canonical, _, hcanonical,
      names_canonical hnames, (List.append_nil _).symm, assemble_canonical hnames hassemble⟩)

/-- Sections with names in lower case and an activation under its second name. -/
def informal : Sections Double Single where
  learningRate := 0.1
  momentumWeight := 0
  regularizationWeight := 0
  cost := "squared_error"
  style := "supervised"
  method := "Gradient_Descent"
  transformer := "identity"
  sizes := [2, 1]
  outputLayer := 1
  dropRate := ⟨0x3e99999a⟩
  rules := ["standard"]
  activations := ["Linear"]
  matrices := [.fill [1, 2] 0]

theorem fits_informal : informal.Fits where
  names_fit := by
    have hshort : ∀ name ∈ ["squared_error", "supervised", "Gradient_Descent", "identity",
        "standard", "Linear"], name.toUTF8.size < 2147483648 := by decide
    exact hshort
  counts_fit := by decide
  sizes_fit := by decide
  matrices_fit := by
    intro t ht
    cases List.mem_singleton.mp ht
    exact ⟨1, 2, rfl, by decide, by decide⟩

theorem consistent_informal : informal.Consistent where
  cost_registered := rfl
  style_named := ⟨.supervised, rfl⟩
  method_named := ⟨.gradientDescent, rfl⟩
  transformer_registered := rfl
  two_layers := by decide
  size_least := by
    intro k size hk
    match k with
    | 0 => cases hk; decide
    | 1 => cases hk; decide
  outputLayer_eq := rfl
  dropRate_unit := Double.unit_iff.mpr (.inl (by decide))
  rules_length := rfl
  rules_registered := by
    intro name hname
    cases List.mem_singleton.mp hname
    rfl
  activations_length := rfl
  activations_registered := by
    intro name hname
    cases List.mem_singleton.mp hname
    rfl
  matrices_length := rfl
  matrices_shape := by
    intro k t hk
    match k with
    | 0 => cases hk; rfl

theorem encode_decode_informal : ∃ net : Network Double Single, decode informal.bytes = .ok net ∧
    ∃ s : Sections Double Single, s.Fits ∧ s.Consistent ∧ informal.bytes = s.bytes ∧
      encode net = .ok s.canonical.bytes ∧
      (s.canonical.bytes = informal.bytes ↔ Text.upper s.style = s.style ∧
        Text.upper s.method = s.method ∧ ∀ name ∈ s.activations, ∃ f : Activation Double,
          Activation.registry.find? name = some f ∧ f.name = name) ∧
      decode s.canonical.bytes = .ok net := by
  obtain ⟨net, hdecode⟩ := exists_decode fits_informal consistent_informal
  exact ⟨net, hdecode, encode_decode hdecode⟩

example : informal.canonical = { informal with
    style := "SUPERVISED"
    method := "GRADIENT_DESCENT"
    activations := ["identity"] } := rfl

end ModelFile

end FeedForward
