import FeedForward.Proofs.Bytes.Accepted
import FeedForward.Proofs.ModelFile.Contents

/-!
# What the front of a model file has to spell

Reading a model file succeeds exactly on bytes that start with its sections, each spelled in full
and in order, where the registries have an entry for every name but those of the style and the
method. Whatever else is wrong with the bytes, reading says that they are no model file. Whether the
sections agree with each other does not matter here.
-/

namespace FeedForward.ModelFile

/-- Every word stands for a number of its own. -/
class FullEncoding (γ : Type) [Encoding γ] : Prop extends LawfulEncoding γ where
  word_ofWord : ∀ {n : Nat}, n < 256 ^ Encoding.width γ → Encoding.word (Encoding.ofWord n : γ) = n

instance : FullEncoding Double where
  word_ofWord hn := UInt64.toNat_ofNat_of_lt hn

instance : FullEncoding Single where
  word_ofWord hn := UInt32.toNat_ofNat_of_lt hn

section

variable {γ : Type} [Encoding γ]

/-- The bytes of a number. -/
def numberBytes (x : γ) : List UInt8 := Word.bytes (Encoding.width γ) (Encoding.word x)

/-- The bytes of a matrix: its extents, and then its numbers row by row. -/
def matrixBytes (t : Tensor γ) : List UInt8 :=
  t.shape.flatMap (fun (extent : Nat) => intBytes extent) ++ words t.toList

/-- Whether a matrix has two extents that four bytes can hold. -/
def FitsMatrix (t : Tensor γ) : Prop :=
  ∃ rows columns, t.shape = [rows, columns] ∧ FitsCount rows ∧ FitsCount columns

variable [FullEncoding γ]

open Input

theorem readNumber_eq_ok_iff {x : γ} {bytes rest : List UInt8} :
    readNumber.run bytes = .ok (x, rest) ↔ bytes = numberBytes x ++ rest := by
  constructor
  · intro hrun
    obtain ⟨n, _, hword, hreturn⟩ := bind_eq_ok hrun
    cases hreturn
    obtain ⟨hn, rfl⟩ := word_eq_ok_iff.mp hword
    rw [numberBytes, FullEncoding.word_ofWord hn]
  · rintro rfl
    rw [readNumber, numberBytes,
      bind_run (word_eq_ok_iff.mpr ⟨LawfulEncoding.word_lt x, rfl⟩), LawfulEncoding.ofWord_word]
    rfl

/-- Any bytes are those of the numbers that they stand for, if they are enough and no more. -/
theorem words_numbers {n : Nat} {bytes : List UInt8}
    (hlength : bytes.length = n * Encoding.width γ) : words (numbers n bytes : List γ) = bytes := by
  induction n generalizing bytes with
  | zero =>
      rw [Nat.zero_mul] at hlength
      rw [List.length_eq_zero_iff.mp hlength]
      rfl
  | succ n ih =>
      have htake : (bytes.take (Encoding.width γ)).length = Encoding.width γ := by
        rw [List.length_take, hlength, Nat.succ_mul]
        omega
      have hdrop : (bytes.drop (Encoding.width γ)).length = n * Encoding.width γ := by
        rw [List.length_drop, hlength, Nat.succ_mul]
        omega
      have hvalue := Word.value_lt (bytes.take (Encoding.width γ))
      have hbytes := Word.bytes_value (bytes.take (Encoding.width γ))
      rw [htake] at hvalue hbytes
      rw [numbers, words, List.flatMap_cons, ← words, ih hdrop, FullEncoding.word_ofWord hvalue,
        hbytes, List.take_append_drop]

theorem readMatrix_eq_ok_iff {t : Tensor γ} {bytes rest : List UInt8} :
    readMatrix.run bytes = .ok (t, rest) ↔ FitsMatrix t ∧ bytes = matrixBytes t ++ rest := by
  constructor
  · intro hrun
    obtain ⟨rows, _, hrows, hrun₁⟩ := bind_eq_ok hrun
    obtain ⟨columns, _, hcolumns, hrun₂⟩ := bind_eq_ok hrun₁
    obtain ⟨payload, _, hpayload, hreturn⟩ := bind_eq_ok hrun₂
    cases hreturn
    obtain ⟨hrowsFit, rfl⟩ := count_eq_ok_iff.mp hrows
    obtain ⟨hcolumnsFit, rfl⟩ := count_eq_ok_iff.mp hcolumns
    obtain ⟨hlength, rfl⟩ := exactly_eq_ok_iff.mp hpayload
    refine ⟨⟨rows, columns, rfl, hrowsFit, hcolumnsFit⟩, ?_⟩
    have hwords : words (numbers (rows * columns) payload : List γ) = payload :=
      words_numbers hlength
    simp only [matrixBytes, Tensor.toList, List.flatMap_cons, List.flatMap_nil, List.append_nil,
      List.append_assoc, hwords]
  · rintro ⟨⟨rows, columns, hshape, hrows, hcolumns⟩, rfl⟩
    have hlength : t.toList.length = rows * columns := by
      rw [Tensor.length_toList, hshape, places, places, places, Nat.mul_one]
    have hnumbers : numbers (rows * columns) (words t.toList) = t.toList := by
      rw [← hlength, numbers_words]
    have hpayload : (words t.toList).length = rows * columns * Encoding.width γ := by
      rw [length_words, hlength]
    rw [matrixBytes, hshape, List.flatMap_cons, List.flatMap_cons, List.flatMap_nil,
      List.append_nil, List.append_assoc, List.append_assoc, readMatrix,
      bind_run (count_eq_ok_iff.mpr ⟨hrows, rfl⟩), bind_run (count_eq_ok_iff.mpr ⟨hcolumns, rfl⟩),
      bind_run (exactly_eq_ok_iff.mpr ⟨hpayload, rfl⟩)]
    have htensor : (⟨[rows, columns], (numbers (rows * columns) (words t.toList)).toArray,
        by simp [places]⟩ : Tensor γ) = t :=
      Tensor.eq_of_toList hshape.symm hnumbers
    rw [htensor]
    rfl

end

/-! ## Names -/

/-- Whether four bytes can hold the number of bytes of a text. -/
def FitsText (s : String) : Prop := FitsCount s.toUTF8.size

theorem readNamed_eq_ok_iff {γ : Type} {registry : Registry γ} {entry : String × γ}
    {bytes rest : List UInt8} :
    (readNamed registry).run bytes = .ok (entry, rest) ↔
      (FitsText entry.1 ∧ registry.find? entry.1 = some entry.2) ∧
        bytes = textBytes entry.1 ++ rest := by
  constructor
  · intro hrun
    obtain ⟨name, _, htext, hfound⟩ := Input.bind_eq_ok hrun
    obtain ⟨hsize, rfl⟩ := Input.text_eq_ok_iff.mp htext
    split at hfound
    next value hfind => cases hfound; exact ⟨⟨hsize, hfind⟩, rfl⟩
    next => cases hfound
  · rintro ⟨⟨hsize, hfind⟩, rfl⟩
    rw [readNamed, Input.bind_run (Input.text_eq_ok_iff.mpr ⟨hsize, rfl⟩), hfind]
    rfl

theorem run_named {γ : Type} {registry : Registry γ} {name : String} {value : γ}
    (hname : FitsText name) (hfind : registry.find? name = some value) (rest : List UInt8) :
    (readNamed registry).run (textBytes name ++ rest) = .ok ((name, value), rest) :=
  readNamed_eq_ok_iff.mpr ⟨⟨hname, hfind⟩, rfl⟩

/-- A list of names that each have an entry, and these entries. -/
theorem listNamed_eq_ok_iff {γ : Type} {registry : Registry γ} {what : String}
    {entries : List (String × γ)} {bytes rest : List UInt8} :
    (Input.list what (readNamed registry)).run bytes = .ok (entries, rest) ↔
      FitsCount entries.length ∧ (∀ name ∈ entries.map Prod.fst, FitsText name) ∧
        (entries.map Prod.fst).map registry.find? = (entries.map Prod.snd).map some ∧
        bytes = listBytes textBytes (entries.map Prod.fst) ++ rest := by
  have haccepts : (readNamed registry).Accepts
      (fun entry => FitsText entry.1 ∧ registry.find? entry.1 = some entry.2)
      (fun entry => textBytes entry.1) id := .of_eq_ok_iff readNamed_eq_ok_iff
  have hspelling : ∀ entries : List (String × γ),
      listBytes (fun entry => textBytes entry.1) entries =
        listBytes textBytes (entries.map Prod.fst) := fun entries => by
    rw [listBytes, listBytes, List.length_map, List.flatMap_map]
  have hfound : ∀ entries : List (String × γ),
      (entries.map Prod.fst).map registry.find? = (entries.map Prod.snd).map some ↔
        ∀ entry ∈ entries, registry.find? entry.1 = some entry.2 := fun entries => by
    rw [List.map_map, List.map_map]
    exact List.map_inj_left
  rw [haccepts.list_eq_ok_iff]
  constructor
  · rintro ⟨items, hlength, hitems, rfl, rfl⟩
    rw [List.map_id]
    refine ⟨hlength, ?_, (hfound items).mpr fun entry hentry => (hitems entry hentry).2,
      by rw [hspelling]⟩
    rw [List.forall_mem_map]
    exact fun entry hentry => (hitems entry hentry).1
  · rintro ⟨hlength, hnames, hentries, rfl⟩
    rw [List.forall_mem_map] at hnames
    exact ⟨entries, hlength, fun entry hentry =>
      ⟨hnames entry hentry, (hfound entries).mp hentries entry hentry⟩, List.map_id entries,
      by rw [hspelling]⟩

/-- Names that all have an entry are read as these entries. -/
theorem run_listNamed {γ : Type} {registry : Registry γ} {names : List String} {values : List γ}
    (what : String) (hcount : FitsCount names.length) (hnames : ∀ name ∈ names, FitsText name)
    (hfind : names.map registry.find? = values.map some) :
    ∃ entries : List (String × γ), entries.map Prod.fst = names ∧ entries.map Prod.snd = values ∧
      ∀ rest, (Input.list what (readNamed registry)).run (listBytes textBytes names ++ rest) =
        .ok (entries, rest) := by
  have hlength : names.length = values.length := by
    have h := congrArg List.length hfind
    rwa [List.length_map, List.length_map] at h
  have hfst : (names.zip values).map Prod.fst = names := List.map_fst_zip (by omega)
  have hsnd : (names.zip values).map Prod.snd = values := List.map_snd_zip (by omega)
  refine ⟨names.zip values, hfst, hsnd, fun rest => listNamed_eq_ok_iff.mpr ?_⟩
  rw [hfst, hsnd, List.length_zip, ← hlength, Nat.min_self]
  exact ⟨hcount, hnames, hfind, rfl⟩

/-! ## All sections -/

/-- What a model file spells behind its type, section by section. Names are as they are spelled. -/
structure Sections (α β : Type) where
  learningRate : α
  momentumWeight : α
  regularizationWeight : α
  cost : String
  style : String
  method : String
  transformer : String
  sizes : List Int
  outputLayer : Int
  dropRate : β
  rules : List String
  activations : List String
  matrices : List (Tensor β)

namespace Sections

variable {α β : Type} [Encoding α] [Encoding β]

/-- The type, and then the sections in order. -/
def bytes (s : Sections α β) : List UInt8 :=
  textBytes modelType ++ numberBytes s.learningRate ++ numberBytes s.momentumWeight ++
    numberBytes s.regularizationWeight ++ textBytes s.cost ++ textBytes s.style ++
    textBytes s.method ++ textBytes s.transformer ++ listBytes intBytes s.sizes ++
    intBytes s.outputLayer ++ numberBytes s.dropRate ++ listBytes textBytes s.rules ++
    listBytes textBytes s.activations ++ listBytes matrixBytes s.matrices

/-- Whether the lengths of all texts and lists, and all whole numbers, fit into four bytes. -/
structure Fits (s : Sections α β) : Prop where
  names_fit : ∀ name ∈ [s.cost, s.style, s.method, s.transformer] ++ s.rules ++ s.activations,
    FitsText name
  counts_fit : ∀ count ∈ [s.sizes.length, s.rules.length, s.activations.length, s.matrices.length],
    FitsCount count
  sizes_fit : ∀ size ∈ s.outputLayer :: s.sizes, FitsInt size
  matrices_fit : ∀ t ∈ s.matrices, FitsMatrix t

/-- What the sections say, once the registries have been asked for all names that they hold. -/
structure Names [Scalar α] (s : Sections α β) (contents : Contents α β) : Prop where
  learningRate_eq : contents.learningRate = s.learningRate
  momentumWeight_eq : contents.momentumWeight = s.momentumWeight
  regularizationWeight_eq : contents.regularizationWeight = s.regularizationWeight
  cost_find : Cost.registry.find? s.cost = some contents.cost
  style_eq : contents.style = s.style
  method_eq : contents.method = s.method
  transformer_find : Transformer.registry.find? s.transformer = some contents.transformer
  dropRate_eq : contents.dropRate = s.dropRate
  sizes_eq : contents.topology.sizes = s.sizes
  outputLayer_eq : contents.topology.outputLayer = s.outputLayer
  rules_eq : contents.topology.rules = s.rules
  rules_find : ∃ rules : List Rule, s.rules.map Rule.registry.find? = rules.map some
  activations_find : ∃ activations : List (Activation α),
    s.activations.map Activation.registry.find? = activations.map some ∧
      contents.topology.activations = activations.map .given
  matrices_eq : contents.topology.matrices = s.matrices.map some

end Sections

section

variable {α β : Type} [Scalar α] [Encoding α] [Encoding β] [FullEncoding α] [FullEncoding β]

open Input

theorem accepts_int : int.Accepts FitsInt intBytes id := .of_eq_ok_iff int_eq_ok_iff

theorem accepts_readMatrix : (readMatrix : Input (Tensor β)).Accepts FitsMatrix matrixBytes id :=
  .of_eq_ok_iff readMatrix_eq_ok_iff

/-- Bytes whose contents can be read start with sections. -/
theorem exists_sections {bytes rest : List UInt8} {contents : Contents α β}
    (hrun : readContents.run bytes = .ok (contents, rest)) :
    ∃ s : Sections α β, s.Fits ∧ s.Names contents ∧ bytes = s.bytes ++ rest := by
  obtain ⟨type, _, htype, hrun₁⟩ := bind_eq_ok hrun
  split at hrun₁
  next => cases hrun₁
  next hmodel =>
    obtain rfl := Decidable.not_not.mp hmodel
    obtain ⟨learningRate, _, hlearning, hrun₂⟩ := bind_eq_ok hrun₁
    obtain ⟨momentumWeight, _, hmomentum, hrun₃⟩ := bind_eq_ok hrun₂
    obtain ⟨regularizationWeight, _, hregularization, hrun₄⟩ := bind_eq_ok hrun₃
    obtain ⟨⟨cost, costEntry⟩, _, hcost, hrun₅⟩ := bind_eq_ok hrun₄
    obtain ⟨style, _, hstyle, hrun₆⟩ := bind_eq_ok hrun₅
    obtain ⟨method, _, hmethod, hrun₇⟩ := bind_eq_ok hrun₆
    obtain ⟨⟨transformer, transformerEntry⟩, _, htransformer, hrun₈⟩ := bind_eq_ok hrun₇
    obtain ⟨sizes, _, hsizes, hrun₉⟩ := bind_eq_ok hrun₈
    obtain ⟨outputLayer, _, houtput, hrun₁₀⟩ := bind_eq_ok hrun₉
    obtain ⟨dropRate, _, hdropRate, hrun₁₁⟩ := bind_eq_ok hrun₁₀
    obtain ⟨rules, _, hrules, hrun₁₂⟩ := bind_eq_ok hrun₁₁
    obtain ⟨activations, _, hactivations, hrun₁₃⟩ := bind_eq_ok hrun₁₂
    obtain ⟨matrices, _, hweights, hreturn⟩ := bind_eq_ok hrun₁₃
    cases hreturn
    -- In the order of the file each section says which bytes it has taken.
    obtain ⟨_, rfl⟩ := text_eq_ok_iff.mp htype
    obtain rfl := readNumber_eq_ok_iff.mp hlearning
    obtain rfl := readNumber_eq_ok_iff.mp hmomentum
    obtain rfl := readNumber_eq_ok_iff.mp hregularization
    obtain ⟨⟨hcostFits, hcostFind⟩, rfl⟩ := readNamed_eq_ok_iff.mp hcost
    obtain ⟨hstyleFits, rfl⟩ := text_eq_ok_iff.mp hstyle
    obtain ⟨hmethodFits, rfl⟩ := text_eq_ok_iff.mp hmethod
    obtain ⟨⟨htransformerFits, htransformerFind⟩, rfl⟩ := readNamed_eq_ok_iff.mp htransformer
    obtain ⟨sizes, hsizesFit, hsizeFits, rfl, rfl⟩ := accepts_int.list_eq_ok_iff.mp hsizes
    obtain ⟨houtputFits, rfl⟩ := int_eq_ok_iff.mp houtput
    obtain rfl := readNumber_eq_ok_iff.mp hdropRate
    obtain ⟨hrulesFit, hruleFits, hrulesFind, rfl⟩ := listNamed_eq_ok_iff.mp hrules
    obtain ⟨hactivationsFit, hactivationFits, hactivationsFind, rfl⟩ :=
      listNamed_eq_ok_iff.mp hactivations
    obtain ⟨matrices, hmatricesFit, hmatrixFits, rfl, rfl⟩ :=
      accepts_readMatrix.list_eq_ok_iff.mp hweights
    refine ⟨⟨learningRate, momentumWeight, regularizationWeight, cost, style, method, transformer,
      sizes, outputLayer, dropRate, rules.map Prod.fst, activations.map Prod.fst, matrices⟩,
      ?fits, ?names, ?spelled⟩
    case fits =>
      constructor
      case names_fit =>
        intro name hname
        simp only [List.cons_append, List.nil_append, List.mem_cons, List.mem_append] at hname
        rcases hname with rfl | rfl | rfl | rfl | hrule | hactivation
        exacts [hcostFits, hstyleFits, hmethodFits, htransformerFits, hruleFits name hrule,
          hactivationFits name hactivation]
      case counts_fit => simp [hsizesFit, hrulesFit, hactivationsFit, hmatricesFit]
      case sizes_fit => exact List.forall_mem_cons.mpr ⟨houtputFits, hsizeFits⟩
      case matrices_fit => exact hmatrixFits
    case names =>
      constructor
      case cost_find => exact hcostFind
      case transformer_find => exact htransformerFind
      case sizes_eq => exact List.map_id sizes
      case rules_find => exact ⟨_, hrulesFind⟩
      case activations_find => exact ⟨_, hactivationsFind, List.map_map.symm⟩
      case matrices_eq => exact congrArg (List.map some) (List.map_id matrices)
      all_goals rfl
    case spelled => simp only [Sections.bytes, List.append_assoc]

/-- Sections are read as what they say. -/
theorem run_sections {s : Sections α β} {contents : Contents α β} (hfits : s.Fits)
    (hnames : s.Names contents) (rest : List UInt8) :
    readContents.run (s.bytes ++ rest) = .ok (contents, rest) := by
  have hname := hfits.names_fit
  have hcount := hfits.counts_fit
  obtain ⟨houtput, hsizes⟩ := List.forall_mem_cons.mp hfits.sizes_fit
  obtain ⟨_, hrulesFind⟩ := hnames.rules_find
  obtain ⟨_, hactivationsFind, hactivations⟩ := hnames.activations_find
  obtain ⟨rules, hrules, rfl, hrulesRun⟩ := run_listNamed "neuron class"
    (hcount _ (by simp)) (fun name hmem => hname name (by simp [hmem])) hrulesFind
  obtain ⟨activations, _, rfl, hactivationsRun⟩ := run_listNamed "activation function"
    (hcount _ (by simp)) (fun name hmem => hname name (by simp [hmem])) hactivationsFind
  have hgiven : activations.map (fun entry => Ref.given entry.2) =
      contents.topology.activations := by
    rw [hactivations, List.map_map]
    rfl
  simp only [Sections.bytes, List.append_assoc]
  rw [readContents, bind_run (text_eq_ok_iff.mpr ⟨by decide, rfl⟩),
    if_neg (Decidable.not_not.mpr rfl), bind_run (readNumber_eq_ok_iff.mpr rfl),
    bind_run (readNumber_eq_ok_iff.mpr rfl), bind_run (readNumber_eq_ok_iff.mpr rfl),
    bind_run (run_named (hname s.cost (by simp)) hnames.cost_find _),
    bind_run (text_eq_ok_iff.mpr ⟨hname s.style (by simp), rfl⟩),
    bind_run (text_eq_ok_iff.mpr ⟨hname s.method (by simp), rfl⟩),
    bind_run (run_named (hname s.transformer (by simp)) hnames.transformer_find _),
    bind_run (accepts_int.list_eq_ok_iff.mpr ⟨s.sizes, hcount _ (by simp), hsizes, rfl, rfl⟩),
    bind_run (int_eq_ok_iff.mpr ⟨houtput, rfl⟩), bind_run (readNumber_eq_ok_iff.mpr rfl),
    bind_run (hrulesRun _), bind_run (hactivationsRun _),
    bind_run (accepts_readMatrix.list_eq_ok_iff.mpr
      ⟨s.matrices, hcount _ (by simp), hfits.matrices_fit, rfl, rfl⟩), List.map_id, List.map_id,
    hrules, ← hnames.learningRate_eq, ← hnames.momentumWeight_eq,
    ← hnames.regularizationWeight_eq, ← hnames.style_eq, ← hnames.method_eq,
    ← hnames.dropRate_eq, ← hnames.sizes_eq, ← hnames.outputLayer_eq, ← hnames.rules_eq,
    ← hnames.matrices_eq, hgiven]
  rfl

/-- Reading succeeds on sections that are spelled in full, and on nothing else. -/
theorem readContents_eq_ok_iff {bytes rest : List UInt8} {contents : Contents α β} :
    readContents.run bytes = .ok (contents, rest) ↔
      ∃ s : Sections α β, s.Fits ∧ s.Names contents ∧ bytes = s.bytes ++ rest := by
  refine ⟨exists_sections, ?_⟩
  rintro ⟨s, hfits, hnames, rfl⟩
  exact run_sections hfits hnames rest

omit [FullEncoding α] [FullEncoding β] in
/-- Whatever the bytes are, reading that fails says that they are no model file. -/
theorem readContents_refuses : (readContents : Input (Contents α β)).Refuses := by
  have hnumber : ∀ {γ : Type} [Encoding γ], (readNumber : Input γ).Refuses :=
    (Refuses.word _).bind fun _ => .pure _
  have hnamed : ∀ {γ : Type} (registry : Registry γ), (readNamed registry).Refuses := by
    intro γ registry
    refine Refuses.text.bind fun name => ?_
    split
    · exact .pure _
    · exact .throw rfl
  have hmatrix : (readMatrix : Input (Tensor β)).Refuses :=
    (Refuses.count _).bind fun _ => (Refuses.count _).bind fun _ =>
      (Refuses.exactly _).bind fun _ => .pure _
  refine Refuses.text.bind fun type => ?_
  split
  · exact .throw_bind rfl _
  exact hnumber.bind fun _ => hnumber.bind fun _ => hnumber.bind fun _ =>
    (hnamed _).bind fun _ => Refuses.text.bind fun _ => Refuses.text.bind fun _ =>
    (hnamed _).bind fun _ => (Refuses.list _ Refuses.int).bind fun _ => Refuses.int.bind fun _ =>
    hnumber.bind fun _ => (Refuses.list _ (hnamed _)).bind fun _ =>
    (Refuses.list _ (hnamed _)).bind fun _ => (Refuses.list _ hmatrix).bind fun _ => .pure _

end

end FeedForward.ModelFile
