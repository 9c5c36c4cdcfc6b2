import FeedForward.ModelFile
import FeedForward.Proofs.Bytes
import FeedForward.Proofs.Network.Topology
import FeedForward.Proofs.Tensor

/-!
# Written networks are read back

Each section of a model file is read back as what was written, in front of anything. A network is
written whole when its sizes fit into four bytes with a sign, when its matrices have two extents,
when the registries list what it refers to by name and when its training method is supported.
Whether what is read back describes a network is another matter.
-/

namespace FeedForward

/-- Words hold numbers whole. -/
class LawfulEncoding (γ : Type) [Encoding γ] : Prop where
  word_lt : ∀ x : γ, Encoding.word x < 256 ^ Encoding.width γ
  ofWord_word : ∀ x : γ, Encoding.ofWord (Encoding.word x) = x

instance : LawfulEncoding Double where
  word_lt x := x.word.toNat_lt
  ofWord_word _ := congrArg Double.mk UInt64.ofNat_toNat

instance : LawfulEncoding Single where
  word_lt x := x.word.toNat_lt
  ofWord_word _ := congrArg Single.mk UInt32.ofNat_toNat

namespace ModelFile

open Output (Reads)

open Network (find?_ruleRegistry)

section

variable {γ : Type} [Encoding γ] [LawfulEncoding γ]

theorem reads_number (x : γ) : (number x).Reads readNumber x := by
  refine (Reads.word (LawfulEncoding.word_lt x)).bind fun rest => ?_
  rw [LawfulEncoding.ofWord_word]
  rfl

/-- The bytes of some numbers, one after the other. -/
def words (xs : List γ) : List UInt8 :=
  xs.flatMap fun x => Word.bytes (Encoding.width γ) (Encoding.word x)

omit [LawfulEncoding γ] in
theorem join_number (xs : List γ) : Output.join (xs.map number) = .ofBytes (words xs) := by
  induction xs with
  | nil => rfl
  | cons x xs ih =>
      rw [List.map_cons, number, Output.ofBytes, Output.join, ih]
      rfl

omit [LawfulEncoding γ] in
theorem length_words (xs : List γ) : (words xs).length = xs.length * Encoding.width γ := by
  induction xs with
  | nil => exact (Nat.zero_mul _).symm
  | cons x xs ih =>
      rw [words, List.flatMap_cons, List.length_append, Word.length_bytes, ← words, ih,
        List.length_cons, Nat.succ_mul, Nat.add_comm]

theorem numbers_words (xs : List γ) : numbers xs.length (words xs) = xs := by
  induction xs with
  | nil => rfl
  | cons x xs ih =>
      have hwidth := Word.length_bytes (Encoding.width γ) (Encoding.word x)
      have hvalue : Word.value (Word.bytes (Encoding.width γ) (Encoding.word x)) =
          Encoding.word x :=
        (Word.value_bytes ..).trans (Nat.mod_eq_of_lt (LawfulEncoding.word_lt x))
      rw [List.length_cons, words, List.flatMap_cons, numbers, List.take_left' hwidth,
        List.drop_left' hwidth, ← words, ih, hvalue, LawfulEncoding.ofWord_word]

theorem reads_matrix {t : Tensor γ} {rows columns : Nat} (hshape : t.shape = [rows, columns])
    (hrows : rows < 2147483648) (hcolumns : columns < 2147483648) :
    (matrix t).Reads readMatrix t := by
  have hlength : t.toList.length = rows * columns := by
    rw [Tensor.length_toList, hshape, places, places, places, Nat.mul_one]
  have hpayload : (Output.join (t.toList.map number)).Reads
      (Input.exactly (rows * columns * Encoding.width γ)) (words t.toList) := by
    rw [join_number]
    exact Reads.exactly (by rw [length_words, hlength])
  have hnumbers : numbers (rows * columns) (words t.toList) = t.toList := by
    rw [← hlength, numbers_words]
  rw [matrix, Tensor.matrixShape_eq_ok hshape]
  refine Reads.cons (Reads.count _ hrows) (Reads.cons (Reads.count _ hcolumns)
    (hpayload.bind fun rest => ?_))
  have htensor : (⟨[rows, columns], (numbers (rows * columns) (words t.toList)).toArray,
      by simp [places]⟩ : Tensor γ) = t :=
    Tensor.eq_of_toList hshape.symm hnumbers
  rw [htensor]
  rfl

end

/-! ## Names -/

theorem reads_named {γ : Type} {registry : Registry γ} {name : String} {entry : γ}
    (hfind : registry.find? name = some entry) (hsize : name.toUTF8.size < 2147483648) :
    (Output.text name).Reads (readNamed registry) (name, entry) := by
  refine (Reads.text hsize).bind fun rest => ?_
  rw [hfind]
  rfl

section

variable {α : Type} [Scalar α]

theorem size_cost {cost : Cost α} (hlists : Cost.registry.Lists Cost.name cost) :
    cost.name.toUTF8.size < 2147483648 := by
  have hshort : ∀ name ∈ ["squared_error", "cross_entropy", "categorical_cross_entropy"],
      name.toUTF8.size < 2147483648 := by decide
  exact hshort _ hlists.name_mem

theorem size_transformer {transformer : Transformer α}
    (hlists : Transformer.registry.Lists Transformer.name transformer) :
    transformer.name.toUTF8.size < 2147483648 := by
  have hshort : ∀ name ∈ ["identity", "l2_normalize"], name.toUTF8.size < 2147483648 := by decide
  exact hshort _ hlists.name_mem

theorem size_activation {activation : Activation α}
    (hlists : Activation.registry.Lists Activation.name activation) :
    activation.name.toUTF8.size < 2147483648 := by
  have hshort : ∀ name ∈ ["identity", "sigmoid", "tanh", "relu", "softmax", "identity", "sigmoid"],
      name.toUTF8.size < 2147483648 := by decide
  exact hshort _ hlists.name_mem

end

/-! ## Whole networks -/

/-- A network that can be stored: its number of layers and their sizes fit into four bytes with a
sign, the registries list what it refers to by name, and its training method is supported. -/
structure Storable {α β : Type} [Scalar α] (net : Network α β) : Prop where
  sizes_lt : ∀ size ∈ net.sizes.length :: net.sizes, size < 2147483648
  cost_listed : Cost.registry.Lists Cost.name net.cost
  transformer_listed : Transformer.registry.Lists Transformer.name net.transformer
  activations_listed : ∀ f ∈ net.activations, Activation.registry.Lists Activation.name f
  method_ok : ∃ method, TrainingMethod.ofName net.method = .ok method

section

variable {α β : Type} [Scalar α] [Precision α β]

/-- What the file of a network says. -/
def contents (net : Network α β) (method : TrainingMethod) : Contents α β where
  learningRate := net.learningRate
  momentumWeight := net.momentumWeight
  regularizationWeight := net.regularizationWeight
  cost := Cost.registry.entryFor Cost.name net.cost
  style := net.style.name
  method := method.name
  transformer := Transformer.registry.entryFor Transformer.name net.transformer
  dropRate := Precision.narrow net.dropRate
  topology := {
    sizes := net.sizes.map Int.ofNat
    outputLayer := (net.outputLayer.map Int.ofNat).getD (-1)
    activations := net.activations.map fun f =>
      .given (Activation.registry.entryFor Activation.name f)
    rules := net.rules.map Rule.key
    matrices := net.weights.map some }

variable [Encoding α] [Encoding β] [LawfulEncoding α] [LawfulEncoding β]

omit [Encoding α] [LawfulEncoding α] [Precision α β] in
/-- The extents of the matrices fit where the sizes of the layers do. -/
theorem reads_weights {net : Network α β} (hnet : net.WellFormed) (hstorable : Storable net)
    {t : Tensor β} (ht : t ∈ net.weights) : (matrix t).Reads readMatrix t := by
  have hwidth : ∀ k, net.width k < 2147483648 := by
    intro k
    rw [Network.width, List.getD_eq_getElem?_getD]
    cases hk : net.sizes[k]? with
    | none => decide
    | some size => exact hstorable.sizes_lt size (List.mem_cons_of_mem _ (List.mem_of_getElem? hk))
  obtain ⟨k, hk⟩ := List.mem_iff_getElem?.mp ht
  have hrows : net.fedWidth (k + 1) < 2147483648 :=
    Nat.lt_of_le_of_lt (Nat.sub_le _ _) (hwidth (k + 1))
  exact reads_matrix (hnet.weights_shape k t hk) hrows (hwidth k)

/-- A network that can be stored is written whole, and what is read back is what its file says. -/
theorem reads_write {net : Network α β} (hnet : net.WellFormed) (hstorable : Storable net)
    {method : TrainingMethod} (hmethod : TrainingMethod.ofName net.method = .ok method) :
    (write net).Reads readContents (contents net method) := by
  have hcount := hstorable.sizes_lt _ List.mem_cons_self
  have hsize : ∀ size ∈ net.sizes, size < 2147483648 := fun size hmem =>
    hstorable.sizes_lt size (List.mem_cons_of_mem _ hmem)
  have houtput : -2147483648 ≤ (net.outputLayer.map Int.ofNat).getD (-1) ∧
      (net.outputLayer.map Int.ofNat).getD (-1) < 2147483648 := by
    cases hlayer : net.outputLayer with
    | none => decide
    | some layer =>
        have hlast := (hnet.output_last layer hlayer).1
        change -2147483648 ≤ (layer : Int) ∧ (layer : Int) < 2147483648
        omega
  have hmethodOutput : ModelFile.method net.method = .text method.name := by
    rw [ModelFile.method, hmethod]
  -- The mark, and then the sections in the order in which they are written.
  refine Reads.cons (Reads.text (by decide)) ?_
  rw [if_neg (Decidable.not_not.mpr rfl)]
  refine Reads.cons (reads_number _) (Reads.cons (reads_number _) (Reads.cons (reads_number _) ?_))
  refine Reads.cons (reads_named (Registry.find?_of_lists hstorable.cost_listed)
    (size_cost hstorable.cost_listed)) ?_
  refine Reads.cons (Reads.text (by cases net.style <;> decide)) ?_
  refine Reads.cons (hmethodOutput ▸ Reads.text (by cases method; decide)) ?_
  refine Reads.cons (reads_named (Registry.find?_of_lists hstorable.transformer_listed)
    (size_transformer hstorable.transformer_listed)) ?_
  refine Reads.cons (Reads.list "layer" Int.ofNat hcount fun size hmem =>
    Reads.int (by omega) (by have := hsize size hmem; omega)) ?_
  refine Reads.cons (Reads.int houtput.1 houtput.2) (Reads.cons (reads_number _) ?_)
  refine Reads.cons (Reads.list "neuron class" (fun rule => (rule.key, rule))
    (by rw [hnet.rules_length]; omega) fun rule _ =>
      reads_named (find?_ruleRegistry.mpr rfl) (by cases rule <;> decide)) ?_
  refine Reads.cons (Reads.list "activation function"
    (fun f => (f.name, Activation.registry.entryFor Activation.name f))
    (by rw [hnet.activations_length]; omega) fun f hf =>
      reads_named (Registry.find?_of_lists (hstorable.activations_listed f hf))
        (size_activation (hstorable.activations_listed f hf))) ?_
  refine Reads.cons (Reads.list "weight matrix" id
    (by rw [hnet.weights_length]; omega) fun t ht => reads_weights hnet hstorable ht) ?_
  refine Reads.nil fun rest => ?_
  simp only [List.map_map, List.map_id]
  rfl

end

end ModelFile

end FeedForward
