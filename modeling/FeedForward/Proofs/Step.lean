import FeedForward.Proofs.Check
import FeedForward.Step

/-!
# How steps run

A step that succeeds hands its result and its state on; a step that fails ends the run and
leaves its state behind. Steps on single items run through a list item by item, and the
results of a pass are those of the single steps, in order. These laws compute runs that
succeed. What every run leaves alone, whichever way it ends, is said by views of the state
that a step keeps, and what runs can fail with by the kind of faults that a step finds.
-/

namespace FeedForward

theorem itemAt_eq_ok_iff {γ : Type} {items : List γ} {i : Nat} {x : γ} :
    itemAt items i = .ok x ↔ items[i]? = some x := by
  rw [itemAt]
  cases items[i]? <;> simp

namespace Step

variable {σ τ γ δ κ : Type}

/-! ## Single steps -/

theorem bind_run (act : Step σ γ) (next : γ → Step σ δ) (s : σ) :
    (act >>= next) s = match act s with
      | .ok x s => next x s
      | .error fault s => .error fault s := by
  change EStateM.bind act next s = _
  rw [EStateM.bind]
  cases act s <;> rfl

theorem pure_run (x : γ) (s : σ) : (pure x : Step σ γ) s = .ok x s := rfl

theorem get_run (s : σ) : (get : Step σ σ) s = .ok s s := rfl

theorem set_run (t s : σ) : (set t : Step σ PUnit) s = .ok ⟨⟩ t := rfl

theorem modify_run (f : σ → σ) (s : σ) : (modify f : Step σ PUnit) s = .ok ⟨⟩ (f s) := rfl

theorem lift_run (result : Except Fault γ) (s : σ) :
    (liftM result : Step σ γ) s = match result with
      | .ok x => .ok x s
      | .error fault => .error fault s := by
  cases result <;> rfl

theorem ofExcept_run (result : Except Fault γ) (s : σ) :
    (ofExcept result : Step σ γ) s = match result with
      | .ok x => .ok x s
      | .error fault => .error fault s := by
  cases result <;> rfl

/-- A run of two steps that succeeds went through both of them. -/
theorem bind_eq_ok {act : Step σ γ} {next : γ → Step σ δ} {s t : σ} {y : δ}
    (hrun : (act >>= next) s = .ok y t) :
    ∃ x middle, act s = .ok x middle ∧ next x middle = .ok y t := by
  rw [bind_run] at hrun
  cases hact : act s with
  | ok x middle => exact ⟨x, middle, rfl, by rwa [hact] at hrun⟩
  | error fault middle => rw [hact] at hrun; cases hrun

/-- A run of two steps that fails does so in one of them. -/
theorem bind_eq_error {act : Step σ γ} {next : γ → Step σ δ} {s t : σ} {fault : Fault}
    (hrun : (act >>= next) s = .error fault t) :
    act s = .error fault t ∨ ∃ x middle, act s = .ok x middle ∧ next x middle = .error fault t := by
  rw [bind_run] at hrun
  cases hact : act s with
  | ok x middle => exact .inr ⟨x, middle, rfl, by rwa [hact] at hrun⟩
  | error cause middle => rw [hact] at hrun; cases hrun; exact .inl rfl

/-! ## Passes over lists -/

theorem visit_run_from {act : Nat → Step σ γ} {x : Nat → σ → γ} {f : Nat → σ → σ} (start : Nat)
    (items : List σ)
    (hact : ∀ i item, items[i]? = some item → act (start + i) item = .ok (x i item) (f i item)) :
    visit act items.length start items = .ok (items.mapIdx x) (items.mapIdx f) := by
  -- The rest of the list is visited from the next position on, by the same steps moved by one.
  induction items generalizing start x f with
  | nil => rfl
  | cons item rest ih =>
      have hhead : act start item = .ok (x 0 item) (f 0 item) := hact 0 item rfl
      have htail := ih (start + 1) fun i next hnext => by
        have hstep := hact (i + 1) next (by simpa using hnext)
        rwa [show start + (i + 1) = start + 1 + i by omega] at hstep
      simp only [List.length_cons, visit, hhead, htail, List.mapIdx_cons]

/-- A pass over a whole list whose single steps all succeed. -/
theorem visit_run {act : Nat → Step σ γ} {x : Nat → σ → γ} {f : Nat → σ → σ} (items : List σ)
    (hact : ∀ i item, items[i]? = some item → act i item = .ok (x i item) (f i item)) :
    visit act items.length 0 items = .ok (items.mapIdx x) (items.mapIdx f) :=
  visit_run_from 0 items fun i item hitem => by rw [Nat.zero_add]; exact hact i item hitem

theorem visit_length {act : Nat → Step σ γ} {count start : Nat} {items after : List σ}
    {results : List γ} (hrun : visit act count start items = .ok results after) :
    results.length = count := by
  induction count generalizing start items after results with
  | zero => cases hrun; rfl
  | succ count ih =>
      cases items with
      | nil => cases hrun
      | cons item rest =>
          rw [visit] at hrun
          split at hrun
          next => cases hrun
          next x item' _ =>
            split at hrun
            next => cases hrun
            next xs rest' hrest =>
              cases hrun
              simp [ih hrest]

/-- A step on the item at a position changes that item only. -/
theorem onItem_run {act : Step σ γ} {i : Nat} {items : List σ} {item after : σ} {x : γ}
    (hitem : items[i]? = some item) (hact : act item = .ok x after) :
    onItem act i items = .ok x (items.set i after) := by
  induction items generalizing i with
  | nil => simp at hitem
  | cons first rest ih =>
      cases i with
      | zero =>
          simp only [List.getElem?_cons_zero, Option.some.injEq] at hitem
          subst hitem
          simp [onItem, hact, mapState]
      | succ i =>
          have hrest := ih (i := i) (by simpa using hitem)
          simp [onItem, hrest, mapState]

theorem lift_eq_ok {result : Except Fault γ} {s t : σ} {x : γ}
    (hrun : (liftM result : Step σ γ) s = .ok x t) : result = .ok x ∧ s = t := by
  rw [lift_run] at hrun
  cases result with
  | ok y => cases hrun; exact ⟨rfl, rfl⟩
  | error fault => cases hrun

theorem lift_eq_error {result : Except Fault γ} {s t : σ} {fault : Fault}
    (hrun : (liftM result : Step σ γ) s = .error fault t) : result = .error fault ∧ t = s := by
  rw [lift_run] at hrun
  cases result with
  | ok y => cases hrun
  | error cause => cases hrun; exact ⟨rfl, rfl⟩

/-- A step on the item at a position succeeds only where there is one. -/
theorem onItem_eq_ok {act : Step σ γ} {i : Nat} {items after : List σ} {x : γ}
    (hrun : onItem act i items = .ok x after) :
    ∃ item item', items[i]? = some item ∧ act item = .ok x item' := by
  induction items generalizing i after with
  | nil => cases i <;> cases hrun
  | cons first rest ih =>
      cases i with
      | zero =>
          rw [onItem] at hrun
          cases hact : act first with
          | ok y item' => rw [hact] at hrun; cases hrun; exact ⟨first, item', rfl, hact⟩
          | error fault item' => rw [hact] at hrun; cases hrun
      | succ i =>
          rw [onItem] at hrun
          cases hrest : onItem act i rest with
          | ok y rest' =>
              rw [hrest] at hrun
              cases hrun
              obtain ⟨item, item', hitem, hact⟩ := ih hrest
              exact ⟨item, item', by simpa using hitem, hact⟩
          | error fault rest' => rw [hrest] at hrun; cases hrun

/-- A step on the item at a position that succeeds has changed that item only. -/
theorem onItem_eq_set {act : Step σ γ} {i : Nat} {items after : List σ} {x : γ}
    (hrun : onItem act i items = .ok x after) :
    ∃ item item', items[i]? = some item ∧ act item = .ok x item' ∧ after = items.set i item' := by
  obtain ⟨item, item', hitem, hact⟩ := onItem_eq_ok hrun
  rw [onItem_run hitem hact] at hrun
  cases hrun
  exact ⟨item, item', hitem, hact, rfl⟩

/-- A step on the items behind a position leaves those in front alone. -/
theorem beyond_run {act : Step (List σ) γ} {front items after : List σ} {x : γ}
    (hact : act items = .ok x after) :
    beyond act front.length (front ++ items) = .ok x (front ++ after) := by
  induction front with
  | nil => exact hact
  | cons item front ih =>
      simp only [List.length_cons, List.cons_append, beyond, ih, mapState]

/-! ## What every run keeps -/

/-- The state that a step leaves behind, whichever way it ends. -/
def after (act : Step σ γ) (s : σ) : σ :=
  match act s with
  | .ok _ s => s
  | .error _ s => s

/-- A view of the state reads the same before and after a step, whichever way it ends. -/
def Keeps (view : σ → κ) (act : Step σ γ) : Prop := ∀ s, view (after act s) = view s

theorem after_mapState {act : Step σ γ} {put : σ → τ} (s : σ) :
    (match mapState put (act s) with | .ok _ t => t | .error _ t => t) = put (after act s) := by
  rw [after]
  cases act s <;> rfl

theorem after_bind (act : Step σ γ) (next : γ → Step σ δ) (s : σ) :
    after (act >>= next) s = match act s with
      | .ok x s => after (next x) s
      | .error _ s => s := by
  rw [after, bind_run]
  cases act s <;> rfl

namespace Keeps

variable {view : σ → κ}

theorem pure (x : γ) : Keeps view (Pure.pure x : Step σ γ) := fun _ => rfl

theorem get : Keeps view (MonadState.get : Step σ σ) := fun _ => rfl

theorem throw (fault : Fault) : Keeps view (throw fault : Step σ γ) := fun _ => rfl

theorem lift (result : Except Fault γ) : Keeps view (liftM result : Step σ γ) := by
  intro s
  rw [after, lift_run]
  cases result <;> rfl

theorem modify {f : σ → σ} (hf : ∀ s, view (f s) = view s) :
    Keeps view (modify f : Step σ PUnit) := hf

theorem bind {act : Step σ γ} {next : γ → Step σ δ} (hact : Keeps view act)
    (hnext : ∀ x, Keeps view (next x)) : Keeps view (act >>= next) := by
  intro s
  have hs := hact s
  rw [after_bind]
  rw [after] at hs
  cases hrun : act s with
  | ok x t =>
      rw [hrun] at hs
      exact (hnext x t).trans hs
  | error fault t =>
      rw [hrun] at hs
      exact hs

theorem ite {c : Prop} [Decidable c] {act other : Step σ γ} (hact : Keeps view act)
    (hother : Keeps view other) : Keeps view (if c then act else other) := by
  split
  · exact hact
  · exact hother

theorem of_ok {act : Step σ γ} (hact : Keeps view act) {s t : σ} {x : γ}
    (hrun : act s = .ok x t) : view t = view s := by
  have hs := hact s
  rwa [after, hrun] at hs

theorem of_error {act : Step σ γ} (hact : Keeps view act) {s t : σ} {fault : Fault}
    (hrun : act s = .error fault t) : view t = view s := by
  have hs := hact s
  rwa [after, hrun] at hs

/-- A step on one item keeps the view of all items. -/
theorem onItem {act : Step σ γ} (hact : Keeps view act) (i : Nat) :
    Keeps (List.map view) (onItem act i) := by
  intro items
  induction items generalizing i with
  | nil => cases i <;> rfl
  | cons item rest ih =>
      cases i with
      | zero =>
          rw [after, Step.onItem, after_mapState, List.map_cons, List.map_cons, hact item]
      | succ i =>
          rw [after, Step.onItem, after_mapState, List.map_cons, List.map_cons, ih i]

/-- A pass over items keeps the view of all items. -/
theorem visit {act : Nat → Step σ γ} (hact : ∀ i, Keeps view (act i)) (count start : Nat) :
    Keeps (List.map view) (visit act count start) := by
  intro items
  induction count generalizing start items with
  | zero => rfl
  | succ count ih =>
      cases items with
      | nil => rfl
      | cons item rest =>
          have hitem := hact start item
          have hrest := ih (start + 1) rest
          rw [after] at hitem hrest
          rw [after, Step.visit]
          cases hfirst : act start item with
          | error fault item' =>
              rw [hfirst] at hitem
              exact congrArg (· :: rest.map view) hitem
          | ok x item' =>
              rw [hfirst] at hitem
              cases hothers : Step.visit act count (start + 1) rest with
              | error fault rest' =>
                  rw [hothers] at hrest
                  simp only [List.map_cons, hitem, hrest]
              | ok xs rest' =>
                  rw [hothers] at hrest
                  simp only [List.map_cons, hitem, hrest]

/-- A step on the items behind a position keeps the view of all items. -/
theorem beyond {act : Step (List σ) γ} (hact : Keeps (List.map view) act) (i : Nat) :
    Keeps (List.map view) (beyond act i) := by
  intro items
  induction i generalizing items with
  | zero => exact hact items
  | succ i ih =>
      cases items with
      | nil => exact hact []
      | cons item rest =>
          rw [after, Step.beyond, after_mapState, List.map_cons, List.map_cons, ih rest]

/-- A step on a part of the state keeps a view that does not see the part. -/
theorem part {act : Step τ γ} {read : σ → τ} {put : σ → τ → σ}
    (hput : ∀ s t, view (put s t) = view s) :
    Keeps view (fun s => Step.mapState (put s) (act (read s)) : Step σ γ) := fun s =>
  (congrArg view (after_mapState (read s))).trans (hput s _)

end Keeps

/-! ## What every run preserves -/

/-- A property of the state that holds before a step holds after it, whichever way it ends. -/
def Preserves (inv : σ → Prop) (act : Step σ γ) : Prop := ∀ s, inv s → inv (after act s)

/-- What holds after two steps in a row, where the second may rely on how the first succeeded. -/
theorem after_bind_of {inv : σ → Prop} {act : Step σ γ} {next : γ → Step σ δ} {s : σ}
    (hact : inv (after act s))
    (hnext : ∀ x t, act s = .ok x t → inv t → inv (after (next x) t)) :
    inv (after (act >>= next) s) := by
  rw [after_bind]
  rw [after] at hact
  cases hrun : act s with
  | ok x t =>
      rw [hrun] at hact
      exact hnext x t hrun hact
  | error fault t =>
      rw [hrun] at hact
      exact hact

namespace Preserves

variable {inv : σ → Prop}

theorem get : Preserves inv (MonadState.get : Step σ σ) := fun _ hinv => hinv

theorem pure (x : γ) : Preserves inv (Pure.pure x : Step σ γ) := fun _ hinv => hinv

theorem throw (fault : Fault) : Preserves inv (throw fault : Step σ γ) := fun _ hinv => hinv

theorem lift (result : Except Fault γ) : Preserves inv (liftM result : Step σ γ) := by
  intro s hinv
  rw [after, lift_run]
  cases result <;> exact hinv

theorem modify {f : σ → σ} (hf : ∀ s, inv s → inv (f s)) :
    Preserves inv (modify f : Step σ PUnit) := hf

theorem bind {act : Step σ γ} {next : γ → Step σ δ} (hact : Preserves inv act)
    (hnext : ∀ x, Preserves inv (next x)) : Preserves inv (act >>= next) :=
  fun s hinv => after_bind_of (hact s hinv) fun x t _ ht => hnext x t ht

theorem ite {c : Prop} [Decidable c] {act other : Step σ γ} (hact : Preserves inv act)
    (hother : Preserves inv other) : Preserves inv (if c then act else other) := by
  split
  · exact hact
  · exact hother

end Preserves

/-! ## Faults that are found -/

/-- All faults that a step can fail with are of some kind, whatever state it starts from. -/
def Finds (kind : Fault → Prop) (act : Step σ γ) : Prop :=
  ∀ s fault t, act s = .error fault t → kind fault

namespace Finds

variable {kind : Fault → Prop}

theorem pure (x : γ) : Finds kind (Pure.pure x : Step σ γ) := by
  intro s fault t hrun
  cases hrun

theorem get : Finds kind (MonadState.get : Step σ σ) := by
  intro s fault t hrun
  cases hrun

theorem modify (f : σ → σ) : Finds kind (modify f : Step σ PUnit) := by
  intro s fault t hrun
  cases hrun

theorem throw {fault : Fault} (hkind : kind fault) : Finds kind (throw fault : Step σ γ) := by
  intro s other t hrun
  cases hrun
  exact hkind

theorem lift {result : Except Fault γ} (hresult : Check.Finds kind result) :
    Finds kind (liftM result : Step σ γ) := by
  intro s fault t hrun
  rw [lift_run] at hrun
  cases result with
  | ok x => cases hrun
  | error cause => cases hrun; exact hresult fault rfl

theorem bind {act : Step σ γ} {next : γ → Step σ δ} (hact : Finds kind act)
    (hnext : ∀ x, Finds kind (next x)) : Finds kind (act >>= next) := by
  intro s fault t hrun
  rcases bind_eq_error hrun with hfirst | ⟨x, middle, -, hsecond⟩
  · exact hact s fault t hfirst
  · exact hnext x middle fault t hsecond

/-- What follows a check may rely on its result. -/
theorem lift_bind {result : Except Fault γ} {next : γ → Step σ δ}
    (hresult : Check.Finds kind result) (hnext : ∀ x, result = .ok x → Finds kind (next x)) :
    Finds kind ((liftM result : Step σ γ) >>= next) := by
  intro s fault t hrun
  rcases bind_eq_error hrun with hfirst | ⟨x, middle, hok, hsecond⟩
  · exact lift hresult s fault t hfirst
  · exact hnext x (lift_eq_ok hok).1 middle fault t hsecond

theorem ite {c : Prop} [Decidable c] {act other : Step σ γ} (hact : Finds kind act)
    (hother : Finds kind other) : Finds kind (if c then act else other) := by
  split
  · exact hact
  · exact hother

theorem mapState {act : Step σ γ} {put : σ → τ} (hact : Finds kind act) {s : σ} {fault : Fault}
    {t : τ} (hrun : Step.mapState put (act s) = .error fault t) : kind fault := by
  cases hs : act s with
  | ok x t => rw [hs] at hrun; cases hrun
  | error cause t => rw [hs] at hrun; cases hrun; exact hact s fault t hs

variable (hindex : kind .indexOutside)

include hindex

/-- A step on one item may find no item at its position. -/
theorem onItem {act : Step σ γ} (hact : Finds kind act) (i : Nat) :
    Finds kind (onItem act i) := by
  intro items
  induction items generalizing i with
  | nil =>
      intro fault t hrun
      cases i <;> cases hrun <;> exact hindex
  | cons item rest ih =>
      intro fault t hrun
      cases i with
      | zero => exact hact.mapState hrun
      | succ i =>
          rw [Step.onItem] at hrun
          cases hrest : Step.onItem act i rest with
          | ok x rest' => rw [hrest] at hrun; cases hrun
          | error cause rest' => rw [hrest] at hrun; cases hrun; exact ih i fault rest' hrest

/-- A pass over items may run out of them. -/
theorem visit {act : Nat → Step σ γ} (hact : ∀ i, Finds kind (act i)) (count start : Nat) :
    Finds kind (visit act count start) := by
  intro items
  induction count generalizing start items with
  | zero =>
      intro fault t hrun
      cases hrun
  | succ count ih =>
      intro fault t hrun
      cases items with
      | nil => cases hrun; exact hindex
      | cons item rest =>
          rw [Step.visit] at hrun
          split at hrun
          next cause item' hfirst => cases hrun; exact hact start item fault item' hfirst
          next x item' _ =>
            split at hrun
            next cause rest' hrest => cases hrun; exact ih (start + 1) rest fault rest' hrest
            next => cases hrun

omit hindex in
theorem beyond {act : Step (List σ) γ} (hact : Finds kind act) (i : Nat) :
    Finds kind (beyond act i) := by
  intro items
  induction i generalizing items with
  | zero => exact hact items
  | succ i ih =>
      intro fault t hrun
      cases items with
      | nil => exact hact [] fault t hrun
      | cons item rest =>
          rw [Step.beyond] at hrun
          cases hrest : Step.beyond act i rest with
          | ok x rest' => rw [hrest] at hrun; cases hrun
          | error cause rest' => rw [hrest] at hrun; cases hrun; exact ih rest fault rest' hrest

end Finds

end Step

end FeedForward
