import FeedForward.Proofs.Step

/-!
# Runs in lockstep

Two runs agree when both succeed with one value or both fail with one fault. What their states have
in common afterwards is one relation where they succeed and another one where they fail. Runs of two
steps in a row agree when the first steps do and the second ones do from there on, and runs over
lists agree place by place. Two runs meet when their results are related instead of equal. Nothing
is said here about what the steps read.
-/

namespace FeedForward

/-! ## Lists place by place -/

/-- Lists of one length whose items are related, by a relation for each place. -/
inductive Places {σ τ : Type} : (Nat → σ → τ → Prop) → List σ → List τ → Prop where
  | nil {rel : Nat → σ → τ → Prop} : Places rel [] []
  | cons {rel : Nat → σ → τ → Prop} {x : σ} {y : τ} {xs : List σ} {ys : List τ}
      (hhead : rel 0 x y) (htail : Places (fun k => rel (k + 1)) xs ys) :
      Places rel (x :: xs) (y :: ys)

namespace Places

variable {σ τ κ : Type} {rel rel' : Nat → σ → τ → Prop} {xs : List σ} {ys : List τ}

theorem length_eq (hitems : Places rel xs ys) : ys.length = xs.length := by
  induction hitems with
  | nil => rfl
  | cons _ _ ih => rw [List.length_cons, List.length_cons, ih]

theorem mono_of_lt (hitems : Places rel xs ys)
    (hrel : ∀ k x y, k < xs.length → rel k x y → rel' k x y) : Places rel' xs ys := by
  induction hitems generalizing rel' with
  | nil => exact .nil
  | cons hhead _ ih =>
      refine .cons (hrel 0 _ _ (Nat.succ_pos _) hhead) (ih fun k x y hk => ?_)
      exact hrel (k + 1) x y (Nat.succ_lt_succ hk)

theorem mono (hitems : Places rel xs ys) (hrel : ∀ k x y, rel k x y → rel' k x y) :
    Places rel' xs ys :=
  hitems.mono_of_lt fun k x y _ => hrel k x y

theorem of_getElem? (hlength : ys.length = xs.length)
    (hrel : ∀ k x y, xs[k]? = some x → ys[k]? = some y → rel k x y) : Places rel xs ys := by
  induction xs generalizing ys rel with
  | nil =>
      rw [List.length_eq_zero_iff.mp hlength]
      exact .nil
  | cons x xs ih =>
      cases ys with
      | nil => cases hlength
      | cons y ys =>
          exact .cons (hrel 0 x y rfl rfl) (ih (Nat.succ.inj hlength) fun k a b ha hb =>
            hrel (k + 1) a b ha hb)

/-- What is known of the items of the first list. -/
theorem and_of (hitems : Places rel xs ys) {good : Nat → σ → Prop}
    (hgood : ∀ k x, xs[k]? = some x → good k x) :
    Places (fun k x y => good k x ∧ rel k x y) xs ys := by
  induction hitems generalizing good with
  | nil => exact .nil
  | cons hhead _ ih =>
      exact .cons ⟨hgood 0 _ rfl, hhead⟩ (ih fun k x hk => hgood (k + 1) x (by simpa using hk))

/-- At every place both lists have an item or neither has. -/
theorem getElem? (hitems : Places rel xs ys) (k : Nat) :
    (xs[k]? = none ∧ ys[k]? = none) ∨
      ∃ x y, xs[k]? = some x ∧ ys[k]? = some y ∧ rel k x y := by
  induction hitems generalizing k with
  | nil => exact .inl ⟨rfl, rfl⟩
  | @cons rel x y xs ys hhead _ ih =>
      cases k with
      | zero => exact .inr ⟨x, y, rfl, rfl, hhead⟩
      | succ k => exact ih k

/-- Views that agree on related items agree on the lists. -/
theorem map_eq {f : σ → κ} {g : τ → κ} (hitems : Places rel xs ys)
    (hview : ∀ k x y, rel k x y → g y = f x) : ys.map g = xs.map f := by
  induction hitems with
  | nil => rfl
  | cons hhead _ ih =>
      rw [List.map_cons, List.map_cons, hview 0 _ _ hhead, ih fun k x y => hview (k + 1) x y]

theorem map {σ' τ' : Type} {rel' : Nat → σ' → τ' → Prop} {f : σ → σ'} {g : τ → τ'}
    (hitems : Places rel xs ys) (hrel : ∀ k x y, rel k x y → rel' k (f x) (g y)) :
    Places rel' (xs.map f) (ys.map g) := by
  induction hitems generalizing rel' with
  | nil => exact .nil
  | cons hhead _ ih => exact .cons (hrel 0 _ _ hhead) (ih fun k x y => hrel (k + 1) x y)

theorem take (hitems : Places rel xs ys) (count : Nat) :
    Places rel (xs.take count) (ys.take count) := by
  induction hitems generalizing count with
  | nil => simpa using Places.nil
  | cons hhead _ ih =>
      cases count with
      | zero => exact .nil
      | succ count => exact .cons hhead (ih count)

theorem drop (hitems : Places rel xs ys) (i : Nat) :
    Places (fun k => rel (k + i)) (xs.drop i) (ys.drop i) := by
  induction i generalizing rel xs ys with
  | zero => exact hitems
  | succ i ih =>
      cases hitems with
      | nil => exact .nil
      | cons _ htail => exact ih htail

end Places

/-! ## Runs that agree -/

namespace Step

variable {σ τ γ δ : Type}

/-- Two runs succeed with one value or fail with one fault, and their states are related. -/
inductive Agree (post fail : σ → τ → Prop) :
    EStateM.Result Fault σ γ → EStateM.Result Fault τ γ → Prop where
  | ok {x : γ} {s : σ} {t : τ} (hpost : post s t) : Agree post fail (.ok x s) (.ok x t)
  | error {fault : Fault} {s : σ} {t : τ} (hfail : fail s t) :
      Agree post fail (.error fault s) (.error fault t)

namespace Agree

/-- A run agrees with itself. -/
theorem refl {post fail : σ → σ → Prop} (result : EStateM.Result Fault σ γ)
    (hpost : ∀ s, post s s) (hfail : ∀ s, fail s s) : Agree post fail result result := by
  cases result with
  | ok x s => exact .ok (hpost s)
  | error fault s => exact .error (hfail s)

section

variable {post post' middle fail fail' : σ → τ → Prop} {s : σ} {t : τ}

theorem mono {first : EStateM.Result Fault σ γ} {second : EStateM.Result Fault τ γ}
    (hruns : Agree post fail first second) (hpost : ∀ s t, post s t → post' s t)
    (hfail : ∀ s t, fail s t → fail' s t) : Agree post' fail' first second := by
  cases hruns with
  | ok h => exact .ok (hpost _ _ h)
  | error h => exact .error (hfail _ _ h)

/-- Runs of two steps in a row agree when the first steps agree and the second ones do behind
them. -/
theorem bind_of_ok {act : Step σ γ} {act' : Step τ γ} {next : γ → Step σ δ} {next' : γ → Step τ δ}
    (hact : Agree middle fail (act s) (act' t))
    (hnext : ∀ x a b, act s = .ok x a → middle a b → Agree post fail (next x a) (next' x b)) :
    Agree post fail ((act >>= next) s) ((act' >>= next') t) := by
  rw [bind_run, bind_run]
  generalize act s = first at hact hnext
  generalize act' t = second at hact
  cases hact with
  | ok h => exact hnext _ _ _ rfl h
  | error h => exact .error h

theorem bind {act : Step σ γ} {act' : Step τ γ} {next : γ → Step σ δ} {next' : γ → Step τ δ}
    (hact : Agree middle fail (act s) (act' t))
    (hnext : ∀ x s t, middle s t → Agree post fail (next x s) (next' x t)) :
    Agree post fail ((act >>= next) s) ((act' >>= next') t) :=
  hact.bind_of_ok fun x a b _ => hnext x a b

theorem ite {c : Prop} [Decidable c] {act other : Step σ γ} {act' other' : Step τ γ}
    (hact : c → Agree post fail (act s) (act' t))
    (hother : ¬ c → Agree post fail (other s) (other' t)) :
    Agree post fail ((if c then act else other) s) ((if c then act' else other') t) := by
  by_cases hc : c
  · rw [if_pos hc, if_pos hc]
    exact hact hc
  · rw [if_neg hc, if_neg hc]
    exact hother hc

/-- What is known of the state that the first run leaves. -/
theorem and_after {p : σ → Prop} {act : Step σ γ} {second : EStateM.Result Fault τ γ}
    (hruns : Agree post fail (act s) second) (hp : p (Step.after act s)) :
    Agree (fun a b => p a ∧ post a b) (fun a b => p a ∧ fail a b) (act s) second := by
  rw [Step.after] at hp
  generalize act s = first at hruns hp
  cases hruns with
  | ok h => exact .ok ⟨hp, h⟩
  | error h => exact .error ⟨hp, h⟩

/-- What the first run keeps is also known of the state behind it. -/
theorem keep {κ : Type} {view : σ → κ} {act : Step σ γ} {second : EStateM.Result Fault τ γ}
    (hruns : Agree post fail (act s) second) (hkeeps : Keeps view act) :
    Agree (fun a b => view a = view s ∧ post a b) (fun a b => view a = view s ∧ fail a b) (act s)
      second :=
  hruns.and_after (hkeeps s)

/-- What is said of success and failure alike is said of the states that are left. -/
theorem after {act : Step σ γ} {act' : Step τ γ} (hruns : Agree post post (act s) (act' t)) :
    post (Step.after act s) (Step.after act' t) := by
  rw [Step.after, Step.after]
  generalize act s = first at hruns
  generalize act' t = second at hruns
  cases hruns with
  | ok h => exact h
  | error h => exact h

/-- A fact that follows from the success of the first run is known behind it. -/
theorem and_of_ok {p : Prop} {first : EStateM.Result Fault σ γ} {second : EStateM.Result Fault τ γ}
    (hruns : Agree post fail first second) (hok : ∀ x a, first = .ok x a → p) :
    Agree (fun a b => post a b ∧ p) fail first second := by
  cases hruns with
  | ok h => exact .ok ⟨h, hok _ _ rfl⟩
  | error h => exact .error h

/-- A result that depends on no state is the same for both runs. -/
theorem lift_bind {result : Except Fault γ} {next : γ → Step σ δ} {next' : γ → Step τ δ}
    (hfail : fail s t)
    (hnext : ∀ x, result = .ok x → Agree post fail (next x s) (next' x t)) :
    Agree post fail (((liftM result : Step σ γ) >>= next) s)
      (((liftM result : Step τ γ) >>= next') t) := by
  rw [bind_run, bind_run, lift_run, lift_run]
  cases result with
  | ok x => exact hnext x rfl
  | error fault => exact .error hfail

end

/-- A change of both states afterwards. -/
theorem mapState {σ' τ' : Type} {post fail : σ → τ → Prop} {post' fail' : σ' → τ' → Prop}
    {put : σ → σ'} {put' : τ → τ'} {first : EStateM.Result Fault σ γ}
    {second : EStateM.Result Fault τ γ} (hruns : Agree post fail first second)
    (hpost : ∀ s t, post s t → post' (put s) (put' t))
    (hfail : ∀ s t, fail s t → fail' (put s) (put' t)) :
    Agree post' fail' (Step.mapState put first) (Step.mapState put' second) := by
  cases hruns with
  | ok h => exact .ok (hpost _ _ h)
  | error h => exact .error (hfail _ _ h)

/-! ## Runs over lists -/

section

variable {rel post fail : Nat → σ → τ → Prop} {act : Step σ γ} {act' : Step τ γ} {items : List σ}
  {others : List τ}

/-- A step on the item at one place. -/
theorem onItem {i : Nat} (hitems : Places rel items others)
    (hact : ∀ x y, rel i x y → Agree (post i) (fail i) (act x) (act' y))
    (hpost : ∀ k x y, k ≠ i → rel k x y → post k x y)
    (hfail : ∀ k x y, rel k x y → fail k x y) :
    Agree (Places post) (Places fail) (Step.onItem act i items) (Step.onItem act' i others) := by
  induction hitems generalizing i post fail with
  | nil => cases i <;> exact .error .nil
  | @cons rel x y items others hhead htail ih =>
      cases i with
      | zero =>
          refine (hact x y hhead).mapState (fun _ _ h => ?_) (fun _ _ h => ?_)
          · exact .cons h (htail.mono fun k a b => hpost (k + 1) a b (Nat.succ_ne_zero k))
          · exact .cons h (htail.mono fun k a b => hfail (k + 1) a b)
      | succ i =>
          refine (ih hact (fun k a b hk => hpost (k + 1) a b (by simpa using hk))
            (fun k a b => hfail (k + 1) a b)).mapState (fun _ _ h => ?_) (fun _ _ h => ?_)
          · exact .cons (hpost 0 x y (Nat.succ_ne_zero i).symm hhead) h
          · exact .cons (hfail 0 x y hhead) h

/-- A step on the items from some place on. -/
theorem beyond {act : Step (List σ) γ} {act' : Step (List τ) γ} {i : Nat}
    (hitems : Places rel items others) (hlength : i ≤ items.length)
    (hact : Agree (Places fun k => post (k + i)) (Places fun k => fail (k + i))
      (act (items.drop i)) (act' (others.drop i)))
    (hpost : ∀ k x y, k < i → rel k x y → post k x y)
    (hfail : ∀ k x y, k < i → rel k x y → fail k x y) :
    Agree (Places post) (Places fail) (Step.beyond act i items) (Step.beyond act' i others) := by
  induction i generalizing items others rel post fail with
  | zero => exact hact
  | succ i ih =>
      cases hitems with
      | nil => cases hlength
      | @cons _ x y items others hhead htail =>
          refine (ih htail (Nat.le_of_succ_le_succ hlength) hact
            (fun k a b hk => hpost (k + 1) a b (Nat.succ_lt_succ hk))
            (fun k a b hk => hfail (k + 1) a b (Nat.succ_lt_succ hk))).mapState
            (fun _ _ h => ?_) (fun _ _ h => ?_)
          · exact .cons (hpost 0 x y (Nat.succ_pos i) hhead) h
          · exact .cons (hfail 0 x y (Nat.succ_pos i) hhead) h

/-- A pass over the first items, of which each is related afresh as it is visited. -/
theorem visit_from {act : Nat → Step σ γ} {act' : Nat → Step τ γ} {count start : Nat}
    (hitems : Places rel items others)
    (hact : ∀ k x y, k < count → rel k x y →
      Agree (post k) (fail k) (act (start + k) x) (act' (start + k) y))
    (hbehind : ∀ k x y, count ≤ k → k < items.length → rel k x y → post k x y)
    (hfail : ∀ k x y, rel k x y → fail k x y) (hdone : ∀ k x y, post k x y → fail k x y) :
    Agree (Places post) (Places fail) (Step.visit act count start items)
      (Step.visit act' count start others) := by
  induction count generalizing start items others rel post fail with
  | zero => exact .ok (hitems.mono_of_lt fun k x y hk => hbehind k x y (Nat.zero_le k) hk)
  | succ count ih =>
      cases hitems with
      | nil => exact .error .nil
      | @cons _ x y items others hhead htail =>
          have hfirst : Agree (post 0) (fail 0) (act start x) (act' start y) :=
            hact 0 x y (Nat.succ_pos count) hhead
          have hrest := ih htail
            (fun k a b hk hab => by
              have hnext := hact (k + 1) a b (Nat.succ_lt_succ hk) hab
              rwa [← Nat.add_assoc, Nat.add_right_comm] at hnext)
            (fun k a b hk hlt => hbehind (k + 1) a b (Nat.succ_le_succ hk) (Nat.succ_lt_succ hlt))
            (fun k a b => hfail (k + 1) a b) (fun k a b => hdone (k + 1) a b)
          rw [Step.visit, Step.visit]
          generalize act start x = first at hfirst
          generalize act' start y = second at hfirst
          cases hfirst with
          | error h => exact .error (.cons h (htail.mono fun k a b => hfail (k + 1) a b))
          | ok h =>
              generalize Step.visit act count (start + 1) items = first at hrest
              generalize Step.visit act' count (start + 1) others = second at hrest
              cases hrest with
              | ok hall => exact .ok (.cons h hall)
              | error hall => exact .error (.cons (hdone 0 _ _ h) hall)

/-- A pass over the first items of a list. -/
theorem visit {act : Nat → Step σ γ} {act' : Nat → Step τ γ} {count : Nat}
    (hitems : Places rel items others)
    (hact : ∀ k x y, k < count → rel k x y → Agree (post k) (fail k) (act k x) (act' k y))
    (hbehind : ∀ k x y, count ≤ k → k < items.length → rel k x y → post k x y)
    (hfail : ∀ k x y, rel k x y → fail k x y) (hdone : ∀ k x y, post k x y → fail k x y) :
    Agree (Places post) (Places fail) (Step.visit act count 0 items)
      (Step.visit act' count 0 others) := by
  refine visit_from hitems (fun k x y hk hxy => ?_) hbehind hfail hdone
  rw [Nat.zero_add]
  exact hact k x y hk hxy

end

end Agree

/-! ## Runs with related results -/

/-- Two runs succeed with results and states that are related, or fail with one fault and related
states. -/
inductive Meets (post : γ → δ → σ → τ → Prop) (fail : σ → τ → Prop) :
    EStateM.Result Fault σ γ → EStateM.Result Fault τ δ → Prop where
  | ok {x : γ} {y : δ} {s : σ} {t : τ} (hpost : post x y s t) : Meets post fail (.ok x s) (.ok y t)
  | error {fault : Fault} {s : σ} {t : τ} (hfail : fail s t) :
      Meets post fail (.error fault s) (.error fault t)

theorem Meets.mono {post post' : γ → δ → σ → τ → Prop} {fail : σ → τ → Prop}
    {first : EStateM.Result Fault σ γ} {second : EStateM.Result Fault τ δ}
    (hruns : Meets post fail first second) (hpost : ∀ x y s t, post x y s t → post' x y s t) :
    Meets post' fail first second := by
  cases hruns with
  | ok h => exact .ok (hpost _ _ _ _ h)
  | error h => exact .error h

end Step

end FeedForward
