import Mathlib.Data.List.FinRange

/-!
# Checked computations and bounded loops

A computation that may stop at a failed check is an `Except`. This module carries the three
tools every such computation is reasoned about with: how a bind succeeds (`bind_eq_ok`), when a
check lets it pass (`ensure_eq_ok`) and how it fails (`FailsOnly`), and the two rules of a loop over the indices of a fixed
array (`eachIndex_total`, `eachIndex_inv`).

The total rule gives a result and the invariant at once. The partial rule assumes the loop
succeeded and is what a fault analysis needs: a loop that ends has passed every check it met.
-/

namespace Outcome

variable {ε α β σ : Type}

@[simp] theorem ok_bind (a : α) (f : α → Except ε β) : (Except.ok a >>= f) = f a := rfl

@[simp] theorem error_bind (e : ε) (f : α → Except ε β) :
    ((Except.error e : Except ε α) >>= f) = .error e := rfl

@[simp] theorem pure_eq_ok (a : α) : (pure a : Except ε α) = .ok a := rfl

/-- A bind succeeds exactly when both halves do. -/
theorem bind_eq_ok {x : Except ε α} {f : α → Except ε β} {b : β} :
    (x >>= f) = .ok b ↔ ∃ a, x = .ok a ∧ f a = .ok b := by
  cases x with
  | ok a => simp
  | error e => simp

/-- A bind fails in its first half, or in its second after the first succeeded. -/
theorem bind_eq_error {x : Except ε α} {f : α → Except ε β} {e : ε} :
    (x >>= f) = .error e ↔ x = .error e ∨ ∃ a, x = .ok a ∧ f a = .error e := by
  cases x with
  | ok a => simp
  | error e' => simp

/-- Two branches that continue alike are one branch, continued. -/
theorem ite_bind {c : Prop} [Decidable c] {x y : Except ε α} {f : α → Except ε β} :
    (if c then x >>= f else y >>= f) = (if c then x else y) >>= f := by
  split
  · rfl
  · rfl

/-- Stop with `e` unless the condition holds. -/
def ensure (e : ε) (cond : Prop) [Decidable cond] : Except ε Unit :=
  if cond then .ok () else .error e

@[simp] theorem ensure_pos {e : ε} {cond : Prop} [Decidable cond] (h : cond) :
    ensure e cond = .ok () := if_pos h

@[simp] theorem ensure_neg {e : ε} {cond : Prop} [Decidable cond] (h : ¬ cond) :
    ensure e cond = .error e := if_neg h

theorem ensure_eq_ok {e : ε} {cond : Prop} [Decidable cond] {u : Unit} :
    ensure e cond = .ok u ↔ cond := by
  unfold ensure
  split
  · simp_all
  · simp_all

/-- A passed check followed by a computation is that computation. -/
theorem ensure_bind_eq_ok {e : ε} {cond : Prop} [Decidable cond] {f : Unit → Except ε β} {b : β} :
    (ensure e cond >>= f) = .ok b ↔ cond ∧ f () = .ok b := by
  rw [bind_eq_ok]
  constructor
  · rintro ⟨_, hc, hf⟩
    exact ⟨ensure_eq_ok.mp hc, hf⟩
  · rintro ⟨hc, hf⟩
    exact ⟨(), ensure_eq_ok.mpr hc, hf⟩

/-- The computation succeeds, and its result has the property. -/
def Succeeds (x : Except ε α) (Q : α → Prop) : Prop :=
  match x with
  | .ok a => Q a
  | .error _ => False

instance {x : Except ε α} {Q : α → Prop} [DecidablePred Q] : Decidable (Succeeds x Q) := by
  unfold Succeeds
  split
  · infer_instance
  · infer_instance

theorem Succeeds.exists {x : Except ε α} {Q : α → Prop} (h : Succeeds x Q) : ∃ a, x = .ok a ∧ Q a := by
  unfold Succeeds at h
  split at h
  case h_1 a => exact ⟨a, rfl, h⟩
  case h_2 _ => exact h.elim

/-! ## How a computation fails -/

/-- The computation fails only in ways that have the property. -/
def FailsOnly (P : ε → Prop) (x : Except ε α) : Prop := ∀ e, x = .error e → P e

variable {P : ε → Prop}

theorem FailsOnly.ok (a : α) : FailsOnly P (.ok a) := fun _ h => nomatch h

theorem FailsOnly.ensure {e : ε} {cond : Prop} [Decidable cond] (h : P e) : FailsOnly P (ensure e cond) := by
  intro e' he
  by_cases hcond : cond
  · rw [ensure_pos hcond] at he
    cases he
  · rw [ensure_neg hcond] at he
    cases he
    exact h

theorem FailsOnly.bind {x : Except ε α} {f : α → Except ε β} (hx : FailsOnly P x)
    (hf : ∀ a, x = .ok a → FailsOnly P (f a)) : FailsOnly P (x >>= f) := by
  intro e h
  rcases bind_eq_error.mp h with herr | ⟨a, hok, herr⟩
  · exact hx e herr
  · exact hf a hok e herr

theorem FailsOnly.ite {c : Prop} [Decidable c] {x y : Except ε α} (hx : c → FailsOnly P x)
    (hy : ¬ c → FailsOnly P y) : FailsOnly P (if c then x else y) := by
  split
  case isTrue h => exact hx h
  case isFalse h => exact hy h

/-- What no round of a loop changes, the loop does not change. -/
theorem foldlM_view {γ : Type} {f : σ → α → Except ε σ} (view : σ → γ)
    (round : ∀ s a s', f s a = .ok s' → view s' = view s) {xs : List α} {s s' : σ}
    (h : xs.foldlM f s = .ok s') : view s' = view s := by
  induction xs generalizing s with
  | nil =>
    cases h
    rfl
  | cons x xs ih =>
    rw [List.foldlM_cons] at h
    obtain ⟨s₁, hround, h⟩ := bind_eq_ok.mp h
    rw [ih h, round s x s₁ hround]

/-- The loop rule for a list that is worked off: the invariant is about what is left of it. -/
theorem foldlM_rest {I : List α → σ → Prop} {f : σ → α → Except ε σ}
    (round : ∀ a rest s s', I (a :: rest) s → f s a = .ok s' → I rest s') {xs : List α} {s s' : σ}
    (start : I xs s) (h : xs.foldlM f s = .ok s') : I [] s' := by
  induction xs generalizing s with
  | nil =>
    cases h
    exact start
  | cons x xs ih =>
    rw [List.foldlM_cons] at h
    obtain ⟨s₁, hround, h⟩ := bind_eq_ok.mp h
    exact ih (round x xs s s₁ start hround) h

/-! ## Loops over the indices of a fixed array -/

/-- Run `body` at every index below `n`, in order, threading a state. -/
def eachIndex (n : Nat) (body : Fin n → σ → Except ε σ) (s : σ) : Except ε σ :=
  (List.finRange n).foldlM (fun s i => body i s) s

/-- The head of what is left of the index list after `k` rounds is the index `k`. -/
private theorem finRange_drop_cons {n k : Nat} {i : Fin n} {is : List (Fin n)}
    (his : i :: is = (List.finRange n).drop k) : (i : Nat) = k ∧ is = (List.finRange n).drop (k + 1) := by
  have hk : k < (List.finRange n).length := by
    by_contra hge
    rw [List.drop_eq_nil_of_le (by omega)] at his
    cases his
  rw [List.drop_eq_getElem_cons hk] at his
  obtain ⟨hi, htail⟩ := List.cons.inj his
  exact ⟨by rw [hi]; simp, htail⟩

private theorem foldlM_total {n : Nat} {body : Fin n → σ → Except ε σ} {Inv : Nat → σ → Prop}
    (step : ∀ (i : Fin n) (s : σ), Inv i s → ∃ s', body i s = .ok s' ∧ Inv (i + 1) s') :
    ∀ (k : Nat) (is : List (Fin n)) (s : σ), is = (List.finRange n).drop k → Inv k s →
      ∃ s', is.foldlM (fun s i => body i s) s = .ok s' ∧ Inv (k + is.length) s' := by
  intro k is
  induction is generalizing k with
  | nil => exact fun s _ h => ⟨s, rfl, h⟩
  | cons i is ih =>
    intro s his h
    obtain ⟨hval, htail⟩ := finRange_drop_cons his
    obtain ⟨s₁, hs₁, hinv⟩ := step i s (hval ▸ h)
    obtain ⟨s', hs', hfin⟩ := ih (k + 1) s₁ htail (hval ▸ hinv)
    refine ⟨s', ?_, ?_⟩
    · rw [List.foldlM_cons, hs₁, ok_bind, hs']
    · rw [List.length_cons, Nat.add_comm is.length, ← Nat.add_assoc]
      exact hfin

private theorem foldlM_inv {n : Nat} {body : Fin n → σ → Except ε σ} {Inv : Nat → σ → Prop}
    (step : ∀ (i : Fin n) (s s' : σ), Inv i s → body i s = .ok s' → Inv (i + 1) s') {s' : σ} :
    ∀ (k : Nat) (is : List (Fin n)) (s : σ), is = (List.finRange n).drop k → Inv k s →
      is.foldlM (fun s i => body i s) s = .ok s' → Inv (k + is.length) s' := by
  intro k is
  induction is generalizing k with
  | nil =>
    intro s _ h hs
    cases hs
    exact h
  | cons i is ih =>
    intro s his h hs
    obtain ⟨hval, htail⟩ := finRange_drop_cons his
    rw [List.foldlM_cons] at hs
    obtain ⟨s₁, hs₁, hrest⟩ := bind_eq_ok.mp hs
    have hfin := ih (k + 1) s₁ htail (hval ▸ step i s s₁ (hval ▸ h) hs₁) hrest
    rw [List.length_cons, Nat.add_comm is.length, ← Nat.add_assoc]
    exact hfin

/-- The total loop rule: an invariant each round re-establishes holds at the end, and the loop
ends. -/
theorem eachIndex_total {n : Nat} {body : Fin n → σ → Except ε σ} (Inv : Nat → σ → Prop) (s : σ)
    (start : Inv 0 s)
    (step : ∀ (i : Fin n) (s : σ), Inv i s → ∃ s', body i s = .ok s' ∧ Inv (i + 1) s') :
    ∃ s', eachIndex n body s = .ok s' ∧ Inv n s' := by
  obtain ⟨s', hs, hinv⟩ := foldlM_total step 0 (List.finRange n) s rfl start
  refine ⟨s', hs, ?_⟩
  simpa using hinv

/-- The failing loop rule: when every round keeps the invariant or stops with `f`, and no state
satisfies the invariant at the end, the loop stops with `f`. -/
theorem eachIndex_error {n : Nat} {body : Fin n → σ → Except ε σ} (Inv : Nat → σ → Prop) (s : σ)
    {f : ε} (start : Inv 0 s)
    (step : ∀ (i : Fin n) (s : σ), Inv i s →
      (∃ s', body i s = .ok s' ∧ Inv (i + 1) s') ∨ body i s = .error f)
    (never : ∀ s, ¬ Inv n s) : eachIndex n body s = .error f := by
  have hfold : ∀ (k : Nat) (is : List (Fin n)) (s : σ), is = (List.finRange n).drop k → Inv k s →
      is.foldlM (fun s i => body i s) s = .error f ∨
        ∃ s', is.foldlM (fun s i => body i s) s = .ok s' ∧ Inv (k + is.length) s' := by
    intro k is
    induction is generalizing k with
    | nil => exact fun s _ h => .inr ⟨s, rfl, h⟩
    | cons i is ih =>
      intro s his h
      obtain ⟨hval, htail⟩ := finRange_drop_cons his
      rw [List.foldlM_cons, List.length_cons, Nat.add_comm is.length, ← Nat.add_assoc]
      rcases step i s (hval ▸ h) with ⟨s₁, hs₁, hinv⟩ | herr
      · rw [hs₁, ok_bind]
        exact ih (k + 1) s₁ htail (hval ▸ hinv)
      · rw [herr, error_bind]
        exact .inl rfl
  rcases hfold 0 (List.finRange n) s rfl start with herr | ⟨s', _, hinv⟩
  · exact herr
  · rw [List.length_finRange, Nat.zero_add] at hinv
    exact absurd hinv (never s')

/-- The partial loop rule: an invariant each successful round keeps holds at the end of a loop
that ended. -/
theorem eachIndex_inv {n : Nat} {body : Fin n → σ → Except ε σ} {I : Nat → σ → Prop} {s s' : σ}
    (ended : eachIndex n body s = .ok s') (start : I 0 s)
    (step : ∀ (i : Fin n) (s s' : σ), I i s → body i s = .ok s' → I (i + 1) s') : I n s' := by
  simpa using foldlM_inv step 0 (List.finRange n) s rfl start ended

end Outcome
