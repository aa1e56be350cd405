import MessageEngine.Lib.Run
import Mathlib.Data.List.Forall2

/-!
# Two systems on the same inputs

Two step functions, on different states, run side by side. When one step of both, from related
states, returns on both sides with related outputs and states or stops on both sides, so do whole
runs (`lockstep_runAll`).
-/

namespace Run

variable {ε ι σ τ ο ο' : Type}

/-- Both sides return, related, or both stop. -/
inductive Lockstep (out : ο → ο' → Prop) (R : σ → τ → Prop) :
    Except ε (ο × σ) → Except ε (ο' × τ) → Prop
  | ok {o : ο} {o' : ο'} {s : σ} {t : τ} (outputs : out o o') (states : R s t) :
      Lockstep out R (.ok (o, s)) (.ok (o', t))
  | error {f f' : ε} : Lockstep out R (.error f) (.error f')

theorem Lockstep.mono {out out₁ : ο → ο' → Prop} {R R₁ : σ → τ → Prop} {x : Except ε (ο × σ)}
    {y : Except ε (ο' × τ)} (h : Lockstep out R x y) (hout : ∀ o o', out o o' → out₁ o o')
    (hR : ∀ s t, R s t → R₁ s t) : Lockstep out₁ R₁ x y := by
  cases h with
  | ok outputs states => exact .ok (hout _ _ outputs) (hR _ _ states)
  | error => exact .error

/-- Steps in lockstep make runs in lockstep. -/
theorem lockstep_runAll {step : ι → σ → Except ε (ο × σ)} {step' : ι → τ → Except ε (ο' × τ)}
    {cond : σ → ι → Prop} {out : ο → ο' → Prop} {R : σ → τ → Prop}
    (sim : ∀ s t i, R s t → cond s i → Lockstep out R (step i s) (step' i t))
    (is : List ι) (s : σ) (t : τ) (start : R s t) (along : Along step cond is s) :
    Lockstep (List.Forall₂ out) R (runAll step is s) (runAll step' is t) := by
  induction is generalizing s t with
  | nil => exact .ok .nil start
  | cons i is ih =>
    obtain ⟨hcond, hrest⟩ := along_cons.mp along
    have hsim := sim s t i start hcond
    rw [runAll, runAll]
    cases hs : step i s with
    | error f =>
      cases ht : step' i t with
      | error f' => exact .error
      | ok r =>
        rw [hs, ht] at hsim
        cases hsim
    | ok r =>
      obtain ⟨o, s'⟩ := r
      cases ht : step' i t with
      | error f' =>
        rw [hs, ht] at hsim
        cases hsim
      | ok r' =>
        obtain ⟨o', t'⟩ := r'
        rw [hs, ht] at hsim
        cases hsim with
        | ok outputs states =>
          simp only [Outcome.ok_bind]
          have hruns := ih s' t' states (hrest o s' hs)
          generalize runAll step is s' = x at hruns
          generalize runAll step' is t' = y at hruns
          cases hruns with
          | ok outputs' states' => exact .ok (.cons outputs outputs') states'
          | error => exact .error

end Run
