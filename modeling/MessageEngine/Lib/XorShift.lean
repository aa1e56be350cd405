import Mathlib.Data.Nat.Count
import Mathlib.Data.Nat.Periodic
import Mathlib.Data.Int.CardIntervalMod
import Mathlib.Logic.Function.Basic

/-!
# Random words and unbiased remainders

A xorshift generator mixes a word with shifted copies of itself. One such step loses nothing: read from
the end the shift comes from, every bit of the word follows from the bits before it
(`xor_shiftLeft_injective`, `xor_shiftRight_injective`).

A random number below `r` is a remainder of a random word. Of the `N` words, the first `N % r` are left
out; the others are as many for each remainder (`card_residue`).
-/

namespace XorShift

variable {w k : ℕ}

/-- A word and its left shift determine each other: bit `i` follows from the bits below it. -/
theorem xor_shiftLeft_injective (hk : 0 < k) : Function.Injective fun x : BitVec w => x ^^^ x <<< k := by
  intro x y h
  apply BitVec.eq_of_getLsbD_eq
  intro i
  induction i using Nat.strong_induction_on with
  | _ i ih =>
    intro hi
    have hbit := congrArg (fun z : BitVec w => z.getLsbD i) h
    simp only [BitVec.getLsbD_xor, BitVec.getLsbD_shiftLeft] at hbit
    by_cases hlt : i < k
    · simpa [hlt] using hbit
    · rw [ih (i - k) (by omega) (by omega)] at hbit
      exact Bool.xor_left_inj.mp hbit

/-- And so do a word and its right shift: bit `i` follows from the bits above it. -/
theorem xor_shiftRight_injective (hk : 0 < k) : Function.Injective fun x : BitVec w => x ^^^ x >>> k := by
  intro x y h
  apply BitVec.eq_of_getLsbD_eq
  have habove : ∀ d i, i + d = w → x.getLsbD i = y.getLsbD i := by
    intro d
    induction d using Nat.strong_induction_on with
    | _ d ih =>
      intro i hi
      have hbit := congrArg (fun z : BitVec w => z.getLsbD i) h
      simp only [BitVec.getLsbD_xor, BitVec.getLsbD_ushiftRight] at hbit
      have hfar : x.getLsbD (k + i) = y.getLsbD (k + i) := by
        by_cases hlt : k + i ≤ w
        · exact ih (d - k) (by omega) (k + i) (by omega)
        · rw [BitVec.getLsbD_of_ge _ _ (by omega), BitVec.getLsbD_of_ge _ _ (by omega)]
      rw [hfar] at hbit
      exact Bool.xor_left_inj.mp hbit
  exact fun i hi => habove (w - i) i (by omega)

/-- Of the numbers from `N % r` up to `N`, every remainder has as many. -/
theorem card_residue {N r : ℕ} (hr : 0 < r) (c : ℕ) :
    ((Finset.Ico (N % r) N).filter (· ≡ c [MOD r])).card = N / r := by
  have hperiod : Function.Periodic (· ≡ c [MOD r]) (r * (N / r)) := by
    intro x
    apply propext
    change (x + r * (N / r)) % r = c % r ↔ x % r = c % r
    rw [Nat.add_mul_mod_self_left]
  have hcard := Nat.filter_Ico_card_eq_of_periodic (N % r) (r * (N / r)) (· ≡ c [MOD r]) hperiod
  rw [Nat.mod_add_div, Nat.count_modEq_card _ hr, Nat.mul_mod_right, if_neg (Nat.not_lt_zero _),
    Nat.mul_div_cancel_left _ hr] at hcard
  exact hcard

end XorShift
