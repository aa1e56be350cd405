import Mathlib.Data.UInt
import Mathlib.Logic.Function.Iterate
import Mathlib.Data.List.Nodup

/-!
# Counters that skip zero

Identifiers are drawn from a counter of fixed width that wraps around and leaves out zero, which means "no
identifier". Drawing goes through all other values before it comes back, so fewer draws than there are of
these give as many identifiers (`next_iterate_inj`).
-/

namespace Counter

/-- The values a 64-bit counter goes through. -/
def period : ℕ := 2 ^ 64 - 1

/-- The value after `c`: the next one, with zero left out. -/
def next (c : UInt64) : UInt64 := if c + 1 = 0 then 1 else c + 1

variable {c : UInt64}

theorem next_ne_zero (c : UInt64) : next c ≠ 0 := by
  unfold next
  split
  case isTrue _ => decide
  case isFalse h => exact h

theorem next_toNat (h : c ≠ 0) : (next c).toNat - 1 = (c.toNat - 1 + 1) % period := by
  have hpos : c.toNat ≠ 0 := fun hzero => h (UInt64.toNat_inj.mp hzero)
  have hlt : c.toNat < 2 ^ 64 := c.toNat_lt
  have hadd : (c + 1).toNat = (c.toNat + 1) % 2 ^ 64 := UInt64.toNat_add c 1
  unfold next period
  split
  case isTrue hwrap =>
    rw [hwrap] at hadd
    have hzero : (0 : UInt64).toNat = 0 := rfl
    have hone : (1 : UInt64).toNat = 1 := rfl
    rw [hone]
    omega
  case isFalse hstays =>
    have hne : (c + 1).toNat ≠ 0 := fun hzero => hstays (UInt64.toNat_inj.mp hzero)
    omega

/-- Where the counter stands after `n` draws. -/
theorem next_iterate_toNat (h : c ≠ 0) (n : ℕ) :
    next^[n] c ≠ 0 ∧ (next^[n] c).toNat - 1 = (c.toNat - 1 + n) % period := by
  induction n with
  | zero =>
    have hlt : c.toNat < 2 ^ 64 := c.toNat_lt
    have hpos : c.toNat ≠ 0 := fun hzero => h (UInt64.toNat_inj.mp hzero)
    refine ⟨h, ?_⟩
    rw [Function.iterate_zero_apply]
    unfold period
    omega
  | succ n ih =>
    obtain ⟨hne, hvalue⟩ := ih
    rw [Function.iterate_succ_apply']
    refine ⟨next_ne_zero _, ?_⟩
    rw [next_toNat hne, hvalue]
    unfold period
    omega

/-- Two of fewer draws than there are values are different. -/
theorem next_iterate_inj (h : c ≠ 0) {i j : ℕ} (hi : i < period) (hj : j < period)
    (heq : next^[i] c = next^[j] c) : i = j := by
  have hvalue := (next_iterate_toNat h i).2
  rw [heq, (next_iterate_toNat h j).2] at hvalue
  unfold period at hi hj hvalue
  omega

/-- The first `n` values drawn. -/
def drawn (c : UInt64) (n : ℕ) : List UInt64 := (List.range n).map fun i => next^[i] c

theorem drawn_succ (c : UInt64) (n : ℕ) : drawn c (n + 1) = drawn c n ++ [next^[n] c] := by
  rw [drawn, List.range_succ, List.map_append]
  rfl

theorem drawn_nodup (h : c ≠ 0) {n : ℕ} (hn : n ≤ period) : (drawn c n).Nodup := by
  apply List.Nodup.map_on _ List.nodup_range
  intro i hi j hj heq
  rw [List.mem_range] at hi hj
  exact next_iterate_inj h (Nat.lt_of_lt_of_le hi hn) (Nat.lt_of_lt_of_le hj hn) heq

end Counter
