import MessageEngine.Core.ImpairmentEngine
import MessageEngine.Lib.Run
import MessageEngine.Lib.XorShift
import Mathlib.Data.Fintype.EquivFin
import Mathlib.Logic.Function.Iterate

/-!
# The random generator

The generator is a walk over the 64-bit words: every draw replaces the state by the next one and returns
it. The walk permutes the words other than zero, so it never gets to zero and its assertions hold.

A number from a range is the remainder of a draw. A draw below the threshold is rejected; the threshold is
what is left of the words when whole ranges have been taken from them, so the draws that remain favour no
remainder.

## What is proved

- `nextState_bijective`, `next_spec`: the step is a permutation of the words other than zero, and `next`
  takes it;
- `nextRange_exact`: `next_range` returns, its result is in the range, nothing wraps and the threshold is
  the remainder of `2 ^ 64`;
- `prng_correct`: both.
-/

namespace MessageEngine

open Outcome

namespace PrngEngine

variable {p : PrngEngine} {lo hi : UInt32}

/-! ## The walk -/

/-- The word after `s`. -/
def xorshift (s : UInt64) : UInt64 :=
  let s := s ^^^ (s <<< 13)
  let s := s ^^^ (s >>> 7)
  s ^^^ (s <<< 17)

theorem toBitVec_xorshift (s : UInt64) : (xorshift s).toBitVec =
    ((fun x : BitVec 64 => x ^^^ x <<< 17) ∘ (fun x : BitVec 64 => x ^^^ x >>> 7) ∘
      fun x : BitVec 64 => x ^^^ x <<< 13) s.toBitVec := rfl

/-- Three steps that lose nothing. -/
theorem xorshift_injective : Function.Injective xorshift := by
  intro x y h
  have hbits := congrArg UInt64.toBitVec h
  rw [toBitVec_xorshift, toBitVec_xorshift] at hbits
  apply UInt64.toBitVec_inj.mp
  have first : Function.Injective fun x : BitVec 64 => x ^^^ x <<< 13 :=
    XorShift.xor_shiftLeft_injective (Nat.succ_pos 12)
  have second : Function.Injective fun x : BitVec 64 => x ^^^ x >>> 7 :=
    XorShift.xor_shiftRight_injective (Nat.succ_pos 6)
  have third : Function.Injective fun x : BitVec 64 => x ^^^ x <<< 17 :=
    XorShift.xor_shiftLeft_injective (Nat.succ_pos 16)
  exact (third.comp (second.comp first)) hbits

theorem xorshift_ne_zero {s : UInt64} (h : s ≠ 0) : xorshift s ≠ 0 := by
  intro hz
  apply h
  apply xorshift_injective
  rw [hz]
  rfl

theorem iterate_ne_zero {s : UInt64} (h : s ≠ 0) (k : ℕ) : xorshift^[k] s ≠ 0 := by
  induction k with
  | zero => exact h
  | succ k ih =>
    rw [Function.iterate_succ_apply']
    exact xorshift_ne_zero ih

/-- The walk on the words other than zero. -/
def nextState (s : {s : UInt64 // s ≠ 0}) : {s : UInt64 // s ≠ 0} := ⟨xorshift s, xorshift_ne_zero s.2⟩

theorem nextState_bijective : Function.Bijective nextState := by
  have hfinite : Finite UInt64 := Finite.of_injective UInt64.toFin fun x y h => UInt64.toFin_inj.mp h
  apply Finite.injective_iff_bijective.mp
  intro x y h
  exact Subtype.ext (xorshift_injective (congrArg Subtype.val h))

theorem next_spec (h : p.state ≠ 0) : p.next = .ok (xorshift p.state, ⟨xorshift p.state⟩) := by
  have hnext := xorshift_ne_zero h
  unfold next
  simp only [neverCompiledOutAssert, ensure_pos h, ok_bind]
  exact congrArg (· >>= _) (ensure_pos hnext)

theorem seed_ne_zero (s : UInt64) : (seed s).state ≠ 0 := by
  unfold seed
  split
  case isTrue _ => decide
  case isFalse h => exact h

/-- From any state but zero, every number of draws succeeds. -/
theorem draws_succeed (h : p.state ≠ 0) (n : ℕ) :
    ∃ raws p', Run.runAll (fun _ : Unit => next) (List.replicate n ()) p = .ok (raws, p') ∧ p'.state ≠ 0 := by
  induction n generalizing p with
  | zero => exact ⟨[], p, rfl, h⟩
  | succ n ih =>
    obtain ⟨raws, p', hrun, hstate⟩ := ih (p := ⟨xorshift p.state⟩) (xorshift_ne_zero h)
    refine ⟨xorshift p.state :: raws, p', ?_, hstate⟩
    simp only [List.replicate_succ, Run.runAll, next_spec h, ok_bind, hrun, pure_eq_ok]

/-! ## A number from a range -/

/-- The `k`-th draw is the first that is not rejected, or the last. -/
structure Draws (s threshold : UInt64) (attempts k : ℕ) : Prop where
  pos : 1 ≤ k
  le : k ≤ attempts
  rejected : ∀ j, 1 ≤ j → j < k → xorshift^[j] s < threshold
  taken : threshold ≤ xorshift^[k] s ∨ k = attempts

theorem draw_spec (threshold : UInt64) (attempts : ℕ) (raw : UInt64) (h : p.state ≠ 0) :
    ∃ k, Draws p.state threshold (attempts + 1) k ∧
      nextRange.draw threshold (attempts + 1) raw p = .ok (xorshift^[k] p.state, ⟨xorshift^[k] p.state⟩) := by
  induction attempts generalizing p raw with
  | zero =>
    refine ⟨1, ⟨Nat.le_refl 1, Nat.le_refl 1, fun j hj hlt => absurd hj (Nat.not_le.mpr hlt), .inr rfl⟩, ?_⟩
    simp only [nextRange.draw, next_spec h, ok_bind, pure_eq_ok, ite_self]
    rfl
  | succ attempts ih =>
    rw [nextRange.draw, next_spec h, ok_bind]
    by_cases hge : xorshift p.state ≥ threshold
    · refine ⟨1, ⟨Nat.le_refl 1, Nat.le_add_left 1 _, fun j hj hlt => absurd hj (Nat.not_le.mpr hlt), .inl hge⟩, ?_⟩
      simp only [if_pos hge]
      rfl
    · obtain ⟨k, draws, hdraw⟩ := ih (p := ⟨xorshift p.state⟩) (xorshift p.state) (xorshift_ne_zero h)
      have hiter (j : ℕ) : xorshift^[j] (xorshift p.state) = xorshift^[j + 1] p.state :=
        (Function.iterate_succ_apply xorshift j p.state).symm
      simp only [hiter] at hdraw
      refine ⟨k + 1, ⟨Nat.le_add_left 1 k, Nat.succ_le_succ draws.le, fun j hj hlt => ?_, ?_⟩, ?_⟩
      · obtain ⟨i, rfl⟩ : ∃ i, j = i + 1 := ⟨j - 1, by omega⟩
        by_cases hi : i = 0
        · rw [hi]
          exact UInt64.not_le.mp hge
        · rw [← hiter]
          exact draws.rejected i (Nat.pos_of_ne_zero hi) (Nat.lt_of_succ_lt_succ hlt)
      · rcases draws.taken with haccept | hlast
        · rw [hiter] at haccept
          exact .inl haccept
        · exact .inr (congrArg (· + 1) hlast)
      · simp only [if_neg hge]
        exact hdraw

theorem range64_toNat (h : lo ≤ hi) : (nextRange.range64 lo hi).toNat = hi.toNat - lo.toNat + 1 := by
  have hle := UInt32.le_iff_toNat_le.mp h
  have hlt : hi.toNat < 4294967296 := hi.toNat_lt
  have hle64 : lo.toUInt64 ≤ hi.toUInt64 := by
    rw [UInt64.le_iff_toNat_le, UInt32.toNat_toUInt64, UInt32.toNat_toUInt64]
    exact hle
  rw [nextRange.range64, UInt64.toNat_add, UInt64.toNat_sub_of_le _ _ hle64, UInt32.toNat_toUInt64,
    UInt32.toNat_toUInt64]
  apply Nat.mod_eq_of_lt
  change hi.toNat - lo.toNat + 1 < 18446744073709551616
  omega

/-- What a call of `next_range` computes: the range and the count of the words above it without wrapping, a
threshold that leaves every remainder as many words, and a result in the range. -/
structure RangeExact (p : PrngEngine) (lo hi : UInt32) : Prop where
  range : (nextRange.range64 lo hi).toNat = hi.toNat - lo.toNat + 1
  above : (0xFFFFFFFFFFFFFFFF - nextRange.range64 lo hi + 1).toNat = 2 ^ 64 - (hi.toNat - lo.toNat + 1)
  threshold : (nextRange.threshold (nextRange.range64 lo hi)).toNat = 2 ^ 64 % (hi.toNat - lo.toNat + 1)
  unbiased : ∀ c, ((Finset.Ico (nextRange.threshold (nextRange.range64 lo hi)).toNat (2 ^ 64)).filter
    (· ≡ c [MOD hi.toNat - lo.toNat + 1])).card = 2 ^ 64 / (hi.toNat - lo.toNat + 1)
  returns : ∃ k result, Draws p.state (nextRange.threshold (nextRange.range64 lo hi)) 64 k ∧
    p.nextRange lo hi = .ok (result, ⟨xorshift^[k] p.state⟩) ∧
    result.toNat = lo.toNat + (xorshift^[k] p.state).toNat % (hi.toNat - lo.toNat + 1) ∧
    lo ≤ result ∧ result ≤ hi

theorem above_toNat (h : lo ≤ hi) : (0xFFFFFFFFFFFFFFFF - nextRange.range64 lo hi + 1).toNat =
    2 ^ 64 - (hi.toNat - lo.toNat + 1) := by
  have hrange := range64_toNat h
  have hlt : hi.toNat < 4294967296 := hi.toNat_lt
  have hle : nextRange.range64 lo hi ≤ 0xFFFFFFFFFFFFFFFF :=
    UInt64.le_iff_toNat_le.mpr (Nat.lt_succ_iff.mp (nextRange.range64 lo hi).toNat_lt)
  have hmax : (0xFFFFFFFFFFFFFFFF : UInt64).toNat = 18446744073709551615 := rfl
  rw [UInt64.toNat_add, UInt64.toNat_sub_of_le _ _ hle, hrange, hmax]
  change (18446744073709551615 - (hi.toNat - lo.toNat + 1) + 1) % 18446744073709551616 = _
  omega

theorem threshold_toNat (h : lo ≤ hi) : (nextRange.threshold (nextRange.range64 lo hi)).toNat =
    2 ^ 64 % (hi.toNat - lo.toNat + 1) := by
  have hlt : hi.toNat < 4294967296 := hi.toNat_lt
  have hle : hi.toNat - lo.toNat + 1 ≤ 2 ^ 64 := by omega
  rw [nextRange.threshold, UInt64.toNat_mod, above_toNat h, range64_toNat h]
  exact (Nat.mod_eq_sub_mod hle).symm

/-- The result is the low end plus a remainder. -/
theorem offset_toNat (h : lo ≤ hi) (raw : UInt64) :
    (lo + (raw % nextRange.range64 lo hi).toUInt32).toNat = lo.toNat + raw.toNat % (hi.toNat - lo.toNat + 1) := by
  have hlt : hi.toNat < 4294967296 := hi.toNat_lt
  have hle := UInt32.le_iff_toNat_le.mp h
  have hrest : raw.toNat % (hi.toNat - lo.toNat + 1) < hi.toNat - lo.toNat + 1 := Nat.mod_lt _ (Nat.succ_pos _)
  rw [UInt32.toNat_add, UInt64.toNat_toUInt32, UInt64.toNat_mod, range64_toNat h]
  change (lo.toNat + raw.toNat % (hi.toNat - lo.toNat + 1) % 4294967296) % 4294967296 = _
  omega

theorem nextRange_exact (hp : p.state ≠ 0) (h : lo ≤ hi) : RangeExact p lo hi := by
  refine ⟨range64_toNat h, above_toNat h, threshold_toNat h, fun c => ?_, ?_⟩
  · rw [threshold_toNat h]
    exact XorShift.card_residue (Nat.succ_pos _) c
  · obtain ⟨k, draws, hdraw⟩ := draw_spec (nextRange.threshold (nextRange.range64 lo hi)) 63 0 hp
    have hresult := offset_toNat h (xorshift^[k] p.state)
    have hrest : (xorshift^[k] p.state).toNat % (hi.toNat - lo.toNat + 1) < hi.toNat - lo.toNat + 1 :=
      Nat.mod_lt _ (Nat.succ_pos _)
    have hle := UInt32.le_iff_toNat_le.mp h
    have hlow : lo ≤ lo + (xorshift^[k] p.state % nextRange.range64 lo hi).toUInt32 := by
      rw [UInt32.le_iff_toNat_le, hresult]
      exact Nat.le_add_right _ _
    have hhigh : lo + (xorshift^[k] p.state % nextRange.range64 lo hi).toUInt32 ≤ hi := by
      rw [UInt32.le_iff_toNat_le, hresult]
      omega
    have hpos : nextRange.range64 lo hi > 0 := by
      rw [gt_iff_lt, UInt64.lt_iff_toNat_lt, range64_toNat h]
      exact Nat.succ_pos _
    refine ⟨k, _, draws, ?_, hresult, hlow, hhigh⟩
    unfold nextRange
    simp only [neverCompiledOutAssert, ensure_pos hp, ensure_pos (show hi ≥ lo from h), ensure_pos hpos, hdraw,
      ok_bind, ensure_pos (And.intro (show _ ≥ lo from hlow) hhigh), pure_eq_ok]

/-- The generator walks the words other than zero and never stops, from whatever seed; and from every word
but zero a number from a range is exact. -/
theorem prng_correct :
    (Function.Bijective nextState ∧ ∀ s, next ⟨s.val⟩ = .ok ((nextState s).val, ⟨(nextState s).val⟩)) ∧
      (∀ s n, ∃ raws p, Run.runAll (fun _ : Unit => next) (List.replicate n ()) (seed s) = .ok (raws, p) ∧
        p.state ≠ 0) ∧
      ∀ (p : PrngEngine) (lo hi : UInt32), p.state ≠ 0 → lo ≤ hi → RangeExact p lo hi := by
  refine ⟨⟨nextState_bijective, fun s => next_spec s.2⟩, fun s n => draws_succeed (seed_ne_zero s) n, ?_⟩
  intro p lo hi hp h
  exact nextRange_exact hp h

/-- All of the 32-bit numbers: the range is one more than fits into 32 bits, and nothing is rejected. -/
theorem prng_correct_widest : RangeExact (seed 42) 0 0xFFFFFFFF :=
  prng_correct.2.2 (seed 42) 0 0xFFFFFFFF (by decide) (by decide)

end PrngEngine

end MessageEngine
