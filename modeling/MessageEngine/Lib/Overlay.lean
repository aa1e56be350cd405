import Mathlib.Data.List.Induction
import Mathlib.Data.List.GetD

/-!
# Segments written over each other

A buffer is filled by writing segments into it, each at its own start, in any order; a later one
covers an earlier one. `overlay` is what a position holds in the end. When the segments are numbered
and each non-empty one starts where those with smaller numbers end, they do not overlap, and the buffer
holds their concatenation whatever the order of the writes (`overlay_eq_joined`).
-/

namespace Overlay

variable {α : Type}

structure Segment (α : Type) where
  start : Nat
  items : List α

/-- The position lies in the segment. -/
def Segment.Covers (s : Segment α) (j : Nat) : Prop := s.start ≤ j ∧ j < s.start + s.items.length

instance (s : Segment α) (j : Nat) : Decidable (s.Covers j) := inferInstanceAs (Decidable (_ ∧ _))

/-- What the segments, written in order over a buffer full of `blank`, leave at position `j`. -/
def overlay (blank : α) (segments : List (Segment α)) (j : Nat) : α :=
  segments.foldl (fun item s => if s.Covers j then s.items.getD (j - s.start) blank else item) blank

theorem overlay_append (blank : α) (segments : List (Segment α)) (s : Segment α) (j : Nat) :
    overlay blank (segments ++ [s]) j =
      if s.Covers j then s.items.getD (j - s.start) blank else overlay blank segments j := by
  rw [overlay, List.foldl_append]
  rfl

/-- A position that only one of the segments covers holds the item of that segment. -/
theorem overlay_of_covers {blank : α} {segments : List (Segment α)} {s : Segment α} {j : Nat} (hs : s ∈ segments)
    (hcovers : s.Covers j) (only : ∀ t ∈ segments, t.Covers j → t = s) :
    overlay blank segments j = s.items.getD (j - s.start) blank := by
  induction segments using List.reverseRecOn with
  | nil => cases hs
  | append_singleton segments t ih =>
    rw [overlay_append]
    by_cases ht : t.Covers j
    · rw [if_pos ht, only t (List.mem_append_right _ (List.mem_singleton_self t)) ht]
    · rw [if_neg ht]
      rw [List.mem_append, List.mem_singleton] at hs
      rcases hs with hs | rfl
      · exact ih hs fun u hu => only u (List.mem_append_left _ hu)
      · exact absurd hcovers ht

/-! ## Numbered segments -/

variable (piece : Nat → Segment α)

/-- The segments below `n`, one after the other. -/
def joined (n : Nat) : List α := (List.range n).flatMap fun k => (piece k).items

theorem joined_succ (n : Nat) : joined piece (n + 1) = joined piece n ++ (piece n).items := by
  rw [joined, List.range_succ, List.flatMap_append, List.flatMap_singleton]
  rfl

theorem joined_length_mono {k n : Nat} (h : k ≤ n) : (joined piece k).length ≤ (joined piece n).length := by
  induction n with
  | zero =>
    obtain rfl := Nat.le_zero.mp h
    exact Nat.le_refl _
  | succ n ih =>
    rcases Nat.le_succ_iff.mp h with hle | rfl
    · rw [joined_succ, List.length_append]
      exact Nat.le_trans (ih hle) (Nat.le_add_right _ _)
    · exact Nat.le_refl _

/-- Each non-empty segment below `n` starts where those before it end. -/
def Aligned (n : Nat) : Prop := ∀ k < n, (piece k).items ≠ [] → (piece k).start = (joined piece k).length

variable {piece}

/-- A position of the concatenation lies in one of the segments. -/
theorem joined_getElem {n j : Nat} (hj : j < (joined piece n).length) (blank : α) :
    ∃ k < n, (joined piece k).length ≤ j ∧ j < (joined piece k).length + (piece k).items.length ∧
      (joined piece n)[j] = (piece k).items.getD (j - (joined piece k).length) blank := by
  induction n with
  | zero => cases hj
  | succ n ih =>
    by_cases hlt : j < (joined piece n).length
    · obtain ⟨k, hk, hlo, hhi, hget⟩ := ih hlt
      refine ⟨k, Nat.lt_succ_of_lt hk, hlo, hhi, ?_⟩
      rw [← hget]
      simp only [joined_succ]
      exact List.getElem_append_left hlt
    · have hlast : j < (joined piece n).length + (piece n).items.length := by
        rw [joined_succ, List.length_append] at hj
        exact hj
      refine ⟨n, Nat.lt_succ_self n, Nat.not_lt.mp hlt, hlast, ?_⟩
      simp only [joined_succ]
      rw [List.getElem_append_right (Nat.not_lt.mp hlt), List.getD_eq_getElem _ _ (by omega)]

/-- Aligned segments, written in any order, leave their concatenation. -/
theorem overlay_eq_joined {blank : α} {segments : List (Segment α)} {n : Nat} (aligned : Aligned piece n)
    (all : ∀ k < n, (piece k).items ≠ [] → piece k ∈ segments)
    (only : ∀ s ∈ segments, ∃ k < n, s = piece k) {j : Nat} (hj : j < (joined piece n).length) :
    overlay blank segments j = (joined piece n)[j] := by
  obtain ⟨k, hk, hlo, hhi, hget⟩ := joined_getElem hj blank
  have hnonempty : (piece k).items ≠ [] := by
    intro hnil
    rw [hnil, List.length_nil] at hhi
    omega
  have hstart := aligned k hk hnonempty
  have hcovers : (piece k).Covers j := ⟨by omega, by omega⟩
  rw [hget, overlay_of_covers (all k hk hnonempty) hcovers, hstart]
  intro t ht hcover
  obtain ⟨i, hi, rfl⟩ := only t ht
  have hne : (piece i).items ≠ [] := by
    intro hnil
    have hcov := hcover.2
    rw [hnil, List.length_nil] at hcov
    have := hcover.1
    omega
  have hat := aligned i hi hne
  have hcov := hcover
  unfold Segment.Covers at hcov
  -- Two segments that start where the earlier ones end do not overlap.
  rcases Nat.lt_trichotomy i k with hik | rfl | hki
  · have hle := joined_length_mono piece (Nat.succ_le_of_lt hik)
    rw [Nat.succ_eq_add_one, joined_succ, List.length_append] at hle
    omega
  · rfl
  · have hle := joined_length_mono piece (Nat.succ_le_of_lt hki)
    rw [Nat.succ_eq_add_one, joined_succ, List.length_append] at hle
    omega

end Overlay
