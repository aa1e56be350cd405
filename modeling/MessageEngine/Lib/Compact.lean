import Mathlib.Data.List.FinRange

/-!
# Tables kept compact

A table of rows with the live ones in front is kept so by shifting: when row `i` goes, the rows
behind it move one place to the front. `shiftLeft` is the loop that moves them, and
`getElem_shiftLeft` says where each row is afterwards: at place `j` is the row that was at `skip i j`.
-/

namespace Compact

variable {α : Type} {n : Nat}

/-- `for (j = i; j < i + k; ++j) v[j] = v[j + 1]`. -/
def shiftLeft (v : Vector α n) (i : Nat) : Nat → Vector α n
  | 0 => v
  | k + 1 =>
    let w := shiftLeft v i k
    if h : i + k + 1 < n then w.set (i + k) w[i + k + 1] else w

/-- The place a row came from when row `i` was taken out. -/
def skip (i j : Nat) : Nat := if j < i then j else j + 1

theorem skip_ne (i j : Nat) : skip i j ≠ i := by
  unfold skip
  split
  · omega
  · omega

theorem skip_lt {i j count : Nat} (hj : j + 1 < count) : skip i j < count := by
  unfold skip
  split
  · omega
  · omega

theorem skip_inj {i j k : Nat} (h : skip i j = skip i k) : j = k := by
  unfold skip at h
  split at h
  · split at h
    · omega
    · omega
  · split at h
    · omega
    · omega

/-- Every place but `i` is where a row came from. -/
theorem exists_skip {i j count : Nat} (hi : i < count) (hj : j < count) (hne : j ≠ i) :
    ∃ k, k + 1 < count ∧ skip i k = j := by
  by_cases hlt : j < i
  · exact ⟨j, by omega, if_pos hlt⟩
  · refine ⟨j - 1, by omega, ?_⟩
    rw [skip, if_neg (by omega)]
    omega

/-- The loop moved the rows from `i + 1` to `i + k`. -/
theorem getElem_shiftLeft (v : Vector α n) {i k : Nat} (hk : i + k < n) {j : Nat} (hj : j < n) :
    (shiftLeft v i k)[j] = if h : i ≤ j ∧ j < i + k then v[j + 1] else v[j] := by
  induction k generalizing j with
  | zero =>
    rw [dif_neg (by omega)]
    rfl
  | succ k ih =>
    rw [shiftLeft]
    simp only [show i + k + 1 < n from hk, dite_true]
    rw [Vector.getElem_set]
    by_cases heq : i + k = j
    · subst heq
      rw [if_pos rfl, ih (by omega), dif_neg (by omega), dif_pos (by omega)]
    · rw [if_neg heq, ih (by omega)]
      by_cases hin : i ≤ j ∧ j < i + k
      · have hin' : i ≤ j ∧ j < i + (k + 1) := by omega
        rw [dif_pos hin, dif_pos hin']
      · have hin' : ¬ (i ≤ j ∧ j < i + (k + 1)) := by omega
        rw [dif_neg hin, dif_neg hin']

/-- With `count` rows, all but row `i` are in front afterwards, in order. -/
theorem getElem_shiftLeft_skip (v : Vector α n) {i count : Nat} (hi : i < count) (hcount : count ≤ n)
    {j : Nat} (hj : j + 1 < count) :
    (shiftLeft v i (count - 1 - i))[j] = v.get ⟨skip i j, by have := skip_lt (i := i) hj; omega⟩ := by
  rw [getElem_shiftLeft v (by omega) (by omega)]
  by_cases hlt : j < i
  · have hin : ¬ (i ≤ j ∧ j < i + (count - 1 - i)) := by omega
    rw [dif_neg hin]
    simp only [skip, if_pos hlt]
    rfl
  · have hin : i ≤ j ∧ j < i + (count - 1 - i) := by omega
    rw [dif_pos hin]
    simp only [skip, if_neg hlt]
    rfl

/-! ## The rows as a list -/

/-- The rows in front, after one was taken out. -/
theorem take_shiftLeft (v : Vector α n) {i count : Nat} (hi : i < count) (hcount : count ≤ n) :
    (shiftLeft v i (count - 1 - i)).toList.take (count - 1) = (v.toList.take count).eraseIdx i := by
  have hlength : (v.toList.take count).length = count := by
    rw [List.length_take, Vector.length_toList, Nat.min_eq_left hcount]
  apply List.ext_getElem
  · rw [List.length_take, Vector.length_toList, List.length_eraseIdx_of_lt (hlength.symm ▸ hi), hlength,
      Nat.min_eq_left (Nat.le_trans (Nat.sub_le count 1) hcount)]
  · intro j hj _
    have hj : j + 1 < count := by
      rw [List.length_take, Vector.length_toList] at hj
      omega
    rw [List.getElem_take, Vector.getElem_toList, getElem_shiftLeft_skip v hi hcount hj, List.getElem_eraseIdx]
    unfold skip
    split
    · rw [List.getElem_take, Vector.getElem_toList]
      rfl
    · rw [List.getElem_take, Vector.getElem_toList]
      rfl

/-- A row written behind those in front joins them. -/
theorem take_set (v : Vector α n) {count : Nat} (hcount : count < n) (x : α) :
    (v.set count x).toList.take (count + 1) = v.toList.take count ++ [x] := by
  rw [Vector.toList_set, List.take_succ_eq_append_getElem (by simpa using hcount), List.take_set_of_le (Nat.le_refl _),
    List.getElem_set_self]

end Compact
