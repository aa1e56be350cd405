import Mathlib.Data.UInt
import Mathlib.Data.List.Infix
import MessageEngine.Lib.Table

/-!
# Logs in circular arrays

A log that only grows is kept in an array of `n` slots: entry `k` goes to slot `(start + k) % n`, and
only the entries from some point on are still wanted. As long as these are fewer than `n`, the slot
of the next entry is not one of theirs, so writing there loses nothing (`Holds.write`).

The position is often a counter of fixed width that wraps around. `counter_sub` says that the
difference of two such counters is the difference of the positions they stand for, however often
they have wrapped, and `counter_mod` that masking a counter gives the slot when `n` divides the
period.
-/

namespace Circular

variable {α : Type} {n start : Nat}

/-- The slot of entry `k`. -/
def slot (hn : 0 < n) (start k : Nat) : Fin n := ⟨(start + k) % n, Nat.mod_lt _ hn⟩

/-- Entries fewer than `n` apart are in different slots. -/
theorem slot_ne {hn : 0 < n} {i j : Nat} (hlt : i < j) (hnear : j < i + n) :
    slot hn start i ≠ slot hn start j := by
  intro h
  have hmod : (start + i) % n = (start + j) % n := congrArg Fin.val h
  have hdvd : n ∣ (start + j) - (start + i) :=
    (Nat.modEq_iff_dvd' (by omega)).mp hmod
  have hzero : (start + j) - (start + i) = 0 := Nat.eq_zero_of_dvd_of_lt hdvd (by omega)
  omega

/-- The array holds the entries of the log from `lo` on. -/
def Holds (hn : 0 < n) (start : Nat) (buf : Vector α n) (log : List α) (lo : Nat) : Prop :=
  ∀ k x, lo ≤ k → log[k]? = some x → buf[slot hn start k] = x

variable {hn : 0 < n} {buf : Vector α n} {log : List α} {lo : Nat}

theorem Holds.mono {lo' : Nat} (h : Holds hn start buf log lo) (hle : lo ≤ lo') :
    Holds hn start buf log lo' :=
  fun k x hk => h k x (Nat.le_trans hle hk)

/-- The slot of the next entry is free while fewer than `n` entries are wanted. -/
theorem Holds.write (h : Holds hn start buf log lo) (hroom : log.length < lo + n) (x : α) :
    Holds hn start (buf.set (slot hn start log.length) x (slot hn start log.length).isLt) log lo := by
  intro k y hk hy
  have hlt : k < log.length := (List.getElem?_eq_some_iff.mp hy).1
  have hne : (slot hn start log.length : Nat) ≠ slot hn start k :=
    fun heq => slot_ne hlt (by omega) (Fin.ext heq.symm)
  have hget := h k y hk hy
  simp only [Table.getElem_fin] at hget ⊢
  rw [Vector.getElem_set_ne _ _ hne]
  exact hget

/-- An entry that has been written can be added to the log. -/
theorem Holds.append (h : Holds hn start buf log lo) {x : α}
    (hx : buf[slot hn start log.length] = x) : Holds hn start buf (log ++ [x]) lo := by
  intro k y hk hy
  rcases Nat.lt_trichotomy k log.length with hlt | rfl | hgt
  · rw [List.getElem?_append_left hlt] at hy
    exact h k y hk hy
  · rw [List.getElem?_concat_length] at hy
    cases hy
    exact hx
  · rw [List.getElem?_eq_none (by simp; omega)] at hy
    cases hy

/-! ## The entries as a list -/

/-- The `count` entries from `head` on, oldest first. -/
def window (hn : 0 < n) (buf : Vector α n) (head count : Nat) : List α :=
  (List.range count).map fun k => buf[slot hn head k]

@[simp] theorem length_window (buf : Vector α n) (head count : Nat) :
    (window hn buf head count).length = count := by
  simp [window]

/-- Writing behind the last entry appends, while there is room. -/
theorem window_push {head count : Nat} (room : count < n) (x : α) :
    window hn (buf.set (slot hn head count) x (slot hn head count).isLt) head (count + 1) =
      window hn buf head count ++ [x] := by
  have hold : ∀ k ∈ List.range count, (buf.set (slot hn head count) x
      (slot hn head count).isLt)[slot hn head k] = buf[slot hn head k] := by
    intro k hk
    have hlt : k < count := List.mem_range.mp hk
    rw [Table.getElem_set_fin, if_neg]
    exact fun h => slot_ne hlt (by omega) h.symm
  rw [window, List.range_succ, List.map_append, List.map_congr_left hold, List.map_singleton,
    Table.getElem_set_fin, if_pos rfl]
  rfl

/-- The oldest entry and the window without it. -/
theorem window_pop (buf : Vector α n) (head count : Nat) :
    window hn buf head (count + 1) =
      buf[slot hn head 0] :: window hn buf (slot hn head 1) count := by
  have hslot (k : Nat) : slot hn head (k + 1) = slot hn (slot hn head 1) k := by
    apply Fin.ext
    simp only [slot, Nat.mod_add_mod]
    congr 1
    omega
  rw [window, List.range_succ_eq_map, List.map_cons, List.map_map]
  congr 1
  apply List.map_congr_left
  intro k _
  rw [Function.comp_apply, Nat.succ_eq_add_one, hslot]

/-- Writing over the oldest entry of a full array appends to the others. -/
theorem window_push_full {head count : Nat} (full : count + 1 = n) (x : α) :
    window hn (buf.set (slot hn head 0) x (slot hn head 0).isLt) (slot hn head 1) (count + 1) =
      window hn buf (slot hn head 1) count ++ [x] := by
  have hlast : slot hn (slot hn head 1) count = slot hn head 0 := by
    apply Fin.ext
    change ((head + 1) % n + count) % n = head % n
    rw [Nat.mod_add_mod, Nat.add_assoc, Nat.add_comm 1, full, Nat.add_mod_right]
  rw [← hlast]
  exact window_push (full ▸ Nat.lt_succ_self count) x

/-- What is written outside the window does not show in it. -/
theorem window_set_of_ne {head count : Nat} {i : Fin n} {x : α}
    (outside : ∀ k < count, slot hn head k ≠ i) :
    window hn (buf.set i x i.isLt) head count = window hn buf head count := by
  apply List.map_congr_left
  intro k hk
  rw [Table.getElem_set_fin, if_neg]
  exact fun h => outside k (List.mem_range.mp hk) h.symm

/-! ## Counters that wrap -/

variable {c : UInt32} {i j k : Nat}

theorem counter_succ : c + UInt32.ofNat k + 1 = c + UInt32.ofNat (k + 1) := by
  rw [UInt32.ofNat_add, UInt32.add_assoc]
  rfl

/-- The difference of two counters is that of the positions they stand for. -/
theorem counter_sub (hle : i ≤ j) (hnear : j - i < 2 ^ 32) :
    ((c + UInt32.ofNat j) - (c + UInt32.ofNat i)).toNat = j - i := by
  obtain ⟨d, rfl⟩ := Nat.exists_eq_add_of_le hle
  have heq : (c + UInt32.ofNat (i + d)) - (c + UInt32.ofNat i) = UInt32.ofNat d := by
    rw [UInt32.ofNat_add, ← UInt32.add_assoc, UInt32.add_comm (c + UInt32.ofNat i), UInt32.add_sub_cancel]
  rw [heq, UInt32.toNat_ofNat', Nat.mod_eq_of_lt (by omega)]
  omega

/-- Reducing a counter gives the slot, when the period is a multiple of the number of slots. -/
theorem counter_mod (hdvd : n ∣ 2 ^ 32) : (c + UInt32.ofNat k).toNat % n = (c.toNat + k) % n := by
  rw [UInt32.toNat_add, UInt32.toNat_ofNat', Nat.mod_mod_of_dvd _ hdvd, Nat.add_mod,
    Nat.mod_mod_of_dvd _ hdvd, ← Nat.add_mod]

end Circular
