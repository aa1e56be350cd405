import Mathlib.Data.Nat.Bitwise
import Mathlib.Algebra.Order.Ring.Nat
import Mathlib.Tactic.Ring

/-!
# Byte strings: big-endian words, slices and overwrites

`toBigEndian w v` spells `v` in `w` bytes, most significant first; `ofBigEndian` reads a byte string
back. Each direction is proved once for every width (`ofBigEndian_toBigEndian`, `toBigEndian_ofBigEndian`), so a
codec that shifts and masks word by word only has to be shown equal to these two.

A buffer is a list of bytes. `slice` names the bytes a fixed-offset field occupies, and
`overwrite` is what a sequence of stores at consecutive offsets amounts to
(`overwrite_overwrite`).
-/

namespace Bytes

/-! ## Big-endian words -/

/-- The `w` low bytes of `v`, most significant first. -/
def toBigEndian : (w v : Nat) → List UInt8
  | 0, _ => []
  | w + 1, v => UInt8.ofNat (v / 256 ^ w) :: toBigEndian w v

/-- The number a byte string spells, most significant byte first. -/
def ofBigEndian : List UInt8 → Nat
  | [] => 0
  | b :: bs => b.toNat * 256 ^ bs.length + ofBigEndian bs

@[simp] theorem length_toBigEndian (w v : Nat) : (toBigEndian w v).length = w := by
  induction w with
  | zero => rfl
  | succ w ih => simp [toBigEndian, ih]

/-- A string of `w` bytes spells a number below `256 ^ w`. -/
theorem ofBigEndian_lt (bs : List UInt8) : ofBigEndian bs < 256 ^ bs.length := by
  induction bs with
  | nil => simp [ofBigEndian]
  | cons b bs ih =>
    have hb : b.toNat + 1 ≤ 256 := b.toNat_lt
    calc ofBigEndian (b :: bs) < b.toNat * 256 ^ bs.length + 256 ^ bs.length := by
          simp only [ofBigEndian]; omega
      _ = (b.toNat + 1) * 256 ^ bs.length := by ring
      _ ≤ 256 * 256 ^ bs.length := Nat.mul_le_mul_right _ hb
      _ = 256 ^ (b :: bs).length := by rw [List.length_cons, Nat.pow_succ, Nat.mul_comm]

/-- Reading back a spelled number: its low `w` bytes. -/
theorem ofBigEndian_toBigEndian (w v : Nat) : ofBigEndian (toBigEndian w v) = v % 256 ^ w := by
  induction w with
  | zero => simp [toBigEndian, ofBigEndian, Nat.mod_one]
  | succ w ih =>
    simp only [toBigEndian, ofBigEndian, length_toBigEndian, ih, UInt8.toNat_ofNat', Nat.reducePow]
    have hsplit := Nat.mod_mul (a := 256 ^ w) (b := 256) (x := v)
    rw [← Nat.pow_succ] at hsplit
    rw [hsplit, Nat.mul_comm, Nat.add_comm]

/-- Reading back a number that fits its width. -/
theorem ofBigEndian_toBigEndian_of_lt {w v : Nat} (h : v < 256 ^ w) : ofBigEndian (toBigEndian w v) = v := by
  rw [ofBigEndian_toBigEndian, Nat.mod_eq_of_lt h]

private theorem toBigEndian_add_mul (w v c : Nat) : toBigEndian w (c * 256 ^ w + v) = toBigEndian w v := by
  induction w generalizing c with
  | zero => rfl
  | succ w ih =>
    have hpow : c * 256 ^ (w + 1) + v = c * 256 * 256 ^ w + v := by
      rw [Nat.pow_succ]; ring
    have hhead : UInt8.ofNat ((c * 256 * 256 ^ w + v) / 256 ^ w) = UInt8.ofNat (v / 256 ^ w) := by
      apply UInt8.toNat_inj.mp
      rw [Nat.add_comm, Nat.add_mul_div_right _ _ (Nat.pow_pos (by decide))]
      simp only [UInt8.toNat_ofNat', Nat.reducePow]
      omega
    rw [hpow, toBigEndian, toBigEndian, hhead, ih]

/-- Spelling a read number gives the bytes it was read from. -/
theorem toBigEndian_ofBigEndian (bs : List UInt8) : toBigEndian bs.length (ofBigEndian bs) = bs := by
  induction bs with
  | nil => rfl
  | cons b bs ih =>
    have hhead : UInt8.ofNat ((b.toNat * 256 ^ bs.length + ofBigEndian bs) / 256 ^ bs.length) = b := by
      have hlt := ofBigEndian_lt bs
      apply UInt8.toNat_inj.mp
      rw [Nat.add_comm, Nat.add_mul_div_right _ _ (Nat.pow_pos (by decide)),
        Nat.div_eq_of_lt hlt, Nat.zero_add]
      simp
    rw [List.length_cons, ofBigEndian, toBigEndian, hhead, toBigEndian_add_mul, ih]

/-! ## Words assembled by shifts -/

/-- Appending a byte below a number already shifted into place. -/
theorem shift_or_byte {b : Nat} (hi k : Nat) (h : b < 2 ^ 8) :
    (hi * 2 ^ 8) * 2 ^ k ||| b * 2 ^ k = (hi * 2 ^ 8 + b) * 2 ^ k := by
  have hlt : b * 2 ^ k < 2 ^ (8 + k) := by
    rw [Nat.pow_add]
    exact (Nat.mul_lt_mul_right (Nat.pow_pos (by decide))).mpr h
  have hor := Nat.two_pow_add_eq_or_of_lt hlt hi
  rw [Nat.mul_assoc, ← Nat.pow_add, Nat.mul_comm, ← hor, Nat.add_mul, Nat.pow_add]
  ring

/-! ## Slices and overwrites -/

variable {α : Type}

/-- The `len` elements from `off`. -/
def slice (buf : List α) (off len : Nat) : List α := (buf.drop off).take len

theorem length_slice {buf : List α} {off len : Nat} (h : off + len ≤ buf.length) :
    (slice buf off len).length = len := by
  simp only [slice, List.length_take, List.length_drop]
  omega

/-- Two adjacent slices are one. -/
theorem slice_append {buf : List α} {off a mid b : Nat} (h : off + a = mid) :
    slice buf off a ++ slice buf mid b = slice buf off (a + b) := by
  rw [← h, slice, slice, slice, List.take_add, List.drop_drop]

/-- The slice of a buffer that starts at the beginning. -/
theorem slice_zero (buf : List α) (len : Nat) : slice buf 0 len = buf.take len := rfl

/-- Store `bs` over the elements from `off`. -/
def overwrite (buf : List α) (off : Nat) (bs : List α) : List α :=
  buf.take off ++ bs ++ buf.drop (off + bs.length)

theorem length_overwrite {buf : List α} {off : Nat} {bs : List α}
    (h : off + bs.length ≤ buf.length) : (overwrite buf off bs).length = buf.length := by
  simp only [overwrite, List.length_append, List.length_take, List.length_drop]
  omega

/-- Storing one element. -/
theorem set_eq_overwrite {buf : List α} {off : Nat} (a : α) (h : off < buf.length) :
    buf.set off a = overwrite buf off [a] := by
  rw [overwrite, List.set_eq_take_append_cons_drop, if_pos h]
  simp

/-- Stores at consecutive offsets are one store of the concatenation. -/
theorem overwrite_overwrite (buf : List α) (off : Nat) (as bs : List α)
    (h : off + as.length + bs.length ≤ buf.length) :
    overwrite (overwrite buf off as) (off + as.length) bs = overwrite buf off (as ++ bs) := by
  have hoff : (buf.take off).length = off := by
    rw [List.length_take]; omega
  have htake : (overwrite buf off as).take (off + as.length) = buf.take off ++ as := by
    rw [overwrite, List.take_append_of_le_length (by simp [hoff])]
    exact List.take_of_length_le (by simp [hoff])
  have hdrop : (overwrite buf off as).drop (off + as.length + bs.length) =
      buf.drop (off + (as ++ bs).length) := by
    have hpre : (buf.take off ++ as).length = off + as.length := by simp [hoff]
    rw [overwrite, List.drop_append, List.drop_eq_nil_of_le (by omega), List.nil_append,
      List.drop_drop, hpre, List.length_append]
    congr 1
    omega
  rw [overwrite, htake, hdrop, overwrite]
  simp

/-- What a store at the beginning leaves in front. -/
theorem take_overwrite_zero (buf bs : List α) :
    (overwrite buf 0 bs).take bs.length = bs := by
  simp [overwrite]

/-- The slice that is exactly what a buffer starts with. -/
theorem slice_append_exact {as bs : List α} {len : Nat} (h : as.length = len) :
    slice (as ++ bs) 0 len = as := by
  subst h
  simp [slice]

/-- A slice behind what a buffer starts with. -/
theorem slice_append_right {as bs : List α} {k off len : Nat} (h : as.length = k) :
    slice (as ++ bs) (k + off) len = slice bs off len := by
  subst h
  rw [slice, slice, List.drop_append, List.drop_eq_nil_of_le (by omega), List.nil_append,
    Nat.add_sub_cancel_left]

/-- Reading back at a position the store covered or not. -/
theorem getElem?_overwrite {buf : List α} {off : Nat} {bs : List α} {j : Nat}
    (h : off + bs.length ≤ buf.length) :
    (overwrite buf off bs)[j]? =
      if off ≤ j ∧ j < off + bs.length then bs[j - off]? else buf[j]? := by
  have htake : (buf.take off).length = off := by
    rw [List.length_take]
    omega
  rw [overwrite, List.append_assoc, List.getElem?_append, htake]
  by_cases hlo : j < off
  · rw [if_pos hlo, if_neg (by omega), List.getElem?_take_of_lt hlo]
  · rw [if_neg hlo, List.getElem?_append]
    by_cases hhi : j - off < bs.length
    · rw [if_pos hhi, if_pos ⟨by omega, by omega⟩]
    · rw [if_neg hhi, if_neg (by omega), List.getElem?_drop]
      congr 1
      omega

/-- Store a list over the elements of a fixed array from `off`. -/
def blit {n : Nat} (dst : Vector α n) (off : Nat) (bs : List α) (h : off + bs.length ≤ n) :
    Vector α n :=
  ⟨(overwrite dst.toList off bs).toArray, by
    rw [List.size_toArray, length_overwrite (by rw [Vector.length_toList]; exact h),
      Vector.length_toList]⟩

theorem getElem_blit {n : Nat} {dst : Vector α n} {off : Nat} {bs : List α}
    {h : off + bs.length ≤ n} {j : Nat} (hj : j < n) :
    (blit dst off bs h)[j] =
      if hin : off ≤ j ∧ j < off + bs.length then bs.get ⟨j - off, by omega⟩ else dst[j] := by
  have hread := getElem?_overwrite (j := j) (show off + bs.length ≤ dst.toList.length by simpa using h)
  have hlen : (overwrite dst.toList off bs).length = n := by
    rw [length_overwrite (by simpa using h), Vector.length_toList]
  have hget : (blit dst off bs h)[j] = (overwrite dst.toList off bs).get ⟨j, by omega⟩ := rfl
  rw [hget]
  apply Option.some.inj
  rw [List.get_eq_getElem, ← List.getElem?_eq_getElem, hread]
  split
  case isTrue hin => rw [List.getElem?_eq_getElem (by omega), List.get_eq_getElem]
  case isFalse hout => rw [List.getElem?_eq_getElem (by simpa using hj), Vector.getElem_toList]

theorem toList_blit {n : Nat} (dst : Vector α n) (off : Nat) (bs : List α)
    (h : off + bs.length ≤ n) : (blit dst off bs h).toList = overwrite dst.toList off bs := rfl

end Bytes
