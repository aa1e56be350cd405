import Mathlib.Data.List.FinRange
import Mathlib.Data.Fintype.Card
import Mathlib.Data.Finset.Card

/-!
# Fixed tables of slots

A table is a `Vector`: a fixed number of slots, searched from the front. `firstSlot?` is the
search every linear scan performs, and the lemmas say what a hit and a miss mean. `count_set`
restates the effect of one slot write on a count in the form a bookkeeping counter needs, `picks` is
what a collection with a bounded buffer takes, and `exists_unused` is the pigeonhole behind "a larger table has a slot the smaller one does not
mention".
-/

namespace Table

variable {α : Type} {n : Nat}

/-- A slot is named by a `Fin`, which needs no proof that it is one. -/
instance instGetElemFin : GetElem (Vector α n) (Fin n) α fun _ _ => True where
  getElem v i _ := getElem v i.val i.isLt

@[simp] theorem getElem_fin (v : Vector α n) (i : Fin n) : v[i] = getElem v i.val i.isLt := rfl

/-- The first slot that satisfies `p`. -/
def firstSlot? (p : α → Bool) (v : Vector α n) : Option (Fin n) :=
  (List.finRange n).find? fun i => p v[i]

/-- A hit satisfies the test. -/
theorem firstSlot?_some {p : α → Bool} {v : Vector α n} {i : Fin n}
    (h : firstSlot? p v = some i) : p v[i] = true := by
  have hit := List.find?_some h
  exact hit

/-- A miss means no slot satisfies the test. -/
theorem firstSlot?_none {p : α → Bool} {v : Vector α n} :
    firstSlot? p v = none ↔ ∀ i : Fin n, p v[i] = false := by
  simp [firstSlot?, List.find?_eq_none]

/-- No slot before a hit satisfies the test. -/
theorem firstSlot?_before {p : α → Bool} {v : Vector α n} {i j : Fin n} (h : firstSlot? p v = some i)
    (hj : j < i) : p v[j] = false := by
  obtain ⟨-, before, after, hsplit, hmiss⟩ := List.find?_eq_some_iff_append.mp h
  have hsorted := List.pairwise_lt_finRange n
  rw [hsplit, List.pairwise_append, List.pairwise_cons] at hsorted
  have hmem := List.mem_finRange j
  rw [hsplit, List.mem_append, List.mem_cons] at hmem
  rcases hmem with hbefore | rfl | hafter
  · simpa using hmiss j hbefore
  · exact absurd hj (Fin.lt_irrefl j)
  · exact absurd hj (Fin.lt_asymm (hsorted.2.1.1 j hafter))

/-- A slot that satisfies the test makes the search hit. -/
theorem firstSlot?_isSome {p : α → Bool} {v : Vector α n} {i : Fin n} (h : p v[i] = true) :
    ∃ j, firstSlot? p v = some j := by
  cases hf : firstSlot? p v with
  | some j => exact ⟨j, rfl⟩
  | none =>
    have := firstSlot?_none.mp hf i
    rw [h] at this
    cases this

/-- When at most one slot satisfies the test, the search finds it. -/
theorem firstSlot?_eq_some {p : α → Bool} {v : Vector α n} {i : Fin n} (h : p v[i] = true)
    (unique : ∀ j : Fin n, p v[j] = true → j = i) : firstSlot? p v = some i := by
  obtain ⟨j, hj⟩ := firstSlot?_isSome h
  rw [hj, unique j (firstSlot?_some hj)]

/-- The search sees only the test's answers. -/
theorem firstSlot?_congr {p : α → Bool} {v w : Vector α n}
    (h : ∀ i : Fin n, p v[i] = p w[i]) : firstSlot? p v = firstSlot? p w := by
  unfold firstSlot?
  congr 1
  funext i
  exact h i

/-- Reading a table back after one slot was written. -/
theorem getElem_set_fin (v : Vector α n) (i j : Fin n) (x : α) :
    (v.set i x i.isLt)[j] = if i = j then x else v[j] := by
  simp only [getElem_fin, Vector.getElem_set, Fin.ext_iff]

/-! ## Counting slots -/

/-- One write, as a counter sees it: what the old slot contributed leaves, what the new one
contributes arrives. -/
theorem countP_set_add (p : α → Bool) (v : Vector α n) (i : Fin n) (x : α) :
    (v.set i x i.isLt).countP p + (if p v[i] then 1 else 0) = v.countP p + if p x then 1 else 0 := by
  rw [Vector.countP_set]
  have hle : (if p v[(i : Nat)] = true then 1 else 0) ≤ v.countP p := by
    split
    next h => exact Vector.countP_pos_iff.mpr ⟨_, Vector.getElem_mem i.isLt, h⟩
    next => exact Nat.zero_le _
  simp only [getElem_fin]
  omega

/-- A table with no matching slot counts zero. -/
theorem countP_eq_zero {p : α → Bool} {v : Vector α n} :
    v.countP p = 0 ↔ ∀ i : Fin n, p v[i] = false := by
  rw [Vector.countP_eq_zero]
  constructor
  · intro h i
    simpa using h v[i] (Vector.getElem_mem i.isLt)
  · intro h a ha
    obtain ⟨i, hi, rfl⟩ := Vector.getElem_of_mem ha
    simpa using h ⟨i, hi⟩

/-- A table whose every slot matches counts its size. -/
theorem countP_eq_size {p : α → Bool} {v : Vector α n} :
    v.countP p = n ↔ ∀ i : Fin n, p v[i] = true := by
  rw [Vector.countP_eq_size]
  constructor
  · exact fun h i => h v[i] (Vector.getElem_mem i.isLt)
  · intro h a ha
    obtain ⟨i, hi, rfl⟩ := Vector.getElem_of_mem ha
    exact h ⟨i, hi⟩

/-- The slots of a table, in order. -/
theorem toList_eq_map (v : Vector α n) : v.toList = (List.finRange n).map fun i => v[i] := by
  apply List.ext_getElem
  · simp
  · intro k hk _
    simp

theorem countP_eq_finRange (p : α → Bool) (v : Vector α n) :
    v.countP p = (List.finRange n).countP fun i => p v[i] := by
  rw [← Vector.countP_toList, toList_eq_map, List.countP_map]
  rfl

/-- A table that matches in fewer slots counts less. -/
theorem countP_le_of_imp {p : α → Bool} {v w : Vector α n} (h : ∀ i : Fin n, p w[i] = true → p v[i] = true) :
    w.countP p ≤ v.countP p := by
  rw [countP_eq_finRange, countP_eq_finRange]
  exact List.countP_mono_left fun i _ => h i

/-! ## The entries of a table -/

/-- Writing a slot, in the list of the slots. -/
theorem toList_set_split (v : Vector α n) (i : Fin n) (x : α) :
    (v.set i x i.isLt).toList = v.toList.take i ++ x :: v.toList.drop (i + 1) ∧
      v.toList = v.toList.take i ++ v[i] :: v.toList.drop (i + 1) := by
  have hi : (i : Nat) < v.toList.length := by simp
  constructor
  · rw [Vector.toList_set, List.set_eq_take_append_cons_drop, if_pos hi]
  · have hget : v[i] = v.toList[(i : Nat)] := by simp
    rw [hget, List.getElem_cons_drop, List.take_append_drop]

/-- A write outside the entries of a kind leaves them alone. -/
theorem filter_set_of_not {p : α → Bool} {v : Vector α n} {i : Fin n} {x : α} (hold : p v[i] = false)
    (hnew : p x = false) : (v.set i x i.isLt).toList.filter p = v.toList.filter p := by
  obtain ⟨hset, hsplit⟩ := toList_set_split v i x
  have hlist := congrArg (List.filter p) hsplit
  simp only [List.filter_append, List.filter_cons, hold, Bool.false_eq_true, if_false] at hlist
  rw [hlist, hset]
  simp only [List.filter_append, List.filter_cons, hnew, Bool.false_eq_true, if_false]

/-- A write of an entry where none was adds it. -/
theorem filter_set_perm {p : α → Bool} {v : Vector α n} {i : Fin n} {x : α} (hold : p v[i] = false)
    (hnew : p x = true) : ((v.set i x i.isLt).toList.filter p).Perm (x :: v.toList.filter p) := by
  obtain ⟨hset, hsplit⟩ := toList_set_split v i x
  have hlist := congrArg (List.filter p) hsplit
  simp only [List.filter_append, List.filter_cons, hold, Bool.false_eq_true, if_false] at hlist
  rw [hlist, hset]
  simp only [List.filter_append, List.filter_cons, hnew, if_true]
  exact List.perm_middle

/-- A write that makes an entry go takes it out. -/
theorem filter_unset_perm {p : α → Bool} {v : Vector α n} {i : Fin n} {x : α} (hold : p v[i] = true)
    (hnew : p x = false) : (v[i] :: (v.set i x i.isLt).toList.filter p).Perm (v.toList.filter p) := by
  have hback := filter_set_perm (v := v.set i x i.isLt) (i := i) (x := v[i])
    (by rw [getElem_set_fin, if_pos rfl]; exact hnew) hold
  have hundo : (v.set i x i.isLt).set i v[i] i.isLt = v := by
    rw [Vector.set_set]
    exact Vector.set_getElem_self i.isLt
  rw [hundo] at hback
  exact hback.symm

/-- A slot that was taken by the only entry with its key is found by the key, and freeing it undoes
the write. -/
theorem undo_set {p q : α → Bool} {v : Vector α n} {i : Fin n} {x : α} (hold : p v[i] = false)
    (hkey : q x = true) (fresh : ∀ j : Fin n, q v[j] = false) :
    firstSlot? q (v.set i x i.isLt) = some i ∧
      ∀ y, p y = false → ((v.set i x i.isLt).set i y i.isLt).toList.filter p = v.toList.filter p := by
  constructor
  · apply firstSlot?_eq_some
    · rw [getElem_set_fin, if_pos rfl]
      exact hkey
    · intro j hj
      by_contra hne
      rw [getElem_set_fin, if_neg (fun h => hne h.symm), fresh j] at hj
      cases hj
  · intro y hy
    rw [Vector.set_set]
    exact filter_set_of_not hold hy

/-! ## The first slots of a kind -/

theorem take_finRange_succ (i : Fin n) :
    (List.finRange n).take (i + 1) = (List.finRange n).take i ++ [i] := by
  rw [List.take_add_one, List.getElem?_eq_getElem (by rw [List.length_finRange]; exact i.isLt),
    List.getElem_finRange]
  rfl

/-- Of the slots below `k` those that match, in order and at most `cap`. -/
def picks (p : α → Bool) (v : Vector α n) (cap k : Nat) : List (Fin n) :=
  (((List.finRange n).take k).filter fun i => p v[i]).take cap

variable {p : α → Bool} {v : Vector α n} {cap : Nat} {i : Fin n}

theorem picks_zero : picks p v cap 0 = [] := by
  simp [picks]

theorem mem_picks {k : Nat} (h : i ∈ picks p v cap k) : (i : Nat) < k ∧ p v[i] = true := by
  have hmem := List.mem_filter.mp (List.mem_of_mem_take h)
  refine ⟨?_, hmem.2⟩
  obtain ⟨j, hj, rfl⟩ := List.mem_take_iff_getElem.mp hmem.1
  rw [List.getElem_finRange]
  exact (Nat.lt_min.mp hj).1

/-- A slot that matches is picked when there is room. -/
theorem picks_room (hit : p v[i] = true) (room : (picks p v cap i).length < cap) :
    picks p v cap (i + 1) = picks p v cap i ++ [i] := by
  have hfew : (((List.finRange n).take i).filter fun i => p v[i]).length < cap := by
    rw [picks, List.length_take] at room
    omega
  rw [picks, picks, take_finRange_succ, List.filter_append, List.filter_singleton, hit, cond_true,
    List.take_of_length_le (Nat.le_of_lt hfew), List.take_of_length_le]
  rw [List.length_append]
  exact hfew

/-- A slot that does not match, or comes when there is no room, is left. -/
theorem picks_skip (h : p v[i] = false ∨ ¬ (picks p v cap i).length < cap) :
    picks p v cap (i + 1) = picks p v cap i := by
  rw [picks, picks, take_finRange_succ, List.filter_append, List.filter_singleton]
  rcases h with hmiss | hfull
  · rw [hmiss, cond_false, List.append_nil]
  · rw [picks, List.length_take] at hfull
    rw [List.take_append_of_le_length (by omega)]

theorem picks_sorted {k : Nat} : (picks p v cap k).Pairwise (· < ·) := by
  have hsorted := (List.pairwise_lt_finRange n).sublist (List.take_sublist k _)
  exact ((hsorted.sublist List.filter_sublist)).sublist (List.take_sublist cap _)

/-- With room for all of them every slot that matches is picked. -/
theorem mem_picks_all (hcap : n ≤ cap) : i ∈ picks p v cap n ↔ p v[i] = true := by
  refine ⟨fun h => (mem_picks h).2, fun hit => ?_⟩
  have hfew : (((List.finRange n).take n).filter fun i => p v[i]).length ≤ cap := by
    refine Nat.le_trans (List.length_filter_le _ _) (Nat.le_trans ?_ hcap)
    rw [List.length_take, List.length_finRange]
    exact Nat.min_le_left n n
  rw [picks, List.take_of_length_le hfew, List.mem_filter,
    List.take_of_length_le (Nat.le_of_eq (List.length_finRange))]
  exact ⟨List.mem_finRange i, hit⟩

/-! ## A loop that rewrites every slot -/

/-- The slots below `k` are rewritten, the others are as they were. -/
def Mapped (f : α → α) (v w : Vector α n) (k : Nat) : Prop :=
  ∀ j : Fin n, w[j] = if (j : Nat) < k then f v[j] else v[j]

variable {f : α → α} {w : Vector α n}

theorem Mapped.start : Mapped f v v 0 := by
  intro j
  rw [if_neg (Nat.not_lt_zero _)]

/-- The slot of the round is still as it was. -/
theorem Mapped.get {i : Fin n} (h : Mapped f v w i) : w[i] = v[i] := by
  rw [h i, if_neg (Nat.lt_irrefl _)]

theorem Mapped.set {i : Fin n} (h : Mapped f v w i) {x : α} (hx : x = f v[i]) :
    Mapped f v (w.set i x i.isLt) (i + 1) := by
  intro j
  rw [getElem_set_fin]
  by_cases hij : i = j
  · rw [if_pos hij, ← hij, if_pos (Nat.lt_succ_self _), hx]
  · have hne : (i : Nat) ≠ j := fun heq => hij (Fin.ext heq)
    rw [if_neg hij, h j]
    by_cases hlt : (j : Nat) < i
    · rw [if_pos hlt, if_pos (by omega)]
    · rw [if_neg hlt, if_neg (by omega)]

theorem Mapped.skip {i : Fin n} (h : Mapped f v w i) (same : f v[i] = v[i]) : Mapped f v w (i + 1) := by
  intro j
  rw [h j]
  by_cases hlt : (j : Nat) < i
  · rw [if_pos hlt, if_pos (by omega)]
  · rw [if_neg hlt]
    by_cases heq : (j : Nat) = i
    · have hij : j = i := Fin.ext heq
      rw [hij, if_pos (Nat.lt_succ_self _), same]
    · rw [if_neg (by omega)]

theorem Mapped.all (h : Mapped f v w n) (j : Fin n) : w[j] = f v[j] := by
  rw [h j, if_pos j.isLt]

/-- The pigeonhole between two tables: if a larger table's slots are told apart by a key and a
smaller table mentions one key a slot, some slot of the larger table has a key the smaller one
does not mention. -/
theorem exists_unused {κ : Type} {m : Nat} (key : Fin n → κ) (inj : Function.Injective key)
    (mention : Fin m → κ) (hlt : m < n) : ∃ i, ∀ j, mention j ≠ key i := by
  classical
  by_contra hall
  push Not at hall
  choose pick hpick using hall
  have hpi : Function.Injective pick := by
    intro a b hab
    apply inj
    rw [← hpick a, ← hpick b, hab]
  have := Fintype.card_le_of_injective pick hpi
  simp only [Fintype.card_fin] at this
  omega

end Table
