import MessageEngine.Core.DuplicateFilter

/-!
# Laws of the duplicate filter

A pair is reported as a duplicate exactly when the window knows it; otherwise it is recorded, at
the price of at most one older pair.

Which one that is depends on the times of the records, and only when these rise is it the oldest:
then a pair stays in the window until as many others as it has entries were recorded after it
(`Tracks.record`).
-/

namespace MessageEngine

open Outcome Table

namespace DuplicateFilter

/-- The counters stay inside the window. -/
structure Inv (f : DuplicateFilter) : Prop where
  count : f.count ≤ dedupWindowSize
  next : f.next < dedupWindowSize

/-- The window holds the pair. -/
def Knows (f : DuplicateFilter) (src : NodeId) (msgId : UInt64) : Prop :=
  ∃ i : Fin dedupWindowSize, f.window[i].matches src msgId = true

variable {f : DuplicateFilter} {src : NodeId} {msgId : UInt64}

theorem inv_init : Inv init := ⟨Nat.zero_le _, by decide⟩

theorem not_knows_init : ¬ Knows init src msgId := by
  rintro ⟨i, h⟩
  simp [init, Entry.matches] at h

theorem isDuplicate_eq (inv : Inv f) (src : NodeId) (msgId : UInt64) :
    f.isDuplicate src msgId = .ok (firstSlot? (Entry.matches src msgId) f.window).isSome :=
  ensure_bind_eq_ok.mpr ⟨inv.count, rfl⟩

theorem scan_some (o : Fin dedupWindowSize) (is : List (Fin dedupWindowSize)) :
    ∃ i, findEvictIdx.scan f is (some o) = some i := by
  induction is generalizing o with
  | nil => exact ⟨o, rfl⟩
  | cons i is ih =>
    rw [findEvictIdx.scan]
    split
    · exact ⟨i, rfl⟩
    · split
      · exact ih i
      · exact ih o

/-- A full window always has an entry to give up. -/
theorem findEvictIdx_spec (full : f.count ≥ dedupWindowSize) : ∃ i, f.findEvictIdx = .ok i := by
  have hscan : ∃ i, findEvictIdx.scan f (List.finRange dedupWindowSize) none = some i := by
    obtain ⟨i, is, his⟩ : ∃ i is, List.finRange dedupWindowSize = i :: is :=
      List.exists_cons_of_ne_nil (by simp)
    rw [his, findEvictIdx.scan]
    split
    · exact ⟨i, rfl⟩
    · exact scan_some i is
  obtain ⟨i, hi⟩ := hscan
  refine ⟨i, ensure_bind_eq_ok.mpr ⟨full, ?_⟩⟩
  rw [hi]
  rfl

/-- A record writes the pair over one entry of the window. -/
theorem record_spec (inv : Inv f) (src : NodeId) (msgId : UInt64) {nowUs : UInt64}
    (hnow : nowUs > 0) :
    ∃ (f' : DuplicateFilter) (i : Fin dedupWindowSize), f.record src msgId nowUs = .ok f' ∧ Inv f' ∧
      f'.window = f.window.set i ⟨src, msgId, nowUs, true⟩ i.isLt := by
  have hidx : ∃ i, (if f.count ≥ dedupWindowSize then f.findEvictIdx
      else pure ⟨f.next, inv.next⟩) = .ok i := by
    split
    case isTrue full => exact findEvictIdx_spec full
    case isFalse _ => exact ⟨_, rfl⟩
  obtain ⟨i, hi⟩ := hidx
  refine ⟨{ f with
    window := f.window.set i ⟨src, msgId, nowUs, true⟩ i.isLt
    next := (f.next + 1) % dedupWindowSize
    count := if f.count < dedupWindowSize then f.count + 1 else f.count }, i, ?_, ?_, rfl⟩
  · refine ensure_bind_eq_ok.mpr ⟨inv.count, ensure_bind_eq_ok.mpr ⟨hnow, ?_⟩⟩
    rw [dif_pos inv.next]
    simp only [ite_bind, hi, ok_bind]
    rfl
  · refine ⟨?_, Nat.mod_lt _ (by decide)⟩
    split
    case isTrue h => exact h
    case isFalse _ => exact inv.count

/-- Both answers of the filter: a known pair changes nothing, a new one is recorded. -/
theorem checkAndRecord_spec (inv : Inv f) (src : NodeId) (msgId : UInt64) {nowUs : UInt64}
    (hnow : nowUs > 0) :
    (Knows f src msgId → f.checkAndRecord src msgId nowUs = .ok (.errDuplicate, f)) ∧
    (¬ Knows f src msgId → ∃ f', f.checkAndRecord src msgId nowUs = .ok (.ok, f') ∧
      f.record src msgId nowUs = .ok f' ∧ Inv f' ∧ Knows f' src msgId ∧
      ∀ s m, Knows f' s m → Knows f s m ∨ (s = src ∧ m = msgId)) := by
  constructor
  · rintro ⟨i, hi⟩
    obtain ⟨j, hj⟩ := firstSlot?_isSome hi
    refine ensure_bind_eq_ok.mpr ⟨inv.count, ensure_bind_eq_ok.mpr ⟨hnow, ?_⟩⟩
    refine bind_eq_ok.mpr ⟨true, ?_, rfl⟩
    rw [isDuplicate_eq inv, hj]
    rfl
  · intro hnew
    have hmiss : firstSlot? (Entry.matches src msgId) f.window = none := by
      rw [firstSlot?_none]
      intro i
      exact Bool.eq_false_iff.mpr fun hi => hnew ⟨i, hi⟩
    obtain ⟨f', i, hrec, hinv, hwindow⟩ := record_spec inv src msgId hnow
    refine ⟨f', ?_, hrec, hinv, ⟨i, ?_⟩, ?_⟩
    · refine ensure_bind_eq_ok.mpr ⟨inv.count, ensure_bind_eq_ok.mpr ⟨hnow, ?_⟩⟩
      refine bind_eq_ok.mpr ⟨false, ?_, bind_eq_ok.mpr ⟨f', hrec, ?_⟩⟩
      · rw [isDuplicate_eq inv, hmiss]
        rfl
      · exact ensure_bind_eq_ok.mpr ⟨hinv.count, rfl⟩
    · rw [hwindow, getElem_set_fin, if_pos rfl]
      simp [Entry.matches]
    · rintro s m ⟨j, hj⟩
      rw [hwindow, getElem_set_fin] at hj
      split at hj
      case isTrue _ =>
        simp only [Entry.matches, Bool.true_and, Bool.and_eq_true, beq_iff_eq] at hj
        exact .inr ⟨hj.1.symm, hj.2.symm⟩
      case isFalse _ => exact .inl ⟨j, hj⟩

/-! ## What the window remembers -/

def Entry.pair (entry : Entry) : NodeId × UInt64 := (entry.src, entry.msgId)

/-- The window is filled from the front, and no pair is in it twice. -/
structure Tidy (f : DuplicateFilter) : Prop where
  inv : Inv f
  filled : ∀ i : Fin dedupWindowSize, f.window[i].valid = true ↔ (i : Nat) < f.count
  next : f.count < dedupWindowSize → f.next = f.count
  distinct : ∀ i j : Fin dedupWindowSize, f.window[i].valid = true → f.window[j].valid = true →
    f.window[i].pair = f.window[j].pair → i = j

theorem tidy_init : Tidy init where
  inv := inv_init
  filled := by simp [init]
  next := fun _ => rfl
  distinct := by simp [init]

theorem knows_iff_pair {p : NodeId × UInt64} : Knows f p.1 p.2 ↔
    ∃ i : Fin dedupWindowSize, f.window[i].valid = true ∧ f.window[i].pair = p := by
  obtain ⟨src, msgId⟩ := p
  simp [Knows, Entry.matches, Entry.pair]

/-- The scan of a window of valid entries ends at the oldest it saw. -/
theorem scan_oldest (hvalid : ∀ i : Fin dedupWindowSize, f.window[i].valid = true)
    (is : List (Fin dedupWindowSize)) {o w : Fin dedupWindowSize}
    (h : findEvictIdx.scan f is (some o) = some w) :
    f.window[w].recordedUs ≤ f.window[o].recordedUs ∧
      ∀ i ∈ is, f.window[w].recordedUs ≤ f.window[i].recordedUs := by
  induction is generalizing o with
  | nil =>
    cases h
    exact ⟨UInt64.le_refl _, by simp⟩
  | cons i is ih =>
    rw [findEvictIdx.scan, hvalid i, Bool.not_true, if_neg Bool.false_ne_true] at h
    split at h
    case isTrue hlt =>
      obtain ⟨hle, hrest⟩ := ih h
      refine ⟨UInt64.le_trans hle (UInt64.le_of_lt hlt), fun j hj => ?_⟩
      rcases List.mem_cons.mp hj with rfl | hj
      · exact hle
      · exact hrest j hj
    case isFalse hge =>
      obtain ⟨hle, hrest⟩ := ih h
      refine ⟨hle, fun j hj => ?_⟩
      rcases List.mem_cons.mp hj with rfl | hj
      · exact UInt64.le_trans hle (UInt64.not_lt.mp hge)
      · exact hrest j hj

/-- Which entry a record gives up: none while there is room, and then the oldest. -/
inductive Slot (f : DuplicateFilter) (w : Fin dedupWindowSize) : Prop where
  | empty (room : f.count < dedupWindowSize) (front : (w : Nat) = f.count)
  | oldest (full : f.count = dedupWindowSize)
      (oldest : ∀ j : Fin dedupWindowSize, f.window[w].recordedUs ≤ f.window[j].recordedUs)

/-- The entry that a tidy window gives up. -/
theorem Tidy.slot (tidy : Tidy f) {w : Fin dedupWindowSize}
    (h : (if f.count ≥ dedupWindowSize then f.findEvictIdx else pure ⟨f.next, tidy.inv.next⟩) = .ok w) :
    Slot f w := by
  split at h
  case isTrue full =>
    have hcount : f.count = dedupWindowSize := Nat.le_antisymm tidy.inv.count full
    have hvalid (i : Fin dedupWindowSize) : f.window[i].valid = true :=
      (tidy.filled i).mpr (by rw [hcount]; exact i.isLt)
    obtain ⟨-, h⟩ := ensure_bind_eq_ok.mp h
    split at h
    case h_2 _ => cases h
    case h_1 v hscan =>
      cases h
      refine .oldest hcount fun j => ?_
      obtain ⟨i, is, his⟩ : ∃ i is, List.finRange dedupWindowSize = i :: is :=
        List.exists_cons_of_ne_nil (by simp)
      have hj : j ∈ i :: is := his ▸ List.mem_finRange j
      rw [his, findEvictIdx.scan, hvalid i, Bool.not_true, if_neg Bool.false_ne_true] at hscan
      obtain ⟨hle, hrest⟩ := scan_oldest hvalid is hscan
      rcases List.mem_cons.mp hj with rfl | hj
      · exact hle
      · exact hrest j hj
  case isFalse room =>
    cases h
    have hroom : f.count < dedupWindowSize := Nat.lt_of_not_ge room
    exact .empty hroom (tidy.next hroom)

/-- A record, in a window that is tidy. -/
theorem Tidy.record (tidy : Tidy f) {nowUs : UInt64} {f' : DuplicateFilter}
    (hnew : ¬ f.Knows src msgId) (h : f.record src msgId nowUs = .ok f') :
    Tidy f' ∧ ∃ w : Fin dedupWindowSize, Slot f w ∧
      f'.window = f.window.set w ⟨src, msgId, nowUs, true⟩ w.isLt := by
  obtain ⟨-, h⟩ := ensure_bind_eq_ok.mp h
  obtain ⟨hnow, h⟩ := ensure_bind_eq_ok.mp h
  rw [dif_pos tidy.inv.next, ite_bind] at h
  obtain ⟨w, hw, h⟩ := bind_eq_ok.mp h
  cases h
  have hslot := tidy.slot hw
  refine ⟨⟨⟨?_, Nat.mod_lt _ (by decide)⟩, fun i => ?_, fun hroom => ?_, fun i j hi hj hpair => ?_⟩,
    w, hslot, rfl⟩
  · dsimp only
    split
    case isTrue hlt => exact hlt
    case isFalse _ => exact tidy.inv.count
  · dsimp only
    rw [getElem_set_fin]
    cases hslot with
    | empty room front =>
      rw [if_pos room]
      split
      case isTrue heq =>
        subst heq
        simp [front]
      case isFalse hne =>
        rw [tidy.filled i]
        have : (i : Nat) ≠ w := fun h => hne (Fin.ext h.symm)
        omega
    | oldest full _ =>
      have hcount : (if f.count < dedupWindowSize then f.count + 1 else f.count) = dedupWindowSize := by
        rw [if_neg (Nat.not_lt.mpr (Nat.le_of_eq full.symm)), full]
      rw [hcount]
      split
      case isTrue heq => exact ⟨fun _ => i.isLt, fun _ => rfl⟩
      case isFalse hne => rw [tidy.filled i, full]
  · dsimp only at hroom ⊢
    split at hroom
    case isTrue hlt =>
      rw [tidy.next hlt, if_pos hlt, Nat.mod_eq_of_lt hroom]
    case isFalse hge => exact absurd hroom hge
  · -- The new pair is in no other entry, so the entries still have different pairs.
    have hother (k : Fin dedupWindowSize) (hk : f.window[k].valid = true) :
        f.window[k].pair ≠ (src, msgId) := fun heq => hnew (knows_iff_pair.mpr ⟨k, hk, heq⟩)
    dsimp only at hi hj hpair
    rw [getElem_set_fin] at hi hj hpair
    rw [getElem_set_fin] at hpair
    by_cases hwi : w = i
    · by_cases hwj : w = j
      · exact hwi.symm.trans hwj
      · rw [if_neg hwj] at hj hpair
        rw [if_pos hwi] at hpair
        exact absurd hpair.symm (hother j hj)
    · rw [if_neg hwi] at hi hpair
      by_cases hwj : w = j
      · rw [if_pos hwj] at hpair
        exact absurd hpair (hother i hi)
      · rw [if_neg hwj] at hj hpair
        exact tidy.distinct i j hi hj hpair

/-- The window holds the pair `p` with the time `t`, and every pair that `since` lists: these are
the pairs recorded after it. All other entries are older. -/
structure Tracks (f : DuplicateFilter) (p : NodeId × UInt64) (t : UInt64)
    (since : NodeId × UInt64 → Prop) : Prop where
  entry : ∃ i : Fin dedupWindowSize, f.window[i].valid = true ∧ f.window[i].pair = p ∧
    f.window[i].recordedUs = t
  listed : ∀ q, since q → ∃ i : Fin dedupWindowSize, f.window[i].valid = true ∧ f.window[i].pair = q ∧
    t < f.window[i].recordedUs
  others : ∀ i : Fin dedupWindowSize, f.window[i].valid = true → f.window[i].pair ≠ p →
    f.window[i].recordedUs < t ∨ since f.window[i].pair

theorem Tracks.knows {p : NodeId × UInt64} {t : UInt64} {since : NodeId × UInt64 → Prop}
    (h : Tracks f p t since) : f.Knows p.1 p.2 := by
  obtain ⟨i, hvalid, hpair, -⟩ := h.entry
  exact knows_iff_pair.mpr ⟨i, hvalid, hpair⟩

theorem Tracks.congr {p : NodeId × UInt64} {t : UInt64} {since since' : NodeId × UInt64 → Prop}
    (h : Tracks f p t since) (hiff : ∀ q, since q ↔ since' q) : Tracks f p t since' where
  entry := h.entry
  listed := fun q hq => h.listed q ((hiff q).mpr hq)
  others := fun i hi hne => (h.others i hi hne).imp_right (hiff _).mp

/-- The pair itself is not among those recorded after it. -/
theorem Tracks.ne {p q : NodeId × UInt64} {t : UInt64} {since : NodeId × UInt64 → Prop}
    (tidy : Tidy f) (h : Tracks f p t since) (hq : since q) : q ≠ p := by
  rintro rfl
  obtain ⟨i, hi, hpi, rfl⟩ := h.entry
  obtain ⟨j, hj, hpj, hlater⟩ := h.listed q hq
  obtain rfl := tidy.distinct i j hi hj (hpi.trans hpj.symm)
  exact UInt64.lt_irrefl _ hlater

/-- A pair that was just recorded is tracked, when all older records have older times. -/
theorem Tidy.track (tidy : Tidy f) {nowUs : UInt64} {f' : DuplicateFilter}
    (hnew : ¬ f.Knows src msgId) (h : f.record src msgId nowUs = .ok f')
    (holder : ∀ i : Fin dedupWindowSize, f.window[i].valid = true → f.window[i].recordedUs < nowUs) :
    Tracks f' (src, msgId) nowUs fun _ => False := by
  obtain ⟨-, w, -, hwindow⟩ := tidy.record hnew h
  refine ⟨⟨w, ?_⟩, fun _ hq => hq.elim, fun i hi hne => .inl ?_⟩
  · rw [hwindow, getElem_set_fin, if_pos rfl]
    exact ⟨rfl, rfl, rfl⟩
  · rw [hwindow, getElem_set_fin] at hi hne ⊢
    split
    case isTrue heq =>
      rw [if_pos heq] at hne
      exact absurd rfl hne
    case isFalse hwi =>
      rw [if_neg hwi] at hi
      exact holder i hi

/-- A tracked pair is the oldest of a full window only when every other entry was recorded after it. -/
theorem Tracks.not_oldest {p : NodeId × UInt64} {t : UInt64} {since : NodeId × UInt64 → Prop}
    (tidy : Tidy f) (tracks : Tracks f p t since) {w : Fin dedupWindowSize}
    (hvalid : f.window[w].valid = true) (hpair : f.window[w].pair = p) (htime : f.window[w].recordedUs = t)
    (full : f.count = dedupWindowSize)
    (oldest : ∀ j : Fin dedupWindowSize, f.window[w].recordedUs ≤ f.window[j].recordedUs)
    (hnew : ¬ f.Knows src msgId) {cover : List (NodeId × UInt64)}
    (hfew : cover.length < dedupWindowSize)
    (hcover : ∀ q, since q ∨ q = (src, msgId) → q ∈ cover) : False := by
  have hall (j : Fin dedupWindowSize) : f.window[j].valid = true :=
    (tidy.filled j).mpr (by rw [full]; exact j.isLt)
  have hsince (j : Fin dedupWindowSize) (hj : j ≠ w) : since f.window[j].pair := by
    have hne : f.window[j].pair ≠ p := fun h => hj (tidy.distinct j w (hall j) hvalid (h.trans hpair.symm))
    rcases tracks.others j (hall j) hne with hlt | h
    · have hle := oldest j
      rw [htime] at hle
      exact absurd hlt (UInt64.not_lt.mpr hle)
    · exact h
  -- The other entries and the new pair are as many different pairs as the window has entries.
  let pairs (j : Fin dedupWindowSize) : NodeId × UInt64 :=
    if j = w then (src, msgId) else f.window[j].pair
  have hinj : Function.Injective pairs := by
    intro a b hab
    have hother (k : Fin dedupWindowSize) : f.window[k].pair ≠ (src, msgId) :=
      fun heq => hnew (knows_iff_pair.mpr ⟨k, hall k, heq⟩)
    by_cases ha : a = w
    · by_cases hb : b = w
      · exact ha.trans hb.symm
      · simp only [pairs, if_pos ha, if_neg hb] at hab
        exact absurd hab.symm (hother b)
    · by_cases hb : b = w
      · simp only [pairs, if_neg ha, if_pos hb] at hab
        exact absurd hab (hother a)
      · simp only [pairs, if_neg ha, if_neg hb] at hab
        exact tidy.distinct a b (hall a) (hall b) hab
  have hsub : (List.finRange dedupWindowSize).map pairs ⊆ cover := by
    intro q hq
    obtain ⟨j, -, rfl⟩ := List.mem_map.mp hq
    by_cases hj : j = w
    · simp only [pairs, if_pos hj]
      exact hcover _ (.inr rfl)
    · simp only [pairs, if_neg hj]
      exact hcover _ (.inl (hsince j hj))
  have hlen := (((List.nodup_finRange dedupWindowSize).map hinj).subperm hsub).length_le
  rw [List.length_map, List.length_finRange] at hlen
  omega

/-- A tracked pair stays in the window while fewer pairs than it has entries are recorded after
it. -/
theorem Tracks.record {p : NodeId × UInt64} {t : UInt64} {since : NodeId × UInt64 → Prop}
    (tidy : Tidy f) (tracks : Tracks f p t since) {nowUs : UInt64} {f' : DuplicateFilter}
    (hnew : ¬ f.Knows src msgId) (h : f.record src msgId nowUs = .ok f')
    (holder : ∀ i : Fin dedupWindowSize, f.window[i].valid = true → f.window[i].recordedUs < nowUs)
    {cover : List (NodeId × UInt64)} (hfew : cover.length < dedupWindowSize)
    (hcover : ∀ q, since q ∨ q = (src, msgId) → q ∈ cover) :
    Tracks f' p t fun q => since q ∨ q = (src, msgId) := by
  obtain ⟨-, w, slot, hwindow⟩ := tidy.record hnew h
  obtain ⟨i, hi, hpi, hti⟩ := tracks.entry
  -- The entry that goes is no newer than that of `p`.
  have hgone (j : Fin dedupWindowSize) (hj : f.window[j].valid = true)
      (hlater : t < f.window[j].recordedUs) : w ≠ j := by
    rintro rfl
    cases slot with
    | empty _ front => exact absurd ((tidy.filled w).mp hj) (by omega)
    | oldest _ oldest =>
      have hle := oldest i
      rw [hti] at hle
      exact absurd hlater (UInt64.not_lt.mpr hle)
  have hkeep : w ≠ i := by
    rintro rfl
    cases slot with
    | empty _ front => exact absurd ((tidy.filled w).mp hi) (by omega)
    | oldest full oldest =>
      exact tracks.not_oldest tidy hi hpi hti full oldest hnew hfew hcover
  refine ⟨⟨i, ?_⟩, fun q hq => ?_, fun j hj hne => ?_⟩
  · rw [hwindow, getElem_set_fin, if_neg hkeep]
    exact ⟨hi, hpi, hti⟩
  · rcases hq with hq | rfl
    · obtain ⟨j, hj, hpair, hlater⟩ := tracks.listed q hq
      refine ⟨j, ?_⟩
      rw [hwindow, getElem_set_fin, if_neg (hgone j hj hlater)]
      exact ⟨hj, hpair, hlater⟩
    · refine ⟨w, ?_⟩
      rw [hwindow, getElem_set_fin, if_pos rfl]
      refine ⟨rfl, rfl, ?_⟩
      have hlt := holder i hi
      rwa [hti] at hlt
  · rw [hwindow, getElem_set_fin] at hj hne ⊢
    split
    case isTrue _ => exact .inr (.inr rfl)
    case isFalse hwj =>
      rw [if_neg hwj] at hj hne
      exact (tracks.others j hj hne).imp_right .inl

end DuplicateFilter

end MessageEngine
