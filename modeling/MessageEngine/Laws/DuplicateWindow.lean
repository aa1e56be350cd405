import MessageEngine.Laws.DuplicateFilter
import MessageEngine.Lib.Run
import Mathlib.Data.List.Nodup

/-!
# What the duplicate filter remembers

Ideally the filter remembers the last records, as many as its window has slots. A full window gives up the
entry with the smallest time, and of several the one in the first slot. The records go round the window; so
when the oldest entries have one time and go from the end of the window over to its beginning, a newer one
is given up.

## What is proved

- `Mirrors.record`: while that does not happen, record number `n` stands in slot `n % 128`;
- `Mirrors.forgets`: when it happens, a pair among the last ones is forgotten;
- `window_exact_iff`: so over a run the filter is ideal exactly when it never happens.
-/

namespace MessageEngine

open Outcome Table

namespace DuplicateFilter

/-- A call of `check_and_record`. -/
structure Call where
  src : NodeId
  msgId : UInt64
  nowUs : UInt64
  deriving DecidableEq

def Call.pair (c : Call) : NodeId × UInt64 := (c.src, c.msgId)

def Call.entry (c : Call) : Entry := ⟨c.src, c.msgId, c.nowUs, true⟩

def step (c : Call) (f : DuplicateFilter) : Checked (Result × DuplicateFilter) :=
  f.checkAndRecord c.src c.msgId c.nowUs

/-! ## The ideal filter -/

/-- The pairs of the last records, as many as the window has slots. -/
def recent (log : List Call) : List (NodeId × UInt64) :=
  (log.drop (log.length - dedupWindowSize)).map Call.pair

/-- A filter that remembers the last records makes a record of a call when it does not know the pair. -/
def learn (log : List Call) (c : Call) : List Call := if c.pair ∈ recent log then log else log ++ [c]

/-- The calls that such a filter makes records of. -/
def ideal (calls : List Call) : List Call := calls.foldl learn []

/-- When record number `n` is made in a full window, the oldest record, number `m`, is older than number `k`,
the one in the first slot. If they are the same, there is nothing to ask. -/
def Steady (log : List Call) (n : Nat) : Prop :=
  ∀ m k a b, m + dedupWindowSize = n → k + n % dedupWindowSize = n → k < n →
    log[m]? = some a → log[k]? = some b → a.nowUs < b.nowUs

def Untied (log : List Call) : Prop := ∀ n < log.length, Steady log n

/-- The filter knows the pairs of the last records and no others; and these are different pairs. -/
structure Remembers (log : List Call) (f : DuplicateFilter) : Prop where
  distinct : (recent log).Nodup
  knows : ∀ src msgId, f.isDuplicate src msgId = .ok (decide ((src, msgId) ∈ recent log))

/-- No pair is in two slots. -/
def OneSlotEach (f : DuplicateFilter) : Prop :=
  ∀ i j : Fin dedupWindowSize, f.window[i].valid = true → f.window[j].valid = true →
    f.window[i].pair = f.window[j].pair → i = j

variable {f f' : DuplicateFilter} {log : List Call} {c : Call}

theorem mem_recent {p : NodeId × UInt64} :
    p ∈ recent log ↔ ∃ n, ∃ hn : n < log.length, log.length ≤ n + 128 ∧ log[n].pair = p := by
  unfold recent
  rw [List.mem_map]
  constructor
  · rintro ⟨c, hc, rfl⟩
    obtain ⟨i, hi, rfl⟩ := List.mem_drop_iff_getElem.mp hc
    refine ⟨log.length - dedupWindowSize + i, by omega, ?_, rfl⟩
    unfold dedupWindowSize
    omega
  · rintro ⟨n, hn, hlast, rfl⟩
    refine ⟨log[n], List.mem_drop_iff_getElem.mpr ⟨n - (log.length - 128), ?_, ?_⟩, rfl⟩
    · unfold dedupWindowSize
      omega
    · have hidx : log.length - dedupWindowSize + (n - (log.length - 128)) = n := by
        unfold dedupWindowSize
        omega
      simp only [hidx]

/-! ## Which entry goes -/

/-- The entry that a full window gives up is the first of the oldest. -/
theorem scan_first (hvalid : ∀ i : Fin dedupWindowSize, f.window[i].valid = true)
    (is : List (Fin dedupWindowSize)) {o w : Fin dedupWindowSize} (hsorted : (o :: is).Pairwise (· < ·))
    (h : findEvictIdx.scan f is (some o) = some w) :
    ∀ i ∈ o :: is, i < w → f.window[w].recordedUs < f.window[i].recordedUs := by
  induction is generalizing o with
  | nil =>
    cases h
    intro i hi hlt
    have heq := List.mem_singleton.mp hi
    exact absurd hlt (heq ▸ lt_irrefl _)
  | cons i is ih =>
    obtain ⟨hfirst, hrest⟩ := List.pairwise_cons.mp hsorted
    rw [findEvictIdx.scan, hvalid i, Bool.not_true, if_neg Bool.false_ne_true] at h
    split at h
    case isTrue hlt =>
      intro j hj hjw
      rcases List.mem_cons.mp hj with rfl | hj
      · exact UInt64.lt_of_le_of_lt (scan_oldest hvalid is h).1 hlt
      · exact ih hrest h j hj hjw
    case isFalse hge =>
      have hskip : (o :: is).Pairwise (· < ·) :=
        List.pairwise_cons.mpr ⟨fun j hj => hfirst j (List.mem_cons_of_mem i hj), (List.pairwise_cons.mp hrest).2⟩
      intro j hj hjw
      rcases List.mem_cons.mp hj with rfl | hj
      · exact ih hskip h j List.mem_cons_self hjw
      · rcases List.mem_cons.mp hj with rfl | hj
        · have holder := ih hskip h o List.mem_cons_self (lt_trans (hfirst j List.mem_cons_self) hjw)
          exact UInt64.lt_of_lt_of_le holder (UInt64.not_lt.mp hge)
        · exact ih hskip h j (List.mem_cons_of_mem o hj) hjw

theorem findEvictIdx_first (hvalid : ∀ i : Fin dedupWindowSize, f.window[i].valid = true)
    {w : Fin dedupWindowSize} (h : f.findEvictIdx = .ok w) :
    (∀ j : Fin dedupWindowSize, f.window[w].recordedUs ≤ f.window[j].recordedUs) ∧
      ∀ j < w, f.window[w].recordedUs < f.window[j].recordedUs := by
  obtain ⟨-, h⟩ := ensure_bind_eq_ok.mp h
  split at h
  case h_2 => cases h
  case h_1 v hscan =>
    cases h
    obtain ⟨i, is, his⟩ : ∃ i is, List.finRange dedupWindowSize = i :: is :=
      List.exists_cons_of_ne_nil (by simp)
    have hsorted : (i :: is).Pairwise (· < ·) := his ▸ List.pairwise_lt_finRange dedupWindowSize
    have hmem (j : Fin dedupWindowSize) : j ∈ i :: is := his ▸ List.mem_finRange j
    rw [his, findEvictIdx.scan, hvalid i, Bool.not_true, if_neg Bool.false_ne_true] at hscan
    refine ⟨fun j => ?_, fun j hj => scan_first hvalid is hsorted hscan j (hmem j) hj⟩
    obtain ⟨hle, hrest⟩ := scan_oldest hvalid is hscan
    rcases List.mem_cons.mp (hmem j) with rfl | hj
    · exact hle
    · exact hrest j hj

/-! ## Round the window -/

/-- The slot of record number `n`, when the records go round the window. -/
def slotOf (n : Nat) : Fin dedupWindowSize := ⟨n % 128, Nat.mod_lt n (by decide)⟩

/-- The last records stand in the window, each in its slot. -/
structure Mirrors (log : List Call) (f : DuplicateFilter) : Prop where
  tidy : Tidy f
  count : f.count = min log.length 128
  held : ∀ n (hn : n < log.length), log.length ≤ n + 128 → f.window[slotOf n] = log[n].entry

theorem mirrors_init : Mirrors [] init where
  tidy := tidy_init
  count := rfl
  held n hn := absurd hn (Nat.not_lt_zero n)

/-- Every entry is one of the last records. -/
theorem Mirrors.recorded (h : Mirrors log f) {i : Fin dedupWindowSize} (hi : f.window[i].valid = true) :
    ∃ n, ∃ hn : n < log.length, log.length ≤ n + 128 ∧ slotOf n = i ∧ f.window[i] = log[n].entry := by
  have hlt := (h.tidy.filled i).mp hi
  rw [h.count] at hlt
  have hi128 : (i : Nat) < 128 := i.isLt
  obtain ⟨n, hn, hlast, hmod⟩ : ∃ n < log.length, log.length ≤ n + 128 ∧ n % 128 = i := by
    by_cases hsmall : (i : Nat) < log.length % 128
    · exact ⟨log.length - log.length % 128 + i, by omega, by omega, by omega⟩
    · by_cases hshort : log.length < 128
      · exact ⟨i, by omega, by omega, by omega⟩
      · exact ⟨log.length - log.length % 128 - 128 + i, by omega, by omega, by omega⟩
  have hslot : slotOf n = i := Fin.ext hmod
  exact ⟨n, hn, hlast, hslot, hslot ▸ h.held n hn hlast⟩

theorem Mirrors.knows_iff (h : Mirrors log f) (src : NodeId) (msgId : UInt64) :
    Knows f src msgId ↔ (src, msgId) ∈ recent log := by
  rw [show Knows f src msgId ↔ _ from knows_iff_pair (p := (src, msgId)), mem_recent]
  constructor
  · rintro ⟨i, hi, hpair⟩
    obtain ⟨n, hn, hlast, -, hentry⟩ := h.recorded hi
    rw [hentry] at hpair
    exact ⟨n, hn, hlast, hpair⟩
  · rintro ⟨n, hn, hlast, hpair⟩
    refine ⟨slotOf n, ?_, ?_⟩
    · rw [h.held n hn hlast]
      rfl
    · rw [h.held n hn hlast]
      exact hpair

theorem isDuplicate_knows (inv : Inv f) (src : NodeId) (msgId : UInt64) :
    f.isDuplicate src msgId = .ok true ↔ Knows f src msgId := by
  rw [isDuplicate_eq inv]
  constructor
  · intro h
    have hfound := Except.ok.inj h
    obtain ⟨i, hi⟩ := Option.isSome_iff_exists.mp hfound
    exact ⟨i, firstSlot?_some hi⟩
  · rintro ⟨i, hi⟩
    obtain ⟨j, hj⟩ := firstSlot?_isSome hi
    rw [hj]
    rfl

theorem Mirrors.remembers (h : Mirrors log f) : Remembers log f where
  distinct := by
    unfold recent
    rw [List.nodup_iff_injective_getElem]
    intro ⟨a, ha⟩ ⟨b, hb⟩ hab
    rw [List.length_map, List.length_drop] at ha hb
    simp only [List.getElem_map, List.getElem_drop] at hab
    have held (k : Nat) (hk : k < log.length - (log.length - dedupWindowSize)) :
        f.window[slotOf (log.length - dedupWindowSize + k)] = log[log.length - dedupWindowSize + k].entry :=
      h.held _ (by omega) (by unfold dedupWindowSize; omega)
    have hslots := h.tidy.distinct (slotOf (log.length - dedupWindowSize + a))
      (slotOf (log.length - dedupWindowSize + b)) (by rw [held a ha]; rfl) (by rw [held b hb]; rfl)
      (by rw [held a ha, held b hb]; exact hab)
    have hmod : (log.length - dedupWindowSize + a) % 128 = (log.length - dedupWindowSize + b) % 128 :=
      congrArg Fin.val hslots
    unfold dedupWindowSize at ha hb hmod
    exact Fin.ext (by simp only; omega)
  knows src msgId := by
    by_cases hmem : (src, msgId) ∈ recent log
    · rw [decide_eq_true hmem]
      exact (isDuplicate_knows h.tidy.inv src msgId).mpr ((h.knows_iff src msgId).mpr hmem)
    · rw [decide_eq_false hmem, isDuplicate_eq h.tidy.inv]
      have hnone : firstSlot? (Entry.matches src msgId) f.window = none := by
        rw [firstSlot?_none]
        intro i
        exact Bool.eq_false_iff.mpr fun hi => hmem ((h.knows_iff src msgId).mp ⟨i, hi⟩)
      rw [hnone]
      rfl

/-! ## One record -/

/-- The calls come in the order of their times. -/
def Ordered (log : List Call) : Prop := log.Pairwise fun c c' => c.nowUs ≤ c'.nowUs

theorem Ordered.le (h : Ordered log) {m n : Nat} (hmn : m ≤ n) (hn : n < log.length) :
    log[m].nowUs ≤ log[n].nowUs := by
  rcases Nat.eq_or_lt_of_le hmn with rfl | hlt
  · exact UInt64.le_refl _
  · exact List.pairwise_iff_getElem.mp h m n (by omega) hn hlt

/-- Where a record is written. -/
theorem record_writes (tidy : Tidy f) (h : f.record c.src c.msgId c.nowUs = .ok f') :
    ∃ w, (if f.count ≥ dedupWindowSize then f.findEvictIdx else pure ⟨f.next, tidy.inv.next⟩) = .ok w ∧
      f'.window = f.window.set w c.entry w.isLt ∧
      f'.count = if f.count < dedupWindowSize then f.count + 1 else f.count := by
  obtain ⟨-, h⟩ := ensure_bind_eq_ok.mp h
  obtain ⟨hnow, h⟩ := ensure_bind_eq_ok.mp h
  rw [dif_pos tidy.inv.next, ite_bind] at h
  obtain ⟨w, hw, h⟩ := bind_eq_ok.mp h
  cases h
  exact ⟨w, hw, rfl, rfl⟩

theorem Mirrors.full (h : Mirrors log f) (hcount : f.count ≥ dedupWindowSize) (i : Fin dedupWindowSize) :
    f.window[i].valid = true :=
  (h.tidy.filled i).mpr (Nat.lt_of_lt_of_le i.isLt hcount)

/-- No entry is older than the oldest of the last records. -/
theorem Mirrors.oldest (h : Mirrors log f) (hordered : Ordered log) {m : Nat} (hm : m + 128 = log.length)
    {i : Fin dedupWindowSize} (hi : f.window[i].valid = true) : log[m].nowUs ≤ f.window[i].recordedUs := by
  obtain ⟨n, hn, hlast, -, hentry⟩ := h.recorded hi
  rw [hentry]
  exact hordered.le (by omega) hn

/-- The oldest entry goes. -/
theorem Mirrors.writes_steady (h : Mirrors log f) (hordered : Ordered log) (hsteady : Steady log log.length)
    {w : Fin dedupWindowSize}
    (hw : (if f.count ≥ dedupWindowSize then f.findEvictIdx else pure ⟨f.next, h.tidy.inv.next⟩) = .ok w) :
    w = slotOf log.length := by
  have hcount := h.count
  split at hw
  case isTrue hge =>
    have hge128 : 128 ≤ f.count := hge
    obtain ⟨m, hm⟩ := Nat.exists_eq_add_of_le' (show 128 ≤ log.length by omega)
    obtain ⟨hmin, hfirst⟩ := findEvictIdx_first (h.full hge) hw
    have hslot : slotOf m = slotOf log.length := Fin.ext (by simp only [slotOf]; omega)
    have hheld := h.held m (by omega) (by omega)
    have htime : f.window[slotOf log.length].recordedUs = log[m].nowUs := by
      rw [← hslot, hheld]
      rfl
    rcases lt_trichotomy w (slotOf log.length) with hlt | heq | hgt
    · obtain ⟨n, hn, hlast, hslotn, hentry⟩ := h.recorded (h.full hge w)
      have hwn : n % 128 = w := congrArg Fin.val hslotn
      have hltn : (w : Nat) < log.length % 128 := hlt
      obtain ⟨k, hk⟩ : ∃ k, k + log.length % 128 = log.length := ⟨_, Nat.sub_add_cancel (Nat.mod_le _ _)⟩
      have holder := hsteady m k log[m] log[k] hm.symm hk (by omega) (List.getElem?_eq_getElem _)
        (List.getElem?_eq_getElem _)
      have hlater : log[k].nowUs ≤ f.window[w].recordedUs := by
        rw [hentry]
        exact hordered.le (by omega) hn
      have hle := hmin (slotOf log.length)
      rw [htime] at hle
      exact absurd (UInt64.lt_of_lt_of_le holder (UInt64.le_trans hlater hle)) (UInt64.lt_irrefl _)
    · exact heq
    · have hlt := hfirst _ hgt
      rw [htime] at hlt
      have holdest := h.oldest hordered hm.symm (h.full hge w)
      exact absurd (UInt64.lt_of_lt_of_le hlt holdest) (UInt64.lt_irrefl _)
  case isFalse hroom =>
    cases hw
    have hlt : f.count < 128 := Nat.lt_of_not_ge hroom
    have hnext := h.tidy.next hlt
    exact Fin.ext (by simp only [slotOf]; omega)

/-- The entry in the first slot goes, and it is not the oldest. -/
theorem Mirrors.writes_tied (h : Mirrors log f) (hordered : Ordered log) {m k : Nat}
    (hm : m + 128 = log.length) (hk : k + log.length % 128 = log.length) (hlt : k < log.length)
    (htied : ¬ log[m].nowUs < log[k].nowUs) {w : Fin dedupWindowSize}
    (hw : (if f.count ≥ dedupWindowSize then f.findEvictIdx else pure ⟨f.next, h.tidy.inv.next⟩) = .ok w) :
    w = slotOf k := by
  have hcount := h.count
  have hge : f.count ≥ dedupWindowSize := by
    show 128 ≤ f.count
    omega
  rw [if_pos hge] at hw
  obtain ⟨-, hfirst⟩ := findEvictIdx_first (h.full hge) hw
  have hzero : k % 128 = 0 := by omega
  by_contra hne
  have hbehind : slotOf k < w := by
    have hval : (w : Nat) ≠ k % 128 := fun hval => hne (Fin.ext hval)
    show k % 128 < (w : Nat)
    omega
  have htime := hfirst _ hbehind
  rw [h.held k hlt (by omega)] at htime
  exact htied (UInt64.lt_of_le_of_lt (h.oldest hordered hm (h.full hge w)) htime)

/-- A new pair is recorded, and the oldest record goes. -/
theorem Mirrors.record (h : Mirrors log f) (hordered : Ordered log) (hsteady : Steady log log.length)
    (hnew : ¬ Knows f c.src c.msgId) (hrun : f.record c.src c.msgId c.nowUs = .ok f') :
    Mirrors (log ++ [c]) f' := by
  obtain ⟨w, hw, hwindow, hcount⟩ := record_writes h.tidy hrun
  obtain rfl := h.writes_steady hordered hsteady hw
  refine ⟨(h.tidy.record hnew hrun).1, ?_, fun n hn hlast => ?_⟩
  · have hbefore := h.count
    rw [hcount, List.length_append, List.length_singleton]
    unfold dedupWindowSize
    split
    · omega
    · omega
  · rw [List.length_append, List.length_singleton] at hn hlast
    rw [hwindow, getElem_set_fin]
    by_cases hthis : n = log.length
    · subst hthis
      rw [if_pos rfl, List.getElem_concat_length rfl]
    · have hother : slotOf log.length ≠ slotOf n := by
        intro heq
        have hmod : log.length % 128 = n % 128 := congrArg Fin.val heq
        omega
      rw [if_neg hother, h.held n (by omega) (by omega), List.getElem_append_left (by omega)]

/-- A new pair is recorded, and a record that is not the oldest goes. -/
theorem Mirrors.forgets (h : Mirrors log f) (hordered : Ordered log) (htied : ¬ Steady log log.length)
    (hnew : ¬ Knows f c.src c.msgId) (hrun : f.record c.src c.msgId c.nowUs = .ok f') :
    ¬ Remembers (log ++ [c]) f' := by
  unfold Steady at htied
  push Not at htied
  obtain ⟨m, k, a, b, hm, hk, hlt, ha, hb, hle⟩ := htied
  replace hm : m + 128 = log.length := hm
  replace hk : k + log.length % 128 = log.length := hk
  obtain ⟨_, rfl⟩ := List.getElem?_eq_some_iff.mp hb
  obtain ⟨_, rfl⟩ := List.getElem?_eq_some_iff.mp ha
  obtain ⟨w, hw, hwindow, -⟩ := record_writes h.tidy hrun
  obtain rfl := h.writes_tied hordered hm hk hlt hle hw
  intro hremembers
  have hrecent : (log[k].src, log[k].msgId) ∈ recent (log ++ [c]) := by
    refine mem_recent.mpr ⟨k, ?_, ?_, ?_⟩
    · rw [List.length_append]
      omega
    · rw [List.length_append, List.length_singleton]
      omega
    · rw [List.getElem_append_left hlt]
      rfl
  have hknows := hremembers.knows log[k].src log[k].msgId
  rw [decide_eq_true hrecent, isDuplicate_knows (h.tidy.record hnew hrun).1.inv] at hknows
  obtain ⟨i, hi, hpair⟩ := (knows_iff_pair (p := (log[k].src, log[k].msgId))).mp hknows
  have hgone := h.held k hlt (by omega)
  rw [hwindow, getElem_set_fin] at hi hpair
  split at hpair
  case isTrue =>
    refine hnew ((knows_iff_pair (p := c.pair)).mpr ⟨slotOf k, ?_, ?_⟩)
    · rw [hgone]
      rfl
    · rw [hgone]
      exact hpair.symm
  case isFalse hne =>
    rw [if_neg hne] at hi
    refine hne (h.tidy.distinct _ _ ?_ hi ?_)
    · rw [hgone]
      rfl
    · rw [hpair, hgone]
      rfl

/-! ## Runs -/

/-- The calls of a run that were answered `OK`. -/
def recorded (calls : List Call) (results : List Result) : List Call :=
  ((calls.zip results).filter fun x => x.2 = .ok).map Prod.fst

theorem ideal_append (calls : List Call) (c : Call) :
    ideal (calls ++ [c]) = learn (ideal calls) c := by
  simp only [ideal, List.foldl_append, List.foldl_cons, List.foldl_nil]

theorem recorded_append {calls : List Call} {results : List Result} (hlen : results.length = calls.length)
    (c : Call) (res : Result) :
    recorded (calls ++ [c]) (results ++ [res]) =
      recorded calls results ++ if res = .ok then [c] else [] := by
  unfold recorded
  rw [List.zip_append hlen.symm, List.filter_append, List.map_append]
  congr 1
  by_cases hok : res = .ok
  · simp [hok]
  · simp [hok]

theorem Untied.init {calls : List Call} {c : Call} (h : Untied (ideal (calls ++ [c]))) : Untied (ideal calls) := by
  rw [ideal_append, learn] at h
  split at h
  case isTrue => exact h
  case isFalse =>
    intro n hn m k a b hm hk hlt ha hb
    refine h n (by rw [List.length_append]; omega) m k a b hm hk hlt ?_ ?_
    · rw [List.getElem?_append_left (by omega)]
      exact ha
    · rw [List.getElem?_append_left (by omega)]
      exact hb

/-- One more record, and it does not come at a tie. -/
theorem untied_append : Untied (log ++ [c]) ↔ Untied log ∧ Steady log log.length := by
  have hbefore (i n : Nat) (hi : i < n) (hn : n ≤ log.length) : (log ++ [c])[i]? = log[i]? :=
    List.getElem?_append_left (by omega)
  have hsteady (n : Nat) (hn : n ≤ log.length) : Steady (log ++ [c]) n ↔ Steady log n := by
    unfold Steady
    refine forall_congr' fun m => forall_congr' fun k => forall_congr' fun a => forall_congr' fun b =>
      forall_congr' fun hm => forall_congr' fun _ => forall_congr' fun hlt => ?_
    have hpos : dedupWindowSize = 128 := rfl
    rw [hbefore m n (by omega) hn, hbefore k n hlt hn]
  constructor
  · intro h
    refine ⟨fun n hn => (hsteady n (by omega)).mp (h n (by rw [List.length_append]; omega)), ?_⟩
    exact (hsteady _ (Nat.le_refl _)).mp (h _ (by rw [List.length_append, List.length_singleton]; omega))
  · rintro ⟨h, hlast⟩ n hn
    rw [List.length_append, List.length_singleton] at hn
    rcases Nat.lt_or_eq_of_le (Nat.le_of_lt_succ hn) with hlt | rfl
    · exact (hsteady n (by omega)).mpr (h n hlt)
    · exact (hsteady _ (Nat.le_refl _)).mpr hlast

theorem ideal_sublist (calls : List Call) : (ideal calls).Sublist calls := by
  induction calls using List.reverseRecOn with
  | nil => exact List.Sublist.refl []
  | append_singleton calls c ih =>
    rw [ideal_append, learn]
    split
    · exact ih.trans (List.sublist_append_left calls [c])
    · exact ih.append (List.Sublist.refl [c])

/-- A call finds the pair, or records it. -/
theorem Tidy.step (tidy : Tidy f) (hnow : c.nowUs > 0) :
    (Knows f c.src c.msgId ∧ step c f = .ok (.errDuplicate, f)) ∨
      (¬ Knows f c.src c.msgId ∧ ∃ f', step c f = .ok (.ok, f') ∧ f.record c.src c.msgId c.nowUs = .ok f' ∧
        Tidy f') := by
  obtain ⟨hknown, hnew⟩ := checkAndRecord_spec tidy.inv c.src c.msgId hnow
  by_cases h : Knows f c.src c.msgId
  · exact .inl ⟨h, hknown h⟩
  · obtain ⟨f', hstep, hrecord, -⟩ := hnew h
    exact .inr ⟨h, f', hstep, hrecord, (tidy.record h hrecord).1⟩

/-- What a run leaves; and while no record came at a tie, its records are the ideal ones. -/
theorem run_spec {calls : List Call} (hpos : ∀ c ∈ calls, c.nowUs > 0) (hordered : Ordered calls) :
    ∃ results f, Run.runAll step calls init = .ok (results, f) ∧ results.length = calls.length ∧ Tidy f ∧
      (Untied (ideal calls) → recorded calls results = ideal calls ∧ Mirrors (ideal calls) f) := by
  induction calls using List.reverseRecOn with
  | nil => exact ⟨[], init, rfl, rfl, tidy_init, fun _ => ⟨rfl, mirrors_init⟩⟩
  | append_singleton calls c ih =>
    obtain ⟨results, f, hrun, hlen, tidy, hideal⟩ := ih (fun c' hc' => hpos c' (List.mem_append_left _ hc'))
      (List.pairwise_append.mp hordered).1
    have hnow := hpos c (List.mem_append_right _ List.mem_cons_self)
    rcases tidy.step hnow with ⟨hknown, hstep⟩ | ⟨hnew, f', hstep, hrecord, tidy'⟩
    · refine ⟨results ++ [.errDuplicate], f, Run.runAll_concat.mpr ⟨results, f, _, hrun, hstep, rfl⟩, ?_, tidy,
        fun huntied => ?_⟩
      · rw [List.length_append, List.length_append, hlen]
        rfl
      · obtain ⟨hrecorded, hmirrors⟩ := hideal huntied.init
        have hmem : c.pair ∈ recent (ideal calls) := (hmirrors.knows_iff c.src c.msgId).mp hknown
        rw [recorded_append hlen, ideal_append, learn, if_pos hmem, hrecorded, if_neg (by decide), List.append_nil]
        exact ⟨rfl, hmirrors⟩
    · refine ⟨results ++ [.ok], f', Run.runAll_concat.mpr ⟨results, f, _, hrun, hstep, rfl⟩, ?_, tidy',
        fun huntied => ?_⟩
      · rw [List.length_append, List.length_append, hlen]
        rfl
      · obtain ⟨hrecorded, hmirrors⟩ := hideal huntied.init
        have hmem : c.pair ∉ recent (ideal calls) := fun h => hnew ((hmirrors.knows_iff c.src c.msgId).mpr h)
        rw [ideal_append, learn, if_neg hmem, untied_append] at huntied
        rw [recorded_append hlen, ideal_append, learn, if_neg hmem, hrecorded, if_pos rfl]
        have hbefore : Ordered (ideal calls) := (List.pairwise_append.mp hordered).1.sublist (ideal_sublist calls)
        exact ⟨rfl, hmirrors.record hbefore huntied.2 hnew hrecord⟩

/-- After every prefix of the calls the filter remembers the last records. -/
def Exact (calls : List Call) : Prop :=
  ∀ past, past <+: calls → ∀ results f, Run.runAll step past init = .ok (results, f) →
    Remembers (recorded past results) f

theorem exact_iff {calls : List Call} (hpos : ∀ c ∈ calls, c.nowUs > 0) (hordered : Ordered calls) :
    Exact calls ↔ Untied (ideal calls) := by
  induction calls using List.reverseRecOn with
  | nil =>
    refine iff_of_true (fun past hpast results f hrun => ?_) fun n hn => absurd hn (Nat.not_lt_zero n)
    obtain rfl := List.prefix_nil.mp hpast
    cases hrun
    exact mirrors_init.remembers
  | append_singleton calls c ih =>
    have hposBefore : ∀ c' ∈ calls, c'.nowUs > 0 := fun c' hc' => hpos c' (List.mem_append_left _ hc')
    have horderedBefore : Ordered calls := (List.pairwise_append.mp hordered).1
    replace ih := ih hposBefore horderedBefore
    constructor
    · intro hexact
      have huntied := ih.mp fun past hpast => hexact past (hpast.trans (List.prefix_append calls [c]))
      obtain ⟨results, f, hrun, hlen, tidy, hideal⟩ := run_spec hposBefore horderedBefore
      obtain ⟨hrecorded, hmirrors⟩ := hideal huntied
      have hnow := hpos c (List.mem_append_right _ List.mem_cons_self)
      rw [ideal_append, learn]
      split
      case isTrue => exact huntied
      case isFalse hmem =>
        rw [untied_append]
        refine ⟨huntied, ?_⟩
        by_contra htied
        have hnew : ¬ Knows f c.src c.msgId := fun h => hmem ((hmirrors.knows_iff c.src c.msgId).mp h)
        rcases tidy.step hnow with ⟨hknown, -⟩ | ⟨-, f', hstep, hrecord, -⟩
        · exact hnew hknown
        · have hremembers := hexact (calls ++ [c]) (List.prefix_refl _) (results ++ [.ok]) f'
            (Run.runAll_concat.mpr ⟨results, f, _, hrun, hstep, rfl⟩)
          rw [recorded_append hlen, hrecorded, if_pos rfl] at hremembers
          exact hmirrors.forgets (horderedBefore.sublist (ideal_sublist calls)) htied hnew hrecord hremembers
    · intro huntied past hpast results f hrun
      rcases List.prefix_concat_iff.mp hpast with rfl | hbefore
      · obtain ⟨results', f', hrun', -, -, hideal⟩ := run_spec hpos hordered
        cases hrun.symm.trans hrun'
        obtain ⟨hrecorded, hmirrors⟩ := hideal huntied
        rw [hrecorded]
        exact hmirrors.remembers
      · exact ih.mpr huntied.init past hbefore results f hrun

/-- Over calls whose times do not fall, no pair is ever in two slots; and the filter knows the last records
after every prefix exactly when no record of the ideal filter comes at a tie. -/
theorem window_exact_iff (calls : List Call) (hpos : ∀ c ∈ calls, c.nowUs > 0) (hordered : Ordered calls) :
    (∀ past, past <+: calls → ∃ results f, Run.runAll step past init = .ok (results, f) ∧ OneSlotEach f) ∧
      (Exact calls ↔ Untied (ideal calls)) := by
  refine ⟨fun past hpast => ?_, exact_iff hpos hordered⟩
  obtain ⟨results, f, hrun, -, tidy, -⟩ := run_spec (fun c hc => hpos c (hpast.subset hc))
    (hordered.sublist hpast.sublist)
  exact ⟨results, f, hrun, tidy.distinct⟩

/-! ### Different pairs, one call after the other -/

/-- Calls with different pairs, the `k`-th at `time k`. -/
def burst (time : Nat → UInt64) (n : Nat) : List Call := (List.range n).map fun k => ⟨1, .ofNat k, time k⟩

variable {time : Nat → UInt64} {n : Nat}

theorem burst_ordered (hmono : ∀ j k, j < k → k < n → time j ≤ time k) : Ordered (burst time n) := by
  refine List.pairwise_map.mpr (List.pairwise_lt_range.imp_of_mem fun _ hk hlt => ?_)
  exact hmono _ _ hlt (List.mem_range.mp hk)

theorem burst_pos (hpos : ∀ k < n, time k > 0) : ∀ c ∈ burst time n, c.nowUs > 0 := by
  intro c hc
  obtain ⟨k, hk, rfl⟩ := List.mem_map.mp hc
  exact hpos k (List.mem_range.mp hk)

theorem burst_getElem? {k : Nat} (hk : k < n) : (burst time n)[k]? = some ⟨1, .ofNat k, time k⟩ := by
  rw [burst, List.getElem?_map, List.getElem?_range hk]
  rfl

theorem length_burst : (burst time n).length = n := by rw [burst, List.length_map, List.length_range]

/-- Calls with different pairs are all recorded by the ideal filter. -/
theorem ideal_of_nodup {calls : List Call} (h : (calls.map Call.pair).Nodup) : ideal calls = calls := by
  induction calls using List.reverseRecOn with
  | nil => rfl
  | append_singleton calls c ih =>
    rw [List.map_append, List.map_singleton, List.nodup_append] at h
    obtain ⟨hbefore, -, hnew⟩ := h
    have hmem : c.pair ∉ recent calls := fun hmem =>
      hnew c.pair (List.map_subset _ (List.drop_subset _ _) hmem) c.pair List.mem_cons_self rfl
    rw [ideal_append, ih hbefore, learn, if_neg hmem]

theorem burst_nodup (hn : n < 2 ^ 64) : ((burst time n).map Call.pair).Nodup := by
  unfold burst
  rw [List.map_map]
  refine List.Nodup.map_on (fun a ha b hb heq => ?_) List.nodup_range
  have ha' := List.mem_range.mp ha
  have hb' := List.mem_range.mp hb
  have hid : UInt64.ofNat a = UInt64.ofNat b := congrArg Prod.snd heq
  have hnat := congrArg UInt64.toNat hid
  rw [UInt64.toNat_ofNat_of_lt' (by show a < 2 ^ 64; omega), UInt64.toNat_ofNat_of_lt' (by show b < 2 ^ 64; omega)]
    at hnat
  exact hnat

/-- Three hundred calls, each a microsecond after the one before: the window is filled, and filled again, and
after each of them the last ones are remembered. -/
theorem burst_exact : Exact (burst (fun k => .ofNat (k + 1)) 300) := by
  have hnat (k : Nat) (hk : k < 300) : (UInt64.ofNat (k + 1)).toNat = k + 1 :=
    UInt64.toNat_ofNat_of_lt' (by show k + 1 < 2 ^ 64; omega)
  have hpos : ∀ k < 300, UInt64.ofNat (k + 1) > 0 := fun k hk => by
    rw [gt_iff_lt, UInt64.lt_iff_toNat_lt, hnat k hk]
    exact Nat.succ_pos k
  have hmono : ∀ j k, j < k → k < 300 → UInt64.ofNat (j + 1) ≤ UInt64.ofNat (k + 1) := fun j k hlt hk => by
    rw [UInt64.le_iff_toNat_le, hnat j (by omega), hnat k hk]
    omega
  refine (window_exact_iff _ (burst_pos hpos) (burst_ordered hmono)).2.mpr ?_
  rw [ideal_of_nodup (burst_nodup (by decide))]
  intro n hn m k a b hm hk hlt ha hb
  rw [length_burst] at hn
  have hmod : n % dedupWindowSize < dedupWindowSize := Nat.mod_lt _ (by decide)
  rw [burst_getElem? (by omega)] at ha hb
  cases ha
  cases hb
  rw [UInt64.lt_iff_toNat_lt, hnat m (by omega), hnat k (by omega)]
  omega

/-- When they all come at one time, one of the last is forgotten. -/
theorem burst_forgets : ¬ Exact (burst (fun _ => 5) 130) := by
  have hpos : ∀ k < 130, (5 : UInt64) > 0 := fun _ _ => by decide
  have hmono : ∀ j k, j < k → k < 130 → (5 : UInt64) ≤ 5 := fun _ _ _ _ => UInt64.le_refl 5
  rw [exact_iff (burst_pos hpos) (burst_ordered hmono), ideal_of_nodup (burst_nodup (by decide))]
  intro huntied
  have hlen : 129 < (burst (fun _ => 5) 130).length := by rw [length_burst]; decide
  have hlt := huntied 129 hlen 1 128 _ _ rfl rfl (by decide) (burst_getElem? (by decide)) (burst_getElem? (by decide))
  exact UInt64.lt_irrefl _ hlt

end DuplicateFilter

end MessageEngine
