import MessageEngine.Laws.RetryManager

/-!
# What a collection does to the retry table

`collectDue` first frees the entries that lapsed or are spent, then copies out the first due ones the
buffer has room for. The two inversion lemmas say this of any collection that returned, with the
counters it leaves; `collectDue_total` says that it returns for any size of the buffer.
-/

namespace MessageEngine

open Outcome Table

/-! ## The two tests on a slot, once they returned -/

theorem slotHasExpired_ok {expiryUs nowUs : UInt64} {b : Bool} (h : slotHasExpired expiryUs nowUs = .ok b) :
    b = timestampExpired expiryUs nowUs := by
  obtain ⟨-, h⟩ := ensure_bind_eq_ok.mp h
  obtain ⟨-, h⟩ := ensure_bind_eq_ok.mp h
  cases h
  rfl

/-- The backoff after the next retry. -/
def nextBackoff (currentMs : UInt32) : UInt32 :=
  let doubled := (if currentMs > 30000 then 30000 else currentMs) * 2
  if doubled = 0 then 1 else doubled

theorem advanceBackoff_ok {currentMs next : UInt32} (h : advanceBackoff currentMs = .ok next) :
    next = nextBackoff currentMs ∧ next ≤ 60000 := by
  obtain ⟨-, h⟩ := ensure_bind_eq_ok.mp h
  obtain ⟨hle, h⟩ := ensure_bind_eq_ok.mp h
  obtain ⟨-, h⟩ := ensure_bind_eq_ok.mp h
  cases h
  exact ⟨rfl, hle⟩

namespace RetryManager

variable {m m' : RetryManager} {nowUs : UInt64} {bufCap : Nat}

/-! ## The first phase -/

/-- The entry expired. -/
def RetryEntry.lapsed (nowUs : UInt64) (slot : RetryEntry) : Bool :=
  slot.active && timestampExpired slot.expiryUs nowUs

/-- The entry has used up its retries. -/
def RetryEntry.spent (nowUs : UInt64) (slot : RetryEntry) : Bool :=
  slot.active && (!timestampExpired slot.expiryUs nowUs && decide (slot.retryCount ≥ slot.maxRetries))

/-- The slot after the first phase. -/
def RetryEntry.reaped (nowUs : UInt64) (slot : RetryEntry) : RetryEntry :=
  if slot.lapsed nowUs || slot.spent nowUs then { slot with active := false } else slot

theorem RetryEntry.of_inactive {slot : RetryEntry} (h : slot.active = false) :
    slot.lapsed nowUs = false ∧ slot.spent nowUs = false := by
  simp [RetryEntry.lapsed, RetryEntry.spent, h]

theorem RetryEntry.reaped_active {slot : RetryEntry} (h : (slot.reaped nowUs).active = true) :
    slot.reaped nowUs = slot ∧ slot.active = true ∧ timestampExpired slot.expiryUs nowUs = false ∧
      slot.retryCount < slot.maxRetries := by
  unfold RetryEntry.reaped at h ⊢
  split at h
  case isTrue _ => cases h
  case isFalse hstays =>
    refine ⟨if_neg hstays, h, ?_⟩
    rw [RetryEntry.lapsed, RetryEntry.spent, h] at hstays
    cases hexpired : timestampExpired slot.expiryUs nowUs with
    | true => simp [hexpired] at hstays
    | false => simpa [hexpired] using hstays

/-- What the first phase has done before round `k`. -/
structure Reaped (m : RetryManager) (nowUs : UInt64) (k : Nat) (s : RetryManager) : Prop where
  slots : Mapped (RetryEntry.reaped nowUs) m.slots s.slots k
  lastCollectUs : s.lastCollectUs = m.lastCollectUs
  freed : ∃ lapsed spent, lapsed + s.slots.countP (RetryEntry.lapsed nowUs) = m.slots.countP (RetryEntry.lapsed nowUs) ∧
    spent + s.slots.countP (RetryEntry.spent nowUs) = m.slots.countP (RetryEntry.spent nowUs) ∧
    s.activeCount + lapsed + spent = m.activeCount ∧
    s.stats = { m.stats with
      slotsExpired := m.stats.slotsExpired + UInt32.ofNat lapsed
      slotsExhausted := m.stats.slotsExhausted + UInt32.ofNat spent }

theorem Reaped.start : Reaped m nowUs 0 m :=
  ⟨Mapped.start, rfl, 0, 0, Nat.zero_add _, Nat.zero_add _, rfl, by simp⟩

/-- The three counts of the table after slot `i` was freed. -/
theorem freed_counts {i : Fin ackTrackerCapacity} (hactive : m.slots[i].active = true) (nowUs : UInt64) :
    (m.release i).activeCount + 1 = m.activeCount ∧
    (m.release i).slots.countP (RetryEntry.lapsed nowUs) + (if m.slots[i].lapsed nowUs then 1 else 0) =
      m.slots.countP (RetryEntry.lapsed nowUs) ∧
    (m.release i).slots.countP (RetryEntry.spent nowUs) + (if m.slots[i].spent nowUs then 1 else 0) =
      m.slots.countP (RetryEntry.spent nowUs) :=
  ⟨activeCount_set hactive rfl, countP_set_add (RetryEntry.lapsed nowUs) m.slots i _,
    countP_set_add (RetryEntry.spent nowUs) m.slots i _⟩

theorem Reaped.round {i : Fin ackTrackerCapacity} {s s' : RetryManager} (h : Reaped m nowUs i s)
    (hround : reapSlot nowUs i s = .ok s') : Reaped m nowUs (i + 1) s' := by
  obtain ⟨lapsed, spent, hlapsed, hspent, hcount, hstats⟩ := h.freed
  have hget := h.slots.get
  unfold reapSlot at hround
  split at hround
  case isTrue hidle =>
    cases hround
    have hinactive : s.slots[i].active = false := by simpa using hidle
    rw [hget] at hinactive
    refine ⟨h.slots.skip ?_, h.lastCollectUs, h.freed⟩
    obtain ⟨hlap, hnot⟩ := @RetryEntry.of_inactive nowUs _ hinactive
    rw [RetryEntry.reaped, hlap, hnot]
    rfl
  case isFalse hidle =>
    have hactive : s.slots[i].active = true := by simpa using hidle
    obtain ⟨expired, hexp, hbranch⟩ := bind_eq_ok.mp hround
    have hexpired := slotHasExpired_ok hexp
    obtain ⟨hone, hthose, hothers⟩ := freed_counts (m := s) hactive nowUs
    split at hbranch
    case isTrue hyes =>
      obtain ⟨-, hdone⟩ := ensure_bind_eq_ok.mp hbranch
      cases hdone
      have hlap : s.slots[i].lapsed nowUs = true := by
        rw [RetryEntry.lapsed, hactive, ← hexpired, hyes]
        rfl
      have hnot : s.slots[i].spent nowUs = false := by
        rw [RetryEntry.spent, ← hexpired, hyes]
        simp
      rw [hlap, if_pos rfl] at hthose
      rw [hnot, if_neg Bool.false_ne_true] at hothers
      refine ⟨h.slots.set ?_, h.lastCollectUs, lapsed + 1, spent, ?_, ?_, ?_, ?_⟩
      · rw [hget] at hlap ⊢
        rw [RetryEntry.reaped, hlap]
        rfl
      · change lapsed + 1 + (s.release i).slots.countP _ = _
        omega
      · change spent + (s.release i).slots.countP _ = _
        omega
      · change (s.release i).activeCount + (lapsed + 1) + spent = _
        omega
      · dsimp only
        rw [hstats, UInt32.ofNat_add, ← UInt32.add_assoc]
        rfl
    case isFalse hno =>
      have hlap : s.slots[i].lapsed nowUs = false := by
        rw [RetryEntry.lapsed, ← hexpired, Bool.not_eq_true expired |>.mp hno, Bool.and_false]
      split at hbranch
      case isTrue hout =>
        obtain ⟨-, hdone⟩ := ensure_bind_eq_ok.mp hbranch
        cases hdone
        have hspentSlot : s.slots[i].spent nowUs = true := by
          rw [RetryEntry.spent, hactive, ← hexpired, Bool.not_eq_true expired |>.mp hno]
          simpa using hout
        rw [hlap, if_neg Bool.false_ne_true] at hthose
        rw [hspentSlot, if_pos rfl] at hothers
        refine ⟨h.slots.set ?_, h.lastCollectUs, lapsed, spent + 1, ?_, ?_, ?_, ?_⟩
        · rw [hget] at hspentSlot ⊢
          rw [RetryEntry.reaped, hspentSlot, Bool.or_true]
          rfl
        · change lapsed + (s.release i).slots.countP _ = _
          omega
        · change spent + 1 + (s.release i).slots.countP _ = _
          omega
        · change (s.release i).activeCount + lapsed + (spent + 1) = _
          omega
        · dsimp only
          rw [hstats, UInt32.ofNat_add, ← UInt32.add_assoc]
          rfl
      case isFalse hleft =>
        cases hbranch
        have hnot : s.slots[i].spent nowUs = false := by
          rw [RetryEntry.spent, decide_eq_false hleft]
          simp
        refine ⟨h.slots.skip ?_, h.lastCollectUs, h.freed⟩
        rw [hget] at hlap hnot
        rw [RetryEntry.reaped, hlap, hnot]
        rfl

/-- Nothing that lapsed or is spent is left after the first phase. -/
theorem Reaped.cleared {s : RetryManager} (h : Reaped m nowUs ackTrackerCapacity s) :
    s.slots.countP (RetryEntry.lapsed nowUs) = 0 ∧ s.slots.countP (RetryEntry.spent nowUs) = 0 := by
  have hnone (i : Fin ackTrackerCapacity) :
      s.slots[i].lapsed nowUs = false ∧ s.slots[i].spent nowUs = false := by
    cases hactive : s.slots[i].active with
    | false => exact RetryEntry.of_inactive hactive
    | true =>
      rw [h.slots.all i] at hactive ⊢
      obtain ⟨hsame, -, hexpired, hleft⟩ := RetryEntry.reaped_active hactive
      rw [hsame]
      refine ⟨by rw [RetryEntry.lapsed, hexpired, Bool.and_false], ?_⟩
      rw [RetryEntry.spent, decide_eq_false (UInt32.not_le.mpr hleft)]
      simp
  exact ⟨countP_eq_zero.mpr fun i => (hnone i).1, countP_eq_zero.mpr fun i => (hnone i).2⟩

/-! ## The second phase -/

/-- The entry is to be sent again. -/
def RetryEntry.due (nowUs : UInt64) (slot : RetryEntry) : Bool :=
  slot.active && decide (slot.nextRetryUs ≤ nowUs)

/-- The entry after it was sent again. -/
def RetryEntry.retried (nowUs : UInt64) (slot : RetryEntry) : RetryEntry :=
  { slot with
    retryCount := slot.retryCount + 1
    backoffMs := nextBackoff slot.backoffMs
    nextRetryUs := nowUs + (nextBackoff slot.backoffMs).toUInt64 * 1000 }

/-- The due slots below `k`, in order. -/
def dueSlots (m : RetryManager) (nowUs : UInt64) (k : Nat) : List (Fin ackTrackerCapacity) :=
  ((List.finRange ackTrackerCapacity).take k).filter fun i => m.slots[i].due nowUs

/-- The slots a collection takes: the first due ones the buffer has room for. -/
def picks (m : RetryManager) (nowUs : UInt64) (bufCap k : Nat) : List (Fin ackTrackerCapacity) :=
  (m.dueSlots nowUs k).take bufCap

/-- What the second phase has done before round `k`. -/
structure Collected (m : RetryManager) (nowUs : UInt64) (bufCap k : Nat)
    (s : RetryManager × List MessageEnvelope) : Prop where
  out : s.2 = (m.picks nowUs bufCap k).map fun i => m.slots[i].env
  slots : ∀ j : Fin ackTrackerCapacity, s.1.slots[j] =
    if j ∈ m.picks nowUs bufCap k then m.slots[j].retried nowUs else m.slots[j]
  stats : s.1.stats = { m.stats with retriesSent := m.stats.retriesSent + UInt32.ofNat s.2.length }
  lastCollectUs : s.1.lastCollectUs = m.lastCollectUs
  active : s.1.activeCount = m.activeCount

theorem Collected.start : Collected m nowUs bufCap 0 (m, []) := by
  have hnone : m.picks nowUs bufCap 0 = [] := Table.picks_zero
  refine ⟨by rw [hnone]; rfl, fun j => ?_, by simp, rfl, rfl⟩
  rw [hnone, if_neg List.not_mem_nil]

/-- The slot of the round is still as it was. -/
theorem Collected.get {i : Fin ackTrackerCapacity} {s : RetryManager × List MessageEnvelope}
    (h : Collected m nowUs bufCap i s) : s.1.slots[i] = m.slots[i] := by
  rw [h.slots i, if_neg]
  intro hi
  exact Nat.lt_irrefl _ (mem_picks hi).1

theorem Collected.round {i : Fin ackTrackerCapacity} {s s' : RetryManager × List MessageEnvelope}
    (h : Collected m nowUs bufCap i s) (hround : collectSlot nowUs bufCap i s = .ok s') :
    Collected m nowUs bufCap (i + 1) s' := by
  have hget := h.get
  have hlength : s.2.length = (m.picks nowUs bufCap i).length := by rw [h.out, List.length_map]
  unfold collectSlot at hround
  split at hround
  case isTrue hdue =>
    obtain ⟨backoffMs, hback, hdone⟩ := bind_eq_ok.mp hround
    cases hdone
    obtain ⟨rfl, -⟩ := advanceBackoff_ok hback
    obtain ⟨hroom, hactive, hnext⟩ := hdue
    rw [hget] at hactive hnext
    have hpicks : m.picks nowUs bufCap (i + 1) = m.picks nowUs bufCap i ++ [i] :=
      picks_room (by rw [RetryEntry.due, hactive, decide_eq_true hnext]; rfl) (hlength ▸ hroom)
    refine ⟨?_, fun j => ?_, ?_, h.lastCollectUs, ?_⟩
    · dsimp only
      rw [hpicks, h.out, List.map_append, hget]
      rfl
    · dsimp only
      rw [getElem_set_fin, hpicks]
      by_cases hij : i = j
      · rw [if_pos hij, if_pos (List.mem_append_right _ (List.mem_singleton.mpr hij.symm)), hget, ← hij]
        rfl
      · have hiff : j ∈ m.picks nowUs bufCap i ++ [i] ↔ j ∈ m.picks nowUs bufCap i := by
          rw [List.mem_append, List.mem_singleton]
          exact or_iff_left fun heq => hij heq.symm
        rw [if_neg hij, h.slots j, if_congr hiff rfl rfl]
    · dsimp only
      rw [h.stats, List.length_append, List.length_singleton, UInt32.ofNat_add, ← UInt32.add_assoc]
      rfl
    · have hset := countP_set_add RetryEntry.active s.1.slots i (s.1.slots[i].retried nowUs)
      have hsame : (s.1.slots[i].retried nowUs).active = s.1.slots[i].active := rfl
      rw [hsame] at hset
      exact (Nat.add_right_cancel hset).trans h.active
  case isFalse hidle =>
    cases hround
    have hpicks : m.picks nowUs bufCap (i + 1) = m.picks nowUs bufCap i := by
      apply picks_skip
      by_cases hroom : s.2.length < bufCap
      · refine .inl ?_
        rw [hget] at hidle
        rw [RetryEntry.due, Bool.and_eq_false_iff, decide_eq_false_iff_not]
        by_contra hdue
        rw [not_or, Bool.not_eq_false, Classical.not_not] at hdue
        exact hidle ⟨hroom, hdue⟩
      · exact .inr (hlength ▸ hroom)
    refine ⟨by rw [hpicks]; exact h.out, fun j => ?_, h.stats, h.lastCollectUs, h.active⟩
    rw [hpicks]
    exact h.slots j

/-! ## The whole collection -/

/-- A collection that returned: the table after the first phase, and what the second made of it. -/
theorem collectDue_cases {out : List MessageEnvelope} (h : m.collectDue nowUs bufCap = .ok (out, m')) :
    ∃ m₁, Reaped m (m.collectTime nowUs) ackTrackerCapacity { m₁ with lastCollectUs := m.lastCollectUs } ∧
      m₁.lastCollectUs = m.collectTime nowUs ∧
      Collected m₁ (m.collectTime nowUs) bufCap ackTrackerCapacity (m', out) := by
  obtain ⟨-, h⟩ := ensure_bind_eq_ok.mp h
  obtain ⟨-, h⟩ := ensure_bind_eq_ok.mp h
  obtain ⟨m₁, hreap, h⟩ := bind_eq_ok.mp h
  obtain ⟨⟨m₂, out₂⟩, hcollect, h⟩ := bind_eq_ok.mp h
  obtain ⟨-, h⟩ := ensure_bind_eq_ok.mp h
  obtain ⟨-, h⟩ := ensure_bind_eq_ok.mp h
  cases h
  obtain ⟨-, hreap⟩ := ensure_bind_eq_ok.mp hreap
  obtain ⟨m₃, hloop, hreap⟩ := bind_eq_ok.mp hreap
  obtain ⟨-, hreap⟩ := ensure_bind_eq_ok.mp hreap
  cases hreap
  have hreaped := eachIndex_inv hloop Reaped.start fun i s s' => Reaped.round
  have hcollected := eachIndex_inv hcollect Collected.start fun i s s' => Collected.round
  exact ⟨m₁, ⟨hreaped.slots, rfl, hreaped.freed⟩, hreaped.lastCollectUs, hcollected⟩

/-- The entry is sent again by a collection with room for it: it has not lapsed, has retries left and
its time has come. -/
def RetryEntry.ripe (nowUs : UInt64) (slot : RetryEntry) : Bool := (slot.reaped nowUs).due nowUs

theorem RetryEntry.ripe_iff {slot : RetryEntry} :
    slot.ripe nowUs = true ↔ slot.active = true ∧ timestampExpired slot.expiryUs nowUs = false ∧
      slot.retryCount < slot.maxRetries ∧ slot.nextRetryUs ≤ nowUs := by
  constructor
  · intro h
    rw [RetryEntry.ripe, RetryEntry.due, Bool.and_eq_true, decide_eq_true_eq] at h
    obtain ⟨hsame, hactive, hexpired, hleft⟩ := RetryEntry.reaped_active h.1
    rw [hsame] at h
    exact ⟨hactive, hexpired, hleft, h.2⟩
  · intro h
    obtain ⟨hactive, hexpired, hleft, hnext⟩ := h
    have hlap : slot.lapsed nowUs = false := by rw [RetryEntry.lapsed, hexpired, Bool.and_false]
    have hnot : slot.spent nowUs = false := by
      rw [RetryEntry.spent, decide_eq_false (UInt32.not_le.mpr hleft)]
      simp
    have hsame : slot.reaped nowUs = slot := by
      rw [RetryEntry.reaped, hlap, hnot]
      rfl
    rw [RetryEntry.ripe, hsame, RetryEntry.due, hactive, decide_eq_true hnext]
    rfl

/-- The slots below `k` that are to be sent again, in order. -/
def ripeSlots (m : RetryManager) (nowUs : UInt64) (k : Nat) : List (Fin ackTrackerCapacity) :=
  ((List.finRange ackTrackerCapacity).take k).filter fun i => m.slots[i].ripe nowUs

/-- The slots a collection sends again: the first ones its buffer has room for. -/
def chosen (m : RetryManager) (nowUs : UInt64) (bufCap : Nat) : List (Fin ackTrackerCapacity) :=
  (m.ripeSlots nowUs ackTrackerCapacity).take bufCap

theorem mem_chosen {i : Fin ackTrackerCapacity} (h : i ∈ m.chosen nowUs bufCap) :
    m.slots[i].ripe nowUs = true :=
  (List.mem_filter.mp (List.mem_of_mem_take h)).2

theorem chosen_nodup : (m.chosen nowUs bufCap).Nodup := by
  have hall : (m.ripeSlots nowUs ackTrackerCapacity).Sublist (List.finRange ackTrackerCapacity) :=
    List.filter_sublist.trans (List.take_sublist _ _)
  exact List.Nodup.sublist ((List.take_sublist _ _).trans hall) (List.nodup_finRange _)

/-- A ripe slot with room left in the buffer when its turn comes is chosen. -/
theorem mem_chosen_of_room {i : Fin ackTrackerCapacity} (hripe : m.slots[i].ripe nowUs = true)
    (hroom : (m.ripeSlots nowUs i).length < bufCap) : i ∈ m.chosen nowUs bufCap := by
  let order := List.finRange ackTrackerCapacity
  have hi : (i : Nat) < order.length := by simp [order]
  have hget : order[(i : Nat)] = i := by simp [order]
  have hsplit : m.ripeSlots nowUs ackTrackerCapacity =
      m.ripeSlots nowUs i ++ i :: (order.drop (i + 1)).filter fun j => m.slots[j].ripe nowUs := by
    have hall : order.take ackTrackerCapacity = order.take i ++ i :: order.drop (i + 1) := by
      rw [List.take_of_length_le (by simp [order])]
      have hcons := List.drop_eq_getElem_cons hi
      rw [hget] at hcons
      rw [← hcons, List.take_append_drop]
    rw [ripeSlots, hall, List.filter_append, List.filter_cons, if_pos hripe]
    rfl
  obtain ⟨k, hk⟩ : ∃ k, bufCap - (m.ripeSlots nowUs i).length = k + 1 := ⟨_, (Nat.succ_pred_eq_of_pos (by omega)).symm⟩
  rw [chosen, hsplit, List.take_append, hk, List.take_succ_cons]
  exact List.mem_append_right _ List.mem_cons_self

/-- What a collection at the time `nowUs` did. -/
structure Collects (m : RetryManager) (nowUs : UInt64) (bufCap : Nat) (m' : RetryManager)
    (out : List MessageEnvelope) : Prop where
  out : out = (m.chosen nowUs bufCap).map fun i => m.slots[i].env
  slots : ∀ j : Fin ackTrackerCapacity, m'.slots[j] =
    if j ∈ m.chosen nowUs bufCap then m.slots[j].retried nowUs else m.slots[j].reaped nowUs
  clock : m'.lastCollectUs = nowUs

theorem collectDue_collects {out : List MessageEnvelope} (h : m.collectDue nowUs bufCap = .ok (out, m')) :
    Collects m (m.collectTime nowUs) bufCap m' out := by
  obtain ⟨m₁, hreaped, hclock, hcollected⟩ := collectDue_cases h
  have hslots (i : Fin ackTrackerCapacity) : m₁.slots[i] = m.slots[i].reaped (m.collectTime nowUs) :=
    hreaped.slots.all i
  have hpicks : m₁.picks (m.collectTime nowUs) bufCap ackTrackerCapacity =
      m.chosen (m.collectTime nowUs) bufCap := by
    rw [picks, chosen, dueSlots, ripeSlots]
    simp only [hslots]
    rfl
  have hsame {i : Fin ackTrackerCapacity} (hi : i ∈ m.chosen (m.collectTime nowUs) bufCap) :
      m.slots[i].reaped (m.collectTime nowUs) = m.slots[i] := by
    have hripe := mem_chosen hi
    rw [RetryEntry.ripe, RetryEntry.due, Bool.and_eq_true] at hripe
    exact (RetryEntry.reaped_active hripe.1).1
  refine ⟨?_, fun j => ?_, hcollected.lastCollectUs.trans hclock⟩
  · have hout := hcollected.out
    dsimp only at hout
    rw [hpicks] at hout
    rw [hout]
    apply List.map_congr_left
    intro i hi
    rw [hslots, hsame hi]
  · have hslot := hcollected.slots j
    dsimp only at hslot
    rw [hpicks, hslots] at hslot
    rw [hslot]
    split
    case isTrue hj => rw [hsame hj]
    case isFalse _ => rfl

/-- The values a collection refuses are not in the table. -/
def Tame (m : RetryManager) : Prop :=
  ∀ i : Fin ackTrackerCapacity, m.slots[i].active = true →
    m.slots[i].backoffMs ≤ 60000 ∧ m.slots[i].expiryUs ≠ saturatedUs

theorem tame_init : Tame init := by
  intro i hi
  have hinactive : init.slots[i].active = false := by simp [init]
  rw [hinactive] at hi
  cases hi

theorem Tame.endless (h : Tame m) (i : Fin ackTrackerCapacity) : ¬ m.slots[i].endless :=
  fun hend => (h i hend.1).2 hend.2

/-- A table that only lost entries is as tame as before. -/
theorem Tame.of_kept (h : Tame m)
    (kept : ∀ i : Fin ackTrackerCapacity, m'.slots[i].active = true → m'.slots[i] = m.slots[i]) : Tame m' := by
  intro i hi
  have hsame := kept i hi
  rw [hsame] at hi ⊢
  exact h i hi

/-- One slot written. -/
theorem Tame.set (h : Tame m) {i : Fin ackTrackerCapacity} {slot : RetryEntry} {count : Nat}
    {stats : RetryStats} {lastCollectUs : UInt64}
    (hslot : slot.active = true → slot.backoffMs ≤ 60000 ∧ slot.expiryUs ≠ saturatedUs) :
    Tame ⟨m.slots.set i slot i.isLt, count, stats, lastCollectUs⟩ := by
  intro j hj
  rw [getElem_set_fin] at hj ⊢
  split
  case isTrue hij => exact hslot (by rwa [if_pos hij] at hj)
  case isFalse hij => exact h j (by rwa [if_neg hij] at hj)

theorem collectSlot_total (i : Fin ackTrackerCapacity) (s : RetryManager × List MessageEnvelope)
    (h : Inv s.1 ∧ Tame s.1 ∧ s.2.length ≤ bufCap) :
    ∃ s', collectSlot nowUs bufCap i s = .ok s' ∧ Inv s'.1 ∧ Tame s'.1 ∧ s'.2.length ≤ bufCap := by
  obtain ⟨inv, tame, hlength⟩ := h
  unfold collectSlot
  split
  case isTrue hdue =>
    obtain ⟨hroom, hactive, -⟩ := hdue
    obtain ⟨hback, hexpiry⟩ := tame i hactive
    obtain ⟨next, hnext⟩ := advanceBackoff_spec hback
    refine ⟨_, bind_eq_ok.mpr ⟨next, hnext, rfl⟩, ?_, ?_, ?_⟩
    · refine inv.set i ?_ (fun _ => inv.valid i hactive)
      rw [if_pos hactive]
    · exact tame.set fun _ => ⟨(advanceBackoff_ok hnext).2, hexpiry⟩
    · rw [List.length_append, List.length_singleton]
      exact hroom
  case isFalse _ => exact ⟨s, rfl, inv, tame, hlength⟩

/-- A tame table is collected, for any size of the buffer. -/
theorem collectDue_total (inv : Inv m) (tame : Tame m) (hnow : nowUs ≠ 0) (hcap : bufCap ≤ msgRingCapacity) :
    ∃ out m', m.collectDue nowUs bufCap = .ok (out, m') ∧ Inv m' ∧ Tame m' := by
  have hstart : Inv { m with lastCollectUs := m.collectTime nowUs } := ⟨inv.count, inv.valid⟩
  obtain ⟨m₁, hreap, hreaped⟩ := reapTerminatedSlots_spec (m.collectTime_pos hnow) hstart tame.endless
  have htame : Tame m₁ := by
    apply tame.of_kept
    intro i hi
    by_cases hs : m.slots[i].survives (m.collectTime nowUs)
    · exact hreaped.kept i i.isLt hs
    · rw [hreaped.freed i i.isLt hs] at hi
      cases hi
  obtain ⟨⟨m', out⟩, hrun, hinv', htame', hlength⟩ :=
    eachIndex_total (fun _ s => Inv s.1 ∧ Tame s.1 ∧ s.2.length ≤ bufCap) (m₁, [])
      ⟨hreaped.inv, htame, Nat.zero_le _⟩ collectSlot_total
  refine ⟨out, m', ensure_bind_eq_ok.mpr ⟨hcap, ensure_bind_eq_ok.mpr ⟨hnow, ?_⟩⟩, hinv', htame'⟩
  exact bind_eq_ok.mpr ⟨m₁, hreap, bind_eq_ok.mpr ⟨_, hrun, ensure_bind_eq_ok.mpr ⟨hlength,
    ensure_bind_eq_ok.mpr ⟨hinv'.count_le, rfl⟩⟩⟩⟩

end RetryManager

end MessageEngine
