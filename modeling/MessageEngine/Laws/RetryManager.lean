import MessageEngine.Core.RetryManager

/-!
# Laws of the retry table

The counter is the number of active slots and every active slot holds a valid envelope. All
operations but one are total. `collectDue` is total up to the two values it refuses: an active
slot that expires at the largest timestamp, and a due slot whose backoff was configured above a
minute.

## What is proved

- `collectDue_spec`, `collectDue_endless`, `collectDue_slow`: what `collectDue` does in each of the
  three cases, so exactly when it stops the run, and at which assertion.
-/

namespace MessageEngine

open Outcome Table

/-! ## The two tests on a slot -/

/-- The one expiry the test does not accept. -/
abbrev saturatedUs : UInt64 := 0xFFFFFFFFFFFFFFFF

theorem slotHasExpired_eq {expiryUs nowUs : UInt64} (hnow : nowUs > 0) (h : expiryUs ≠ saturatedUs) :
    slotHasExpired expiryUs nowUs = .ok (timestampExpired expiryUs nowUs) :=
  ensure_bind_eq_ok.mpr ⟨hnow, ensure_bind_eq_ok.mpr ⟨h, rfl⟩⟩

theorem slotHasExpired_saturated {nowUs : UInt64} (hnow : nowUs > 0) :
    slotHasExpired saturatedUs nowUs = .error (.assertion .slotHasExpired) := by
  have hne : ¬ saturatedUs ≠ (0xFFFFFFFFFFFFFFFF : UInt64) := fun h => h rfl
  unfold slotHasExpired
  simp only [ensure_pos hnow, ok_bind, ensure_neg hne, error_bind]

/-- The doubled backoff stays between a millisecond and a minute. -/
theorem advanceBackoff_spec {currentMs : UInt32} (h : currentMs ≤ 60000) :
    ∃ next, advanceBackoff currentMs = .ok next := by
  let capped : UInt32 := if currentMs > 30000 then 30000 else currentMs
  have hcapped : capped.toNat ≤ 30000 := by
    unfold capped
    split
    case isTrue _ => exact Nat.le_refl _
    case isFalse hle => exact UInt32.le_iff_toNat_le.mp (UInt32.not_lt.mp hle)
  have hdoubled : (capped * 2).toNat = capped.toNat * 2 := by
    rw [UInt32.toNat_mul]
    exact Nat.mod_eq_of_lt (by change capped.toNat * 2 < 4294967296; omega)
  let result : UInt32 := if capped * 2 = 0 then 1 else capped * 2
  have hresult : result ≤ 60000 ∧ result > 0 := by
    unfold result
    split
    case isTrue _ => exact ⟨by decide, by decide⟩
    case isFalse hne =>
      refine ⟨UInt32.le_iff_toNat_le.mpr ?_, UInt32.pos_iff_ne_zero.mpr hne⟩
      rw [hdoubled]
      exact Nat.mul_le_mul_right 2 hcapped
  exact ⟨result, ensure_bind_eq_ok.mpr ⟨h, ensure_bind_eq_ok.mpr ⟨hresult.1,
    ensure_bind_eq_ok.mpr ⟨hresult.2, rfl⟩⟩⟩⟩

theorem advanceBackoff_slow {currentMs : UInt32} (h : ¬ currentMs ≤ 60000) :
    advanceBackoff currentMs = .error (.assertion .advanceBackoff) := by
  unfold advanceBackoff
  simp only [ensure_neg h, error_bind]

namespace RetryManager

/-- The counter counts the active slots, and those hold valid envelopes. -/
structure Inv (m : RetryManager) : Prop where
  count : m.count = m.slots.countP RetryEntry.active
  valid : ∀ i : Fin ackTrackerCapacity, m.slots[i].active = true → envelopeValid m.slots[i].env

/-- The active entries, in slot order. -/
def activeEntries (m : RetryManager) : List RetryEntry := m.slots.toList.filter RetryEntry.active

variable {m m' : RetryManager}

theorem inv_init : Inv init := by
  have hinactive (i : Fin ackTrackerCapacity) : init.slots[i].active = false := by simp [init]
  refine ⟨?_, ?_⟩
  · change 0 = init.slots.countP RetryEntry.active
    symm
    rw [countP_eq_zero]
    exact hinactive
  · intro i h
    rw [hinactive i] at h
    cases h

theorem Inv.count_le (inv : Inv m) : m.count ≤ ackTrackerCapacity := by
  rw [inv.count]
  exact Vector.countP_le_size

theorem Inv.count_pos (inv : Inv m) {i : Fin ackTrackerCapacity} (h : m.slots[i].active = true) :
    m.count > 0 := by
  rw [inv.count]
  exact Vector.countP_pos_iff.mpr ⟨_, Vector.getElem_mem i.isLt, h⟩

/-- One slot written, with the counter following it. -/
theorem Inv.set (inv : Inv m) (i : Fin ackTrackerCapacity) {slot : RetryEntry} {count : Nat}
    {stats : RetryStats} {lastCollectUs : UInt64}
    (hcount : count + (if m.slots[i].active then 1 else 0) = m.count + if slot.active then 1 else 0)
    (hvalid : slot.active = true → envelopeValid slot.env) :
    Inv ⟨m.slots.set i slot i.isLt, count, stats, lastCollectUs⟩ := by
  refine ⟨?_, ?_⟩
  · have hset := countP_set_add RetryEntry.active m.slots i slot
    rw [← inv.count] at hset
    change count = (m.slots.set i slot i.isLt).countP RetryEntry.active
    omega
  · intro j hj
    rw [getElem_set_fin] at hj ⊢
    split
    case isTrue h => exact hvalid (by rwa [if_pos h] at hj)
    case isFalse h => exact inv.valid j (by rwa [if_neg h] at hj)

/-- Freeing an active slot. -/
theorem Inv.release (inv : Inv m) {i : Fin ackTrackerCapacity} (h : m.slots[i].active = true)
    (stats : RetryStats) : Inv { m.release i with stats } := by
  have hpos := inv.count_pos h
  refine inv.set i ?_ ?_
  · change m.count - 1 + (if m.slots[i].active then 1 else 0) = m.count + 0
    rw [if_pos h]
    omega
  · intro hactive
    cases hactive

theorem active_of_matches {slot : RetryEntry} {src : NodeId} {msgId : UInt64}
    (h : slot.matches src msgId = true) :
    slot.active = true ∧ slot.env.sourceId = src ∧ slot.env.messageId = msgId := by
  simpa [RetryEntry.matches] using h

/-! ## The operations that cannot fail -/

theorem schedule_spec (inv : Inv m) {env : MessageEnvelope} (valid : envelopeValid env)
    (maxRetries backoffMs : UInt32) (nowUs : UInt64) :
    ∃ r m', m.schedule env maxRetries backoffMs nowUs = .ok (r, m') ∧ Inv m' ∧
      (r = .ok ∨ r = .errFull) := by
  unfold schedule
  cases hf : firstSlot? (fun slot => !slot.active) m.slots with
  | some i =>
    have hfree : m.slots[i].active = false := by simpa using firstSlot?_some hf
    have hinv : Inv { m with
        slots := m.slots.set i
          { env, nextRetryUs := nowUs, expiryUs := env.expiryTimeUs, retryCount := 0, maxRetries,
            backoffMs, active := true } i.isLt
        count := m.count + 1 } := by
      refine inv.set i ?_ (fun _ => valid)
      rw [hfree]
      rfl
    refine ⟨.ok, _, ?_, hinv, .inl rfl⟩
    exact ensure_bind_eq_ok.mpr ⟨valid, ensure_bind_eq_ok.mpr ⟨hinv.count_le, rfl⟩⟩
  | none =>
    have hfull : m.count = ackTrackerCapacity := by
      rw [inv.count, countP_eq_size]
      intro i
      simpa using firstSlot?_none.mp hf i
    refine ⟨.errFull, m, ?_, inv, .inr rfl⟩
    exact ensure_bind_eq_ok.mpr ⟨valid, ensure_bind_eq_ok.mpr ⟨hfull, rfl⟩⟩

/-- The entry of a message that was scheduled and not collected yet. -/
def RetryEntry.fresh (env : MessageEnvelope) (maxRetries backoffMs : UInt32) (nowUs : UInt64) : RetryEntry where
  env
  nextRetryUs := nowUs
  expiryUs := env.expiryTimeUs
  retryCount := 0
  maxRetries
  backoffMs
  active := true

/-- A call that returned wrote an inactive slot, or there was none. -/
theorem schedule_cases {env : MessageEnvelope} {maxRetries backoffMs : UInt32} {nowUs : UInt64}
    {r : Result} (h : m.schedule env maxRetries backoffMs nowUs = .ok (r, m')) :
    (r = .ok ∧ ∃ i : Fin ackTrackerCapacity, m.slots[i].active = false ∧
      m'.slots = m.slots.set i (.fresh env maxRetries backoffMs nowUs) i.isLt ∧
      m'.stats = m.stats ∧ m'.lastCollectUs = m.lastCollectUs) ∨
    (r = .errFull ∧ m' = m ∧ ∀ i : Fin ackTrackerCapacity, m.slots[i].active ≠ false) := by
  obtain ⟨-, h⟩ := ensure_bind_eq_ok.mp h
  cases hf : firstSlot? (fun slot => !slot.active) m.slots with
  | some i =>
    rw [hf] at h
    obtain ⟨-, h⟩ := ensure_bind_eq_ok.mp h
    cases h
    exact .inl ⟨rfl, i, by simpa using firstSlot?_some hf, rfl, rfl, rfl⟩
  | none =>
    rw [hf] at h
    obtain ⟨-, h⟩ := ensure_bind_eq_ok.mp h
    cases h
    exact .inr ⟨rfl, rfl, fun i => by simpa using firstSlot?_none.mp hf i⟩

/-- A call that returned freed the first active entry of the message, or there was none. -/
theorem cancel_cases {src : NodeId} {msgId : UInt64} {r : Result}
    (h : m.cancel src msgId = .ok (r, m')) :
    (r = .ok ∧ ∃ i, firstSlot? (RetryEntry.matches src msgId) m.slots = some i ∧ m' = m.release i) ∨
    (r = .errInvalid ∧ firstSlot? (RetryEntry.matches src msgId) m.slots = none ∧ m' = m) := by
  obtain ⟨-, h⟩ := ensure_bind_eq_ok.mp h
  cases hf : firstSlot? (RetryEntry.matches src msgId) m.slots with
  | some i =>
    rw [hf] at h
    obtain ⟨-, h⟩ := ensure_bind_eq_ok.mp h
    obtain ⟨-, h⟩ := ensure_bind_eq_ok.mp h
    cases h
    exact .inl ⟨rfl, i, rfl, rfl⟩
  | none =>
    rw [hf] at h
    cases h
    exact .inr ⟨rfl, rfl, rfl⟩

/-- An acknowledgement frees the first active entry of its message, if there is one. -/
theorem onAck_eq (inv : Inv m) {src : NodeId} (hsrc : src ≠ nodeIdInvalid) (msgId : UInt64) :
    m.onAck src msgId = .ok (match firstSlot? (RetryEntry.matches src msgId) m.slots with
      | some i => (.ok, { m.release i with
          stats := { m.stats with acksReceived := m.stats.acksReceived + 1 } })
      | none => (.errInvalid, m)) := by
  refine ensure_bind_eq_ok.mpr ⟨hsrc, ?_⟩
  cases hf : firstSlot? (RetryEntry.matches src msgId) m.slots with
  | some i =>
    have hactive := (active_of_matches (firstSlot?_some hf)).1
    exact ensure_bind_eq_ok.mpr ⟨inv.count_pos hactive, ensure_bind_eq_ok.mpr
      ⟨(inv.release hactive { m.stats with acksReceived := m.stats.acksReceived + 1 }).count_le, rfl⟩⟩
  | none => rfl

theorem onAck_spec (inv : Inv m) {src : NodeId} (hsrc : src ≠ nodeIdInvalid) (msgId : UInt64) :
    ∃ r m', m.onAck src msgId = .ok (r, m') ∧ Inv m' := by
  rw [onAck_eq inv hsrc]
  cases hf : firstSlot? (RetryEntry.matches src msgId) m.slots with
  | some i => exact ⟨_, _, rfl, inv.release (active_of_matches (firstSlot?_some hf)).1 _⟩
  | none => exact ⟨_, _, rfl, inv⟩

theorem cancel_spec (inv : Inv m) {src : NodeId} (msgId : UInt64) (hsrc : src ≠ nodeIdInvalid) :
    ∃ r m', m.cancel src msgId = .ok (r, m') ∧ Inv m' := by
  unfold cancel
  cases hf : firstSlot? (RetryEntry.matches src msgId) m.slots with
  | some i =>
    have hactive := (active_of_matches (firstSlot?_some hf)).1
    have hinv : Inv (m.release i) := inv.release hactive m.stats
    refine ⟨.ok, _, ?_, hinv⟩
    exact ensure_bind_eq_ok.mpr ⟨hsrc, ensure_bind_eq_ok.mpr ⟨inv.count_pos hactive,
      ensure_bind_eq_ok.mpr ⟨hinv.count_le, rfl⟩⟩⟩
  | none => exact ⟨_, _, ensure_bind_eq_ok.mpr ⟨hsrc, rfl⟩, inv⟩

theorem cancelPeer_spec (inv : Inv m) {dst : NodeId} (hdst : dst ≠ nodeIdInvalid) :
    ∃ n m', m.cancelPeer dst = .ok (n, m') ∧ Inv m' := by
  have hstep (i : Fin ackTrackerCapacity) (s : RetryManager × Nat) (hs : Inv s.1 ∧ s.2 ≤ i) :
      ∃ s', cancelPeerSlot dst i s = .ok s' ∧ Inv s'.1 ∧ s'.2 ≤ i + 1 := by
    unfold cancelPeerSlot
    split
    case isTrue h =>
      exact ⟨_, ensure_bind_eq_ok.mpr ⟨hs.1.count_pos h.1, rfl⟩, hs.1.release h.1 s.1.stats,
        Nat.succ_le_succ hs.2⟩
    case isFalse h => exact ⟨_, rfl, hs.1, Nat.le_succ_of_le hs.2⟩
  obtain ⟨⟨m', n⟩, hrun, hinv, hn⟩ :=
    eachIndex_total (fun k s => Inv s.1 ∧ s.2 ≤ k) (m, 0) ⟨inv, Nat.le_refl 0⟩ hstep
  refine ⟨n, m', ensure_bind_eq_ok.mpr ⟨hdst, bind_eq_ok.mpr ⟨_, hrun, ?_⟩⟩, hinv⟩
  exact ensure_bind_eq_ok.mpr ⟨hinv.count_le, ensure_bind_eq_ok.mpr ⟨hn, rfl⟩⟩

/-- The slot is active for the destination. -/
abbrev RetryEntry.owedBy (dst : NodeId) (slot : RetryEntry) : Prop :=
  slot.active = true ∧ slot.env.destinationId = dst

/-- The slot after `cancel_peer`. -/
def RetryEntry.cancelled (dst : NodeId) (slot : RetryEntry) : RetryEntry :=
  if slot.owedBy dst then { slot with active := false } else slot

/-- The active slots. -/
def activeCount (m : RetryManager) : Nat := m.slots.countP RetryEntry.active

/-- An active slot that is written over as inactive. -/
theorem activeCount_set {i : Fin ackTrackerCapacity} {slot : RetryEntry} (hold : m.slots[i].active = true)
    (hnew : slot.active = false) :
    (m.slots.set i slot i.isLt).countP RetryEntry.active + 1 = m.activeCount := by
  have hset := countP_set_add RetryEntry.active m.slots i slot
  rw [hold, if_pos rfl, hnew, if_neg Bool.false_ne_true] at hset
  exact hset

/-- What `cancel_peer` has done before round `k`. -/
structure Cancelling (m : RetryManager) (dst : NodeId) (k : Nat) (s : RetryManager × Nat) : Prop where
  slots : Mapped (RetryEntry.cancelled dst) m.slots s.1.slots k
  stats : s.1.stats = m.stats
  lastCollectUs : s.1.lastCollectUs = m.lastCollectUs
  counted : s.2 + s.1.activeCount = m.activeCount

theorem Cancelling.round {dst : NodeId} {i : Fin ackTrackerCapacity} {s s' : RetryManager × Nat}
    (h : Cancelling m dst i s) (hround : cancelPeerSlot dst i s = .ok s') :
    Cancelling m dst (i + 1) s' := by
  unfold cancelPeerSlot at hround
  split at hround
  case isTrue howed =>
    obtain ⟨-, hround⟩ := ensure_bind_eq_ok.mp hround
    cases hround
    have hcount := activeCount_set (m := s.1) howed.1
      (show ({ s.1.slots[i] with active := false } : RetryEntry).active = false from rfl)
    rw [h.slots.get] at howed
    refine ⟨h.slots.set ?_, h.stats, h.lastCollectUs, ?_⟩
    · rw [h.slots.get, RetryEntry.cancelled, if_pos howed]
    · have hbefore := h.counted
      change s.2 + 1 + (s.1.slots.set i _ i.isLt).countP _ = _
      omega
  case isFalse hother =>
    cases hround
    rw [h.slots.get] at hother
    exact ⟨h.slots.skip (if_neg hother), h.stats, h.lastCollectUs, h.counted⟩

/-- A cancellation frees the active entries of the destination and nothing else; when there are none
it does nothing. -/
theorem cancelPeer_cases {dst : NodeId} {n : Nat} (h : m.cancelPeer dst = .ok (n, m')) :
    Cancelling m dst ackTrackerCapacity (m', n) ∧
      ((∀ i : Fin ackTrackerCapacity, ¬ m.slots[i].owedBy dst) → n = 0 ∧ m' = m) := by
  obtain ⟨-, h⟩ := ensure_bind_eq_ok.mp h
  obtain ⟨⟨m₁, k⟩, hloop, h⟩ := bind_eq_ok.mp h
  obtain ⟨-, h⟩ := ensure_bind_eq_ok.mp h
  obtain ⟨-, h⟩ := ensure_bind_eq_ok.mp h
  cases h
  have hstart : Cancelling m dst 0 (m, 0) := ⟨Mapped.start, rfl, rfl, Nat.zero_add _⟩
  refine ⟨eachIndex_inv hloop hstart fun i s s' => Cancelling.round, fun hnone => ?_⟩
  have hsame := eachIndex_inv (I := fun _ s => s = (m, 0)) hloop rfl ?_
  · cases hsame
    exact ⟨rfl, rfl⟩
  · intro i s s' hs hround
    cases hs
    cases hround.symm.trans (if_neg (hnone i))
    rfl

/-! ## The first phase of `collectDue` -/

/-- An active slot whose expiry the test does not accept. -/
def RetryEntry.endless (slot : RetryEntry) : Prop :=
  slot.active = true ∧ slot.expiryUs = saturatedUs

/-- The slot stays in the table at `nowUs`: neither expired nor out of retries. -/
def RetryEntry.survives (nowUs : UInt64) (slot : RetryEntry) : Prop :=
  slot.active = true ∧ timestampExpired slot.expiryUs nowUs = false ∧ slot.retryCount < slot.maxRetries

/-- A slot that would be collected at `nowUs` but for its backoff. -/
def RetryEntry.slowAt (nowUs : UInt64) (slot : RetryEntry) : Prop :=
  slot.survives nowUs ∧ slot.nextRetryUs ≤ nowUs ∧ ¬ slot.backoffMs ≤ 60000

instance (slot : RetryEntry) : Decidable slot.endless := inferInstanceAs (Decidable (_ ∧ _))

instance (nowUs : UInt64) (slot : RetryEntry) : Decidable (slot.survives nowUs) :=
  inferInstanceAs (Decidable (_ ∧ _))

instance (nowUs : UInt64) (slot : RetryEntry) : Decidable (slot.slowAt nowUs) :=
  inferInstanceAs (Decidable (_ ∧ _))

/-- One round of the first phase: the slot is freed unless it survives, the others stay. -/
theorem reapSlot_spec {nowUs : UInt64} (hnow : nowUs > 0) (inv : Inv m) (i : Fin ackTrackerCapacity)
    (h : ¬ m.slots[i].endless) :
    ∃ m', reapSlot nowUs i m = .ok m' ∧ Inv m' ∧ m'.lastCollectUs = m.lastCollectUs ∧
      (∀ j, j ≠ i → m'.slots[j] = m.slots[j]) ∧
      (m.slots[i].survives nowUs → m'.slots[i] = m.slots[i]) ∧
      (¬ m.slots[i].survives nowUs → m'.slots[i].active = false) := by
  have released (stats : RetryStats) (hactive : m.slots[i].active = true)
      (hend : ¬ m.slots[i].survives nowUs) :
      Inv { m.release i with stats } ∧ (m.release i).lastCollectUs = m.lastCollectUs ∧
      (∀ j, j ≠ i → (m.release i).slots[j] = m.slots[j]) ∧
      (m.slots[i].survives nowUs → (m.release i).slots[i] = m.slots[i]) ∧
      (¬ m.slots[i].survives nowUs → (m.release i).slots[i].active = false) := by
    refine ⟨inv.release hactive stats, rfl, ?_, fun hs => absurd hs hend, ?_⟩
    · intro j hj
      simp only [release, getElem_set_fin, if_neg hj.symm]
    · intro _
      simp only [release, getElem_set_fin, if_true]
  unfold reapSlot
  cases hactive : m.slots[i].active with
  | false =>
    refine ⟨m, rfl, inv, rfl, fun _ _ => rfl, fun _ => rfl, fun _ => hactive⟩
  | true =>
    have hne : m.slots[i].expiryUs ≠ saturatedUs := fun heq => h ⟨hactive, heq⟩
    have hexp := slotHasExpired_eq hnow hne
    simp only [Bool.not_true, Bool.false_eq_true, if_false, hexp, ok_bind]
    cases hexpired : timestampExpired m.slots[i].expiryUs nowUs with
    | true =>
      refine ⟨_, ensure_bind_eq_ok.mpr ⟨inv.count_pos hactive, rfl⟩, released _ hactive ?_⟩
      intro hs
      rw [hs.2.1] at hexpired
      cases hexpired
    | false =>
      by_cases hretry : m.slots[i].retryCount ≥ m.slots[i].maxRetries
      · simp only [Bool.false_eq_true, if_false, if_pos hretry]
        refine ⟨_, ensure_bind_eq_ok.mpr ⟨inv.count_pos hactive, rfl⟩, released _ hactive ?_⟩
        intro hs
        exact absurd hs.2.2 (UInt32.not_lt.mpr hretry)
      · simp only [Bool.false_eq_true, if_false, if_neg hretry]
        refine ⟨m, rfl, inv, rfl, fun _ _ => rfl, fun _ => rfl, fun hend => ?_⟩
        exact absurd ⟨hactive, hexpired, UInt32.not_le.mp hretry⟩ hend

/-- The first phase after `k` rounds: the slots below `k` are settled and the others untouched. -/
structure Reaping (m : RetryManager) (nowUs : UInt64) (k : Nat) (s : RetryManager) : Prop where
  inv : Inv s
  clock : s.lastCollectUs = m.lastCollectUs
  ahead : ∀ j : Fin ackTrackerCapacity, k ≤ j → s.slots[j] = m.slots[j]
  kept : ∀ j : Fin ackTrackerCapacity, (j : Nat) < k → m.slots[j].survives nowUs →
    s.slots[j] = m.slots[j]
  freed : ∀ j : Fin ackTrackerCapacity, (j : Nat) < k → ¬ m.slots[j].survives nowUs →
    s.slots[j].active = false

theorem Reaping.round {nowUs : UInt64} (hnow : nowUs > 0) {i : Fin ackTrackerCapacity}
    {s : RetryManager} (r : Reaping m nowUs i s) (h : ¬ m.slots[i].endless) :
    ∃ s', reapSlot nowUs i s = .ok s' ∧ Reaping m nowUs (i + 1) s' := by
  have hi := r.ahead i (Nat.le_refl _)
  obtain ⟨s', hrun, hinv, hclock, hothers, hkeep, hfree⟩ :=
    reapSlot_spec hnow r.inv i (by rw [hi]; exact h)
  rw [hi] at hkeep hfree
  refine ⟨s', hrun, hinv, hclock.trans r.clock, ?_, ?_, ?_⟩
  · intro j hj
    rw [hothers j (by rintro rfl; omega)]
    exact r.ahead j (by omega)
  · intro j hj hs
    by_cases hji : j = i
    · subst hji
      exact hkeep hs
    · rw [hothers j hji]
      exact r.kept j (by have := Fin.val_ne_of_ne hji; omega) hs
  · intro j hj hs
    by_cases hji : j = i
    · subst hji
      exact hfree hs
    · rw [hothers j hji]
      exact r.freed j (by have := Fin.val_ne_of_ne hji; omega) hs

theorem reapTerminatedSlots_spec {nowUs : UInt64} (hnow : nowUs > 0) (inv : Inv m)
    (h : ∀ i : Fin ackTrackerCapacity, ¬ m.slots[i].endless) :
    ∃ m', m.reapTerminatedSlots nowUs = .ok m' ∧ Reaping m nowUs ackTrackerCapacity m' := by
  have hstart : Reaping m nowUs 0 m :=
    ⟨inv, rfl, fun _ _ => rfl, fun _ hj => absurd hj (Nat.not_lt_zero _),
      fun _ hj => absurd hj (Nat.not_lt_zero _)⟩
  obtain ⟨m', hrun, hreaped⟩ := eachIndex_total (Reaping m nowUs) m hstart
    (fun i _ r => r.round hnow (h i))
  refine ⟨m', ensure_bind_eq_ok.mpr ⟨hnow, bind_eq_ok.mpr ⟨m', hrun, ?_⟩⟩, hreaped⟩
  exact ensure_bind_eq_ok.mpr ⟨hreaped.inv.count_le, rfl⟩

/-- A slot whose expiry the test does not accept stops the first phase. -/
theorem reapTerminatedSlots_endless {nowUs : UInt64} (hnow : nowUs > 0) (inv : Inv m)
    {bad : Fin ackTrackerCapacity} (h : m.slots[bad].endless) :
    m.reapTerminatedSlots nowUs = .error (.assertion .slotHasExpired) := by
  have hloop : eachIndex ackTrackerCapacity (reapSlot nowUs) m = .error (.assertion .slotHasExpired) := by
    -- The bad slot is untouched until its round comes, and its round does not end.
    refine eachIndex_error (fun k s => Inv s ∧ k ≤ bad ∧ s.slots[bad] = m.slots[bad]) m
      ⟨inv, Nat.zero_le _, rfl⟩ ?_ ?_
    · rintro i s ⟨hinv, hle, hbad⟩
      by_cases hend : s.slots[i].endless
      · refine .inr ?_
        have hexp := slotHasExpired_saturated hnow
        rw [← hend.2] at hexp
        unfold reapSlot
        simp only [hend.1, Bool.not_true, Bool.false_eq_true, if_false, hexp, error_bind]
      · obtain ⟨s', hrun, hinv', -, hothers, -, -⟩ := reapSlot_spec hnow hinv i hend
        have hne : bad ≠ i := by
          rintro rfl
          rw [hbad] at hend
          exact hend h
        refine .inl ⟨s', hrun, hinv', ?_, (hothers bad hne).trans hbad⟩
        have := Fin.val_ne_of_ne hne
        omega
    · rintro s ⟨-, hle, -⟩
      exact absurd hle (Nat.not_le.mpr bad.isLt)
  unfold reapTerminatedSlots
  simp only [ensure_pos hnow, ok_bind, hloop, error_bind]

/-! ## The second phase -/

/-- The second phase after `k` rounds over the reaped table `m`. -/
structure Collecting (m : RetryManager) (k : Nat) (s : RetryManager × List MessageEnvelope) :
    Prop where
  inv : Inv s.1
  ahead : ∀ j : Fin ackTrackerCapacity, k ≤ j → s.1.slots[j] = m.slots[j]
  room : s.2.length ≤ k
  valid : ∀ env ∈ s.2, envelopeValid env

/-- A round of the second phase goes through unless its slot is due with a backoff that is refused. -/
theorem Collecting.round {i : Fin ackTrackerCapacity} {s : RetryManager × List MessageEnvelope}
    (c : Collecting m i s) (nowUs : UInt64)
    (h : m.slots[i].active = true → m.slots[i].nextRetryUs ≤ nowUs → m.slots[i].backoffMs ≤ 60000) :
    ∃ s', collectSlot nowUs msgRingCapacity i s = .ok s' ∧ Collecting m (i + 1) s' := by
  have hi := c.ahead i (Nat.le_refl _)
  unfold collectSlot
  split
  case isTrue hdue =>
    have hbackoff := h (by rw [← hi]; exact hdue.2.1) (by rw [← hi]; exact hdue.2.2)
    obtain ⟨next, hnext⟩ := advanceBackoff_spec hbackoff
    rw [← hi] at hnext
    refine ⟨_, bind_eq_ok.mpr ⟨next, hnext, rfl⟩, ?_, ?_, ?_, ?_⟩
    · refine c.inv.set i ?_ (fun _ => c.inv.valid i hdue.2.1)
      rw [if_pos hdue.2.1]
    · intro j hj
      rw [getElem_set_fin, if_neg (by rintro rfl; omega)]
      exact c.ahead j (by omega)
    · rw [List.length_append, List.length_singleton]
      exact Nat.succ_le_succ c.room
    · intro env henv
      rcases List.mem_append.mp henv with hold | hnew
      · exact c.valid env hold
      · rw [List.mem_singleton.mp hnew]
        exact c.inv.valid i hdue.2.1
  case isFalse hidle =>
    exact ⟨s, rfl, c.inv, fun j hj => c.ahead j (by omega), Nat.le_succ_of_le c.room, c.valid⟩

/-- A round whose slot is due with a backoff that is refused stops the phase. -/
theorem Collecting.slow {nowUs : UInt64} {i : Fin ackTrackerCapacity}
    {s : RetryManager × List MessageEnvelope} (c : Collecting m i s)
    (hactive : m.slots[i].active = true) (hdue : m.slots[i].nextRetryUs ≤ nowUs)
    (hslow : ¬ m.slots[i].backoffMs ≤ 60000) :
    collectSlot nowUs msgRingCapacity i s = .error (.assertion .advanceBackoff) := by
  have hi := c.ahead i (Nat.le_refl _)
  have hroom : s.2.length < msgRingCapacity :=
    Nat.lt_of_le_of_lt c.room (Nat.lt_trans i.isLt (by decide))
  have hback := advanceBackoff_slow hslow
  rw [← hi] at hactive hdue hback
  unfold collectSlot
  rw [if_pos ⟨hroom, hactive, hdue⟩]
  simp only [hback, error_bind]

/-! ## The whole collection -/

/-- The time `collectDue` works with: a timestamp that runs backwards is clamped. -/
def collectTime (m : RetryManager) (nowUs : UInt64) : UInt64 :=
  if nowUs < m.lastCollectUs then m.lastCollectUs else nowUs

theorem collectTime_pos (m : RetryManager) {nowUs : UInt64} (hnow : nowUs ≠ 0) : m.collectTime nowUs > 0 := by
  have hpos := UInt64.pos_iff_ne_zero.mpr hnow
  unfold collectTime
  split
  case isTrue h => exact UInt64.lt_trans hpos h
  case isFalse _ => exact hpos

private theorem inv_clocked (inv : Inv m) (nowUs : UInt64) :
    Inv { m with lastCollectUs := nowUs } := ⟨inv.count, inv.valid⟩

/-- The two phases, once the arguments are accepted. -/
theorem collectDue_eq {nowUs : UInt64} (hnow : nowUs ≠ 0) :
    m.collectDue nowUs msgRingCapacity = (do
      let m₁ ← reapTerminatedSlots { m with lastCollectUs := m.collectTime nowUs }
        (m.collectTime nowUs)
      let (m', collected) ← eachIndex ackTrackerCapacity
        (collectSlot (m.collectTime nowUs) msgRingCapacity) (m₁, [])
      neverCompiledOutAssert .retryManagerCollectDue (collected.length ≤ msgRingCapacity)
      neverCompiledOutAssert .retryManagerCollectDue (m'.count ≤ ackTrackerCapacity)
      pure (collected, m')) := by
  have hcap : msgRingCapacity ≤ msgRingCapacity := Nat.le_refl _
  unfold collectDue
  simp only [ensure_pos hcap, ensure_pos hnow, ok_bind]
  rfl

/-- A table without refused values is collected. -/
theorem collectDue_spec {nowUs : UInt64} (hnow : nowUs ≠ 0) (inv : Inv m)
    (hend : ∀ i : Fin ackTrackerCapacity, ¬ m.slots[i].endless)
    (hslow : ∀ i : Fin ackTrackerCapacity, ¬ m.slots[i].slowAt (m.collectTime nowUs)) :
    ∃ out m', m.collectDue nowUs msgRingCapacity = .ok (out, m') ∧ Inv m' ∧
      out.length ≤ msgRingCapacity ∧ ∀ env ∈ out, envelopeValid env := by
  obtain ⟨m₁, hreap, hreaped⟩ := reapTerminatedSlots_spec (m.collectTime_pos hnow)
    (inv_clocked inv (m.collectTime nowUs)) hend
  have hround (i : Fin ackTrackerCapacity) (s : RetryManager × List MessageEnvelope)
      (c : Collecting m₁ i s) : ∃ s', collectSlot (m.collectTime nowUs) msgRingCapacity i s = .ok s' ∧
        Collecting m₁ (i + 1) s' := by
    refine c.round _ fun hactive hdue => ?_
    by_cases hs : m.slots[i].survives (m.collectTime nowUs)
    · rw [hreaped.kept i i.isLt hs] at hdue ⊢
      by_contra hback
      exact hslow i ⟨hs, hdue, hback⟩
    · rw [hreaped.freed i i.isLt hs] at hactive
      cases hactive
  obtain ⟨⟨m', out⟩, hrun, hc⟩ := eachIndex_total (Collecting m₁) (m₁, [])
    ⟨hreaped.inv, fun _ _ => rfl, Nat.le_refl 0, by simp⟩ hround
  have hlen : out.length ≤ msgRingCapacity := Nat.le_trans hc.room (by decide)
  refine ⟨out, m', ?_, hc.inv, hlen, hc.valid⟩
  rw [collectDue_eq hnow]
  refine bind_eq_ok.mpr ⟨m₁, hreap, bind_eq_ok.mpr ⟨_, hrun, ?_⟩⟩
  exact ensure_bind_eq_ok.mpr ⟨hlen, ensure_bind_eq_ok.mpr ⟨hc.inv.count_le, rfl⟩⟩

/-- An expiry that is refused stops the collection, whatever else is in the table. -/
theorem collectDue_endless {nowUs : UInt64} (hnow : nowUs ≠ 0) (inv : Inv m)
    {i : Fin ackTrackerCapacity} (h : m.slots[i].endless) :
    m.collectDue nowUs msgRingCapacity = .error (.assertion .slotHasExpired) := by
  have hreap := reapTerminatedSlots_endless (m := { m with lastCollectUs := m.collectTime nowUs })
    (m.collectTime_pos hnow) (inv_clocked inv _) h
  rw [collectDue_eq hnow, hreap, error_bind]

/-- A backoff that is refused stops the collection when its slot is due. -/
theorem collectDue_slow {nowUs : UInt64} (hnow : nowUs ≠ 0) (inv : Inv m)
    (hend : ∀ i : Fin ackTrackerCapacity, ¬ m.slots[i].endless) {bad : Fin ackTrackerCapacity}
    (h : m.slots[bad].slowAt (m.collectTime nowUs)) :
    m.collectDue nowUs msgRingCapacity = .error (.assertion .advanceBackoff) := by
  obtain ⟨m₁, hreap, hreaped⟩ := reapTerminatedSlots_spec (m.collectTime_pos hnow)
    (inv_clocked inv (m.collectTime nowUs)) hend
  have hbad : m₁.slots[bad] = m.slots[bad] := hreaped.kept bad bad.isLt h.1
  have hloop : eachIndex ackTrackerCapacity (collectSlot (m.collectTime nowUs) msgRingCapacity)
      (m₁, []) = .error (.assertion .advanceBackoff) := by
    refine eachIndex_error (fun k s => Collecting m₁ k s ∧ k ≤ bad) (m₁, [])
      ⟨⟨hreaped.inv, fun _ _ => rfl, Nat.le_refl 0, by simp⟩, Nat.zero_le _⟩ ?_ ?_
    · rintro i s ⟨c, hle⟩
      by_cases hslow : m₁.slots[i].active = true ∧ m₁.slots[i].nextRetryUs ≤ m.collectTime nowUs ∧
          ¬ m₁.slots[i].backoffMs ≤ 60000
      · exact .inr (c.slow hslow.1 hslow.2.1 hslow.2.2)
      · obtain ⟨s', hrun, hc⟩ := c.round (m.collectTime nowUs) fun hactive hdue => by
          by_contra hback
          exact hslow ⟨hactive, hdue, hback⟩
        have hne : (i : Nat) ≠ bad := by
          intro heq
          rw [Fin.ext heq, hbad] at hslow
          exact hslow ⟨h.1.1, h.2⟩
        exact .inl ⟨s', hrun, hc, by omega⟩
    · rintro s ⟨-, hle⟩
      exact absurd hle (Nat.not_le.mpr bad.isLt)
  rw [collectDue_eq hnow, hreap, ok_bind, hloop, error_bind]

end RetryManager

end MessageEngine
