import MessageEngine.Core.AckTracker

/-!
# Laws of the acknowledgement tracker

The counter is the number of slots in use, which is why none of its checks can fail, and a pending
entry has a source and a send time. Every operation is total on a tracker in order; the two lookups
are total up to the identifiers they are asked about.
-/

namespace MessageEngine

open Outcome Table

namespace AckTracker

/-- The slot is in use. -/
def Entry.used (slot : Entry) : Bool := slot.state != .free

/-- The counter counts the used slots, and a pending entry was sent by somebody, some time. -/
structure Inv (t : AckTracker) : Prop where
  count : t.count = t.slots.countP Entry.used
  source : ∀ i : Fin ackTrackerCapacity, t.slots[i].state = .pending → t.slots[i].env.sourceId ≠ 0
  sentAt : ∀ i : Fin ackTrackerCapacity, t.slots[i].state = .pending → t.slots[i].env.timestampUs > 0

/-- The pending entries, in slot order. -/
def pendingEntries (t : AckTracker) : List Entry :=
  t.slots.toList.filter fun slot => slot.state == .pending

variable {t t' : AckTracker}

theorem inv_init : Inv init := by
  have hfree (i : Fin ackTrackerCapacity) : init.slots[i].state = .free := by simp [init]
  refine ⟨?_, ?_, ?_⟩
  · change 0 = init.slots.countP Entry.used
    symm
    rw [countP_eq_zero]
    intro i
    rw [Entry.used, hfree i]
    rfl
  · intro i h
    rw [hfree i] at h
    cases h
  · intro i h
    rw [hfree i] at h
    cases h

/-- The counter counts the used slots. -/
def Counted (t : AckTracker) : Prop := t.count = t.slots.countP Entry.used

theorem Inv.counted (inv : Inv t) : Counted t := inv.count

theorem Counted.count_le (h : Counted t) : t.count ≤ ackTrackerCapacity := by
  rw [h]
  exact Vector.countP_le_size

/-- One slot written, with the counter following it. -/
theorem Counted.set (h : Counted t) (i : Fin ackTrackerCapacity) {slot : Entry} {count : Nat}
    {stats : AckTrackerStats} {lastSweepUs : UInt64}
    (hcount : count + (if t.slots[i].used then 1 else 0) = t.count + if slot.used then 1 else 0) :
    Counted ⟨t.slots.set i slot i.isLt, count, stats, lastSweepUs⟩ := by
  have hset := countP_set_add Entry.used t.slots i slot
  rw [← h] at hset
  change count = (t.slots.set i slot i.isLt).countP Entry.used
  omega

/-- Freeing a used slot. -/
theorem Counted.release (h : Counted t) {i : Fin ackTrackerCapacity} (used : t.slots[i].used = true)
    (stats : AckTrackerStats) : Counted { t.release i with stats } := by
  have hpos : 0 < t.count := by
    rw [h]
    exact Vector.countP_pos_iff.mpr ⟨_, Vector.getElem_mem i.isLt, used⟩
  apply h.set i
  change (if t.count > 0 then t.count - 1 else t.count) + (if t.slots[i].used then 1 else 0) = t.count + 0
  rw [used, if_pos hpos, if_pos rfl]
  omega

/-- What was pending already keeps its source and its send time. -/
theorem Inv.of_kept (inv : Inv t) (counted : Counted t')
    (kept : ∀ i : Fin ackTrackerCapacity, t'.slots[i].state = .pending → t'.slots[i] = t.slots[i]) :
    Inv t' := by
  refine ⟨counted, fun i hi => ?_, fun i hi => ?_⟩
  · have hsame := kept i hi
    rw [hsame] at hi ⊢
    exact inv.source i hi
  · have hsame := kept i hi
    rw [hsame] at hi ⊢
    exact inv.sentAt i hi

theorem used_of_pending {slot : Entry} (h : slot.state = .pending) : slot.used = true := by
  rw [Entry.used, h]
  rfl

theorem used_of_acked {slot : Entry} (h : slot.state = .acked) : slot.used = true := by
  rw [Entry.used, h]
  rfl

theorem state_of_matches {slot : Entry} {src : NodeId} {msgId : UInt64}
    (h : slot.matches src msgId = true) :
    slot.state = .pending ∧ slot.env.sourceId = src ∧ slot.env.messageId = msgId := by
  simpa [Entry.matches] using h

/-! ## The operations -/

/-- A message is tracked in a free slot, and refused when there is none. -/
theorem track_total (h : Counted t) (env : MessageEnvelope) (deadlineUs : UInt64) :
    ∃ r t', t.track env deadlineUs = .ok (r, t') ∧ Counted t' := by
  unfold track
  cases hf : firstSlot? (fun slot => slot.state == .free) t.slots with
  | some i =>
    have hfree : t.slots[i].used = false := by
      have := firstSlot?_some hf
      simpa [Entry.used] using this
    have hcounted : Counted { t with
        slots := t.slots.set i ⟨env, deadlineUs, .pending⟩ i.isLt, count := t.count + 1 } := by
      apply h.set i
      rw [hfree]
      rfl
    refine ⟨.ok, _, ?_, hcounted⟩
    exact ensure_bind_eq_ok.mpr ⟨h.count_le, ensure_bind_eq_ok.mpr ⟨hcounted.count_le, rfl⟩⟩
  | none =>
    have hfull : t.count = ackTrackerCapacity := by
      rw [h, countP_eq_size]
      intro i
      have := firstSlot?_none.mp hf i
      simpa [Entry.used] using this
    refine ⟨.errFull, t, ?_, h⟩
    exact ensure_bind_eq_ok.mpr ⟨h.count_le, ensure_bind_eq_ok.mpr ⟨hfull, rfl⟩⟩

/-- A call that returned wrote a free slot, or there was none. -/
theorem track_cases {env : MessageEnvelope} {deadlineUs : UInt64} {r : Result}
    (h : t.track env deadlineUs = .ok (r, t')) :
    (r = .ok ∧ t'.stats = t.stats ∧ ∃ i : Fin ackTrackerCapacity, t.slots[i].state = .free ∧
      t'.slots = t.slots.set i ⟨env, deadlineUs, .pending⟩ i.isLt) ∨
    (r = .errFull ∧ t' = t ∧ ∀ i : Fin ackTrackerCapacity, t.slots[i].state ≠ .free) := by
  obtain ⟨-, h⟩ := ensure_bind_eq_ok.mp h
  cases hf : firstSlot? (fun slot => slot.state == .free) t.slots with
  | some i =>
    rw [hf] at h
    obtain ⟨-, h⟩ := ensure_bind_eq_ok.mp h
    cases h
    exact .inl ⟨rfl, rfl, i, by simpa using firstSlot?_some hf, rfl⟩
  | none =>
    rw [hf] at h
    obtain ⟨-, h⟩ := ensure_bind_eq_ok.mp h
    cases h
    exact .inr ⟨rfl, rfl, fun i => by simpa using firstSlot?_none.mp hf i⟩

theorem track_spec (inv : Inv t) {env : MessageEnvelope} (deadlineUs : UInt64)
    (hsource : env.sourceId ≠ 0) (hsent : env.timestampUs > 0) :
    ∃ r t', t.track env deadlineUs = .ok (r, t') ∧ Inv t' ∧ (r = .ok ∨ r = .errFull) := by
  obtain ⟨r, t', htrack, hcounted⟩ := track_total inv.counted env deadlineUs
  refine ⟨r, t', htrack, ?_⟩
  rcases track_cases htrack with ⟨hr, -, i, -, hslots⟩ | ⟨hr, rfl, -⟩
  · refine ⟨⟨hcounted, fun j hj => ?_, fun j hj => ?_⟩, .inl hr⟩
    · rw [hslots, getElem_set_fin] at hj ⊢
      split
      case isTrue _ => exact hsource
      case isFalse hne => exact inv.source j (by rwa [if_neg hne] at hj)
    · rw [hslots, getElem_set_fin] at hj ⊢
      split
      case isTrue _ => exact hsent
      case isFalse hne => exact inv.sentAt j (by rwa [if_neg hne] at hj)
  · exact ⟨inv, .inr hr⟩

/-- A call that returned freed the first pending entry of the message, or there was none. -/
theorem cancel_cases {src : NodeId} {msgId : UInt64} {r : Result}
    (h : t.cancel src msgId = .ok (r, t')) :
    (r = .ok ∧ ∃ i, firstSlot? (Entry.matches src msgId) t.slots = some i ∧ t' = t.release i) ∨
    (r = .errInvalid ∧ firstSlot? (Entry.matches src msgId) t.slots = none ∧ t' = t) := by
  obtain ⟨-, h⟩ := ensure_bind_eq_ok.mp h
  obtain ⟨-, h⟩ := ensure_bind_eq_ok.mp h
  cases hf : firstSlot? (Entry.matches src msgId) t.slots with
  | some i =>
    rw [hf] at h
    obtain ⟨-, h⟩ := ensure_bind_eq_ok.mp h
    cases h
    exact .inl ⟨rfl, i, rfl, rfl⟩
  | none =>
    rw [hf] at h
    cases h
    exact .inr ⟨rfl, rfl, rfl⟩

/-- An acknowledgement marks the first pending entry of its message, if there is one. -/
theorem onAck_eq (h : Counted t) (src : NodeId) (msgId : UInt64) :
    t.onAck src msgId = .ok (match firstSlot? (Entry.matches src msgId) t.slots with
      | some i => (.ok, { t with
          slots := t.slots.set i { t.slots[i] with state := .acked } i.isLt
          stats := { t.stats with acksReceived := t.stats.acksReceived + 1 } })
      | none => (.errInvalid, t)) := by
  refine ensure_bind_eq_ok.mpr ⟨h.count_le, ?_⟩
  cases firstSlot? (Entry.matches src msgId) t.slots with
  | some i => rfl
  | none => rfl

/-- Writing over the slot of a pending entry leaves the other pending entries. -/
theorem kept_set {i : Fin ackTrackerCapacity} {slot : Entry} (hslot : slot.state ≠ .pending)
    (j : Fin ackTrackerCapacity) (hj : (t.slots.set i slot i.isLt)[j].state = .pending) :
    (t.slots.set i slot i.isLt)[j] = t.slots[j] := by
  rw [getElem_set_fin] at hj ⊢
  split
  case isTrue h =>
    rw [if_pos h] at hj
    exact absurd hj hslot
  case isFalse h => rfl

theorem onAck_total (h : Counted t) (src : NodeId) (msgId : UInt64) :
    ∃ r t', t.onAck src msgId = .ok (r, t') ∧ Counted t' ∧
      ∀ j : Fin ackTrackerCapacity, t'.slots[j].state = .pending → t'.slots[j] = t.slots[j] := by
  rw [onAck_eq h]
  cases hf : firstSlot? (Entry.matches src msgId) t.slots with
  | some i =>
    have hpending := (state_of_matches (firstSlot?_some hf)).1
    refine ⟨_, _, rfl, h.set i ?_, kept_set (by simp)⟩
    rw [used_of_pending hpending]
    rfl
  | none => exact ⟨_, _, rfl, h, fun _ _ => rfl⟩

theorem onAck_spec (inv : Inv t) (src : NodeId) (msgId : UInt64) :
    ∃ r t', t.onAck src msgId = .ok (r, t') ∧ Inv t' := by
  obtain ⟨r, t', hack, hcounted, hkept⟩ := onAck_total inv.counted src msgId
  exact ⟨r, t', hack, inv.of_kept hcounted hkept⟩

theorem cancel_total (h : Counted t) {src : NodeId} (msgId : UInt64) (hsrc : src ≠ nodeIdInvalid) :
    ∃ r t', t.cancel src msgId = .ok (r, t') ∧ Counted t' ∧
      ∀ j : Fin ackTrackerCapacity, t'.slots[j].state = .pending → t'.slots[j] = t.slots[j] := by
  unfold cancel
  cases hf : firstSlot? (Entry.matches src msgId) t.slots with
  | some i =>
    have hused := used_of_pending (state_of_matches (firstSlot?_some hf)).1
    have hcounted : Counted (t.release i) := h.release hused t.stats
    refine ⟨.ok, _, ?_, hcounted, kept_set (by simp)⟩
    exact ensure_bind_eq_ok.mpr ⟨h.count_le, ensure_bind_eq_ok.mpr ⟨hsrc,
      ensure_bind_eq_ok.mpr ⟨hcounted.count_le, rfl⟩⟩⟩
  | none =>
    exact ⟨_, _, ensure_bind_eq_ok.mpr ⟨h.count_le, ensure_bind_eq_ok.mpr ⟨hsrc, rfl⟩⟩, h, fun _ _ => rfl⟩

theorem cancel_spec (inv : Inv t) {src : NodeId} (msgId : UInt64) (hsrc : src ≠ nodeIdInvalid) :
    ∃ r t', t.cancel src msgId = .ok (r, t') ∧ Inv t' := by
  obtain ⟨r, t', hcancel, hcounted, hkept⟩ := cancel_total inv.counted msgId hsrc
  exact ⟨r, t', hcancel, inv.of_kept hcounted hkept⟩

theorem cancelPeer_total (h : Counted t) {dst : NodeId} (hdst : dst ≠ nodeIdInvalid) :
    ∃ n t', t.cancelPeer dst = .ok (n, t') ∧ Counted t' := by
  have hstep (i : Fin ackTrackerCapacity) (s : AckTracker × Nat) (hs : Counted s.1 ∧ s.2 ≤ i) :
      ∃ s', cancelPeerSlot dst i s = .ok s' ∧ Counted s'.1 ∧ s'.2 ≤ i + 1 := by
    unfold cancelPeerSlot
    split
    case isTrue h =>
      exact ⟨_, rfl, hs.1.release (used_of_pending h.1) s.1.stats, Nat.succ_le_succ hs.2⟩
    case isFalse h => exact ⟨_, rfl, hs.1, Nat.le_succ_of_le hs.2⟩
  obtain ⟨⟨t', n⟩, hrun, hcounted, hn⟩ :=
    eachIndex_total (fun k s => Counted s.1 ∧ s.2 ≤ k) (t, 0) ⟨h, Nat.le_refl 0⟩ hstep
  refine ⟨n, t', ensure_bind_eq_ok.mpr ⟨hdst, ?_⟩, hcounted⟩
  rw [hrun, ok_bind]
  exact ensure_bind_eq_ok.mpr ⟨hcounted.count_le, ensure_bind_eq_ok.mpr ⟨hn, rfl⟩⟩

/-- The slot is pending for the destination. -/
abbrev Entry.owedBy (dst : NodeId) (slot : Entry) : Prop :=
  slot.state = .pending ∧ slot.env.destinationId = dst

/-- The slot after `cancel_peer`. -/
def Entry.cancelled (dst : NodeId) (slot : Entry) : Entry :=
  if slot.owedBy dst then { slot with state := .free } else slot

/-- The pending slots. -/
def pendingCount (t : AckTracker) : Nat := t.slots.countP fun slot => slot.state == .pending

/-- A pending slot that is written over as not pending. -/
theorem pendingCount_set {i : Fin ackTrackerCapacity} {slot : Entry} (hold : t.slots[i].state = .pending)
    (hnew : slot.state ≠ .pending) :
    (t.slots.set i slot i.isLt).countP (fun slot => slot.state == .pending) + 1 = t.pendingCount := by
  have hset := countP_set_add (fun slot => slot.state == .pending) t.slots i slot
  rw [hold, if_pos (beq_self_eq_true _), if_neg (by simpa using hnew)] at hset
  exact hset

/-- What `cancel_peer` has done before round `k`. -/
structure Cancelling (t : AckTracker) (dst : NodeId) (k : Nat) (s : AckTracker × Nat) : Prop where
  slots : Mapped (Entry.cancelled dst) t.slots s.1.slots k
  stats : s.1.stats = t.stats
  lastSweepUs : s.1.lastSweepUs = t.lastSweepUs
  counted : s.2 + s.1.pendingCount = t.pendingCount

theorem Cancelling.round {dst : NodeId} {i : Fin ackTrackerCapacity} {s s' : AckTracker × Nat}
    (h : Cancelling t dst i s) (hround : cancelPeerSlot dst i s = .ok s') :
    Cancelling t dst (i + 1) s' := by
  unfold cancelPeerSlot at hround
  split at hround
  case isTrue howed =>
    cases hround
    have hcount := pendingCount_set (t := s.1) howed.1 (show ({ s.1.slots[i] with state := .free } : Entry).state ≠ .pending by simp)
    rw [h.slots.get] at howed
    refine ⟨h.slots.set ?_, h.stats, h.lastSweepUs, ?_⟩
    · rw [h.slots.get, Entry.cancelled, if_pos howed]
    · have hbefore := h.counted
      change s.2 + 1 + (s.1.slots.set i _ i.isLt).countP _ = _
      omega
  case isFalse hother =>
    cases hround
    rw [h.slots.get] at hother
    exact ⟨h.slots.skip (if_neg hother), h.stats, h.lastSweepUs, h.counted⟩

/-- A cancellation frees the pending entries of the destination and nothing else; when there are none
it does nothing. -/
theorem cancelPeer_cases {dst : NodeId} {n : Nat} (h : t.cancelPeer dst = .ok (n, t')) :
    Cancelling t dst ackTrackerCapacity (t', n) ∧
      ((∀ i : Fin ackTrackerCapacity, ¬ t.slots[i].owedBy dst) → n = 0 ∧ t' = t) := by
  obtain ⟨-, h⟩ := ensure_bind_eq_ok.mp h
  obtain ⟨⟨t₁, k⟩, hloop, h⟩ := bind_eq_ok.mp h
  obtain ⟨-, h⟩ := ensure_bind_eq_ok.mp h
  obtain ⟨-, h⟩ := ensure_bind_eq_ok.mp h
  cases h
  have hstart : Cancelling t dst 0 (t, 0) := ⟨Mapped.start, rfl, rfl, Nat.zero_add _⟩
  refine ⟨eachIndex_inv hloop hstart fun i s s' => Cancelling.round, fun hnone => ?_⟩
  have hsame := eachIndex_inv (I := fun _ s => s = (t, 0)) hloop rfl ?_
  · cases hsame
    exact ⟨rfl, rfl⟩
  · intro i s s' hs hround
    cases hs
    cases hround.symm.trans (if_neg (hnone i))
    rfl

theorem cancelPeer_spec (inv : Inv t) {dst : NodeId} (hdst : dst ≠ nodeIdInvalid) :
    ∃ n t', t.cancelPeer dst = .ok (n, t') ∧ Inv t' := by
  obtain ⟨n, t', hcancel, hcounted⟩ := cancelPeer_total inv.counted hdst
  refine ⟨n, t', hcancel, inv.of_kept hcounted fun i hi => ?_⟩
  rw [(cancelPeer_cases hcancel).1.slots.all i, Entry.cancelled] at hi ⊢
  split
  case isTrue h =>
    rw [if_pos h] at hi
    cases hi
  case isFalse _ => rfl

/-! ## The sweep -/

/-- The slot is pending past its deadline. -/
abbrev Entry.overdue (nowUs : UInt64) (slot : Entry) : Prop :=
  slot.state = .pending ∧ slot.deadlineUs ≤ nowUs

/-- The slot after a sweep. -/
def Entry.swept (nowUs : UInt64) (slot : Entry) : Entry :=
  if slot.overdue nowUs ∨ slot.state = .acked then { slot with state := .free } else slot

/-- What the sweep has done before round `k`. -/
structure Sweeping (t : AckTracker) (nowUs : UInt64) (k : Nat) (s : AckTracker × List MessageEnvelope) :
    Prop where
  slots : Mapped (Entry.swept nowUs) t.slots s.1.slots k
  acksReceived : s.1.stats.acksReceived = t.stats.acksReceived
  timeouts : ∃ n, n + s.1.pendingCount = t.pendingCount ∧
    s.1.stats.timeouts = t.stats.timeouts + UInt32.ofNat n

/-- A slot that was not pending, written over as not pending. -/
theorem pendingCount_set_of_not {i : Fin ackTrackerCapacity} {slot : Entry}
    (hold : t.slots[i].state ≠ .pending) (hnew : slot.state ≠ .pending) :
    (t.slots.set i slot i.isLt).countP (fun slot => slot.state == .pending) = t.pendingCount := by
  have hset := countP_set_add (fun slot => slot.state == .pending) t.slots i slot
  rw [if_neg (by simpa using hold), if_neg (by simpa using hnew)] at hset
  exact hset

theorem Sweeping.round {nowUs : UInt64} {bufCap : Nat} {i : Fin ackTrackerCapacity}
    {s s' : AckTracker × List MessageEnvelope} (h : Sweeping t nowUs i s)
    (hround : sweepOneSlot nowUs bufCap i s = .ok s') : Sweeping t nowUs (i + 1) s' := by
  obtain ⟨n, hn, htimeouts⟩ := h.timeouts
  have hget := h.slots.get
  unfold sweepOneSlot at hround
  split at hround
  case isTrue hover =>
    cases hround
    have hcount := pendingCount_set (t := s.1) hover.1
      (show ({ s.1.slots[i] with state := .free } : Entry).state ≠ .pending by simp)
    rw [hget] at hover
    refine ⟨h.slots.set ?_, h.acksReceived, n + 1, ?_, ?_⟩
    · rw [hget, Entry.swept, if_pos (.inl hover)]
    · change n + 1 + (s.1.slots.set i _ i.isLt).countP _ = _
      omega
    · dsimp only
      rw [htimeouts, UInt32.ofNat_add, UInt32.add_assoc]
      rfl
  case isFalse hover =>
    rw [hget] at hover
    split at hround
    case isTrue hacked =>
      cases hround
      have hcount := pendingCount_set_of_not (t := s.1) (i := i) (by rw [hacked]; simp)
        (show ({ s.1.slots[i] with state := .free } : Entry).state ≠ .pending by simp)
      rw [hget] at hacked
      refine ⟨h.slots.set ?_, h.acksReceived, n, ?_, htimeouts⟩
      · rw [hget, Entry.swept, if_pos (.inr hacked)]
      · change n + (s.1.slots.set i _ i.isLt).countP _ = _
        rw [hcount]
        exact hn
    case isFalse hacked =>
      cases hround
      rw [hget] at hacked
      refine ⟨h.slots.skip (if_neg ?_), h.acksReceived, n, hn, htimeouts⟩
      intro hswept
      exact hswept.elim hover hacked

/-- The time the sweep works with: a timestamp that runs backwards is clamped. -/
def sweepTime (t : AckTracker) (nowUs : UInt64) : UInt64 :=
  if nowUs < t.lastSweepUs then t.lastSweepUs else nowUs

/-- A sweep that returned freed the overdue and the acknowledged slots, and counted the former. -/
theorem sweepExpired_cases {nowUs : UInt64} {bufCap : Nat} {out : List MessageEnvelope}
    (h : t.sweepExpired nowUs bufCap = .ok (out, t')) :
    Sweeping t (t.sweepTime nowUs) ackTrackerCapacity (t', out) := by
  obtain ⟨-, h⟩ := ensure_bind_eq_ok.mp h
  obtain ⟨-, h⟩ := ensure_bind_eq_ok.mp h
  obtain ⟨⟨t₁, out₁⟩, hloop, h⟩ := bind_eq_ok.mp h
  obtain ⟨-, h⟩ := ensure_bind_eq_ok.mp h
  obtain ⟨-, h⟩ := ensure_bind_eq_ok.mp h
  cases h
  have hstart : Sweeping t (t.sweepTime nowUs) 0 ({ t with lastSweepUs := t.sweepTime nowUs }, []) :=
    ⟨Mapped.start, rfl, 0, Nat.zero_add _, (UInt32.add_zero _).symm⟩
  exact eachIndex_inv hloop hstart fun i s s' => Sweeping.round

/-- One round of the sweep keeps the count right and the output within the buffer. -/
theorem sweepOneSlot_total {nowUs : UInt64} {bufCap : Nat} (i : Fin ackTrackerCapacity)
    (s : AckTracker × List MessageEnvelope) (hs : Counted s.1 ∧ s.2.length ≤ bufCap) :
    ∃ s', sweepOneSlot nowUs bufCap i s = .ok s' ∧ Counted s'.1 ∧ s'.2.length ≤ bufCap := by
  obtain ⟨hcounted, hout⟩ := hs
  unfold sweepOneSlot
  split
  case isTrue h =>
    refine ⟨_, rfl, hcounted.release (used_of_pending h.1) _, ?_⟩
    dsimp only
    split
    case isTrue hroom =>
      rw [List.length_append, List.length_singleton]
      exact hroom
    case isFalse _ => exact hout
  case isFalse h =>
    split
    case isTrue hacked => exact ⟨_, rfl, hcounted.release (used_of_acked hacked) _, hout⟩
    case isFalse _ => exact ⟨_, rfl, hcounted, hout⟩

theorem sweepExpired_total (h : Counted t) {nowUs : UInt64} (hnow : nowUs ≠ 0) (bufCap : Nat) :
    ∃ out t', t.sweepExpired nowUs bufCap = .ok (out, t') ∧ Counted t' ∧ out.length ≤ bufCap := by
  have hstart : Counted { t with lastSweepUs := t.sweepTime nowUs } := h
  obtain ⟨⟨t', out⟩, hrun, hcounted, hout⟩ :=
    eachIndex_total (fun _ s => Counted s.1 ∧ s.2.length ≤ bufCap) (_, []) ⟨hstart, Nat.zero_le bufCap⟩
      sweepOneSlot_total
  refine ⟨out, t', ensure_bind_eq_ok.mpr ⟨h.count_le, ensure_bind_eq_ok.mpr ⟨hnow, ?_⟩⟩, hcounted, hout⟩
  exact bind_eq_ok.mpr ⟨_, hrun, ensure_bind_eq_ok.mpr ⟨hcounted.count_le,
    ensure_bind_eq_ok.mpr ⟨hout, rfl⟩⟩⟩

theorem sweepExpired_spec (inv : Inv t) {nowUs : UInt64} (hnow : nowUs ≠ 0) (bufCap : Nat) :
    ∃ out t', t.sweepExpired nowUs bufCap = .ok (out, t') ∧ Inv t' ∧ out.length ≤ bufCap := by
  obtain ⟨out, t', hsweep, hcounted, hout⟩ := sweepExpired_total inv.counted hnow bufCap
  refine ⟨out, t', hsweep, inv.of_kept hcounted fun i hi => ?_, hout⟩
  rw [(sweepExpired_cases hsweep).slots.all i, Entry.swept] at hi ⊢
  split
  case isTrue h =>
    rw [if_pos h] at hi
    cases hi
  case isFalse _ => rfl

/-! ## The lookups -/

/-- The send time is found for any source but zero. -/
theorem getSendTimestamp_spec (inv : Inv t) {src : NodeId} (msgId : UInt64)
    (hsrc : src ≠ nodeIdInvalid) : ∃ r, t.getSendTimestamp src msgId = .ok r := by
  unfold getSendTimestamp
  cases hf : firstSlot? (Entry.matches src msgId) t.slots with
  | some i =>
    have hsent := inv.sentAt i (state_of_matches (firstSlot?_some hf)).1
    exact ⟨_, ensure_bind_eq_ok.mpr ⟨hsrc, ensure_bind_eq_ok.mpr ⟨inv.counted.count_le,
      ensure_bind_eq_ok.mpr ⟨hsent, rfl⟩⟩⟩⟩
  | none =>
    exact ⟨_, ensure_bind_eq_ok.mpr ⟨hsrc, ensure_bind_eq_ok.mpr ⟨inv.counted.count_le, rfl⟩⟩⟩

/-- The destination the tracker holds for a message: of its first pending entry. -/
def trackedDestination? (t : AckTracker) (ourId : NodeId) (msgId : UInt64) : Option NodeId :=
  (firstSlot? (Entry.matches ourId msgId) t.slots).map fun i => t.slots[i].env.destinationId

/-- The destination is found unless it is the broadcast one, which the lookup does not survive. -/
theorem getTrackedDestination_spec (inv : Inv t) {ourId : NodeId} (msgId : UInt64)
    (hid : ourId ≠ nodeIdInvalid) :
    (t.trackedDestination? ourId msgId ≠ some 0 →
      t.getTrackedDestination ourId msgId = .ok (t.trackedDestination? ourId msgId)) ∧
    (t.trackedDestination? ourId msgId = some 0 →
      t.getTrackedDestination ourId msgId = .error (.assertion .ackTrackerGetTrackedDestination)) := by
  unfold getTrackedDestination trackedDestination?
  cases hf : firstSlot? (Entry.matches ourId msgId) t.slots with
  | some i =>
    simp only [Option.map_some]
    constructor
    · intro hne
      have hdst : t.slots[i].env.destinationId ≠ nodeIdInvalid := fun h => hne (by rw [h])
      exact ensure_bind_eq_ok.mpr ⟨hid, ensure_bind_eq_ok.mpr ⟨inv.counted.count_le,
        ensure_bind_eq_ok.mpr ⟨hdst, rfl⟩⟩⟩
    · intro heq
      have hdst : ¬ t.slots[i].env.destinationId ≠ nodeIdInvalid := by
        simpa using heq
      simp only [ensure_pos hid, ensure_pos inv.counted.count_le, ok_bind, ensure_neg hdst, error_bind]
  | none =>
    simp only [Option.map_none]
    constructor
    · intro _
      exact ensure_bind_eq_ok.mpr ⟨hid, ensure_bind_eq_ok.mpr ⟨inv.counted.count_le, rfl⟩⟩
    · intro h
      cases h

end AckTracker

end MessageEngine
