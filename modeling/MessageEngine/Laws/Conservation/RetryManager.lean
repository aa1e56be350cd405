import MessageEngine.Laws.Conservation.Collection
import MessageEngine.Lib.Run

/-!
# The retry table keeps its books

The retry table is driven by any sequence of its five operations. Two laws hold of every run. The
balance counts entries: what was scheduled is still active, or was acknowledged, expired, exhausted
or cancelled, and the counters say how much of each. The ledger follows each message: its entry is
what its bookings and the times at which it was sent again make of it, so it is sent again at most
as often as it may be, never past its expiry and never after it was removed.

## What is proved

- `step_moves`: the balance of one operation.
- `Ledger.step`: what one operation does to the entries of the messages.
- `retries_conserve`: both laws, for every run.
-/

namespace MessageEngine

open Outcome Table
open Run (total total_append)

namespace RetryManager

/-- An operation of the retry table. -/
inductive Op where
  | schedule (env : MessageEnvelope) (maxRetries backoffMs : UInt32) (nowUs : UInt64)
  | onAck (src : NodeId) (msgId : UInt64)
  | cancel (src : NodeId) (msgId : UInt64)
  | cancelPeer (dst : NodeId)
  | collectDue (nowUs : UInt64) (bufCap : Nat)

/-- What the operation returns. -/
inductive Reply where
  | result (r : Result)
  | cancelled (n : Nat)
  | collected (out : List MessageEnvelope)

def step : Op → RetryManager → Checked (Reply × RetryManager)
  | .schedule env maxRetries backoffMs nowUs, m => do
    let (r, m) ← m.schedule env maxRetries backoffMs nowUs
    pure (.result r, m)
  | .onAck src msgId, m => do
    let (r, m) ← m.onAck src msgId
    pure (.result r, m)
  | .cancel src msgId, m => do
    let (r, m) ← m.cancel src msgId
    pure (.result r, m)
  | .cancelPeer dst, m => do
    let (n, m) ← m.cancelPeer dst
    pure (.cancelled n, m)
  | .collectDue nowUs bufCap, m => do
    let (out, m) ← m.collectDue nowUs bufCap
    pure (.collected out, m)

/-- The arguments the operations check: a valid envelope, node ids and timestamps that are not zero, a
backoff of at most a minute, an expiry short of the largest timestamp, a buffer of at most
`MSG_RING_CAPACITY`. -/
def Op.WellFormed : Op → Prop
  | .schedule env _ backoffMs nowUs =>
    envelopeValid env ∧ backoffMs ≤ 60000 ∧ env.expiryTimeUs ≠ saturatedUs ∧ nowUs ≠ 0
  | .onAck src _ => src ≠ 0
  | .cancel src _ => src ≠ 0
  | .cancelPeer dst => dst ≠ 0
  | .collectDue nowUs bufCap => nowUs ≠ 0 ∧ bufCap ≤ msgRingCapacity

instance : DecidablePred Op.WellFormed := fun op =>
  match op with
  | .schedule _ _ _ _ => inferInstanceAs (Decidable (_ ∧ _))
  | .onAck src _ => inferInstanceAs (Decidable (src ≠ 0))
  | .cancel src _ => inferInstanceAs (Decidable (src ≠ 0))
  | .cancelPeer dst => inferInstanceAs (Decidable (dst ≠ 0))
  | .collectDue _ _ => inferInstanceAs (Decidable (_ ∧ _))

/-! ## What one step moves -/

/-- A step of the retry table that was taken. -/
abbrev Step := Run.Taken RetryManager Op Reply

/-- The messages the step scheduled. -/
def Step.scheduled (s : Step) : Nat :=
  match s.input, s.output with
  | .schedule _ _ _ _, .result .ok => 1
  | _, _ => 0

/-- The entries the step freed for an acknowledgement. -/
def Step.acked (s : Step) : Nat :=
  match s.input, s.output with
  | .onAck _ _, .result .ok => 1
  | _, _ => 0

/-- The entries the step cancelled. -/
def Step.cancelled (s : Step) : Nat :=
  match s.input, s.output with
  | .cancel _ _, .result .ok => 1
  | .cancelPeer _, .cancelled n => n
  | _, _ => 0

/-- The effective time of a collection: its timestamp, clamped. -/
def Step.timeUs (s : Step) : UInt64 :=
  match s.input with
  | .collectDue nowUs _ => s.before.collectTime nowUs
  | _ => 0

/-- The active entries the step found expired. -/
def Step.expired (s : Step) : Nat :=
  match s.input with
  | .collectDue _ _ => s.before.slots.countP (RetryEntry.lapsed s.timeUs)
  | _ => 0

/-- The active entries the step found out of retries. -/
def Step.exhausted (s : Step) : Nat :=
  match s.input with
  | .collectDue _ _ => s.before.slots.countP (RetryEntry.spent s.timeUs)
  | _ => 0

/-- The messages the step sent again. -/
def Step.outputs (s : Step) : List MessageEnvelope :=
  match s.output with
  | .collected out => out
  | _ => []

/-- How many messages the step sent again. -/
def Step.sent (s : Step) : Nat := s.outputs.length

/-- The balance of a step. -/
structure Moves (s : Step) : Prop where
  entries : s.before.activeCount + s.scheduled =
    s.after.activeCount + s.acked + s.expired + s.exhausted + s.cancelled
  stats : s.after.stats =
    { retriesSent := s.before.stats.retriesSent + UInt32.ofNat s.sent
      slotsExhausted := s.before.stats.slotsExhausted + UInt32.ofNat s.exhausted
      slotsExpired := s.before.stats.slotsExpired + UInt32.ofNat s.expired
      acksReceived := s.before.stats.acksReceived + UInt32.ofNat s.acked }

variable {m m' : RetryManager} {op : Op} {reply : Reply}

/-- An inactive slot that is written over as active. -/
theorem activeCount_schedule {i : Fin ackTrackerCapacity} {slot : RetryEntry}
    (hold : m.slots[i].active = false) (hnew : slot.active = true) :
    (m.slots.set i slot i.isLt).countP RetryEntry.active = m.activeCount + 1 := by
  have hset := countP_set_add RetryEntry.active m.slots i slot
  rw [hold, if_neg Bool.false_ne_true, hnew, if_pos rfl] at hset
  exact hset

/-- A step that is no acknowledgement and no collection moves entries only. -/
theorem Moves.of_stats {s : Step} (hacked : s.acked = 0) (hexpired : s.expired = 0)
    (hexhausted : s.exhausted = 0) (hout : s.outputs = []) (hstats : s.after.stats = s.before.stats)
    (hentries : s.before.activeCount + s.scheduled = s.after.activeCount + s.cancelled) : Moves s := by
  refine ⟨?_, ?_⟩
  · rw [hacked, hexpired, hexhausted]
    exact hentries
  · rw [hacked, hexpired, hexhausted, Step.sent, hout, hstats]
    simp

theorem moves_schedule {env : MessageEnvelope} {maxRetries backoffMs : UInt32} {nowUs : UInt64} {r : Result}
    (h : m.schedule env maxRetries backoffMs nowUs = .ok (r, m')) :
    Moves ⟨m, .schedule env maxRetries backoffMs nowUs, .result r, m'⟩ := by
  rcases schedule_cases h with ⟨rfl, i, hfree, hslots, hstats, -⟩ | ⟨rfl, rfl, -⟩
  · apply Moves.of_stats rfl rfl rfl rfl hstats
    change m.activeCount + 1 = m'.slots.countP _ + 0
    rw [hslots]
    exact (activeCount_schedule hfree rfl).symm
  · exact Moves.of_stats rfl rfl rfl rfl rfl rfl

/-- An acknowledgement that returned freed the first active entry of the message, or there was none. -/
theorem onAck_cases (inv : Inv m) {src : NodeId} {msgId : UInt64} {r : Result}
    (h : m.onAck src msgId = .ok (r, m')) :
    (r = .ok ∧ ∃ i, firstSlot? (RetryEntry.matches src msgId) m.slots = some i ∧
      m' = { m.release i with stats := { m.stats with acksReceived := m.stats.acksReceived + 1 } }) ∨
    (r = .errInvalid ∧ m' = m) := by
  have hsrc := (ensure_bind_eq_ok.mp h).1
  rw [onAck_eq inv hsrc] at h
  cases hf : firstSlot? (RetryEntry.matches src msgId) m.slots with
  | some i =>
    rw [hf] at h
    cases h
    exact .inl ⟨rfl, i, rfl, rfl⟩
  | none =>
    rw [hf] at h
    cases h
    exact .inr ⟨rfl, rfl⟩

theorem moves_onAck (inv : Inv m) {src : NodeId} {msgId : UInt64} {r : Result}
    (h : m.onAck src msgId = .ok (r, m')) : Moves ⟨m, .onAck src msgId, .result r, m'⟩ := by
  rcases onAck_cases inv h with ⟨rfl, i, hi, rfl⟩ | ⟨rfl, rfl⟩
  · have hactive := (active_of_matches (firstSlot?_some hi)).1
    have hcount := activeCount_set hactive
      (show ({ m.slots[i] with active := false } : RetryEntry).active = false from rfl)
    refine ⟨hcount.symm, ?_⟩
    simp [Step.acked, Step.expired, Step.exhausted, Step.sent, Step.outputs]
  · exact Moves.of_stats rfl rfl rfl rfl rfl rfl

theorem moves_cancel {src : NodeId} {msgId : UInt64} {r : Result}
    (h : m.cancel src msgId = .ok (r, m')) : Moves ⟨m, .cancel src msgId, .result r, m'⟩ := by
  rcases cancel_cases h with ⟨rfl, i, hi, rfl⟩ | ⟨rfl, -, rfl⟩
  · have hactive := (active_of_matches (firstSlot?_some hi)).1
    have hcount := activeCount_set hactive
      (show ({ m.slots[i] with active := false } : RetryEntry).active = false from rfl)
    exact Moves.of_stats rfl rfl rfl rfl rfl hcount.symm
  · exact Moves.of_stats rfl rfl rfl rfl rfl rfl

theorem moves_cancelPeer {dst : NodeId} {n : Nat} (h : m.cancelPeer dst = .ok (n, m')) :
    Moves ⟨m, .cancelPeer dst, .cancelled n, m'⟩ := by
  have hcancelled := (cancelPeer_cases h).1
  apply Moves.of_stats rfl rfl rfl rfl hcancelled.stats
  exact hcancelled.counted.symm.trans (Nat.add_comm _ _)

theorem moves_collectDue {nowUs : UInt64} {bufCap : Nat} {out : List MessageEnvelope}
    (h : m.collectDue nowUs bufCap = .ok (out, m')) :
    Moves ⟨m, .collectDue nowUs bufCap, .collected out, m'⟩ := by
  obtain ⟨m₁, hreaped, -, hcollected⟩ := collectDue_cases h
  obtain ⟨lapsed, spent, hlapsed, hspent, hcount, hstats⟩ := hreaped.freed
  obtain ⟨hnoLapsed, hnoSpent⟩ := hreaped.cleared
  rw [hnoLapsed, Nat.add_zero] at hlapsed
  rw [hnoSpent, Nat.add_zero] at hspent
  refine ⟨?_, ?_⟩
  · have hactive := hcollected.active
    change m.activeCount + 0 = m'.activeCount + 0 +
      m.slots.countP (RetryEntry.lapsed (m.collectTime nowUs)) +
      m.slots.countP (RetryEntry.spent (m.collectTime nowUs)) + 0
    rw [← hlapsed, ← hspent]
    change m₁.activeCount + lapsed + spent = m.activeCount at hcount
    dsimp only at hactive
    omega
  · have hlast := hcollected.stats
    change m₁.stats = _ at hstats
    dsimp only at hlast
    rw [hlast, hstats, hlapsed, hspent]
    simp [Step.acked, Step.expired, Step.exhausted, Step.sent, Step.outputs, Step.timeUs]

/-- Every step balances. -/
theorem step_moves (inv : Inv m) (h : step op m = .ok (reply, m')) : Moves ⟨m, op, reply, m'⟩ := by
  cases op with
  | schedule env maxRetries backoffMs nowUs =>
    obtain ⟨⟨r, m₁⟩, hrun, hdone⟩ := bind_eq_ok.mp h
    cases hdone
    exact moves_schedule hrun
  | onAck src msgId =>
    obtain ⟨⟨r, m₁⟩, hrun, hdone⟩ := bind_eq_ok.mp h
    cases hdone
    exact moves_onAck inv hrun
  | cancel src msgId =>
    obtain ⟨⟨r, m₁⟩, hrun, hdone⟩ := bind_eq_ok.mp h
    cases hdone
    exact moves_cancel hrun
  | cancelPeer dst =>
    obtain ⟨⟨n, m₁⟩, hrun, hdone⟩ := bind_eq_ok.mp h
    cases hdone
    exact moves_cancelPeer hrun
  | collectDue nowUs bufCap =>
    obtain ⟨⟨out, m₁⟩, hrun, hdone⟩ := bind_eq_ok.mp h
    cases hdone
    exact moves_collectDue hrun

/-- Freeing a slot leaves the other active entries. -/
theorem kept_release (i j : Fin ackTrackerCapacity) (hj : (m.release i).slots[j].active = true) :
    (m.release i).slots[j] = m.slots[j] := by
  rw [release, getElem_set_fin] at hj ⊢
  split
  case isTrue h =>
    rw [if_pos h] at hj
    cases hj
  case isFalse _ => rfl

/-- A cancellation only frees entries. -/
theorem cancelPeer_kept {dst : NodeId} {n : Nat} (h : m.cancelPeer dst = .ok (n, m'))
    (i : Fin ackTrackerCapacity) (hi : m'.slots[i].active = true) : m'.slots[i] = m.slots[i] := by
  rw [(cancelPeer_cases h).1.slots.all i, RetryEntry.cancelled] at hi ⊢
  split
  case isTrue howed =>
    rw [if_pos howed] at hi
    cases hi
  case isFalse _ => rfl

/-- Every step with arguments in order returns and leaves the table in order. -/
theorem step_total (inv : Inv m) (tame : Tame m) (h : op.WellFormed) :
    ∃ reply m', step op m = .ok (reply, m') ∧ Inv m' ∧ Tame m' := by
  cases op with
  | schedule env maxRetries backoffMs nowUs =>
    obtain ⟨r, m', hrun, hinv, -⟩ := schedule_spec inv h.1 maxRetries backoffMs nowUs
    refine ⟨_, m', bind_eq_ok.mpr ⟨_, hrun, rfl⟩, hinv, ?_⟩
    rcases schedule_cases hrun with ⟨-, i, -, hslots, -, -⟩ | ⟨-, rfl, -⟩
    · have hset : Tame { m with slots := m.slots.set i (.fresh env maxRetries backoffMs nowUs) i.isLt } :=
        tame.set fun _ => ⟨h.2.1, h.2.2.1⟩
      intro j hj
      rw [hslots] at hj ⊢
      exact hset j hj
    · exact tame
  | onAck src msgId =>
    obtain ⟨r, m', hrun, hinv⟩ := onAck_spec inv h msgId
    refine ⟨_, m', bind_eq_ok.mpr ⟨_, hrun, rfl⟩, hinv, ?_⟩
    rcases onAck_cases inv hrun with ⟨-, i, -, rfl⟩ | ⟨-, rfl⟩
    · exact tame.set fun hactive => by cases hactive
    · exact tame
  | cancel src msgId =>
    obtain ⟨r, m', hrun, hinv⟩ := cancel_spec inv msgId h
    refine ⟨_, m', bind_eq_ok.mpr ⟨_, hrun, rfl⟩, hinv, ?_⟩
    rcases cancel_cases hrun with ⟨-, i, -, rfl⟩ | ⟨-, -, rfl⟩
    · exact tame.set fun hactive => by cases hactive
    · exact tame
  | cancelPeer dst =>
    obtain ⟨n, m', hrun, hinv⟩ := cancelPeer_spec inv h
    exact ⟨_, m', bind_eq_ok.mpr ⟨_, hrun, rfl⟩, hinv, tame.of_kept (cancelPeer_kept hrun)⟩
  | collectDue nowUs bufCap =>
    obtain ⟨out, m', hrun, hinv, htame⟩ := collectDue_total inv tame h.1 h.2
    exact ⟨_, m', bind_eq_ok.mpr ⟨_, hrun, rfl⟩, hinv, htame⟩

/-! ## The entries of the messages -/

/-- A message that was scheduled, with the arguments of the call. -/
structure Booking where
  env : MessageEnvelope
  maxRetries : UInt32
  backoffMs : UInt32
  nowUs : UInt64

/-- The message the step scheduled. -/
def Step.booked? (s : Step) : Option Booking :=
  match s.input, s.output with
  | .schedule env maxRetries backoffMs nowUs, .result .ok => some ⟨env, maxRetries, backoffMs, nowUs⟩
  | _, _ => none

/-- The messages scheduled so far. -/
def booked (past : List Step) : List Booking := past.filterMap Step.booked?

/-- The identifiers of the messages scheduled so far. -/
def bookedIds (past : List Step) : List UInt64 := (booked past).map fun b => b.env.messageId

/-- The effective times at which the step sent the message again: one for each copy. -/
def Step.sentAt (id : UInt64) (s : Step) : List UInt64 :=
  (s.outputs.filter fun env => env.messageId == id).map fun _ => s.timeUs

/-- The effective times at which the message was sent again so far. -/
def times (id : UInt64) (past : List Step) : List UInt64 := past.flatMap (Step.sentAt id)

/-- The entry of a message that was sent again at the given times. -/
def Booking.entry (b : Booking) (times : List UInt64) : RetryEntry :=
  times.foldl (fun slot timeUs => slot.retried timeUs) (.fresh b.env b.maxRetries b.backoffMs b.nowUs)

theorem Booking.entry_append (b : Booking) (times : List UInt64) (timeUs : UInt64) :
    b.entry (times ++ [timeUs]) = (b.entry times).retried timeUs := by
  rw [Booking.entry, List.foldl_append]
  rfl

/-- What sending again leaves of the entry. -/
theorem Booking.entry_fields (b : Booking) (times : List UInt64) :
    (b.entry times).env = b.env ∧ (b.entry times).maxRetries = b.maxRetries ∧
      (b.entry times).expiryUs = b.env.expiryTimeUs ∧ (b.entry times).active = true ∧
      (b.entry times).retryCount = UInt32.ofNat times.length := by
  induction times using List.reverseRecOn with
  | nil => exact ⟨rfl, rfl, rfl, rfl, rfl⟩
  | append_singleton times timeUs ih =>
    obtain ⟨henv, hmax, hexpiry, hactive, hcount⟩ := ih
    rw [Booking.entry_append]
    refine ⟨henv, hmax, hexpiry, hactive, ?_⟩
    change (b.entry times).retryCount + 1 = _
    rw [hcount, List.length_append, List.length_singleton, UInt32.ofNat_add]
    rfl

/-- The books of the messages after the steps `past`. -/
structure Ledger (past : List Step) (m : RetryManager) : Prop where
  /-- An active entry is that of a message that was scheduled, sent again when it was. -/
  slots : ∀ i : Fin ackTrackerCapacity, m.slots[i].active = true →
    ∃ b ∈ booked past, m.slots[i] = b.entry (times b.env.messageId past)
  /-- A message has one entry at most. -/
  single : ∀ i j : Fin ackTrackerCapacity, m.slots[i].active = true → m.slots[j].active = true →
    m.slots[i].env.messageId = m.slots[j].env.messageId → i = j
  /-- Only what was scheduled is sent again. -/
  unbooked : ∀ id, id ∉ bookedIds past → times id past = []
  /-- No message is sent again more often than it may be. -/
  budget : ∀ b ∈ booked past, (times b.env.messageId past).length ≤ b.maxRetries.toNat

theorem ledger_init : Ledger [] init := by
  have hinactive (i : Fin ackTrackerCapacity) : init.slots[i].active = false := by simp [init]
  refine ⟨fun i hi => ?_, fun i j hi => ?_, fun _ _ => rfl, fun b hb => ?_⟩
  · rw [hinactive i] at hi
    cases hi
  · rw [hinactive i] at hi
    cases hi
  · cases hb

theorem booked_append (past : List Step) (s : Step) :
    booked (past ++ [s]) = booked past ++ s.booked?.toList := by
  rw [booked, List.filterMap_append]
  cases h : s.booked? with
  | none => simp [booked, h]
  | some b => simp [booked, h]

theorem times_append (id : UInt64) (past : List Step) (s : Step) :
    times id (past ++ [s]) = times id past ++ s.sentAt id := by
  simp [times]

/-- A step that books and sends nothing, and at most frees entries. -/
theorem Ledger.frees {past : List Step} {s : Step} (h : Ledger past m) (hbooked : s.booked? = none)
    (hout : s.outputs = [])
    (kept : ∀ i : Fin ackTrackerCapacity, m'.slots[i].active = true → m'.slots[i] = m.slots[i]) :
    Ledger (past ++ [s]) m' := by
  have hbook : booked (past ++ [s]) = booked past := by
    rw [booked_append, hbooked, Option.toList_none, List.append_nil]
  have htimes (id : UInt64) : times id (past ++ [s]) = times id past := by
    rw [times_append, Step.sentAt, hout, List.filter_nil, List.map_nil, List.append_nil]
  refine ⟨fun i hi => ?_, fun i j hi hj hid => ?_, fun id hid => ?_, fun b hb => ?_⟩
  · have hsame := kept i hi
    rw [hsame] at hi ⊢
    obtain ⟨b, hb, hentry⟩ := h.slots i hi
    exact ⟨b, hbook ▸ hb, by rw [htimes]; exact hentry⟩
  · have hsamei := kept i hi
    have hsamej := kept j hj
    rw [hsamei] at hi hid
    rw [hsamej] at hj hid
    exact h.single i j hi hj hid
  · rw [htimes]
    apply h.unbooked
    rwa [bookedIds, hbook] at hid
  · rw [htimes]
    exact h.budget b (hbook ▸ hb)

/-- The identifier of an active entry was booked. -/
theorem Ledger.active_booked {past : List Step} (h : Ledger past m) {i : Fin ackTrackerCapacity}
    (hi : m.slots[i].active = true) : m.slots[i].env.messageId ∈ bookedIds past := by
  obtain ⟨b, hb, hentry⟩ := h.slots i hi
  rw [hentry, (b.entry_fields _).1]
  exact List.mem_map_of_mem hb

/-- A message with a new identifier takes an inactive slot. -/
theorem Ledger.schedules {past : List Step} {s : Step} {b : Booking} {i : Fin ackTrackerCapacity}
    (h : Ledger past m) (hbooked : s.booked? = some b) (hout : s.outputs = [])
    (fresh : b.env.messageId ∉ bookedIds past) (hslots : m'.slots = m.slots.set i (b.entry []) i.isLt) :
    Ledger (past ++ [s]) m' := by
  have hbook : booked (past ++ [s]) = booked past ++ [b] := by
    rw [booked_append, hbooked, Option.toList_some]
  have htimes (id : UInt64) : times id (past ++ [s]) = times id past := by
    rw [times_append, Step.sentAt, hout, List.filter_nil, List.map_nil, List.append_nil]
  have hnever := h.unbooked _ fresh
  have hother {j : Fin ackTrackerCapacity} (hij : i ≠ j) : m'.slots[j] = m.slots[j] := by
    rw [hslots, getElem_set_fin, if_neg hij]
  have hnew : m'.slots[i] = b.entry [] := by rw [hslots, getElem_set_fin, if_pos rfl]
  have hapart {j : Fin ackTrackerCapacity} (hij : i ≠ j) (hj : m'.slots[j].active = true) :
      m'.slots[j].env.messageId ≠ b.env.messageId := by
    rw [hother hij] at hj ⊢
    intro heq
    exact fresh (heq ▸ h.active_booked hj)
  refine ⟨fun j hj => ?_, fun j k hj hk hid => ?_, fun id hid => ?_, fun c hc => ?_⟩
  · by_cases hij : i = j
    · subst hij
      refine ⟨b, hbook ▸ List.mem_append_right _ (List.mem_singleton_self b), ?_⟩
      rw [hnew, htimes, hnever]
    · rw [hother hij] at hj ⊢
      obtain ⟨c, hc, hentry⟩ := h.slots j hj
      exact ⟨c, hbook ▸ List.mem_append_left _ hc, by rw [htimes]; exact hentry⟩
  · by_cases hij : i = j
    · by_cases hik : i = k
      · exact hij.symm.trans hik
      · subst hij
        rw [hnew] at hid
        exact absurd hid.symm (hapart hik hk)
    · by_cases hik : i = k
      · subst hik
        rw [hnew] at hid
        exact absurd hid (hapart hij hj)
      · rw [hother hij] at hj hid
        rw [hother hik] at hk hid
        exact h.single j k hj hk hid
  · rw [htimes]
    apply h.unbooked
    rw [bookedIds, hbook, List.map_append, List.mem_append, not_or] at hid
    exact hid.1
  · rw [htimes]
    rw [hbook, List.mem_append, List.mem_singleton] at hc
    rcases hc with hc | rfl
    · exact h.budget c hc
    · rw [hnever]
      exact Nat.zero_le _

/-- Which copies of a message a collection sends: one when its slot is chosen, else none. -/
theorem sentAt_collected {past : List Step} (h : Ledger past m) {nowUs : UInt64} {bufCap : Nat}
    {out : List MessageEnvelope} (hout : Collects m (m.collectTime nowUs) bufCap m' out) (id : UInt64) :
    Step.sentAt id ⟨m, .collectDue nowUs bufCap, .collected out, m'⟩ = [] ∧
      (∀ i ∈ m.chosen (m.collectTime nowUs) bufCap, m.slots[i].env.messageId ≠ id) ∨
    Step.sentAt id ⟨m, .collectDue nowUs bufCap, .collected out, m'⟩ = [m.collectTime nowUs] ∧
      ∃ i ∈ m.chosen (m.collectTime nowUs) bufCap, m.slots[i].env.messageId = id := by
  let chosen := m.chosen (m.collectTime nowUs) bufCap
  have hsent : Step.sentAt id ⟨m, .collectDue nowUs bufCap, .collected out, m'⟩ =
      (chosen.filter fun i => m.slots[i].env.messageId == id).map fun _ => m.collectTime nowUs := by
    change (out.filter fun env => env.messageId == id).map (fun _ => m.collectTime nowUs) = _
    rw [hout.out, List.filter_map, List.map_map]
    rfl
  have hactive {i : Fin ackTrackerCapacity} (hi : i ∈ chosen) : m.slots[i].active = true :=
    (RetryEntry.ripe_iff.mp (mem_chosen hi)).1
  by_cases hany : ∃ i ∈ chosen, m.slots[i].env.messageId = id
  · refine .inr ⟨?_, hany⟩
    obtain ⟨i, hi, hid⟩ := hany
    have hone : chosen.filter (fun j => m.slots[j].env.messageId == id) = [i] := by
      have hcongr : chosen.filter (fun j => m.slots[j].env.messageId == id) = chosen.filter (· == i) := by
        apply List.filter_congr
        intro j hj
        rw [Bool.eq_iff_iff, beq_iff_eq, beq_iff_eq]
        constructor
        · intro hjd
          exact h.single j i (hactive hj) (hactive hi) (hjd.trans hid.symm)
        · intro heq
          rw [heq]
          exact hid
      rw [hcongr, List.filter_beq, List.count_eq_one_of_mem chosen_nodup hi]
      rfl
    rw [hsent, hone]
    rfl
  · have hnone : ∀ i ∈ chosen, m.slots[i].env.messageId ≠ id := fun i hi heq => hany ⟨i, hi, heq⟩
    refine .inl ⟨?_, hnone⟩
    have hempty : chosen.filter (fun j => m.slots[j].env.messageId == id) = [] := by
      rw [List.filter_eq_nil_iff]
      intro i hi
      simpa using hnone i hi
    rw [hsent, hempty]
    rfl

/-- Two bookings of one message are one. -/
theorem booked_inj {past : List Step} (distinct : (bookedIds past).Nodup) {b c : Booking}
    (hb : b ∈ booked past) (hc : c ∈ booked past) (h : b.env.messageId = c.env.messageId) : b = c :=
  List.inj_on_of_nodup_map distinct hb hc h

/-- The entry of a chosen slot counts the times the message was sent again, and one more is allowed. -/
theorem Ledger.room {past : List Step} (h : Ledger past m) (distinct : (bookedIds past).Nodup)
    {nowUs : UInt64} {bufCap : Nat} {i : Fin ackTrackerCapacity} (hi : i ∈ m.chosen nowUs bufCap)
    {b : Booking} (hb : b ∈ booked past) (hid : m.slots[i].env.messageId = b.env.messageId) :
    m.slots[i] = b.entry (times b.env.messageId past) ∧
      (times b.env.messageId past).length < b.maxRetries.toNat := by
  obtain ⟨hactive, -, hleft, -⟩ := RetryEntry.ripe_iff.mp (mem_chosen hi)
  obtain ⟨c, hc, hentry⟩ := h.slots i hactive
  obtain ⟨henv, hmax, -, -, hcount⟩ := c.entry_fields (times c.env.messageId past)
  have hcb : c = b := booked_inj distinct hc hb (by rw [← hid, hentry, henv])
  subst hcb
  refine ⟨hentry, ?_⟩
  have hfits := h.budget c hc
  have hsmall : (times c.env.messageId past).length < 2 ^ 32 :=
    Nat.lt_of_le_of_lt hfits c.maxRetries.toNat_lt
  rw [hentry, hmax, hcount, UInt32.lt_iff_toNat_lt] at hleft
  rwa [UInt32.toNat_ofNat', Nat.mod_eq_of_lt hsmall] at hleft

theorem Ledger.collects {past : List Step} (h : Ledger past m) (distinct : (bookedIds past).Nodup)
    {nowUs : UInt64} {bufCap : Nat} {out : List MessageEnvelope}
    (hout : Collects m (m.collectTime nowUs) bufCap m' out) :
    Ledger (past ++ [⟨m, .collectDue nowUs bufCap, .collected out, m'⟩]) m' := by
  have hbook : booked (past ++ [⟨m, .collectDue nowUs bufCap, .collected out, m'⟩]) = booked past := by
    rw [booked_append]
    exact List.append_nil _
  -- An active entry was active before, and was sent again exactly when its slot was chosen.
  have hslot (i : Fin ackTrackerCapacity) (hi : m'.slots[i].active = true) :
      m.slots[i].active = true ∧ m'.slots[i] =
        if i ∈ m.chosen (m.collectTime nowUs) bufCap then m.slots[i].retried (m.collectTime nowUs) else m.slots[i] := by
    have hwas := hout.slots i
    rw [hwas] at hi
    rw [hwas]
    split
    case isTrue hmem => exact ⟨(RetryEntry.ripe_iff.mp (mem_chosen hmem)).1, rfl⟩
    case isFalse hmem =>
      rw [if_neg hmem] at hi
      obtain ⟨hsame, hactive, -⟩ := RetryEntry.reaped_active hi
      exact ⟨hactive, hsame⟩
  have hkeeps (i : Fin ackTrackerCapacity) (hi : m'.slots[i].active = true) :
      m'.slots[i].env = m.slots[i].env := by
    rw [(hslot i hi).2]
    split
    · rfl
    · rfl
  refine ⟨fun i hi => ?_, fun i j hi hj hid => ?_, fun id hid => ?_, fun b hb => ?_⟩
  · obtain ⟨hactive, hafter⟩ := hslot i hi
    obtain ⟨b, hb, hentry⟩ := h.slots i hactive
    have henv : m.slots[i].env.messageId = b.env.messageId := by rw [hentry, (b.entry_fields _).1]
    refine ⟨b, hbook ▸ hb, ?_⟩
    rw [hafter, times_append]
    rcases sentAt_collected h hout b.env.messageId with ⟨hnone, hmiss⟩ | ⟨hone, j, hj, hid⟩
    · rw [hnone, List.append_nil, if_neg fun hmem => hmiss i hmem henv]
      exact hentry
    · have hji := h.single j i (RetryEntry.ripe_iff.mp (mem_chosen hj)).1 hactive (hid.trans henv.symm)
      rw [hone, if_pos (hji ▸ hj), b.entry_append, ← hentry]
  · rw [hkeeps i hi, hkeeps j hj] at hid
    exact h.single i j (hslot i hi).1 (hslot j hj).1 hid
  · rw [bookedIds, hbook] at hid
    rw [times_append, h.unbooked id hid]
    rcases sentAt_collected h hout id with ⟨hnone, -⟩ | ⟨-, j, hj, hjd⟩
    · exact hnone
    · exact absurd (hjd ▸ h.active_booked (RetryEntry.ripe_iff.mp (mem_chosen hj)).1) hid
  · rw [hbook] at hb
    rw [times_append, List.length_append]
    rcases sentAt_collected h hout b.env.messageId with ⟨hnone, -⟩ | ⟨hone, j, hj, hjd⟩
    · rw [hnone]
      exact h.budget b hb
    · rw [hone]
      exact (h.room distinct hj hb hjd).2

/-- What one operation can do to the entries: add one in an inactive slot, free some, or collect. -/
theorem step_cases (inv : Inv m) (hstep : step op m = .ok (reply, m')) :
    (∃ (b : Booking) (i : Fin ackTrackerCapacity), Step.booked? ⟨m, op, reply, m'⟩ = some b ∧
      Step.outputs ⟨m, op, reply, m'⟩ = [] ∧ m'.slots = m.slots.set i (b.entry []) i.isLt) ∨
    (Step.booked? ⟨m, op, reply, m'⟩ = none ∧ Step.outputs ⟨m, op, reply, m'⟩ = [] ∧
      ∀ i : Fin ackTrackerCapacity, m'.slots[i].active = true → m'.slots[i] = m.slots[i]) ∨
    (∃ nowUs bufCap out, op = .collectDue nowUs bufCap ∧ reply = .collected out ∧
      Collects m (m.collectTime nowUs) bufCap m' out) := by
  cases op with
  | schedule env maxRetries backoffMs nowUs =>
    obtain ⟨⟨r, m₁⟩, hrun, hdone⟩ := bind_eq_ok.mp hstep
    cases hdone
    rcases schedule_cases hrun with ⟨rfl, i, -, hslots, -, -⟩ | ⟨rfl, rfl, -⟩
    · exact .inl ⟨⟨env, maxRetries, backoffMs, nowUs⟩, i, rfl, rfl, hslots⟩
    · exact .inr (.inl ⟨rfl, rfl, fun _ _ => rfl⟩)
  | onAck src msgId =>
    obtain ⟨⟨r, m₁⟩, hrun, hdone⟩ := bind_eq_ok.mp hstep
    cases hdone
    rcases onAck_cases inv hrun with ⟨rfl, i, -, rfl⟩ | ⟨rfl, rfl⟩
    · exact .inr (.inl ⟨rfl, rfl, kept_release i⟩)
    · exact .inr (.inl ⟨rfl, rfl, fun _ _ => rfl⟩)
  | cancel src msgId =>
    obtain ⟨⟨r, m₁⟩, hrun, hdone⟩ := bind_eq_ok.mp hstep
    cases hdone
    rcases cancel_cases hrun with ⟨rfl, i, -, rfl⟩ | ⟨rfl, -, rfl⟩
    · exact .inr (.inl ⟨rfl, rfl, kept_release i⟩)
    · exact .inr (.inl ⟨rfl, rfl, fun _ _ => rfl⟩)
  | cancelPeer dst =>
    obtain ⟨⟨n, m₁⟩, hrun, hdone⟩ := bind_eq_ok.mp hstep
    cases hdone
    exact .inr (.inl ⟨rfl, rfl, cancelPeer_kept hrun⟩)
  | collectDue nowUs bufCap =>
    obtain ⟨⟨out, m₁⟩, hrun, hdone⟩ := bind_eq_ok.mp hstep
    cases hdone
    exact .inr (.inr ⟨nowUs, bufCap, out, rfl, rfl, collectDue_collects hrun⟩)

/-- The identifiers before a step are distinct when those after it are, and differ from the one it books. -/
theorem bookedIds_before {past : List Step} {s : Step} (distinct : (bookedIds (past ++ [s])).Nodup) :
    (bookedIds past).Nodup ∧ ∀ b, s.booked? = some b → b.env.messageId ∉ bookedIds past := by
  rw [bookedIds, booked_append, List.map_append] at distinct
  obtain ⟨hold, -, hapart⟩ := List.nodup_append.mp distinct
  refine ⟨hold, fun b hb hmem => ?_⟩
  rw [hb] at hapart
  exact hapart _ hmem _ List.mem_cons_self rfl

/-- What one operation does to the entries of the messages, when their identifiers are distinct. -/
theorem Ledger.step {past : List Step} (h : Ledger past m) (inv : Inv m)
    (distinct : (bookedIds (past ++ [⟨m, op, reply, m'⟩])).Nodup)
    (hstep : RetryManager.step op m = .ok (reply, m')) : Ledger (past ++ [⟨m, op, reply, m'⟩]) m' := by
  obtain ⟨hold, hfresh⟩ := bookedIds_before distinct
  rcases step_cases inv hstep with ⟨b, i, hb, hout, hslots⟩ | ⟨hb, hout, hkept⟩ | ⟨nowUs, bufCap, out, rfl, rfl, hout⟩
  · exact h.schedules hb hout (hfresh b hb) hslots
  · exact h.frees hb hout hkept
  · exact h.collects hold hout

/-! ## What a run never sends again -/

/-- The message has an active entry. -/
def Holds (m : RetryManager) (id : UInt64) : Prop :=
  ∃ i : Fin ackTrackerCapacity, m.slots[i].active = true ∧ m.slots[i].env.messageId = id

/-- Some step took the entry of the message away. -/
def Removed (id : UInt64) (past : List Step) : Prop := ∃ s ∈ past, s.before.Holds id ∧ ¬ s.after.Holds id

/-- What a step may send again, after the steps `past`: nothing that expired by then, and nothing that
was removed. -/
structure Law (past : List Step) (s : Step) : Prop where
  unexpired : ∀ env ∈ s.outputs, timestampExpired env.expiryTimeUs s.timeUs = false
  present : ∀ id, Removed id past → ∀ env ∈ s.outputs, env.messageId ≠ id

/-- What a step sends again has an active entry that has not expired. -/
theorem outputs_held {past : List Step} (h : Ledger past m) (inv : Inv m)
    (hstep : step op m = .ok (reply, m')) {env : MessageEnvelope}
    (henv : env ∈ Step.outputs ⟨m, op, reply, m'⟩) :
    m.Holds env.messageId ∧ timestampExpired env.expiryTimeUs (Step.timeUs ⟨m, op, reply, m'⟩) = false := by
  rcases step_cases inv hstep with ⟨b, i, -, hout, -⟩ | ⟨-, hout, -⟩ | ⟨nowUs, bufCap, out, rfl, rfl, hout⟩
  · rw [hout] at henv
    cases henv
  · rw [hout] at henv
    cases henv
  · change env ∈ out at henv
    rw [hout.out] at henv
    obtain ⟨i, hi, rfl⟩ := List.mem_map.mp henv
    obtain ⟨hactive, hexpired, -, -⟩ := RetryEntry.ripe_iff.mp (mem_chosen hi)
    obtain ⟨b, -, hentry⟩ := h.slots i hactive
    obtain ⟨hsame, -, hexpiry, -, -⟩ := b.entry_fields (times b.env.messageId past)
    refine ⟨⟨i, hactive, rfl⟩, ?_⟩
    rw [hentry, hexpiry] at hexpired
    rw [hentry, hsame]
    exact hexpired

/-- A message gets an active entry only by being scheduled. -/
theorem holds_before (inv : Inv m) (hstep : step op m = .ok (reply, m')) {id : UInt64} (h : m'.Holds id) :
    m.Holds id ∨ ∃ b, Step.booked? ⟨m, op, reply, m'⟩ = some b ∧ b.env.messageId = id := by
  obtain ⟨j, hj, hid⟩ := h
  rcases step_cases inv hstep with ⟨b, i, hb, -, hslots⟩ | ⟨-, -, hkept⟩ | ⟨nowUs, bufCap, out, -, -, hout⟩
  · rw [hslots, getElem_set_fin] at hj hid
    split at hj
    case isTrue hij =>
      rw [if_pos hij] at hid
      exact .inr ⟨b, hb, hid⟩
    case isFalse hij =>
      rw [if_neg hij] at hid
      exact .inl ⟨j, hj, hid⟩
  · have hsame := hkept j hj
    rw [hsame] at hj hid
    exact .inl ⟨j, hj, hid⟩
  · rw [hout.slots j] at hj hid
    split at hj
    case isTrue hmem =>
      rw [if_pos hmem] at hid
      exact .inl ⟨j, (RetryEntry.ripe_iff.mp (mem_chosen hmem)).1, hid⟩
    case isFalse hmem =>
      rw [if_neg hmem] at hid
      obtain ⟨hsame, hactive, -⟩ := RetryEntry.reaped_active hj
      rw [hsame] at hid
      exact .inl ⟨j, hactive, hid⟩

/-- The balance after the steps `past`. -/
structure Balanced (past : List Step) (m : RetryManager) : Prop where
  entries : total Step.scheduled past = m.activeCount + total Step.acked past + total Step.expired past +
    total Step.exhausted past + total Step.cancelled past
  stats : m.stats =
    { retriesSent := UInt32.ofNat (total Step.sent past)
      slotsExhausted := UInt32.ofNat (total Step.exhausted past)
      slotsExpired := UInt32.ofNat (total Step.expired past)
      acksReceived := UInt32.ofNat (total Step.acked past) }

theorem balanced_init : Balanced [] init := by
  refine ⟨?_, rfl⟩
  have hnone : init.activeCount = 0 := by
    rw [activeCount, countP_eq_zero]
    intro i
    simp [init]
  rw [hnone]
  rfl

theorem Balanced.step {past : List Step} (h : Balanced past m) (moves : Moves ⟨m, op, reply, m'⟩) :
    Balanced (past ++ [⟨m, op, reply, m'⟩]) m' := by
  refine ⟨?_, ?_⟩
  · have hbefore := h.entries
    have hmoved := moves.entries
    simp only [total_append]
    dsimp only at hmoved
    omega
  · simp only [total_append, UInt32.ofNat_add]
    have hmoved := moves.stats
    dsimp only at hmoved
    rw [hmoved, h.stats]

/-- Everything the books of the messages say after the steps `past`. -/
structure Books (past : List Step) (m : RetryManager) : Prop where
  ledger : Ledger past m
  gone : ∀ id, Removed id past → id ∈ bookedIds past ∧ ¬ m.Holds id
  lawful : Run.Lawful Law past

theorem books_init : Books [] init := by
  refine ⟨ledger_init, fun id hremoved => ?_, Run.Lawful.nil⟩
  obtain ⟨s, hs, -⟩ := hremoved
  cases hs

theorem Books.step {past : List Step} (h : Books past m) (inv : Inv m)
    (distinct : (bookedIds (past ++ [⟨m, op, reply, m'⟩])).Nodup)
    (hstep : RetryManager.step op m = .ok (reply, m')) : Books (past ++ [⟨m, op, reply, m'⟩]) m' := by
  have hgrows {id : UInt64} (hid : id ∈ bookedIds past) : id ∈ bookedIds (past ++ [⟨m, op, reply, m'⟩]) := by
    rw [bookedIds, booked_append, List.map_append]
    exact List.mem_append_left _ hid
  refine ⟨h.ledger.step inv distinct hstep, fun id hremoved => ?_, h.lawful.snoc ⟨?_, ?_⟩⟩
  · obtain ⟨s, hs, hheld, hfree⟩ := hremoved
    rw [List.mem_append, List.mem_singleton] at hs
    rcases hs with hs | rfl
    · obtain ⟨hid, hnot⟩ := h.gone id ⟨s, hs, hheld, hfree⟩
      refine ⟨hgrows hid, fun hholds => ?_⟩
      rcases holds_before inv hstep hholds with hbefore | ⟨b, hb, rfl⟩
      · exact hnot hbefore
      · exact (bookedIds_before distinct).2 b hb hid
    · obtain ⟨i, hactive, hid⟩ := hheld
      exact ⟨hgrows (hid ▸ h.ledger.active_booked hactive), hfree⟩
  · intro env henv
    exact (outputs_held h.ledger inv hstep henv).2
  · intro id hremoved env henv heq
    have hheld := (outputs_held h.ledger inv hstep henv).1
    exact (h.gone id hremoved).2 (heq ▸ hheld)

/-! ## The books of a run -/

/-- What the history of a run says of the table it left. -/
structure Conserved (past : List Step) (m : RetryManager) : Prop where
  count : m.count = m.slots.countP RetryEntry.active
  /-- What was scheduled is active or left in one of four ways. -/
  entries : total Step.scheduled past = m.activeCount + total Step.acked past + total Step.expired past +
    total Step.exhausted past + total Step.cancelled past
  /-- The counters count the ways out, as far as 32 bits go. -/
  acksReceived : m.stats.acksReceived.toNat = total Step.acked past % 2 ^ 32
  slotsExpired : m.stats.slotsExpired.toNat = total Step.expired past % 2 ^ 32
  slotsExhausted : m.stats.slotsExhausted.toNat = total Step.exhausted past % 2 ^ 32
  retriesSent : m.stats.retriesSent.toNat = total Step.sent past % 2 ^ 32
  /-- The first law in the counters themselves, before one of them wraps. -/
  inCounters : total Step.acked past < 2 ^ 32 → total Step.expired past < 2 ^ 32 →
    total Step.exhausted past < 2 ^ 32 →
    total Step.scheduled past = m.activeCount + m.stats.acksReceived.toNat + m.stats.slotsExpired.toNat +
      m.stats.slotsExhausted.toNat + total Step.cancelled past
  /-- A message is sent again at most as often as it may be. -/
  budget : ∀ b ∈ booked past, (times b.env.messageId past).length ≤ b.maxRetries.toNat
  /-- Never past its expiry and never after it was removed. -/
  lawful : Run.Lawful Law past

theorem Balanced.conserved {past : List Step} (h : Balanced past m) (inv : Inv m) (books : Books past m) :
    Conserved past m := by
  have hacks : m.stats.acksReceived.toNat = total Step.acked past % 2 ^ 32 := by
    rw [h.stats]
    exact UInt32.toNat_ofNat'
  have hexpired : m.stats.slotsExpired.toNat = total Step.expired past % 2 ^ 32 := by
    rw [h.stats]
    exact UInt32.toNat_ofNat'
  have hexhausted : m.stats.slotsExhausted.toNat = total Step.exhausted past % 2 ^ 32 := by
    rw [h.stats]
    exact UInt32.toNat_ofNat'
  have hsent : m.stats.retriesSent.toNat = total Step.sent past % 2 ^ 32 := by
    rw [h.stats]
    exact UInt32.toNat_ofNat'
  refine ⟨inv.count, h.entries, hacks, hexpired, hexhausted, hsent, fun h₁ h₂ h₃ => ?_,
    books.ledger.budget, books.lawful⟩
  rw [hacks, hexpired, hexhausted, Nat.mod_eq_of_lt h₁, Nat.mod_eq_of_lt h₂, Nat.mod_eq_of_lt h₃]
  exact h.entries

/-- The table of a run, its balance and the books of its messages. -/
theorem run_books (ops : List Op) (wellFormed : ∀ op ∈ ops, op.WellFormed) :
    ∃ replies m, Run.runAll step ops init = .ok (replies, m) ∧ Inv m ∧
      Balanced (Run.history step ops init) m ∧
      ((bookedIds (Run.history step ops init)).Nodup → Books (Run.history step ops init) m) := by
  obtain ⟨replies, m, hrun, hinv, -, hbalanced, hbooks⟩ := Run.history_total
    (I := fun past m => Inv m ∧ Tame m ∧ Balanced past m ∧ ((bookedIds past).Nodup → Books past m))
    (fun op hop past m h => by
      obtain ⟨hinv, htame, hbalanced, hbooks⟩ := h
      obtain ⟨reply, m', hstep, hinv', htame'⟩ := step_total hinv htame (wellFormed op hop)
      refine ⟨reply, m', hstep, hinv', htame', hbalanced.step (step_moves hinv hstep), fun hdistinct => ?_⟩
      exact (hbooks (bookedIds_before hdistinct).1).step hinv hdistinct hstep)
    ⟨inv_init, tame_init, balanced_init, fun _ => books_init⟩
  exact ⟨replies, m, hrun, hinv, hbalanced, hbooks⟩

/-- Every run on messages with distinct identifiers ends with the books of the table in order. -/
theorem retries_conserve (ops : List Op) (wellFormed : ∀ op ∈ ops, op.WellFormed)
    (distinct : (bookedIds (Run.history step ops init)).Nodup) :
    ∃ replies m, Run.runAll step ops init = .ok (replies, m) ∧ Conserved (Run.history step ops init) m := by
  obtain ⟨replies, m, hrun, hinv, hbalanced, hbooks⟩ := run_books ops wellFormed
  exact ⟨replies, m, hrun, hbalanced.conserved hinv (hbooks distinct)⟩

/-- Of three messages one is acknowledged, one expires and one is sent again until it may not be. -/
def threeMessages : List Op :=
  [.schedule { envelopeInit with messageType := .data, messageId := 7, sourceId := 1 } 2 10 5,
    .schedule { envelopeInit with messageType := .data, messageId := 8, sourceId := 1, expiryTimeUs := 9 } 2 10 5,
    .schedule { envelopeInit with messageType := .data, messageId := 9, sourceId := 1 } 1 10 5,
    .collectDue 6 2, .onAck 1 7, .collectDue 9 4, .collectDue 8 4]

theorem retries_conserve_three :
    ∃ replies m, Run.runAll step threeMessages init = .ok (replies, m) ∧
      Conserved (Run.history step threeMessages init) m :=
  retries_conserve threeMessages (by decide) (by decide +kernel)

end RetryManager

end MessageEngine
