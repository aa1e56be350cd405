import MessageEngine.Laws.DeliveryEngine.Reset

/-!
# Control messages

An acknowledgement is the only control message that changes anything. It is refused by an
assertion when it names no sender, or a message that was broadcast; it changes nothing when the
tracker knows the message under another destination; and in every other case it drops the first
entry of its message from both tables. The last case includes that of a message the tracker does
not know, for which nothing says who may acknowledge it.

## What is proved

- `processAck_eq`, `processAck_broadcast`: what `processAck` does, in every case;
- `handleControlMessage_spec`, `handleControlMessage_fault`: the same for the handler.
-/

namespace MessageEngine

open Outcome Table

namespace DeliveryEngine

variable {P : MessageEnvelope → Prop} {e e' : DeliveryEngine} {nowUs : UInt64}
  {ack env : MessageEnvelope}

/-- The tracker has the message of `ack` down for another destination. -/
def Foreign (t : AckTracker) (ack : MessageEnvelope) : Prop :=
  ∃ dst ∈ t.trackedDestination? ack.destinationId ack.messageId, dst ≠ ack.sourceId

instance (t : AckTracker) (ack : MessageEnvelope) : Decidable (Foreign t ack) :=
  Option.decidableExistsMem _

/-- The tracker after the first pending entry of a message was acknowledged. -/
def ackedTracker (t : AckTracker) (src : NodeId) (msgId : UInt64) : AckTracker :=
  match firstSlot? (AckTracker.Entry.matches src msgId) t.slots with
  | some i => { t with
      slots := t.slots.set i { t.slots[i] with state := .acked } i.isLt
      stats := { t.stats with acksReceived := t.stats.acksReceived + 1 } }
  | none => t

/-- The retry table after the first active entry of a message was acknowledged. -/
def ackedRetries (m : RetryManager) (src : NodeId) (msgId : UInt64) : RetryManager :=
  match firstSlot? (RetryManager.RetryEntry.matches src msgId) m.slots with
  | some i => { m.release i with
      stats := { m.stats with acksReceived := m.stats.acksReceived + 1 } }
  | none => m

theorem isControl_of_ack (h : ack.messageType = .ack) : envelopeIsControl ack := .inl h

theorem onAck_eq_acked {t : AckTracker} (inv : t.Inv) (src : NodeId) (msgId : UInt64) :
    ∃ r, t.onAck src msgId = .ok (r, ackedTracker t src msgId) := by
  rw [AckTracker.onAck_eq inv.counted, ackedTracker]
  cases firstSlot? (AckTracker.Entry.matches src msgId) t.slots with
  | some i => exact ⟨_, rfl⟩
  | none => exact ⟨_, rfl⟩

theorem onAck_eq_ackedRetries {m : RetryManager} (inv : m.Inv) {src : NodeId}
    (hsrc : src ≠ nodeIdInvalid) (msgId : UInt64) :
    ∃ r, m.onAck src msgId = .ok (r, ackedRetries m src msgId) := by
  rw [RetryManager.onAck_eq inv hsrc, ackedRetries]
  cases firstSlot? (RetryManager.RetryEntry.matches src msgId) m.slots with
  | some i => exact ⟨_, rfl⟩
  | none => exact ⟨_, rfl⟩

/-- An acknowledgement of a message that was not broadcast. -/
theorem processAck_eq {t : AckTracker} {m : RetryManager} (ht : t.Inv) (hm : m.Inv)
    (hack : ack.messageType = .ack) (hdst : ack.destinationId ≠ nodeIdInvalid)
    (hknown : t.trackedDestination? ack.destinationId ack.messageId ≠ some 0) :
    processAck t m ack = .ok (if Foreign t ack then (t, m)
      else (ackedTracker t ack.destinationId ack.messageId,
        ackedRetries m ack.destinationId ack.messageId)) := by
  obtain ⟨r, hr⟩ := onAck_eq_acked ht ack.destinationId ack.messageId
  obtain ⟨r', hr'⟩ := onAck_eq_ackedRetries hm hdst ack.messageId
  have hfind := (AckTracker.getTrackedDestination_spec ht ack.messageId hdst).1 hknown
  unfold processAck
  simp only [ensure_pos hack, ensure_pos (isControl_of_ack hack), ok_bind, hfind]
  by_cases hforeign : Foreign t ack
  · rw [if_pos hforeign]
    obtain ⟨dst, htracked, hne⟩ := hforeign
    simp only [Option.mem_def.mp htracked, if_pos hne, pure_eq_ok]
  · rw [if_neg hforeign]
    cases htracked : t.trackedDestination? ack.destinationId ack.messageId with
    | none => simp only [hr, hr', ok_bind, pure_eq_ok]
    | some dst =>
      have hown : ¬ dst ≠ ack.sourceId := fun hne => hforeign ⟨dst, htracked, hne⟩
      simp only [if_neg hown, hr, hr', ok_bind, pure_eq_ok]

/-- An acknowledgement of a broadcast message stops the run. -/
theorem processAck_broadcast {t : AckTracker} {m : RetryManager} (ht : t.Inv)
    (hack : ack.messageType = .ack) (hdst : ack.destinationId ≠ nodeIdInvalid)
    (hknown : t.trackedDestination? ack.destinationId ack.messageId = some 0) :
    processAck t m ack = .error (.assertion .ackTrackerGetTrackedDestination) := by
  have hfind := (AckTracker.getTrackedDestination_spec ht ack.messageId hdst).2 hknown
  unfold processAck
  simp only [ensure_pos hack, ensure_pos (isControl_of_ack hack), ok_bind, hfind, error_bind]

theorem ackedTracker_inv {t : AckTracker} (inv : t.Inv) (src : NodeId) (msgId : UInt64) :
    (ackedTracker t src msgId).Inv := by
  obtain ⟨r, hr⟩ := onAck_eq_acked inv src msgId
  obtain ⟨r', t', ht', hinv⟩ := AckTracker.onAck_spec inv src msgId
  rw [hr] at ht'
  cases ht'
  exact hinv

theorem ackedRetries_inv {m : RetryManager} (inv : m.Inv) (src : NodeId) (msgId : UInt64) :
    (ackedRetries m src msgId).Inv := by
  unfold ackedRetries
  cases hf : firstSlot? (RetryManager.RetryEntry.matches src msgId) m.slots with
  | some i => exact inv.release (RetryManager.active_of_matches (firstSlot?_some hf)).1 _
  | none => exact inv

/-! ## Latency -/

theorem updateLatencyStats_spec (inv : Inv P e) (hack : ack.messageType = .ack)
    (hdst : ack.destinationId ≠ nodeIdInvalid) (hnow : nowUs > 0) :
    ∃ stats, e.updateLatencyStats ack nowUs = .ok { e with stats } ∧
      stats.msgsDroppedExpired = e.stats.msgsDroppedExpired := by
  obtain ⟨r, hr⟩ := AckTracker.getSendTimestamp_spec inv.ackTracker ack.messageId hdst
  unfold updateLatencyStats
  simp only [ensure_pos hack, ensure_pos hnow, ok_bind, hr]
  cases r with
  | none => exact ⟨e.stats, rfl, rfl⟩
  | some sendTs =>
    dsimp only
    split
    · exact ⟨e.stats, rfl, rfl⟩
    · exact ⟨_, rfl, rfl⟩

/-- An acknowledgement addressed to nobody stops the run. -/
theorem updateLatencyStats_unaddressed (e : DeliveryEngine) (hack : ack.messageType = .ack)
    (hdst : ack.destinationId = nodeIdInvalid) (hnow : nowUs > 0) :
    e.updateLatencyStats ack nowUs = .error (.assertion .ackTrackerGetSendTimestamp) := by
  have hnot : ¬ ack.destinationId ≠ nodeIdInvalid := fun h => h hdst
  unfold updateLatencyStats AckTracker.getSendTimestamp
  simp only [ensure_pos hack, ensure_pos hnow, ok_bind, ensure_neg hnot, error_bind]

/-! ## The handler -/

/-- The assertion a control message runs into, if it does. -/
def controlFault (t : AckTracker) (env : MessageEnvelope) : Option Site :=
  if env.messageType ≠ .ack then none
  else if env.destinationId = nodeIdInvalid then some .ackTrackerGetSendTimestamp
  else if t.trackedDestination? env.destinationId env.messageId = some 0 then
    some .ackTrackerGetTrackedDestination
  else none

/-- The two tables after a control message. -/
def Books.afterControl (b : Books) (env : MessageEnvelope) : Books :=
  if env.messageType ≠ .ack ∨ Foreign b.ackTracker env then b
  else ⟨ackedTracker b.ackTracker env.destinationId env.messageId,
    ackedRetries b.retryManager env.destinationId env.messageId⟩

theorem Books.afterControl_inv {b : Books} (ht : b.ackTracker.Inv) (hm : b.retryManager.Inv)
    (env : MessageEnvelope) :
    (b.afterControl env).ackTracker.Inv ∧ (b.afterControl env).retryManager.Inv := by
  unfold Books.afterControl
  split
  · exact ⟨ht, hm⟩
  · exact ⟨ackedTracker_inv ht _ _, ackedRetries_inv hm _ _⟩

theorem Books.afterControl_of_ack {b : Books} (hack : env.messageType = .ack) :
    (if Foreign b.ackTracker env then (b.ackTracker, b.retryManager)
      else (ackedTracker b.ackTracker env.destinationId env.messageId,
        ackedRetries b.retryManager env.destinationId env.messageId)) =
      ((b.afterControl env).ackTracker, (b.afterControl env).retryManager) := by
  unfold Books.afterControl
  by_cases hforeign : Foreign b.ackTracker env
  · rw [if_pos hforeign, if_pos (.inr hforeign)]
  · rw [if_neg hforeign, if_neg (by rintro (h | h); exacts [h hack, hforeign h])]

theorem controlFault_eq_none (t : AckTracker) (hack : env.messageType = .ack) :
    controlFault t env = none ↔ env.destinationId ≠ nodeIdInvalid ∧
      t.trackedDestination? env.destinationId env.messageId ≠ some 0 := by
  unfold controlFault
  rw [if_neg (fun h => h hack)]
  split
  case isTrue h => simp [h]
  case isFalse h =>
    split
    case isTrue h' => simp [h']
    case isFalse h' => simp [h, h']

/-- A control message that runs into no assertion changes the two tables and nothing that decides
deliveries. -/
theorem handleControlMessage_spec (inv : Inv P e) (hcontrol : envelopeIsControl env)
    (hnow : nowUs > 0) (hfault : controlFault e.ackTracker env = none) :
    ∃ e', e.handleControlMessage env nowUs = .ok e' ∧ Inv P e' ∧ e'.delivery = e.delivery ∧
      e'.books = e.books.afterControl env ∧ Steady e e' := by
  obtain ⟨htracker, hretries⟩ :=
    Books.afterControl_inv (b := e.books) inv.ackTracker inv.retryManager env
  unfold handleControlMessage
  simp only [ensure_pos hcontrol, ok_bind]
  by_cases hack : env.messageType = .ack
  case neg =>
    rw [if_neg hack]
    exact ⟨e, rfl, inv, rfl, (if_pos (.inl hack)).symm, Steady.refl e⟩
  case pos =>
    obtain ⟨hdst, hknown⟩ := (controlFault_eq_none e.ackTracker hack).mp hfault
    obtain ⟨stats, hstats, hdropped⟩ := updateLatencyStats_spec inv hack hdst hnow
    have hprocess : processAck e.ackTracker e.retryManager env = .ok
        ((e.books.afterControl env).ackTracker, (e.books.afterControl env).retryManager) :=
      (processAck_eq inv.ackTracker inv.retryManager hack hdst hknown).trans
        (congrArg _ (Books.afterControl_of_ack (b := e.books) hack))
    have hinv₁ : Inv P { e with
        stats, ackTracker := (e.books.afterControl env).ackTracker
        retryManager := (e.books.afterControl env).retryManager } :=
      { inv with ackTracker := htracker, retryManager := hretries }
    obtain ⟨events, hemit, hevents⟩ := emitEvent_spec hinv₁ .ackReceived env.messageId env.sourceId
      hnow .ok
    have hinv₂ : Inv P { e with
        stats, events, ackTracker := (e.books.afterControl env).ackTracker
        retryManager := (e.books.afterControl env).retryManager } :=
      { hinv₁ with events := hevents }
    refine ⟨_, ?_, hinv₂, ?_, rfl, ⟨rfl, rfl, rfl⟩, rfl⟩
    · rw [if_pos hack]
      exact bind_eq_ok.mpr ⟨_, hstats, bind_eq_ok.mpr ⟨_, hprocess, hemit⟩⟩
    · simp only [delivery, staged?, hdropped]

/-- A control message that runs into an assertion stops the run there. -/
theorem handleControlMessage_fault (inv : Inv P e) (hcontrol : envelopeIsControl env)
    (hnow : nowUs > 0) {site : Site} (hfault : controlFault e.ackTracker env = some site) :
    e.handleControlMessage env nowUs = .error (.assertion site) := by
  unfold controlFault at hfault
  by_cases hack : env.messageType = .ack
  case neg =>
    rw [if_pos hack] at hfault
    cases hfault
  case pos =>
    rw [if_neg (fun h => h hack)] at hfault
    unfold handleControlMessage
    simp only [ensure_pos hcontrol, ok_bind, if_pos hack]
    by_cases hdst : env.destinationId = nodeIdInvalid
    · rw [if_pos hdst] at hfault
      cases hfault
      rw [updateLatencyStats_unaddressed e hack hdst hnow, error_bind]
    · rw [if_neg hdst] at hfault
      split at hfault
      case isFalse _ => cases hfault
      case isTrue hknown =>
        cases hfault
        obtain ⟨stats, hstats, -⟩ := updateLatencyStats_spec inv hack hdst hnow
        rw [hstats, ok_bind, processAck_broadcast inv.ackTracker hack hdst hknown, error_bind]

end DeliveryEngine

end MessageEngine
