import MessageEngine.Core.MessageEnvelope

/-!
# RetryManager

Messages scheduled for retransmission with exponential backoff. `collectDue` works in two
phases: it first frees every slot that expired or used up its retries, then copies out the
slots that are due, while the output buffer has room.
-/

namespace MessageEngine

open Outcome Table

structure RetryManager.RetryEntry where
  env : MessageEnvelope
  nextRetryUs : UInt64
  expiryUs : UInt64
  retryCount : UInt32
  maxRetries : UInt32
  backoffMs : UInt32
  active : Bool
  deriving DecidableEq

structure RetryStats where
  retriesSent : UInt32
  slotsExhausted : UInt32
  slotsExpired : UInt32
  acksReceived : UInt32
  deriving DecidableEq, Repr

structure RetryManager where
  slots : Vector RetryManager.RetryEntry ackTrackerCapacity
  count : Nat
  stats : RetryStats
  lastCollectUs : UInt64

def slotHasExpired (expiryUs nowUs : UInt64) : Checked Bool := do
  neverCompiledOutAssert .slotHasExpired (nowUs > 0)
  neverCompiledOutAssert .slotHasExpired (expiryUs ≠ 0xFFFFFFFFFFFFFFFF)
  pure (expiryUs != 0 && decide (expiryUs ≤ nowUs))

/-- The next backoff: doubled, at most a minute, at least a millisecond. -/
def advanceBackoff (currentMs : UInt32) : Checked UInt32 := do
  neverCompiledOutAssert .advanceBackoff (currentMs ≤ 60000)
  let capped := if currentMs > 30000 then 30000 else currentMs
  let doubled := capped * 2
  let result := if doubled = 0 then 1 else doubled
  neverCompiledOutAssert .advanceBackoff (result ≤ 60000)
  neverCompiledOutAssert .advanceBackoff (result > 0)
  pure result

namespace RetryManager

def init : RetryManager where
  slots := Vector.replicate ackTrackerCapacity ⟨envelopeInit, 0, 0, 0, 0, 0, false⟩
  count := 0
  stats := ⟨0, 0, 0, 0⟩
  lastCollectUs := 0

/-- An active slot for the pair `(src, msgId)`. -/
def RetryEntry.matches (src : NodeId) (msgId : UInt64) (slot : RetryEntry) : Bool :=
  slot.active && (slot.env.sourceId == src && slot.env.messageId == msgId)

def schedule (m : RetryManager) (env : MessageEnvelope) (maxRetries backoffMs : UInt32)
    (nowUs : UInt64) : Checked (Result × RetryManager) := do
  neverCompiledOutAssert .retryManagerSchedule (envelopeValid env)
  match firstSlot? (fun slot => !slot.active) m.slots with
  | some i =>
    let m' := { m with
      slots := m.slots.set i
        { env, nextRetryUs := nowUs, expiryUs := env.expiryTimeUs, retryCount := 0, maxRetries,
          backoffMs, active := true } i.isLt
      count := m.count + 1 }
    neverCompiledOutAssert .retryManagerSchedule (m'.count ≤ ackTrackerCapacity)
    pure (.ok, m')
  | none =>
    neverCompiledOutAssert .retryManagerSchedule (m.count = ackTrackerCapacity)
    pure (.errFull, m)

/-- Free slot `i` without an acknowledgement: the slot turns inactive and the counter drops. -/
def release (m : RetryManager) (i : Fin ackTrackerCapacity) : RetryManager :=
  { m with slots := m.slots.set i { m.slots[i] with active := false } i.isLt, count := m.count - 1 }

def onAck (m : RetryManager) (src : NodeId) (msgId : UInt64) : Checked (Result × RetryManager) := do
  neverCompiledOutAssert .retryManagerOnAck (src ≠ nodeIdInvalid)
  match firstSlot? (RetryEntry.matches src msgId) m.slots with
  | some i =>
    neverCompiledOutAssert .retryManagerOnAck (m.count > 0)
    let m' := { m.release i with
      stats := { m.stats with acksReceived := m.stats.acksReceived + 1 } }
    neverCompiledOutAssert .retryManagerOnAck (m'.count ≤ ackTrackerCapacity)
    pure (.ok, m')
  | none => pure (.errInvalid, m)

/-- One round of `cancel_peer`; the running count is the number cancelled so far. -/
def cancelPeerSlot (dst : NodeId) (i : Fin ackTrackerCapacity) (s : RetryManager × Nat) :
    Checked (RetryManager × Nat) :=
  if s.1.slots[i].active ∧ s.1.slots[i].env.destinationId = dst then do
    neverCompiledOutAssert .retryManagerCancelPeer (s.1.count > 0)
    pure (s.1.release i, s.2 + 1)
  else
    pure s

def cancelPeer (m : RetryManager) (dst : NodeId) : Checked (Nat × RetryManager) := do
  neverCompiledOutAssert .retryManagerCancelPeer (dst ≠ nodeIdInvalid)
  let (m, cancelled) ← eachIndex ackTrackerCapacity (cancelPeerSlot dst) (m, 0)
  neverCompiledOutAssert .retryManagerCancelPeer (m.count ≤ ackTrackerCapacity)
  neverCompiledOutAssert .retryManagerCancelPeer (cancelled ≤ ackTrackerCapacity)
  pure (cancelled, m)

def cancel (m : RetryManager) (src : NodeId) (msgId : UInt64) : Checked (Result × RetryManager) := do
  neverCompiledOutAssert .retryManagerCancel (src ≠ nodeIdInvalid)
  match firstSlot? (RetryEntry.matches src msgId) m.slots with
  | some i =>
    neverCompiledOutAssert .retryManagerCancel (m.count > 0)
    neverCompiledOutAssert .retryManagerCancel ((m.release i).count ≤ ackTrackerCapacity)
    pure (.ok, m.release i)
  | none => pure (.errInvalid, m)

/-- One round of the first phase: free the slot if it expired or used up its retries. -/
def reapSlot (nowUs : UInt64) (i : Fin ackTrackerCapacity) (m : RetryManager) :
    Checked RetryManager :=
  if !m.slots[i].active then
    pure m
  else do
    let expired ← slotHasExpired m.slots[i].expiryUs nowUs
    if expired then
      neverCompiledOutAssert .retryManagerReapTerminatedSlots (m.count > 0)
      pure { m.release i with stats := { m.stats with slotsExpired := m.stats.slotsExpired + 1 } }
    else if m.slots[i].retryCount ≥ m.slots[i].maxRetries then
      neverCompiledOutAssert .retryManagerReapTerminatedSlots (m.count > 0)
      pure { m.release i with
        stats := { m.stats with slotsExhausted := m.stats.slotsExhausted + 1 } }
    else
      pure m

def reapTerminatedSlots (m : RetryManager) (nowUs : UInt64) : Checked RetryManager := do
  neverCompiledOutAssert .retryManagerReapTerminatedSlots (nowUs > 0)
  let m ← eachIndex ackTrackerCapacity (reapSlot nowUs) m
  neverCompiledOutAssert .retryManagerReapTerminatedSlots (m.count ≤ ackTrackerCapacity)
  pure m

/-- One round of the second phase: copy out the slot if it is due and the buffer has room. A
full buffer ends the phase, which is a round that does nothing. -/
def collectSlot (nowUs : UInt64) (bufCap : Nat) (i : Fin ackTrackerCapacity)
    (s : RetryManager × List MessageEnvelope) : Checked (RetryManager × List MessageEnvelope) :=
  if s.2.length < bufCap ∧ s.1.slots[i].active ∧ s.1.slots[i].nextRetryUs ≤ nowUs then do
    let slot := s.1.slots[i]
    let backoffMs ← advanceBackoff slot.backoffMs
    let backoffUs := backoffMs.toUInt64 * 1000
    pure ({ s.1 with
      slots := s.1.slots.set i { slot with
        retryCount := slot.retryCount + 1, backoffMs, nextRetryUs := nowUs + backoffUs } i.isLt
      stats := { s.1.stats with retriesSent := s.1.stats.retriesSent + 1 } },
      s.2 ++ [slot.env])
  else
    pure s

def collectDue (m : RetryManager) (nowUs : UInt64) (bufCap : Nat) :
    Checked (List MessageEnvelope × RetryManager) := do
  neverCompiledOutAssert .retryManagerCollectDue (bufCap ≤ msgRingCapacity)
  neverCompiledOutAssert .retryManagerCollectDue (nowUs ≠ 0)
  -- A timestamp that runs backwards is clamped to the last one seen.
  let nowUs := if nowUs < m.lastCollectUs then m.lastCollectUs else nowUs
  let m := { m with lastCollectUs := nowUs }
  let m ← reapTerminatedSlots m nowUs
  let (m, collected) ← eachIndex ackTrackerCapacity (collectSlot nowUs bufCap) (m, [])
  neverCompiledOutAssert .retryManagerCollectDue (collected.length ≤ bufCap)
  neverCompiledOutAssert .retryManagerCollectDue (m.count ≤ ackTrackerCapacity)
  pure (collected, m)

end RetryManager

end MessageEngine
