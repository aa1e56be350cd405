import MessageEngine.Core.MessageEnvelope

/-!
# AckTracker

Outstanding messages that await an acknowledgement: a fixed table of slots, each `free`,
`pending` or `acked`, and a counter of the slots in use. An acknowledged slot is freed by the
next sweep, not by the acknowledgement.
-/

namespace MessageEngine

open Outcome Table

inductive EntryState where
  | free
  | pending
  | acked
  deriving DecidableEq, Repr

structure AckTracker.Entry where
  env : MessageEnvelope
  deadlineUs : UInt64
  state : EntryState
  deriving DecidableEq

structure AckTrackerStats where
  timeouts : UInt32
  acksReceived : UInt32
  deriving DecidableEq, Repr

structure AckTracker where
  slots : Vector AckTracker.Entry ackTrackerCapacity
  count : Nat
  stats : AckTrackerStats
  lastSweepUs : UInt64

namespace AckTracker

def init : AckTracker where
  slots := Vector.replicate ackTrackerCapacity ⟨envelopeInit, 0, .free⟩
  count := 0
  stats := ⟨0, 0⟩
  lastSweepUs := 0

/-- A pending slot for the pair `(src, msgId)`: the test of every lookup below. -/
def Entry.matches (src : NodeId) (msgId : UInt64) (slot : Entry) : Bool :=
  slot.state == .pending && (slot.env.sourceId == src && slot.env.messageId == msgId)

/-- Free slot `i`: the counter drops unless it already is zero. -/
def release (t : AckTracker) (i : Fin ackTrackerCapacity) : AckTracker :=
  { t with
    slots := t.slots.set i { t.slots[i] with state := .free } i.isLt
    count := if t.count > 0 then t.count - 1 else t.count }

def track (t : AckTracker) (env : MessageEnvelope) (deadlineUs : UInt64) :
    Checked (Result × AckTracker) := do
  neverCompiledOutAssert .ackTrackerTrack (t.count ≤ ackTrackerCapacity)
  match firstSlot? (fun slot => slot.state == .free) t.slots with
  | some i =>
    let t' := { t with slots := t.slots.set i ⟨env, deadlineUs, .pending⟩ i.isLt, count := t.count + 1 }
    neverCompiledOutAssert .ackTrackerTrack (t'.count ≤ ackTrackerCapacity)
    pure (.ok, t')
  | none =>
    neverCompiledOutAssert .ackTrackerTrack (t.count = ackTrackerCapacity)
    pure (.errFull, t)

def onAck (t : AckTracker) (src : NodeId) (msgId : UInt64) : Checked (Result × AckTracker) := do
  neverCompiledOutAssert .ackTrackerOnAck (t.count ≤ ackTrackerCapacity)
  match firstSlot? (Entry.matches src msgId) t.slots with
  | some i =>
    pure (.ok, { t with
      slots := t.slots.set i { t.slots[i] with state := .acked } i.isLt
      stats := { t.stats with acksReceived := t.stats.acksReceived + 1 } })
  | none => pure (.errInvalid, t)

/-- One round of `cancel_peer`; the running count is the number cancelled so far. -/
def cancelPeerSlot (dst : NodeId) (i : Fin ackTrackerCapacity) (s : AckTracker × Nat) :
    Checked (AckTracker × Nat) :=
  if s.1.slots[i].state = .pending ∧ s.1.slots[i].env.destinationId = dst then
    pure (s.1.release i, s.2 + 1)
  else
    pure s

def cancelPeer (t : AckTracker) (dst : NodeId) : Checked (Nat × AckTracker) := do
  neverCompiledOutAssert .ackTrackerCancelPeer (dst ≠ nodeIdInvalid)
  let (t, cancelled) ← eachIndex ackTrackerCapacity (cancelPeerSlot dst) (t, 0)
  neverCompiledOutAssert .ackTrackerCancelPeer (t.count ≤ ackTrackerCapacity)
  neverCompiledOutAssert .ackTrackerCancelPeer (cancelled ≤ ackTrackerCapacity)
  pure (cancelled, t)

def cancel (t : AckTracker) (src : NodeId) (msgId : UInt64) : Checked (Result × AckTracker) := do
  neverCompiledOutAssert .ackTrackerCancel (t.count ≤ ackTrackerCapacity)
  neverCompiledOutAssert .ackTrackerCancel (src ≠ nodeIdInvalid)
  match firstSlot? (Entry.matches src msgId) t.slots with
  | some i =>
    neverCompiledOutAssert .ackTrackerCancel ((t.release i).count ≤ ackTrackerCapacity)
    pure (.ok, t.release i)
  | none => pure (.errInvalid, t)

/-- One round of the sweep. The envelopes written to the caller's buffer so far are carried as a
list, so its length is `expired_count`. -/
def sweepOneSlot (nowUs : UInt64) (bufCap : Nat) (i : Fin ackTrackerCapacity)
    (s : AckTracker × List MessageEnvelope) : Checked (AckTracker × List MessageEnvelope) :=
  if s.1.slots[i].state = .pending ∧ s.1.slots[i].deadlineUs ≤ nowUs then
    pure ({ s.1.release i with stats := { s.1.stats with timeouts := s.1.stats.timeouts + 1 } },
      if s.2.length < bufCap then s.2 ++ [s.1.slots[i].env] else s.2)
  else if s.1.slots[i].state = .acked then
    pure (s.1.release i, s.2)
  else
    pure s

def sweepExpired (t : AckTracker) (nowUs : UInt64) (bufCap : Nat) :
    Checked (List MessageEnvelope × AckTracker) := do
  neverCompiledOutAssert .ackTrackerSweepExpired (t.count ≤ ackTrackerCapacity)
  neverCompiledOutAssert .ackTrackerSweepExpired (nowUs ≠ 0)
  -- A timestamp that runs backwards is clamped to the last one seen.
  let nowUs := if nowUs < t.lastSweepUs then t.lastSweepUs else nowUs
  let t := { t with lastSweepUs := nowUs }
  let (t, expired) ← eachIndex ackTrackerCapacity (sweepOneSlot nowUs bufCap) (t, [])
  neverCompiledOutAssert .ackTrackerSweepExpired (t.count ≤ ackTrackerCapacity)
  neverCompiledOutAssert .ackTrackerSweepExpired (expired.length ≤ bufCap)
  pure (expired, t)

/-- The send timestamp of a pending slot; `none` is `ERR_INVALID`. -/
def getSendTimestamp (t : AckTracker) (src : NodeId) (msgId : UInt64) :
    Checked (Option UInt64) := do
  neverCompiledOutAssert .ackTrackerGetSendTimestamp (src ≠ nodeIdInvalid)
  neverCompiledOutAssert .ackTrackerGetSendTimestamp (t.count ≤ ackTrackerCapacity)
  match firstSlot? (Entry.matches src msgId) t.slots with
  | some i =>
    let outTs := t.slots[i].env.timestampUs
    neverCompiledOutAssert .ackTrackerGetSendTimestamp (outTs > 0)
    pure (some outTs)
  | none => pure none

/-- The destination of a pending slot; `none` is `ERR_INVALID`. -/
def getTrackedDestination (t : AckTracker) (ourId : NodeId) (msgId : UInt64) :
    Checked (Option NodeId) := do
  neverCompiledOutAssert .ackTrackerGetTrackedDestination (ourId ≠ nodeIdInvalid)
  neverCompiledOutAssert .ackTrackerGetTrackedDestination (t.count ≤ ackTrackerCapacity)
  match firstSlot? (Entry.matches ourId msgId) t.slots with
  | some i =>
    let outDst := t.slots[i].env.destinationId
    neverCompiledOutAssert .ackTrackerGetTrackedDestination (outDst ≠ nodeIdInvalid)
    pure (some outDst)
  | none => pure none

end AckTracker

end MessageEngine
