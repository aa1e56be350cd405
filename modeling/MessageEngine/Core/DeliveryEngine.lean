import MessageEngine.Core.AckTracker
import MessageEngine.Core.RetryManager
import MessageEngine.Core.DuplicateFilter
import MessageEngine.Core.DeliveryEvent
import MessageEngine.Core.OrderingBuffer
import MessageEngine.Core.ReassemblyBuffer
import MessageEngine.Core.Fragmentation

/-!
# DeliveryEngine

The coordinator. On the way out it assigns identity and sequence numbers, reserves the
acknowledgement and retry slots, fragments and sends; on the way in it reassembles, checks expiry
and destination, suppresses duplicates, restores the sender's order and acknowledges.

The transport is outside the engine. What it answers during one public call is the record
`Transport`, and any answers at all are allowed. What the engine does to the outside, and the
moves of its staging slot, are written to `trace`; the trace is not program state, nothing reads
it, and each public call starts it empty.

The staging slot `heldPending` takes the message the ordering gate releases after a delivery, so
that the next `receive` returns it before it looks at the transport.
-/

namespace MessageEngine

open Outcome Table

/-- The part of the channel configuration the engine reads. -/
structure ChannelConfig where
  ordering : OrderingMode
  recvTimeoutMs : UInt32
  maxRetries : UInt32
  retryBackoffMs : UInt32

structure DeliveryStats where
  latencySampleCount : UInt32
  latencySumUs : UInt64
  latencyMinUs : UInt64
  latencyMaxUs : UInt64
  msgsSent : UInt32
  msgsReceived : UInt32
  msgsDroppedExpired : UInt32
  msgsDroppedDuplicate : UInt32
  msgsDroppedMisrouted : UInt32
  msgsDroppedOrderingFull : UInt32
  deriving DecidableEq, Repr

/-- The transport's answers during one public call: those of successive `pop_hello_peer` calls
(then `NODE_ID_INVALID`), that of `receive_message`, and those of successive `send_message` calls
(then `OK`). -/
structure Transport where
  helloPeers : List NodeId
  inbound : (timeoutMs : UInt32) → Reply
  sendResults : List Result

structure SeqState where
  dst : NodeId
  nextSeq : UInt32
  active : Bool
  deriving DecidableEq

/-- What a call does at the engine's borders, in order. -/
inductive Effect where
  /-- A frame handed to `send_message`, and its result. -/
  | sent (env : MessageEnvelope) (res : Result)
  /-- `try_release_next` handed a message over, which was staged. -/
  | released (env : MessageEnvelope)
  /-- The staged message was taken out to be returned. -/
  | heldReturned (env : MessageEnvelope)
  /-- The staged message was taken out and dropped as expired. -/
  | heldExpired (env : MessageEnvelope)
  /-- The staged message was discarded by a reset of its source. -/
  | heldDiscarded (env : MessageEnvelope)
  /-- `reset_peer_ordering` ran for a source. -/
  | reset (src : NodeId)
  /-- A message other than the staged one was dropped as expired. -/
  | expired (env : MessageEnvelope)
  deriving DecidableEq

structure DeliveryEngine where
  transport : Transport
  cfg : ChannelConfig
  localId : NodeId
  ackTracker : AckTracker
  retryManager : RetryManager
  dedup : DuplicateFilter
  idGen : MessageIdGen
  lastNowUs : UInt64
  stats : DeliveryStats
  events : DeliveryEventRing
  reassembly : ReassemblyBuffer
  ordering : OrderingBuffer
  seqState : Vector SeqState ackTrackerCapacity
  heldPending : MessageEnvelope
  heldPendingValid : Bool
  trace : List Effect

namespace DeliveryEngine

/-- The seed of the identifier generator, never zero for a valid node. -/
def idSeed (entropy : UInt64) (localId : NodeId) : UInt64 :=
  let seed := entropy ^^^ (localId.toUInt64 <<< 32)
  if seed = 0 then localId.toUInt64 ||| 1 else seed

/-- The engine after `init`, with the entropy the operating system gave. -/
def init (cfg : ChannelConfig) (localId : NodeId) (entropy : UInt64) : DeliveryEngine where
  transport := ⟨[], fun _ => .error .errTimeout, []⟩
  cfg := cfg
  localId := localId
  ackTracker := .init
  retryManager := .init
  dedup := .init
  idGen := ⟨idSeed entropy localId⟩
  lastNowUs := 0
  stats := ⟨0, 0, 0, 0, 0, 0, 0, 0, 0, 0⟩
  events := .init
  reassembly := .init
  ordering := .init
  seqState := Vector.replicate ackTrackerCapacity ⟨0, 1, false⟩
  heldPending := envelopeInit
  heldPendingValid := false
  trace := []

/-- Append to the trace. -/
def note (e : DeliveryEngine) (x : Effect) : DeliveryEngine := { e with trace := e.trace ++ [x] }

/-! ## Events and the transport -/

def emitEvent (e : DeliveryEngine) (kind : DeliveryEventKind) (messageId : UInt64) (nodeId : NodeId)
    (timestampUs : UInt64) (result : Result) : Checked DeliveryEngine := do
  neverCompiledOutAssert .engineEmitEvent (timestampUs > 0)
  let events ← e.events.push { messageId, timestampUs, nodeId, kind, result }
  pure { e with events }

def emitRoutingDropEvent (e : DeliveryEngine) (env : MessageEnvelope) (routingRes : Result)
    (nowUs : UInt64) : Checked DeliveryEngine := do
  neverCompiledOutAssert .engineEmitRoutingDropEvent (routingRes ≠ .ok)
  neverCompiledOutAssert .engineEmitRoutingDropEvent (nowUs > 0)
  if routingRes = .errExpired then
    e.emitEvent .expiryDrop env.messageId env.sourceId nowUs routingRes
  else
    e.emitEvent .misrouteDrop env.messageId env.sourceId nowUs routingRes

/-- `send_message` of the transport. -/
def sendMessage (e : DeliveryEngine) (env : MessageEnvelope) : Result × DeliveryEngine :=
  match e.transport.sendResults with
  | [] => (.ok, e.note (.sent env .ok))
  | r :: rest =>
    (r, { e with transport := { e.transport with sendResults := rest } }.note (.sent env r))

/-- `pop_hello_peer` of the transport. -/
def popHelloPeer (e : DeliveryEngine) : NodeId × DeliveryEngine :=
  match e.transport.helloPeers with
  | [] => (nodeIdInvalid, e)
  | id :: rest => (id, { e with transport := { e.transport with helloPeers := rest } })

def checkRouting (env : MessageEnvelope) (localId : NodeId) (nowUs : UInt64) : Checked Result := do
  neverCompiledOutAssert .checkRouting (localId ≠ nodeIdInvalid)
  neverCompiledOutAssert .checkRouting (nowUs > 0)
  if timestampExpired env.expiryTimeUs nowUs then
    pure .errExpired
  else if ¬ envelopeAddressedTo env localId then
    pure .errInvalid
  else
    pure .ok

/-- Acknowledge a data message; a failed send is only logged. -/
def sendDataAck (e : DeliveryEngine) (dataEnv : MessageEnvelope) (nowUs : UInt64) :
    Checked DeliveryEngine := do
  neverCompiledOutAssert .sendDataAck (envelopeIsData dataEnv)
  neverCompiledOutAssert .sendDataAck (e.localId ≠ nodeIdInvalid)
  let ackEnv := envelopeMakeAck dataEnv e.localId nowUs
  let (_, e) := e.sendMessage ackEnv
  pure e

/-- Account for the holds an ordering sweep freed: the counter and one event each. -/
def accountOrderingExpiryDrops.emit (nowUs : UInt64) :
    List MessageEnvelope → DeliveryEngine → Checked DeliveryEngine
  | [], e => pure e
  | env :: freed, e => do
    let e ← (e.note (.expired env)).emitEvent .expiryDrop env.messageId env.sourceId nowUs .errExpired
    emit nowUs freed e

def accountOrderingExpiryDrops (e : DeliveryEngine) (freed : List MessageEnvelope) (count : Nat)
    (nowUs : UInt64) : Checked DeliveryEngine := do
  neverCompiledOutAssert .engineAccountOrderingExpiryDrops (count ≤ orderingHoldCount)
  neverCompiledOutAssert .engineAccountOrderingExpiryDrops (nowUs > 0)
  if count = 0 then
    pure e
  else
    let e := { e with stats := { e.stats with
      msgsDroppedExpired := e.stats.msgsDroppedExpired + UInt32.ofNat count } }
    accountOrderingExpiryDrops.emit nowUs (freed.take count) e

/-! ## Sending -/

def sendViaTransport (e : DeliveryEngine) (env : MessageEnvelope) (nowUs : UInt64) :
    Checked (Result × DeliveryEngine) := do
  neverCompiledOutAssert .engineSendViaTransport (nowUs > 0)
  if timestampExpired env.expiryTimeUs nowUs then
    pure (.errExpired, e)
  else
    neverCompiledOutAssert .engineSendViaTransport (envelopeValid env)
    pure (e.sendMessage env)

/-- Reserve the acknowledgement slot and, for `RELIABLE_RETRY`, the retry slot; a failed second
reservation gives the first one back. -/
def reserveBookkeeping (ackTracker : AckTracker) (retryManager : RetryManager)
    (env : MessageEnvelope) (cfg : ChannelConfig) (nowUs : UInt64) :
    Checked (Result × AckTracker × RetryManager) := do
  neverCompiledOutAssert .reserveBookkeeping (nowUs > 0)
  neverCompiledOutAssert .reserveBookkeeping (envelopeValid env)
  if env.reliabilityClass ≠ .reliableAck ∧ env.reliabilityClass ≠ .reliableRetry then
    pure (.ok, ackTracker, retryManager)
  else
    let (trackRes, ackTracker) ←
      ackTracker.track env (timestampDeadlineUs nowUs cfg.recvTimeoutMs)
    if trackRes ≠ .ok then
      pure (trackRes, ackTracker, retryManager)
    else if env.reliabilityClass ≠ .reliableRetry then
      pure (.ok, ackTracker, retryManager)
    else
      let (schedRes, retryManager) ←
        retryManager.schedule env cfg.maxRetries cfg.retryBackoffMs nowUs
      if schedRes ≠ .ok then
        let (_, ackTracker) ← ackTracker.cancel env.sourceId env.messageId
        pure (schedRes, ackTracker, retryManager)
      else
        pure (.ok, ackTracker, retryManager)

def rollbackOnTransportFailure (ackTracker : AckTracker) (retryManager : RetryManager)
    (env : MessageEnvelope) : Checked (AckTracker × RetryManager) := do
  neverCompiledOutAssert .rollbackOnTransportFailure (envelopeValid env)
  neverCompiledOutAssert .rollbackOnTransportFailure
    (env.reliabilityClass = .reliableAck ∨ env.reliabilityClass = .reliableRetry)
  let (_, ackTracker) ← ackTracker.cancel env.sourceId env.messageId
  if env.reliabilityClass = .reliableRetry then
    let (_, retryManager) ← retryManager.cancel env.sourceId env.messageId
    pure (ackTracker, retryManager)
  else
    pure (ackTracker, retryManager)

/-- Decide the rollback: a partial send keeps the reservations and is reported as `ERR_IO`. -/
def handleSendFragmentsFailure (ackTracker : AckTracker) (retryManager : RetryManager)
    (env : MessageEnvelope) (res : Result) : Checked (Result × AckTracker × RetryManager) := do
  neverCompiledOutAssert .handleSendFragmentsFailure (res ≠ .ok)
  neverCompiledOutAssert .handleSendFragmentsFailure (envelopeValid env)
  if res = .errIoPartial then
    pure (.errIo, ackTracker, retryManager)
  else if env.reliabilityClass = .reliableAck ∨ env.reliabilityClass = .reliableRetry then
    let (ackTracker, retryManager) ← rollbackOnTransportFailure ackTracker retryManager env
    pure (res, ackTracker, retryManager)
  else
    pure (res, ackTracker, retryManager)

/-- The outbound sequence number for `dst`; zero when no slot is left. -/
def nextSeqFor (e : DeliveryEngine) (dst : NodeId) : Checked (UInt32 × DeliveryEngine) := do
  neverCompiledOutAssert .engineNextSeqFor (dst ≠ 0)
  match firstSlot? (fun s => s.active && s.dst == dst) e.seqState with
  | some i =>
    let seq := e.seqState[i].nextSeq
    let next := seq + 1
    let next := if next = 0 then 1 else next
    pure (seq, { e with seqState := e.seqState.set i { e.seqState[i] with nextSeq := next } i.isLt })
  | none =>
    match firstSlot? (fun s => !s.active) e.seqState with
    | some i => pure (1, { e with seqState := e.seqState.set i ⟨dst, 2, true⟩ i.isLt })
    | none => pure (0, e)

/-- Send the fragments in turn; the flag says whether one has already been accepted. -/
def sendFragments.loop (nowUs : UInt64) :
    List MessageEnvelope → Bool → DeliveryEngine → Checked (Result × DeliveryEngine)
  | [], _, e => pure (.ok, e)
  | frag :: frags, anySent, e => do
    let (res, e) ← e.sendViaTransport frag nowUs
    if res ≠ .ok then
      pure (if anySent then .errIoPartial else .errIo, e)
    else
      loop nowUs frags true e

def sendFragments (e : DeliveryEngine) (env : MessageEnvelope) (nowUs : UInt64) :
    Checked (Result × DeliveryEngine) := do
  neverCompiledOutAssert .engineSendFragments (envelopeValid env)
  let fragment ← needsFragmentation env
  if !fragment then
    e.sendViaTransport env nowUs
  else
    let frags ← fragmentMessage env
    if frags.isEmpty then
      pure (.errInvalid, e)
    else
      neverCompiledOutAssert .engineSendFragments (frags.length ≤ fragMaxCount)
      sendFragments.loop nowUs frags false e

def recordSendFailure (e : DeliveryEngine) (env : MessageEnvelope) (res : Result) :
    Checked DeliveryEngine := do
  neverCompiledOutAssert .engineRecordSendFailure (res ≠ .ok)
  if res = .errExpired then
    let e := { e with stats := { e.stats with msgsDroppedExpired := e.stats.msgsDroppedExpired + 1 } }
    (e.note (.expired env)).emitEvent .expiryDrop env.messageId env.destinationId env.timestampUs res
  else
    e.emitEvent .sendFail env.messageId env.destinationId env.timestampUs res

/-- The envelope `send` works with: identity, sequence number and fragment fields assigned. -/
def prepareEnvelope (e : DeliveryEngine) (env : MessageEnvelope) (nowUs : UInt64) :
    Checked (MessageEnvelope × DeliveryEngine) := do
  let (messageId, idGen) ← e.idGen.take
  let e := { e with idGen }
  let env := { env with sourceId := e.localId, messageId, timestampUs := nowUs }
  let (sequenceNum, e) ←
    if envelopeIsData env ∧ env.sequenceNum = 0 ∧ e.cfg.ordering = .ordered then
      e.nextSeqFor env.destinationId
    else pure (env.sequenceNum, e)
  pure ({ env with
    sequenceNum, fragmentIndex := 0, fragmentCount := 1
    totalPayloadLength := env.payloadLength.toUInt16 }, e)

/-- What `send` does once the envelope is filled in: reserve, send, and roll back on failure. -/
def sendPrepared (e : DeliveryEngine) (env : MessageEnvelope) (nowUs : UInt64) :
    Checked ((Result × MessageEnvelope) × DeliveryEngine) := do
  let (bookRes, ackTracker, retryManager) ←
    reserveBookkeeping e.ackTracker e.retryManager env e.cfg nowUs
  let e := { e with ackTracker, retryManager }
  if bookRes ≠ .ok then
    let e ← e.recordSendFailure env bookRes
    return ((bookRes, env), e)
  let (res, e) ← e.sendFragments env nowUs
  if res ≠ .ok then
    let (reported, ackTracker, retryManager) ←
      handleSendFragmentsFailure e.ackTracker e.retryManager env res
    let e := { e with ackTracker, retryManager }
    let e ← e.recordSendFailure env reported
    return ((reported, env), e)
  let e := { e with stats := { e.stats with msgsSent := e.stats.msgsSent + 1 } }
  let e ← e.emitEvent .sendOk env.messageId env.destinationId nowUs .ok
  neverCompiledOutAssert .engineSend (env.sourceId = e.localId)
  neverCompiledOutAssert .engineSend (env.messageId ≠ 0)
  return ((.ok, env), e)

/-- The answer carries the envelope, which `send` fills in place. -/
def send (e : DeliveryEngine) (env : MessageEnvelope) (nowUs : UInt64) :
    Checked ((Result × MessageEnvelope) × DeliveryEngine) := do
  neverCompiledOutAssert .engineSend (nowUs > 0)
  if e.lastNowUs > 0 ∧ nowUs < e.lastNowUs then
    return ((.errInvalid, env), e)
  let e := { e with lastNowUs := nowUs }
  let (env, e) ← e.prepareEnvelope env nowUs
  e.sendPrepared env nowUs

/-! ## Receiving -/

/-- Drop the two slots an acknowledgement names, unless the tracker knows another destination. -/
def processAck (ackTracker : AckTracker) (retryManager : RetryManager) (env : MessageEnvelope) :
    Checked (AckTracker × RetryManager) := do
  neverCompiledOutAssert .processAck (env.messageType = .ack)
  neverCompiledOutAssert .processAck (envelopeIsControl env)
  let expectedAckSender ← ackTracker.getTrackedDestination env.destinationId env.messageId
  match expectedAckSender with
  | some dst =>
    if dst ≠ env.sourceId then
      return (ackTracker, retryManager)
  | none => pure ()
  let (_, ackTracker) ← ackTracker.onAck env.destinationId env.messageId
  let (_, retryManager) ← retryManager.onAck env.destinationId env.messageId
  return (ackTracker, retryManager)

def updateLatencyStats (e : DeliveryEngine) (ackEnv : MessageEnvelope) (nowUs : UInt64) :
    Checked DeliveryEngine := do
  neverCompiledOutAssert .engineUpdateLatencyStats (ackEnv.messageType = .ack)
  neverCompiledOutAssert .engineUpdateLatencyStats (nowUs > 0)
  let sendTs ← e.ackTracker.getSendTimestamp ackEnv.destinationId ackEnv.messageId
  match sendTs with
  | none => pure e
  | some sendTs =>
    if nowUs < sendTs then
      pure e
    else
      let rttUs := nowUs - sendTs
      let count := e.stats.latencySampleCount + 1
      pure { e with stats := { e.stats with
        latencySampleCount := count
        latencySumUs := e.stats.latencySumUs + rttUs
        latencyMinUs := if count = 1 then rttUs
          else if rttUs < e.stats.latencyMinUs then rttUs else e.stats.latencyMinUs
        latencyMaxUs := if count = 1 then rttUs
          else if rttUs > e.stats.latencyMaxUs then rttUs else e.stats.latencyMaxUs } }

def handleControlMessage (e : DeliveryEngine) (env : MessageEnvelope) (nowUs : UInt64) :
    Checked DeliveryEngine := do
  neverCompiledOutAssert .engineHandleControlMessage (envelopeIsControl env)
  if env.messageType = .ack then
    let e ← e.updateLatencyStats env nowUs
    let (ackTracker, retryManager) ← processAck e.ackTracker e.retryManager env
    let e := { e with ackTracker, retryManager }
    e.emitEvent .ackReceived env.messageId env.sourceId nowUs .ok
  else
    pure e

/-- Duplicate suppression; a duplicate is acknowledged again. -/
def handleDataDedup (e : DeliveryEngine) (env : MessageEnvelope) (nowUs : UInt64) :
    Checked (Result × DeliveryEngine) := do
  neverCompiledOutAssert .engineHandleDataDedup (envelopeIsData env)
  if env.reliabilityClass ≠ .reliableRetry then
    return (.ok, e)
  let (dedupRes, dedup) ← e.dedup.checkAndRecord env.sourceId env.messageId nowUs
  let e := { e with dedup }
  if dedupRes ≠ .errDuplicate then
    neverCompiledOutAssert .engineHandleDataDedup (dedupRes = .ok)
    return (.ok, e)
  let e := { e with stats := { e.stats with
    msgsDroppedDuplicate := e.stats.msgsDroppedDuplicate + 1 } }
  let e ← e.sendDataAck env nowUs
  let e ← e.emitEvent .duplicateDrop env.messageId env.sourceId nowUs .errDuplicate
  return (.errDuplicate, e)

/-- Emit `RECONNECT_CANCEL` once for each cancelled entry. -/
def resetPeerOrdering.emit (src : NodeId) (ts : UInt64) : Nat → DeliveryEngine → Checked DeliveryEngine
  | 0, e => pure e
  | n + 1, e => do
    let e ← e.emitEvent .reconnectCancel 0 src ts .ok
    emit src ts n e

/-- Drop the staged message if it comes from `src`. -/
def discardHeld (e : DeliveryEngine) (src : NodeId) : DeliveryEngine :=
  if e.heldPendingValid ∧ e.heldPending.sourceId = src then
    { e with heldPendingValid := false }.note (.heldDiscarded e.heldPending)
  else e

/-- Number the messages to `src` from one again, if any were numbered. -/
def restartSequence (e : DeliveryEngine) (src : NodeId) : DeliveryEngine :=
  match firstSlot? (fun s => s.active && s.dst == src) e.seqState with
  | some i => { e with seqState := e.seqState.set i { e.seqState[i] with nextSeq := 1 } i.isLt }
  | none => e

def resetPeerOrdering (e : DeliveryEngine) (src : NodeId) : Checked DeliveryEngine := do
  neverCompiledOutAssert .engineResetPeerOrdering (src ≠ 0)
  let e := (e.discardHeld src).note (.reset src)
  let ordering ← e.ordering.resetPeer src
  let e := { e with ordering }.restartSequence src
  let ts : UInt64 := if e.lastNowUs > 0 then e.lastNowUs else 1
  let (ackCancelled, ackTracker) ← e.ackTracker.cancelPeer src
  let e ← resetPeerOrdering.emit src ts ackCancelled { e with ackTracker }
  let (retryCancelled, retryManager) ← e.retryManager.cancelPeer src
  resetPeerOrdering.emit src ts retryCancelled { e with retryManager }

/-- The bounded loop of `drain_hello_reconnects`, with the rounds that are left. -/
def drainHelloReconnects : Nat → DeliveryEngine → Checked DeliveryEngine
  | 0, e => pure e
  | rounds + 1, e => do
    let (helloSrc, e) := e.popHelloPeer
    if helloSrc = nodeIdInvalid then
      pure e
    else
      let e ← e.resetPeerOrdering helloSrc
      drainHelloReconnects rounds e

def handleFragmentIngest (e : DeliveryEngine) (wireEnv : MessageEnvelope) (nowUs : UInt64) :
    Checked (Reply × DeliveryEngine) := do
  neverCompiledOutAssert .engineHandleFragmentIngest (envelopeValid wireEnv)
  let (res, reassembly) ← e.reassembly.ingest wireEnv nowUs
  let e := { e with reassembly }
  match res with
  | .ok _ => pure ()
  | .error r =>
    neverCompiledOutAssert .engineHandleFragmentIngest
      (r = .errAgain ∨ r = .errFull ∨ r = .errInvalid)
  pure (res, e)

/-- The ordering gate: first the expired holds are swept, then the message goes in. -/
def handleOrderingGate (e : DeliveryEngine) (logical : MessageEnvelope) (nowUs : UInt64) :
    Checked (Reply × DeliveryEngine) := do
  neverCompiledOutAssert .engineHandleOrderingGate (envelopeValid logical)
  let swept ← e.ordering.sweepExpiredHolds nowUs orderingHoldCount
  let e ← { e with ordering := swept.buffer }.accountOrderingExpiryDrops swept.out swept.freed nowUs
  let (res, ordering) ← e.ordering.ingest logical nowUs
  let e := { e with ordering }
  match res with
  | .ok _ => pure ()
  | .error r => neverCompiledOutAssert .engineHandleOrderingGate (r = .errAgain ∨ r = .errFull)
  pure (res, e)

/-- Stage the next contiguous hold of `src`, if there is one. -/
def stageNext (e : DeliveryEngine) (src : NodeId) : Checked DeliveryEngine := do
  let (nextHeld, ordering) ← e.ordering.tryReleaseNext src
  let e := { e with ordering }
  match nextHeld with
  | some env =>
    pure ({ e with heldPending := env, heldPendingValid := true }.note (.released env))
  | none => pure e

/-- The common end of a delivery: acknowledge if asked to, count. -/
def acknowledgeAndCount (e : DeliveryEngine) (env : MessageEnvelope) (nowUs : UInt64) :
    Checked DeliveryEngine := do
  let e ← if envelopeNeedsAckResponse env then e.sendDataAck env nowUs else pure e
  pure { e with stats := { e.stats with msgsReceived := e.stats.msgsReceived + 1 } }

def deliverHeldPending (e : DeliveryEngine) (nowUs : UInt64) : Checked (Reply × DeliveryEngine) := do
  neverCompiledOutAssert .engineDeliverHeldPending e.heldPendingValid
  let env := e.heldPending
  let e := { e with heldPendingValid := false }
  if timestampExpired env.expiryTimeUs nowUs then
    let e := { e with stats := { e.stats with msgsDroppedExpired := e.stats.msgsDroppedExpired + 1 } }
    let e ← (e.note (.heldExpired env)).emitEvent .expiryDrop env.messageId env.sourceId nowUs .errExpired
    let e ← e.stageNext env.sourceId
    neverCompiledOutAssert .engineDeliverHeldPending (e.stats.msgsDroppedExpired > 0)
    pure (.error .errExpired, e)
  else
    let e ← (e.note (.heldReturned env)).stageNext env.sourceId
    let e ← e.acknowledgeAndCount env nowUs
    neverCompiledOutAssert .engineDeliverHeldPending (envelopeValid env)
    pure (.ok env, e)

def handleDataPath (e : DeliveryEngine) (env : MessageEnvelope) (nowUs : UInt64) :
    Checked (Reply × DeliveryEngine) := do
  neverCompiledOutAssert .engineHandleDataPath (envelopeIsData env)
  let (dedupRes, e) ← e.handleDataDedup env nowUs
  if dedupRes ≠ .ok then
    return (.error dedupRes, e)
  let (ordRes, e) ← e.handleOrderingGate env nowUs
  match ordRes with
  | .error .errFull =>
    return (.error .errFull, { e with stats := { e.stats with
      msgsDroppedOrderingFull := e.stats.msgsDroppedOrderingFull + 1 } })
  | .error _ => return (.error .errAgain, e)
  | .ok env =>
    let e ← e.stageNext env.sourceId
    let e ← e.acknowledgeAndCount env nowUs
    neverCompiledOutAssert .engineHandleDataPath (envelopeValid env)
    return (.ok env, e)

def recordRoutingFailure (e : DeliveryEngine) (env : MessageEnvelope) (routingRes : Result) :
    Checked DeliveryEngine := do
  neverCompiledOutAssert .engineRecordRoutingFailure (routingRes ≠ .ok)
  if routingRes = .errExpired then
    pure ({ e with stats := { e.stats with
      msgsDroppedExpired := e.stats.msgsDroppedExpired + 1 } }.note (.expired env))
  else
    pure { e with stats := { e.stats with
      msgsDroppedMisrouted := e.stats.msgsDroppedMisrouted + 1 } }

/-- What `receive` does with one frame the transport handed up. -/
def receiveFrame (e : DeliveryEngine) (wireEnv : MessageEnvelope) (nowUs : UInt64) :
    Checked (Reply × DeliveryEngine) := do
  neverCompiledOutAssert .engineReceive (envelopeValid wireEnv)
  let (fragRes, e) ← e.handleFragmentIngest wireEnv nowUs
  match fragRes with
  | .error r => return (.error r, e)
  | .ok env =>
    let routingRes ← checkRouting env e.localId nowUs
    if routingRes ≠ .ok then
      let e ← e.recordRoutingFailure env routingRes
      let e ← e.emitRoutingDropEvent env routingRes nowUs
      return (.error routingRes, e)
    if envelopeIsControl env then
      let e ← e.handleControlMessage env nowUs
      return (.ok env, e)
    neverCompiledOutAssert .engineReceive (envelopeIsData env)
    e.handleDataPath env nowUs

/-- The poll of the transport that ends `receive`. -/
def receiveFromTransport (e : DeliveryEngine) (timeoutMs : UInt32) (nowUs : UInt64) :
    Checked (Reply × DeliveryEngine) :=
  match e.transport.inbound timeoutMs with
  | .error r => pure (.error r, e)
  | .ok wireEnv => e.receiveFrame wireEnv nowUs

/-- What `receive` does once the reconnects are drained: the staged message first, then the
transport. -/
def receiveDrained (e : DeliveryEngine) (timeoutMs : UInt32) (nowUs : UInt64) :
    Checked (Reply × DeliveryEngine) := do
  if e.heldPendingValid then
    let (heldRes, e) ← e.deliverHeldPending nowUs
    match heldRes with
    | .ok env => return (.ok env, e)
    -- The staged message expired: fall through to the transport.
    | .error _ => e.receiveFromTransport timeoutMs nowUs
  else
    e.receiveFromTransport timeoutMs nowUs

def receive (e : DeliveryEngine) (timeoutMs : UInt32) (nowUs : UInt64) :
    Checked (Reply × DeliveryEngine) := do
  neverCompiledOutAssert .engineReceive (nowUs > 0)
  if e.lastNowUs > 0 ∧ nowUs < e.lastNowUs then
    return (.error .errInvalid, e)
  let e := { e with lastNowUs := nowUs }
  let e ← drainHelloReconnects orderingPeerCount e
  e.receiveDrained timeoutMs nowUs

/-! ## Housekeeping -/

/-- Retransmit the collected messages; each one the transport takes is an event. -/
def pumpRetries.loop (nowUs : UInt64) : List MessageEnvelope → DeliveryEngine → Checked DeliveryEngine
  | [], e => pure e
  | env :: rest, e => do
    let (sendRes, e) ← e.sendFragments env nowUs
    let e ← if sendRes ≠ .ok then pure e
      else e.emitEvent .retryFired env.messageId env.destinationId nowUs .ok
    loop nowUs rest e

def pumpRetries (e : DeliveryEngine) (nowUs : UInt64) : Checked (Nat × DeliveryEngine) := do
  neverCompiledOutAssert .enginePumpRetries (nowUs > 0)
  if e.lastNowUs > 0 ∧ nowUs < e.lastNowUs then
    return (0, e)
  let e := { e with lastNowUs := nowUs }
  let (collected, retryManager) ← e.retryManager.collectDue nowUs msgRingCapacity
  neverCompiledOutAssert .enginePumpRetries (collected.length ≤ msgRingCapacity)
  let e ← pumpRetries.loop nowUs collected { e with retryManager }
  return (collected.length, e)

/-- One `ACK_TIMEOUT` event for each swept entry. -/
def sweepAckTimeouts.emit (nowUs : UInt64) :
    List MessageEnvelope → DeliveryEngine → Checked DeliveryEngine
  | [], e => pure e
  | env :: rest, e => do
    let e ← e.emitEvent .ackTimeout env.messageId env.destinationId nowUs .errTimeout
    emit nowUs rest e

def sweepAckTimeouts (e : DeliveryEngine) (nowUs : UInt64) : Checked (Nat × DeliveryEngine) := do
  neverCompiledOutAssert .engineSweepAckTimeouts (nowUs > 0)
  if e.lastNowUs > 0 ∧ nowUs < e.lastNowUs then
    return (0, e)
  let e := { e with lastNowUs := nowUs }
  let reassembly ← e.reassembly.sweepExpired nowUs
  let staleUs := e.cfg.recvTimeoutMs.toUInt64 * 1000
  let (_, reassembly) := reassembly.sweepStale nowUs staleUs
  let swept ← e.ordering.sweepExpiredHolds nowUs orderingHoldCount
  let e ← { e with reassembly, ordering := swept.buffer }.accountOrderingExpiryDrops
    swept.out swept.freed nowUs
  let (collected, ackTracker) ← e.ackTracker.sweepExpired nowUs ackTrackerCapacity
  neverCompiledOutAssert .engineSweepAckTimeouts (collected.length ≤ ackTrackerCapacity)
  let e ← sweepAckTimeouts.emit nowUs collected { e with ackTracker }
  return (collected.length, e)

/-! ## Observation -/

def pollEvent (e : DeliveryEngine) : Checked (Option DeliveryEvent × DeliveryEngine) := do
  let size ← e.events.size
  neverCompiledOutAssert .enginePollEvent (size ≤ deliveryEventRingCapacity)
  let (out, events) ← e.events.pop
  pure (out, { e with events })

/-- The bounded loop of `drain_events`, with the room that is left. -/
def drainEvents : Nat → DeliveryEngine → Checked (List DeliveryEvent × DeliveryEngine)
  | 0, e => pure ([], e)
  | room + 1, e => do
    let (out, events) ← e.events.pop
    let e := { e with events }
    match out with
    | none => pure ([], e)
    | some ev =>
      let (rest, e) ← drainEvents room e
      pure (ev :: rest, e)

/-! ## Public calls -/

/-- The public calls that change the engine. -/
inductive Call where
  | send (env : MessageEnvelope) (nowUs : UInt64)
  | receive (timeoutMs : UInt32) (nowUs : UInt64)
  | pumpRetries (nowUs : UInt64)
  | sweepAckTimeouts (nowUs : UInt64)
  | resetPeerOrdering (src : NodeId)
  | pollEvent
  | drainEvents (bufCap : UInt32)

/-- What a public call answers. -/
inductive Answer where
  | sent (res : Result) (env : MessageEnvelope)
  | received (reply : Reply)
  | counted (n : Nat)
  | done
  | event (ev : Option DeliveryEvent)
  | events (evs : List DeliveryEvent)

/-- One public call, with the transport's answers during it. -/
structure Input where
  call : Call
  transport : Transport

/-- What can be seen of a call: its answer and its effects. -/
structure Observation where
  answer : Answer
  effects : List Effect

/-- The call itself, on an engine that has its transport. -/
def run (call : Call) (e : DeliveryEngine) : Checked (Answer × DeliveryEngine) :=
  match call with
  | .send env nowUs => do
    let ((res, env), e) ← e.send env nowUs
    pure (.sent res env, e)
  | .receive timeoutMs nowUs => do
    let (reply, e) ← e.receive timeoutMs nowUs
    pure (.received reply, e)
  | .pumpRetries nowUs => do
    let (n, e) ← e.pumpRetries nowUs
    pure (.counted n, e)
  | .sweepAckTimeouts nowUs => do
    let (n, e) ← e.sweepAckTimeouts nowUs
    pure (.counted n, e)
  | .resetPeerOrdering src => do
    let e ← e.resetPeerOrdering src
    pure (.done, e)
  | .pollEvent => do
    let (ev, e) ← e.pollEvent
    pure (.event ev, e)
  | .drainEvents bufCap => do
    let (evs, e) ← e.drainEvents bufCap.toNat
    pure (.events evs, e)

/-- The engine with the transport of a call attached and nothing recorded yet. -/
def attach (e : DeliveryEngine) (transport : Transport) : DeliveryEngine :=
  { e with transport, trace := [] }

/-- One public call as a step of the system. -/
def exec (i : Input) (e : DeliveryEngine) : Checked (Observation × DeliveryEngine) := do
  let (answer, e) ← run i.call (e.attach i.transport)
  pure (⟨answer, e.trace⟩, e)

end DeliveryEngine

end MessageEngine
