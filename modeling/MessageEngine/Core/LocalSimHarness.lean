import MessageEngine.Core.Transport

/-!
# LocalSimHarness

The transport of the tests: two harnesses in one process, linked to each other. What one sends passes its
outbound impairments and then, message by message, the inbound impairments of the other, and goes into the
receive queue there.

A call on one harness reaches into the other through `m_peer`; here the other harness is an argument. All of it
runs in one thread, so nothing comes while `receive_message` sleeps.
-/

namespace MessageEngine

open Outcome

structure LocalSimHarness where
  inbox : Inbox
  /-- `m_peer` is set. -/
  linked : Bool
  isOpen : Bool
  connectionsOpened : UInt32
  connectionsClosed : UInt32

namespace LocalSimHarness

/-- `init` after the constructor, with the impairments of channel 0 if there is one. -/
def init (channel : Option ImpairmentConfig) (entropy : UInt64) : Checked LocalSimHarness := do
  let impairment ← ImpairmentEngine.init (channel.getD impairmentConfigDefault) entropy
  pure { inbox := ⟨impairment, RingBuffer.init⟩
         linked := false
         isOpen := true
         connectionsOpened := 0
         connectionsClosed := 0 }

def link (h : LocalSimHarness) : LocalSimHarness :=
  { h with linked := true, connectionsOpened := h.connectionsOpened + 1 }

def inject (h : LocalSimHarness) (envelope : MessageEnvelope) : Checked (Result × LocalSimHarness) := do
  neverCompiledOutAssert .localSimInject h.isOpen
  if ¬ envelopeValid envelope then
    return (.errInvalid, h)
  let (res, recvQueue) ← h.inbox.recvQueue.push envelope
  neverCompiledOutAssert .localSimInject (res = .ok ∨ res = .errFull)
  return (res, { h with inbox := { h.inbox with recvQueue } })

def deliverFromPeer (h : LocalSimHarness) (env : MessageEnvelope) (nowUs : UInt64) :
    Checked (Result × LocalSimHarness) := do
  neverCompiledOutAssert .localSimDeliverFromPeer h.isOpen
  neverCompiledOutAssert .localSimDeliverFromPeer (envelopeValid env)
  let (partitioned, impairment) ← h.inbox.impairment.isPartitionActive nowUs
  let h := { h with inbox := { h.inbox with impairment } }
  if partitioned then
    return (.errIo, h)
  let ((res, out), impairment) ← h.inbox.impairment.processInbound env nowUs 1
  let h := { h with inbox := { h.inbox with impairment } }
  if res ≠ .ok then
    return (.errIo, h)
  match out with
  | none => return (.errTimeout, h)
  | some inboundOut =>
    let (res, recvQueue) ← h.inbox.recvQueue.push inboundOut
    let h := { h with inbox := { h.inbox with recvQueue } }
    return (if res = .ok then .ok else .errFull, h)

/-- One round of `flush_outbound_batch`: the failure of the current message is kept. -/
def flushOutboundBatch.round (envelope : MessageEnvelope) (nowUs : UInt64) (s : Result × LocalSimHarness)
    (env : MessageEnvelope) : Checked (Result × LocalSimHarness) := do
  let (currentResult, peer) := s
  let (deliverRes, peer) ← peer.deliverFromPeer env nowUs
  if (deliverRes = .errIo ∨ deliverRes = .errFull) ∧ isCurrent env envelope then
    pure (deliverRes, peer)
  else
    pure (currentResult, peer)

def flushOutboundBatch (peer : LocalSimHarness) (envelope : MessageEnvelope) (batch : List MessageEnvelope)
    (nowUs : UInt64) : Checked (Result × LocalSimHarness) := do
  neverCompiledOutAssert .localSimFlushOutboundBatch (batch.length ≤ impairDelayBufSize)
  batch.foldlM (flushOutboundBatch.round envelope nowUs) (.ok, peer)

/-- Answers the result, and both harnesses after the call. -/
def sendMessage (h peer : LocalSimHarness) (envelope : MessageEnvelope) (nowUs : UInt64) :
    Checked (Result × LocalSimHarness × LocalSimHarness) := do
  neverCompiledOutAssert .localSimSendMessage h.isOpen
  neverCompiledOutAssert .localSimSendMessage h.linked
  neverCompiledOutAssert .localSimSendMessage (envelopeValid envelope)
  let (outboundRes, impairment) ← h.inbox.impairment.processOutbound envelope nowUs
  let h := { h with inbox := { h.inbox with impairment } }
  if outboundRes = .errIo then
    return (.ok, h, peer)
  if outboundRes ≠ .ok then
    return (outboundRes, h, peer)
  let (delayed, impairment) ← h.inbox.impairment.collectDeliverable nowUs impairDelayBufSize
  let h := { h with inbox := { h.inbox with impairment } }
  let (res, peer) ← flushOutboundBatch peer envelope delayed nowUs
  return (res, h, peer)

/-- The pops of `receive_message` after a sleep each, with those that are left. -/
def receiveMessage.rounds : Nat → LocalSimHarness → Checked (Reply × LocalSimHarness)
  | 0, h => pure (.error .errTimeout, h)
  | left + 1, h => do
    let (reply, recvQueue) ← h.inbox.recvQueue.pop
    let h := { h with inbox := { h.inbox with recvQueue } }
    match reply with
    | .ok env => pure (.ok env, h)
    | .error _ => receiveMessage.rounds left h

def receiveMessage (h : LocalSimHarness) (timeoutMs : UInt32) : Checked (Reply × LocalSimHarness) := do
  neverCompiledOutAssert .localSimReceiveMessage h.isOpen
  let (reply, recvQueue) ← h.inbox.recvQueue.pop
  let h := { h with inbox := { h.inbox with recvQueue } }
  match reply with
  | .ok env => return (.ok env, h)
  | .error _ =>
    if timeoutMs = 0 then
      return (.error .errTimeout, h)
    let iterations := if timeoutMs > 5000 then 5000 else timeoutMs
    receiveMessage.rounds iterations.toNat h

def close (h : LocalSimHarness) : LocalSimHarness :=
  { h with
    connectionsClosed :=
      if h.isOpen ∧ h.connectionsClosed < h.connectionsOpened then h.connectionsClosed + 1 else h.connectionsClosed
    linked := false
    isOpen := false }

end LocalSimHarness

/-! ## Two harnesses -/

inductive Side where
  | left
  | right
  deriving DecidableEq, Repr

def Side.other : Side → Side
  | .left => .right
  | .right => .left

/-- Two harnesses that are linked to each other. -/
structure LocalSimPair where
  left : LocalSimHarness
  right : LocalSimHarness

namespace LocalSimPair

def get (p : LocalSimPair) : Side → LocalSimHarness
  | .left => p.left
  | .right => p.right

def set (p : LocalSimPair) : Side → LocalSimHarness → LocalSimPair
  | .left, h => { p with left := h }
  | .right, h => { p with right := h }

/-- Both harnesses initialised and linked. -/
def init (channel : Side → Option ImpairmentConfig) (entropy : Side → UInt64) : Checked LocalSimPair := do
  let left ← LocalSimHarness.init (channel .left) (entropy .left)
  let right ← LocalSimHarness.init (channel .right) (entropy .right)
  pure ⟨left.link, right.link⟩

/-- A call on one of the two. -/
inductive Call where
  | send (side : Side) (envelope : MessageEnvelope) (nowUs : UInt64)
  | inject (side : Side) (envelope : MessageEnvelope)
  | receive (side : Side) (timeoutMs : UInt32)

inductive Answer where
  | result (res : Result)
  | reply (reply : Reply)

def exec (call : Call) (p : LocalSimPair) : Checked (Answer × LocalSimPair) :=
  match call with
  | .send side envelope nowUs => do
    let (res, h, peer) ← (p.get side).sendMessage (p.get side.other) envelope nowUs
    pure (.result res, (p.set side h).set side.other peer)
  | .inject side envelope => do
    let (res, h) ← (p.get side).inject envelope
    pure (.result res, p.set side h)
  | .receive side timeoutMs => do
    let (reply, h) ← (p.get side).receiveMessage timeoutMs
    pure (.reply reply, p.set side h)

end LocalSimPair

end MessageEngine
