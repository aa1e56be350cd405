import MessageEngine.Core.Backend

/-!
# What the datagram backends share

`UdpBackend` and `DtlsUdpBackend` have one peer each. The first `HELLO` of a session tells its node;
a message before it, or with another source, is dropped. The two functions that say so in the source
are alike, and so is the way of a message from there into the receive queue.
-/

namespace MessageEngine

open Outcome

/-- Where a datagram came from: the text of the address up to its `NUL`, and the port. -/
structure Source where
  ip : List UInt8
  port : UInt16
  deriving DecidableEq

/-- One attempt to receive: what `recv_from` or `ssl_read` brought, if anything, and the clock
after it. -/
structure Attempt where
  datagram : Option (Source × Frame)
  nowUs : UInt64

/-- What a datagram backend does, in order. -/
inductive DatagramEffect where
  /-- A session began. -/
  | opened
  /-- A datagram from an accepted source was decoded. -/
  | received (src : Source) (env : MessageEnvelope)
  /-- A `HELLO` was sent back. -/
  | helloSent
  /-- A message was put into the receive queue. -/
  | queued (src : Source) (env : MessageEnvelope)

/-- What happens to a datagram backend: an attempt to receive, the pop with which `receive_message`
takes from the receive queue, or `close` and `init` again. -/
inductive DatagramEvent where
  | arrival (a : Attempt)
  | popMessage
  | reopen (fd : Int) (impairment : ImpairmentEngine)

/-- `m_peer_node_id` and `m_peer_hello_received`. -/
structure PeerBinding where
  nodeId : NodeId
  helloReceived : Bool

namespace PeerBinding

def none : PeerBinding := ⟨nodeIdInvalid, false⟩

/-- The decision of `process_hello_or_validate`: whether the message is good, and whether it was
consumed. -/
def processHelloOrValidate (p : PeerBinding) (env : MessageEnvelope) : (Bool × Bool) × PeerBinding :=
  if env.messageType = .hello then
    if p.helloReceived then ((false, false), p)
    else ((true, true), ⟨env.sourceId, true⟩)
  else if !p.helloReceived then ((false, false), p)
  else if env.sourceId ≠ p.nodeId then ((false, false), p)
  else ((true, false), p)

end PeerBinding

/-- The end of `recv_one_datagram`, and `apply_inbound_impairment` of the DTLS backend: pass the
impairments, push. Answers the message that was queued, if one was. -/
def Inbox.receiveInbound (b : Inbox) (env : MessageEnvelope) (nowUs : UInt64) :
    Checked (Option MessageEnvelope × Inbox) := do
  let ((res, out), impairment) ← b.impairment.processInbound env nowUs 1
  let b := { b with impairment }
  if res = .errIo then
    return (none, b)
  match out with
  | none => return (none, b)
  | some out =>
    let (res, recvQueue) ← b.recvQueue.push out
    let b := { b with recvQueue }
    return (if res = .ok then some out else none, b)

end MessageEngine
