import MessageEngine.Core.DtlsUdpBackend
import MessageEngine.Core.Transport
import MessageEngine.Core.UdpBackend

/-!
# The datagram backends as transports

`UdpBackend` and `DtlsUdpBackend` with the sending side of their socket and the operations of the transport
interface. Both send alike: a message waits in the delay buffer, and leaves it with those that are due, one
datagram each, in `send_message` or in a round of `receive_message`. A `HELLO` goes past the impairments.

The operating system decides whether it takes a datagram, once for each that it is given. `sent` is not
program state and nothing reads it: it lists the datagrams that were taken, with where they were sent;
one that went through the DTLS session has no address.
-/

namespace MessageEngine

open Outcome

/-- The sending side of a socket. -/
structure DatagramOutbound where
  sent : List (Option Source × List UInt8)
  os : Nat → Bool
  sends : Nat

/-- `send_to` and `ssl_write` with one datagram: whether it was taken. -/
def DatagramOutbound.send (s : DatagramOutbound) (dest : Option Source) (bytes : List UInt8) :
    Bool × DatagramOutbound :=
  let taken := s.os s.sends
  (taken, { s with
    sent := if taken then s.sent ++ [(dest, bytes)] else s.sent
    sends := s.sends + 1 })

/-- What one round of `receive_message` meets: the attempt to receive, and the clock of the flush. -/
structure DatagramTurn where
  attempt : Attempt
  flushUs : UInt64

/-- What `send_hello_datagram` sends. -/
def helloOf (localNodeId : NodeId) : MessageEnvelope :=
  { envelopeInit with messageType := .hello, sourceId := localNodeId }

/-! ## Sending a batch

`flush_outbound_batch` and `send_message` are the same in both backends, up to `send_one_envelope` and the
assertions in front. -/

/-- A backend as these functions use it: `send_one_envelope`, and the impairments. -/
structure DatagramSender (σ : Type) where
  sendOneEnvelope : σ → MessageEnvelope → Bool → Checked (Bool × σ)
  impairment : σ → ImpairmentEngine
  withImpairment : σ → ImpairmentEngine → σ

namespace DatagramSender

variable {σ : Type}

/-- One round of `flush_outbound_batch`: a failure of the current message is kept. -/
def flushRound (p : DatagramSender σ) (envelope : MessageEnvelope) :
    Bool × σ → MessageEnvelope → Checked (Bool × σ)
  | (currentFailed, s), env => do
    let (failed, s) ← p.sendOneEnvelope s env (isCurrent env envelope)
    pure (currentFailed || failed, s)

/-- `flush_outbound_batch`; the site is that of the backend. -/
def flushOutboundBatch (site : Site) (p : DatagramSender σ) (s : σ) (envelope : MessageEnvelope)
    (batch : List MessageEnvelope) : Checked (Bool × σ) := do
  neverCompiledOutAssert site (batch.length ≤ impairDelayBufSize)
  batch.foldlM (p.flushRound envelope) (false, s)

/-- `send_message` after its preconditions; the sites are those of `send_message` and of
`flush_outbound_batch`. -/
def sendMessage (site flushSite : Site) (p : DatagramSender σ) (s : σ) (envelope : MessageEnvelope)
    (nowUs : UInt64) : Checked (Result × σ) := do
  match ← serializeToWire envelope with
  | .error res => return (res, s)
  | .ok (_, wireLen) =>
    if wireLen > dtlsMaxDatagramBytes then
      return (.errInvalid, s)
    let (res, impairment) ← (p.impairment s).processOutbound envelope nowUs
    let s := p.withImpairment s impairment
    if res = .errIo then
      return (.ok, s)
    if res ≠ .ok then
      return (res, s)
    let (delayed, impairment) ← (p.impairment s).collectDeliverable nowUs impairDelayBufSize
    let (currentFailed, s) ← p.flushOutboundBatch flushSite (p.withImpairment s impairment) envelope delayed
    if currentFailed then
      return (.errIo, s)
    neverCompiledOutAssert site (wireLen > 0)
    return (.ok, s)

end DatagramSender

/-! ## UdpBackend -/

structure UdpTransport where
  backend : UdpBackend
  localNodeId : NodeId
  out : DatagramOutbound

namespace UdpTransport

/-- A backend after its constructor and `init`, with the socket it got. -/
def start (peerAddress : Source) (fd : Int) (impairment : ImpairmentEngine) (os : Nat → Bool) : UdpTransport where
  backend := .start peerAddress fd impairment
  localNodeId := nodeIdInvalid
  out := ⟨[], os, 0⟩

/-- Whether the failure counts: only that of the current message does. -/
def sendOneEnvelope (t : UdpTransport) (env : MessageEnvelope) (isCurrent : Bool) :
    Checked (Bool × UdpTransport) := do
  neverCompiledOutAssert .udpSendOneEnvelope (t.backend.fd ≥ 0)
  match ← serializeToWire env with
  | .error _ => return (isCurrent, t)
  | .ok (buf, len) =>
    let (taken, out) := t.out.send (some t.backend.peerAddress) (buf.take len.toNat)
    let t := { t with out }
    if !taken then
      return (isCurrent, t)
    return (false, t)

/-- One round of `flush_delayed_to_wire`. -/
def flushDelayedToWire.round (t : UdpTransport) (env : MessageEnvelope) : Checked UdpTransport := do
  let (_, t) ← t.sendOneEnvelope env false
  pure t

def flushDelayedToWire (t : UdpTransport) (nowUs : UInt64) : Checked UdpTransport := do
  neverCompiledOutAssert .udpFlushDelayedToWire (nowUs > 0)
  neverCompiledOutAssert .udpFlushDelayedToWire t.backend.isOpen
  let (delayed, impairment) ← t.backend.inbox.impairment.collectDeliverable nowUs impairDelayBufSize
  let t := { t with backend := { t.backend with inbox := { t.backend.inbox with impairment } } }
  delayed.foldlM flushDelayedToWire.round t

def sender : DatagramSender UdpTransport where
  sendOneEnvelope := sendOneEnvelope
  impairment t := t.backend.inbox.impairment
  withImpairment t impairment := { t with backend := { t.backend with inbox := { t.backend.inbox with impairment } } }

def sendMessage (t : UdpTransport) (env : MessageEnvelope) (nowUs : UInt64) : Checked (Result × UdpTransport) := do
  neverCompiledOutAssert .udpSendMessage t.backend.isOpen
  neverCompiledOutAssert .udpSendMessage (t.backend.fd ≥ 0)
  neverCompiledOutAssert .udpSendMessage (envelopeValid env)
  sender.sendMessage .udpSendMessage .udpFlushOutboundBatch t env nowUs

def pump : Pump DatagramTurn UdpTransport where
  poll turn t := do
    let (_, backend) ← t.backend.recvOneDatagram turn.attempt
    pure { t with backend }
  flush turn t := t.flushDelayedToWire turn.flushUs
  pop t := do
    let (reply, recvQueue) ← t.backend.inbox.recvQueue.pop
    pure (reply, { t with backend := { t.backend with inbox := { t.backend.inbox with recvQueue } } })

def receiveMessage (t : UdpTransport) (timeoutMs : UInt32) (turns : Nat → DatagramTurn) :
    Checked (Delivery × UdpTransport) := do
  neverCompiledOutAssert .udpReceiveMessage t.backend.isOpen
  neverCompiledOutAssert .udpReceiveMessage (t.backend.fd ≥ 0)
  pump.receiveMessage .udpReceiveMessage timeoutMs turns t

def sendHelloDatagram (t : UdpTransport) : Checked (Result × UdpTransport) := do
  neverCompiledOutAssert .udpSendHelloDatagram (t.localNodeId ≠ nodeIdInvalid)
  neverCompiledOutAssert .udpSendHelloDatagram (t.backend.fd ≥ 0)
  if t.backend.peerAddress.ip = [] ∨ t.backend.peerAddress.port = 0 then
    return (.errInvalid, t)
  match ← serializeToWire (helloOf t.localNodeId) with
  | .error res => return (res, t)
  | .ok (buf, len) =>
    let (taken, out) := t.out.send (some t.backend.peerAddress) (buf.take len.toNat)
    let t := { t with out }
    if !taken then
      return (.errIo, t)
    neverCompiledOutAssert .udpSendHelloDatagram (len > 0)
    return (.ok, t)

def registerLocalId (t : UdpTransport) (id : NodeId) : Checked (Result × UdpTransport) := do
  neverCompiledOutAssert .udpRegisterLocalId (id ≠ nodeIdInvalid)
  neverCompiledOutAssert .udpRegisterLocalId t.backend.isOpen
  { t with localNodeId := id }.sendHelloDatagram

/-- `is_open`. -/
def checkOpen (t : UdpTransport) : Checked Bool := do
  neverCompiledOutAssert .udpIsOpen (t.backend.isOpen = decide (t.backend.fd ≥ 0) ∨ t.backend.isOpen = false)
  pure t.backend.isOpen

/-- One call of the interface as a step: how often the socket was polled in it, and the state after it. No
`HELLO` is ever announced to `pop_hello_peer`. -/
def exec (call : TransportCall DatagramTurn) (t : UdpTransport) : Checked (Nat × UdpTransport) :=
  match call with
  | .send env nowUs => do
    let (_, t) ← t.sendMessage env nowUs
    pure (0, t)
  | .receive timeoutMs turns => do
    let (delivery, t) ← t.receiveMessage timeoutMs turns
    pure (delivery.polls, t)
  | .registerLocalId id => do
    let (_, t) ← t.registerLocalId id
    pure (0, t)
  | .popHelloPeer => pure (0, t)
  | .close => pure (0, { t with backend := t.backend.close })

end UdpTransport

/-! ## DtlsUdpBackend -/

structure DtlsTransport where
  backend : DtlsUdpBackend
  out : DatagramOutbound

namespace DtlsTransport

/-- A backend after its constructor and `init`, with the socket it got and the handshake done. -/
def start (isServer tlsEnabled : Bool) (peerAddress : Source) (fd : Int) (impairment : ImpairmentEngine)
    (os : Nat → Bool) : DtlsTransport where
  backend := .start isServer tlsEnabled peerAddress nodeIdInvalid fd impairment
  out := ⟨[], os, 0⟩

/-- A server without DTLS answers to the port that it has learned. -/
def sendWireBytes (t : DtlsTransport) (buf : List UInt8) (len : UInt32) :
    Checked (Result × DtlsTransport) := do
  neverCompiledOutAssert .dtlsSendWireBytes (len > 0 ∧ len ≤ dtlsMaxDatagramBytes)
  neverCompiledOutAssert .socketOpsSendTo (t.backend.tlsEnabled ∨ t.backend.sockFd ≥ 0)
  let dest :=
    if t.backend.tlsEnabled then none
    else
      let destPort :=
        if t.backend.isServer ∧ t.backend.peerSrcPort ≠ 0 then t.backend.peerSrcPort
        else t.backend.peerAddress.port
      some { t.backend.peerAddress with port := destPort }
  let (taken, out) := t.out.send dest (buf.take len.toNat)
  let t := { t with out }
  if !taken then
    return (.errIo, t)
  return (.ok, t)

/-- Whether the failure counts: only that of the current message does. -/
def sendOneEnvelope (t : DtlsTransport) (env : MessageEnvelope) (isCurrent : Bool) :
    Checked (Bool × DtlsTransport) := do
  match ← serializeToWire env with
  | .error _ => return (isCurrent, t)
  | .ok (buf, len) =>
    if len > dtlsMaxDatagramBytes then
      return (isCurrent, t)
    let (res, t) ← t.sendWireBytes buf len
    if res ≠ .ok then
      return (isCurrent, t)
    return (false, t)

/-- One round of `flush_delayed_to_wire`. -/
def flushDelayedToWire.round (t : DtlsTransport) (env : MessageEnvelope) : Checked DtlsTransport := do
  let (_, t) ← t.sendOneEnvelope env false
  pure t

def flushDelayedToWire (t : DtlsTransport) (nowUs : UInt64) : Checked DtlsTransport := do
  neverCompiledOutAssert .dtlsFlushDelayedToWire (nowUs > 0)
  neverCompiledOutAssert .dtlsFlushDelayedToWire t.backend.isOpen
  let (delayed, impairment) ← t.backend.inbox.impairment.collectDeliverable nowUs impairDelayBufSize
  let t := { t with backend := { t.backend with inbox := { t.backend.inbox with impairment } } }
  delayed.foldlM flushDelayedToWire.round t

def sender : DatagramSender DtlsTransport where
  sendOneEnvelope := sendOneEnvelope
  impairment t := t.backend.inbox.impairment
  withImpairment t impairment := { t with backend := { t.backend with inbox := { t.backend.inbox with impairment } } }

def sendMessage (t : DtlsTransport) (env : MessageEnvelope) (nowUs : UInt64) : Checked (Result × DtlsTransport) := do
  neverCompiledOutAssert .dtlsSendMessage t.backend.isOpen
  neverCompiledOutAssert .dtlsSendMessage (envelopeValid env)
  sender.sendMessage .dtlsSendMessage .dtlsFlushOutboundBatch t env nowUs

def sendHelloDatagram (t : DtlsTransport) : Checked (Result × DtlsTransport) := do
  neverCompiledOutAssert .dtlsSendHelloDatagram (t.backend.localNodeId ≠ nodeIdInvalid)
  match ← serializeToWire (helloOf t.backend.localNodeId) with
  | .error _ => return (.errIo, t)
  | .ok (buf, len) =>
    if len > dtlsMaxDatagramBytes then
      return (.errIo, t)
    let (sendRes, t) ← t.sendWireBytes buf len
    if sendRes ≠ .ok then
      return (sendRes, t)
    neverCompiledOutAssert .dtlsSendHelloDatagram (len > 0)
    return (.ok, t)

/-- An attempt to receive. A server that knows its own node answers the first `HELLO`, whether the answer
goes out or not. -/
def recvOneDtlsDatagram (t : DtlsTransport) (a : Attempt) : Checked DtlsTransport := do
  let (_, backend) ← t.backend.recvOneDtlsDatagram a
  let greeted := !t.backend.peer.helloReceived && backend.peer.helloReceived
  let t := { t with backend }
  if greeted ∧ t.backend.isServer ∧ t.backend.localNodeId ≠ nodeIdInvalid then
    let (_, t) ← t.sendHelloDatagram
    return t
  return t

def pump : Pump DatagramTurn DtlsTransport where
  poll turn t := t.recvOneDtlsDatagram turn.attempt
  flush turn t := t.flushDelayedToWire turn.flushUs
  pop t := do
    let (reply, recvQueue) ← t.backend.inbox.recvQueue.pop
    pure (reply, { t with backend := { t.backend with inbox := { t.backend.inbox with recvQueue } } })

def receiveMessage (t : DtlsTransport) (timeoutMs : UInt32) (turns : Nat → DatagramTurn) :
    Checked (Delivery × DtlsTransport) := do
  neverCompiledOutAssert .dtlsReceiveMessage t.backend.isOpen
  neverCompiledOutAssert .dtlsReceiveMessage (t.backend.sockFd ≥ 0)
  pump.receiveMessage .dtlsReceiveMessage timeoutMs turns t

/-- A server sends its `HELLO` when the first of its client comes. -/
def registerLocalId (t : DtlsTransport) (id : NodeId) : Checked (Result × DtlsTransport) := do
  neverCompiledOutAssert .dtlsRegisterLocalId (id ≠ nodeIdInvalid)
  neverCompiledOutAssert .dtlsRegisterLocalId t.backend.isOpen
  let t := { t with backend := { t.backend with localNodeId := id } }
  if !t.backend.isServer then t.sendHelloDatagram else pure (.ok, t)

/-- `is_open`. -/
def checkOpen (t : DtlsTransport) : Checked Bool := do
  neverCompiledOutAssert .dtlsIsOpen
    (t.backend.isOpen = decide (t.backend.sockFd ≥ 0) ∨ t.backend.isOpen = false)
  pure t.backend.isOpen

/-- One call of the interface as a step: how often the socket was polled in it, and the state after it. No
`HELLO` is ever announced to `pop_hello_peer`. -/
def exec (call : TransportCall DatagramTurn) (t : DtlsTransport) : Checked (Nat × DtlsTransport) :=
  match call with
  | .send env nowUs => do
    let (_, t) ← t.sendMessage env nowUs
    pure (0, t)
  | .receive timeoutMs turns => do
    let (delivery, t) ← t.receiveMessage timeoutMs turns
    pure (delivery.polls, t)
  | .registerLocalId id => do
    let (_, t) ← t.registerLocalId id
    pure (0, t)
  | .popHelloPeer => pure (0, t)
  | .close => pure (0, { t with backend := t.backend.close })

end DtlsTransport

end MessageEngine
