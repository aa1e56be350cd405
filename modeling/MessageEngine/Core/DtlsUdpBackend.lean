import MessageEngine.Core.Datagram

/-!
# DtlsUdpBackend

The receiving side of DTLS, and of the same backend without it. With DTLS the socket is connected
and every record is authenticated, so the source of a datagram is not looked at. Without it the
address of the peer is checked and, in a server, the port is learned: each datagram leaves its port
behind as a candidate, and the first `HELLO` locks it. Port `0` stands for no port.
-/

namespace MessageEngine

open Outcome

structure DtlsUdpBackend where
  isServer : Bool
  tlsEnabled : Bool
  isOpen : Bool
  sockFd : Int
  /-- `m_cfg.peer_ip` and `m_cfg.peer_port`. -/
  peerAddress : Source
  localNodeId : NodeId
  peer : PeerBinding
  pendingSrcPort : UInt16
  peerSrcPort : UInt16
  inbox : Inbox
  trace : List DatagramEffect

namespace DtlsUdpBackend

/-- Append to the trace. -/
def note (b : DtlsUdpBackend) (x : DatagramEffect) : DtlsUdpBackend := { b with trace := b.trace ++ [x] }

def close (b : DtlsUdpBackend) : DtlsUdpBackend :=
  { b with sockFd := -1, peer := .none, pendingSrcPort := 0, peerSrcPort := 0, isOpen := false }

/-- A successful `init` of a closed backend, with the socket it got. -/
def init (b : DtlsUdpBackend) (fd : Int) (impairment : ImpairmentEngine) : DtlsUdpBackend :=
  { b with
    peer := .none
    pendingSrcPort := 0
    peerSrcPort := 0
    inbox := ⟨impairment, .init⟩
    sockFd := fd
    isOpen := true
    trace := b.trace ++ [.opened] }

/-- A backend after its constructor, `init` and `register_local_id`. -/
def start (isServer tlsEnabled : Bool) (peerAddress : Source) (localNodeId : NodeId) (fd : Int)
    (impairment : ImpairmentEngine) : DtlsUdpBackend where
  isServer := isServer
  tlsEnabled := tlsEnabled
  isOpen := true
  sockFd := fd
  peerAddress := peerAddress
  localNodeId := localNodeId
  peer := .none
  pendingSrcPort := 0
  peerSrcPort := 0
  inbox := ⟨impairment, .init⟩
  trace := []

def validateSource (b : DtlsUdpBackend) (src : Source) : Checked (Bool × DtlsUdpBackend) := do
  neverCompiledOutAssert .dtlsValidateSource (b.peerAddress.ip ≠ [])
  if b.tlsEnabled then
    return (true, b)
  let ipMatch := src.ip == b.peerAddress.ip
  let (portMatch, b) :=
    if b.isServer then
      if b.peerSrcPort = 0 then (true, { b with pendingSrcPort := src.port })
      else (src.port == b.peerSrcPort, b)
    else (src.port == b.peerAddress.port, b)
  return (ipMatch && portMatch, b)

def commitPendingSrcPort (b : DtlsUdpBackend) : Checked DtlsUdpBackend := do
  neverCompiledOutAssert .dtlsCommitPendingSrcPort (b.isOpen = true)
  if b.isServer ∧ b.pendingSrcPort ≠ 0 then
    let b := { b with peerSrcPort := b.pendingSrcPort, pendingSrcPort := 0 }
    neverCompiledOutAssert .dtlsCommitPendingSrcPort (b.peerSrcPort ≠ 0)
    pure b
  else pure b

def processHelloOrValidate (b : DtlsUdpBackend) (env : MessageEnvelope) :
    Checked ((Bool × Bool) × DtlsUdpBackend) := do
  neverCompiledOutAssert .dtlsProcessHelloOrValidate (b.isOpen = true)
  neverCompiledOutAssert .dtlsProcessHelloOrValidate (b.sockFd ≥ 0)
  let ((valid, consumed), peer) := b.peer.processHelloOrValidate env
  let b := { b with peer }
  if consumed then
    let b ← b.commitPendingSrcPort
    -- The answer to a `HELLO` goes past the impairments, and whether it was sent is not looked at.
    if b.isServer ∧ b.localNodeId ≠ nodeIdInvalid then
      return ((valid, consumed), b.note .helloSent)
    return ((valid, consumed), b)
  return ((valid, consumed), b)

def applyInboundImpairment (b : DtlsUdpBackend) (src : Source) (env : MessageEnvelope) (nowUs : UInt64) :
    Checked (Bool × DtlsUdpBackend) := do
  neverCompiledOutAssert .dtlsApplyInboundImpairment (b.isOpen = true)
  let (queued, inbox) ← b.inbox.receiveInbound env nowUs
  let b := { b with inbox }
  match queued with
  | some out => pure (true, b.note (.queued src out))
  | none => pure (false, b)

def deserializeAndDispatch (b : DtlsUdpBackend) (src : Source) (frame : Frame) (nowUs : UInt64) :
    Checked (Bool × DtlsUdpBackend) := do
  neverCompiledOutAssert .dtlsDeserializeAndDispatch (b.isOpen = true)
  neverCompiledOutAssert .dtlsDeserializeAndDispatch (frame.len > 0)
  match ← frame.deserialize with
  | .error _ => return (false, b)
  | .ok env =>
    let b := b.note (.received src env)
    let ((valid, consumed), b) ← b.processHelloOrValidate env
    if !valid then
      return (false, b)
    if consumed then
      return (false, b)
    b.applyInboundImpairment src env nowUs

def recvOneDtlsDatagram (b : DtlsUdpBackend) (a : Attempt) : Checked (Bool × DtlsUdpBackend) := do
  neverCompiledOutAssert .dtlsRecvOneDtlsDatagram (b.isOpen = true)
  neverCompiledOutAssert .dtlsRecvOneDtlsDatagram (b.sockFd ≥ 0)
  match a.datagram with
  | none => return (false, b)
  | some (src, frame) =>
    if b.tlsEnabled then
      b.deserializeAndDispatch src frame a.nowUs
    else
      let (valid, b) ← b.validateSource src
      if !valid then
        return (false, b)
      b.deserializeAndDispatch src frame a.nowUs

/-- One event as a step of the system. -/
def exec (event : DatagramEvent) (b : DtlsUdpBackend) : Checked (List DatagramEffect × DtlsUdpBackend) :=
  let b := { b with trace := [] }
  match event with
  | .arrival a => do
    let (_, b) ← b.recvOneDtlsDatagram a
    pure (b.trace, b)
  | .popMessage => do
    let (_, recvQueue) ← b.inbox.recvQueue.pop
    pure (b.trace, { b with inbox := { b.inbox with recvQueue } })
  | .reopen fd impairment =>
    let b := b.close.init fd impairment
    pure (b.trace, b)

end DtlsUdpBackend

end MessageEngine
