import MessageEngine.Core.Datagram

/-!
# UdpBackend

The receiving side of plaintext UDP: one configured peer, known by address and port.
-/

namespace MessageEngine

open Outcome

structure UdpBackend where
  isOpen : Bool
  fd : Int
  /-- `m_cfg.peer_ip` and `m_cfg.peer_port`. -/
  peerAddress : Source
  peer : PeerBinding
  inbox : Inbox
  trace : List DatagramEffect

namespace UdpBackend

/-- Append to the trace. -/
def note (b : UdpBackend) (x : DatagramEffect) : UdpBackend := { b with trace := b.trace ++ [x] }

def close (b : UdpBackend) : UdpBackend := { b with fd := -1, peer := .none, isOpen := false }

/-- A successful `init` of a closed backend, with the socket it got. -/
def init (b : UdpBackend) (fd : Int) (impairment : ImpairmentEngine) : UdpBackend :=
  { b with fd, inbox := ⟨impairment, .init⟩, isOpen := true, trace := b.trace ++ [.opened] }

/-- A backend after its constructor and `init`. -/
def start (peerAddress : Source) (fd : Int) (impairment : ImpairmentEngine) : UdpBackend where
  isOpen := true
  fd := fd
  peerAddress := peerAddress
  peer := .none
  inbox := ⟨impairment, .init⟩
  trace := []

def validateSource (b : UdpBackend) (src : Source) : Checked Bool := do
  neverCompiledOutAssert .udpValidateSource (b.peerAddress.ip ≠ [])
  let ipMatch := src.ip == b.peerAddress.ip
  let portMatch := src.port == b.peerAddress.port
  pure (ipMatch && portMatch)

def processHelloOrValidate (b : UdpBackend) (env : MessageEnvelope) :
    Checked ((Bool × Bool) × UdpBackend) := do
  neverCompiledOutAssert .udpProcessHelloOrValidate (b.isOpen = true)
  neverCompiledOutAssert .udpProcessHelloOrValidate (b.fd ≥ 0)
  let (verdict, peer) := b.peer.processHelloOrValidate env
  pure (verdict, { b with peer })

/-- What `recv_one_datagram` does with a message that has passed the checks. -/
def passInbound (b : UdpBackend) (src : Source) (env : MessageEnvelope) (nowUs : UInt64) :
    Checked (Bool × UdpBackend) := do
  let (queued, inbox) ← b.inbox.receiveInbound env nowUs
  let b := { b with inbox }
  match queued with
  | some out => pure (true, b.note (.queued src out))
  | none => pure (false, b)

def recvOneDatagram (b : UdpBackend) (a : Attempt) : Checked (Bool × UdpBackend) := do
  neverCompiledOutAssert .udpRecvOneDatagram (b.isOpen = true)
  neverCompiledOutAssert .udpRecvOneDatagram (b.fd ≥ 0)
  match a.datagram with
  | none => return (false, b)
  | some (src, frame) =>
    let valid ← b.validateSource src
    if !valid then
      return (false, b)
    match ← frame.deserialize with
    | .error _ => return (false, b)
    | .ok env =>
      let b := b.note (.received src env)
      let ((valid, consumed), b) ← b.processHelloOrValidate env
      if !valid then
        return (false, b)
      if consumed then
        return (false, b)
      b.passInbound src env a.nowUs

/-- One event as a step of the system. -/
def exec (event : DatagramEvent) (b : UdpBackend) : Checked (List DatagramEffect × UdpBackend) :=
  let b := { b with trace := [] }
  match event with
  | .arrival a => do
    let (_, b) ← b.recvOneDatagram a
    pure (b.trace, b)
  | .popMessage => do
    let (_, recvQueue) ← b.inbox.recvQueue.pop
    pure (b.trace, { b with inbox := { b.inbox with recvQueue } })
  | .reopen fd impairment =>
    let b := b.close.init fd impairment
    pure (b.trace, b)

end UdpBackend

end MessageEngine
