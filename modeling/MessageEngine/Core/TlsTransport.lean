import MessageEngine.Core.TlsFraming
import MessageEngine.Core.TlsTcpBackend
import MessageEngine.Core.Transport

/-!
# TlsTcpBackend as a transport

`TlsTcpBackend` in both of its modes, with its listening socket and the operations of the transport
interface. A client has one connection, in slot `0`; the node of the server is that of its first accepted
message.

A frame goes out through the TLS library or, without TLS, through `send_frame`: a slot has a sending side for
each. A slot that has lost its connection has an empty TLS context and the descriptor `-1`.
-/

namespace MessageEngine

open Outcome Table

structure TlsTransport where
  backend : TlsTcpBackend
  isServer : Bool
  tlsEnabled : Bool
  listenFd : Int
  isOpen : Bool
  localNodeId : NodeId
  /-- The sending side of the connection in each slot, without TLS. -/
  links : Fin maxTcpConnections → Outbound
  /-- The sending side of the connection in each slot, with TLS. -/
  ssl : Fin maxTcpConnections → SslOutbound

/-- What the operating system and the TLS library answer in one round of `receive_message`: the clock of
the sweep, what accepting brings (a descriptor, negative when none or when its handshake fails), how
sending to it will go, the entries of the snapshot that are readable, the slots whose connection has
decrypted bytes left, what reading each slot brings, and the clock of the flush. -/
structure TlsTurn where
  sweepUs : UInt64
  acceptedFd : Int
  os : Nat → Round
  writes : Nat → SslWrite
  acceptUs : UInt64
  ready : Nat → Bool
  available : Fin maxTcpConnections → Bool
  read : Fin maxTcpConnections → Read
  flushUs : UInt64

/-- What the calls to open a socket answer: a descriptor, or that one of them failed, the handshake
included. -/
structure TlsOpening where
  isServer : Bool
  tlsEnabled : Bool
  fd : Option Nat
  os : Nat → Round
  writes : Nat → SslWrite

namespace TlsTransport

/-- What `mbedtls_ssl_init` leaves: a context that every write fails on. -/
def sslInit : SslOutbound := ⟨[], fun _ => .failed, 0⟩

/-! ## Opening -/

/-- The state that `init` leaves before it opens a socket. -/
def create (isServer tlsEnabled : Bool) (recvTimeoutMs : UInt32) (impairment : ImpairmentEngine) :
    TlsTransport where
  backend := .init recvTimeoutMs impairment
  isServer := isServer
  tlsEnabled := tlsEnabled
  listenFd := -1
  isOpen := false
  localNodeId := nodeIdInvalid
  links := fun _ => ⟨[], fun _ => .timeout, 0, []⟩
  ssl := fun _ => sslInit

def bindAndListen (t : TlsTransport) (fd : Option Nat) : Checked (Result × TlsTransport) := do
  neverCompiledOutAssert .tlsBindAndListen t.isServer
  match fd with
  | none => pure (.errIo, t)
  | some fd =>
    let t := { t with listenFd := fd, isOpen := true }
    neverCompiledOutAssert .tlsBindAndListen (t.listenFd ≥ 0)
    pure (.ok, t)

/-- The slot has a new connection. -/
def connect (t : TlsTransport) (slot : Fin maxTcpConnections) (os : Nat → Round) (writes : Nat → SslWrite) :
    TlsTransport :=
  { t with
    links := fun s => if s = slot then ⟨[], os, 0, []⟩ else t.links s
    ssl := fun s => if s = slot then ⟨[], writes, 0⟩ else t.ssl s }

def connectToServer (t : TlsTransport) (fd : Option Nat) (os : Nat → Round) (writes : Nat → SslWrite) :
    Checked (Result × TlsTransport) := do
  neverCompiledOutAssert .tlsConnectToServer (!t.isServer)
  neverCompiledOutAssert .tlsConnectToServer (getElem t.backend.clientNet 0 maxTcpConnections_pos < 0)
  match fd with
  | none => pure (.errIo, t)
  | some fd =>
    let b := { t.backend with
      clientNet := t.backend.clientNet.set 0 fd maxTcpConnections_pos
      clientCount := 1
      clientSlotActive := t.backend.clientSlotActive.set 0 true maxTcpConnections_pos
      connectionsOpened := t.backend.connectionsOpened + 1 }
    neverCompiledOutAssert .tlsConnectToServer (getElem b.clientNet 0 maxTcpConnections_pos ≥ 0)
    pure (.ok, { t with backend := b, isOpen := true }.connect 0 os writes)

/-- A backend after its constructor and `init`. -/
def init (opening : TlsOpening) (recvTimeoutMs : UInt32) (impairment : ImpairmentEngine) :
    Checked (Result × TlsTransport) :=
  let t := create opening.isServer opening.tlsEnabled recvTimeoutMs impairment
  if opening.isServer then t.bindAndListen opening.fd
  else t.connectToServer opening.fd opening.os opening.writes

/-! ## Sending -/

/-- `m_ssl` of the slot; when its connection ends it is freed and initialised again. -/
def context (t : TlsTransport) (idx : Fin maxTcpConnections) : SslOutbound :=
  if t.backend.clientSlotActive[idx] then t.ssl idx else sslInit

/-- `tls_send_frame`. -/
def tlsSendFrame (t : TlsTransport) (idx : Fin maxTcpConnections) (buf : List UInt8) (len : UInt32) :
    Checked (Bool × TlsTransport) := do
  neverCompiledOutAssert .tlsSendFrame (len > 0)
  if t.tlsEnabled then
    let (ok, s) ← TlsFraming.tlsSendFrame (t.context idx) buf len
    return (ok, { t with ssl := fun slot => if slot = idx then s else t.ssl slot })
  neverCompiledOutAssert .socketOpsSendFrame (t.backend.clientNet[idx] ≥ 0)
  let (ok, s) ← SocketUtils.tcpSendFrame (t.links idx) buf len
  return (ok, { t with links := fun slot => if slot = idx then s else t.links slot })

/-- One round of `send_to_all_clients`. -/
def sendToAllClients.round (buf : List UInt8) (len : UInt32) (i : Fin maxTcpConnections) :
    Bool × TlsTransport → Checked (Bool × TlsTransport)
  | (anyFailed, t) => do
    if !t.backend.clientSlotActive[i] then
      return (anyFailed, t)
    let (ok, t) ← t.tlsSendFrame i buf len
    return (anyFailed || !ok, t)

/-- Whether sending to any of the clients failed. -/
def sendToAllClients (t : TlsTransport) (buf : List UInt8) (len : UInt32) :
    Checked (Bool × TlsTransport) := do
  neverCompiledOutAssert .tlsSendToAllClients (len > 0)
  eachIndex maxTcpConnections (sendToAllClients.round buf len) (false, t)

def findClientSlot (b : TlsTcpBackend) (dst : NodeId) : Checked (Option (Fin maxTcpConnections)) := do
  neverCompiledOutAssert .tlsFindClientSlot (dst ≠ nodeIdInvalid)
  neverCompiledOutAssert .tlsFindClientSlot (b.clientCount ≤ maxTcpConnections)
  pure ((List.finRange maxTcpConnections).find? fun i => b.clientSlotActive[i] && b.clientNodeIds[i] == dst)

/-- Whether sending to the slot failed. -/
def sendToSlot (t : TlsTransport) (slot : Fin maxTcpConnections) (buf : List UInt8) (len : UInt32) :
    Checked (Bool × TlsTransport) := do
  neverCompiledOutAssert .tlsSendToSlot t.backend.clientSlotActive[slot]
  let (ok, t) ← t.tlsSendFrame slot buf len
  pure (!ok, t)

def unicastSerialized (t : TlsTransport) (dst : NodeId) (buf : List UInt8) (len : UInt32) :
    Checked (Result × TlsTransport) := do
  neverCompiledOutAssert .tlsUnicastSerialized (dst ≠ nodeIdInvalid)
  match ← findClientSlot t.backend dst with
  | none => pure (.errInvalid, t)
  | some slot =>
    let (failed, t) ← t.sendToSlot slot buf len
    pure (if failed then .errIo else .ok, t)

def routeOneDelayed (t : TlsTransport) (env : MessageEnvelope) (isCurrent : Bool) :
    Checked (Result × TlsTransport) := do
  neverCompiledOutAssert .tlsRouteOneDelayed t.isOpen
  neverCompiledOutAssert .tlsRouteOneDelayed (t.backend.clientCount ≤ maxTcpConnections)
  match ← serializeToWire env with
  | .error _ => return (if !isCurrent then .ok else .errIo, t)
  | .ok (buf, len) =>
    let (sendR, t) ←
      if !t.isServer ∨ env.destinationId = nodeIdInvalid then do
        let (failed, t) ← t.sendToAllClients buf len
        pure (if failed then .errIo else .ok, t)
      else t.unicastSerialized env.destinationId buf len
    if sendR ≠ .ok ∧ !isCurrent then
      return (.ok, t)
    return (sendR, t)

/-- One round of `flush_delayed_to_clients`. -/
def flushDelayedToClients.round (currentEnv : MessageEnvelope) :
    Result × TlsTransport → MessageEnvelope → Checked (Result × TlsTransport)
  | (finalResult, t), env => do
    let isCurrent := isCurrent env currentEnv
    let (r, t) ← t.routeOneDelayed env isCurrent
    pure (if r ≠ .ok ∧ isCurrent then r else finalResult, t)

def flushDelayedToClients (t : TlsTransport) (currentEnv : MessageEnvelope) (nowUs : UInt64) :
    Checked (Result × TlsTransport) := do
  neverCompiledOutAssert .tlsFlushDelayedToClients (nowUs > 0)
  neverCompiledOutAssert .tlsFlushDelayedToClients t.isOpen
  let (delayed, impairment) ← t.backend.inbox.impairment.collectDeliverable nowUs impairDelayBufSize
  let t := { t with backend := { t.backend with inbox := { t.backend.inbox with impairment } } }
  delayed.foldlM (flushDelayedToClients.round currentEnv) (.ok, t)

def sendMessage (t : TlsTransport) (env : MessageEnvelope) (nowUs : UInt64) :
    Checked (Result × TlsTransport) := do
  neverCompiledOutAssert .tlsSendMessage t.isOpen
  neverCompiledOutAssert .tlsSendMessage (envelopeValid env)
  match ← serializeToWire env with
  | .error res => return (res, t)
  | .ok (_, wireLen) =>
    let (res, impairment) ← t.backend.inbox.impairment.processOutbound env nowUs
    let t := { t with backend := { t.backend with inbox := { t.backend.inbox with impairment } } }
    if res = .errIo then
      return (.ok, t)
    if res ≠ .ok then
      return (res, t)
    if t.backend.clientCount = 0 then
      return (.ok, t)
    let (res, t) ← t.flushDelayedToClients env nowUs
    neverCompiledOutAssert .tlsSendMessage (wireLen > 0)
    return (res, t)

/-! ## Polling -/

/-- `accept_and_handshake` of a server with its listening socket. -/
def acceptAndHandshake (t : TlsTransport) (turn : TlsTurn) : Checked TlsTransport := do
  neverCompiledOutAssert .tlsAcceptAndHandshake t.isServer
  neverCompiledOutAssert .tlsAcceptAndHandshake (t.listenFd ≥ 0)
  let backend ← t.backend.acceptAndHandshake turn.acceptedFd turn.acceptUs
  let t := match firstSlot? (fun active => !active) t.backend.clientSlotActive with
    | some slot => t.connect slot turn.os turn.writes
    | none => t
  pure { t with backend }

/-- `recv_from_client` in client mode: a `HELLO` is consumed, and the node of the server is locked. -/
def recvFromServer (b : TlsTcpBackend) (idx : Fin maxTcpConnections) (read : Read) :
    Checked (Result × TlsTcpBackend) := do
  match read.frame with
  | none =>
    let b ← b.removeClient idx
    return (.errIo, b)
  | some frame =>
    match ← frame.deserialize with
    | .error res => return (res, b)
    | .ok env =>
      let fd := b.clientNet[idx]
      let b := b.note (.received fd env)
      neverCompiledOutAssert .tlsClassifyInboundFrame (b.clientSlotActive[idx] = true)
      if env.messageType = .hello then
        return (.errAgain, b)
      if !b.validateSourceId idx env.sourceId then
        return (.errInvalid, b)
      let b :=
        if getElem b.clientNodeIds 0 maxTcpConnections_pos = nodeIdInvalid ∧ env.sourceId ≠ nodeIdInvalid then
          { b with clientNodeIds := b.clientNodeIds.set 0 env.sourceId maxTcpConnections_pos }
        else b
      let b ← (b.note (.forwarded fd env)).applyInboundImpairment fd env read.nowUs
      return (.ok, b)

def recvFromClient (t : TlsTransport) (idx : Fin maxTcpConnections) (read : Read) :
    Checked TlsTransport := do
  neverCompiledOutAssert .tlsRecvFromClient t.isOpen
  let (_, backend) ← if t.isServer then t.backend.recvFromClient idx read else recvFromServer t.backend idx read
  pure { t with backend }

/-- The slots that `build_poll_fds` polls, in order. -/
def buildPollFds (t : TlsTransport) : Checked (List (Fin maxTcpConnections)) := do
  let slotOf := (List.finRange maxTcpConnections).filter fun j => t.backend.clientSlotActive[j]
  neverCompiledOutAssert .tlsBuildPollFds (slotOf.length ≤ maxTcpConnections)
  pure slotOf

/-- One round of the loop in `poll_clients_once`. -/
def pollClientsOnce.round (turn : TlsTurn) (t : TlsTransport) (entry : Fin maxTcpConnections × Nat) :
    Checked TlsTransport :=
  let (slot, pi) := entry
  let hasData := t.tlsEnabled && turn.available slot || turn.ready pi
  if hasData then t.recvFromClient slot (turn.read slot) else pure t

def pollClientsOnce (t : TlsTransport) (turn : TlsTurn) : Checked TlsTransport := do
  neverCompiledOutAssert .tlsPollClientsOnce t.isOpen
  let t ←
    if t.isServer then do
      let backend ← t.backend.sweepHelloTimeouts turn.sweepUs
      { t with backend }.acceptAndHandshake turn
    else pure t
  let slotOf ← t.buildPollFds
  slotOf.zipIdx.reverse.foldlM (pollClientsOnce.round turn) t

/-! ## Receiving and the rest of the interface -/

def pump : Pump TlsTurn TlsTransport where
  poll turn t := t.pollClientsOnce turn
  flush turn t := do
    let (_, t) ← t.flushDelayedToClients envelopeInit turn.flushUs
    pure t
  pop t := do
    let (reply, recvQueue) ← t.backend.inbox.recvQueue.pop
    pure (reply, { t with backend := { t.backend with inbox := { t.backend.inbox with recvQueue } } })

def receiveMessage (t : TlsTransport) (timeoutMs : UInt32) (turns : Nat → TlsTurn) :
    Checked (Delivery × TlsTransport) := do
  neverCompiledOutAssert .tlsReceiveMessage t.isOpen
  pump.receiveMessage .tlsReceiveMessage timeoutMs turns t

def sendHelloFrame (t : TlsTransport) : Checked (Result × TlsTransport) := do
  neverCompiledOutAssert .tlsSendHelloFrame (t.localNodeId ≠ nodeIdInvalid)
  neverCompiledOutAssert .tlsSendHelloFrame (!t.isServer)
  let hello := { envelopeInit with messageType := .hello, sourceId := t.localNodeId }
  match ← serializeToWire hello with
  | .error res => return (res, t)
  | .ok (buf, len) =>
    let (ok, t) ← t.tlsSendFrame 0 buf len
    return (if ok then .ok else .errIo, t)

def registerLocalId (t : TlsTransport) (id : NodeId) : Checked (Result × TlsTransport) := do
  neverCompiledOutAssert .tlsRegisterLocalId (id ≠ nodeIdInvalid)
  neverCompiledOutAssert .tlsRegisterLocalId t.isOpen
  let t := { t with localNodeId := id }
  if !t.isServer then t.sendHelloFrame else pure (.ok, t)

def close (t : TlsTransport) : Checked TlsTransport := do
  if !t.isOpen then
    return t
  neverCompiledOutAssert .tlsClose (t.backend.clientCount ≤ maxTcpConnections)
  let b := { t.backend with
    clientNet := Vector.replicate maxTcpConnections (-1)
    clientSlotActive := Vector.replicate maxTcpConnections false
    clientHelloReceived := Vector.replicate maxTcpConnections false
    connectionsClosed := t.backend.connectionsClosed + .ofNat t.backend.clientCount
    clientCount := 0 }
  return { t with backend := b, listenFd := -1, isOpen := false }

/-- `is_open`. -/
def checkOpen (t : TlsTransport) : Checked Bool := do
  neverCompiledOutAssert .tlsIsOpen
    (t.isOpen = decide (t.listenFd ≥ 0 ∨ t.backend.clientCount > 0) ∨ t.isOpen = false)
  pure t.isOpen

/-- One call of the interface as a step: how often the sockets were polled in it, and the state after
it. -/
def exec (call : TransportCall TlsTurn) (t : TlsTransport) : Checked (Nat × TlsTransport) :=
  match call with
  | .send env nowUs => do
    let (_, t) ← t.sendMessage env nowUs
    pure (0, t)
  | .receive timeoutMs turns => do
    let (delivery, t) ← t.receiveMessage timeoutMs turns
    pure (delivery.polls, t)
  | .registerLocalId id => do
    let (_, t) ← t.registerLocalId id
    pure (0, t)
  | .popHelloPeer => do
    let (_, backend) ← t.backend.popHelloPeer
    pure (0, { t with backend })
  | .close => do
    let t ← t.close
    pure (0, t)

end TlsTransport

end MessageEngine
