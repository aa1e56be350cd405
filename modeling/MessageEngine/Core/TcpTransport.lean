import MessageEngine.Core.TcpBackend
import MessageEngine.Core.Transport

/-!
# TcpBackend as a transport

`TcpBackend` in both of its modes, with its listening socket and the operations of the transport
interface: opening, sending through the impairments, polling, receiving, closing. A client has one
connection, in slot `0`.

Each round of polling meets a `TcpTurn`: the clocks, what `poll` says of each entry of the snapshot, what
`accept` answers and what a read of each descriptor brings.

`reads` is not program state and nothing reads it: it lists the descriptors that `recv_from_client` was
called with.
-/

namespace MessageEngine

open Outcome Table

structure TcpTransport where
  backend : TcpBackend
  listenFd : Int
  isOpen : Bool
  localNodeId : NodeId
  reads : List Int

/-- What the operating system answers in one round of `receive_message`: the clock of the sweep, the
entries of the snapshot that are readable (`none` when `poll` times out or fails), what `do_accept`
answers, what reading each descriptor brings, and the clock of the flush. -/
structure TcpTurn where
  sweepUs : UInt64
  ready : Option (Nat → Bool)
  acceptedFd : Int
  os : Nat → Round
  acceptUs : UInt64
  read : Int → Read
  flushUs : UInt64

/-- What the calls to open a socket answer: a descriptor, or that one of them failed. -/
structure TcpOpening where
  isServer : Bool
  fd : Option Nat
  os : Nat → Round

namespace TcpTransport

/-! ## Opening -/

/-- The state that `init` leaves before it opens a socket. -/
def create (isServer : Bool) (recvTimeoutMs : UInt32) (impairment : ImpairmentEngine) : TcpTransport where
  backend := { TcpBackend.init recvTimeoutMs impairment with isServer }
  listenFd := -1
  isOpen := false
  localNodeId := nodeIdInvalid
  reads := []

def bindAndListen (t : TcpTransport) (fd : Option Nat) : Checked (Result × TcpTransport) := do
  neverCompiledOutAssert .tcpBindAndListen t.backend.isServer
  match fd with
  | none => pure (.errIo, t)
  | some fd =>
    let t := { t with listenFd := fd, isOpen := true }
    neverCompiledOutAssert .tcpBindAndListen (t.listenFd ≥ 0)
    pure (.ok, t)

def connectToServer (t : TcpTransport) (fd : Option Nat) (os : Nat → Round) :
    Checked (Result × TcpTransport) := do
  neverCompiledOutAssert .tcpConnectToServer (!t.backend.isServer)
  neverCompiledOutAssert .tcpConnectToServer (getElem t.backend.clientFds 0 maxTcpConnections_pos = -1)
  match fd with
  | none => pure (.errIo, t)
  | some fd =>
    let b := { t.backend with
      clientFds := t.backend.clientFds.set 0 fd maxTcpConnections_pos
      clientCount := 1
      connectionsOpened := t.backend.connectionsOpened + 1
      links := fun fd' => if fd' = fd then ⟨[], os, 0, []⟩ else t.backend.links fd' }
    pure (.ok, { t with backend := b, isOpen := true })

/-- A backend after its constructor and `init`. -/
def init (opening : TcpOpening) (recvTimeoutMs : UInt32) (impairment : ImpairmentEngine) :
    Checked (Result × TcpTransport) :=
  let t := create opening.isServer recvTimeoutMs impairment
  if opening.isServer then t.bindAndListen opening.fd else t.connectToServer opening.fd opening.os

/-! ## Sending -/

/-- `send_frame` on a descriptor. -/
def sendFrame (t : TcpTransport) (fd : Int) (buf : List UInt8) (len : UInt32) :
    Checked (Bool × TcpTransport) := do
  neverCompiledOutAssert .socketOpsSendFrame (fd ≥ 0)
  let (ok, link) ← SocketUtils.tcpSendFrame (t.backend.links fd) buf len
  let links := fun fd' => if fd' = fd then link else t.backend.links fd'
  pure (ok, { t with backend := { t.backend with links } })

/-- One round of `send_to_all_clients`. -/
def sendToAllClients.round (buf : List UInt8) (len : UInt32) (i : Fin maxTcpConnections) :
    Bool × TcpTransport → Checked (Bool × TcpTransport)
  | (anyFailed, t) => do
    if t.backend.clientFds[i] < 0 then
      return (anyFailed, t)
    let (ok, t) ← t.sendFrame t.backend.clientFds[i] buf len
    return (anyFailed || !ok, t)

/-- Whether sending to any of the clients failed. -/
def sendToAllClients (t : TcpTransport) (buf : List UInt8) (len : UInt32) :
    Checked (Bool × TcpTransport) := do
  neverCompiledOutAssert .tcpSendToAllClients (len > 0)
  eachIndex maxTcpConnections (sendToAllClients.round buf len) (false, t)

def findClientSlot (b : TcpBackend) (dst : NodeId) : Checked (Option (Fin maxTcpConnections)) := do
  neverCompiledOutAssert .tcpFindClientSlot (dst ≠ nodeIdInvalid)
  neverCompiledOutAssert .tcpFindClientSlot (b.clientCount ≤ maxTcpConnections)
  pure (b.liveSlot? fun i => b.clientNodeIds[i] == dst)

/-- Whether sending to the slot failed. -/
def sendToSlot (t : TcpTransport) (slot : Fin maxTcpConnections) (buf : List UInt8) (len : UInt32) :
    Checked (Bool × TcpTransport) := do
  neverCompiledOutAssert .tcpSendToSlot (slot.val < t.backend.clientCount)
  let (ok, t) ← t.sendFrame t.backend.clientFds[slot] buf len
  pure (!ok, t)

/-- Where a delayed message goes: the result of the routing, and whether sending failed. -/
def sendOneDelayed (t : TcpTransport) (env : MessageEnvelope) :
    Checked ((Result × Bool) × TcpTransport) := do
  neverCompiledOutAssert .tcpSendOneDelayed (envelopeValid env)
  neverCompiledOutAssert .tcpSendOneDelayed (t.backend.clientCount ≤ maxTcpConnections)
  match ← serializeToWire env with
  | .error _ => return ((.ok, true), t)
  | .ok (buf, len) =>
    if !t.backend.isServer ∨ env.destinationId = nodeIdInvalid then
      let (failed, t) ← t.sendToAllClients buf len
      return ((.ok, failed), t)
    match ← findClientSlot t.backend env.destinationId with
    | none => return ((.errInvalid, false), t)
    | some slot =>
      let (failed, t) ← t.sendToSlot slot buf len
      return ((if failed then .errIo else .ok, failed), t)

def applySendResult (routeR : Result) (failed isCurrent : Bool) (finalResult : Result) :
    Checked Result := do
  neverCompiledOutAssert .tcpApplySendResult
    (finalResult = .ok ∨ finalResult = .errIo ∨ finalResult = .errInvalid)
  neverCompiledOutAssert .tcpApplySendResult
    (routeR = .ok ∨ routeR = .errIo ∨ routeR = .errInvalid)
  if routeR ≠ .ok ∧ isCurrent then
    return routeR
  if failed ∧ isCurrent then
    return .errIo
  return finalResult

/-- One round of `flush_delayed_to_clients`. -/
def flushDelayedToClients.round (currentEnv : MessageEnvelope) :
    Result × TcpTransport → MessageEnvelope → Checked (Result × TcpTransport)
  | (finalResult, t), env => do
    let ((routeR, failed), t) ← t.sendOneDelayed env
    let finalResult ← applySendResult routeR failed (isCurrent env currentEnv) finalResult
    pure (finalResult, t)

def flushDelayedToClients (t : TcpTransport) (currentEnv : MessageEnvelope) (nowUs : UInt64) :
    Checked (Result × TcpTransport) := do
  neverCompiledOutAssert .tcpFlushDelayedToClients (nowUs > 0)
  neverCompiledOutAssert .tcpFlushDelayedToClients t.isOpen
  let (delayed, impairment) ← t.backend.inbox.impairment.collectDeliverable nowUs impairDelayBufSize
  let t := { t with backend := { t.backend with inbox := { t.backend.inbox with impairment } } }
  delayed.foldlM (flushDelayedToClients.round currentEnv) (.ok, t)

def sendMessage (t : TcpTransport) (env : MessageEnvelope) (nowUs : UInt64) :
    Checked (Result × TcpTransport) := do
  neverCompiledOutAssert .tcpSendMessage t.isOpen
  neverCompiledOutAssert .tcpSendMessage (envelopeValid env)
  match ← serializeToWire env with
  | .error res => return (res, t)
  | .ok (_, wireLen) =>
    let (res, impairment) ← t.backend.inbox.impairment.processOutbound env nowUs
    let t := { t with backend := { t.backend with inbox := { t.backend.inbox with impairment } } }
    if res = .errIo then
      return (.ok, t)
    if res ≠ .ok then
      return (res, t)
    if t.backend.clientCount = 0 then
      return (.ok, t)
    let (res, t) ← t.flushDelayedToClients env nowUs
    neverCompiledOutAssert .tcpSendMessage (wireLen > 0)
    return (res, t)

/-! ## Polling -/

/-- One round of the loop in `build_poll_fds`. -/
def buildPollFds.round (b : TcpBackend) (cap : Nat) (i : Fin maxTcpConnections) (pfds : List Int) :
    Checked (List Int) := do
  if b.clientFds[i] ≥ 0 then
    neverCompiledOutAssert .tcpBuildPollFds (pfds.length < cap)
    pure (pfds ++ [b.clientFds[i]])
  else pure pfds

/-- The descriptors to poll, and whether the listening socket is the first of them. -/
def buildPollFds (t : TcpTransport) (cap : Nat) : Checked (List Int × Bool) := do
  let serverOk := t.backend.isServer && decide (t.listenFd ≥ 0)
  let hasListen := serverOk && decide (t.backend.clientCount < maxTcpConnections)
  let pfds ← eachIndex maxTcpConnections (buildPollFds.round t.backend cap)
    (if hasListen then [t.listenFd] else [])
  neverCompiledOutAssert .tcpBuildPollFds (pfds.length ≤ cap)
  pure (pfds, hasListen)

/-- `recv_from_client` of an open transport, with the call noted. -/
def recvFromClient (t : TcpTransport) (fd : Int) (read : Int → Read) : Checked TcpTransport := do
  neverCompiledOutAssert .tcpRecvFromClient t.isOpen
  let (_, backend) ← t.backend.recvFromClient fd (read fd)
  pure { t with backend, reads := t.reads ++ [fd] }

/-- The loop of `drain_readable_clients` from index `i` on, with the rounds that are left. -/
def drainReadableClients.loop (ready : Nat → Bool) (nfds base : Nat) (read : Int → Read) :
    Nat → Nat → TcpTransport → Checked TcpTransport
  | 0, _, t => pure t
  | rounds + 1, i, t =>
    if i < t.backend.clientCount then
      if base + i ≥ nfds then pure t
      else if ready (base + i) then
        if h : i < maxTcpConnections then do
          let t ← t.recvFromClient t.backend.clientFds[i] read
          drainReadableClients.loop ready nfds base read rounds (i + 1) t
        else throw .outOfBounds
      else drainReadableClients.loop ready nfds base read rounds (i + 1) t
    else pure t

/-- The loop ends within as many rounds as there are entries in the snapshot. -/
def drainReadableClients (t : TcpTransport) (ready : Nat → Bool) (nfds : Nat) (hasListen : Bool)
    (read : Int → Read) : Checked TcpTransport := do
  neverCompiledOutAssert .tcpDrainReadableClients (nfds ≤ maxTcpConnections + 1)
  drainReadableClients.loop ready nfds (if hasListen then 1 else 0) read nfds 0 t

/-- `accept_clients` of a server with its listening socket. -/
def acceptClients (t : TcpTransport) (turn : TcpTurn) : Checked TcpTransport := do
  neverCompiledOutAssert .tcpAcceptClients (t.listenFd ≥ 0)
  let backend ← t.backend.acceptClients turn.acceptedFd turn.os turn.acceptUs
  pure { t with backend }

/-- What `poll_clients_once` does once `poll` has found something. -/
def acceptAndDrain (t : TcpTransport) (turn : TcpTurn) (pfds : List Int) (hasListen : Bool)
    (ready : Nat → Bool) : Checked TcpTransport := do
  let t ← if hasListen && ready 0 then t.acceptClients turn else pure t
  t.drainReadableClients ready pfds.length hasListen turn.read

def pollClientsOnce (t : TcpTransport) (turn : TcpTurn) : Checked TcpTransport := do
  neverCompiledOutAssert .tcpPollClientsOnce t.isOpen
  let backend ← if t.backend.isServer then t.backend.sweepHelloTimeouts turn.sweepUs else pure t.backend
  let t := { t with backend }
  let (pfds, hasListen) ← t.buildPollFds (maxTcpConnections + 1)
  if pfds.length = 0 then
    return t
  match turn.ready with
  | none => return t
  | some ready => t.acceptAndDrain turn pfds hasListen ready

/-! ## Receiving and the rest of the interface -/

def pump : Pump TcpTurn TcpTransport where
  poll turn t := t.pollClientsOnce turn
  flush turn t := do
    let (_, t) ← t.flushDelayedToClients envelopeInit turn.flushUs
    pure t
  pop t := do
    let (reply, recvQueue) ← t.backend.inbox.recvQueue.pop
    pure (reply, { t with backend := { t.backend with inbox := { t.backend.inbox with recvQueue } } })

def receiveMessage (t : TcpTransport) (timeoutMs : UInt32) (turns : Nat → TcpTurn) :
    Checked (Delivery × TcpTransport) := do
  neverCompiledOutAssert .tcpReceiveMessage t.isOpen
  pump.receiveMessage .tcpReceiveMessage timeoutMs turns t

def sendHelloFrame (t : TcpTransport) : Checked (Result × TcpTransport) := do
  neverCompiledOutAssert .tcpSendHelloFrame (t.localNodeId ≠ nodeIdInvalid)
  neverCompiledOutAssert .tcpSendHelloFrame (!t.backend.isServer)
  let hello := { envelopeInit with messageType := .hello, sourceId := t.localNodeId }
  match ← serializeToWire hello with
  | .error res => return (res, t)
  | .ok (buf, len) =>
    if getElem t.backend.clientFds 0 maxTcpConnections_pos < 0 then
      return (.errIo, t)
    let (ok, t) ← t.sendFrame (getElem t.backend.clientFds 0 maxTcpConnections_pos) buf len
    return (if ok then .ok else .errIo, t)

def registerLocalId (t : TcpTransport) (id : NodeId) : Checked (Result × TcpTransport) := do
  neverCompiledOutAssert .tcpRegisterLocalId (id ≠ nodeIdInvalid)
  neverCompiledOutAssert .tcpRegisterLocalId t.isOpen
  let t := { t with localNodeId := id }
  if !t.backend.isServer then t.sendHelloFrame else pure (.ok, t)

def close (t : TcpTransport) : TcpTransport :=
  let closedCount := (t.backend.clientFds.toList.filter (· ≥ 0)).length
  let b := { t.backend with
    clientFds := t.backend.clientFds.map fun fd => if fd ≥ 0 then -1 else fd
    connectionsClosed := t.backend.connectionsClosed + .ofNat closedCount
    clientCount := 0 }
  { t with backend := b, listenFd := if t.listenFd ≥ 0 then -1 else t.listenFd, isOpen := false }

/-- `is_open`. -/
def checkOpen (t : TcpTransport) : Checked Bool := do
  neverCompiledOutAssert .tcpIsOpen
    (t.isOpen = decide (t.listenFd ≥ 0 ∨ t.backend.clientCount > 0) ∨ t.isOpen = false)
  pure t.isOpen

/-- One call of the interface as a step: how often the sockets were polled in it, and the state after
it. -/
def exec (call : TransportCall TcpTurn) (t : TcpTransport) : Checked (Nat × TcpTransport) :=
  match call with
  | .send env nowUs => do
    let (_, t) ← t.sendMessage env nowUs
    pure (0, t)
  | .receive timeoutMs turns => do
    let (delivery, t) ← t.receiveMessage timeoutMs turns
    pure (delivery.polls, t)
  | .registerLocalId id => do
    let (_, t) ← t.registerLocalId id
    pure (0, t)
  | .popHelloPeer => do
    let (_, backend) ← t.backend.popHelloPeer
    pure (0, { t with backend })
  | .close => pure (0, t.close)

end TcpTransport

end MessageEngine
