import MessageEngine.Core.Backend

/-!
# TcpBackend

A server keeps up to eight clients in four parallel arrays, the live ones in front; taking a client
out shifts those behind it. A client is registered by its first `HELLO`, which tells its node; from
then on its messages must carry that node as their source. A client that claims another's node, or
says `HELLO` twice, is closed, and so is one that says nothing for too long.

The program talks to the operating system through `recv_frame`, `accept` and the clock; what these
answer is the input of each step. What `send_frame` meets is part of the connection (`links`).
-/

namespace MessageEngine

open Outcome Table

structure TcpBackend where
  isServer : Bool
  /-- `m_cfg.channels[0].recv_timeout_ms`. -/
  recvTimeoutMs : UInt32
  clientFds : Vector Int maxTcpConnections
  clientNodeIds : Vector NodeId maxTcpConnections
  clientHelloReceived : Vector Bool maxTcpConnections
  clientAcceptTs : Vector UInt64 maxTcpConnections
  clientCount : Nat
  connectionsOpened : UInt32
  connectionsClosed : UInt32
  helloQueue : HelloQueue
  inbox : Inbox
  /-- The sending side of the connection on each descriptor. -/
  links : Int → Outbound
  trace : List BackendEffect

namespace TcpBackend

/-- A server after its constructor and `init`. -/
def init (recvTimeoutMs : UInt32) (impairment : ImpairmentEngine) : TcpBackend where
  isServer := true
  recvTimeoutMs := recvTimeoutMs
  clientFds := Vector.replicate maxTcpConnections (-1)
  clientNodeIds := Vector.replicate maxTcpConnections nodeIdInvalid
  clientHelloReceived := Vector.replicate maxTcpConnections false
  clientAcceptTs := Vector.replicate maxTcpConnections 0
  clientCount := 0
  connectionsOpened := 0
  connectionsClosed := 0
  helloQueue := .init
  inbox := ⟨impairment, .init⟩
  links := fun _ => ⟨[], fun _ => .timeout, 0, []⟩
  trace := []

/-- Append to the trace. -/
def note (b : TcpBackend) (x : BackendEffect) : TcpBackend := { b with trace := b.trace ++ [x] }

/-! ## The client table -/

/-- `accept_clients`, with what `do_accept` answers: a descriptor, negative for none, how sending to
the new connection will go, and the clock. -/
def acceptClients (b : TcpBackend) (clientFd : Int) (os : Nat → Round) (nowUs : UInt64) :
    Checked TcpBackend := do
  neverCompiledOutAssert .tcpAcceptClients b.isServer
  if h : b.clientCount < maxTcpConnections then
    if clientFd < 0 then
      pure b
    else
      let b := { b with
        clientFds := b.clientFds.set b.clientCount clientFd
        clientHelloReceived := b.clientHelloReceived.set b.clientCount false
        clientAcceptTs := b.clientAcceptTs.set b.clientCount nowUs
        clientCount := b.clientCount + 1
        connectionsOpened := b.connectionsOpened + 1
        links := fun fd => if fd = clientFd then ⟨[], os, 0, []⟩ else b.links fd }
      neverCompiledOutAssert .tcpAcceptClients (b.clientCount ≤ maxTcpConnections)
      pure (b.note (.accepted clientFd))
  else pure b

/-- Take out row `i` of the four arrays and clear the last one. -/
def compact (b : TcpBackend) (i : Nat) : Checked TcpBackend :=
  if h : b.clientCount - 1 < maxTcpConnections then
    let rounds := b.clientCount - 1 - i
    .ok { b with
      clientFds := (Compact.shiftLeft b.clientFds i rounds).set (b.clientCount - 1) (-1)
      clientNodeIds :=
        (Compact.shiftLeft b.clientNodeIds i rounds).set (b.clientCount - 1) nodeIdInvalid
      clientHelloReceived :=
        (Compact.shiftLeft b.clientHelloReceived i rounds).set (b.clientCount - 1) false
      clientAcceptTs := (Compact.shiftLeft b.clientAcceptTs i rounds).set (b.clientCount - 1) 0
      clientCount := b.clientCount - 1
      connectionsClosed := b.connectionsClosed + 1 }
  else .error .outOfBounds

def removeClientFd (b : TcpBackend) (clientFd : Int) : Checked TcpBackend := do
  neverCompiledOutAssert .tcpRemoveClientFd (clientFd ≥ 0)
  neverCompiledOutAssert .tcpRemoveClientFd (b.clientCount > 0)
  match firstSlot? (· == clientFd) b.clientFds with
  | some i =>
    let b ← b.compact i
    neverCompiledOutAssert .tcpRemoveClientFd (b.clientCount < maxTcpConnections)
    pure (b.note (.closed clientFd))
  | none => pure b

def closeAndEvictSlot (b : TcpBackend) (clientFd : Int) : Checked TcpBackend := do
  neverCompiledOutAssert .tcpCloseAndEvictSlot (clientFd ≥ 0)
  neverCompiledOutAssert .tcpCloseAndEvictSlot (b.clientCount ≤ maxTcpConnections)
  let b ← b.removeClientFd clientFd
  neverCompiledOutAssert .tcpCloseAndEvictSlot (b.clientCount ≤ maxTcpConnections)
  pure b

/-- The first live slot with the property. -/
def liveSlot? (b : TcpBackend) (p : Fin maxTcpConnections → Bool) : Option (Fin maxTcpConnections) :=
  (List.finRange maxTcpConnections).find? fun i => decide (i.val < b.clientCount) && p i

/-- The slot of a descriptor. -/
def slotOf? (b : TcpBackend) (clientFd : Int) : Option (Fin maxTcpConnections) :=
  b.liveSlot? fun i => b.clientFds[i] == clientFd

/-- The loop of `sweep_hello_timeouts` from slot `i` on, with the rounds that are left. An eviction
moves the next client to slot `i`, so `i` stays. -/
def sweepHelloTimeouts.loop (nowUs timeoutUs : UInt64) : Nat → Nat → TcpBackend → Checked TcpBackend
  | 0, _, b => pure b
  | rounds + 1, i, b =>
    if i < b.clientCount then
      if h : i < maxTcpConnections then
        if b.clientHelloReceived[i] = false ∧ b.clientAcceptTs[i] ≠ 0 ∧
            nowUs - b.clientAcceptTs[i] > timeoutUs then do
          let b ← b.closeAndEvictSlot b.clientFds[i]
          sweepHelloTimeouts.loop nowUs timeoutUs rounds i b
        else sweepHelloTimeouts.loop nowUs timeoutUs rounds (i + 1) b
      else throw .outOfBounds
    else pure b

def sweepHelloTimeouts (b : TcpBackend) (nowUs : UInt64) : Checked TcpBackend := do
  neverCompiledOutAssert .tcpSweepHelloTimeouts b.isServer
  neverCompiledOutAssert .tcpSweepHelloTimeouts (b.clientCount ≤ maxTcpConnections)
  sweepHelloTimeouts.loop nowUs (b.recvTimeoutMs.toUInt64 * 1000) b.clientCount 0 b

/-! ## Registration -/

def handleHelloFrame (b : TcpBackend) (clientFd : Int) (srcId : NodeId) : Checked TcpBackend := do
  neverCompiledOutAssert .tcpHandleHelloFrame (clientFd ≥ 0)
  neverCompiledOutAssert .tcpHandleHelloFrame (srcId ≠ nodeIdInvalid)
  match b.liveSlot? fun j => b.clientNodeIds[j] == srcId && b.clientFds[j] != clientFd with
  | some _ => b.closeAndEvictSlot clientFd
  | none =>
    match b.slotOf? clientFd with
    | some i =>
      let b := { b with clientNodeIds := b.clientNodeIds.set i srcId i.isLt }
      let helloQueue ← b.helloQueue.push srcId
      pure ({ b with helloQueue }.note (.registered clientFd srcId))
    | none => pure b

def processHelloFrame (b : TcpBackend) (clientFd : Int) (srcId : NodeId) :
    Checked (Result × TcpBackend) := do
  neverCompiledOutAssert .tcpProcessHelloFrame (clientFd ≥ 0)
  neverCompiledOutAssert .tcpProcessHelloFrame (srcId ≠ nodeIdInvalid)
  match b.slotOf? clientFd with
  | none => pure (.errAgain, b)
  | some slotIdx =>
    if b.clientHelloReceived[slotIdx] then
      let b ← b.closeAndEvictSlot clientFd
      pure (.errInvalid, b)
    else
      let b ← b.handleHelloFrame clientFd srcId
      let b := { b with clientHelloReceived := b.clientHelloReceived.set slotIdx true slotIdx.isLt }
      pure (.errAgain, b)

def popHelloPeer (b : TcpBackend) : Checked (NodeId × TcpBackend) := do
  let (src, helloQueue) ← b.helloQueue.pop .tcpPopHelloPeer
  pure (src, { b with helloQueue })

def isUnregisteredSlot (b : TcpBackend) (clientFd : Int) : Checked Bool := do
  neverCompiledOutAssert .tcpIsUnregisteredSlot (clientFd ≥ 0)
  neverCompiledOutAssert .tcpIsUnregisteredSlot (b.clientCount ≤ maxTcpConnections)
  match b.slotOf? clientFd with
  | some s => pure (b.clientNodeIds[s] == nodeIdInvalid)
  | none => pure false

def validateSourceId (b : TcpBackend) (clientFd : Int) (claimedId : NodeId) : Checked Bool := do
  neverCompiledOutAssert .tcpValidateSourceId (clientFd ≥ 0)
  neverCompiledOutAssert .tcpValidateSourceId (b.clientCount ≤ maxTcpConnections)
  match b.slotOf? clientFd with
  | none => pure (!b.isServer)
  | some i =>
    let registered := b.clientNodeIds[i]
    if registered = nodeIdInvalid then
      neverCompiledOutAssert .tcpValidateSourceId (!b.isServer)
      pure true
    else
      pure (claimedId == registered)

/-! ## Receiving -/

def applyInboundImpairment (b : TcpBackend) (clientFd : Int) (env : MessageEnvelope) (nowUs : UInt64) :
    Checked TcpBackend := do
  let (queued, inbox) ← b.inbox.applyInboundImpairment .tcpApplyInboundImpairment env nowUs
  let b := { b with inbox }
  match queued with
  | some out => pure (b.note (.queued clientFd out))
  | none => pure b

/-- In client mode, the node of the server is that of its first accepted message. -/
def lockServerNode (b : TcpBackend) (env : MessageEnvelope) : TcpBackend :=
  if !b.isServer ∧ b.clientNodeIds[0] = nodeIdInvalid ∧ env.sourceId ≠ nodeIdInvalid then
    { b with clientNodeIds := b.clientNodeIds.set 0 env.sourceId }
  else b

/-- What `recv_from_client` does with a decoded message. -/
def dispatch (b : TcpBackend) (clientFd : Int) (env : MessageEnvelope) (nowUs : UInt64) :
    Checked (Result × TcpBackend) := do
  if env.messageType = .hello then
    if b.isServer then
      return ← b.processHelloFrame clientFd env.sourceId
    return (.errAgain, b)
  let unregistered ← if b.isServer then b.isUnregisteredSlot clientFd else pure false
  if unregistered then
    return (.errInvalid, b)
  let valid ← b.validateSourceId clientFd env.sourceId
  if !valid then
    return (.errInvalid, b)
  let b := (b.lockServerNode env).note (.forwarded clientFd env)
  let b ← b.applyInboundImpairment clientFd env nowUs
  return (.ok, b)

def recvFromClient (b : TcpBackend) (clientFd : Int) (read : Read) : Checked (Result × TcpBackend) := do
  neverCompiledOutAssert .tcpRecvFromClient (clientFd ≥ 0)
  match read.frame with
  | none =>
    let b ← b.removeClientFd clientFd
    pure (.errIo, b)
  | some frame =>
    match ← frame.deserialize with
    | .error res => pure (res, b)
    | .ok env => (b.note (.received clientFd env)).dispatch clientFd env read.nowUs

/-! ## The server as a whole -/

/-- One event. Only live connections are read. -/
def run (event : ServerEvent) (b : TcpBackend) : Checked (Option NodeId × TcpBackend) :=
  match event with
  | .accept fd os nowUs => do
    let b ← b.acceptClients fd os nowUs
    pure (none, b)
  | .receive fd read =>
    match b.slotOf? fd with
    | some _ => do
      let (_, b) ← b.recvFromClient fd read
      pure (none, b)
    | none => pure (none, b)
  | .sweep nowUs => do
    let b ← b.sweepHelloTimeouts nowUs
    pure (none, b)
  | .popHello => do
    let (src, b) ← b.popHelloPeer
    pure (some src, b)
  | .popMessage => do
    let (_, recvQueue) ← b.inbox.recvQueue.pop
    pure (none, { b with inbox := { b.inbox with recvQueue } })

/-- One event as a step of the system. -/
def exec (event : ServerEvent) (b : TcpBackend) : Checked (ServerObservation × TcpBackend) := do
  let (popped, b) ← run event { b with trace := [] }
  pure (⟨popped, b.trace⟩, b)

end TcpBackend

end MessageEngine
