import MessageEngine.Core.Backend

/-!
# TlsTcpBackend

The server side of the TLS backend: the same registration of clients as `TcpBackend` has, on fixed
slots. A client keeps its slot, a free slot is marked as such, and a new client takes the first free
one. The descriptor of a slot is that of its network context.

Whether TLS is on makes no difference here: a handshake that fails leaves the slot free, as if no
connection had come in, and a read that fails is a read that fails.
-/

namespace MessageEngine

open Outcome Table

structure TlsTcpBackend where
  /-- `m_cfg.channels[0].recv_timeout_ms`. -/
  recvTimeoutMs : UInt32
  clientNet : Vector Int maxTcpConnections
  clientSlotActive : Vector Bool maxTcpConnections
  clientNodeIds : Vector NodeId maxTcpConnections
  clientHelloReceived : Vector Bool maxTcpConnections
  clientAcceptTs : Vector UInt64 maxTcpConnections
  clientCount : Nat
  connectionsOpened : UInt32
  connectionsClosed : UInt32
  helloQueue : HelloQueue
  inbox : Inbox
  trace : List BackendEffect

namespace TlsTcpBackend

/-- A server after its constructor and `init`. -/
def init (recvTimeoutMs : UInt32) (impairment : ImpairmentEngine) : TlsTcpBackend where
  recvTimeoutMs := recvTimeoutMs
  clientNet := Vector.replicate maxTcpConnections (-1)
  clientSlotActive := Vector.replicate maxTcpConnections false
  clientNodeIds := Vector.replicate maxTcpConnections nodeIdInvalid
  clientHelloReceived := Vector.replicate maxTcpConnections false
  clientAcceptTs := Vector.replicate maxTcpConnections 0
  clientCount := 0
  connectionsOpened := 0
  connectionsClosed := 0
  helloQueue := .init
  inbox := ⟨impairment, .init⟩
  trace := []

/-- Append to the trace. -/
def note (b : TlsTcpBackend) (x : BackendEffect) : TlsTcpBackend := { b with trace := b.trace ++ [x] }

/-! ## The client table -/

/-- `accept_and_handshake`, with what `net_tcp_accept` answers: a descriptor, negative for none, and
the clock. -/
def acceptAndHandshake (b : TlsTcpBackend) (clientFd : Int) (nowUs : UInt64) : Checked TlsTcpBackend := do
  if b.clientCount ≥ maxTcpConnections then
    return b
  match firstSlot? (fun active => !active) b.clientSlotActive with
  | none => return b
  | some slot =>
    if clientFd < 0 then
      return b
    let b := { b with
      clientNet := b.clientNet.set slot clientFd slot.isLt
      clientSlotActive := b.clientSlotActive.set slot true slot.isLt
      clientHelloReceived := b.clientHelloReceived.set slot false slot.isLt
      clientAcceptTs := b.clientAcceptTs.set slot nowUs slot.isLt
      clientCount := b.clientCount + 1
      connectionsOpened := b.connectionsOpened + 1 }
    neverCompiledOutAssert .tlsAcceptAndHandshake (b.clientCount ≤ maxTcpConnections)
    return b.note (.accepted clientFd)

def removeClient (b : TlsTcpBackend) (idx : Fin maxTcpConnections) : Checked TlsTcpBackend := do
  neverCompiledOutAssert .tlsRemoveClient (b.clientCount > 0)
  let fd := b.clientNet[idx]
  let b := { b with
    clientNet := b.clientNet.set idx (-1) idx.isLt
    clientSlotActive := b.clientSlotActive.set idx false idx.isLt
    clientNodeIds := b.clientNodeIds.set idx nodeIdInvalid idx.isLt
    clientHelloReceived := b.clientHelloReceived.set idx false idx.isLt
    clientAcceptTs := b.clientAcceptTs.set idx 0 idx.isLt
    clientCount := b.clientCount - 1
    connectionsClosed := b.connectionsClosed + 1 }
  neverCompiledOutAssert .tlsRemoveClient (b.clientCount ≤ maxTcpConnections)
  pure (b.note (.closed fd))

/-- One round of `sweep_hello_timeouts`. -/
def sweepHelloTimeouts.round (nowUs timeoutUs : UInt64) (i : Fin maxTcpConnections)
    (b : TlsTcpBackend) : Checked TlsTcpBackend :=
  if b.clientSlotActive[i] = true ∧ b.clientHelloReceived[i] = false ∧ b.clientAcceptTs[i] ≠ 0 ∧
      nowUs - b.clientAcceptTs[i] > timeoutUs then
    b.removeClient i
  else pure b

def sweepHelloTimeouts (b : TlsTcpBackend) (nowUs : UInt64) : Checked TlsTcpBackend := do
  neverCompiledOutAssert .tlsSweepHelloTimeouts (b.clientCount ≤ maxTcpConnections)
  eachIndex maxTcpConnections
    (sweepHelloTimeouts.round nowUs (b.recvTimeoutMs.toUInt64 * 1000)) b

/-! ## Registration -/

def handleHelloFrame (b : TlsTcpBackend) (idx : Fin maxTcpConnections) (srcId : NodeId) :
    Checked TlsTcpBackend := do
  neverCompiledOutAssert .tlsHandleHelloFrame (srcId ≠ nodeIdInvalid)
  match (List.finRange maxTcpConnections).find? fun i =>
      i != idx && b.clientSlotActive[i] && b.clientNodeIds[i] == srcId with
  | some _ => b.removeClient idx
  | none =>
    let b := { b with clientNodeIds := b.clientNodeIds.set idx srcId idx.isLt }
    let helloQueue ← b.helloQueue.push srcId
    pure ({ b with helloQueue }.note (.registered b.clientNet[idx] srcId))

def popHelloPeer (b : TlsTcpBackend) : Checked (NodeId × TlsTcpBackend) := do
  let (src, helloQueue) ← b.helloQueue.pop .tlsPopHelloPeer
  pure (src, { b with helloQueue })

def validateSourceId (b : TlsTcpBackend) (slot : Fin maxTcpConnections) (claimedId : NodeId) : Bool :=
  let registered := b.clientNodeIds[slot]
  if registered = nodeIdInvalid then true else claimedId == registered

def classifyInboundFrame (b : TlsTcpBackend) (idx : Fin maxTcpConnections) (env : MessageEnvelope) :
    Checked (Result × TlsTcpBackend) := do
  neverCompiledOutAssert .tlsClassifyInboundFrame (b.clientSlotActive[idx] = true)
  if env.messageType = .hello then
    if b.clientHelloReceived[idx] then
      let b ← b.removeClient idx
      return (.errInvalid, b)
    let b := { b with clientHelloReceived := b.clientHelloReceived.set idx true idx.isLt }
    let b ← b.handleHelloFrame idx env.sourceId
    return (.errAgain, b)
  if !b.clientHelloReceived[idx] then
    return (.errInvalid, b)
  return (.ok, b)

/-! ## Receiving -/

def applyInboundImpairment (b : TlsTcpBackend) (fd : Int) (env : MessageEnvelope) (nowUs : UInt64) :
    Checked TlsTcpBackend := do
  let (queued, inbox) ← b.inbox.applyInboundImpairment .tlsApplyInboundImpairment env nowUs
  let b := { b with inbox }
  match queued with
  | some out => pure (b.note (.queued fd out))
  | none => pure b

/-- What `recv_from_client` does with a decoded message. -/
def dispatch (b : TlsTcpBackend) (idx : Fin maxTcpConnections) (env : MessageEnvelope) (nowUs : UInt64) :
    Checked (Result × TlsTcpBackend) := do
  let fd := b.clientNet[idx]
  let (res, b) ← b.classifyInboundFrame idx env
  if res ≠ .ok then
    return (res, b)
  if !b.validateSourceId idx env.sourceId then
    return (.errInvalid, b)
  let b ← (b.note (.forwarded fd env)).applyInboundImpairment fd env nowUs
  return (.ok, b)

def recvFromClient (b : TlsTcpBackend) (idx : Fin maxTcpConnections) (read : Read) :
    Checked (Result × TlsTcpBackend) := do
  match read.frame with
  | none =>
    let b ← b.removeClient idx
    pure (.errIo, b)
  | some frame =>
    match ← frame.deserialize with
    | .error res => pure (res, b)
    | .ok env => (b.note (.received b.clientNet[idx] env)).dispatch idx env read.nowUs

/-! ## The server as a whole -/

/-- The active slot of a descriptor. -/
def slotOf? (b : TlsTcpBackend) (fd : Int) : Option (Fin maxTcpConnections) :=
  (List.finRange maxTcpConnections).find? fun i => b.clientSlotActive[i] && b.clientNet[i] == fd

/-- One event. Only live connections are read. -/
def run (event : ServerEvent) (b : TlsTcpBackend) : Checked (Option NodeId × TlsTcpBackend) :=
  match event with
  | .accept fd _ nowUs => do
    let b ← b.acceptAndHandshake fd nowUs
    pure (none, b)
  | .receive fd read =>
    match b.slotOf? fd with
    | some idx => do
      let (_, b) ← b.recvFromClient idx read
      pure (none, b)
    | none => pure (none, b)
  | .sweep nowUs => do
    let b ← b.sweepHelloTimeouts nowUs
    pure (none, b)
  | .popHello => do
    let (src, b) ← b.popHelloPeer
    pure (some src, b)
  | .popMessage => do
    let (_, recvQueue) ← b.inbox.recvQueue.pop
    pure (none, { b with inbox := { b.inbox with recvQueue } })

/-- One event as a step of the system. -/
def exec (event : ServerEvent) (b : TlsTcpBackend) : Checked (ServerObservation × TlsTcpBackend) := do
  let (popped, b) ← run event { b with trace := [] }
  pure (⟨popped, b.trace⟩, b)

end TlsTcpBackend

end MessageEngine
