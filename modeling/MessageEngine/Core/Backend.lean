import MessageEngine.Core.RingBuffer
import MessageEngine.Core.ImpairmentEngine
import MessageEngine.Core.SocketUtils

/-!
# What the transport backends share

The four backends differ in how they keep their peers; what they do with a message once they know
whose it is does not differ. Here are the parts the source has more than once: the queue of reconnect
notifications, which `TcpBackend` and `TlsTcpBackend` hold word for word alike, and the way of a
message through the inbound impairments into the receive queue.

What a backend does to its connections and queues is written to a trace of `Effect`s. The trace is
not program state and nothing reads it.
-/

namespace MessageEngine

open Outcome Table

/-- What `recv_frame` or `recv_from` left in the buffer of a backend. -/
structure Frame where
  bytes : List UInt8
  fits : bytes.length ≤ socketRecvBufBytes.toNat

namespace Frame

/-- The number of bytes, as the backend has it. -/
def len (f : Frame) : UInt32 := .ofNat f.bytes.length

def deserialize (f : Frame) : Checked Reply := Serializer.deserialize f.bytes f.len

end Frame

/-- One attempt to read: the frame, or `none` when `recv_frame` fails, and the clock after it. -/
structure Read where
  frame : Option Frame
  nowUs : UInt64

/-- What a backend does, in order. A connection is named by its descriptor. -/
inductive BackendEffect where
  /-- A connection was accepted. -/
  | accepted (fd : Int)
  /-- A connection was closed and its slot freed. -/
  | closed (fd : Int)
  /-- A frame was read and decoded. -/
  | received (fd : Int) (env : MessageEnvelope)
  /-- A `HELLO` registered the connection. -/
  | registered (fd : Int) (src : NodeId)
  /-- A message passed the checks and went on to inbound processing. -/
  | forwarded (fd : Int) (env : MessageEnvelope)
  /-- A message was put into the receive queue. -/
  | queued (fd : Int) (env : MessageEnvelope)

/-- What happens to a server, and what the operating system answers: a connection is accepted (a
negative descriptor is none), with how sending to it will go; an attempt to read a connection; a
sweep of the clients that never said `HELLO`; a call of `pop_hello_peer`; the pop with which
`receive_message` takes from the receive queue. -/
inductive ServerEvent where
  | accept (fd : Int) (os : Nat → Round) (nowUs : UInt64)
  | receive (fd : Int) (read : Read)
  | sweep (nowUs : UInt64)
  | popHello
  | popMessage

/-- What can be seen of an event: the answer of `pop_hello_peer` and the effects. -/
structure ServerObservation where
  popped : Option NodeId
  effects : List BackendEffect

/-! ## Reconnect notifications -/

/-- `m_hello_queue` with its two indices. -/
structure HelloQueue where
  peers : Vector NodeId maxTcpConnections
  read : Nat
  write : Nat

namespace HelloQueue

def init : HelloQueue where
  peers := Vector.replicate maxTcpConnections nodeIdInvalid
  read := 0
  write := 0

/-- The end of `handle_hello_frame`: enqueue, unless the queue looks full. -/
def push (q : HelloQueue) (src : NodeId) : Checked HelloQueue :=
  let nextWrite := (q.write + 1) % maxTcpConnections
  if nextWrite ≠ q.read then
    if h : q.write < maxTcpConnections then
      .ok { q with peers := q.peers.set q.write src, write := nextWrite }
    else .error .outOfBounds
  else .ok q

/-- `pop_hello_peer`; the site is that of the backend. -/
def pop (site : Site) (q : HelloQueue) : Checked (NodeId × HelloQueue) := do
  neverCompiledOutAssert site (q.read < maxTcpConnections)
  neverCompiledOutAssert site (q.write < maxTcpConnections)
  if q.read = q.write then
    pure (nodeIdInvalid, q)
  else if h : q.read < maxTcpConnections then
    pure (q.peers[q.read], { q with read := (q.read + 1) % maxTcpConnections })
  else throw .outOfBounds

end HelloQueue

/-! ## Inbound processing -/

/-- The receive queue and the impairments in front of it. -/
structure Inbox where
  impairment : ImpairmentEngine
  recvQueue : RingBuffer

namespace Inbox

/-- `apply_inbound_impairment` of the two TCP backends: drop while a partition is active, pass the
reorder stage, push. Answers the message that was queued, if one was. -/
def applyInboundImpairment (site : Site) (b : Inbox) (env : MessageEnvelope) (nowUs : UInt64) :
    Checked (Option MessageEnvelope × Inbox) := do
  neverCompiledOutAssert site (envelopeValid env)
  neverCompiledOutAssert site (nowUs > 0)
  let (partitioned, impairment) ← b.impairment.isPartitionActive nowUs
  let b := { b with impairment }
  if partitioned then
    return (none, b)
  let ((res, out), impairment) ← b.impairment.processInbound env nowUs 1
  let b := { b with impairment }
  if res ≠ .ok then
    return (none, b)
  match out with
  | none => return (none, b)
  | some out =>
    let (res, recvQueue) ← b.recvQueue.push out
    let b := { b with recvQueue }
    return (if res = .ok then some out else none, b)

end Inbox

end MessageEngine
