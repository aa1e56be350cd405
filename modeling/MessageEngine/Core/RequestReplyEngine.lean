import MessageEngine.Core.DeliveryEngine
import MessageEngine.Lib.Circular

/-!
# RequestReplyEngine

Requests and responses over the delivery engine. A request carries a header in front of the
application's bytes, with a correlation id drawn from a local counter; the response echoes the id.
Whatever the delivery engine hands up is sorted by `pump_inbound`: a response goes to the pending
slot of its id, a request and a message without a header each go to a queue of their own.

A public call makes several calls of the delivery engine. `links` are the transport's answers during
these, one record for each call in order; when they run out the transport is silent. `arrivals`
records what the delivery engine handed up. It is not program state, nothing reads it, and each
public call starts it empty.

`m_local_node` is left out: it is stored and only logged.
-/

namespace MessageEngine

open Outcome Table

abbrev rrHeaderSize : Nat := 12
abbrev maxPendingRequests : Nat := 16
abbrev maxStashSize : Nat := 16

/-- The application's share of a payload. -/
abbrev appPayloadCap : Nat := msgMaxPayloadBytes - rrHeaderSize

inductive RRKind where
  | request
  | response
  deriving DecidableEq, Repr

/-- The byte of a kind. -/
def RRKind.code : RRKind → UInt8
  | .request => 0
  | .response => 1

structure RRHeader where
  kind : UInt8
  correlationId : UInt64
  pad0 : UInt8
  pad1 : UInt8
  pad2 : UInt8
  deriving DecidableEq

structure PendingRequest where
  correlationId : UInt64
  expiresUs : UInt64
  active : Bool
  stashPayload : Vector UInt8 appPayloadCap
  stashLen : UInt32
  stashReady : Bool
  deriving DecidableEq

structure StashedRequest where
  correlationId : UInt64
  src : NodeId
  payload : Vector UInt8 appPayloadCap
  payloadLen : UInt32
  active : Bool
  deriving DecidableEq

structure RequestReplyEngine where
  engine : DeliveryEngine
  cidGen : UInt64
  pending : Vector PendingRequest maxPendingRequests
  pendingCount : Nat
  requestStash : Vector StashedRequest maxStashSize
  stashHead : Fin maxStashSize
  stashCount : Nat
  nonRrStash : Vector MessageEnvelope maxStashSize
  nonRrHead : Fin maxStashSize
  nonRrCount : Nat
  links : List Transport
  arrivals : List MessageEnvelope

namespace RequestReplyEngine

def init (engine : DeliveryEngine) : RequestReplyEngine where
  engine := engine
  cidGen := 1
  pending := Vector.replicate maxPendingRequests
    ⟨0, 0, false, Vector.replicate appPayloadCap 0, 0, false⟩
  pendingCount := 0
  requestStash := Vector.replicate maxStashSize
    ⟨0, nodeIdInvalid, Vector.replicate appPayloadCap 0, 0, false⟩
  stashHead := 0
  stashCount := 0
  nonRrStash := Vector.replicate maxStashSize envelopeInit
  nonRrHead := 0
  nonRrCount := 0
  links := []
  arrivals := []

/-! ## The wire format -/

/-- The twelve header bytes: the kind, the id with its high byte first, three zero bytes. -/
def headerBytes (kind : RRKind) (correlationId : UInt64) : Vector UInt8 rrHeaderSize :=
  #v[kind.code,
    (correlationId >>> 56).toUInt8, (correlationId >>> 48).toUInt8,
    (correlationId >>> 40).toUInt8, (correlationId >>> 32).toUInt8,
    (correlationId >>> 24).toUInt8, (correlationId >>> 16).toUInt8,
    (correlationId >>> 8).toUInt8, (correlationId >>> 0).toUInt8,
    0, 0, 0]

/-- Header and application bytes into `outBuf`; the answer is the total length, zero when it does
not fit. The sum of the lengths wraps at `2 ^ 32`. -/
def buildWirePayload {n m : Nat} (kind : RRKind) (correlationId : UInt64)
    (appPayload : Vector UInt8 m) (appLen : UInt32) (outBuf : Vector UInt8 n) (outCap : UInt32) :
    Checked (UInt32 × Vector UInt8 n) := do
  neverCompiledOutAssert .rrBuildWirePayload (outCap ≥ 12)
  let total : UInt32 := 12 + appLen
  if total > outCap then
    return (0, outBuf)
  let outBuf ← memcpy outBuf 0 (headerBytes kind correlationId) 0 rrHeaderSize
  if appLen > 0 then
    let outBuf ← memcpy outBuf rrHeaderSize appPayload 0 appLen.toNat
    return (total, outBuf)
  return (total, outBuf)

/-- The header fields as they stand in the first twelve bytes. -/
def readHeader {n : Nat} (hn : rrHeaderSize ≤ n) (rawPayload : Vector UInt8 n) : RRHeader :=
  let byte (i : Fin rrHeaderSize) : UInt8 := rawPayload[i.castLE hn]
  { kind := byte 0
    correlationId :=
      ((byte 1).toUInt64 <<< 56) |||
      ((byte 2).toUInt64 <<< 48) |||
      ((byte 3).toUInt64 <<< 40) |||
      ((byte 4).toUInt64 <<< 32) |||
      ((byte 5).toUInt64 <<< 24) |||
      ((byte 6).toUInt64 <<< 16) |||
      ((byte 7).toUInt64 <<< 8) |||
      ((byte 8).toUInt64 <<< 0)
    pad0 := byte 9
    pad1 := byte 10
    pad2 := byte 11 }

/-- `none` is the answer `false`: too short, an unknown kind, the id zero or padding in use. -/
def parseRrHeader {n : Nat} (rawPayload : Vector UInt8 n) (rawLen : UInt32) : Checked (Option RRHeader) := do
  neverCompiledOutAssert .rrParseRrHeader (rawLen > 0)
  if rawLen < 12 then
    return none
  if hn : rrHeaderSize ≤ n then
    let hdr := readHeader hn rawPayload
    if ¬ (hdr.kind = RRKind.request.code ∨ hdr.kind = RRKind.response.code) then
      return none
    if hdr.correlationId = 0 then
      return none
    if hdr.pad0 ≠ 0 ∨ hdr.pad1 ≠ 0 ∨ hdr.pad2 ≠ 0 then
      return none
    neverCompiledOutAssert .rrParseRrHeader (hdr.correlationId ≠ 0)
    return some hdr
  else throw .outOfBounds

/-- The bytes a `memcpy` of `len` bytes from the start of `src` gives the caller, whose buffer has
room for them. -/
def copyOut {n : Nat} (src : Vector UInt8 n) (len : Nat) : Checked (List UInt8) :=
  if len ≤ n then .ok (src.toList.take len) else .error .outOfBounds

/-! ## Sorting what arrives -/

def findPending (r : RequestReplyEngine) (correlationId : UInt64) :
    Checked (Option (Fin maxPendingRequests)) := do
  neverCompiledOutAssert .rrFindPending (correlationId ≠ 0)
  pure (firstSlot? (fun p => p.active && p.correlationId == correlationId) r.pending)

def findFreePending (r : RequestReplyEngine) : Option (Fin maxPendingRequests) :=
  firstSlot? (fun p => !p.active) r.pending

/-- The application's bytes are those of the envelope behind the header. -/
def handleInboundResponse (r : RequestReplyEngine) (correlationId : UInt64)
    (payload : Vector UInt8 msgMaxPayloadBytes) (appLen : UInt32) : Checked RequestReplyEngine := do
  neverCompiledOutAssert .rrHandleInboundResponse (correlationId ≠ 0)
  match ← r.findPending correlationId with
  | none => return r
  | some idx =>
    if r.pending[idx].stashReady then
      return r
    let copyLen : UInt32 := if appLen > UInt32.ofNat appPayloadCap then .ofNat appPayloadCap else appLen
    let stashPayload ← memcpy r.pending[idx].stashPayload 0 payload rrHeaderSize copyLen.toNat
    let slot := { r.pending[idx] with stashPayload, stashLen := copyLen, stashReady := true }
    return { r with pending := r.pending.set idx slot idx.isLt }

/-- The slot after the last one in use of a queue of `maxStashSize` slots. -/
def stashSlot (head : Fin maxStashSize) (count : Nat) : Fin maxStashSize :=
  Circular.slot (Nat.succ_pos 15) head count

theorem stashSlot_lt (head : Fin maxStashSize) (count : Nat) :
    (stashSlot head count).val < maxStashSize := (stashSlot head count).isLt

def handleInboundRequest (r : RequestReplyEngine) (src : NodeId) (correlationId : UInt64)
    (payload : Vector UInt8 msgMaxPayloadBytes) (appLen : UInt32) : Checked RequestReplyEngine := do
  neverCompiledOutAssert .rrHandleInboundRequest (correlationId ≠ 0)
  if r.stashCount ≥ maxStashSize then
    return r
  let slot := stashSlot r.stashHead r.stashCount
  neverCompiledOutAssert .rrHandleInboundRequest (r.requestStash[slot].active = false)
  let copyLen : UInt32 := if appLen > UInt32.ofNat appPayloadCap then .ofNat appPayloadCap else appLen
  let payload ← memcpy r.requestStash[slot].payload 0 payload rrHeaderSize copyLen.toNat
  let request := { correlationId, src, payload, payloadLen := copyLen, active := true }
  return { r with
    requestStash := r.requestStash.set slot request (stashSlot_lt r.stashHead r.stashCount)
    stashCount := r.stashCount + 1 }

/-- The flag says whether the envelope was a request or a response. -/
def dispatchInboundEnvelope (r : RequestReplyEngine) (env : MessageEnvelope) :
    Checked (Bool × RequestReplyEngine) := do
  neverCompiledOutAssert .rrDispatchInboundEnvelope (envelopeIsData env)
  match ← parseRrHeader env.payload env.payloadLength with
  | none => return (false, r)
  | some hdr =>
    let appLen : UInt32 := if env.payloadLength > 12 then env.payloadLength - 12 else 0
    if hdr.kind = RRKind.response.code then
      let r ← r.handleInboundResponse hdr.correlationId env.payload appLen
      return (true, r)
    else
      let r ← r.handleInboundRequest env.sourceId hdr.correlationId env.payload appLen
      return (true, r)

def stashNonRrData (r : RequestReplyEngine) (env : MessageEnvelope) : Checked RequestReplyEngine := do
  neverCompiledOutAssert .rrStashNonRrData (envelopeIsData env)
  if r.nonRrCount ≥ maxStashSize then
    return r
  let r := { r with
    nonRrStash := r.nonRrStash.set (stashSlot r.nonRrHead r.nonRrCount) env
      (stashSlot_lt r.nonRrHead r.nonRrCount)
    nonRrCount := r.nonRrCount + 1 }
  neverCompiledOutAssert .rrStashNonRrData (r.nonRrCount ≤ maxStashSize)
  return r

/-- What one round of `pump_inbound` does with an envelope the engine handed up. -/
def sortInbound (r : RequestReplyEngine) (env : MessageEnvelope) : Checked RequestReplyEngine := do
  if ¬ envelopeIsData env then
    return r
  let (dispatched, r) ← r.dispatchInboundEnvelope env
  if dispatched then
    return r
  r.stashNonRrData env

/-- The transport's answers during the next call of the engine. -/
def nextLink (r : RequestReplyEngine) : Transport := r.links.headD ⟨[], fun _ => .error .errTimeout, []⟩

/-- `m_engine->receive`, without waiting. -/
def receiveFromEngine (r : RequestReplyEngine) (nowUs : UInt64) :
    Checked (Reply × RequestReplyEngine) := do
  let (reply, engine) ← (r.engine.attach r.nextLink).receive 0 nowUs
  pure (reply, { r with engine, links := r.links.tail })

/-- `m_engine->send`. -/
def sendToEngine (r : RequestReplyEngine) (env : MessageEnvelope) (nowUs : UInt64) :
    Checked (Result × RequestReplyEngine) := do
  let ((res, _), engine) ← (r.engine.attach r.nextLink).send env nowUs
  pure (res, { r with engine, links := r.links.tail })

/-- The bounded loop of `pump_inbound`, with the rounds that are left. -/
def pumpInbound.loop (nowUs : UInt64) : Nat → RequestReplyEngine → Checked RequestReplyEngine
  | 0, r => pure r
  | rounds + 1, r => do
    let (reply, r) ← r.receiveFromEngine nowUs
    match reply with
    | .error _ => pure r
    | .ok env =>
      let r ← { r with arrivals := r.arrivals ++ [env] }.sortInbound env
      loop nowUs rounds r

def pumpInbound (r : RequestReplyEngine) (nowUs : UInt64) : Checked RequestReplyEngine :=
  pumpInbound.loop nowUs maxStashSize r

/-! ## Public calls -/

def receiveNonRr (r : RequestReplyEngine) (nowUs : UInt64) : Checked (Reply × RequestReplyEngine) := do
  neverCompiledOutAssert .rrReceiveNonRr (r.nonRrCount ≤ maxStashSize)
  let r ← r.pumpInbound nowUs
  if r.nonRrCount = 0 then
    return (.error .errEmpty, r)
  let env := r.nonRrStash[r.nonRrHead]
  let r := { r with nonRrHead := stashSlot r.nonRrHead 1, nonRrCount := r.nonRrCount - 1 }
  neverCompiledOutAssert .rrReceiveNonRr (r.nonRrCount < maxStashSize)
  return (.ok env, r)

/-- When a request of `timeoutUs` microseconds expires; zero is never, and the sum saturates. -/
def requestExpiry (timeoutUs nowUs : UInt64) : UInt64 :=
  let kMax : UInt64 := 0xFFFFFFFFFFFFFFFF
  if timeoutUs > 0 then
    if timeoutUs > kMax - nowUs then kMax else nowUs + timeoutUs
  else 0

/-- The counter of correlation ids after `cid`; it skips zero. -/
def nextCid (cid : UInt64) : UInt64 := if cid = 0xFFFFFFFFFFFFFFFF then 1 else cid + 1

/-- The envelope around a wire payload; `send` fills in the rest. -/
def wrap (destination : NodeId) (reliabilityClass : ReliabilityClass) (expiryTimeUs : UInt64)
    (wireBuf : Vector UInt8 msgMaxPayloadBytes) (wireLen : UInt32) : Checked MessageEnvelope := do
  let payload ← memcpy envelopeInit.payload 0 wireBuf 0 wireLen.toNat
  pure { envelopeInit with
    messageType := .data
    destinationId := destination
    priority := 0
    reliabilityClass
    expiryTimeUs
    payloadLength := wireLen
    payload }

/-- The answer on success is `correlation_id_out`. -/
def sendRequest (r : RequestReplyEngine) (destination : NodeId) (appPayload : Array UInt8)
    (appPayloadLen : UInt32) (timeoutUs nowUs : UInt64) :
    Checked (Except Result UInt64 × RequestReplyEngine) := do
  match r.findFreePending with
  | none => return (.error .errFull, r)
  | some slot =>
    let cid := r.cidGen
    let r := { r with cidGen := nextCid cid }
    let (wireLen, wireBuf) ← buildWirePayload .request cid appPayload.toVector appPayloadLen
      (Vector.replicate msgMaxPayloadBytes 0) (UInt32.ofNat msgMaxPayloadBytes)
    if wireLen = 0 then
      return (.error .errFull, r)
    let expiryUs := requestExpiry timeoutUs nowUs
    let env ← wrap destination .reliableRetry expiryUs wireBuf wireLen
    let (res, r) ← r.sendToEngine env nowUs
    if res ≠ .ok then
      return (.error res, r)
    let entry := { r.pending[slot] with
      correlationId := cid, expiresUs := expiryUs, active := true, stashLen := 0, stashReady := false }
    let r := { r with
      pending := r.pending.set slot entry slot.isLt, pendingCount := r.pendingCount + 1 }
    neverCompiledOutAssert .rrSendRequest (cid ≠ 0)
    return (.ok cid, r)

/-- The answer on success: the bytes, the source and the correlation id. -/
def receiveRequest (r : RequestReplyEngine) (bufCap : UInt32) (nowUs : UInt64) :
    Checked (Except Result (List UInt8 × NodeId × UInt64) × RequestReplyEngine) := do
  let r ← r.pumpInbound nowUs
  if r.stashCount = 0 then
    return (.error .errEmpty, r)
  let request := r.requestStash[r.stashHead]
  let copyLen := if request.payloadLen > bufCap then bufCap else request.payloadLen
  let bytes ← copyOut request.payload copyLen.toNat
  let r := { r with
    requestStash := r.requestStash.set r.stashHead { request with active := false } r.stashHead.isLt
    stashHead := stashSlot r.stashHead 1
    stashCount := r.stashCount - 1 }
  neverCompiledOutAssert .rrReceiveRequest (request.correlationId ≠ 0)
  neverCompiledOutAssert .rrReceiveRequest (request.src ≠ nodeIdInvalid)
  return (.ok (bytes, request.src, request.correlationId), r)

/-- When a response expires: five seconds from now, saturating. -/
def responseExpiry (nowUs : UInt64) : UInt64 :=
  let kMax : UInt64 := 0xFFFFFFFFFFFFFFFF
  let kRespExpiryUs : UInt64 := 5000000
  if kRespExpiryUs > kMax - nowUs then kMax else nowUs + kRespExpiryUs

def sendResponse (r : RequestReplyEngine) (destination : NodeId) (correlationId : UInt64)
    (appPayload : Array UInt8) (appPayloadLen : UInt32) (nowUs : UInt64) :
    Checked (Result × RequestReplyEngine) := do
  let (wireLen, wireBuf) ← buildWirePayload .response correlationId appPayload.toVector appPayloadLen
    (Vector.replicate msgMaxPayloadBytes 0) (UInt32.ofNat msgMaxPayloadBytes)
  if wireLen = 0 then
    return (.errFull, r)
  let env ← wrap destination .bestEffort (responseExpiry nowUs) wireBuf wireLen
  r.sendToEngine env nowUs

/-- Free a pending slot: the counter drops unless it already is zero. -/
def freePending (r : RequestReplyEngine) (idx : Fin maxPendingRequests) : RequestReplyEngine :=
  { r with
    pending := r.pending.set idx { r.pending[idx] with active := false, stashReady := false } idx.isLt
    pendingCount := if r.pendingCount > 0 then r.pendingCount - 1 else r.pendingCount }

/-- The answer on success: the bytes copied to the caller. -/
def receiveResponse (r : RequestReplyEngine) (correlationId : UInt64) (bufCap : UInt32)
    (nowUs : UInt64) : Checked (Except Result (List UInt8) × RequestReplyEngine) := do
  let r ← r.pumpInbound nowUs
  match ← r.findPending correlationId with
  | none => return (.error .errInvalid, r)
  | some idx =>
    if r.pending[idx].stashReady = false then
      return (.error .errEmpty, r)
    let stashLen := r.pending[idx].stashLen
    let copyLen := if stashLen > bufCap then bufCap else stashLen
    let bytes ← copyOut r.pending[idx].stashPayload copyLen.toNat
    return (.ok bytes, r.freePending idx)

/-- One round of `sweep_timeouts`; the running count is the number freed so far. -/
def sweepTimeouts.round (nowUs : UInt64) (i : Fin maxPendingRequests) (s : RequestReplyEngine × Nat) :
    Checked (RequestReplyEngine × Nat) :=
  if s.1.pending[i].active = true ∧ s.1.pending[i].expiresUs ≠ 0 ∧ nowUs ≥ s.1.pending[i].expiresUs then
    pure (s.1.freePending i, s.2 + 1)
  else
    pure s

def sweepTimeouts (r : RequestReplyEngine) (nowUs : UInt64) : Checked (Nat × RequestReplyEngine) := do
  neverCompiledOutAssert .rrSweepTimeouts (nowUs > 0)
  let (r, freed) ← eachIndex maxPendingRequests (sweepTimeouts.round nowUs) (r, 0)
  neverCompiledOutAssert .rrSweepTimeouts (freed ≤ maxPendingRequests)
  neverCompiledOutAssert .rrSweepTimeouts (r.pendingCount ≤ maxPendingRequests)
  pure (freed, r)

/-! ## The engine as a whole -/

/-- The public calls, and those the application makes of the delivery engine underneath. -/
inductive Call where
  | sendRequest (destination : NodeId) (appPayload : Array UInt8) (appPayloadLen : UInt32)
      (timeoutUs nowUs : UInt64)
  | receiveRequest (bufCap : UInt32) (nowUs : UInt64)
  | sendResponse (destination : NodeId) (correlationId : UInt64) (appPayload : Array UInt8)
      (appPayloadLen : UInt32) (nowUs : UInt64)
  | receiveResponse (correlationId : UInt64) (bufCap : UInt32) (nowUs : UInt64)
  | receiveNonRr (nowUs : UInt64)
  | sweepTimeouts (nowUs : UInt64)
  | engine (call : DeliveryEngine.Call)

/-- What a call answers. -/
inductive Answer where
  | requested (res : Except Result UInt64)
  | request (res : Except Result (List UInt8 × NodeId × UInt64))
  | responded (res : Result)
  | response (res : Except Result (List UInt8))
  | nonRr (reply : Reply)
  | swept (freed : Nat)
  | engine (answer : DeliveryEngine.Answer)

/-- One call, with the transport's answers during the calls of the delivery engine it makes. -/
structure Input where
  call : Call
  links : List Transport

/-- What can be seen of a call: its answer and what the delivery engine handed up during it. -/
structure Observation where
  answer : Answer
  arrivals : List MessageEnvelope

/-- The call itself, on an engine that has its links. -/
def run (call : Call) (r : RequestReplyEngine) : Checked (Answer × RequestReplyEngine) :=
  match call with
  | .sendRequest destination appPayload appPayloadLen timeoutUs nowUs => do
    let (res, r) ← r.sendRequest destination appPayload appPayloadLen timeoutUs nowUs
    pure (.requested res, r)
  | .receiveRequest bufCap nowUs => do
    let (res, r) ← r.receiveRequest bufCap nowUs
    pure (.request res, r)
  | .sendResponse destination correlationId appPayload appPayloadLen nowUs => do
    let (res, r) ← r.sendResponse destination correlationId appPayload appPayloadLen nowUs
    pure (.responded res, r)
  | .receiveResponse correlationId bufCap nowUs => do
    let (res, r) ← r.receiveResponse correlationId bufCap nowUs
    pure (.response res, r)
  | .receiveNonRr nowUs => do
    let (reply, r) ← r.receiveNonRr nowUs
    pure (.nonRr reply, r)
  | .sweepTimeouts nowUs => do
    let (freed, r) ← r.sweepTimeouts nowUs
    pure (.swept freed, r)
  | .engine call => do
    let (answer, engine) ← DeliveryEngine.run call (r.engine.attach r.nextLink)
    pure (.engine answer, { r with engine, links := r.links.tail })

/-- One call as a step of the system. -/
def exec (i : Input) (r : RequestReplyEngine) : Checked (Observation × RequestReplyEngine) := do
  let (answer, r) ← run i.call { r with links := i.links, arrivals := [] }
  pure (⟨answer, r.arrivals⟩, r)

end RequestReplyEngine

end MessageEngine
