import MessageEngine.Core.MessageEnvelope
import MessageEngine.Lib.Bytes

/-!
# Serializer

The wire format: a header of fifty-two bytes, big-endian throughout, then the payload. A buffer
is the list of bytes it holds; every load and store is checked against it, so a load past the
bytes received is a fault of the model and not a made-up value.
-/

namespace MessageEngine

open Outcome

abbrev wireHeaderSize : Nat := 52

/-- `PROTO_VERSION`. -/
abbrev protoVersion : UInt8 := 2

/-- `PROTO_MAGIC`, the letters `ME`. -/
abbrev protoMagic : UInt16 := 0x4D45

namespace MessageType

/-- The byte a message type is written as. -/
def toByte : MessageType → UInt8
  | .data => 0
  | .ack => 1
  | .nak => 2
  | .heartbeat => 3
  | .hello => 4
  | .invalid => 255

/-- The type a byte is cast to; the caller has checked the range. -/
def ofByte (raw : UInt8) : MessageType :=
  if raw = 0 then .data
  else if raw = 1 then .ack
  else if raw = 2 then .nak
  else if raw = 3 then .heartbeat
  else if raw = 4 then .hello
  else .invalid

end MessageType

namespace ReliabilityClass

def toByte : ReliabilityClass → UInt8
  | .bestEffort => 0
  | .reliableAck => 1
  | .reliableRetry => 2

def ofByte (raw : UInt8) : ReliabilityClass :=
  if raw = 0 then .bestEffort
  else if raw = 1 then .reliableAck
  else .reliableRetry

end ReliabilityClass

namespace Serializer

/-! ## Checked stores and loads -/

/-- One store of a byte. -/
def store (buf : List UInt8) (offset : Nat) (val : UInt8) : Checked (List UInt8) :=
  if offset < buf.length then .ok (buf.set offset val) else .error .outOfBounds

/-- One load of a byte. -/
def load (buf : List UInt8) (offset : Nat) : Checked UInt8 :=
  match buf[offset]? with
  | some b => .ok b
  | none => .error .outOfBounds

def writeU8 (buf : List UInt8) (offset : Nat) (val : UInt8) : Checked (List UInt8 × Nat) := do
  neverCompiledOutAssert .serializerWrite (offset ≤ 0xFFFFFFFF - 1)
  let buf ← store buf offset val
  pure (buf, offset + 1)

def writeU16 (buf : List UInt8) (offset : Nat) (val : UInt16) : Checked (List UInt8 × Nat) := do
  neverCompiledOutAssert .serializerWrite (offset ≤ 0xFFFFFFFF - 2)
  let buf ← store buf (offset + 0) ((val >>> 8) &&& 0xFF).toUInt8
  let buf ← store buf (offset + 1) ((val >>> 0) &&& 0xFF).toUInt8
  pure (buf, offset + 2)

def writeU32 (buf : List UInt8) (offset : Nat) (val : UInt32) : Checked (List UInt8 × Nat) := do
  neverCompiledOutAssert .serializerWrite (offset ≤ 0xFFFFFFFF - 4)
  let buf ← store buf (offset + 0) ((val >>> 24) &&& 0xFF).toUInt8
  let buf ← store buf (offset + 1) ((val >>> 16) &&& 0xFF).toUInt8
  let buf ← store buf (offset + 2) ((val >>> 8) &&& 0xFF).toUInt8
  let buf ← store buf (offset + 3) ((val >>> 0) &&& 0xFF).toUInt8
  pure (buf, offset + 4)

def writeU64 (buf : List UInt8) (offset : Nat) (val : UInt64) : Checked (List UInt8 × Nat) := do
  neverCompiledOutAssert .serializerWrite (offset ≤ 0xFFFFFFFF - 8)
  let buf ← store buf (offset + 0) ((val >>> 56) &&& 0xFF).toUInt8
  let buf ← store buf (offset + 1) ((val >>> 48) &&& 0xFF).toUInt8
  let buf ← store buf (offset + 2) ((val >>> 40) &&& 0xFF).toUInt8
  let buf ← store buf (offset + 3) ((val >>> 32) &&& 0xFF).toUInt8
  let buf ← store buf (offset + 4) ((val >>> 24) &&& 0xFF).toUInt8
  let buf ← store buf (offset + 5) ((val >>> 16) &&& 0xFF).toUInt8
  let buf ← store buf (offset + 6) ((val >>> 8) &&& 0xFF).toUInt8
  let buf ← store buf (offset + 7) ((val >>> 0) &&& 0xFF).toUInt8
  pure (buf, offset + 8)

def readU8 (buf : List UInt8) (offset : Nat) : Checked UInt8 := do
  neverCompiledOutAssert .serializerRead (offset ≤ 0xFFFFFFFF - 1)
  load buf offset

def readU16 (buf : List UInt8) (offset : Nat) : Checked UInt16 := do
  neverCompiledOutAssert .serializerRead (offset ≤ 0xFFFFFFFF - 2)
  let b0 ← load buf (offset + 0)
  let b1 ← load buf (offset + 1)
  pure ((b0.toUInt16 <<< 8) ||| b1.toUInt16)

def readU32 (buf : List UInt8) (offset : Nat) : Checked UInt32 := do
  neverCompiledOutAssert .serializerRead (offset ≤ 0xFFFFFFFF - 4)
  let b0 ← load buf (offset + 0)
  let b1 ← load buf (offset + 1)
  let b2 ← load buf (offset + 2)
  let b3 ← load buf (offset + 3)
  pure ((0 : UInt32) ||| (b0.toUInt32 <<< 24) ||| (b1.toUInt32 <<< 16) ||| (b2.toUInt32 <<< 8) |||
    (b3.toUInt32 <<< 0))

def readU64 (buf : List UInt8) (offset : Nat) : Checked UInt64 := do
  neverCompiledOutAssert .serializerRead (offset ≤ 0xFFFFFFFF - 8)
  let b0 ← load buf (offset + 0)
  let b1 ← load buf (offset + 1)
  let b2 ← load buf (offset + 2)
  let b3 ← load buf (offset + 3)
  let b4 ← load buf (offset + 4)
  let b5 ← load buf (offset + 5)
  let b6 ← load buf (offset + 6)
  let b7 ← load buf (offset + 7)
  pure ((0 : UInt64) ||| (b0.toUInt64 <<< 56) ||| (b1.toUInt64 <<< 48) ||| (b2.toUInt64 <<< 40) |||
    (b3.toUInt64 <<< 32) ||| (b4.toUInt64 <<< 24) ||| (b5.toUInt64 <<< 16) |||
    (b6.toUInt64 <<< 8) ||| (b7.toUInt64 <<< 0))

/-- `memcpy` of the first `len` payload bytes into the buffer from `offset`. -/
def storePayload (buf : List UInt8) (offset : Nat) (payload : Vector UInt8 msgMaxPayloadBytes)
    (len : Nat) : Checked (List UInt8) :=
  if len ≤ msgMaxPayloadBytes ∧ offset + len ≤ buf.length then
    .ok (Bytes.overwrite buf offset (payload.toList.take len))
  else .error .outOfBounds

/-- `memcpy` of `len` buffer bytes from `offset` into a payload. -/
def loadPayload (payload : Vector UInt8 msgMaxPayloadBytes) (buf : List UInt8) (offset len : Nat) :
    Checked (Vector UInt8 msgMaxPayloadBytes) :=
  if h : len ≤ msgMaxPayloadBytes ∧ offset + len ≤ buf.length then
    .ok (Bytes.blit payload 0 (Bytes.slice buf offset len)
      (by rw [Bytes.length_slice h.2, Nat.zero_add]; exact h.1))
  else .error .outOfBounds

/-! ## Serialization -/

/-- Write `env` to the front of `buf`. Success answers the buffer and the number of bytes
written; a refusal answers its result code. -/
def serialize (env : MessageEnvelope) (buf : List UInt8) (bufLen : UInt32) :
    Checked (Except Result (List UInt8 × Nat)) :=
  if ¬ envelopeValid env then
    pure (.error .errInvalid)
  else if env.payloadLength.toNat > 0xFFFFFFFF - wireHeaderSize then
    pure (.error .errInvalid)
  else if bufLen.toNat < wireHeaderSize + env.payloadLength.toNat then
    pure (.error .errInvalid)
  else do
    let requiredLen := wireHeaderSize + env.payloadLength.toNat
    let offset := 0
    let (buf, offset) ← writeU8 buf offset env.messageType.toByte
    let (buf, offset) ← writeU8 buf offset env.reliabilityClass.toByte
    let (buf, offset) ← writeU8 buf offset env.priority
    let (buf, offset) ← writeU8 buf offset protoVersion
    let (buf, offset) ← writeU64 buf offset env.messageId
    let (buf, offset) ← writeU64 buf offset env.timestampUs
    let (buf, offset) ← writeU32 buf offset env.sourceId
    let (buf, offset) ← writeU32 buf offset env.destinationId
    let (buf, offset) ← writeU64 buf offset env.expiryTimeUs
    let (buf, offset) ← writeU32 buf offset env.payloadLength
    let (buf, offset) ← writeU32 buf offset (protoMagic.toUInt32 <<< 16)
    -- A fragment count of zero is not legal on the wire and goes out as one.
    let wireFragCount := if env.fragmentCount = 0 then 1 else env.fragmentCount
    if env.payloadLength.toNat > 0xFFFF then
      pure (.error .errInvalid)
    else
      let wireTotalPl := if env.totalPayloadLength = 0 then env.payloadLength.toUInt16
        else env.totalPayloadLength
      let (buf, offset) ← writeU32 buf offset env.sequenceNum
      let (buf, offset) ← writeU8 buf offset env.fragmentIndex
      let (buf, offset) ← writeU8 buf offset wireFragCount
      let (buf, offset) ← writeU16 buf offset wireTotalPl
      neverCompiledOutAssert .serializerSerialize (offset = wireHeaderSize)
      neverCompiledOutAssert .serializerSerialize
        (offset + env.payloadLength.toNat ≤ bufLen.toNat)
      let buf ← if env.payloadLength.toNat > 0 then
          storePayload buf offset env.payload env.payloadLength.toNat
        else pure buf
      pure (.ok (buf, requiredLen))

/-! ## Deserialization -/

def messageTypeInRange (raw : UInt8) : Bool := decide (raw ≤ 4)

def reliabilityClassInRange (raw : UInt8) : Bool := decide (raw ≤ 2)

def fragmentHeaderValid (env : MessageEnvelope) : Bool :=
  if env.fragmentCount = 0 then false
  else if env.fragmentIndex ≥ env.fragmentCount then false
  else if env.fragmentCount.toNat > fragMaxCount then false
  else decide (env.totalPayloadLength.toNat ≤ msgMaxPayloadBytes)

def payloadLengthValid (payloadLength bufLen : UInt32) : Checked Bool := do
  neverCompiledOutAssert .serializerPayloadLengthValid (bufLen.toNat ≥ wireHeaderSize)
  if payloadLength.toNat > msgMaxPayloadBytes then
    pure false
  else if payloadLength.toNat > 0xFFFFFFFF - wireHeaderSize then
    pure false
  else
    pure (decide (bufLen.toNat ≥ wireHeaderSize + payloadLength.toNat))

/-- Read an envelope from the front of `buf`. -/
def deserialize (buf : List UInt8) (bufLen : UInt32) : Checked Reply :=
  if bufLen.toNat < wireHeaderSize then
    pure (.error .errInvalid)
  else do
    let env := envelopeInit
    let offset := 0
    let mtRaw ← readU8 buf offset
    let offset := offset + 1
    if !messageTypeInRange mtRaw then return .error .errInvalid
    let rcRaw ← readU8 buf offset
    let offset := offset + 1
    if !reliabilityClassInRange rcRaw then return .error .errInvalid
    let priority ← readU8 buf offset
    let offset := offset + 1
    let protoVer ← readU8 buf offset
    let offset := offset + 1
    if protoVer ≠ protoVersion then return .error .errInvalid
    let messageId ← readU64 buf offset
    let offset := offset + 8
    let timestampUs ← readU64 buf offset
    let offset := offset + 8
    let sourceId ← readU32 buf offset
    let offset := offset + 4
    if sourceId = nodeIdInvalid then return .error .errInvalid
    let destinationId ← readU32 buf offset
    let offset := offset + 4
    let expiryTimeUs ← readU64 buf offset
    let offset := offset + 8
    let payloadLength ← readU32 buf offset
    let offset := offset + 4
    let magicWord ← readU32 buf offset
    let offset := offset + 4
    if magicWord ≠ protoMagic.toUInt32 <<< 16 then return .error .errInvalid
    let sequenceNum ← readU32 buf offset
    let offset := offset + 4
    let fragmentIndex ← readU8 buf offset
    let offset := offset + 1
    let fragmentCount ← readU8 buf offset
    let offset := offset + 1
    let totalPayloadLength ← readU16 buf offset
    let offset := offset + 2
    let env := { env with
      messageType := .ofByte mtRaw, reliabilityClass := .ofByte rcRaw, priority, messageId
      timestampUs, sourceId, destinationId, expiryTimeUs, payloadLength, sequenceNum
      fragmentIndex, fragmentCount, totalPayloadLength }
    if !fragmentHeaderValid env then return .error .errInvalid
    neverCompiledOutAssert .serializerDeserialize (offset = wireHeaderSize)
    let fits ← payloadLengthValid payloadLength bufLen
    if !fits then return .error .errInvalid
    let payload ← if payloadLength.toNat > 0 then
        loadPayload env.payload buf offset payloadLength.toNat
      else pure env.payload
    let env := { env with payload }
    neverCompiledOutAssert .serializerDeserialize (envelopeValid env)
    return .ok env

end Serializer

end MessageEngine
