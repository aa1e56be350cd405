import MessageEngine.Core.MessageEnvelope

/-!
# ReassemblyBuffer

One slot for each partly received message, found by its `(source_id, message_id)` pair. A slot
keeps the header of the first fragment that arrived, a bitmask of the fragment indices seen and
the number of payload bytes received; each fragment's bytes go to the place its index names.
-/

namespace MessageEngine

open Outcome Table

structure ReassemblyBuffer.ReassemblySlot where
  messageId : UInt64
  sourceId : NodeId
  buf : Vector UInt8 msgMaxPayloadBytes
  receivedMask : UInt32
  receivedBytes : Nat
  expectedCount : UInt8
  totalLength : UInt16
  expiryUs : UInt64
  openTimeUs : UInt64
  header : MessageEnvelope
  active : Bool
  deriving DecidableEq

structure ReassemblyBuffer where
  slots : Vector ReassemblyBuffer.ReassemblySlot reassemblySlotCount

namespace ReassemblyBuffer

/-- No source may keep more than half of the slots open. -/
abbrev kReasmPerSrcMax : Nat := reassemblySlotCount / 2

def init : ReassemblyBuffer where
  slots := Vector.replicate reassemblySlotCount
    { messageId := 0, sourceId := 0, buf := Vector.replicate msgMaxPayloadBytes 0, receivedMask := 0,
      receivedBytes := 0, expectedCount := 0, totalLength := 0, expiryUs := 0, openTimeUs := 0,
      header := envelopeInit, active := false }

/-- The open slot of the pair `(sourceId, messageId)`; `none` is the not-found index. -/
def findSlot (b : ReassemblyBuffer) (sourceId : NodeId) (messageId : UInt64) :
    Checked (Option (Fin reassemblySlotCount)) := do
  neverCompiledOutAssert .reassemblyFindSlot (sourceId ≠ 0)
  pure (firstSlot? (fun s => s.active && (s.sourceId == sourceId && s.messageId == messageId)) b.slots)

def findFreeSlot (b : ReassemblyBuffer) : Option (Fin reassemblySlotCount) :=
  firstSlot? (fun s => !s.active) b.slots

def countOpenSlotsForSrc (b : ReassemblyBuffer) (src : NodeId) : Checked Nat := do
  neverCompiledOutAssert .reassemblyCountOpenSlotsForSrc (src ≠ 0)
  let count := b.slots.countP fun s => s.active && s.sourceId == src
  neverCompiledOutAssert .reassemblyCountOpenSlotsForSrc (count ≤ reassemblySlotCount)
  pure count

def openSlot (b : ReassemblyBuffer) (i : Fin reassemblySlotCount) (frag : MessageEnvelope)
    (nowUs : UInt64) : Checked ReassemblyBuffer := do
  neverCompiledOutAssert .reassemblyOpenSlot (¬ b.slots[i].active)
  neverCompiledOutAssert .reassemblyOpenSlot (frag.totalPayloadLength.toNat ≤ msgMaxPayloadBytes)
  pure { b with
    slots := b.slots.set i
      { messageId := frag.messageId, sourceId := frag.sourceId
        buf := Vector.replicate msgMaxPayloadBytes 0
        receivedMask := 0, receivedBytes := 0, expectedCount := frag.fragmentCount
        totalLength := frag.totalPayloadLength, expiryUs := frag.expiryTimeUs, openTimeUs := nowUs
        header := frag, active := true } i.isLt }

def validateFragment (b : ReassemblyBuffer) (i : Fin reassemblySlotCount) (frag : MessageEnvelope) :
    Checked Result := do
  neverCompiledOutAssert .reassemblyValidateFragment b.slots[i].active
  if frag.fragmentCount ≠ b.slots[i].expectedCount then
    pure .errInvalid
  else if frag.totalPayloadLength ≠ b.slots[i].totalLength then
    pure .errInvalid
  else
    pure .ok

/-- The bit of the received mask that stands for fragment `index`. -/
def fragmentBit (index : UInt8) : UInt32 := 1 <<< index.toUInt32

/-- Place a fragment's payload and mark it received. On failure the slot keeps the bytes that
were already copied; the caller frees it. -/
def recordFragment (b : ReassemblyBuffer) (i : Fin reassemblySlotCount) (frag : MessageEnvelope) :
    Checked (Result × ReassemblyBuffer) := do
  neverCompiledOutAssert .reassemblyRecordFragment (frag.fragmentIndex.toNat < fragMaxCount)
  let byteOffset := frag.fragmentIndex.toNat * fragMaxPayloadBytes
  if byteOffset > msgMaxPayloadBytes then
    pure (.errInvalid, b)
  else if frag.payloadLength.toNat > 0 ∧ frag.payloadLength.toNat > msgMaxPayloadBytes - byteOffset then
    pure (.errInvalid, b)
  else
    let buf ← if frag.payloadLength.toNat > 0 then
        memcpy b.slots[i].buf byteOffset frag.payload 0 frag.payloadLength.toNat
      else pure b.slots[i].buf
    let slot := { b.slots[i] with buf }
    if frag.payloadLength.toNat > msgMaxPayloadBytes - slot.receivedBytes then
      pure (.errInvalid, { b with slots := b.slots.set i slot i.isLt })
    else
      pure (.ok, { b with
        slots := b.slots.set i { slot with
          receivedBytes := slot.receivedBytes + frag.payloadLength.toNat
          receivedMask := slot.receivedMask ||| fragmentBit frag.fragmentIndex } i.isLt })

def isComplete (b : ReassemblyBuffer) (i : Fin reassemblySlotCount) : Checked Bool := do
  neverCompiledOutAssert .reassemblyIsComplete b.slots[i].active
  let cnt := b.slots[i].expectedCount
  neverCompiledOutAssert .reassemblyIsComplete (1 ≤ cnt ∧ cnt.toNat ≤ fragMaxCount)
  let expectedMask : UInt32 := (1 <<< cnt.toUInt32) - 1
  pure (b.slots[i].receivedMask &&& expectedMask == expectedMask)

/-- Free a slot the way the assembly paths do: the key and the bytes stay. -/
def freeSlot (b : ReassemblyBuffer) (i : Fin reassemblySlotCount) : ReassemblyBuffer :=
  { b with
    slots := b.slots.set i { b.slots[i] with
      active := false, receivedMask := 0, expectedCount := 0, receivedBytes := 0 } i.isLt }

def assembleAndFree (b : ReassemblyBuffer) (i : Fin reassemblySlotCount) :
    Checked (Reply × ReassemblyBuffer) := do
  neverCompiledOutAssert .reassemblyAssembleAndFree b.slots[i].active
  let slot := b.slots[i]
  if slot.receivedBytes ≠ slot.totalLength.toNat then
    pure (.error .errInvalid, b.freeSlot i)
  else
    let payloadLength := slot.totalLength.toUInt32
    let payload ← if payloadLength.toNat > 0 then
        memcpy slot.header.payload 0 slot.buf 0 payloadLength.toNat
      else pure slot.header.payload
    pure (.ok { slot.header with
      payloadLength, fragmentIndex := 0, fragmentCount := 1
      totalPayloadLength := slot.totalLength, payload }, b.freeSlot i)

def validateMetadata (frag : MessageEnvelope) : Checked Result := do
  neverCompiledOutAssert .reassemblyValidateMetadata (frag.sourceId ≠ 0)
  if frag.fragmentIndex ≥ (if frag.fragmentCount = 0 then 1 else frag.fragmentCount) then
    pure .errInvalid
  else if frag.fragmentCount.toNat > fragMaxCount then
    pure .errInvalid
  else if frag.totalPayloadLength.toNat > msgMaxPayloadBytes then
    pure .errInvalid
  else
    pure .ok

def findOrOpenSlot (b : ReassemblyBuffer) (frag : MessageEnvelope) (nowUs : UInt64) :
    Checked (Except Result (Fin reassemblySlotCount) × ReassemblyBuffer) := do
  neverCompiledOutAssert .reassemblyFindOrOpenSlot (frag.sourceId ≠ 0)
  let found ← b.findSlot frag.sourceId frag.messageId
  match found with
  | none =>
    let count ← b.countOpenSlotsForSrc frag.sourceId
    if count ≥ kReasmPerSrcMax then
      pure (.error .errFull, b)
    else
      match b.findFreeSlot with
      | none => pure (.error .errFull, b)
      | some i =>
        let b ← b.openSlot i frag nowUs
        pure (.ok i, b)
  | some i =>
    let vr ← b.validateFragment i frag
    if vr ≠ .ok then
      pure (.error vr, b)
    else
      pure (.ok i, b)

def ingestMultifrag (b : ReassemblyBuffer) (frag : MessageEnvelope) (nowUs : UInt64) :
    Checked (Reply × ReassemblyBuffer) := do
  neverCompiledOutAssert .reassemblyIngestMultifrag (frag.fragmentCount > 1)
  let (slotRes, b) ← b.findOrOpenSlot frag nowUs
  match slotRes with
  | .error r => pure (.error r, b)
  | .ok i =>
    if b.slots[i].receivedMask &&& fragmentBit frag.fragmentIndex ≠ 0 then
      pure (.error .errAgain, b)
    else
      let (recR, b) ← b.recordFragment i frag
      if recR ≠ .ok then
        pure (.error recR, b.freeSlot i)
      else
        let complete ← b.isComplete i
        if !complete then
          pure (.error .errAgain, b)
        else
          let (asmR, b) ← b.assembleAndFree i
          match asmR with
          | .error r => pure (.error r, b)
          | .ok logicalOut =>
            neverCompiledOutAssert .reassemblyIngestMultifrag
              (logicalOut.payloadLength.toNat ≤ msgMaxPayloadBytes)
            pure (.ok logicalOut, b)

def ingest (b : ReassemblyBuffer) (frag : MessageEnvelope) (nowUs : UInt64) :
    Checked (Reply × ReassemblyBuffer) := do
  neverCompiledOutAssert .reassemblyIngest (frag.sourceId ≠ 0)
  let metaRes ← validateMetadata frag
  if metaRes ≠ .ok then
    pure (.error metaRes, b)
  else if frag.fragmentCount ≤ 1 then
    pure (.ok frag, b)
  else
    b.ingestMultifrag frag nowUs

/-- Free the slots that have been open for at least the threshold; zero switches the sweep off. -/
def sweepStale (b : ReassemblyBuffer) (nowUs staleThresholdUs : UInt64) : Nat × ReassemblyBuffer :=
  let stale (s : ReassemblySlot) : Bool :=
    s.active && (decide (s.openTimeUs ≤ nowUs) && decide (staleThresholdUs ≤ nowUs - s.openTimeUs))
  if staleThresholdUs = 0 then
    (0, b)
  else
    (b.slots.countP stale,
      { b with
        slots := b.slots.map fun s =>
          if stale s then
            { s with active := false, receivedMask := 0, expectedCount := 0, openTimeUs := 0 }
          else s })

def sweepExpired (b : ReassemblyBuffer) (nowUs : UInt64) : Checked ReassemblyBuffer := do
  neverCompiledOutAssert .reassemblySweepExpired (nowUs > 0)
  pure { b with
    slots := b.slots.map fun s =>
      if s.active ∧ s.expiryUs ≠ 0 ∧ s.expiryUs ≤ nowUs then
        { s with active := false, receivedMask := 0, expectedCount := 0 }
      else s }

end ReassemblyBuffer

end MessageEngine
