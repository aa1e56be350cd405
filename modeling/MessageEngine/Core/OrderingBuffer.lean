import MessageEngine.Core.MessageEnvelope

/-!
# OrderingBuffer

The in-order delivery gate. Every tracked source has a cursor, the sequence number expected
next; a message ahead of the cursor waits in a hold slot shared by all sources. Messages
without a sequence number and control messages pass through.

The cursor moves in three ways: by delivering the expected message, by releasing a hold that
sits at the cursor, and by skipping past a hold that expired.
-/

namespace MessageEngine

open Outcome Table

structure OrderingBuffer.HoldSlot where
  env : MessageEnvelope
  active : Bool
  deriving DecidableEq

structure OrderingBuffer.PeerState where
  src : NodeId
  nextExpectedSeq : UInt32
  active : Bool
  lruStamp : UInt32
  deriving DecidableEq

structure OrderingBuffer where
  hold : Vector OrderingBuffer.HoldSlot orderingHoldCount
  peers : Vector OrderingBuffer.PeerState orderingPeerCount
  lruCounter : UInt32

namespace OrderingBuffer

/-- No source may occupy more than half of the hold slots. -/
abbrev kHoldPerPeerMax : Nat := orderingHoldCount / 2

def init : OrderingBuffer where
  hold := Vector.replicate orderingHoldCount ⟨envelopeInit, false⟩
  peers := Vector.replicate orderingPeerCount ⟨0, 1, false, 0⟩
  lruCounter := 0

/-- The peer entry of `src`; `none` is the not-found index. -/
def findPeer (b : OrderingBuffer) (src : NodeId) : Checked (Option (Fin orderingPeerCount)) := do
  neverCompiledOutAssert .orderingFindPeer (src ≠ 0)
  pure (firstSlot? (fun p => p.active && p.src == src) b.peers)

def countHoldsForPeer (b : OrderingBuffer) (src : NodeId) : Checked Nat := do
  neverCompiledOutAssert .orderingCountHoldsForPeer (src ≠ 0)
  let count := b.hold.countP fun h => h.active && h.env.sourceId == src
  neverCompiledOutAssert .orderingCountHoldsForPeer (count ≤ orderingHoldCount)
  pure count

/-- The scan of `evict_peer_no_holds`: the first active peer that holds nothing. -/
def evictPeerNoHolds.scan (b : OrderingBuffer) :
    List (Fin orderingPeerCount) → Checked (Option (Fin orderingPeerCount))
  | [] => pure none
  | i :: is =>
    if !b.peers[i].active then scan b is
    else do
      let count ← b.countHoldsForPeer b.peers[i].src
      if count = 0 then pure (some i) else scan b is

def evictPeerNoHolds (b : OrderingBuffer) :
    Checked (Option (Fin orderingPeerCount) × OrderingBuffer) := do
  let found ← evictPeerNoHolds.scan b (List.finRange orderingPeerCount)
  match found with
  | some i => pure (some i, { b with peers := b.peers.set i { b.peers[i] with active := false } i.isLt })
  | none => pure (none, b)

def evictLruPeer (b : OrderingBuffer) : Checked (Fin orderingPeerCount × OrderingBuffer) := do
  let (noHoldsIdx, b) ← b.evictPeerNoHolds
  match noHoldsIdx with
  | some i => pure (i, b)
  | none => throw (.assertion .orderingEvictLruPeer)

/-- Enter `src` into slot `i` with a fresh cursor and a fresh use stamp. -/
def enterPeer (b : OrderingBuffer) (i : Fin orderingPeerCount) (src : NodeId) : OrderingBuffer :=
  { b with
    peers := b.peers.set i ⟨src, 1, true, b.lruCounter + 1⟩ i.isLt
    lruCounter := b.lruCounter + 1 }

def getOrCreatePeer (b : OrderingBuffer) (src : NodeId) :
    Checked (Fin orderingPeerCount × OrderingBuffer) := do
  let found ← b.findPeer src
  match found with
  | some i =>
    pure (i, { b with
      peers := b.peers.set i { b.peers[i] with lruStamp := b.lruCounter + 1 } i.isLt
      lruCounter := b.lruCounter + 1 })
  | none =>
    match firstSlot? (fun p => !p.active) b.peers with
    | some i => pure (i, b.enterPeer i src)
    | none =>
      let (evicted, b) ← b.evictLruPeer
      pure (evicted, b.enterPeer evicted src)

def findFreeHold (b : OrderingBuffer) : Option (Fin orderingHoldCount) :=
  firstSlot? (fun h => !h.active) b.hold

def findHeld (b : OrderingBuffer) (src : NodeId) (seq : UInt32) :
    Checked (Option (Fin orderingHoldCount)) := do
  neverCompiledOutAssert .orderingFindHeld (src ≠ 0)
  pure (firstSlot? (fun h => h.active && (h.env.sourceId == src && h.env.sequenceNum == seq)) b.hold)

/-- Move the cursor of slot `i` by one; zero is reserved, so the wrap goes to one. -/
def advanceNextExpected (b : OrderingBuffer) (i : Fin orderingPeerCount) :
    Checked OrderingBuffer := do
  neverCompiledOutAssert .orderingAdvanceNextExpected b.peers[i].active
  let next := b.peers[i].nextExpectedSeq + 1
  let next := if next = 0 then 1 else next
  pure { b with peers := b.peers.set i { b.peers[i] with nextExpectedSeq := next } i.isLt }

def ingest (b : OrderingBuffer) (msg : MessageEnvelope) (nowUs : UInt64) :
    Checked (Reply × OrderingBuffer) := do
  neverCompiledOutAssert .orderingIngest (nowUs > 0)
  if envelopeIsControl msg then
    pure (.ok msg, b)
  else if msg.sequenceNum = 0 then
    pure (.ok msg, b)
  else
    let (peerIdx, b) ← b.getOrCreatePeer msg.sourceId
    let expected := b.peers[peerIdx].nextExpectedSeq
    if msg.sequenceNum < expected then
      pure (.error .errAgain, b)
    else if msg.sequenceNum = expected then
      let b ← b.advanceNextExpected peerIdx
      pure (.ok msg, b)
    else
      let existingHold ← b.findHeld msg.sourceId msg.sequenceNum
      match existingHold with
      | some _ => pure (.error .errAgain, b)
      | none =>
        let held ← b.countHoldsForPeer msg.sourceId
        if held ≥ kHoldPerPeerMax then
          pure (.error .errFull, b)
        else
          match b.findFreeHold with
          | none => pure (.error .errFull, b)
          | some i => pure (.error .errAgain, { b with hold := b.hold.set i ⟨msg, true⟩ i.isLt })

/-- Release the hold at the cursor of `src`; `none` is `ERR_AGAIN`. -/
def tryReleaseNext (b : OrderingBuffer) (src : NodeId) :
    Checked (Option MessageEnvelope × OrderingBuffer) := do
  neverCompiledOutAssert .orderingTryReleaseNext (src ≠ 0)
  let found ← b.findPeer src
  match found with
  | none => pure (none, b)
  | some peerIdx =>
    let held ← b.findHeld src b.peers[peerIdx].nextExpectedSeq
    match held with
    | none => pure (none, b)
    | some i =>
      let out := b.hold[i].env
      let b := { b with hold := b.hold.set i { b.hold[i] with active := false } i.isLt }
      let b ← b.advanceNextExpected peerIdx
      pure (some out, b)

def resetPeer (b : OrderingBuffer) (src : NodeId) : Checked OrderingBuffer := do
  neverCompiledOutAssert .orderingResetPeer (src ≠ 0)
  let found ← b.findPeer src
  match found with
  | none => pure b
  | some peerIdx =>
    pure { b with
      hold := b.hold.map fun h =>
        if h.active ∧ h.env.sourceId = src then { h with active := false } else h
      peers := b.peers.set peerIdx { b.peers[peerIdx] with nextExpectedSeq := 1 } peerIdx.isLt }

/-- Move the cursor of `src` forward to `upToSeq` and free the holds it passes. -/
def advanceSequence (b : OrderingBuffer) (src : NodeId) (upToSeq : UInt32) :
    Checked OrderingBuffer := do
  neverCompiledOutAssert .orderingAdvanceSequence (src ≠ 0)
  let found ← b.findPeer src
  match found with
  | none => pure b
  | some peerIdx =>
    let b :=
      if upToSeq > b.peers[peerIdx].nextExpectedSeq then
        { b with
          peers := b.peers.set peerIdx { b.peers[peerIdx] with nextExpectedSeq := upToSeq } peerIdx.isLt
          hold := b.hold.map fun h =>
            if h.active ∧ h.env.sourceId = src ∧ h.env.sequenceNum < upToSeq then
              { h with active := false }
            else h }
      else b
    neverCompiledOutAssert .orderingAdvanceSequence (b.peers[peerIdx].nextExpectedSeq ≥ upToSeq)
    pure b

def seqNextGuarded (seq : UInt32) : Checked UInt32 := do
  neverCompiledOutAssert .orderingSeqNextGuarded (seq ≠ 0)
  let next : UInt32 := if seq < 0xFFFFFFFF then seq + 1 else 1
  neverCompiledOutAssert .orderingSeqNextGuarded (next ≠ 0)
  pure next

/-- The state of the expiry sweep: the buffer, the envelopes copied out, the number freed. -/
structure Sweep where
  buffer : OrderingBuffer
  out : List MessageEnvelope
  freed : Nat

/-- One round of the sweep: an expired hold is copied out, skipped by the cursor and freed. -/
def sweepHold (nowUs : UInt64) (outCap : Nat) (i : Fin orderingHoldCount) (s : Sweep) :
    Checked Sweep :=
  if s.buffer.hold[i].active ∧ timestampExpired s.buffer.hold[i].env.expiryTimeUs nowUs then do
    let env := s.buffer.hold[i].env
    let next ← seqNextGuarded env.sequenceNum
    let b ← s.buffer.advanceSequence env.sourceId next
    pure { buffer := { b with hold := b.hold.set i { b.hold[i] with active := false } i.isLt }
           out := if s.freed < outCap then s.out ++ [env] else s.out
           freed := s.freed + 1 }
  else
    pure s

def sweepExpiredHolds (b : OrderingBuffer) (nowUs : UInt64) (outCap : Nat) : Checked Sweep := do
  neverCompiledOutAssert .orderingSweepExpiredHolds (nowUs > 0)
  let s ← eachIndex orderingHoldCount (sweepHold nowUs outCap) ⟨b, [], 0⟩
  neverCompiledOutAssert .orderingSweepExpiredHolds (s.freed ≤ orderingHoldCount)
  pure s

end OrderingBuffer

end MessageEngine
