import MessageEngine.Core.MessageEnvelope
import MessageEngine.Lib.Compact

/-!
# ImpairmentEngine

The simulated faults of a channel: messages on the way out are dropped, delayed and duplicated,
messages on the way in are dropped and reordered, and whole partitions come and go. Random decisions
come from a generator of 64-bit states.

A probability is a rational number; the program's are doubles, which are rational. A drawn double is
`toDouble raw / 2 ^ 64`: the program divides two doubles, and the divisor is a power of two.
-/

namespace MessageEngine

open Outcome Table

/-! ## The generator -/

structure PrngEngine where
  state : UInt64

namespace PrngEngine

def seed (s : UInt64) : PrngEngine := ⟨if s = 0 then 1 else s⟩

def next (p : PrngEngine) : Checked (UInt64 × PrngEngine) := do
  neverCompiledOutAssert .prngNext (p.state ≠ 0)
  let state := p.state
  let state := state ^^^ (state <<< 13)
  let state := state ^^^ (state >>> 7)
  let state := state ^^^ (state <<< 17)
  neverCompiledOutAssert .prngNext (state ≠ 0)
  pure (state, ⟨state⟩)

/-- The double nearest to a 64-bit number, the even one of two: 53 binary digits are kept. -/
def toDouble (raw : UInt64) : Nat :=
  let unit := 2 ^ (raw.toNat.log2 - 52)
  let whole := raw.toNat / unit
  let rest := raw.toNat % unit
  if 2 * rest > unit ∨ (2 * rest = unit ∧ whole % 2 = 1) then (whole + 1) * unit else whole * unit

def nextDouble (p : PrngEngine) : Checked (Rat × PrngEngine) := do
  neverCompiledOutAssert .prngNextDouble (p.state ≠ 0)
  let (raw, p) ← p.next
  let result : Rat := (toDouble raw : Rat) / (2 ^ 64 : Nat)
  neverCompiledOutAssert .prngNextDouble (result ≥ 0 ∧ result < 1)
  pure (result, p)

/-- `range64` of `next_range`. -/
def nextRange.range64 (lo hi : UInt32) : UInt64 := hi.toUInt64 - lo.toUInt64 + 1

/-- `threshold` of `next_range`: the raw values below it are rejected. -/
def nextRange.threshold (range64 : UInt64) : UInt64 := (0xFFFFFFFFFFFFFFFF - range64 + 1) % range64

/-- The draws of `next_range`, with the attempts that are left. -/
def nextRange.draw (threshold : UInt64) : Nat → UInt64 → PrngEngine → Checked (UInt64 × PrngEngine)
  | 0, raw, p => pure (raw, p)
  | attempts + 1, _, p => do
    let (raw, p) ← p.next
    if raw ≥ threshold then pure (raw, p) else nextRange.draw threshold attempts raw p

def nextRange (p : PrngEngine) (lo hi : UInt32) : Checked (UInt32 × PrngEngine) := do
  neverCompiledOutAssert .prngNextRange (p.state ≠ 0)
  neverCompiledOutAssert .prngNextRange (hi ≥ lo)
  let range64 := nextRange.range64 lo hi
  neverCompiledOutAssert .prngNextRange (range64 > 0)
  let (raw, p) ← nextRange.draw (nextRange.threshold range64) 64 0 p
  let offset := (raw % range64).toUInt32
  let result := lo + offset
  neverCompiledOutAssert .prngNextRange (result ≥ lo ∧ result ≤ hi)
  pure (result, p)

end PrngEngine

/-! ## The engine -/

structure ImpairmentConfig where
  enabled : Bool
  fixedLatencyMs : UInt32
  jitterMeanMs : UInt32
  jitterVarianceMs : UInt32
  lossProbability : Rat
  duplicationProbability : Rat
  reorderEnabled : Bool
  reorderWindowSize : UInt32
  partitionEnabled : Bool
  partitionDurationMs : UInt32
  partitionGapMs : UInt32
  prngSeed : UInt64

/-- No impairments. -/
def impairmentConfigDefault : ImpairmentConfig where
  enabled := false
  fixedLatencyMs := 0
  jitterMeanMs := 0
  jitterVarianceMs := 0
  lossProbability := 0
  duplicationProbability := 0
  reorderEnabled := false
  reorderWindowSize := 0
  partitionEnabled := false
  partitionDurationMs := 0
  partitionGapMs := 0
  prngSeed := 0

structure DelayEntry where
  env : MessageEnvelope
  releaseUs : UInt64
  active : Bool

structure ImpairmentStats where
  lossDrops : UInt32
  duplicateInjects : UInt32
  partitionDrops : UInt32
  reorderBuffered : UInt32
  deriving DecidableEq, Repr

structure ImpairmentEngine where
  cfg : ImpairmentConfig
  prng : PrngEngine
  delayBuf : Vector DelayEntry impairDelayBufSize
  delayCount : Nat
  reorderBuf : Vector MessageEnvelope impairDelayBufSize
  reorderCount : Nat
  partitionActive : Bool
  partitionStartUs : UInt64
  nextPartitionEventUs : UInt64
  stats : ImpairmentStats

namespace ImpairmentEngine

/-- The engine after `init`, with the entropy the operating system gave. -/
def init (cfg : ImpairmentConfig) (entropy : UInt64) : Checked ImpairmentEngine := do
  neverCompiledOutAssert .impairmentInit (cfg.reorderWindowSize.toNat ≤ impairDelayBufSize)
  neverCompiledOutAssert .impairmentInit (cfg.lossProbability ≥ 0 ∧ cfg.lossProbability ≤ 1)
  neverCompiledOutAssert .impairmentInit (!cfg.partitionEnabled ∨ cfg.partitionGapMs > 0)
  if cfg.prngSeed = 0 then
    neverCompiledOutAssert .impairmentInit (entropy ≠ 0)
  pure { cfg
         prng := .seed (if cfg.prngSeed ≠ 0 then cfg.prngSeed else entropy)
         delayBuf := Vector.replicate impairDelayBufSize ⟨envelopeInit, 0, false⟩
         delayCount := 0
         reorderBuf := Vector.replicate impairDelayBufSize envelopeInit
         reorderCount := 0
         partitionActive := false
         partitionStartUs := 0
         nextPartitionEventUs := 0
         stats := ⟨0, 0, 0, 0⟩ }

/-! ## Partitions -/

/-- `nowUs + deltaMs` milliseconds, saturating. -/
def satAddUs (nowUs : UInt64) (deltaMs : UInt32) : UInt64 :=
  let kMax : UInt64 := 0xFFFFFFFFFFFFFFFF
  let delta := deltaMs.toUInt64 * 1000
  if nowUs > kMax - delta then kMax else nowUs + delta

def isPartitionActive (e : ImpairmentEngine) (nowUs : UInt64) : Checked (Bool × ImpairmentEngine) := do
  if !e.cfg.partitionEnabled then
    pure (false, e)
  else if e.nextPartitionEventUs = 0 then
    pure (false, { e with
      nextPartitionEventUs := satAddUs nowUs e.cfg.partitionGapMs, partitionActive := false })
  else if !e.partitionActive && decide (nowUs ≥ e.nextPartitionEventUs) then
    pure (true, { e with
      partitionActive := true
      partitionStartUs := nowUs
      nextPartitionEventUs := satAddUs nowUs e.cfg.partitionDurationMs })
  else if e.partitionActive && decide (nowUs ≥ e.nextPartitionEventUs) then
    pure (false, { e with
      partitionActive := false
      nextPartitionEventUs := satAddUs nowUs e.cfg.partitionGapMs })
  else do
    neverCompiledOutAssert .impairmentIsPartitionActive (e.nextPartitionEventUs > 0)
    pure (e.partitionActive, e)

/-! ## The way out -/

def queueToDelayBuf (e : ImpairmentEngine) (env : MessageEnvelope) (releaseUs : UInt64) :
    Checked (Result × ImpairmentEngine) := do
  neverCompiledOutAssert .impairmentQueueToDelayBuf (e.delayCount < impairDelayBufSize)
  match firstSlot? (fun s => !s.active) e.delayBuf with
  | some i =>
    let e := { e with
      delayBuf := e.delayBuf.set i { env, releaseUs, active := true } i.isLt, delayCount := e.delayCount + 1 }
    neverCompiledOutAssert .impairmentQueueToDelayBuf (e.delayCount ≤ impairDelayBufSize)
    pure (.ok, e)
  | none => throw (.assertion .impairmentQueueToDelayBuf)

def checkLoss (e : ImpairmentEngine) : Checked (Bool × ImpairmentEngine) := do
  neverCompiledOutAssert .impairmentCheckLoss (e.cfg.lossProbability ≤ 1)
  if e.cfg.lossProbability ≤ 0 then
    pure (false, e)
  else
    let (randVal, prng) ← e.prng.nextDouble
    neverCompiledOutAssert .impairmentCheckLoss (randVal ≥ 0 ∧ randVal < 1)
    pure (decide (randVal < e.cfg.lossProbability), { e with prng })

def applyDuplication (e : ImpairmentEngine) (env : MessageEnvelope) (releaseUs : UInt64) :
    Checked ImpairmentEngine := do
  neverCompiledOutAssert .impairmentApplyDuplication (e.cfg.duplicationProbability > 0)
  let (dupRand, prng) ← e.prng.nextDouble
  let e := { e with prng }
  neverCompiledOutAssert .impairmentApplyDuplication (dupRand ≥ 0 ∧ dupRand < 1)
  if dupRand < e.cfg.duplicationProbability ∧ e.delayCount < impairDelayBufSize then
    let (res, e) ← e.queueToDelayBuf env (releaseUs + 100)
    if res = .ok then
      pure { e with stats := { e.stats with duplicateInjects := e.stats.duplicateInjects + 1 } }
    else pure e
  else pure e

def computeJitterUs (e : ImpairmentEngine) : Checked (UInt64 × ImpairmentEngine) := do
  if e.cfg.jitterMeanMs = 0 then
    pure (0, e)
  else
    let loMs := if e.cfg.jitterVarianceMs ≤ e.cfg.jitterMeanMs
      then e.cfg.jitterMeanMs - e.cfg.jitterVarianceMs else 0
    let hiMs := if e.cfg.jitterVarianceMs > 0xFFFFFFFF - e.cfg.jitterMeanMs
      then 0xFFFFFFFF - 1 else e.cfg.jitterMeanMs + e.cfg.jitterVarianceMs
    neverCompiledOutAssert .impairmentComputeJitterUs (hiMs ≥ loMs)
    let (jitterOffsetMs, prng) ← e.prng.nextRange loMs hiMs
    pure (jitterOffsetMs.toUInt64 * 1000, { e with prng })

def computeReleaseUs (nowUs baseDelayUs jitterUs : UInt64) : Checked UInt64 := do
  neverCompiledOutAssert .impairmentComputeReleaseUs (baseDelayUs ≤ 0xFFFFFFFFFFFFFFFF / 2)
  let kReleaseCapUs : UInt64 := 0xFFFFFFFFFFFFFFFF / 2
  let delayTotalUs := if baseDelayUs > kReleaseCapUs - jitterUs then kReleaseCapUs
    else baseDelayUs + jitterUs
  let releaseUs := if nowUs > 0xFFFFFFFFFFFFFFFF - delayTotalUs then 0xFFFFFFFFFFFFFFFF
    else nowUs + delayTotalUs
  neverCompiledOutAssert .impairmentComputeReleaseUs
    (releaseUs ≥ nowUs ∨ releaseUs = 0xFFFFFFFFFFFFFFFF)
  pure releaseUs

def processOutbound (e : ImpairmentEngine) (inEnv : MessageEnvelope) (nowUs : UInt64) :
    Checked (Result × ImpairmentEngine) := do
  neverCompiledOutAssert .impairmentProcessOutbound (envelopeValid inEnv)
  if !e.cfg.enabled then
    if e.delayCount ≥ impairDelayBufSize then
      return (.errFull, e)
    return ← e.queueToDelayBuf inEnv nowUs
  let (partitioned, e) ← e.isPartitionActive nowUs
  if partitioned then
    return (.errIo, { e with stats := { e.stats with
      partitionDrops := e.stats.partitionDrops + 1, lossDrops := e.stats.lossDrops + 1 } })
  let (lost, e) ← e.checkLoss
  if lost then
    return (.errIo, { e with stats := { e.stats with lossDrops := e.stats.lossDrops + 1 } })
  let (jitterUs, e) ← e.computeJitterUs
  let releaseUs ← computeReleaseUs nowUs (e.cfg.fixedLatencyMs.toUInt64 * 1000) jitterUs
  if e.delayCount ≥ impairDelayBufSize then
    return (.errFull, e)
  let (res, e) ← e.queueToDelayBuf inEnv releaseUs
  if res ≠ .ok then
    return (res, e)
  let e ← if e.cfg.duplicationProbability > 0 then e.applyDuplication inEnv releaseUs else pure e
  neverCompiledOutAssert .impairmentProcessOutbound (e.delayCount ≤ impairDelayBufSize)
  return (.ok, e)

/-- One round of `collect_deliverable`. -/
def collectDeliverable.round (nowUs : UInt64) (bufCap : Nat) (i : Fin impairDelayBufSize) :
    List MessageEnvelope × ImpairmentEngine → Checked (List MessageEnvelope × ImpairmentEngine)
  | (out, e) => do
    let entry := e.delayBuf[i]
    if out.length < bufCap ∧ entry.active ∧ entry.releaseUs ≤ nowUs then
      neverCompiledOutAssert .impairmentCollectDeliverable (e.delayCount > 0)
      pure (out ++ [entry.env], { e with
        delayBuf := e.delayBuf.set i { entry with active := false } i.isLt
        delayCount := e.delayCount - 1 })
    else pure (out, e)

/-- The messages whose time has come, at most `bufCap` of them. -/
def collectDeliverable (e : ImpairmentEngine) (nowUs : UInt64) (bufCap : Nat) :
    Checked (List MessageEnvelope × ImpairmentEngine) := do
  neverCompiledOutAssert .impairmentCollectDeliverable (bufCap > 0)
  let (out, e) ← eachIndex impairDelayBufSize (collectDeliverable.round nowUs bufCap) ([], e)
  neverCompiledOutAssert .impairmentCollectDeliverable (out.length ≤ bufCap)
  neverCompiledOutAssert .impairmentCollectDeliverable (e.delayCount ≤ impairDelayBufSize)
  pure (out, e)

/-! ## The way in -/

/-- Store into the reorder window. -/
def storeReorder (e : ImpairmentEngine) (env : MessageEnvelope) : Checked ImpairmentEngine :=
  if h : e.reorderCount < impairDelayBufSize then
    .ok { e with reorderBuf := e.reorderBuf.set e.reorderCount env, reorderCount := e.reorderCount + 1 }
  else .error .outOfBounds

/-- What goes on to the receive queue: nothing, or one message. -/
def processInbound (e : ImpairmentEngine) (inEnv : MessageEnvelope) (nowUs : UInt64) (bufCap : Nat) :
    Checked ((Result × Option MessageEnvelope) × ImpairmentEngine) := do
  neverCompiledOutAssert .impairmentProcessInbound (envelopeValid inEnv)
  neverCompiledOutAssert .impairmentProcessInbound (bufCap > 0)
  let (partitioned, e) ← if e.cfg.enabled then e.isPartitionActive nowUs else pure (false, e)
  if partitioned then
    return ((.errIo, none), { e with stats := { e.stats with
      partitionDrops := e.stats.partitionDrops + 1, lossDrops := e.stats.lossDrops + 1 } })
  if !e.cfg.reorderEnabled ∨ e.cfg.reorderWindowSize = 0 then
    neverCompiledOutAssert .impairmentProcessInbound (1 ≤ bufCap)
    return ((.ok, some inEnv), e)
  if e.reorderCount < e.cfg.reorderWindowSize.toNat then
    let e ← e.storeReorder inEnv
    let e := { e with stats := { e.stats with reorderBuffered := e.stats.reorderBuffered + 1 } }
    neverCompiledOutAssert .impairmentProcessInbound (e.reorderCount ≤ impairDelayBufSize)
    return ((.ok, none), e)
  let (releaseIdx, prng) ← e.prng.nextRange 0 (.ofNat e.reorderCount - 1)
  neverCompiledOutAssert .impairmentProcessInbound (releaseIdx.toNat < e.reorderCount)
  -- The test `buf_cap >= 1U` around the rest is the assertion above.
  if h : releaseIdx.toNat < impairDelayBufSize then
    let released := e.reorderBuf[releaseIdx.toNat]
    let e := { e with
      prng
      reorderBuf := Compact.shiftLeft e.reorderBuf releaseIdx.toNat (e.reorderCount - 1 - releaseIdx.toNat)
      reorderCount := e.reorderCount - 1 }
    let e ← if e.reorderCount < e.cfg.reorderWindowSize.toNat then e.storeReorder inEnv else pure e
    neverCompiledOutAssert .impairmentProcessInbound (1 ≤ bufCap)
    neverCompiledOutAssert .impairmentProcessInbound (e.reorderCount ≤ e.cfg.reorderWindowSize.toNat)
    neverCompiledOutAssert .impairmentProcessInbound (e.reorderCount ≤ impairDelayBufSize)
    return ((.ok, some released), e)
  else throw .outOfBounds

end ImpairmentEngine

end MessageEngine
