import MessageEngine.Lib.Bytes
import MessageEngine.Lib.Outcome
import MessageEngine.Lib.Table

/-!
# Constants, enumerations and the failed assertion

The capacities are the numbers of `Types.hpp`. Sizes are naturals, because they index tables;
the machine-width fields of the program are `UIntN` and wrap as the program's do.

`Fault` is how a run of the program stops: at a `NEVER_COMPILED_OUT_ASSERT` whose condition is
false (`Site` names the function that holds it), or at an access outside an array, which the
program never checks for and a model must. Assertions that no value of the modelled types can
fail are not written down: pointers are never null, a `uint64_t` is at most its maximum, a
component exists only once its `init` has run, and a field read back right after it was
assigned has the assigned value.
-/

namespace MessageEngine

open Outcome

abbrev msgMaxPayloadBytes : Nat := 4096
abbrev msgRingCapacity : Nat := 64
abbrev dedupWindowSize : Nat := 128
abbrev ackTrackerCapacity : Nat := 32
abbrev maxPeerNodes : Nat := 16
abbrev deliveryEventRingCapacity : Nat := 64
abbrev fragMaxPayloadBytes : Nat := 1024
abbrev fragMaxCount : Nat := 4
abbrev reassemblySlotCount : Nat := 8
abbrev orderingPeerCount : Nat := maxPeerNodes
abbrev orderingHoldCount : Nat := 8
abbrev impairDelayBufSize : Nat := 32
abbrev maxTcpConnections : Nat := 8

instance : NeZero maxTcpConnections := ⟨by decide⟩

theorem maxTcpConnections_pos : 0 < maxTcpConnections := by decide

abbrev socketRecvBufBytes : UInt32 := 8192
abbrev dtlsMaxDatagramBytes : UInt32 := 1400

/-- A node or endpoint identifier; zero is `NODE_ID_INVALID` and the broadcast destination. -/
abbrev NodeId := UInt32

abbrev nodeIdInvalid : NodeId := 0

inductive MessageType where
  | data
  | ack
  | nak
  | heartbeat
  | hello
  | invalid
  deriving DecidableEq, Repr

inductive ReliabilityClass where
  | bestEffort
  | reliableAck
  | reliableRetry
  deriving DecidableEq, Repr

inductive OrderingMode where
  | ordered
  | unordered
  deriving DecidableEq, Repr

inductive Result where
  | ok
  | errTimeout
  | errFull
  | errEmpty
  | errInvalid
  | errIo
  | errDuplicate
  | errExpired
  | errOverrun
  | errAgain
  | errIoPartial
  deriving DecidableEq, Repr

/-- The functions that hold an assertion a modelled value could fail. -/
inductive Site where
  | ackTrackerTrack
  | ackTrackerOnAck
  | ackTrackerCancelPeer
  | ackTrackerCancel
  | ackTrackerSweepExpired
  | ackTrackerGetSendTimestamp
  | ackTrackerGetTrackedDestination
  | slotHasExpired
  | advanceBackoff
  | retryManagerSchedule
  | retryManagerOnAck
  | retryManagerCancelPeer
  | retryManagerCancel
  | retryManagerReapTerminatedSlots
  | retryManagerCollectDue
  | duplicateFilterIsDuplicate
  | duplicateFilterFindEvictIdx
  | duplicateFilterRecord
  | duplicateFilterCheckAndRecord
  | messageIdGenNext
  | eventRingPush
  | eventRingPop
  | eventRingSize
  | orderingFindPeer
  | orderingCountHoldsForPeer
  | orderingEvictLruPeer
  | orderingFindHeld
  | orderingAdvanceNextExpected
  | orderingIngest
  | orderingTryReleaseNext
  | orderingResetPeer
  | orderingAdvanceSequence
  | orderingSeqNextGuarded
  | orderingSweepExpiredHolds
  | reassemblyFindSlot
  | reassemblyCountOpenSlotsForSrc
  | reassemblyOpenSlot
  | reassemblyValidateFragment
  | reassemblyRecordFragment
  | reassemblyIsComplete
  | reassemblyAssembleAndFree
  | reassemblyValidateMetadata
  | reassemblyFindOrOpenSlot
  | reassemblyIngest
  | reassemblyIngestMultifrag
  | reassemblySweepExpired
  | needsFragmentation
  | fragmentMessage
  | serializerWrite
  | serializerRead
  | serializerSerialize
  | serializerPayloadLengthValid
  | serializerDeserialize
  | checkRouting
  | sendDataAck
  | processAck
  | engineEmitEvent
  | engineEmitRoutingDropEvent
  | engineAccountOrderingExpiryDrops
  | engineSendViaTransport
  | reserveBookkeeping
  | rollbackOnTransportFailure
  | handleSendFragmentsFailure
  | engineSend
  | engineHandleControlMessage
  | engineHandleDataDedup
  | engineResetPeerOrdering
  | engineReceive
  | engineHandleDataPath
  | enginePumpRetries
  | engineSweepAckTimeouts
  | engineUpdateLatencyStats
  | engineRecordSendFailure
  | engineRecordRoutingFailure
  | engineNextSeqFor
  | engineSendFragments
  | engineHandleFragmentIngest
  | engineHandleOrderingGate
  | engineDeliverHeldPending
  | enginePollEvent
  | ringBufferPush
  | ringBufferPop
  | socketSendAll
  | socketRecvExact
  | socketOpsSendFrame
  | socketOpsSendTo
  | tcpRecvFrame
  | prngNext
  | prngNextDouble
  | prngNextRange
  | impairmentInit
  | impairmentQueueToDelayBuf
  | impairmentCheckLoss
  | impairmentApplyDuplication
  | impairmentComputeJitterUs
  | impairmentComputeReleaseUs
  | impairmentProcessOutbound
  | impairmentCollectDeliverable
  | impairmentIsPartitionActive
  | impairmentProcessInbound
  | tcpAcceptClients
  | tcpRemoveClientFd
  | tcpApplyInboundImpairment
  | tcpRecvFromClient
  | tcpCloseAndEvictSlot
  | tcpSweepHelloTimeouts
  | tcpHandleHelloFrame
  | tcpPopHelloPeer
  | tcpIsUnregisteredSlot
  | tcpProcessHelloFrame
  | tcpValidateSourceId
  | tcpFindClientSlot
  | tcpSendToSlot
  | tcpSendToAllClients
  | tcpSendOneDelayed
  | tcpApplySendResult
  | tcpFlushDelayedToClients
  | tcpSendMessage
  | tcpBuildPollFds
  | tcpDrainReadableClients
  | tcpPollClientsOnce
  | tcpReceiveMessage
  | tcpBindAndListen
  | tcpConnectToServer
  | tcpRegisterLocalId
  | tcpSendHelloFrame
  | tcpIsOpen
  | tlsAcceptAndHandshake
  | tlsRemoveClient
  | tlsSweepHelloTimeouts
  | tlsHandleHelloFrame
  | tlsPopHelloPeer
  | tlsClassifyInboundFrame
  | tlsApplyInboundImpairment
  | tlsRecvFromClient
  | tlsFindClientSlot
  | tlsSendToSlot
  | tlsSendFrame
  | tlsWriteAll
  | tlsReadPayload
  | tlsSendToAllClients
  | tlsUnicastSerialized
  | tlsRouteOneDelayed
  | tlsFlushDelayedToClients
  | tlsBuildPollFds
  | tlsPollClientsOnce
  | tlsSendMessage
  | tlsReceiveMessage
  | tlsBindAndListen
  | tlsConnectToServer
  | tlsRegisterLocalId
  | tlsSendHelloFrame
  | tlsClose
  | tlsIsOpen
  | udpSendOneEnvelope
  | udpFlushDelayedToWire
  | udpReceiveMessage
  | udpValidateSource
  | udpProcessHelloOrValidate
  | udpRecvOneDatagram
  | dtlsValidateSource
  | dtlsProcessHelloOrValidate
  | dtlsCommitPendingSrcPort
  | dtlsDeserializeAndDispatch
  | dtlsApplyInboundImpairment
  | dtlsRecvOneDtlsDatagram
  | dtlsSendWireBytes
  | dtlsFlushDelayedToWire
  | dtlsReceiveMessage
  | udpSendMessage
  | udpFlushOutboundBatch
  | udpRegisterLocalId
  | udpSendHelloDatagram
  | dtlsSendMessage
  | dtlsFlushOutboundBatch
  | dtlsRegisterLocalId
  | dtlsSendHelloDatagram
  | udpIsOpen
  | dtlsIsOpen
  | localSimInject
  | localSimDeliverFromPeer
  | localSimFlushOutboundBatch
  | localSimSendMessage
  | localSimReceiveMessage
  | parseProb
  | applyReorderWindow
  | parseConfigLine
  | impairmentConfigLoad
  | rrBuildWirePayload
  | rrParseRrHeader
  | rrFindPending
  | rrHandleInboundResponse
  | rrHandleInboundRequest
  | rrDispatchInboundEnvelope
  | rrStashNonRrData
  | rrReceiveNonRr
  | rrSendRequest
  | rrReceiveRequest
  | rrSweepTimeouts
  deriving DecidableEq, Repr

inductive Fault where
  | assertion (site : Site)
  | outOfBounds
  deriving DecidableEq, Repr

/-- A computation that a failed assertion stops. -/
abbrev Checked := Except Fault

/-- `NEVER_COMPILED_OUT_ASSERT`: stop the run unless the condition holds. -/
abbrev neverCompiledOutAssert (site : Site) (cond : Prop) [Decidable cond] : Checked Unit :=
  ensure (.assertion site) cond

/-! ## Timestamps -/

/-- Expired at `nowUs`; an expiry of zero never expires. -/
def timestampExpired (expiryUs nowUs : UInt64) : Bool :=
  expiryUs != 0 && decide (expiryUs ≤ nowUs)

/-- `nowUs + durationMs` milliseconds, saturating at the largest timestamp. -/
def timestampDeadlineUs (nowUs : UInt64) (durationMs : UInt32) : UInt64 :=
  let durationUs := durationMs.toUInt64 * 1000
  let kMax : UInt64 := 0xFFFFFFFFFFFFFFFF
  if nowUs > kMax - durationUs then kMax else nowUs + durationUs

theorem timestampExpired_iff {expiryUs nowUs : UInt64} :
    timestampExpired expiryUs nowUs = true ↔ expiryUs ≠ 0 ∧ expiryUs ≤ nowUs := by
  simp [timestampExpired]

/-- Once expired, a message stays expired. -/
theorem timestampExpired_mono {expiryUs nowUs laterUs : UInt64}
    (h : timestampExpired expiryUs nowUs = true) (le : nowUs ≤ laterUs) :
    timestampExpired expiryUs laterUs = true := by
  rw [timestampExpired_iff] at h ⊢
  exact ⟨h.1, UInt64.le_trans h.2 le⟩

/-! ## Byte copies -/

/-- `memcpy`: `len` bytes of `src` from `srcOff` over those of `dst` from `dstOff`. -/
def memcpy {n m : Nat} (dst : Vector UInt8 n) (dstOff : Nat) (src : Vector UInt8 m)
    (srcOff len : Nat) : Checked (Vector UInt8 n) :=
  if h : dstOff + len ≤ n ∧ srcOff + len ≤ m then
    .ok (Bytes.blit dst dstOff (Bytes.slice src.toList srcOff len)
      (by rw [Bytes.length_slice (by rw [Vector.length_toList]; exact h.2)]; exact h.1))
  else .error .outOfBounds

/-- A copy inside both arrays succeeds; what it leaves at each position. -/
theorem memcpy_eq_ok {n m : Nat} (dst : Vector UInt8 n) (src : Vector UInt8 m)
    {dstOff srcOff len : Nat} (hdst : dstOff + len ≤ n) (hsrc : srcOff + len ≤ m) :
    ∃ out, memcpy dst dstOff src srcOff len = .ok out ∧ ∀ (j : Nat) (hj : j < n),
      out[j] = if hin : dstOff ≤ j ∧ j < dstOff + len then src.get ⟨srcOff + (j - dstOff), by omega⟩
        else dst[j] := by
  have hlen : (Bytes.slice src.toList srcOff len).length = len :=
    Bytes.length_slice (by rw [Vector.length_toList]; exact hsrc)
  refine ⟨_, dif_pos ⟨hdst, hsrc⟩, fun j hj => ?_⟩
  rw [Bytes.getElem_blit hj]
  simp only [hlen]
  split
  case isTrue hin =>
    simp only [Bytes.slice, List.get_eq_getElem, List.getElem_take, List.getElem_drop,
      Vector.getElem_toList]
    rfl
  case isFalse hout => rfl

end MessageEngine
