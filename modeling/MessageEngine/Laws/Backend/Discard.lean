import MessageEngine.Core.TcpTransport
import MessageEngine.Core.TlsTransport
import MessageEngine.Laws.Backend.Inbox
import MessageEngine.Laws.Impairment.Outbound
import MessageEngine.Laws.Serializer.Frame
import MessageEngine.Lib.Run

/-!
# Messages for nobody

With no client connected `send_message` of the two TCP backends discards the message and answers `OK`. But
by then the message has been through `process_outbound`, and a message that got through is in the delay
buffer. There it stays, until a flush hands it to whoever has connected in the meantime, or until the
buffer is full.

## What is proved

- `processOutbound_queues`: a message that `process_outbound` accepts is put into a slot that was free;
- `discard_never_discards`: so a send that takes the branch without clients never leaves the buffer as it
  was, in either backend.
-/

namespace MessageEngine

open Outcome Table

namespace ImpairmentEngine

variable {e e' e₁ : ImpairmentEngine} {env : MessageEnvelope} {nowUs releaseUs : UInt64} {res : Result}

/-- The delay buffer and its counter are as before. -/
def SameBuffer (e e' : ImpairmentEngine) : Prop := e'.delayBuf = e.delayBuf ∧ e'.delayCount = e.delayCount

/-- A message was put into a free slot of the delay buffer. -/
structure Queued (e : ImpairmentEngine) (env : MessageEnvelope) (e' : ImpairmentEngine) : Prop where
  grown : e.delayCount < e'.delayCount
  stored : ∃ i : Fin impairDelayBufSize, e.delayBuf[i].active = false ∧
    e'.delayBuf[i].active = true ∧ e'.delayBuf[i].env = env

theorem Queued.not_sameBuffer (h : Queued e env e') : ¬ SameBuffer e e' :=
  fun hsame => absurd (hsame.2 ▸ h.grown) (Nat.lt_irrefl _)

theorem queueToDelayBuf_ok (h : e.queueToDelayBuf env releaseUs = .ok (res, e')) :
    res = .ok ∧ ∃ i, e.freeSlot? = some i ∧ e' = e.put i env releaseUs := by
  unfold queueToDelayBuf at h
  obtain ⟨-, h⟩ := ensure_bind_eq_ok.mp h
  split at h
  case h_1 i hfree =>
    obtain ⟨-, h⟩ := ensure_bind_eq_ok.mp h
    cases h
    exact ⟨rfl, i, hfree, rfl⟩
  case h_2 => cases h

theorem queued_put {i : Fin impairDelayBufSize} (hfree : e.freeSlot? = some i) :
    Queued e env (e.put i env releaseUs) where
  grown := Nat.lt_succ_self _
  stored := ⟨i, freeSlot?_inactive hfree, by simp [put]⟩

/-- A copy takes another slot. -/
theorem applyDuplication_queued {copy : MessageEnvelope} (hqueued : Queued e₁ env e)
    (h : e.applyDuplication copy releaseUs = .ok e') : Queued e₁ env e' := by
  unfold applyDuplication at h
  obtain ⟨-, h⟩ := ensure_bind_eq_ok.mp h
  obtain ⟨⟨dupRand, prng⟩, -, h⟩ := bind_eq_ok.mp h
  obtain ⟨-, h⟩ := ensure_bind_eq_ok.mp h
  split at h
  case isFalse =>
    cases h
    exact ⟨hqueued.grown, hqueued.stored⟩
  case isTrue =>
    obtain ⟨⟨res, e₂⟩, hqueue, h⟩ := bind_eq_ok.mp h
    obtain ⟨rfl, j, hfree, rfl⟩ := queueToDelayBuf_ok hqueue
    have hcopied : Queued e₁ env (put { e with prng } j copy (releaseUs + 100)) := by
      obtain ⟨i, hfree', hactive, henv⟩ := hqueued.stored
      have hother : j ≠ i := by
        rintro rfl
        have hinactive := freeSlot?_inactive hfree
        exact Bool.false_ne_true (hinactive.symm.trans hactive)
      have hkept : (put { e with prng } j copy (releaseUs + 100)).delayBuf[i] = e.delayBuf[i] := by
        simp only [put, getElem_set_fin, if_neg hother]
      refine ⟨Nat.lt_succ_of_lt hqueued.grown, i, hfree', ?_, ?_⟩
      · rw [hkept]
        exact hactive
      · rw [hkept]
        exact henv
    cases h
    exact ⟨hcopied.grown, hcopied.stored⟩

/-- What `process_outbound` accepts it puts into the delay buffer. -/
theorem processOutbound_queues (h : e.processOutbound env nowUs = .ok (.ok, e')) : Queued e env e' := by
  unfold processOutbound at h
  obtain ⟨-, h⟩ := ensure_bind_eq_ok.mp h
  split at h
  case isTrue =>
    split at h
    · cases h
    · obtain ⟨-, i, hfree, rfl⟩ := queueToDelayBuf_ok h
      exact queued_put hfree
  case isFalse =>
    obtain ⟨⟨partitioned, e₁⟩, hpart, h⟩ := bind_eq_ok.mp h
    obtain ⟨⟨_, _, _, rfl⟩, -⟩ := isPartitionActive_frame hpart
    cases partitioned with
    | true => cases h
    | false =>
      simp only [Bool.false_eq_true, if_false] at h
      obtain ⟨⟨lost, e₂⟩, hloss, h⟩ := bind_eq_ok.mp h
      obtain ⟨⟨_, rfl⟩, -⟩ := checkLoss_frame hloss
      cases lost with
      | true => cases h
      | false =>
        simp only [Bool.false_eq_true, if_false] at h
        obtain ⟨⟨jitterUs, e₃⟩, hjitter, h⟩ := bind_eq_ok.mp h
        obtain ⟨⟨prng, rfl⟩, -⟩ := computeJitterUs_spec hjitter
        obtain ⟨releaseUs, -, h⟩ := bind_eq_ok.mp h
        split at h
        case isTrue => cases h
        case isFalse =>
          obtain ⟨⟨res, e₄⟩, hqueue, h⟩ := bind_eq_ok.mp h
          obtain ⟨rfl, i, hfree, rfl⟩ := queueToDelayBuf_ok hqueue
          have hput : Queued _ env (put _ i env releaseUs) := queued_put hfree
          simp only [ne_eq, not_true_eq_false, if_false] at h
          rw [ite_bind] at h
          obtain ⟨e₅, hcopy, h⟩ := bind_eq_ok.mp h
          obtain ⟨-, h⟩ := ensure_bind_eq_ok.mp h
          cases h
          split at hcopy
          case isTrue =>
            have hcopied := applyDuplication_queued hput hcopy
            exact ⟨hcopied.grown, hcopied.stored⟩
          case isFalse =>
            cases hcopy
            exact ⟨hput.grown, hput.stored⟩

end ImpairmentEngine

/-! ## Sending to nobody -/

/-- The message was accepted by the impairments, no client is connected, and `send_message` answers
`OK`: the branch that discards. -/
def TcpTransport.Discards (t : TcpTransport) (env : MessageEnvelope) (nowUs : UInt64) (t' : TcpTransport) : Prop :=
  t.backend.clientCount = 0 ∧ t.sendMessage env nowUs = .ok (.ok, t') ∧
    ∃ e, t.backend.inbox.impairment.processOutbound env nowUs = .ok (.ok, e)

/-- The same for the TLS backend. -/
def TlsTransport.Discards (t : TlsTransport) (env : MessageEnvelope) (nowUs : UInt64) (t' : TlsTransport) : Prop :=
  t.backend.clientCount = 0 ∧ t.sendMessage env nowUs = .ok (.ok, t') ∧
    ∃ e, t.backend.inbox.impairment.processOutbound env nowUs = .ok (.ok, e)

/-- What a backend writes for a frame is its encoding. -/
theorem serializeToWire_eq {frame : MessageEnvelope} (valid : envelopeValid frame) :
    ∃ buf, serializeToWire frame = .ok (.ok (buf, .ofNat (Serializer.encode frame).length)) ∧
      (Serializer.encode frame).length ≤ buf.length ∧
      buf.take (Serializer.encode frame).length = Serializer.encode frame := by
  have hle : frame.payloadLength.toNat ≤ 4096 := valid.2.1
  have hlen := Serializer.length_encode valid
  have hheader : wireHeaderSize = 52 := rfl
  have hcap : socketRecvBufBytes.toNat = 8192 := rfl
  have hserialize := @Serializer.serialize_eq (List.replicate socketRecvBufBytes.toNat 0) frame socketRecvBufBytes
    valid (by omega) (by rw [List.length_replicate])
  unfold serializeToWire
  rw [hserialize, ← hlen]
  refine ⟨_, rfl, ?_, Bytes.take_overwrite_zero _ _⟩
  rw [Bytes.length_overwrite]
  · rw [List.length_replicate]
    omega
  · rw [List.length_replicate]
    omega

theorem TcpTransport.Discards.queued {t t' : TcpTransport} {env : MessageEnvelope} {nowUs : UInt64}
    (h : t.Discards env nowUs t') : t.backend.inbox.impairment.Queued env t'.backend.inbox.impairment := by
  obtain ⟨hnone, hsend, e, haccepted⟩ := h
  unfold sendMessage at hsend
  obtain ⟨-, hsend⟩ := ensure_bind_eq_ok.mp hsend
  obtain ⟨hvalid, hsend⟩ := ensure_bind_eq_ok.mp hsend
  obtain ⟨buf, hwire, -⟩ := serializeToWire_eq hvalid
  simp only [hwire, haccepted, ok_bind, reduceCtorEq, if_false, ne_eq, not_true_eq_false, hnone, if_true] at hsend
  cases hsend
  exact ImpairmentEngine.processOutbound_queues haccepted

theorem TlsTransport.Discards.queued {t t' : TlsTransport} {env : MessageEnvelope} {nowUs : UInt64}
    (h : t.Discards env nowUs t') : t.backend.inbox.impairment.Queued env t'.backend.inbox.impairment := by
  obtain ⟨hnone, hsend, e, haccepted⟩ := h
  unfold sendMessage at hsend
  obtain ⟨-, hsend⟩ := ensure_bind_eq_ok.mp hsend
  obtain ⟨hvalid, hsend⟩ := ensure_bind_eq_ok.mp hsend
  obtain ⟨buf, hwire, -⟩ := serializeToWire_eq hvalid
  simp only [hwire, haccepted, ok_bind, reduceCtorEq, if_false, ne_eq, not_true_eq_false, hnone, if_true] at hsend
  cases hsend
  exact ImpairmentEngine.processOutbound_queues haccepted

/-- A send that takes the branch without clients never leaves the delay buffer as it was: the message it
discards waits there. -/
theorem discard_never_discards (env : MessageEnvelope) (nowUs : UInt64) :
    (∀ t t' : TcpTransport, t.Discards env nowUs t' →
      ¬ t.backend.inbox.impairment.SameBuffer t'.backend.inbox.impairment ∧
        t.backend.inbox.impairment.Queued env t'.backend.inbox.impairment) ∧
    (∀ t t' : TlsTransport, t.Discards env nowUs t' →
      ¬ t.backend.inbox.impairment.SameBuffer t'.backend.inbox.impairment ∧
        t.backend.inbox.impairment.Queued env t'.backend.inbox.impairment) := by
  constructor
  · intro t t' hdiscards
    exact ⟨hdiscards.queued.not_sameBuffer, hdiscards.queued⟩
  · intro t t' hdiscards
    exact ⟨hdiscards.queued.not_sameBuffer, hdiscards.queued⟩

/-! ### Nobody, and then somebody -/

/-- A server that has just been opened, without TLS and with it. -/
def openedServer : TcpTransport :=
  { TcpTransport.create true 1000 .calm with listenFd := 3, isOpen := true }

def openedTlsServer : TlsTransport :=
  { TlsTransport.create true true 1000 .calm with listenFd := 3, isOpen := true }

/-- A message for everybody. -/
def toAll : MessageEnvelope :=
  { envelopeInit with messageType := .data, sourceId := 1, destinationId := nodeIdInvalid }

/-- A round in which the connection `10` is accepted. -/
def newcomerTurn : TcpTurn where
  sweepUs := 2000
  ready := some (· = 0)
  acceptedFd := 10
  os := fun _ => .moved 100
  acceptUs := 2000
  read _ := ⟨none, 2000⟩
  flushUs := 2000

theorem toAll_accepted : ∃ e, ImpairmentEngine.calm.processOutbound toAll 1000 = .ok (.ok, e) := by
  have haccepted : Succeeds (ImpairmentEngine.calm.processOutbound toAll 1000) fun r => r.1 = .ok := by
    decide +kernel
  obtain ⟨⟨res, e⟩, hrun, rfl⟩ := haccepted.exists
  exact ⟨e, hrun⟩

theorem openedServer_sends : Succeeds (openedServer.sendMessage toAll 1000) fun r => r.1 = .ok ∧
    Succeeds (r.2.receiveMessage 1 fun _ => newcomerTurn) fun r =>
      (r.2.backend.links 10).wire = SocketUtils.frameHeader 52 ++ Serializer.encode toAll := by
  decide +kernel

theorem openedTlsServer_sends : Succeeds (openedTlsServer.sendMessage toAll 1000) fun r => r.1 = .ok := by
  decide +kernel

/-- Either server discards the message, and has it. -/
theorem opened_keeps :
    (∃ t', TcpTransport.init ⟨true, some 3, fun _ => .timeout⟩ 1000 .calm = .ok (.ok, openedServer) ∧
      openedServer.Discards toAll 1000 t' ∧
      openedServer.backend.inbox.impairment.Queued toAll t'.backend.inbox.impairment) ∧
    (∃ t', TlsTransport.init ⟨true, true, some 3, fun _ => .timeout, fun _ => .failed⟩ 1000 .calm =
        .ok (.ok, openedTlsServer) ∧
      openedTlsServer.Discards toAll 1000 t' ∧
      openedTlsServer.backend.inbox.impairment.Queued toAll t'.backend.inbox.impairment) := by
  constructor
  · obtain ⟨⟨res, t'⟩, hrun, rfl, -⟩ := openedServer_sends.exists
    have hdiscards : openedServer.Discards toAll 1000 t' := ⟨rfl, hrun, toAll_accepted⟩
    exact ⟨t', rfl, hdiscards, ((discard_never_discards toAll 1000).1 _ _ hdiscards).2⟩
  · obtain ⟨⟨res, t'⟩, hrun, rfl⟩ := openedTlsServer_sends.exists
    have hdiscards : openedTlsServer.Discards toAll 1000 t' := ⟨rfl, hrun, toAll_accepted⟩
    exact ⟨t', rfl, hdiscards, ((discard_never_discards toAll 1000).2 _ _ hdiscards).2⟩

theorem openedServer_fills :
    Run.Yields (fun env (t : TcpTransport) => t.sendMessage env 1000) (List.replicate 33 toAll)
      openedServer fun results _ => results = List.replicate 32 .ok ++ [.errFull] := by
  decide +kernel

/-- A server with no client discards a message. The connection that is accepted in the next `receive`
gets it, and thirty-two such sends make the next one fail for want of space. -/
theorem newcomer_is_sent_discarded : ∃ t' delivery t'' results full,
    openedServer.Discards toAll 1000 t' ∧
    t'.receiveMessage 1 (fun _ => newcomerTurn) = .ok (delivery, t'') ∧
    (t''.backend.links 10).wire = SocketUtils.frameHeader 52 ++ Serializer.encode toAll ∧
    Run.runAll (fun env t => t.sendMessage env 1000) (List.replicate 33 toAll) openedServer =
      .ok (results, full) ∧
    results = List.replicate 32 .ok ++ [.errFull] := by
  obtain ⟨⟨res, t'⟩, hrun, rfl, hreceive⟩ := openedServer_sends.exists
  obtain ⟨⟨delivery, t''⟩, hreceive, hwire⟩ := hreceive.exists
  obtain ⟨results, full, hsends, hresults⟩ := openedServer_fills.exists
  exact ⟨t', delivery, t'', results, full, ⟨rfl, hrun, toAll_accepted⟩, hreceive, hwire, hsends, hresults⟩

end MessageEngine
