import MessageEngine.Laws.DeliveryEngine.Receive
import MessageEngine.Laws.Fragmentation

/-!
# Sending, and the calls that keep house

Sending and retransmitting leave the delivery state alone but for the drop counter, and each
increment of that leaves a trace (`SendsOnly`). The housekeeping calls sweep.

As for `receive`, the assertions each call can run into are listed exactly: `sendFault` and
`pumpFault`. The other calls run into none but their check of the clock.
-/

namespace MessageEngine

open Outcome Table OrderingBuffer

/-! ## What sending leaves behind -/

/-- The effect is a drop that the counter of expired messages counts. -/
def Effect.isExpiry : Effect → Bool
  | .expired _ => true
  | .heldExpired _ => true
  | _ => false

/-- The effect has nothing to do with the staging slot or with a reset. -/
def Effect.outward : Effect → Bool
  | .sent _ _ => true
  | .expired _ => true
  | _ => false

/-- The counted drops of a trace. -/
def expiries (effects : List Effect) : Nat := effects.countP Effect.isExpiry

theorem expiries_append (xs ys : List Effect) : expiries (xs ++ ys) = expiries xs + expiries ys :=
  List.countP_append

/-- A piece of a valid message is valid. -/
theorem IsPiece.valid {logical frag : MessageEnvelope} {k : Nat} (hvalid : envelopeValid logical)
    (piece : IsPiece logical k frag) : envelopeValid frag := by
  refine ⟨?_, ?_, ?_⟩
  · rw [piece.fields]
    exact hvalid.1
  · rw [piece.fields]
    change (UInt32.ofNat (pieceLength _ k)).toNat ≤ msgMaxPayloadBytes
    have hle : pieceLength logical.payloadLength.toNat k ≤ fragMaxPayloadBytes := Nat.min_le_left _ _
    rw [UInt32.toNat_ofNat']
    exact Nat.le_trans (Nat.mod_le _ _) (Nat.le_trans hle (by decide))
  · rw [piece.fields]
    exact hvalid.2.2

namespace DeliveryEngine

variable {P : MessageEnvelope → Prop} {e e' e₁ e₂ e₃ : DeliveryEngine} {nowUs : UInt64}
  {env : MessageEnvelope}

/-- Nothing that decides deliveries changed; drops were counted and left a trace. -/
def SendsOnly (e e' : DeliveryEngine) : Prop :=
  ∃ effects : List Effect, (∀ x ∈ effects, x.outward = true) ∧
    e'.delivery = { e.delivery with
      dropped := e.stats.msgsDroppedExpired + UInt32.ofNat (expiries effects)
      trace := e.trace ++ effects }

theorem SendsOnly.of_eq (h : e'.delivery = e.delivery) : SendsOnly e e' := by
  refine ⟨[], by simp, ?_⟩
  rw [h]
  simp [expiries, delivery]

theorem SendsOnly.sent (sent : Effect) (hsent : sent.outward = true ∧ sent.isExpiry = false)
    (h : e'.delivery = { e.delivery with trace := e.trace ++ [sent] }) : SendsOnly e e' := by
  refine ⟨[sent], by simpa using hsent.1, ?_⟩
  rw [h]
  simp [expiries, delivery, hsent.2]

theorem SendsOnly.trans (h : SendsOnly e₁ e₂) (h' : SendsOnly e₂ e₃) : SendsOnly e₁ e₃ := by
  obtain ⟨xs, hxs, hd⟩ := h
  obtain ⟨ys, hys, hd'⟩ := h'
  have hdropped : e₂.stats.msgsDroppedExpired = _ := congrArg Delivery.dropped hd
  have htrace : e₂.trace = _ := congrArg Delivery.trace hd
  refine ⟨xs ++ ys, ?_, ?_⟩
  · intro x hx
    rcases List.mem_append.mp hx with h | h
    · exact hxs x h
    · exact hys x h
  · rw [hd', hdropped, htrace, hd, expiries_append, UInt32.ofNat_add, List.append_assoc,
      UInt32.add_assoc]

/-! ## Handing frames to the transport -/

/-- What every sending step keeps: the engine in order, its tables and its name. -/
structure Sending (P : MessageEnvelope → Prop) (e e' : DeliveryEngine) : Prop where
  inv : Inv P e'
  sends : SendsOnly e e'
  books : e'.books = e.books
  localId : e'.localId = e.localId
  cfg : e'.cfg = e.cfg

theorem Sending.refl (inv : Inv P e) : Sending P e e := ⟨inv, .of_eq rfl, rfl, rfl, rfl⟩

theorem Sending.trans (h : Sending P e₁ e₂) (h' : Sending P e₂ e₃) : Sending P e₁ e₃ :=
  ⟨h'.inv, h.sends.trans h'.sends, h'.books.trans h.books, h'.localId.trans h.localId, h'.cfg.trans h.cfg⟩

theorem sendViaTransport_spec (inv : Inv P e) (hnow : nowUs > 0) (hvalid : envelopeValid env) :
    ∃ res e', e.sendViaTransport env nowUs = .ok (res, e') ∧ Sending P e e' := by
  unfold sendViaTransport
  simp only [ensure_pos hnow, ok_bind]
  split
  case isTrue _ => exact ⟨_, e, rfl, .refl inv⟩
  case isFalse _ =>
    obtain ⟨r, sendResults, hsend⟩ := sendMessage_eq e env
    have hinv : Inv P { e with
        transport := { e.transport with sendResults }, trace := e.trace ++ [.sent env r] } := { inv with }
    refine ⟨r, _, ensure_bind_eq_ok.mpr ⟨hvalid, congrArg Except.ok hsend⟩, hinv, ?_, rfl, rfl, rfl⟩
    exact .sent (.sent env r) ⟨rfl, rfl⟩ rfl

theorem sendFragmentsLoop_spec (hnow : nowUs > 0) (frags : List MessageEnvelope)
    (hvalid : ∀ frag ∈ frags, envelopeValid frag) :
    ∀ (anySent : Bool) {e : DeliveryEngine}, Inv P e → ∃ res e',
      sendFragments.loop nowUs frags anySent e = .ok (res, e') ∧ Sending P e e' := by
  induction frags with
  | nil => exact fun _ e inv => ⟨.ok, e, rfl, .refl inv⟩
  | cons frag frags ih =>
    intro anySent e inv
    obtain ⟨res, e₁, hsend, hsending⟩ :=
      sendViaTransport_spec inv hnow (hvalid frag List.mem_cons_self)
    rw [sendFragments.loop, hsend, ok_bind]
    dsimp only
    split
    case isTrue _ => exact ⟨_, e₁, rfl, hsending⟩
    case isFalse _ =>
      obtain ⟨res', e₂, hrest, hsending'⟩ :=
        ih (fun x hx => hvalid x (List.mem_cons_of_mem frag hx)) true hsending.inv
      exact ⟨res', e₂, hrest, hsending.trans hsending'⟩

theorem sendFragments_spec (inv : Inv P e) (hnow : nowUs > 0) (hvalid : envelopeValid env) :
    ∃ res e', e.sendFragments env nowUs = .ok (res, e') ∧ Sending P e e' := by
  have hneeds : needsFragmentation env =
      .ok (decide (env.payloadLength.toNat > fragMaxPayloadBytes)) :=
    ensure_bind_eq_ok.mpr ⟨hvalid.2.1, rfl⟩
  unfold sendFragments
  simp only [ensure_pos hvalid, ok_bind, hneeds]
  by_cases hlarge : env.payloadLength.toNat > fragMaxPayloadBytes
  · obtain ⟨frags, hfrags, hlen, hpieces⟩ := fragmentMessage_spec hvalid hlarge
    have hall : ∀ frag ∈ frags, envelopeValid frag := by
      intro frag hfrag
      obtain ⟨k, hk, rfl⟩ := List.getElem_of_mem hfrag
      exact IsPiece.valid hvalid (hpieces k hk)
    have hcount : 1 ≤ frags.length ∧ frags.length ≤ fragMaxCount := by
      have hsmall : env.payloadLength.toNat ≤ 4096 := hvalid.2.1
      rw [hlen]
      unfold pieceCount fragMaxPayloadBytes fragMaxCount
      unfold fragMaxPayloadBytes at hlarge
      omega
    have hne : ¬ frags.isEmpty = true := by
      intro h
      rw [List.isEmpty_iff.mp h] at hcount
      exact absurd hcount.1 (by decide)
    obtain ⟨res, e', hloop, hsending⟩ := sendFragmentsLoop_spec hnow frags hall false inv
    refine ⟨res, e', ?_, hsending⟩
    rw [decide_eq_true hlarge, if_neg (by decide), hfrags, ok_bind, if_neg hne]
    exact ensure_bind_eq_ok.mpr ⟨hcount.2, hloop⟩
  · rw [decide_eq_false hlarge, if_pos (by decide)]
    exact sendViaTransport_spec inv hnow hvalid

/-! ## Bookkeeping -/

theorem reserveBookkeeping_spec {t : AckTracker} {m : RetryManager} (ht : t.Inv) (hm : m.Inv)
    (hvalid : envelopeValid env) (hsent : env.timestampUs > 0) (cfg : ChannelConfig) (hnow : nowUs > 0) :
    ∃ res t' m', reserveBookkeeping t m env cfg nowUs = .ok (res, t', m') ∧ t'.Inv ∧ m'.Inv := by
  unfold reserveBookkeeping
  simp only [ensure_pos hnow, ensure_pos hvalid, ok_bind]
  split
  case isTrue _ => exact ⟨_, _, _, rfl, ht, hm⟩
  case isFalse _ =>
    obtain ⟨r, t₁, htrack, ht₁, -⟩ := AckTracker.track_spec ht
      (timestampDeadlineUs nowUs cfg.recvTimeoutMs) hvalid.2.2 hsent
    rw [htrack, ok_bind]
    dsimp only
    split
    case isTrue _ => exact ⟨_, _, _, rfl, ht₁, hm⟩
    case isFalse _ =>
      split
      case isTrue _ => exact ⟨_, _, _, rfl, ht₁, hm⟩
      case isFalse _ =>
        obtain ⟨r', m₁, hsched, hm₁, -⟩ :=
          RetryManager.schedule_spec hm hvalid cfg.maxRetries cfg.retryBackoffMs nowUs
        rw [hsched, ok_bind]
        dsimp only
        split
        case isTrue _ =>
          obtain ⟨r'', t₂, hcancel, ht₂⟩ := AckTracker.cancel_spec ht₁ env.messageId hvalid.2.2
          rw [hcancel, ok_bind]
          exact ⟨_, _, _, rfl, ht₂, hm₁⟩
        case isFalse _ => exact ⟨_, _, _, rfl, ht₁, hm₁⟩

theorem rollbackOnTransportFailure_spec {t : AckTracker} {m : RetryManager} (ht : t.Inv) (hm : m.Inv)
    (hvalid : envelopeValid env)
    (hclass : env.reliabilityClass = .reliableAck ∨ env.reliabilityClass = .reliableRetry) :
    ∃ t' m', rollbackOnTransportFailure t m env = .ok (t', m') ∧ t'.Inv ∧ m'.Inv := by
  obtain ⟨r, t₁, hcancel, ht₁⟩ := AckTracker.cancel_spec ht env.messageId hvalid.2.2
  unfold rollbackOnTransportFailure
  simp only [ensure_pos hvalid, ensure_pos hclass, ok_bind, hcancel]
  split
  case isTrue _ =>
    obtain ⟨r', m₁, hcancel', hm₁⟩ := RetryManager.cancel_spec hm env.messageId hvalid.2.2
    rw [hcancel', ok_bind]
    exact ⟨_, _, rfl, ht₁, hm₁⟩
  case isFalse _ => exact ⟨_, _, rfl, ht₁, hm⟩

theorem handleSendFragmentsFailure_spec {t : AckTracker} {m : RetryManager} (ht : t.Inv) (hm : m.Inv)
    (hvalid : envelopeValid env) {res : Result} (hres : res ≠ .ok) :
    ∃ reported t' m', handleSendFragmentsFailure t m env res = .ok (reported, t', m') ∧
      reported ≠ .ok ∧ t'.Inv ∧ m'.Inv := by
  unfold handleSendFragmentsFailure
  simp only [ensure_pos hres, ensure_pos hvalid, ok_bind]
  split
  case isTrue _ => exact ⟨_, _, _, rfl, by decide, ht, hm⟩
  case isFalse _ =>
    split
    case isTrue hclass =>
      obtain ⟨t', m', hrun, ht', hm'⟩ := rollbackOnTransportFailure_spec ht hm hvalid hclass
      rw [hrun, ok_bind]
      exact ⟨_, _, _, rfl, hres, ht', hm'⟩
    case isFalse _ => exact ⟨_, _, _, rfl, hres, ht, hm⟩

theorem recordSendFailure_spec (inv : Inv P e) {res : Result} (hres : res ≠ .ok)
    (hsent : env.timestampUs > 0) :
    ∃ e', e.recordSendFailure env res = .ok e' ∧ Sending P e e' := by
  unfold recordSendFailure
  simp only [ensure_pos hres, ok_bind]
  split
  case isTrue _ =>
    have hinv₁ : Inv P { e with
        stats := { e.stats with msgsDroppedExpired := e.stats.msgsDroppedExpired + 1 }
        trace := e.trace ++ [.expired env] } := { inv with }
    obtain ⟨events, hemit, hevents⟩ := emitEvent_spec hinv₁ .expiryDrop env.messageId env.destinationId
      hsent res
    have hinv₂ : Inv P { e with
        stats := { e.stats with msgsDroppedExpired := e.stats.msgsDroppedExpired + 1 }
        trace := e.trace ++ [.expired env], events } := { hinv₁ with events := hevents }
    exact ⟨_, hemit, hinv₂, ⟨[.expired env], by simp [Effect.outward], rfl⟩, rfl, rfl, rfl⟩
  case isFalse _ =>
    obtain ⟨events, hemit, hevents⟩ := emitEvent_spec inv .sendFail env.messageId env.destinationId
      hsent res
    have hinv₁ : Inv P { e with events } := { inv with events := hevents }
    exact ⟨_, hemit, hinv₁, .of_eq rfl, rfl, rfl, rfl⟩

/-! ## The envelope that is sent -/

theorem nextSeqFor_spec (e : DeliveryEngine) {dst : NodeId} (hdst : dst ≠ 0) :
    ∃ seq seqState, e.nextSeqFor dst = .ok (seq, { e with seqState }) := by
  unfold nextSeqFor
  simp only [ensure_pos hdst, ok_bind]
  cases firstSlot? (fun s => s.active && s.dst == dst) e.seqState with
  | some i => exact ⟨_, _, rfl⟩
  | none =>
    cases firstSlot? (fun s => !s.active) e.seqState with
    | some i => exact ⟨_, _, rfl⟩
    | none => exact ⟨0, e.seqState, rfl⟩

theorem nextSeqFor_broadcast (e : DeliveryEngine) :
    e.nextSeqFor 0 = .error (.assertion .engineNextSeqFor) := by
  have hzero : ¬ (0 : NodeId) ≠ 0 := fun h => h rfl
  unfold nextSeqFor
  simp only [ensure_neg hzero, error_bind]

/-- `send` has to number the message. -/
def NeedsSequence (cfg : ChannelConfig) (env : MessageEnvelope) : Prop :=
  envelopeIsData env ∧ env.sequenceNum = 0 ∧ cfg.ordering = .ordered

instance (cfg : ChannelConfig) (env : MessageEnvelope) : Decidable (NeedsSequence cfg env) :=
  inferInstanceAs (Decidable (_ ∧ _ ∧ _))

/-- The envelope of the caller can be sent: its own part of `envelopeValid`. -/
def Sendable (env : MessageEnvelope) : Prop :=
  env.messageType ≠ .invalid ∧ env.payloadLength.toNat ≤ msgMaxPayloadBytes

instance (env : MessageEnvelope) : Decidable (Sendable env) := inferInstanceAs (Decidable (_ ∧ _))

theorem prepareEnvelope_spec (inv : Inv P e) (nowUs : UInt64)
    (hseq : NeedsSequence e.cfg env → env.destinationId ≠ 0) :
    ∃ sequenceNum idGen seqState, e.prepareEnvelope env nowUs = .ok ({ env with
        sourceId := e.localId, messageId := e.idGen.next, timestampUs := nowUs, sequenceNum
        fragmentIndex := 0, fragmentCount := 1, totalPayloadLength := env.payloadLength.toUInt16 },
        { e with idGen, seqState }) ∧ idGen.next ≠ 0 := by
  obtain ⟨idGen, htake, hidGen⟩ := MessageIdGen.take_spec inv.idGen
  by_cases hneeds : NeedsSequence e.cfg env
  · obtain ⟨seq, seqState, hnext⟩ := nextSeqFor_spec { e with idGen } (hseq hneeds)
    refine ⟨seq, idGen, seqState, bind_eq_ok.mpr ⟨_, htake, ?_⟩, hidGen⟩
    refine (if_pos hneeds).trans ?_
    exact bind_eq_ok.mpr ⟨_, hnext, rfl⟩
  · refine ⟨env.sequenceNum, idGen, e.seqState, bind_eq_ok.mpr ⟨_, htake, ?_⟩, hidGen⟩
    exact (if_neg hneeds).trans rfl

theorem prepareEnvelope_broadcast (inv : Inv P e) (nowUs : UInt64) (hneeds : NeedsSequence e.cfg env)
    (hdst : env.destinationId = 0) :
    e.prepareEnvelope env nowUs = .error (.assertion .engineNextSeqFor) := by
  obtain ⟨idGen, htake, -⟩ := MessageIdGen.take_spec inv.idGen
  refine bind_eq_error.mpr (.inr ⟨_, htake, ?_⟩)
  refine (if_pos hneeds).trans ?_
  refine bind_eq_error.mpr (.inl ?_)
  rw [hdst]
  exact nextSeqFor_broadcast _

/-! ## The whole call -/

/-- The assertion that `send` runs into, if it does. -/
def sendFault (e : DeliveryEngine) (env : MessageEnvelope) (nowUs : UInt64) : Option Site :=
  if nowUs = 0 then some .engineSend
  else if e.Stale nowUs then none
  else if NeedsSequence e.cfg env ∧ env.destinationId = 0 then some .engineNextSeqFor
  else if ¬ Sendable env then some .reserveBookkeeping
  else none

/-- What every call that does not receive keeps. -/
structure Outbound (P : MessageEnvelope → Prop) (e e' : DeliveryEngine) : Prop where
  inv : Inv P e'
  sends : SendsOnly e e'
  localId : e'.localId = e.localId

theorem Outbound.trans (h : Outbound P e₁ e₂) (h' : Outbound P e₂ e₃) : Outbound P e₁ e₃ :=
  ⟨h'.inv, h.sends.trans h'.sends, h'.localId.trans h.localId⟩

theorem Sending.outbound (h : Sending P e e') : Outbound P e e' := ⟨h.inv, h.sends, h.localId⟩

theorem sendPrepared_spec (inv : Inv P e) (hnow : nowUs > 0) (hvalid : envelopeValid env)
    (hsent : env.timestampUs > 0) (hsource : env.sourceId = e.localId) (hid : env.messageId ≠ 0) :
    ∃ answer e', e.sendPrepared env nowUs = .ok (answer, e') ∧ Outbound P e e' := by
  obtain ⟨bookRes, t, m, hreserve, ht, hm⟩ :=
    reserveBookkeeping_spec inv.ackTracker inv.retryManager hvalid hsent e.cfg hnow
  have hinv₁ : Inv P { e with ackTracker := t, retryManager := m } :=
    { inv with ackTracker := ht, retryManager := hm }
  have hout₁ : Outbound P e { e with ackTracker := t, retryManager := m } :=
    ⟨hinv₁, .of_eq rfl, rfl⟩
  unfold sendPrepared
  rw [hreserve, ok_bind]
  dsimp only
  split
  case isTrue hbook =>
    obtain ⟨e', hrecord, hsending⟩ := recordSendFailure_spec hinv₁ hbook hsent
    rw [hrecord, ok_bind]
    exact ⟨_, e', rfl, hout₁.trans hsending.outbound⟩
  case isFalse _ =>
    obtain ⟨res, e₂, hsend, hsending⟩ := sendFragments_spec hinv₁ hnow hvalid
    have hout₂ := hout₁.trans hsending.outbound
    rw [hsend, ok_bind]
    dsimp only
    split
    case isTrue hres =>
      obtain ⟨reported, t', m', hfail, hreported, ht', hm'⟩ :=
        handleSendFragmentsFailure_spec hout₂.inv.ackTracker hout₂.inv.retryManager hvalid hres
      have hinv₃ : Inv P { e₂ with ackTracker := t', retryManager := m' } :=
        { hout₂.inv with ackTracker := ht', retryManager := hm' }
      have hout₃ : Outbound P e₂ { e₂ with ackTracker := t', retryManager := m' } :=
        ⟨hinv₃, .of_eq rfl, rfl⟩
      obtain ⟨e', hrecord, hsending'⟩ := recordSendFailure_spec hinv₃ hreported hsent
      rw [hfail, ok_bind]
      dsimp only
      rw [hrecord, ok_bind]
      exact ⟨_, e', rfl, hout₂.trans (hout₃.trans hsending'.outbound)⟩
    case isFalse _ =>
      have hinv₃ : Inv P { e₂ with stats := { e₂.stats with msgsSent := e₂.stats.msgsSent + 1 } } :=
        { hout₂.inv with }
      obtain ⟨events, hemit, hevents⟩ := emitEvent_spec hinv₃ .sendOk env.messageId env.destinationId
        hnow .ok
      have hout₃ : Outbound P e₂ { e₂ with
          stats := { e₂.stats with msgsSent := e₂.stats.msgsSent + 1 }, events } :=
        ⟨{ hinv₃ with events := hevents }, .of_eq rfl, rfl⟩
      refine ⟨(.ok, env), _, bind_eq_ok.mpr ⟨_, hemit, ?_⟩, hout₂.trans hout₃⟩
      exact ensure_bind_eq_ok.mpr ⟨hsource.trans hout₂.localId.symm,
        ensure_bind_eq_ok.mpr ⟨hid, rfl⟩⟩

/-- `send` returns unless it is refused for its time, its destination or its envelope. -/
theorem send_spec (inv : Inv P e) (hfault : e.sendFault env nowUs = none) :
    ∃ answer e', e.send env nowUs = .ok (answer, e') ∧ Outbound P e e' := by
  unfold sendFault at hfault
  split at hfault
  case isTrue _ => cases hfault
  case isFalse hne =>
  have hnow : nowUs > 0 := UInt64.pos_iff_ne_zero.mpr hne
  unfold send
  simp only [ensure_pos hnow, ok_bind]
  by_cases hstale : e.Stale nowUs
  · rw [if_pos (show e.lastNowUs > 0 ∧ nowUs < e.lastNowUs from hstale)]
    exact ⟨_, e, rfl, inv, .of_eq rfl, rfl⟩
  rw [if_neg (show ¬ (e.lastNowUs > 0 ∧ nowUs < e.lastNowUs) from hstale)]
  rw [if_neg hstale] at hfault
  split at hfault
  case isTrue _ => cases hfault
  case isFalse hseq =>
  split at hfault
  case isTrue _ => cases hfault
  case isFalse hsendable =>
  have hsendable : Sendable env := Classical.not_not.mp hsendable
  have hinv₁ : Inv P { e with lastNowUs := nowUs } := { inv with }
  obtain ⟨sequenceNum, idGen, seqState, hprepare, hidGen⟩ :=
    prepareEnvelope_spec hinv₁ nowUs fun hneeds hdst => hseq ⟨hneeds, hdst⟩
  have hinv₂ : Inv P { e with lastNowUs := nowUs, idGen, seqState } := { inv with idGen := hidGen }
  have hvalid : envelopeValid { env with
      sourceId := e.localId, messageId := e.idGen.next, timestampUs := nowUs, sequenceNum
      fragmentIndex := 0, fragmentCount := 1, totalPayloadLength := env.payloadLength.toUInt16 } :=
    ⟨hsendable.1, hsendable.2, inv.localId⟩
  obtain ⟨answer, e', hrun, hout⟩ := sendPrepared_spec hinv₂ hnow hvalid hnow rfl inv.idGen
  refine ⟨answer, e', bind_eq_ok.mpr ⟨_, hprepare, hrun⟩, hout.inv, ?_, hout.localId⟩
  exact SendsOnly.trans (.of_eq rfl) hout.sends

theorem send_fault (inv : Inv P e) {site : Site} (hfault : e.sendFault env nowUs = some site) :
    e.send env nowUs = .error (.assertion site) := by
  unfold sendFault at hfault
  split at hfault
  case isTrue hzero =>
    cases hfault
    have hnot : ¬ nowUs > 0 := by
      rw [hzero]
      decide
    unfold send
    simp only [ensure_neg hnot, error_bind]
  case isFalse hne =>
  have hnow : nowUs > 0 := UInt64.pos_iff_ne_zero.mpr hne
  split at hfault
  case isTrue _ => cases hfault
  case isFalse hstale =>
  have hinv₁ : Inv P { e with lastNowUs := nowUs } := { inv with }
  unfold send
  simp only [ensure_pos hnow, ok_bind]
  rw [if_neg (show ¬ (e.lastNowUs > 0 ∧ nowUs < e.lastNowUs) from hstale)]
  split at hfault
  case isTrue hseq =>
    cases hfault
    exact bind_eq_error.mpr (.inl (prepareEnvelope_broadcast hinv₁ nowUs hseq.1 hseq.2))
  case isFalse hseq =>
    split at hfault
    case isFalse _ => cases hfault
    case isTrue hbad =>
      cases hfault
      obtain ⟨sequenceNum, idGen, seqState, hprepare, -⟩ :=
        prepareEnvelope_spec hinv₁ nowUs fun hneeds hdst => hseq ⟨hneeds, hdst⟩
      refine bind_eq_error.mpr (.inr ⟨_, hprepare, ?_⟩)
      refine bind_eq_error.mpr (.inl (bind_eq_error.mpr (.inr ⟨(), ensure_pos hnow, ?_⟩)))
      refine bind_eq_error.mpr (.inl (ensure_neg ?_))
      exact fun hvalid => hbad ⟨hvalid.1, hvalid.2.1⟩

/-! ## Retransmission -/

/-- The assertion that `pump_retries` runs into, if it does. -/
def pumpFault (e : DeliveryEngine) (nowUs : UInt64) : Option Site :=
  if nowUs = 0 then some .enginePumpRetries
  else if e.Stale nowUs then none
  else if ∃ i : Fin ackTrackerCapacity, e.retryManager.slots[i].endless then some .slotHasExpired
  else if ∃ i : Fin ackTrackerCapacity,
      e.retryManager.slots[i].slowAt (e.retryManager.collectTime nowUs) then some .advanceBackoff
  else none

theorem pumpLoop_spec (hnow : nowUs > 0) (collected : List MessageEnvelope)
    (hvalid : ∀ env ∈ collected, envelopeValid env) :
    ∀ {e : DeliveryEngine}, Inv P e → ∃ e', pumpRetries.loop nowUs collected e = .ok e' ∧
      Outbound P e e' := by
  induction collected with
  | nil => exact fun {e} inv => ⟨e, rfl, inv, .of_eq rfl, rfl⟩
  | cons env rest ih =>
    intro e inv
    obtain ⟨res, e₁, hsend, hsending⟩ := sendFragments_spec inv hnow (hvalid env List.mem_cons_self)
    have hevent : ∃ e₂, (if res ≠ .ok then pure e₁
        else e₁.emitEvent .retryFired env.messageId env.destinationId nowUs .ok) = .ok e₂ ∧
        Outbound P e₁ e₂ := by
      split
      case isTrue _ => exact ⟨e₁, rfl, hsending.inv, .of_eq rfl, rfl⟩
      case isFalse _ =>
        obtain ⟨events, hemit, hevents⟩ := emitEvent_spec hsending.inv .retryFired env.messageId
          env.destinationId hnow .ok
        have hinv : Inv P { e₁ with events } := { hsending.inv with events := hevents }
        exact ⟨_, hemit, hinv, .of_eq rfl, rfl⟩
    obtain ⟨e₂, hemit, hout⟩ := hevent
    obtain ⟨e', hrest, hout'⟩ := ih (fun x hx => hvalid x (List.mem_cons_of_mem env hx)) hout.inv
    refine ⟨e', bind_eq_ok.mpr ⟨_, hsend, ?_⟩, hsending.outbound.trans (hout.trans hout')⟩
    dsimp only
    rw [ite_bind, hemit, ok_bind, hrest]

theorem pumpRetries_spec (inv : Inv P e) (hfault : e.pumpFault nowUs = none) :
    ∃ n e', e.pumpRetries nowUs = .ok (n, e') ∧ Outbound P e e' := by
  unfold pumpFault at hfault
  split at hfault
  case isTrue _ => cases hfault
  case isFalse hne =>
  have hnow : nowUs > 0 := UInt64.pos_iff_ne_zero.mpr hne
  unfold pumpRetries
  simp only [ensure_pos hnow, ok_bind]
  by_cases hstale : e.Stale nowUs
  · rw [if_pos (show e.lastNowUs > 0 ∧ nowUs < e.lastNowUs from hstale)]
    exact ⟨_, e, rfl, inv, .of_eq rfl, rfl⟩
  rw [if_neg (show ¬ (e.lastNowUs > 0 ∧ nowUs < e.lastNowUs) from hstale)]
  rw [if_neg hstale] at hfault
  split at hfault
  case isTrue _ => cases hfault
  case isFalse hend =>
  split at hfault
  case isTrue _ => cases hfault
  case isFalse hslow =>
  obtain ⟨out, m, hcollect, hm, hlen, hvalid⟩ := RetryManager.collectDue_spec hne inv.retryManager
    (fun i h => hend ⟨i, h⟩) (fun i h => hslow ⟨i, h⟩)
  have hinv₁ : Inv P { e with lastNowUs := nowUs, retryManager := m } := { inv with retryManager := hm }
  obtain ⟨e', hloop, hout⟩ := pumpLoop_spec hnow out hvalid hinv₁
  refine ⟨out.length, e', bind_eq_ok.mpr ⟨_, hcollect, ensure_bind_eq_ok.mpr ⟨hlen,
    bind_eq_ok.mpr ⟨e', hloop, rfl⟩⟩⟩, hout.inv, SendsOnly.trans (.of_eq rfl) hout.sends, hout.localId⟩

theorem pumpRetries_fault (inv : Inv P e) {site : Site} (hfault : e.pumpFault nowUs = some site) :
    e.pumpRetries nowUs = .error (.assertion site) := by
  unfold pumpFault at hfault
  split at hfault
  case isTrue hzero =>
    cases hfault
    have hnot : ¬ nowUs > 0 := by
      rw [hzero]
      decide
    unfold pumpRetries
    simp only [ensure_neg hnot, error_bind]
  case isFalse hne =>
  have hnow : nowUs > 0 := UInt64.pos_iff_ne_zero.mpr hne
  split at hfault
  case isTrue _ => cases hfault
  case isFalse hstale =>
  unfold pumpRetries
  simp only [ensure_pos hnow, ok_bind]
  rw [if_neg (show ¬ (e.lastNowUs > 0 ∧ nowUs < e.lastNowUs) from hstale)]
  split at hfault
  case isTrue hend =>
    cases hfault
    obtain ⟨i, hi⟩ := hend
    exact bind_eq_error.mpr (.inl (RetryManager.collectDue_endless hne inv.retryManager hi))
  case isFalse hend =>
    split at hfault
    case isFalse _ => cases hfault
    case isTrue hslow =>
      cases hfault
      obtain ⟨i, hi⟩ := hslow
      exact bind_eq_error.mpr (.inl (RetryManager.collectDue_slow hne inv.retryManager
        (fun j hj => hend ⟨j, hj⟩) hi))

/-! ## Sweeping -/

theorem emitTimeouts_spec (hnow : nowUs > 0) (collected : List MessageEnvelope) :
    ∀ {e : DeliveryEngine}, Inv P e → ∃ events, sweepAckTimeouts.emit nowUs collected e =
      .ok { e with events } ∧ events.Inv := by
  induction collected with
  | nil => exact fun {e} inv => ⟨e.events, rfl, inv.events⟩
  | cons env rest ih =>
    intro e inv
    obtain ⟨events, hemit, hinv⟩ := emitEvent_spec inv .ackTimeout env.messageId env.destinationId
      hnow .errTimeout
    obtain ⟨events', hrest, hinv'⟩ := ih (e := { e with events }) { inv with events := hinv }
    exact ⟨events', bind_eq_ok.mpr ⟨_, hemit, hrest⟩, hinv'⟩

/-- A sweep that the guard accepts sweeps the gate. -/
theorem sweepAckTimeouts_spec (inv : Inv P e) (hnow : nowUs > 0) (hfresh : ¬ e.Stale nowUs) :
    ∃ s n e', e.sweepAckTimeouts nowUs = .ok (n, e') ∧ Inv P e' ∧
      e.ordering.sweepExpiredHolds nowUs orderingHoldCount = .ok s ∧
      Sweeping (Accepted P) e.ordering nowUs orderingHoldCount s ∧
      e'.delivery = { e.delivery with
        ordering := s.buffer
        dropped := e.stats.msgsDroppedExpired + UInt32.ofNat s.out.length
        trace := e.trace ++ s.out.map .expired } ∧ e'.localId = e.localId ∧ e'.seqState = e.seqState := by
  obtain ⟨r₁, hsweep₁, hr₁⟩ := ReassemblyBuffer.sweepExpired_spec inv.reassembly hnow
  have hr₂ := ReassemblyBuffer.sweepStale_inv hr₁ nowUs (e.cfg.recvTimeoutMs.toUInt64 * 1000)
  obtain ⟨s, hsweep, hsweeping⟩ := sweepExpiredHolds_spec inv.ordering hnow
  have hlen : s.out.length ≤ orderingHoldCount := by
    rw [hsweeping.count]
    exact hsweeping.bound
  have hinv₁ : Inv P { e with
      lastNowUs := nowUs, ordering := s.buffer
      reassembly := (r₁.sweepStale nowUs (e.cfg.recvTimeoutMs.toUInt64 * 1000)).2 } :=
    { inv with ordering := hsweeping.inv, reassembly := hr₂ }
  obtain ⟨events, haccount, hevents⟩ := accountOrderingExpiryDrops_spec hinv₁ hnow s.out hlen
  obtain ⟨collected, t, hcollect, ht, hcount⟩ :=
    AckTracker.sweepExpired_spec inv.ackTracker (UInt64.pos_iff_ne_zero.mp hnow) ackTrackerCapacity
  have hinv₂ : Inv P { e with
      lastNowUs := nowUs, ordering := s.buffer
      reassembly := (r₁.sweepStale nowUs (e.cfg.recvTimeoutMs.toUInt64 * 1000)).2
      stats := { e.stats with
        msgsDroppedExpired := e.stats.msgsDroppedExpired + UInt32.ofNat s.out.length }
      events, trace := e.trace ++ s.out.map .expired, ackTracker := t } :=
    { hinv₁ with events := hevents, ackTracker := ht }
  obtain ⟨events', hemit, hevents'⟩ := emitTimeouts_spec hnow collected hinv₂
  have hinv₃ : Inv P { e with
      lastNowUs := nowUs, ordering := s.buffer
      reassembly := (r₁.sweepStale nowUs (e.cfg.recvTimeoutMs.toUInt64 * 1000)).2
      stats := { e.stats with
        msgsDroppedExpired := e.stats.msgsDroppedExpired + UInt32.ofNat s.out.length }
      events := events', trace := e.trace ++ s.out.map .expired, ackTracker := t } :=
    { hinv₂ with events := hevents' }
  refine ⟨s, collected.length, _, ?_, hinv₃, hsweep, hsweeping, rfl, rfl, rfl⟩
  unfold sweepAckTimeouts
  simp only [ensure_pos hnow, ok_bind]
  rw [if_neg (show ¬ (e.lastNowUs > 0 ∧ nowUs < e.lastNowUs) from hfresh)]
  rw [hsweeping.count] at haccount
  refine bind_eq_ok.mpr ⟨r₁, hsweep₁, bind_eq_ok.mpr ⟨s, hsweep, bind_eq_ok.mpr ⟨_, haccount, ?_⟩⟩⟩
  rw [← hsweeping.count]
  exact bind_eq_ok.mpr ⟨_, hcollect, ensure_bind_eq_ok.mpr ⟨hcount, bind_eq_ok.mpr ⟨_, hemit, rfl⟩⟩⟩

theorem sweepAckTimeouts_stale (hnow : nowUs > 0) (hstale : e.Stale nowUs) :
    e.sweepAckTimeouts nowUs = .ok (0, e) := by
  unfold sweepAckTimeouts
  simp only [ensure_pos hnow, ok_bind]
  rw [if_pos (show e.lastNowUs > 0 ∧ nowUs < e.lastNowUs from hstale)]
  rfl

theorem sweepAckTimeouts_zero (e : DeliveryEngine) :
    e.sweepAckTimeouts 0 = .error (.assertion .engineSweepAckTimeouts) := by
  have hzero : ¬ (0 : UInt64) > 0 := by decide
  unfold sweepAckTimeouts
  simp only [ensure_neg hzero, error_bind]

/-! ## Observing -/

theorem pollEvent_spec (inv : Inv P e) :
    ∃ out events, e.pollEvent = .ok (out, { e with events }) ∧ events.Inv := by
  obtain ⟨out, events, hpop, hevents⟩ := DeliveryEventRing.pop_spec inv.events
  refine ⟨out, events, bind_eq_ok.mpr ⟨_, DeliveryEventRing.size_eq inv.events, ?_⟩, hevents⟩
  exact ensure_bind_eq_ok.mpr ⟨inv.events.count, bind_eq_ok.mpr ⟨_, hpop, rfl⟩⟩

theorem drainEvents_spec (room : Nat) :
    ∀ {e : DeliveryEngine}, Inv P e → ∃ out events, drainEvents room e = .ok (out, { e with events }) ∧
      events.Inv := by
  induction room with
  | zero => exact fun {e} inv => ⟨[], e.events, rfl, inv.events⟩
  | succ room ih =>
    intro e inv
    obtain ⟨out, events, hpop, hevents⟩ := DeliveryEventRing.pop_spec inv.events
    cases out with
    | none => exact ⟨[], events, bind_eq_ok.mpr ⟨_, hpop, rfl⟩, hevents⟩
    | some ev =>
      obtain ⟨rest, events', hrest, hevents'⟩ := ih (e := { e with events }) { inv with events := hevents }
      exact ⟨ev :: rest, events', bind_eq_ok.mpr ⟨_, hpop, bind_eq_ok.mpr ⟨_, hrest, rfl⟩⟩, hevents'⟩

end DeliveryEngine

end MessageEngine
