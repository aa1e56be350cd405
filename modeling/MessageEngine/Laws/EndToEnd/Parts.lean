import MessageEngine.Laws.Outbound.Renumbering
import MessageEngine.Laws.Conservation.RetryManager

/-!
# What receiving leaves alone

A `receive` can do a great deal to the gate, the filter and the tables, but little to what the engine sends:
it hands over acknowledgements and nothing else, it draws no message identifier, and it takes entries out of
the retry table and puts none in. The fragments that wait to be joined change by the one frame that was
handed up.

## What is proved

- `receive_inward`: a `receive` sends acknowledgements only, whatever the transport hands up, and the
  fragments that wait change by the frame it hands up (`Polls`).
-/

namespace MessageEngine

open Outcome Table

theorem RetryManager.onAck_kept {m m' : RetryManager} {src : NodeId} {msgId : UInt64} {r : Result}
    (h : m.onAck src msgId = .ok (r, m')) (i : Fin ackTrackerCapacity) (hi : m'.slots[i].active = true) :
    m'.slots[i] = m.slots[i] := by
  obtain ⟨-, h⟩ := ensure_bind_eq_ok.mp h
  cases hfound : firstSlot? (RetryEntry.matches src msgId) m.slots with
  | none =>
    rw [hfound] at h
    cases h
    rfl
  | some k =>
    rw [hfound] at h
    obtain ⟨-, h⟩ := ensure_bind_eq_ok.mp h
    obtain ⟨-, h⟩ := ensure_bind_eq_ok.mp h
    cases h
    unfold release at hi ⊢
    rw [getElem_set_fin] at hi ⊢
    split
    case isTrue hk =>
      rw [if_pos hk] at hi
      cases hi
    case isFalse _ => rfl

namespace DeliveryEngine

variable {e e₁ e₂ e' : DeliveryEngine} {env frame : MessageEnvelope} {nowUs : UInt64} {src : NodeId} {reply : Reply}

/-- An acknowledgement as this node writes it. -/
def AckOf (localId : NodeId) (env : MessageEnvelope) : Prop :=
  ∃ data nowUs, env = envelopeMakeAck data localId nowUs

/-- Nothing was sent but acknowledgements, and nothing was added that could be sent later. -/
structure Inward (e e' : DeliveryEngine) : Prop where
  localId : e'.localId = e.localId
  inbound : e'.transport.inbound = e.transport.inbound
  idGen : e'.idGen = e.idGen
  retries : ∀ i : Fin ackTrackerCapacity, e'.retryManager.slots[i].active = true →
    e'.retryManager.slots[i] = e.retryManager.slots[i]
  acks : ∀ env res, Effect.sent env res ∈ e'.trace → Effect.sent env res ∈ e.trace ∨ AckOf e.localId env

/-- Nor did the fragments that wait change. -/
structure Settled (e e' : DeliveryEngine) : Prop extends Inward e e' where
  reassembly : e'.reassembly = e.reassembly

theorem Inward.trans (h : Inward e e₁) (h' : Inward e₁ e₂) : Inward e e₂ where
  localId := h'.localId.trans h.localId
  inbound := h'.inbound.trans h.inbound
  idGen := h'.idGen.trans h.idGen
  retries := by
    intro i hi
    have hsame := h'.retries i hi
    rw [hsame] at hi ⊢
    exact h.retries i hi
  acks := by
    intro env res hsent
    rcases h'.acks env res hsent with hsent | hack
    · exact h.acks env res hsent
    · rw [h.localId] at hack
      exact .inr hack

theorem Settled.refl (e : DeliveryEngine) : Settled e e := ⟨⟨rfl, rfl, rfl, fun _ _ => rfl, fun _ _ => .inl⟩, rfl⟩

theorem Settled.trans (h : Settled e e₁) (h' : Settled e₁ e₂) : Settled e e₂ :=
  ⟨h.toInward.trans h'.toInward, h'.reassembly.trans h.reassembly⟩

/-- What was not sent is not an acknowledgement either. -/
theorem Settled.noted {xs : List Effect} (hlocal : e'.localId = e.localId)
    (hinbound : e'.transport.inbound = e.transport.inbound) (hid : e'.idGen = e.idGen)
    (hretries : e'.retryManager = e.retryManager) (hreassembly : e'.reassembly = e.reassembly)
    (htrace : e'.trace = e.trace ++ xs) (hquiet : ∀ env res, Effect.sent env res ∉ xs) : Settled e e' := by
  refine ⟨⟨hlocal, hinbound, hid, fun i _ => by rw [hretries], fun env res hsent => ?_⟩, hreassembly⟩
  rw [htrace] at hsent
  rcases List.mem_append.mp hsent with hsent | hsent
  · exact .inl hsent
  · exact absurd hsent (hquiet env res)

/-- A change to other parts of the engine. -/
theorem Settled.of_parts (hlocal : e'.localId = e.localId)
    (hinbound : e'.transport.inbound = e.transport.inbound) (hid : e'.idGen = e.idGen)
    (hretries : e'.retryManager = e.retryManager) (hreassembly : e'.reassembly = e.reassembly)
    (htrace : e'.trace = e.trace) : Settled e e' := by
  have hempty : e'.trace = e.trace ++ [] := by rw [htrace, List.append_nil]
  apply Settled.noted hlocal hinbound hid hretries hreassembly hempty
  intro env res hsent
  cases hsent

/-! ## The parts of a receive -/

theorem settled_emitEvent {kind : DeliveryEventKind} {messageId : UInt64} {nodeId : NodeId} {timestampUs : UInt64}
    {result : Result} (h : e.emitEvent kind messageId nodeId timestampUs result = .ok e') : Settled e e' := by
  obtain ⟨-, h⟩ := ensure_bind_eq_ok.mp h
  obtain ⟨events, -, h⟩ := bind_eq_ok.mp h
  cases h
  exact .of_parts rfl rfl rfl rfl rfl rfl

theorem settled_sendDataAck (h : e.sendDataAck env nowUs = .ok e') : Settled e e' := by
  obtain ⟨-, h⟩ := ensure_bind_eq_ok.mp h
  obtain ⟨-, h⟩ := ensure_bind_eq_ok.mp h
  obtain ⟨r, sendResults, hsend⟩ := sendMessage_eq e (envelopeMakeAck env e.localId nowUs)
  dsimp only at h
  rw [hsend] at h
  cases h
  refine ⟨⟨rfl, rfl, rfl, fun _ _ => rfl, fun x res hsent => ?_⟩, rfl⟩
  rcases List.mem_append.mp hsent with hsent | hsent
  · exact .inl hsent
  · cases List.mem_singleton.mp hsent
    exact .inr ⟨env, nowUs, rfl⟩

theorem settled_emitRoutingDropEvent {res : Result} (h : e.emitRoutingDropEvent env res nowUs = .ok e') :
    Settled e e' := by
  obtain ⟨-, h⟩ := ensure_bind_eq_ok.mp h
  obtain ⟨-, h⟩ := ensure_bind_eq_ok.mp h
  split at h
  · exact settled_emitEvent h
  · exact settled_emitEvent h

theorem settled_note {x : Effect} (quiet : ∀ env res, Effect.sent env res ≠ x) : Settled e (e.note x) := by
  refine .noted rfl rfl rfl rfl rfl rfl fun env res hsent => ?_
  exact quiet env res (List.mem_singleton.mp hsent)

theorem settled_emitExpired (freed : List MessageEnvelope) :
    ∀ {e e' : DeliveryEngine}, accountOrderingExpiryDrops.emit nowUs freed e = .ok e' → Settled e e' := by
  induction freed with
  | nil =>
    intro e e' h
    cases h
    exact .refl e
  | cons env freed ih =>
    intro e e' h
    obtain ⟨e₁, hemit, h⟩ := bind_eq_ok.mp h
    have hnote : Settled e (e.note (.expired env)) := settled_note fun _ _ => Effect.noConfusion
    exact (hnote.trans (settled_emitEvent hemit)).trans (ih h)

theorem settled_accountOrderingExpiryDrops {freed : List MessageEnvelope} {count : Nat}
    (h : e.accountOrderingExpiryDrops freed count nowUs = .ok e') : Settled e e' := by
  obtain ⟨-, h⟩ := ensure_bind_eq_ok.mp h
  obtain ⟨-, h⟩ := ensure_bind_eq_ok.mp h
  split at h
  · cases h
    exact .refl e
  · refine Settled.trans ?_ (settled_emitExpired _ h)
    exact .of_parts rfl rfl rfl rfl rfl rfl

theorem settled_handleDataDedup {res : Result} (h : e.handleDataDedup env nowUs = .ok (res, e')) : Settled e e' := by
  obtain ⟨-, h⟩ := ensure_bind_eq_ok.mp h
  split at h
  · cases h
    exact .refl e
  · obtain ⟨⟨dedupRes, dedup⟩, -, h⟩ := bind_eq_ok.mp h
    have hrecorded : Settled e { e with dedup } := .of_parts rfl rfl rfl rfl rfl rfl
    dsimp only at h
    split at h
    · obtain ⟨-, h⟩ := ensure_bind_eq_ok.mp h
      cases h
      exact hrecorded
    · obtain ⟨e₁, hack, h⟩ := bind_eq_ok.mp h
      obtain ⟨e₂, hemit, h⟩ := bind_eq_ok.mp h
      cases h
      have hcounted : Settled { e with dedup } { e with
          dedup, stats := { e.stats with msgsDroppedDuplicate := e.stats.msgsDroppedDuplicate + 1 } } :=
        .of_parts rfl rfl rfl rfl rfl rfl
      exact ((hrecorded.trans hcounted).trans (settled_sendDataAck hack)).trans (settled_emitEvent hemit)

theorem settled_handleOrderingGate (h : e.handleOrderingGate env nowUs = .ok (reply, e')) : Settled e e' := by
  obtain ⟨-, h⟩ := ensure_bind_eq_ok.mp h
  obtain ⟨swept, -, h⟩ := bind_eq_ok.mp h
  obtain ⟨e₁, hdrops, h⟩ := bind_eq_ok.mp h
  obtain ⟨⟨res, ordering⟩, -, h⟩ := bind_eq_ok.mp h
  have hswept : Settled e { e with ordering := swept.buffer } := .of_parts rfl rfl rfl rfl rfl rfl
  have hgated : Settled e { e₁ with ordering } :=
    (hswept.trans (settled_accountOrderingExpiryDrops hdrops)).trans (.of_parts rfl rfl rfl rfl rfl rfl)
  cases res with
  | ok _ =>
    cases h
    exact hgated
  | error _ =>
    obtain ⟨-, h⟩ := ensure_bind_eq_ok.mp h
    cases h
    exact hgated

theorem settled_stageNext (h : e.stageNext src = .ok e') : Settled e e' := by
  obtain ⟨⟨next, ordering⟩, -, h⟩ := bind_eq_ok.mp h
  cases next with
  | none =>
    cases h
    exact .of_parts rfl rfl rfl rfl rfl rfl
  | some env =>
    cases h
    refine .noted rfl rfl rfl rfl rfl rfl fun x res hsent => ?_
    cases List.mem_singleton.mp hsent

theorem settled_acknowledgeAndCount (h : e.acknowledgeAndCount env nowUs = .ok e') : Settled e e' := by
  unfold acknowledgeAndCount at h
  rw [ite_bind] at h
  obtain ⟨e₁, hack, h⟩ := bind_eq_ok.mp h
  cases h
  have hacked : Settled e e₁ := by
    split at hack
    · exact settled_sendDataAck hack
    · cases hack
      exact .refl e
  exact hacked.trans (.of_parts rfl rfl rfl rfl rfl rfl)

theorem settled_deliverHeldPending (h : e.deliverHeldPending nowUs = .ok (reply, e')) : Settled e e' := by
  obtain ⟨-, h⟩ := ensure_bind_eq_ok.mp h
  dsimp only at h
  split at h
  · obtain ⟨e₁, hemit, h⟩ := bind_eq_ok.mp h
    obtain ⟨e₂, hstage, h⟩ := bind_eq_ok.mp h
    obtain ⟨-, h⟩ := ensure_bind_eq_ok.mp h
    cases h
    have hnoted : Settled e ({ e with
        heldPendingValid := false
        stats := { e.stats with msgsDroppedExpired := e.stats.msgsDroppedExpired + 1 } }.note
          (.heldExpired e.heldPending)) := by
      refine .noted rfl rfl rfl rfl rfl rfl fun x res hsent => ?_
      cases List.mem_singleton.mp hsent
    exact (hnoted.trans (settled_emitEvent hemit)).trans (settled_stageNext hstage)
  · obtain ⟨e₁, hstage, h⟩ := bind_eq_ok.mp h
    obtain ⟨e₂, hcount, h⟩ := bind_eq_ok.mp h
    obtain ⟨-, h⟩ := ensure_bind_eq_ok.mp h
    cases h
    have hnoted : Settled e ({ e with heldPendingValid := false }.note (.heldReturned e.heldPending)) := by
      refine .noted rfl rfl rfl rfl rfl rfl fun x res hsent => ?_
      cases List.mem_singleton.mp hsent
    exact (hnoted.trans (settled_stageNext hstage)).trans (settled_acknowledgeAndCount hcount)

theorem settled_handleDataPath (h : e.handleDataPath env nowUs = .ok (reply, e')) : Settled e e' := by
  obtain ⟨-, h⟩ := ensure_bind_eq_ok.mp h
  obtain ⟨⟨dedupRes, e₁⟩, hdedup, h⟩ := bind_eq_ok.mp h
  have hfirst := settled_handleDataDedup hdedup
  dsimp only at h
  split at h
  · cases h
    exact hfirst
  · obtain ⟨⟨ordRes, e₂⟩, hgate, h⟩ := bind_eq_ok.mp h
    have hsecond := hfirst.trans (settled_handleOrderingGate hgate)
    cases ordRes with
    | error r =>
      have hcounted : Settled e₂ { e₂ with stats := { e₂.stats with
          msgsDroppedOrderingFull := e₂.stats.msgsDroppedOrderingFull + 1 } } :=
        .of_parts rfl rfl rfl rfl rfl rfl
      cases r with
      | errFull =>
        cases h
        exact hsecond.trans hcounted
      | _ =>
        cases h
        exact hsecond
    | ok passed =>
      obtain ⟨e₃, hstage, h⟩ := bind_eq_ok.mp h
      obtain ⟨e₄, hcount, h⟩ := bind_eq_ok.mp h
      obtain ⟨-, h⟩ := ensure_bind_eq_ok.mp h
      cases h
      exact (hsecond.trans (settled_stageNext hstage)).trans (settled_acknowledgeAndCount hcount)

theorem settled_recordRoutingFailure {res : Result} (h : e.recordRoutingFailure env res = .ok e') : Settled e e' := by
  obtain ⟨-, h⟩ := ensure_bind_eq_ok.mp h
  split at h
  · cases h
    refine .noted rfl rfl rfl rfl rfl rfl fun x res hsent => ?_
    cases List.mem_singleton.mp hsent
  · cases h
    exact .of_parts rfl rfl rfl rfl rfl rfl

theorem settled_updateLatencyStats (h : e.updateLatencyStats env nowUs = .ok e') : Settled e e' := by
  obtain ⟨-, h⟩ := ensure_bind_eq_ok.mp h
  obtain ⟨-, h⟩ := ensure_bind_eq_ok.mp h
  obtain ⟨sendTs, -, h⟩ := bind_eq_ok.mp h
  cases sendTs with
  | none =>
    cases h
    exact .refl e
  | some sendTs =>
    dsimp only at h
    split at h
    · cases h
      exact .refl e
    · cases h
      exact .of_parts rfl rfl rfl rfl rfl rfl

theorem processAck_kept {t t' : AckTracker} {m m' : RetryManager} (h : processAck t m env = .ok (t', m'))
    (i : Fin ackTrackerCapacity) (hi : m'.slots[i].active = true) : m'.slots[i] = m.slots[i] := by
  obtain ⟨-, h⟩ := ensure_bind_eq_ok.mp h
  obtain ⟨-, h⟩ := ensure_bind_eq_ok.mp h
  obtain ⟨dst, -, h⟩ := bind_eq_ok.mp h
  cases dst with
  | none =>
    obtain ⟨⟨_, t₁⟩, -, h⟩ := bind_eq_ok.mp h
    obtain ⟨⟨_, m₁⟩, hack, h⟩ := bind_eq_ok.mp h
    cases h
    exact RetryManager.onAck_kept hack i hi
  | some dst =>
    dsimp only at h
    split at h
    · cases h
      rfl
    · obtain ⟨⟨_, t₁⟩, -, h⟩ := bind_eq_ok.mp h
      obtain ⟨⟨_, m₁⟩, hack, h⟩ := bind_eq_ok.mp h
      cases h
      exact RetryManager.onAck_kept hack i hi

theorem settled_handleControlMessage (h : e.handleControlMessage env nowUs = .ok e') : Settled e e' := by
  obtain ⟨-, h⟩ := ensure_bind_eq_ok.mp h
  split at h
  · obtain ⟨e₁, hlatency, h⟩ := bind_eq_ok.mp h
    obtain ⟨⟨ackTracker, retryManager⟩, hack, h⟩ := bind_eq_ok.mp h
    have hclosed : Settled e₁ { e₁ with ackTracker, retryManager } :=
      ⟨⟨rfl, rfl, rfl, processAck_kept hack, fun _ _ => .inl⟩, rfl⟩
    exact ((settled_updateLatencyStats hlatency).trans hclosed).trans (settled_emitEvent h)
  · cases h
    exact .refl e

/-! ## The calls -/

theorem settled_discardHeld (e : DeliveryEngine) (src : NodeId) : Settled e (e.discardHeld src) := by
  unfold discardHeld
  split
  · refine .noted rfl rfl rfl rfl rfl rfl fun x res hsent => ?_
    cases List.mem_singleton.mp hsent
  · exact .refl e

theorem settled_emitReconnect {ts : UInt64} (n : Nat) :
    ∀ {e e' : DeliveryEngine}, resetPeerOrdering.emit src ts n e = .ok e' → Settled e e' := by
  induction n with
  | zero =>
    intro e e' h
    cases h
    exact .refl e
  | succ n ih =>
    intro e e' h
    obtain ⟨e₁, hemit, h⟩ := bind_eq_ok.mp h
    exact (settled_emitEvent hemit).trans (ih h)

theorem settled_resetPeerOrdering (h : e.resetPeerOrdering src = .ok e') : Settled e e' := by
  obtain ⟨-, h⟩ := ensure_bind_eq_ok.mp h
  have hdiscarded : Settled e ((e.discardHeld src).note (.reset src)) :=
    (settled_discardHeld e src).trans (settled_note fun _ _ => Effect.noConfusion)
  dsimp only at h
  generalize (e.discardHeld src).note (.reset src) = e₁ at hdiscarded h
  obtain ⟨ordering, -, h⟩ := bind_eq_ok.mp h
  obtain ⟨seqState, hseq⟩ := restartSequence_eq { e₁ with ordering } src
  rw [hseq] at h
  obtain ⟨⟨n, ackTracker⟩, -, h⟩ := bind_eq_ok.mp h
  obtain ⟨e₂, hacks, h⟩ := bind_eq_ok.mp h
  obtain ⟨⟨k, retryManager⟩, hcancel, h⟩ := bind_eq_ok.mp h
  have hrestarted : Settled e₁ { e₁ with ordering, seqState, ackTracker } := .of_parts rfl rfl rfl rfl rfl rfl
  have hcancelled : Settled e₂ { e₂ with retryManager } :=
    ⟨⟨rfl, rfl, rfl, RetryManager.cancelPeer_kept hcancel, fun _ _ => .inl⟩, rfl⟩
  have hfirst := (hdiscarded.trans hrestarted).trans (settled_emitReconnect n hacks)
  exact (hfirst.trans hcancelled).trans (settled_emitReconnect k h)

theorem settled_drainHelloReconnects (rounds : Nat) :
    ∀ {e e' : DeliveryEngine}, drainHelloReconnects rounds e = .ok e' → Settled e e' := by
  induction rounds with
  | zero =>
    intro e e' h
    cases h
    exact .refl e
  | succ rounds ih =>
    intro e e' h
    have hpopped : Settled e e.popHelloPeer.2 := by
      unfold popHelloPeer
      split
      · exact .refl e
      · exact .of_parts rfl rfl rfl rfl rfl rfl
    unfold drainHelloReconnects at h
    obtain ⟨helloSrc, e₀⟩ := e.popHelloPeer
    dsimp only at h hpopped
    split at h
    · cases h
      exact hpopped
    · obtain ⟨e₁, hreset, h⟩ := bind_eq_ok.mp h
      exact (hpopped.trans (settled_resetPeerOrdering hreset)).trans (ih h)

/-! ## A whole receive -/

/-- What a frame does to the fragments that wait, and that the rest of its handling leaves them alone. -/
theorem receiveFrame_settled (h : e.receiveFrame frame nowUs = .ok (reply, e')) :
    envelopeValid frame ∧ ∃ res reassembly, e.reassembly.ingest frame nowUs = .ok (res, reassembly) ∧
      Settled { e with reassembly } e' := by
  obtain ⟨hvalid, h⟩ := ensure_bind_eq_ok.mp h
  obtain ⟨⟨fragRes, e₁⟩, hingest, h⟩ := bind_eq_ok.mp h
  obtain ⟨-, hingest⟩ := ensure_bind_eq_ok.mp hingest
  obtain ⟨⟨res, reassembly⟩, hres, hingest⟩ := bind_eq_ok.mp hingest
  refine ⟨hvalid, res, reassembly, hres, ?_⟩
  cases res with
  | error r =>
    obtain ⟨-, hingest⟩ := ensure_bind_eq_ok.mp hingest
    cases hingest
    cases h
    exact .refl _
  | ok env =>
    cases hingest
    obtain ⟨routingRes, -, h⟩ := bind_eq_ok.mp h
    split at h
    · obtain ⟨e₂, hrecord, h⟩ := bind_eq_ok.mp h
      obtain ⟨e₃, hemit, h⟩ := bind_eq_ok.mp h
      cases h
      exact (settled_recordRoutingFailure hrecord).trans (settled_emitRoutingDropEvent hemit)
    · split at h
      · obtain ⟨e₂, hcontrol, h⟩ := bind_eq_ok.mp h
        cases h
        exact settled_handleControlMessage hcontrol
      · obtain ⟨-, h⟩ := ensure_bind_eq_ok.mp h
        exact settled_handleDataPath h

/-- What the poll of the transport does to the fragments that wait. -/
inductive Polls (e : DeliveryEngine) (timeoutMs : UInt32) (nowUs : UInt64) : ReassemblyBuffer → Prop where
  | nothing : Polls e timeoutMs nowUs e.reassembly
  | frame {frame : MessageEnvelope} {res : Reply} {reassembly : ReassemblyBuffer}
      (arrived : e.transport.inbound timeoutMs = .ok frame) (valid : envelopeValid frame)
      (ingest : e.reassembly.ingest frame nowUs = .ok (res, reassembly)) : Polls e timeoutMs nowUs reassembly

/-- What the poll sees of the engine, the steps before it leave alone. -/
theorem Polls.before {timeoutMs : UInt32} {b : ReassemblyBuffer} (h : Polls e₁ timeoutMs nowUs b)
    (settled : Settled e e₁) : Polls e timeoutMs nowUs b := by
  cases h with
  | nothing =>
    rw [settled.reassembly]
    exact .nothing
  | frame arrived valid ingest =>
    rw [settled.inbound] at arrived
    rw [settled.reassembly] at ingest
    exact .frame arrived valid ingest

theorem receiveFromTransport_inward {timeoutMs : UInt32}
    (h : e.receiveFromTransport timeoutMs nowUs = .ok (reply, e')) :
    Inward e e' ∧ Polls e timeoutMs nowUs e'.reassembly := by
  unfold receiveFromTransport at h
  split at h
  case h_1 r hnone =>
    cases h
    exact ⟨(Settled.refl e).toInward, .nothing⟩
  case h_2 frame harrived =>
    obtain ⟨hvalid, res, reassembly, hingest, hsettled⟩ := receiveFrame_settled h
    have hinward : Inward e { e with reassembly } := ⟨rfl, rfl, rfl, fun _ _ => rfl, fun _ _ => .inl⟩
    refine ⟨hinward.trans hsettled.toInward, ?_⟩
    rw [hsettled.reassembly]
    exact .frame harrived hvalid hingest

theorem receiveDrained_inward {timeoutMs : UInt32} (h : e.receiveDrained timeoutMs nowUs = .ok (reply, e')) :
    Inward e e' ∧ Polls e timeoutMs nowUs e'.reassembly := by
  unfold receiveDrained at h
  split at h
  · obtain ⟨⟨heldRes, e₁⟩, hheld, h⟩ := bind_eq_ok.mp h
    have hsettled := settled_deliverHeldPending hheld
    cases heldRes with
    | ok env =>
      cases h
      refine ⟨hsettled.toInward, ?_⟩
      rw [hsettled.reassembly]
      exact .nothing
    | error r =>
      obtain ⟨hinward, hpolls⟩ := receiveFromTransport_inward h
      exact ⟨hsettled.toInward.trans hinward, hpolls.before hsettled⟩
  · exact receiveFromTransport_inward h

/-- A `receive` that the guard lets through. -/
theorem receive_inward {timeoutMs : UInt32} (h : e.receive timeoutMs nowUs = .ok (reply, e')) :
    Inward e e' ∧ Polls e timeoutMs nowUs e'.reassembly := by
  obtain ⟨-, h⟩ := ensure_bind_eq_ok.mp h
  split at h
  · cases h
    exact ⟨(Settled.refl e).toInward, .nothing⟩
  · obtain ⟨e₁, hdrain, h⟩ := bind_eq_ok.mp h
    have hstamped : Settled e { e with lastNowUs := nowUs } := .of_parts rfl rfl rfl rfl rfl rfl
    have hsettled := hstamped.trans (settled_drainHelloReconnects _ hdrain)
    obtain ⟨hinward, hpolls⟩ := receiveDrained_inward h
    exact ⟨hsettled.toInward.trans hinward, hpolls.before hsettled⟩

/-! ## The other calls -/

theorem settled_emitTimeouts (collected : List MessageEnvelope) :
    ∀ {e e' : DeliveryEngine}, sweepAckTimeouts.emit nowUs collected e = .ok e' → Settled e e' := by
  induction collected with
  | nil =>
    intro e e' h
    cases h
    exact .refl e
  | cons env rest ih =>
    intro e e' h
    obtain ⟨e₁, hemit, h⟩ := bind_eq_ok.mp h
    exact (settled_emitEvent hemit).trans (ih h)

/-- A sweep changes the fragments that wait by the sweeps of the reassembly buffer. -/
theorem sweepAckTimeouts_settled {n : Nat} (h : e.sweepAckTimeouts nowUs = .ok (n, e')) :
    Settled e e' ∨ ∃ swept staleUs, e.reassembly.sweepExpired nowUs = .ok swept ∧
      Settled { e with reassembly := (swept.sweepStale nowUs staleUs).2 } e' := by
  obtain ⟨-, h⟩ := ensure_bind_eq_ok.mp h
  split at h
  · cases h
    exact .inl (.refl e)
  · obtain ⟨swept, hexpired, h⟩ := bind_eq_ok.mp h
    dsimp only at h
    obtain ⟨holds, -, h⟩ := bind_eq_ok.mp h
    obtain ⟨e₁, hdrops, h⟩ := bind_eq_ok.mp h
    obtain ⟨⟨collected, ackTracker⟩, -, h⟩ := bind_eq_ok.mp h
    obtain ⟨-, h⟩ := ensure_bind_eq_ok.mp h
    obtain ⟨e₂, hemit, h⟩ := bind_eq_ok.mp h
    cases h
    refine .inr ⟨swept, e.cfg.recvTimeoutMs.toUInt64 * 1000, hexpired, ?_⟩
    have hdropped := settled_accountOrderingExpiryDrops hdrops
    have htracked : Settled e₁ { e₁ with ackTracker } := .of_parts rfl rfl rfl rfl rfl rfl
    refine Settled.trans ?_ ((hdropped.trans htracked).trans (settled_emitTimeouts collected hemit))
    exact .of_parts rfl rfl rfl rfl rfl rfl

theorem sweepAckTimeouts_inward {n : Nat} (h : e.sweepAckTimeouts nowUs = .ok (n, e')) : Inward e e' := by
  rcases sweepAckTimeouts_settled h with hsettled | ⟨swept, staleUs, -, hsettled⟩
  · exact hsettled.toInward
  · have hswept : Inward e { e with reassembly := (swept.sweepStale nowUs staleUs).2 } :=
      ⟨rfl, rfl, rfl, fun _ _ => rfl, fun _ _ => .inl⟩
    exact hswept.trans hsettled.toInward

theorem settled_pollEvent {ev : Option DeliveryEvent} (h : e.pollEvent = .ok (ev, e')) : Settled e e' := by
  obtain ⟨size, -, h⟩ := bind_eq_ok.mp h
  obtain ⟨-, h⟩ := ensure_bind_eq_ok.mp h
  obtain ⟨⟨out, events⟩, -, h⟩ := bind_eq_ok.mp h
  cases h
  exact .of_parts rfl rfl rfl rfl rfl rfl

theorem settled_drainEvents (room : Nat) :
    ∀ {e e' : DeliveryEngine} {evs : List DeliveryEvent}, drainEvents room e = .ok (evs, e') → Settled e e' := by
  induction room with
  | zero =>
    intro e e' evs h
    cases h
    exact .refl e
  | succ room ih =>
    intro e e' evs h
    obtain ⟨⟨out, events⟩, -, h⟩ := bind_eq_ok.mp h
    have hpopped : Settled e { e with events } := .of_parts rfl rfl rfl rfl rfl rfl
    cases out with
    | none =>
      cases h
      exact hpopped
    | some ev =>
      obtain ⟨⟨rest, e₁⟩, hrest, h⟩ := bind_eq_ok.mp h
      cases h
      exact hpopped.trans (ih hrest)

end DeliveryEngine

end MessageEngine
