import MessageEngine.Laws.DeliveryEngine.Reset

/-!
# Data messages

The steps of the data path in the `Delivery` view: the staging slot takes what the ordering gate
releases, the duplicate filter lets a message through or not, the gate sweeps and then stores,
passes or drops it. None of these steps can fail on an engine in order, but for one: a staged
message that expires when the drop counter is about to wrap.

## What is proved

- `deliverHeldPending_spec`, `deliverHeldPending_wrap`: what the staging slot does when `receive`
  asks for it;
- `handleDataPath_spec`: what happens to a data message that was received.
-/

namespace MessageEngine

open Outcome Table OrderingBuffer

namespace DeliveryEngine

variable {P : MessageEnvelope → Prop} {e e' : DeliveryEngine} {nowUs : UInt64} {src : NodeId}
  {env : MessageEnvelope}

/-! ## Staging -/

/-- The engine with the released message, if there is one, in the staging slot. -/
def stage (e : DeliveryEngine) (ordering : OrderingBuffer) (out : Option MessageEnvelope) :
    DeliveryEngine :=
  match out with
  | some env => { e with
      ordering, heldPending := env, heldPendingValid := true, trace := e.trace ++ [.released env] }
  | none => { e with ordering }

theorem delivery_stage (e : DeliveryEngine) (ordering : OrderingBuffer) (out : Option MessageEnvelope) :
    (e.stage ordering out).delivery = { e.delivery with
      ordering, staged := out.or e.staged?, trace := e.trace ++ out.toList.map .released } := by
  cases out with
  | some env => rfl
  | none =>
    simp only [stage, delivery, Option.none_or, Option.toList_none, List.map_nil, List.append_nil]
    rfl

theorem framed_stage (e : DeliveryEngine) (ordering : OrderingBuffer) (out : Option MessageEnvelope) :
    Steady e (e.stage ordering out) ∧ (e.stage ordering out).books = e.books := by
  cases out with
  | some env => exact ⟨⟨⟨rfl, rfl, rfl⟩, rfl⟩, rfl⟩
  | none => exact ⟨⟨⟨rfl, rfl, rfl⟩, rfl⟩, rfl⟩

theorem stageNext_spec (inv : Inv P e) (hsrc : src ≠ 0) :
    ∃ out ordering, e.stageNext src = .ok (e.stage ordering out) ∧
      e.ordering.tryReleaseNext src = .ok (out, ordering) ∧ Released e.ordering src out ordering ∧
      Inv P (e.stage ordering out) := by
  obtain ⟨out, ordering, hrun, hrel, hord⟩ := tryReleaseNext_spec inv.ordering hsrc
  refine ⟨out, ordering, bind_eq_ok.mpr ⟨_, hrun, ?_⟩, hrun, hrel, ?_⟩
  · cases out with
    | some env => rfl
    | none => rfl
  · cases hrel with
    | nothing _ => exact { inv with ordering := hord }
    | next held _ _ _ _ =>
      exact { inv with
        ordering := hord
        staged := fun _ => ⟨inv.ordering.holdOk _ held, inv.ordering.holdSeq _ held⟩ }

/-! ## Acknowledging -/

/-- The acknowledgement of a delivered message, when it asks for one. -/
def ackEffects (localId : NodeId) (env : MessageEnvelope) (nowUs : UInt64) (r : Result) : List Effect :=
  if envelopeNeedsAckResponse env then [.sent (envelopeMakeAck env localId nowUs) r] else []

@[simp] theorem mem_ackEffects {localId : NodeId} {nowUs : UInt64} {r : Result} {x : Effect} :
    x ∈ ackEffects localId env nowUs r ↔
      envelopeNeedsAckResponse env ∧ x = .sent (envelopeMakeAck env localId nowUs) r := by
  unfold ackEffects
  split
  case isTrue h => simp [h]
  case isFalse h => simp [h]

theorem acknowledgeAndCount_spec (inv : Inv P e) (hdata : envelopeIsData env) (nowUs : UInt64) :
    ∃ r e', e.acknowledgeAndCount env nowUs = .ok e' ∧ Inv P e' ∧
      e'.delivery = { e.delivery with trace := e.trace ++ ackEffects e.localId env nowUs r } ∧
      e'.books = e.books ∧ Steady e e' := by
  unfold acknowledgeAndCount ackEffects
  by_cases hneeds : envelopeNeedsAckResponse env
  · obtain ⟨r, sendResults, hsend⟩ := sendDataAck_spec inv hdata nowUs
    have hinv : Inv P { e with
        transport := { e.transport with sendResults }
        trace := e.trace ++ [.sent (envelopeMakeAck env e.localId nowUs) r]
        stats := { e.stats with msgsReceived := e.stats.msgsReceived + 1 } } := { inv with }
    simp only [if_pos hneeds]
    exact ⟨r, _, bind_eq_ok.mpr ⟨_, hsend, rfl⟩, hinv, rfl, rfl, ⟨rfl, rfl, rfl⟩, rfl⟩
  · have hinv : Inv P { e with
        stats := { e.stats with msgsReceived := e.stats.msgsReceived + 1 } } := { inv with }
    simp only [if_neg hneeds, List.append_nil]
    exact ⟨.ok, _, rfl, hinv, rfl, rfl, ⟨rfl, rfl, rfl⟩, rfl⟩

/-! ## The staged message is asked for -/

/-- Everything `deliverHeldPending` can do. -/
inductive HeldOutcome (e : DeliveryEngine) (env : MessageEnvelope) (nowUs : UInt64) :
    Reply → DeliveryEngine → Prop where
  /-- The staged message is returned and the next one staged. -/
  | returned {e' : DeliveryEngine} {out : Option MessageEnvelope} {ordering : OrderingBuffer}
      {r : Result} (fresh : ¬ ExpiredAt nowUs env) (release : Released e.ordering env.sourceId out ordering)
      (delivery : e'.delivery = { e.delivery with
        ordering, staged := out
        trace := e.trace ++ ([.heldReturned env] ++ out.toList.map .released ++
          ackEffects e.localId env nowUs r) }) : HeldOutcome e env nowUs (.ok env) e'
  /-- The staged message expired; the next one is staged. -/
  | expired {e' : DeliveryEngine} {out : Option MessageEnvelope} {ordering : OrderingBuffer}
      (late : ExpiredAt nowUs env) (release : e.ordering.tryReleaseNext env.sourceId = .ok (out, ordering))
      (delivery : e'.delivery = { e.delivery with
        ordering, staged := out, dropped := e.stats.msgsDroppedExpired + 1
        trace := e.trace ++ ([.heldExpired env] ++ out.toList.map .released) })
      (reassembly : e'.reassembly = e.reassembly) : HeldOutcome e env nowUs (.error .errExpired) e'

theorem Inv.accepted_staged (inv : Inv P e) (h : e.staged? = some env) :
    e.heldPendingValid = true ∧ e.heldPending = env ∧ Accepted P env ∧ env.sequenceNum ≠ 0 := by
  unfold staged? at h
  split at h
  case isTrue hv =>
    cases h
    exact ⟨hv, rfl, inv.staged hv⟩
  case isFalse _ => cases h

/-- The slot is emptied before the next message goes in. -/
private theorem delivery_restage (h : e.heldPendingValid = false) (ordering : OrderingBuffer)
    (out : Option MessageEnvelope) :
    (e.stage ordering out).delivery = { e.delivery with
      ordering, staged := out, trace := e.trace ++ out.toList.map .released } := by
  have hnone : e.staged? = none := if_neg (by rw [h]; exact Bool.false_ne_true)
  rw [delivery_stage, hnone, Option.or_none]

/-- The engine just after the staged message was taken out and dropped. -/
private def heldDropped (e : DeliveryEngine) (events : DeliveryEventRing) : DeliveryEngine :=
  { e with
    heldPendingValid := false
    stats := { e.stats with msgsDroppedExpired := e.stats.msgsDroppedExpired + 1 }
    trace := e.trace ++ [.heldExpired e.heldPending], events }

/-- The engine just after the staged message was taken out to be returned. -/
private def heldTaken (e : DeliveryEngine) : DeliveryEngine :=
  { e with heldPendingValid := false, trace := e.trace ++ [.heldReturned e.heldPending] }

theorem deliverHeldPending_spec (inv : Inv P e) (hstaged : e.staged? = some env) (hnow : nowUs > 0)
    (hwrap : ExpiredAt nowUs env → e.stats.msgsDroppedExpired + 1 > 0) :
    ∃ reply e', e.deliverHeldPending nowUs = .ok (reply, e') ∧ Inv P e' ∧
      HeldOutcome e env nowUs reply e' ∧ e'.books = e.books ∧ Steady e e' := by
  obtain ⟨hvalid, rfl, haccepted, -⟩ := inv.accepted_staged hstaged
  unfold deliverHeldPending
  simp only [ensure_pos hvalid, ok_bind]
  by_cases hexp : ExpiredAt nowUs e.heldPending
  · rw [if_pos hexp]
    have hinv₁ : Inv P (heldDropped e e.events) := { inv with staged := fun h => Bool.noConfusion h }
    obtain ⟨events, hemit, hevents⟩ := emitEvent_spec hinv₁ .expiryDrop e.heldPending.messageId
      e.heldPending.sourceId hnow .errExpired
    have hinv₂ : Inv P (heldDropped e events) := { hinv₁ with events := hevents }
    obtain ⟨out, ordering, hstage, hrel, -, hinv₃⟩ := stageNext_spec hinv₂ haccepted.valid.2.2
    obtain ⟨hframe, hbooks⟩ := framed_stage (heldDropped e events) ordering out
    have hdropped : ((heldDropped e events).stage ordering out).stats.msgsDroppedExpired > 0 := by
      cases out with
      | some _ => exact hwrap hexp
      | none => exact hwrap hexp
    refine ⟨_, _, bind_eq_ok.mpr ⟨_, hemit, bind_eq_ok.mpr ⟨_, hstage, ?_⟩⟩, hinv₃,
      .expired hexp hrel ?_ ?_, hbooks, ⟨hframe.localId, hframe.inbound, hframe.lastNowUs⟩, hframe.seqState⟩
    · exact ensure_bind_eq_ok.mpr ⟨hdropped, rfl⟩
    · rw [delivery_restage rfl]
      simp only [heldDropped, delivery, List.append_assoc]
    · cases out with
      | some _ => rfl
      | none => rfl
  · rw [if_neg hexp]
    have hinv₁ : Inv P (heldTaken e) := { inv with staged := fun h => Bool.noConfusion h }
    obtain ⟨out, ordering, hstage, -, hrel, hinv₂⟩ := stageNext_spec hinv₁ haccepted.valid.2.2
    obtain ⟨hframe, hbooks⟩ := framed_stage (heldTaken e) ordering out
    obtain ⟨r, e', hack, hinv₃, hdelivery, hbooks', hframe'⟩ :=
      acknowledgeAndCount_spec hinv₂ haccepted.data nowUs
    refine ⟨_, e', bind_eq_ok.mpr ⟨_, hstage, bind_eq_ok.mpr ⟨_, hack, ?_⟩⟩, hinv₃,
      .returned (r := r) hexp hrel ?_, hbooks'.trans hbooks, ?_⟩
    · exact ensure_bind_eq_ok.mpr ⟨haccepted.valid, rfl⟩
    · have hlocal : ((heldTaken e).stage ordering out).localId = e.localId := hframe.localId
      have hview := delivery_restage (e := heldTaken e) rfl ordering out
      have htrace : ((heldTaken e).stage ordering out).trace = _ := congrArg Delivery.trace hview
      rw [hdelivery, hlocal, hview, htrace]
      simp only [heldTaken, delivery, List.append_assoc]
    · have htaken : Steady e (heldTaken e) := ⟨⟨rfl, rfl, rfl⟩, rfl⟩
      exact htaken.trans (hframe.trans hframe')

/-- A staged message that expires when the counter is at its maximum stops the run. -/
theorem deliverHeldPending_wrap (inv : Inv P e) (hstaged : e.staged? = some env) (hnow : nowUs > 0)
    (hexp : ExpiredAt nowUs env) (hwrap : ¬ e.stats.msgsDroppedExpired + 1 > 0) :
    e.deliverHeldPending nowUs = .error (.assertion .engineDeliverHeldPending) := by
  obtain ⟨hvalid, rfl, haccepted, -⟩ := inv.accepted_staged hstaged
  unfold deliverHeldPending
  simp only [ensure_pos hvalid, ok_bind]
  rw [if_pos hexp]
  have hinv₁ : Inv P (heldDropped e e.events) := { inv with staged := fun h => Bool.noConfusion h }
  obtain ⟨events, hemit, hevents⟩ := emitEvent_spec hinv₁ .expiryDrop e.heldPending.messageId
    e.heldPending.sourceId hnow .errExpired
  have hinv₂ : Inv P (heldDropped e events) := { hinv₁ with events := hevents }
  obtain ⟨out, ordering, hstage, -, -, -⟩ := stageNext_spec hinv₂ haccepted.valid.2.2
  have hdropped : ¬ ((heldDropped e events).stage ordering out).stats.msgsDroppedExpired > 0 := by
    cases out with
    | some _ => exact hwrap
    | none => exact hwrap
  refine bind_eq_error.mpr (.inr ⟨_, hemit, bind_eq_error.mpr (.inr ⟨_, hstage, ?_⟩)⟩)
  exact bind_eq_error.mpr (.inl (ensure_neg hdropped))

/-! ## Duplicates -/

/-- The filter let the message through: only messages sent with retries are recorded, and only
new ones are let through. -/
structure LetThrough (f : DuplicateFilter) (env : MessageEnvelope) (nowUs : UInt64)
    (f' : DuplicateFilter) : Prop where
  new : env.reliabilityClass = .reliableRetry → ¬ f.Knows env.sourceId env.messageId
  record : env.reliabilityClass = .reliableRetry →
    f.record env.sourceId env.messageId nowUs = .ok f'
  same : env.reliabilityClass ≠ .reliableRetry → f' = f
  window : ∀ s m, f'.Knows s m → f.Knows s m ∨
    (env.reliabilityClass = .reliableRetry ∧ s = env.sourceId ∧ m = env.messageId)

/-- A message the filter does not know goes through. -/
theorem handleDataDedup_new (inv : Inv P e) (hdata : envelopeIsData env) (hnow : nowUs > 0)
    (hnew : env.reliabilityClass = .reliableRetry → ¬ e.dedup.Knows env.sourceId env.messageId) :
    ∃ dedup, e.handleDataDedup env nowUs = .ok (.ok, { e with dedup }) ∧ dedup.Inv ∧
      LetThrough e.dedup env nowUs dedup := by
  unfold handleDataDedup
  simp only [ensure_pos hdata, ok_bind]
  by_cases hretry : env.reliabilityClass = .reliableRetry
  · obtain ⟨dedup, hrun, hrecord, hinv, -, hwindow⟩ := (DuplicateFilter.checkAndRecord_spec inv.dedup
      env.sourceId env.messageId hnow).2 (hnew hretry)
    refine ⟨dedup, ?_, hinv, hnew, fun _ => hrecord, fun h => absurd hretry h,
      fun s m h => (hwindow s m h).imp_right fun h => ⟨hretry, h⟩⟩
    rw [if_neg (fun h => h hretry)]
    refine bind_eq_ok.mpr ⟨_, hrun, ?_⟩
    dsimp only
    rw [if_pos (by decide)]
    exact ensure_bind_eq_ok.mpr ⟨rfl, rfl⟩
  · exact ⟨e.dedup, if_pos hretry, inv.dedup, hnew, fun h => absurd h hretry, fun _ => rfl,
      fun s m h => .inl h⟩

/-- A message the filter knows is acknowledged once more and dropped. -/
theorem handleDataDedup_known (inv : Inv P e) (hdata : envelopeIsData env) (hnow : nowUs > 0)
    (hretry : env.reliabilityClass = .reliableRetry)
    (hknown : e.dedup.Knows env.sourceId env.messageId) :
    ∃ r e', e.handleDataDedup env nowUs = .ok (.errDuplicate, e') ∧ Inv P e' ∧
      e'.delivery = { e.delivery with
        trace := e.trace ++ [.sent (envelopeMakeAck env e.localId nowUs) r] } ∧
      e'.books = e.books ∧ Steady e e' := by
  have hcheck := (DuplicateFilter.checkAndRecord_spec inv.dedup env.sourceId env.messageId hnow).1 hknown
  have hinv₁ : Inv P { e with stats := { e.stats with
      msgsDroppedDuplicate := e.stats.msgsDroppedDuplicate + 1 } } := { inv with }
  obtain ⟨r, sendResults, hsend⟩ := sendDataAck_spec hinv₁ hdata nowUs
  have hinv₂ : Inv P { e with
      stats := { e.stats with msgsDroppedDuplicate := e.stats.msgsDroppedDuplicate + 1 }
      transport := { e.transport with sendResults }
      trace := e.trace ++ [.sent (envelopeMakeAck env e.localId nowUs) r] } := { inv with }
  obtain ⟨events, hemit, hevents⟩ := emitEvent_spec hinv₂ .duplicateDrop env.messageId env.sourceId
    hnow .errDuplicate
  have hinv₃ : Inv P { e with
      stats := { e.stats with msgsDroppedDuplicate := e.stats.msgsDroppedDuplicate + 1 }
      transport := { e.transport with sendResults }
      trace := e.trace ++ [.sent (envelopeMakeAck env e.localId nowUs) r], events } :=
    { hinv₂ with events := hevents }
  refine ⟨r, _, ?_, hinv₃, rfl, rfl, ⟨rfl, rfl, rfl⟩, rfl⟩
  unfold handleDataDedup
  simp only [ensure_pos hdata, ok_bind]
  rw [if_neg (fun h => h hretry)]
  refine bind_eq_ok.mpr ⟨_, hcheck, ?_⟩
  dsimp only
  rw [if_neg (fun h => h rfl)]
  exact bind_eq_ok.mpr ⟨_, hsend, bind_eq_ok.mpr ⟨_, hemit, rfl⟩⟩

/-! ## The gate -/

/-- What the gate did with a message: it swept, then took the message in. -/
structure Gated (P : MessageEnvelope → Prop) (b : OrderingBuffer) (env : MessageEnvelope)
    (nowUs : UInt64) (s : Sweep) (reply : Reply) (b' : OrderingBuffer) : Prop where
  swept : b.sweepExpiredHolds nowUs orderingHoldCount = .ok s
  sweeping : Sweeping (Accepted P) b nowUs orderingHoldCount s
  ingested : Ingested s.buffer env reply b'

theorem handleOrderingGate_spec (inv : Inv P e) (haccepted : Accepted P env) (hnow : nowUs > 0) :
    ∃ s reply ordering e', e.handleOrderingGate env nowUs = .ok (reply, e') ∧
      Gated P e.ordering env nowUs s reply ordering ∧ Inv P e' ∧
      e'.delivery = { e.delivery with
        ordering, dropped := e.stats.msgsDroppedExpired + UInt32.ofNat s.out.length
        trace := e.trace ++ s.out.map .expired } ∧
      e'.books = e.books ∧ Steady e e' := by
  obtain ⟨s, hsweep, hsweeping⟩ := sweepExpiredHolds_spec inv.ordering hnow
  have hlen : s.out.length ≤ orderingHoldCount := by
    rw [hsweeping.count]
    exact hsweeping.bound
  have hinv₁ : Inv P { e with ordering := s.buffer } := { inv with ordering := hsweeping.inv }
  obtain ⟨events, haccount, hevents⟩ := accountOrderingExpiryDrops_spec hinv₁ hnow s.out hlen
  obtain ⟨reply, ordering, hingest, hingested, hord⟩ := ingest_spec hsweeping.inv hnow
    (not_isControl_of_isData haccepted.data) haccepted.valid.2.2 haccepted
  have hinv₂ : Inv P { e with
      ordering, events
      stats := { e.stats with
        msgsDroppedExpired := e.stats.msgsDroppedExpired + UInt32.ofNat s.out.length }
      trace := e.trace ++ s.out.map .expired } := { inv with ordering := hord, events := hevents }
  refine ⟨s, reply, ordering, _, ?_, ⟨hsweep, hsweeping, hingested⟩, hinv₂, rfl, rfl, ⟨rfl, rfl, rfl⟩, rfl⟩
  rw [hsweeping.count] at haccount
  refine ensure_bind_eq_ok.mpr ⟨haccepted.valid, bind_eq_ok.mpr ⟨s, hsweep, ?_⟩⟩
  refine bind_eq_ok.mpr ⟨_, haccount, bind_eq_ok.mpr ⟨_, hingest, ?_⟩⟩
  cases hingested with
  | unordered _ => rw [hsweeping.count]; rfl
  | delivered _ _ _ _ => rw [hsweeping.count]; rfl
  | stored _ _ _ _ _ _ => rw [hsweeping.count]; rfl
  | refused _ result _ _ _ =>
    rw [hsweeping.count]
    exact ensure_bind_eq_ok.mpr ⟨result.imp And.left And.left, rfl⟩

/-! ## The whole data path -/

/-- Everything the data path can do with a message. -/
inductive DataOutcome (P : MessageEnvelope → Prop) (e : DeliveryEngine) (env : MessageEnvelope)
    (nowUs : UInt64) : Reply → DeliveryEngine → Prop where
  /-- A duplicate is acknowledged and dropped. -/
  | duplicate {e' : DeliveryEngine} {r : Result} (retry : env.reliabilityClass = .reliableRetry)
      (known : e.dedup.Knows env.sourceId env.messageId)
      (delivery : e'.delivery = { e.delivery with
        trace := e.trace ++ [.sent (envelopeMakeAck env e.localId nowUs) r] }) :
      DataOutcome P e env nowUs (.error .errDuplicate) e'
  /-- The gate keeps the message or drops it. -/
  | kept {e' : DeliveryEngine} {dedup : DuplicateFilter} {s : Sweep} {r : Result}
      {ordering : OrderingBuffer} (through : LetThrough e.dedup env nowUs dedup)
      (gate : Gated P e.ordering env nowUs s (.error r) ordering)
      (delivery : e'.delivery = { e.delivery with
        dedup, ordering, dropped := e.stats.msgsDroppedExpired + UInt32.ofNat s.out.length
        trace := e.trace ++ s.out.map .expired }) : DataOutcome P e env nowUs (.error r) e'
  /-- The gate passes the message; it is returned, and what it was holding up is staged. -/
  | passed {e' : DeliveryEngine} {dedup : DuplicateFilter} {s : Sweep} {r : Result}
      {gateAfter ordering : OrderingBuffer} {out : Option MessageEnvelope}
      (through : LetThrough e.dedup env nowUs dedup)
      (gate : Gated P e.ordering env nowUs s (.ok env) gateAfter)
      (release : Released gateAfter env.sourceId out ordering)
      (delivery : e'.delivery = {
        dedup, ordering, staged := out.or e.staged?
        dropped := e.stats.msgsDroppedExpired + UInt32.ofNat s.out.length
        trace := e.trace ++ (s.out.map .expired ++ out.toList.map .released ++
          ackEffects e.localId env nowUs r) }) : DataOutcome P e env nowUs (.ok env) e'

private theorem handleDataPath_passed {e₁ e₂ e₃ e₄ : DeliveryEngine} (hdata : envelopeIsData env)
    (hvalid : envelopeValid env) (hrun : e.handleDataDedup env nowUs = .ok (.ok, e₁))
    (hgate : e₁.handleOrderingGate env nowUs = .ok (.ok env, e₂))
    (hstage : e₂.stageNext env.sourceId = .ok e₃)
    (hack : e₃.acknowledgeAndCount env nowUs = .ok e₄) :
    e.handleDataPath env nowUs = .ok (.ok env, e₄) := by
  refine ensure_bind_eq_ok.mpr ⟨hdata, bind_eq_ok.mpr ⟨_, hrun, ?_⟩⟩
  dsimp only
  rw [if_neg (fun h => h rfl)]
  refine bind_eq_ok.mpr ⟨_, hgate, bind_eq_ok.mpr ⟨_, hstage, bind_eq_ok.mpr ⟨_, hack, ?_⟩⟩⟩
  exact ensure_bind_eq_ok.mpr ⟨hvalid, rfl⟩

private theorem handleDataPath_kept {e₁ e₂ : DeliveryEngine} {r : Result} (hdata : envelopeIsData env)
    (hrun : e.handleDataDedup env nowUs = .ok (.ok, e₁))
    (hgate : e₁.handleOrderingGate env nowUs = .ok (.error r, e₂))
    (hr : r = .errAgain ∨ r = .errFull) :
    ∃ stats, e.handleDataPath env nowUs = .ok (.error r, { e₂ with stats }) ∧
      stats.msgsDroppedExpired = e₂.stats.msgsDroppedExpired := by
  rcases hr with rfl | rfl
  · refine ⟨e₂.stats, ensure_bind_eq_ok.mpr ⟨hdata, bind_eq_ok.mpr ⟨_, hrun, ?_⟩⟩, rfl⟩
    dsimp only
    rw [if_neg (fun h => h rfl)]
    exact bind_eq_ok.mpr ⟨_, hgate, rfl⟩
  · refine ⟨{ e₂.stats with msgsDroppedOrderingFull := e₂.stats.msgsDroppedOrderingFull + 1 },
      ensure_bind_eq_ok.mpr ⟨hdata, bind_eq_ok.mpr ⟨_, hrun, ?_⟩⟩, rfl⟩
    dsimp only
    rw [if_neg (fun h => h rfl)]
    exact bind_eq_ok.mpr ⟨_, hgate, rfl⟩

/-- The data path never fails. -/
theorem handleDataPath_spec (inv : Inv P e) (haccepted : Accepted P env) (hnow : nowUs > 0) :
    ∃ reply e', e.handleDataPath env nowUs = .ok (reply, e') ∧ Inv P e' ∧
      DataOutcome P e env nowUs reply e' ∧ e'.books = e.books ∧ Steady e e' := by
  by_cases hdup : env.reliabilityClass = .reliableRetry ∧ e.dedup.Knows env.sourceId env.messageId
  · obtain ⟨r, e', hrun, hinv, hdelivery, hbooks, hframe⟩ :=
      handleDataDedup_known inv haccepted.data hnow hdup.1 hdup.2
    refine ⟨_, e', ?_, hinv, .duplicate hdup.1 hdup.2 hdelivery, hbooks, hframe⟩
    refine ensure_bind_eq_ok.mpr ⟨haccepted.data, bind_eq_ok.mpr ⟨_, hrun, ?_⟩⟩
    dsimp only
    rw [if_pos (by decide)]
    rfl
  · obtain ⟨dedup, hrun, hdedup, hthrough⟩ := handleDataDedup_new inv haccepted.data hnow
      fun hretry hknown => hdup ⟨hretry, hknown⟩
    have hinv₁ : Inv P { e with dedup } := { inv with dedup := hdedup }
    obtain ⟨s, reply, gateAfter, e₂, hgate, hgated, hinv₂, hdelivery₂, hbooks₂, hframe₂⟩ :=
      handleOrderingGate_spec hinv₁ haccepted hnow
    rcases hgated.ingested.reply with rfl | ⟨r, rfl, hr⟩
    · obtain ⟨out, ordering, hstage, -, hrel, hinv₃⟩ := stageNext_spec hinv₂ haccepted.valid.2.2
      obtain ⟨hframe₃, hbooks₃⟩ := framed_stage e₂ ordering out
      obtain ⟨r, e₄, hack, hinv₄, hdelivery₄, hbooks₄, hframe₄⟩ :=
        acknowledgeAndCount_spec hinv₃ haccepted.data nowUs
      have hord : e₂.ordering = gateAfter := congrArg Delivery.ordering hdelivery₂
      have hstaged : e₂.staged? = e.staged? := congrArg Delivery.staged hdelivery₂
      have htrace₂ : e₂.trace = e.trace ++ s.out.map .expired := congrArg Delivery.trace hdelivery₂
      have hview := delivery_stage e₂ ordering out
      have htrace : (e₂.stage ordering out).trace = _ := congrArg Delivery.trace hview
      have hlocal : (e₂.stage ordering out).localId = e.localId :=
        hframe₃.localId.trans hframe₂.localId
      rw [hord] at hrel
      refine ⟨_, e₄, handleDataPath_passed haccepted.data haccepted.valid hrun hgate hstage hack, hinv₄,
        .passed (r := r) hthrough hgated hrel ?_, hbooks₄.trans (hbooks₃.trans hbooks₂), ?_⟩
      · rw [hdelivery₄, hlocal, hview, htrace, hdelivery₂, hstaged, htrace₂]
        simp only [delivery, List.append_assoc]
      · have hfiltered : Steady e { e with dedup } := ⟨⟨rfl, rfl, rfl⟩, rfl⟩
        exact hfiltered.trans (hframe₂.trans (hframe₃.trans hframe₄))
    · obtain ⟨stats, hpath, hstats⟩ := handleDataPath_kept haccepted.data hrun hgate hr
      have hinv₃ : Inv P { e₂ with stats } := { hinv₂ with }
      refine ⟨_, _, hpath, hinv₃, .kept hthrough hgated ?_, hbooks₂,
        ⟨hframe₂.localId, hframe₂.inbound, hframe₂.lastNowUs⟩, hframe₂.seqState⟩
      have hsame : ({ e₂ with stats } : DeliveryEngine).delivery = e₂.delivery := by
        simp only [delivery, staged?, hstats]
      rw [hsame, hdelivery₂]
      rfl

end DeliveryEngine

end MessageEngine
