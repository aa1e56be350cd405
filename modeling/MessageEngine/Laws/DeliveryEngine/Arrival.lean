import MessageEngine.Laws.DeliveryEngine.Step

/-!
# What a receive finds

A `receive` that the guard accepts finds an engine whose reconnects are drained (`Receiving`). From
that engine, before anything else is done, one can read off what the call will look at: whether the
transport is asked (`asks`), what is then in the staging slot and in the gate (`opened`), which data
message reaches the gate (`data?`) and the gate it finds there once that has been swept (`gate`).
The conditions of the laws about runs are stated in these words.

## What is proved

- `opened_spec`: the staging slot is empty when the transport is asked, but for one case. A staged
  message that expired makes room for the next one of its source, and the transport is asked with
  that in the slot.
- `exec_delivered`: everything a call can do to the delivery state, with the staged message and
  the message of the transport taken together. Each law about runs splits over this list;
- `stepFault_of_receiving`, `exec_receiving`, `books_of_arrival`: the assertions that such a call
  runs into, and what it does to the two tables of messages that were sent;
- `reachable_inv`: the invariant holds after every run.
-/

namespace MessageEngine

open Outcome Table OrderingBuffer

instance (f : DuplicateFilter) (src : NodeId) (msgId : UInt64) : Decidable (f.Knows src msgId) :=
  inferInstanceAs (Decidable (∃ _, _))

namespace DeliveryEngine

/-- A `receive` that the guard accepted, with the reconnects drained. -/
structure Receiving where
  engine : DeliveryEngine
  timeoutMs : UInt32
  nowUs : UInt64

/-- The call as a `receive` that gets past the guard and the drain, if it is one. -/
def receiving? (e : DeliveryEngine) (i : Input) : Option Receiving :=
  match i.call with
  | .receive timeoutMs nowUs =>
    if (e.attach i.transport).Stale nowUs then none
    else match (e.attach i.transport).drained nowUs with
      | .ok engine => some { engine, timeoutMs, nowUs }
      | .error _ => none
  | _ => none

namespace Receiving

/-- The transport is asked: nothing is staged, or what is staged has expired. -/
def asks (r : Receiving) : Prop := ∀ env ∈ r.engine.staged?, ExpiredAt r.nowUs env

instance (r : Receiving) : Decidable r.asks := inferInstanceAs (Decidable (∀ env ∈ _, _))

/-- The delivery state in which the transport is asked: an expired staged message has been dropped,
and the message of its source that was next in line has been staged. -/
def opened (r : Receiving) : Delivery :=
  match r.engine.staged? with
  | none => r.engine.delivery
  | some env =>
    match r.engine.ordering.tryReleaseNext env.sourceId with
    | .ok (out, ordering) => { r.engine.delivery with
        ordering, staged := out, dropped := r.engine.stats.msgsDroppedExpired + 1
        trace := r.engine.trace ++ ([.heldExpired env] ++ out.toList.map .released) }
    | .error _ => r.engine.delivery

/-- The frame the transport hands up. -/
def frame? (r : Receiving) : Option MessageEnvelope :=
  if r.asks then (r.engine.transport.inbound r.timeoutMs).toOption else none

/-- The message that the frame completes. -/
def arrival? (r : Receiving) : Option MessageEnvelope :=
  r.frame?.bind fun frame => r.engine.arriving? frame r.nowUs

/-- The message gets as far as the ordering gate. -/
def ReachesGate (r : Receiving) (env : MessageEnvelope) : Prop :=
  Routed r.engine.localId env r.nowUs ∧ envelopeIsData env ∧
    ¬ (env.reliabilityClass = .reliableRetry ∧ r.engine.dedup.Knows env.sourceId env.messageId)

instance (r : Receiving) (env : MessageEnvelope) : Decidable (r.ReachesGate env) :=
  inferInstanceAs (Decidable (_ ∧ _ ∧ _))

/-- The data message that reaches the ordering gate. -/
def data? (r : Receiving) : Option MessageEnvelope := r.arrival?.filter fun env => r.ReachesGate env

/-- The ordering gate as that message finds it: swept. -/
def gate (r : Receiving) : OrderingBuffer :=
  match r.opened.ordering.sweepExpiredHolds r.nowUs orderingHoldCount with
  | .ok s => s.buffer
  | .error _ => r.opened.ordering

variable {P : MessageEnvelope → Prop} {r : Receiving} {env : MessageEnvelope}

/-- What is in the slot and in the gate when the transport is asked. -/
theorem opened_spec (inv : Inv P r.engine) (asks : r.asks) :
    (r.engine.staged? = none ∧ r.opened = r.engine.delivery) ∨
    ∃ env out ordering, r.engine.staged? = some env ∧ ExpiredAt r.nowUs env ∧ Accepted P env ∧
      Released r.engine.ordering env.sourceId out ordering ∧ ordering.Inv (Accepted P) ∧
      r.opened = { r.engine.delivery with
        ordering, staged := out, dropped := r.engine.stats.msgsDroppedExpired + 1
        trace := r.engine.trace ++ ([.heldExpired env] ++ out.toList.map .released) } := by
  cases hstaged : r.engine.staged? with
  | none => exact .inl ⟨rfl, by rw [opened, hstaged]⟩
  | some env =>
    obtain ⟨-, -, haccepted, -⟩ := inv.accepted_staged hstaged
    obtain ⟨out, ordering, hrun, hrel, hord⟩ := tryReleaseNext_spec inv.ordering haccepted.valid.2.2
    refine .inr ⟨env, out, ordering, rfl, asks env hstaged, haccepted, hrel, hord, ?_⟩
    rw [opened, hstaged]
    dsimp only
    rw [hrun]

/-- Dropping the staged message leaves the engine in this state. -/
theorem opened_of_expired {e₁ : DeliveryEngine} (hstaged : r.engine.staged? = some env)
    (held : HeldOutcome r.engine env r.nowUs (.error .errExpired) e₁) :
    e₁.delivery = r.opened ∧ e₁.reassembly = r.engine.reassembly := by
  cases held with
  | expired late release delivery reassembly =>
    refine ⟨?_, reassembly⟩
    rw [opened, hstaged]
    dsimp only
    rw [release]
    exact delivery

theorem gate_eq {s : Sweep} (h : r.opened.ordering.sweepExpiredHolds r.nowUs orderingHoldCount = .ok s) :
    r.gate = s.buffer := by
  rw [gate, h]

/-! ## What the call does -/

/-- Everything a `receive` can do to the delivery state. -/
inductive Answered (P : MessageEnvelope → Prop) (r : Receiving) : Reply → Delivery → Prop where
  /-- The staged message is returned and the next one staged. -/
  | returned {env : MessageEnvelope} {out : Option MessageEnvelope} {ordering : OrderingBuffer}
      {res : Result} (staged : r.engine.staged? = some env) (accepted : Accepted P env)
      (fresh : ¬ ExpiredAt r.nowUs env) (release : Released r.engine.ordering env.sourceId out ordering) :
      Answered P r (.ok env) { r.engine.delivery with
        ordering, staged := out
        trace := r.engine.trace ++ ([.heldReturned env] ++ out.toList.map .released ++
          ackEffects r.engine.localId env r.nowUs res) }
  /-- The transport is asked and no data message comes of it; one that is late may be dropped. -/
  | idle {reply : Reply} {late : List MessageEnvelope} (asks : r.asks) (none : r.data? = none)
      (noData : ∀ env, reply = .ok env → ¬ envelopeIsData env)
      (routed : ∀ env, reply = .ok env → Routed r.engine.localId env r.nowUs) :
      Answered P r reply { r.opened with
        dropped := r.opened.dropped + UInt32.ofNat late.length
        trace := r.opened.trace ++ late.map .expired }
  /-- A duplicate is acknowledged and dropped. -/
  | duplicate {env : MessageEnvelope} {res : Result} (asks : r.asks) (none : r.data? = none)
      (retry : env.reliabilityClass = .reliableRetry)
      (known : r.opened.dedup.Knows env.sourceId env.messageId) :
      Answered P r (.error .errDuplicate) { r.opened with
        trace := r.opened.trace ++ [.sent (envelopeMakeAck env r.engine.localId r.nowUs) res] }
  /-- The gate keeps the message or drops it. -/
  | kept {env : MessageEnvelope} {dedup : DuplicateFilter} {s : Sweep} {res : Result}
      {ordering : OrderingBuffer} (asks : r.asks) (data : r.data? = some env)
      (accepted : Accepted P env) (through : LetThrough r.opened.dedup env r.nowUs dedup)
      (gate : Gated P r.opened.ordering env r.nowUs s (.error res) ordering) :
      Answered P r (.error res) { r.opened with
        dedup, ordering, dropped := r.opened.dropped + UInt32.ofNat s.out.length
        trace := r.opened.trace ++ s.out.map .expired }
  /-- The gate passes the message; it is returned, and what it was holding up is staged. -/
  | passed {env : MessageEnvelope} {dedup : DuplicateFilter} {s : Sweep} {res : Result}
      {gateAfter ordering : OrderingBuffer} {out : Option MessageEnvelope} (asks : r.asks)
      (data : r.data? = some env) (accepted : Accepted P env)
      (through : LetThrough r.opened.dedup env r.nowUs dedup)
      (gate : Gated P r.opened.ordering env r.nowUs s (.ok env) gateAfter)
      (release : Released gateAfter env.sourceId out ordering) :
      Answered P r (.ok env) {
        dedup, ordering, staged := out.or r.opened.staged
        dropped := r.opened.dropped + UInt32.ofNat s.out.length
        trace := r.opened.trace ++ (s.out.map .expired ++ out.toList.map .released ++
          ackEffects r.engine.localId env r.nowUs res) }

/-- The transport was asked of an engine that is like the one found but for the staged message. -/
structure Polled (r : Receiving) (e : DeliveryEngine) : Prop where
  asks : r.asks
  delivery : e.delivery = r.opened
  reassembly : e.reassembly = r.engine.reassembly
  localId : e.localId = r.engine.localId
  inbound : e.transport.inbound = r.engine.transport.inbound

theorem Polled.arrival {e : DeliveryEngine} (h : Polled r e) {frame : MessageEnvelope}
    (hframe : e.transport.inbound r.timeoutMs = .ok frame) :
    r.arrival? = e.arriving? frame r.nowUs := by
  rw [h.inbound] at hframe
  rw [arrival?, frame?, if_pos h.asks, hframe]
  change r.engine.arriving? frame r.nowUs = _
  unfold arriving?
  rw [h.reassembly]

theorem frame?_eq_some {frame : MessageEnvelope} (h : r.frame? = some frame) :
    r.asks ∧ r.engine.transport.inbound r.timeoutMs = .ok frame := by
  unfold frame? at h
  split at h
  case isTrue hasks =>
    refine ⟨hasks, ?_⟩
    cases hin : r.engine.transport.inbound r.timeoutMs with
    | error _ =>
      rw [hin] at h
      cases h
    | ok _ =>
      rw [hin] at h
      cases h
      rfl
  case isFalse _ => cases h

theorem opened_dedup (r : Receiving) : r.opened.dedup = r.engine.dedup := by
  unfold opened
  split
  · rfl
  · split
    · rfl
    · rfl

theorem data?_of_no_arrival (h : r.arrival? = none) : r.data? = none := by
  rw [data?, h]
  rfl

theorem data?_of_arrival (h : r.arrival? = some env) (hgate : r.ReachesGate env) : r.data? = some env := by
  rw [data?, h]
  exact Option.filter_some_pos (decide_eq_true hgate)

theorem data?_of_refused (h : r.arrival? = some env) (hgate : ¬ r.ReachesGate env) : r.data? = none := by
  rw [data?, h]
  exact Option.filter_some_neg (decide_eq_false hgate)

/-- Nothing came and nothing was dropped. -/
private theorem Answered.nothing {reply : Reply} (asks : r.asks) (none : r.data? = none)
    (noData : ∀ env, reply = .ok env → ¬ envelopeIsData env)
    (routed : ∀ env, reply = .ok env → Routed r.engine.localId env r.nowUs) :
    Answered P r reply r.opened := by
  have h : Answered P r reply { r.opened with
      dropped := r.opened.dropped + UInt32.ofNat ([] : List MessageEnvelope).length
      trace := r.opened.trace ++ ([] : List MessageEnvelope).map .expired } :=
    .idle asks none noData routed
  simpa using h

/-- What a data message does, seen from the engine that was found. -/
private theorem Polled.answered_data {e e' : DeliveryEngine} {reply : Reply} (h : Polled r e)
    (arrival : r.arrival? = some env) (routed : Routed e.localId env r.nowUs)
    (accepted : Accepted P env) (outcome : DataOutcome P e env r.nowUs reply e') :
    Answered P r reply e'.delivery := by
  have hdedup : e.dedup = r.opened.dedup := congrArg Delivery.dedup h.delivery
  have hordering : e.ordering = r.opened.ordering := congrArg Delivery.ordering h.delivery
  have hstaged : e.staged? = r.opened.staged := congrArg Delivery.staged h.delivery
  have hdropped : e.stats.msgsDroppedExpired = r.opened.dropped := congrArg Delivery.dropped h.delivery
  have htrace : e.trace = r.opened.trace := congrArg Delivery.trace h.delivery
  rw [h.localId] at routed
  have hreaches (hnew : env.reliabilityClass = .reliableRetry →
      ¬ e.dedup.Knows env.sourceId env.messageId) : r.ReachesGate env := by
    rw [hdedup, opened_dedup] at hnew
    exact ⟨routed, accepted.data, fun hknown => hnew hknown.1 hknown.2⟩
  cases outcome with
  | duplicate retry known delivery =>
    rw [hdedup] at known
    have hrefused : ¬ r.ReachesGate env := by
      rintro ⟨-, -, hnew⟩
      rw [opened_dedup] at known
      exact hnew ⟨retry, known⟩
    rw [delivery, h.delivery, htrace, h.localId]
    exact .duplicate h.asks (data?_of_refused arrival hrefused) retry known
  | kept through gate delivery =>
    rw [delivery, h.delivery, htrace, hdropped]
    rw [hordering] at gate
    refine .kept h.asks (data?_of_arrival arrival (hreaches through.new)) accepted ?_ gate
    rw [← hdedup]
    exact through
  | passed through gate release delivery =>
    rw [delivery, htrace, hdropped, hstaged, h.localId]
    rw [hordering] at gate
    refine .passed h.asks (data?_of_arrival arrival (hreaches through.new)) accepted ?_ gate release
    rw [← hdedup]
    exact through

/-- What the transport brings, seen from the engine that was found. -/
theorem Polled.answered {e e' : DeliveryEngine} {reply : Reply} (h : Polled r e)
    (poll : PollOutcome P e r.timeoutMs r.nowUs reply e') : Answered P r reply e'.delivery := by
  cases poll with
  | nothing empty =>
    have hnone : r.arrival? = none := by
      rw [h.inbound] at empty
      rw [arrival?, frame?, if_pos h.asks, empty]
      rfl
    rw [h.delivery]
    exact .nothing h.asks (data?_of_no_arrival hnone) (by simp) (by simp)
  | frame arrived outcome =>
    have harrival := h.arrival arrived
    cases outcome with
    | incomplete hnone delivery books =>
      rw [delivery, h.delivery]
      exact .nothing h.asks (data?_of_no_arrival (harrival.trans hnone)) (by simp) (by simp)
    | @expired e' env hsome late delivery books =>
      have hdropped : e.stats.msgsDroppedExpired = r.opened.dropped :=
        congrArg Delivery.dropped h.delivery
      have htrace : e.trace = r.opened.trace := congrArg Delivery.trace h.delivery
      have hrefused : ¬ r.ReachesGate env := by
        rintro ⟨hrouted, -⟩
        exact absurd late (Bool.eq_false_iff.mp hrouted.1)
      have hidle : Answered P r (.error .errExpired) { r.opened with
          dropped := r.opened.dropped + UInt32.ofNat [env].length
          trace := r.opened.trace ++ [env].map .expired } :=
        .idle h.asks (data?_of_refused (harrival.trans hsome) hrefused) (by simp) (by simp)
      rw [delivery, h.delivery, hdropped, htrace]
      exact hidle
    | misrouted hsome elsewhere delivery books =>
      rw [delivery, h.delivery]
      refine .nothing h.asks (data?_of_refused (harrival.trans hsome) ?_) (by simp) (by simp)
      rintro ⟨hrouted, -⟩
      rw [h.localId] at elsewhere
      exact elsewhere hrouted.2
    | control hsome routed isControl delivery books =>
      rw [delivery, h.delivery]
      refine .nothing h.asks (data?_of_refused (harrival.trans hsome) ?_) ?_ ?_
      · rintro ⟨-, hdata, -⟩
        exact not_isControl_of_isData hdata isControl
      · intro env henv hdata
        cases henv
        exact not_isControl_of_isData hdata isControl
      · intro env henv
        cases henv
        rw [h.localId] at routed
        exact routed
    | data hsome routed accepted source outcome books =>
      exact h.answered_data (harrival.trans hsome) routed accepted outcome

/-- Everything that `receive` can do after the drain. -/
theorem answered_of_outcome {e' : DeliveryEngine} {reply : Reply} (inv : Inv P r.engine)
    (outcome : DrainedOutcome P r.engine r.timeoutMs r.nowUs reply e') :
    Answered P r reply e'.delivery := by
  cases outcome with
  | returned staged held books =>
    cases held with
    | returned fresh release delivery =>
      rw [delivery]
      exact .returned staged (inv.accepted_staged staged).2.2.1 fresh release
  | polled staged poll =>
    have hopened : r.engine.delivery = r.opened := by rw [opened, staged]
    have hasks : r.asks := by
      intro env henv
      rw [staged] at henv
      cases henv
    exact Polled.answered ⟨hasks, hopened, rfl, rfl, rfl⟩ poll
  | fellThrough staged inv₁ held books framed poll =>
    obtain ⟨hopened, hreassembly⟩ := opened_of_expired staged held
    have hasks : r.asks := by
      intro env henv
      rw [staged] at henv
      cases henv
      cases held with
      | expired late _ _ _ => exact late
    exact Polled.answered ⟨hasks, hopened, hreassembly, framed.localId, framed.inbound⟩ poll

end Receiving

/-! ## What any call does -/

/-- Everything a call can do to the delivery state. -/
inductive Delivered (P : MessageEnvelope → Prop) (e : DeliveryEngine) (i : Input) :
    Answer → Delivery → Prop where
  /-- Sending, retransmitting and observing. -/
  | outbound {answer : Answer} {effects : List Effect}
      (notReceive : ∀ timeoutMs nowUs, i.call ≠ .receive timeoutMs nowUs)
      (notReceived : ∀ reply, answer ≠ .received reply)
      (outward : ∀ x ∈ effects, x.outward = true) :
      Delivered P e i answer { e.delivery with
        dropped := e.stats.msgsDroppedExpired + UInt32.ofNat (expiries effects), trace := effects }
  /-- The guard turned the call away. -/
  | rejected {r : Result} (none : receiving? e i = none) : Delivered P e i (.received (.error r)) { e.delivery with trace := [] }
  | swept {nowUs : UInt64} {n : Nat} {s : Sweep} (call : i.call = .sweepAckTimeouts nowUs)
      (fresh : ¬ e.Stale nowUs) (swept : e.ordering.sweepExpiredHolds nowUs orderingHoldCount = .ok s)
      (sweeping : Sweeping (Accepted P) e.ordering nowUs orderingHoldCount s) :
      Delivered P e i (.counted n) { e.delivery with
        ordering := s.buffer
        dropped := e.stats.msgsDroppedExpired + UInt32.ofNat s.out.length
        trace := s.out.map .expired }
  | reset {src : NodeId} {d : Delivery} (call : i.call = .resetPeerOrdering src)
      (reset : IsReset src { e.delivery with trace := [] } d) : Delivered P e i .done d
  | received {r : Receiving} {reply : Reply} {d : Delivery} (receiving : receiving? e i = some r)
      (inv : Inv P r.engine)
      (resets : Resets (reconnects orderingPeerCount i.transport) { e.delivery with trace := [] }
        r.engine.delivery)
      (answered : r.Answered P reply d) : Delivered P e i (.received reply) d

variable {P : MessageEnvelope → Prop} {e e' : DeliveryEngine} {i : Input}

/-- What a step that returned did to the delivery state. -/
theorem exec_delivered (hp : HeaderProperty P) (inv : Inv P e) (hframes : Delivers P i.transport)
    {o : Observation} (h : exec i e = .ok (o, e')) :
    Inv P e' ∧ Delivered P e i o.answer e'.delivery ∧ o.effects = e'.trace := by
  obtain ⟨hinv, ⟨houtcome, heffects⟩, -⟩ := exec_outcome hp inv hframes h
  refine ⟨hinv, ?_, heffects⟩
  obtain ⟨call, transport⟩ := i
  obtain ⟨answer, effects⟩ := o
  dsimp only at houtcome ⊢
  cases houtcome with
  | outbound notReceive notReceived sends =>
    obtain ⟨sent, houtward, hdelivery⟩ := sends
    rw [hdelivery]
    exact .outbound notReceive notReceived houtward
  | rejected stale =>
    refine .rejected ?_
    rw [receiving?]
    exact if_pos stale
  | swept fresh swept sweeping delivery =>
    rw [delivery]
    exact .swept rfl fresh swept sweeping
  | reset reset => exact .reset rfl reset
  | @received timeoutMs nowUs reply d e' fresh drain hinv resets framed outcome =>
    have hreceiving : receiving? e ⟨.receive timeoutMs nowUs, transport⟩ = some ⟨d, timeoutMs, nowUs⟩ := by
      rw [receiving?]
      dsimp only
      rw [if_neg fresh, drain]
    exact .received hreceiving hinv resets (Receiving.answered_of_outcome hinv outcome)

/-! ## A receive that gets past the guard -/

section

variable {r : Receiving}

theorem receiving?_eq_some (h : receiving? e i = some r) :
    i.call = .receive r.timeoutMs r.nowUs ∧ ¬ (e.attach i.transport).Stale r.nowUs ∧
      (e.attach i.transport).drained r.nowUs = .ok r.engine := by
  unfold receiving? at h
  split at h
  case h_1 timeoutMs nowUs hcall =>
    split at h
    case isTrue _ => cases h
    case isFalse hfresh =>
      split at h
      case h_1 engine hdrained =>
        cases h
        exact ⟨hcall, hfresh, hdrained⟩
      case h_2 _ => cases h
  case h_2 _ => cases h

/-- The engine that is found is in order, and its transport is that of the call. -/
theorem Inv.receiving (inv : Inv P e) (h : receiving? e i = some r) :
    Inv P r.engine ∧ r.engine.localId = e.localId ∧
      r.engine.transport.inbound = i.transport.inbound := by
  obtain ⟨-, -, hdrained⟩ := receiving?_eq_some h
  obtain ⟨d, hd, hinv, -, hframed⟩ := drained_spec (inv.attach i.transport) r.nowUs
  rw [hdrained] at hd
  cases hd
  exact ⟨hinv, hframed.localId, hframed.inbound⟩

/-- Only what comes after the drain can run into an assertion. -/
theorem stepFault_of_receiving (h : receiving? e i = some r) (hnow : r.nowUs > 0) :
    stepFault i e = r.engine.drainedFault r.timeoutMs r.nowUs := by
  obtain ⟨hcall, hfresh, hdrained⟩ := receiving?_eq_some h
  rw [stepFault, hcall]
  change (e.attach i.transport).receiveFault r.timeoutMs r.nowUs = _
  rw [receiveFault, if_neg (UInt64.pos_iff_ne_zero.mp hnow), if_neg hfresh, hdrained]

/-- Dropping the staged message overflows the counter of drops. -/
def Receiving.Overflows (r : Receiving) : Prop :=
  (∃ env ∈ r.engine.staged?, ExpiredAt r.nowUs env) ∧ r.engine.stats.msgsDroppedExpired + 1 = 0

instance (r : Receiving) : Decidable r.Overflows := inferInstanceAs (Decidable (_ ∧ _))

/-- The frame, if the transport is asked and has one, decides on the assertion unless the counter
overflows on the way to it. -/
theorem drainedFault_eq (r : Receiving) :
    r.engine.drainedFault r.timeoutMs r.nowUs = if r.Overflows then some .engineDeliverHeldPending
      else r.frame?.bind fun frame => r.engine.frameFault frame r.nowUs := by
  have hpoll : r.engine.pollFault r.timeoutMs r.nowUs =
      (r.engine.transport.inbound r.timeoutMs).toOption.bind fun frame =>
        r.engine.frameFault frame r.nowUs := by
    rw [pollFault]
    cases r.engine.transport.inbound r.timeoutMs with
    | ok frame => rfl
    | error _ => rfl
  rw [drainedFault, hpoll, Receiving.frame?]
  cases hstaged : r.engine.staged? with
  | none =>
    have hover : ¬ r.Overflows := by
      rintro ⟨⟨env, henv, -⟩, -⟩
      cases hstaged.symm.trans henv
    have hasks : r.asks := by
      intro env henv
      cases hstaged.symm.trans henv
    rw [if_neg hover, if_pos hasks]
  | some env =>
    dsimp only
    by_cases hlate : ExpiredAt r.nowUs env
    · have hasks : r.asks := by
        intro x hx
        cases hstaged.symm.trans hx
        exact hlate
      rw [if_pos hlate, if_pos hasks]
      by_cases hzero : r.engine.stats.msgsDroppedExpired + 1 = 0
      · have hover : r.Overflows := ⟨⟨env, hstaged, hlate⟩, hzero⟩
        rw [if_pos hover, hzero]
        rfl
      · rw [if_pos (UInt32.pos_iff_ne_zero.mpr hzero), if_neg (fun h => hzero h.2)]
    · have hasks : ¬ r.asks := fun h => hlate (h env hstaged)
      have hover : ¬ r.Overflows := by
        rintro ⟨⟨x, hx, h⟩, -⟩
        cases hstaged.symm.trans hx
        exact hlate h
      rw [if_neg hlate, if_neg hover, if_neg hasks]
      rfl

theorem drainedFault_of_frame {frame : MessageEnvelope} (h : r.frame? = some frame) :
    r.engine.drainedFault r.timeoutMs r.nowUs = none ↔
      ¬ r.Overflows ∧ r.engine.frameFault frame r.nowUs = none := by
  rw [drainedFault_eq, h]
  by_cases hover : r.Overflows
  · simp [hover]
  · simp [hover]

/-- A call that runs into none does what comes after the drain. -/
theorem exec_receiving (hp : HeaderProperty P) (inv : Inv P e) (hframes : Delivers P i.transport)
    (h : receiving? e i = some r) (hnow : r.nowUs > 0)
    (hfault : r.engine.drainedFault r.timeoutMs r.nowUs = none) :
    ∃ reply e', exec i e = .ok (⟨.received reply, e'.trace⟩, e') ∧ Inv P e' ∧
      DrainedOutcome P r.engine r.timeoutMs r.nowUs reply e' := by
  obtain ⟨hcall, hfresh, hdrained⟩ := receiving?_eq_some h
  obtain ⟨hinv, -, hinbound⟩ := inv.receiving h
  have hframes' : Delivers P r.engine.transport := by
    intro t frame harrived
    rw [hinbound] at harrived
    exact hframes t frame harrived
  obtain ⟨reply, e', hrun, hinv', houtcome, -⟩ := receiveDrained_spec hp hinv hnow hframes' hfault
  refine ⟨reply, e', ?_, hinv', houtcome⟩
  rw [exec, hcall]
  refine bind_eq_ok.mpr ⟨(.received reply, e'), bind_eq_ok.mpr ⟨(reply, e'), ?_, rfl⟩, rfl⟩
  exact (receive_eq hnow hfresh hdrained).trans hrun

/-- What a call did that returned. -/
theorem exec_of_receiving (hp : HeaderProperty P) (inv : Inv P e) (hframes : Delivers P i.transport)
    (h : receiving? e i = some r) (hnow : r.nowUs > 0) {o : Observation}
    (hexec : exec i e = .ok (o, e')) :
    r.engine.drainedFault r.timeoutMs r.nowUs = none ∧
      ∃ reply, o.answer = .received reply ∧ DrainedOutcome P r.engine r.timeoutMs r.nowUs reply e' := by
  rw [← stepFault_of_receiving h hnow]
  cases hfault : stepFault i e with
  | some site =>
    rw [exec_fault hp inv hframes hfault] at hexec
    cases hexec
  | none =>
    rw [stepFault_of_receiving h hnow] at hfault
    obtain ⟨reply, e'', hrun, -, houtcome⟩ := exec_receiving hp inv hframes h hnow hfault
    rw [hexec] at hrun
    cases hrun
    exact ⟨rfl, reply, rfl, houtcome⟩

/-- The two tables after the transport brought a frame that completed a message. -/
private theorem books_of_poll {d : DeliveryEngine} {timeoutMs : UInt32} {nowUs : UInt64}
    {frame env : MessageEnvelope} {reply : Reply} (hframe : d.transport.inbound timeoutMs = .ok frame)
    (harriving : d.arriving? frame nowUs = some env) (poll : PollOutcome P d timeoutMs nowUs reply e') :
    e'.books = if Routed d.localId env nowUs ∧ envelopeIsControl env
      then d.books.afterControl env else d.books := by
  cases poll with
  | nothing empty => cases empty.symm.trans hframe
  | frame arrived outcome =>
    cases arrived.symm.trans hframe
    cases outcome with
    | incomplete none _ _ => cases none.symm.trans harriving
    | expired some late _ books =>
      cases some.symm.trans harriving
      have hnot : ¬ (Routed d.localId env nowUs ∧ envelopeIsControl env) := by
        rintro ⟨hrouted, -⟩
        exact absurd late (Bool.eq_false_iff.mp hrouted.1)
      rw [if_neg hnot]
      exact books
    | misrouted some elsewhere _ books =>
      cases some.symm.trans harriving
      rw [if_neg (fun h => elsewhere h.1.2)]
      exact books
    | control some routed isControl _ books =>
      cases some.symm.trans harriving
      rw [if_pos ⟨routed, isControl⟩]
      exact books
    | data some _ accepted _ _ books =>
      cases some.symm.trans harriving
      rw [if_neg (fun h => not_isControl_of_isData accepted.data h.2)]
      exact books

/-- The two tables after a call that completed a message: only a control message for this node
changes them. -/
theorem books_of_arrival {reply : Reply} {env : MessageEnvelope} (harrival : r.arrival? = some env)
    (outcome : DrainedOutcome P r.engine r.timeoutMs r.nowUs reply e') :
    e'.books = if Routed r.engine.localId env r.nowUs ∧ envelopeIsControl env
      then r.engine.books.afterControl env else r.engine.books := by
  obtain ⟨frame, hasked, harriving⟩ := Option.bind_eq_some_iff.mp harrival
  obtain ⟨hasks, hframe⟩ := Receiving.frame?_eq_some hasked
  cases outcome with
  | @returned _ staged hstaged held _ =>
    cases held with
    | returned fresh _ _ => exact absurd (hasks staged hstaged) fresh
  | polled _ poll => exact books_of_poll hframe harriving poll
  | @fellThrough e₁ _ _ _ _ _ held books framed poll =>
    have harriving₁ : e₁.arriving? frame r.nowUs = some env := by
      cases held with
      | expired _ _ _ reassembly =>
        unfold arriving? at harriving ⊢
        rw [reassembly]
        exact harriving
    rw [← framed.inbound] at hframe
    rw [books_of_poll hframe harriving₁ poll, framed.localId, books]

end

/-! ## Reachable engines -/

/-- The invariant holds after every run. -/
theorem reachable_inv {cfg : ChannelConfig} {localId : NodeId} {entropy : UInt64} {inputs : List Input}
    {os : List Observation} (hp : HeaderProperty P) (hlocal : localId ≠ nodeIdInvalid)
    (hframes : ∀ i ∈ inputs, Delivers P i.transport)
    (h : Run.runAll exec inputs (init cfg localId entropy) = .ok (os, e)) :
    Inv P e ∧ e.localId = localId := by
  refine Run.runAll_inv (I := fun e => Inv P e ∧ e.localId = localId) ?_ ?_ h
  · rintro i hi e o e' ⟨inv, hid⟩ hexec
    obtain ⟨hinv, -, hsame⟩ := exec_outcome hp inv (hframes i hi) hexec
    exact ⟨hinv, hsame.trans hid⟩
  · exact ⟨inv_init cfg entropy hlocal, rfl⟩

end DeliveryEngine

end MessageEngine
