import MessageEngine.Laws.DeliveryEngine.Send
import MessageEngine.Lib.Run

/-!
# One public call

The calls of the engine as one step function and everything a step can do as one case list,
`StepOutcome`. It is stated over the engine `e.attach i.transport`, the engine that the call finds:
its transport is that of the call and its trace is empty.

## What is proved

- `exec_spec`, `exec_fault`: a call returns, doing one of the listed things and keeping the
  invariant, or runs into the assertion that `stepFault` names; never both, and never anything else;
- `exec_outcome`: what follows when a call did return.
-/

namespace MessageEngine

open Outcome Table OrderingBuffer

namespace DeliveryEngine

variable {P : MessageEnvelope → Prop} {e e' : DeliveryEngine} {i : Input}

/-- The assertion that `receive` runs into, if it does. -/
def receiveFault (e : DeliveryEngine) (timeoutMs : UInt32) (nowUs : UInt64) : Option Site :=
  if nowUs = 0 then some .engineReceive
  else if e.Stale nowUs then none
  else match e.drained nowUs with
    | .ok d => d.drainedFault timeoutMs nowUs
    | .error _ => none

/-- The assertion that a call runs into, if it does. -/
def callFault (call : Call) (e : DeliveryEngine) : Option Site :=
  match call with
  | .send env nowUs => e.sendFault env nowUs
  | .receive timeoutMs nowUs => e.receiveFault timeoutMs nowUs
  | .pumpRetries nowUs => e.pumpFault nowUs
  | .sweepAckTimeouts nowUs => if nowUs = 0 then some .engineSweepAckTimeouts else none
  | .resetPeerOrdering src => if src = 0 then some .engineResetPeerOrdering else none
  | .pollEvent => none
  | .drainEvents _ => none

/-- The assertion that a step runs into, if it does. -/
def stepFault (i : Input) (e : DeliveryEngine) : Option Site := callFault i.call (e.attach i.transport)

/-- Everything a call can do to the engine it finds. -/
inductive CallOutcome (P : MessageEnvelope → Prop) (e : DeliveryEngine) :
    Call → Answer → DeliveryEngine → Prop where
  /-- Sending, retransmitting and observing. -/
  | outbound {call : Call} {answer : Answer} {e' : DeliveryEngine}
      (notReceive : ∀ timeoutMs nowUs, call ≠ .receive timeoutMs nowUs)
      (notReceived : ∀ reply, answer ≠ .received reply) (sends : SendsOnly e e') :
      CallOutcome P e call answer e'
  /-- The guard turned the call away. -/
  | rejected {timeoutMs : UInt32} {nowUs : UInt64} {r : Result} (stale : e.Stale nowUs) :
      CallOutcome P e (.receive timeoutMs nowUs) (.received (.error r)) e
  | swept {nowUs : UInt64} {n : Nat} {e' : DeliveryEngine} {s : Sweep} (fresh : ¬ e.Stale nowUs)
      (swept : e.ordering.sweepExpiredHolds nowUs orderingHoldCount = .ok s)
      (sweeping : Sweeping (Accepted P) e.ordering nowUs orderingHoldCount s)
      (delivery : e'.delivery = { e.delivery with
        ordering := s.buffer
        dropped := e.stats.msgsDroppedExpired + UInt32.ofNat s.out.length
        trace := e.trace ++ s.out.map .expired }) :
      CallOutcome P e (.sweepAckTimeouts nowUs) (.counted n) e'
  | reset {src : NodeId} {e' : DeliveryEngine} (reset : IsReset src e.delivery e'.delivery) :
      CallOutcome P e (.resetPeerOrdering src) .done e'
  | received {timeoutMs : UInt32} {nowUs : UInt64} {reply : Reply} {d e' : DeliveryEngine}
      (fresh : ¬ e.Stale nowUs) (drain : e.drained nowUs = .ok d) (inv : Inv P d)
      (resets : Resets (reconnects orderingPeerCount e.transport) e.delivery d.delivery)
      (framed : Framed { e with lastNowUs := nowUs } d)
      (outcome : DrainedOutcome P d timeoutMs nowUs reply e') :
      CallOutcome P e (.receive timeoutMs nowUs) (.received reply) e'

/-- What a step can do. -/
abbrev StepOutcome (P : MessageEnvelope → Prop) (e : DeliveryEngine) (i : Input) (o : Observation)
    (e' : DeliveryEngine) : Prop :=
  CallOutcome P (e.attach i.transport) i.call o.answer e' ∧ o.effects = e'.trace

/-! ## Each call -/

private theorem run_receive (hp : HeaderProperty P) (inv : Inv P e) (hframes : Delivers P e.transport)
    {timeoutMs : UInt32} {nowUs : UInt64} (hfault : e.receiveFault timeoutMs nowUs = none) :
    ∃ reply e', e.receive timeoutMs nowUs = .ok (reply, e') ∧ Inv P e' ∧
      CallOutcome P e (.receive timeoutMs nowUs) (.received reply) e' ∧ e'.localId = e.localId := by
  unfold receiveFault at hfault
  split at hfault
  case isTrue _ => cases hfault
  case isFalse hne =>
  have hnow : nowUs > 0 := UInt64.pos_iff_ne_zero.mpr hne
  split at hfault
  case isTrue hstale => exact ⟨_, e, receive_stale hnow hstale, inv, .rejected hstale, rfl⟩
  case isFalse hfresh =>
  obtain ⟨d, hd, hinv, hresets, hframe⟩ := drained_spec inv nowUs
  rw [hd] at hfault
  have hframes' : Delivers P d.transport := by
    intro t frame h
    rw [hframe.inbound] at h
    exact hframes t frame h
  obtain ⟨reply, e', hrun, hinv', houtcome, hframe'⟩ := receiveDrained_spec hp hinv hnow hframes' hfault
  refine ⟨reply, e', (receive_eq hnow hfresh hd).trans hrun, hinv',
    .received hfresh hd hinv hresets hframe houtcome, hframe'.localId.trans hframe.localId⟩

private theorem run_receive_fault (hp : HeaderProperty P) (inv : Inv P e)
    (hframes : Delivers P e.transport) {timeoutMs : UInt32} {nowUs : UInt64} {site : Site}
    (hfault : e.receiveFault timeoutMs nowUs = some site) :
    e.receive timeoutMs nowUs = .error (.assertion site) := by
  unfold receiveFault at hfault
  split at hfault
  case isTrue hzero =>
    cases hfault
    rw [hzero]
    exact receive_zero e timeoutMs
  case isFalse hne =>
  have hnow : nowUs > 0 := UInt64.pos_iff_ne_zero.mpr hne
  split at hfault
  case isTrue _ => cases hfault
  case isFalse hfresh =>
  obtain ⟨d, hd, hinv, -, hframe⟩ := drained_spec inv nowUs
  rw [hd] at hfault
  have hframes' : Delivers P d.transport := by
    intro t frame h
    rw [hframe.inbound] at h
    exact hframes t frame h
  exact (receive_eq hnow hfresh hd).trans (receiveDrained_fault hp hinv hnow hframes' hfault)

theorem run_spec (hp : HeaderProperty P) (inv : Inv P e) (hframes : Delivers P e.transport)
    {call : Call} (hfault : callFault call e = none) :
    ∃ answer e', run call e = .ok (answer, e') ∧ Inv P e' ∧ CallOutcome P e call answer e' ∧
      e'.localId = e.localId := by
  cases call with
  | send env nowUs =>
    obtain ⟨⟨res, sent⟩, e', hrun, hout⟩ := send_spec inv hfault
    exact ⟨_, e', bind_eq_ok.mpr ⟨_, hrun, rfl⟩, hout.inv, .outbound (by simp) (by simp) hout.sends,
      hout.localId⟩
  | receive timeoutMs nowUs =>
    obtain ⟨reply, e', hrun, hinv, houtcome, hlocal⟩ := run_receive hp inv hframes hfault
    exact ⟨_, e', bind_eq_ok.mpr ⟨_, hrun, rfl⟩, hinv, houtcome, hlocal⟩
  | pumpRetries nowUs =>
    obtain ⟨n, e', hrun, hout⟩ := pumpRetries_spec inv hfault
    exact ⟨_, e', bind_eq_ok.mpr ⟨_, hrun, rfl⟩, hout.inv, .outbound (by simp) (by simp) hout.sends,
      hout.localId⟩
  | sweepAckTimeouts nowUs =>
    simp only [callFault] at hfault
    split at hfault
    case isTrue _ => cases hfault
    case isFalse hne =>
    have hnow : nowUs > 0 := UInt64.pos_iff_ne_zero.mpr hne
    by_cases hstale : e.Stale nowUs
    · exact ⟨_, e, bind_eq_ok.mpr ⟨_, sweepAckTimeouts_stale hnow hstale, rfl⟩, inv,
        .outbound (by simp) (by simp) (.of_eq rfl), rfl⟩
    · obtain ⟨s, n, e', hrun, hinv, hswept, hsweeping, hdelivery, hlocal, -⟩ :=
        sweepAckTimeouts_spec inv hnow hstale
      exact ⟨_, e', bind_eq_ok.mpr ⟨_, hrun, rfl⟩, hinv, .swept hstale hswept hsweeping hdelivery, hlocal⟩
  | resetPeerOrdering src =>
    simp only [callFault] at hfault
    split at hfault
    case isTrue _ => cases hfault
    case isFalse hne =>
    obtain ⟨e', hrun, hinv, hreset, hframe, -⟩ := resetPeerOrdering_spec inv hne
    exact ⟨_, e', bind_eq_ok.mpr ⟨_, hrun, rfl⟩, hinv, .reset hreset, hframe.localId⟩
  | pollEvent =>
    obtain ⟨out, events, hrun, hevents⟩ := pollEvent_spec inv
    have hinv : Inv P { e with events } := { inv with events := hevents }
    exact ⟨_, _, bind_eq_ok.mpr ⟨_, hrun, rfl⟩, hinv, .outbound (by simp) (by simp) (.of_eq rfl), rfl⟩
  | drainEvents bufCap =>
    obtain ⟨out, events, hrun, hevents⟩ := drainEvents_spec bufCap.toNat inv
    have hinv : Inv P { e with events } := { inv with events := hevents }
    exact ⟨_, _, bind_eq_ok.mpr ⟨_, hrun, rfl⟩, hinv, .outbound (by simp) (by simp) (.of_eq rfl), rfl⟩

theorem run_fault (hp : HeaderProperty P) (inv : Inv P e) (hframes : Delivers P e.transport)
    {call : Call} {site : Site} (hfault : callFault call e = some site) :
    run call e = .error (.assertion site) := by
  cases call with
  | send env nowUs => exact bind_eq_error.mpr (.inl (send_fault inv hfault))
  | receive timeoutMs nowUs => exact bind_eq_error.mpr (.inl (run_receive_fault hp inv hframes hfault))
  | pumpRetries nowUs => exact bind_eq_error.mpr (.inl (pumpRetries_fault inv hfault))
  | sweepAckTimeouts nowUs =>
    simp only [callFault] at hfault
    split at hfault
    case isTrue hzero =>
      cases hfault
      rw [hzero]
      exact bind_eq_error.mpr (.inl (sweepAckTimeouts_zero e))
    case isFalse _ => cases hfault
  | resetPeerOrdering src =>
    simp only [callFault] at hfault
    split at hfault
    case isTrue hzero =>
      cases hfault
      rw [hzero]
      exact bind_eq_error.mpr (.inl (resetPeerOrdering_zero e))
    case isFalse _ => cases hfault
  | pollEvent => cases hfault
  | drainEvents bufCap => cases hfault

/-! ## The step -/

theorem exec_spec (hp : HeaderProperty P) (inv : Inv P e) (hframes : Delivers P i.transport)
    (hfault : stepFault i e = none) :
    ∃ o e', exec i e = .ok (o, e') ∧ Inv P e' ∧ StepOutcome P e i o e' ∧ e'.localId = e.localId := by
  obtain ⟨answer, e', hrun, hinv, houtcome, hlocal⟩ := run_spec hp (inv.attach i.transport) hframes hfault
  exact ⟨⟨answer, e'.trace⟩, e', bind_eq_ok.mpr ⟨_, hrun, rfl⟩, hinv, ⟨houtcome, rfl⟩, hlocal⟩

theorem exec_fault (hp : HeaderProperty P) (inv : Inv P e) (hframes : Delivers P i.transport)
    {site : Site} (hfault : stepFault i e = some site) : exec i e = .error (.assertion site) :=
  bind_eq_error.mpr (.inl (run_fault hp (inv.attach i.transport) hframes hfault))

/-- A step returns unless it runs into an assertion. -/
theorem exec_ok_iff (hp : HeaderProperty P) (inv : Inv P e) (hframes : Delivers P i.transport) :
    (∃ o e', exec i e = .ok (o, e')) ↔ stepFault i e = none := by
  cases hfault : stepFault i e with
  | some site =>
    rw [exec_fault hp inv hframes hfault]
    simp
  | none =>
    obtain ⟨o, e', hrun, -⟩ := exec_spec hp inv hframes hfault
    exact ⟨fun _ => rfl, fun _ => ⟨o, e', hrun⟩⟩

/-- What follows when a step returned. -/
theorem exec_outcome (hp : HeaderProperty P) (inv : Inv P e) (hframes : Delivers P i.transport)
    {o : Observation} (h : exec i e = .ok (o, e')) :
    Inv P e' ∧ StepOutcome P e i o e' ∧ e'.localId = e.localId := by
  cases hfault : stepFault i e with
  | some site =>
    rw [exec_fault hp inv hframes hfault] at h
    cases h
  | none =>
    obtain ⟨o₁, e₁, hrun, hinv, houtcome, hlocal⟩ := exec_spec hp inv hframes hfault
    rw [h] at hrun
    cases hrun
    exact ⟨hinv, houtcome, hlocal⟩

/-- Any property at all: nothing is asked of the frames. -/
theorem headerProperty_true : HeaderProperty fun _ => True where
  stable := fun _ _ _ _ _ _ _ => trivial

end DeliveryEngine

end MessageEngine
