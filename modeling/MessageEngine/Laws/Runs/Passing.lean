import MessageEngine.Laws.Runs.Once

/-!
# Neither late nor astray

A message has an expiry and a destination, and both are checked where it enters the engine. It can
then wait, in a hold, in the staging slot or in the retry table, and grow late there. What waits has
been checked for its destination once and for all; its expiry is checked again each time it leaves.

## What is proved

- `fresh_send`, `fresh_pumpRetries`: what goes to the transport has not expired;
- `addressed_answered`: what waits for delivery is for this node;
- `neither_late_nor_astray`: the property of whole runs.
-/

namespace MessageEngine

open Outcome Table OrderingBuffer

namespace DeliveryEngine

variable {e e' : DeliveryEngine} {nowUs : UInt64} {env : MessageEnvelope}

/-! ## The way out -/

/-- Every frame handed to the transport so far was fresh. -/
def Fresh (nowUs : UInt64) (e : DeliveryEngine) : Prop :=
  ∀ env res, Effect.sent env res ∈ e.trace → ¬ ExpiredAt nowUs env

theorem Fresh.of_trace (h : Fresh nowUs e) (htrace : e'.trace = e.trace) : Fresh nowUs e' := by
  intro env res hsent
  rw [htrace] at hsent
  exact h env res hsent

theorem trace_emitEvent {kind : DeliveryEventKind} {messageId : UInt64} {nodeId : NodeId}
    {timestampUs : UInt64} {result : Result}
    (h : e.emitEvent kind messageId nodeId timestampUs result = .ok e') : e'.trace = e.trace := by
  obtain ⟨-, h⟩ := ensure_bind_eq_ok.mp h
  obtain ⟨events, -, h⟩ := bind_eq_ok.mp h
  cases h
  rfl

theorem fresh_sendViaTransport {res : Result} (h : Fresh nowUs e)
    (hrun : e.sendViaTransport env nowUs = .ok (res, e')) : Fresh nowUs e' := by
  obtain ⟨-, hrun⟩ := ensure_bind_eq_ok.mp hrun
  split at hrun
  case isTrue _ =>
    cases hrun
    exact h
  case isFalse hfresh =>
    obtain ⟨-, hrun⟩ := ensure_bind_eq_ok.mp hrun
    obtain ⟨r, sendResults, hsend⟩ := sendMessage_eq e env
    rw [hsend] at hrun
    cases hrun
    intro x res hsent
    rcases List.mem_append.mp hsent with hsent | hsent
    · exact h x res hsent
    · cases List.mem_singleton.mp hsent
      exact hfresh

theorem fresh_sendFragmentsLoop (frags : List MessageEnvelope) {anySent : Bool} {res : Result} :
    ∀ {e e' : DeliveryEngine}, Fresh nowUs e →
      sendFragments.loop nowUs frags anySent e = .ok (res, e') → Fresh nowUs e' := by
  induction frags generalizing anySent with
  | nil =>
    intro e e' h hrun
    cases hrun
    exact h
  | cons frag frags ih =>
    intro e e' h hrun
    obtain ⟨⟨res₁, e₁⟩, hsend, hrun⟩ := bind_eq_ok.mp hrun
    have h₁ := fresh_sendViaTransport h hsend
    dsimp only at hrun
    split at hrun
    · cases hrun
      exact h₁
    · exact ih h₁ hrun

theorem fresh_sendFragments {res : Result} (h : Fresh nowUs e)
    (hrun : e.sendFragments env nowUs = .ok (res, e')) : Fresh nowUs e' := by
  obtain ⟨-, hrun⟩ := ensure_bind_eq_ok.mp hrun
  obtain ⟨fragment, -, hrun⟩ := bind_eq_ok.mp hrun
  split at hrun
  · exact fresh_sendViaTransport h hrun
  · obtain ⟨frags, -, hrun⟩ := bind_eq_ok.mp hrun
    split at hrun
    · cases hrun
      exact h
    · obtain ⟨-, hrun⟩ := ensure_bind_eq_ok.mp hrun
      exact fresh_sendFragmentsLoop frags h hrun

theorem fresh_recordSendFailure {res : Result} (h : Fresh nowUs e)
    (hrun : e.recordSendFailure env res = .ok e') : Fresh nowUs e' := by
  obtain ⟨-, hrun⟩ := ensure_bind_eq_ok.mp hrun
  split at hrun
  · have hnoted : Fresh nowUs ({ e with stats := { e.stats with
        msgsDroppedExpired := e.stats.msgsDroppedExpired + 1 } }.note (.expired env)) := by
      intro x r hsent
      rcases List.mem_append.mp hsent with hsent | hsent
      · exact h x r hsent
      · cases List.mem_singleton.mp hsent
    exact hnoted.of_trace (trace_emitEvent hrun)
  · exact h.of_trace (trace_emitEvent hrun)

theorem trace_nextSeqFor {dst : NodeId} {seq : UInt32} (hrun : e.nextSeqFor dst = .ok (seq, e')) :
    e'.trace = e.trace := by
  obtain ⟨-, hrun⟩ := ensure_bind_eq_ok.mp hrun
  split at hrun
  · cases hrun
    rfl
  · split at hrun
    · cases hrun
      rfl
    · cases hrun
      rfl

theorem trace_prepareEnvelope {env' : MessageEnvelope}
    (hrun : e.prepareEnvelope env nowUs = .ok (env', e')) : e'.trace = e.trace := by
  obtain ⟨⟨messageId, idGen⟩, -, hrun⟩ := bind_eq_ok.mp hrun
  dsimp only at hrun
  rw [ite_bind] at hrun
  obtain ⟨⟨seq, e₁⟩, hseq, hrun⟩ := bind_eq_ok.mp hrun
  cases hrun
  split at hseq
  · have htrace := trace_nextSeqFor hseq
    exact htrace
  · cases hseq
    rfl

theorem fresh_sendPrepared {answer : Result × MessageEnvelope} (h : Fresh nowUs e)
    (hrun : e.sendPrepared env nowUs = .ok (answer, e')) : Fresh nowUs e' := by
  obtain ⟨⟨bookRes, ackTracker, retryManager⟩, -, hrun⟩ := bind_eq_ok.mp hrun
  dsimp only at hrun
  have h₁ : Fresh nowUs { e with ackTracker, retryManager } := h.of_trace rfl
  split at hrun
  · obtain ⟨e₂, hfail, hrun⟩ := bind_eq_ok.mp hrun
    cases hrun
    exact fresh_recordSendFailure h₁ hfail
  · obtain ⟨⟨res, e₂⟩, hsend, hrun⟩ := bind_eq_ok.mp hrun
    have h₂ := fresh_sendFragments h₁ hsend
    dsimp only at hrun
    split at hrun
    · obtain ⟨⟨reported, ackTracker, retryManager⟩, -, hrun⟩ := bind_eq_ok.mp hrun
      obtain ⟨e₃, hfail, hrun⟩ := bind_eq_ok.mp hrun
      cases hrun
      refine fresh_recordSendFailure ?_ hfail
      exact h₂.of_trace rfl
    · obtain ⟨e₃, hemit, hrun⟩ := bind_eq_ok.mp hrun
      obtain ⟨-, hrun⟩ := ensure_bind_eq_ok.mp hrun
      obtain ⟨-, hrun⟩ := ensure_bind_eq_ok.mp hrun
      cases hrun
      have htrace := trace_emitEvent hemit
      exact h₂.of_trace htrace

theorem fresh_send {answer : Result × MessageEnvelope} (h : Fresh nowUs e)
    (hrun : e.send env nowUs = .ok (answer, e')) : Fresh nowUs e' := by
  obtain ⟨-, hrun⟩ := ensure_bind_eq_ok.mp hrun
  split at hrun
  · cases hrun
    exact h
  · obtain ⟨⟨env₁, e₁⟩, hprepare, hrun⟩ := bind_eq_ok.mp hrun
    have htrace := trace_prepareEnvelope hprepare
    exact fresh_sendPrepared (h.of_trace htrace) hrun

theorem fresh_pumpLoop (collected : List MessageEnvelope) :
    ∀ {e e' : DeliveryEngine}, Fresh nowUs e → pumpRetries.loop nowUs collected e = .ok e' →
      Fresh nowUs e' := by
  induction collected with
  | nil =>
    intro e e' h hrun
    cases hrun
    exact h
  | cons env rest ih =>
    intro e e' h hrun
    obtain ⟨⟨res, e₁⟩, hsend, hrun⟩ := bind_eq_ok.mp hrun
    have h₁ := fresh_sendFragments h hsend
    dsimp only at hrun
    rw [ite_bind] at hrun
    obtain ⟨e₂, hemit, hrun⟩ := bind_eq_ok.mp hrun
    refine ih ?_ hrun
    split at hemit
    · cases hemit
      exact h₁
    · exact h₁.of_trace (trace_emitEvent hemit)

theorem fresh_pumpRetries {n : Nat} (h : Fresh nowUs e) (hrun : e.pumpRetries nowUs = .ok (n, e')) :
    Fresh nowUs e' := by
  obtain ⟨-, hrun⟩ := ensure_bind_eq_ok.mp hrun
  split at hrun
  · cases hrun
    exact h
  · obtain ⟨⟨collected, retryManager⟩, -, hrun⟩ := bind_eq_ok.mp hrun
    obtain ⟨-, hrun⟩ := ensure_bind_eq_ok.mp hrun
    obtain ⟨e₁, hloop, hrun⟩ := bind_eq_ok.mp hrun
    cases hrun
    refine fresh_pumpLoop collected ?_ hloop
    exact h.of_trace rfl

/-! ## The way in -/

variable {P : MessageEnvelope → Prop} {i : Input} {r : Receiving} {reply : Reply} {d d' : Delivery}
  {localId : NodeId}

/-- Everything that waits for delivery is for this node. -/
def Addressed (localId : NodeId) (d : Delivery) : Prop :=
  (∀ x, Held d.ordering x → envelopeAddressedTo x localId) ∧
    ∀ x ∈ d.staged, envelopeAddressedTo x localId

/-- The message is fresh at `nowUs` and for this node. -/
def Passes (localId : NodeId) (nowUs : UInt64) (env : MessageEnvelope) : Prop :=
  (env.expiryTimeUs = 0 ∨ env.expiryTimeUs > nowUs) ∧
    (env.destinationId = localId ∨ env.destinationId = nodeIdInvalid)

theorem not_expiredAt : ¬ ExpiredAt nowUs env ↔ env.expiryTimeUs = 0 ∨ env.expiryTimeUs > nowUs := by
  unfold ExpiredAt timestampExpired
  by_cases hzero : env.expiryTimeUs = 0
  · simp [hzero]
  · simp [hzero, UInt64.not_le]

theorem passes_of_routed (h : Routed localId env nowUs) : Passes localId nowUs env :=
  ⟨not_expiredAt.mp (Bool.eq_false_iff.mp h.1), h.2⟩

theorem Addressed.release {src : NodeId} {out : Option MessageEnvelope} {b b' : OrderingBuffer}
    (h : ∀ x, Held b x → envelopeAddressedTo x localId) (release : Released b src out b') :
    (∀ x, Held b' x → envelopeAddressedTo x localId) ∧ ∀ x ∈ out, envelopeAddressedTo x localId := by
  cases release with
  | nothing _ => exact ⟨h, by simp⟩
  | @next env _ held _ _ _ rest =>
    refine ⟨fun x hx => h x ((rest x).mp hx).1, fun x hx => ?_⟩
    cases hx
    exact h env held

theorem addressed_opened (inv : Inv P r.engine) (asks : r.asks)
    (h : Addressed localId r.engine.delivery) : Addressed localId r.opened := by
  rcases Receiving.opened_spec inv asks with
    ⟨-, hopened⟩ | ⟨env, out, ordering, -, -, -, hrel, -, hopened⟩
  · rw [hopened]
    exact h
  · rw [hopened]
    exact Addressed.release h.1 hrel

/-- What reaches the gate has been checked. -/
theorem routed_of_data (h : r.data? = some env) : Routed r.engine.localId env r.nowUs := by
  have hgate := (Option.mem_filter_iff.mp h).2
  exact (of_decide_eq_true hgate).1

/-- Whatever a `receive` returns passes, and what waits after it is still for this node. -/
theorem addressed_answered (inv : Inv P r.engine) (h : Addressed r.engine.localId r.engine.delivery)
    (answered : r.Answered P reply d') :
    Addressed r.engine.localId d' ∧
      ∀ env, reply = .ok env → Passes r.engine.localId r.nowUs env := by
  cases answered with
  | @returned env out ordering res staged accepted fresh release =>
    refine ⟨Addressed.release h.1 release, fun x hx => ?_⟩
    cases hx
    exact ⟨not_expiredAt.mp fresh, h.2 env staged⟩
  | idle asks none noData routed =>
    exact ⟨addressed_opened inv asks h, fun x hx => passes_of_routed (routed x hx)⟩
  | duplicate asks none retry known =>
    exact ⟨addressed_opened inv asks h, fun x hx => nomatch hx⟩
  | @kept env dedup s res ordering asks data accepted through gate =>
    have hopened := addressed_opened inv asks h
    refine ⟨⟨fun x hx => ?_, hopened.2⟩, fun x hx => nomatch hx⟩
    cases gate.ingested with
    | stored _ _ _ _ _ held =>
      rcases (held x).mp hx with hx | rfl
      · exact hopened.1 x (gate.sweeping.kept x hx)
      · exact (routed_of_data data).2
    | refused _ _ _ _ holds =>
      exact hopened.1 x (gate.sweeping.kept x ((held_congr holds x).mp hx))
  | @passed env dedup s res gateAfter ordering out asks data accepted through gate release =>
    have hopened := addressed_opened inv asks h
    have hgate (x : MessageEnvelope) (hx : Held gateAfter x) :
        envelopeAddressedTo x r.engine.localId :=
      hopened.1 x (gate.sweeping.kept x ((gate.ingested.held_passed x).mp hx))
    obtain ⟨hheld, hout⟩ := Addressed.release hgate release
    refine ⟨⟨hheld, fun x hx => ?_⟩, fun x hx => ?_⟩
    · cases out with
      | none => exact hopened.2 x hx
      | some next => exact hout x hx
    · cases hx
      exact passes_of_routed (routed_of_data data)

theorem addressed_reset {src : NodeId} (hord : d.ordering.Inv (Accepted P)) (h : Addressed localId d)
    (reset : IsReset src d d') : d'.ordering.Inv (Accepted P) ∧ Addressed localId d' := by
  obtain ⟨b', hrun, hinv, hheld, -⟩ := resetPeer_spec hord reset.source
  obtain rfl : b' = d'.ordering := by
    rw [reset.ordering] at hrun
    exact (Except.ok.inj hrun).symm
  refine ⟨hinv, fun x hx => h.1 x ((hheld x).mp hx).1, fun x hx => ?_⟩
  rw [reset.staged] at hx
  exact h.2 x (Option.mem_filter_iff.mp hx).1

theorem addressed_delivered {answer : Answer} (inv : Inv P e) (h : Addressed e.localId e.delivery)
    (delivered : Delivered P e i answer d') :
    Addressed e.localId d' ∧ ∀ env ∈ answer.returned?, ∀ nowUs ∈ i.receiveTime?,
      Passes e.localId nowUs env := by
  cases delivered with
  | outbound _ notReceived _ =>
    refine ⟨h, fun env henv => ?_⟩
    rw [returned?_of_not_received notReceived] at henv
    cases henv
  | rejected none => exact ⟨h, fun env henv => nomatch henv⟩
  | swept call fresh swept sweeping =>
    exact ⟨⟨fun x hx => h.1 x (sweeping.kept x hx), h.2⟩, fun env henv => nomatch henv⟩
  | reset call reset =>
    have hreset := addressed_reset (d := { e.delivery with trace := [] }) inv.ordering h reset
    exact ⟨hreset.2, fun env henv => nomatch henv⟩
  | @received r reply _ receiving hinv resets answered =>
    have hdrained := resets.keep
      (R := fun x => x.ordering.Inv (Accepted P) ∧ Addressed e.localId x)
      ⟨inv.ordering, h⟩ (fun _ _ _ _ hreset hx => addressed_reset hx.1 hx.2 hreset)
    obtain ⟨-, hlocal, -⟩ := inv.receiving receiving
    rw [← hlocal] at hdrained ⊢
    obtain ⟨haddressed, hpasses⟩ := addressed_answered hinv hdrained.2 answered
    refine ⟨haddressed, fun env henv nowUs hnow => ?_⟩
    rw [Input.receiveTime?, (receiving?_eq_some receiving).1] at hnow
    cases hnow
    refine hpasses env ?_
    cases reply with
    | error _ => cases henv
    | ok x =>
      cases henv
      rfl

/-! ## The law -/

/-- The time of a call that sends. -/
def Input.sendTime? (i : Input) : Option UInt64 :=
  match i.call with
  | .send _ nowUs => some nowUs
  | .pumpRetries nowUs => some nowUs
  | _ => none

/-- What a call that sends hands to the transport is fresh. -/
theorem fresh_exec {o : Observation} (hexec : exec i e = .ok (o, e')) (hnow : i.sendTime? = some nowUs) :
    Fresh nowUs e' := by
  obtain ⟨⟨answer, e₁⟩, hrun, hdone⟩ := bind_eq_ok.mp hexec
  cases hdone
  have hstart : Fresh nowUs (e.attach i.transport) := fun _ _ hsent => nomatch hsent
  unfold Input.sendTime? at hnow
  split at hnow
  case h_1 env time hcall =>
    cases hnow
    rw [hcall] at hrun
    obtain ⟨⟨⟨res, sent⟩, e₂⟩, hsend, hdone⟩ := bind_eq_ok.mp hrun
    cases hdone
    exact fresh_send hstart hsend
  case h_2 time hcall =>
    cases hnow
    rw [hcall] at hrun
    obtain ⟨⟨n, e₂⟩, hpump, hdone⟩ := bind_eq_ok.mp hrun
    cases hdone
    exact fresh_pumpRetries hstart hpump
  case h_3 _ => cases hnow

/-- Whatever a `receive` returns is fresh and for this node, and whatever a `send` or a
`pump_retries` hands to the transport is fresh. -/
def PassingLaw (localId : NodeId) (_ : List Observation) (_ : DeliveryEngine) (i : Input)
    (o : Observation) (_ : DeliveryEngine) : Prop :=
  (∀ env ∈ o.answer.returned?, ∀ nowUs ∈ i.receiveTime?, Passes localId nowUs env) ∧
  ∀ nowUs ∈ i.sendTime?, ∀ env res, Effect.sent env res ∈ o.effects →
    env.expiryTimeUs = 0 ∨ env.expiryTimeUs > nowUs

/-- In every run, nothing that is late or for another node is returned, and nothing that is late is
sent. -/
theorem neither_late_nor_astray (cfg : ChannelConfig) (localId : NodeId) (entropy : UInt64)
    (inputs : List Input) (hlocal : localId ≠ nodeIdInvalid) :
    Run.EachStep exec (PassingLaw localId) [] inputs (init cfg localId entropy) := by
  have along : Run.Along exec (fun _ _ => True) inputs (init cfg localId entropy) :=
    .of_forall (fun _ _ => trivial) inputs _
  refine Run.eachStep_of_inv
    (fun _ e => Inv (fun _ => True) e ∧ e.localId = localId ∧ Addressed localId e.delivery)
    ?_ inputs [] _ ?_ along
  · rintro past e i o e' ⟨inv, rfl, h⟩ - hexec
    obtain ⟨hinv, hdelivered, heffects⟩ :=
      exec_delivered headerProperty_true inv (fun _ _ _ => trivial) hexec
    obtain ⟨-, -, hid⟩ := exec_outcome headerProperty_true inv (fun _ _ _ => trivial) hexec
    obtain ⟨haddressed, hpasses⟩ := addressed_delivered inv h hdelivered
    refine ⟨⟨hpasses, fun nowUs hnow env res hsent => ?_⟩, hinv, hid, haddressed⟩
    rw [heffects] at hsent
    exact not_expiredAt.mp (fresh_exec hexec hnow env res hsent)
  · refine ⟨inv_init cfg entropy hlocal, rfl, ?_, by simp [delivery, staged?, init]⟩
    rintro x ⟨k, hk, -⟩
    simp [delivery, init, OrderingBuffer.init] at hk

/-- A message waits for the one before it, and is late when it comes to its turn. -/
def lateRun : List Input :=
  [receiveOf 1 (retryData 2 2 10), receiveOf 2 (retryData 2 1 0), receiveNothing 20]

theorem neither_late_nor_astray_waiting :
    (1 : NodeId) ≠ nodeIdInvalid ∧
      Run.EachStep exec (PassingLaw 1) [] lateRun (init orderedConfig 1 7) :=
  ⟨by decide, neither_late_nor_astray orderedConfig 1 7 lateRun (by decide)⟩

end DeliveryEngine

end MessageEngine
