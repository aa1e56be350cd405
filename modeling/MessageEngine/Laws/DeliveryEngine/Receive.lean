import MessageEngine.Laws.DeliveryEngine.Control
import MessageEngine.Laws.DeliveryEngine.Data

/-!
# Receiving

What one call of `receive` does, as one case list: first the reconnects are drained, then the
staged message is returned or dropped, then the transport may hand up a frame. The lists
(`DrainedOutcome`, `PollOutcome`, `FrameOutcome`) say everything a call can do to the delivery
state, and the laws about runs split over them.

The assertions a call can run into are listed in the same way (`drainedFault`). The list is exact:
a call runs into the assertion it names (`receiveDrained_fault`), and returns when it names none
(`receiveDrained_spec`).
-/

namespace MessageEngine

open Outcome Table OrderingBuffer

namespace DeliveryEngine

variable {P : MessageEnvelope → Prop} {e e' : DeliveryEngine} {nowUs : UInt64} {src : NodeId}
  {env frame : MessageEnvelope} {timeoutMs : UInt32}

/-! ## One frame -/

/-- The logical message that the frame completes, if it completes one. -/
def arriving? (e : DeliveryEngine) (frame : MessageEnvelope) (nowUs : UInt64) : Option MessageEnvelope :=
  match e.reassembly.ingest frame nowUs with
  | .ok (.ok env, _) => some env
  | _ => none

/-- The message is still fresh and meant for this node. -/
def Routed (localId : NodeId) (env : MessageEnvelope) (nowUs : UInt64) : Prop :=
  timestampExpired env.expiryTimeUs nowUs = false ∧ envelopeAddressedTo env localId

instance (localId : NodeId) (env : MessageEnvelope) (nowUs : UInt64) :
    Decidable (Routed localId env nowUs) :=
  inferInstanceAs (Decidable (_ ∧ _))

/-- The assertion that receiving the frame runs into, if it does. -/
def frameFault (e : DeliveryEngine) (frame : MessageEnvelope) (nowUs : UInt64) : Option Site :=
  if ¬ envelopeValid frame then some .engineReceive
  else match e.arriving? frame nowUs with
    | none => none
    | some env =>
      if ¬ Routed e.localId env nowUs then none
      else if envelopeIsControl env then controlFault e.ackTracker env
      else if envelopeIsData env then none
      else some .engineReceive

/-- Everything that receiving a frame can do. -/
inductive FrameOutcome (P : MessageEnvelope → Prop) (e : DeliveryEngine) (frame : MessageEnvelope)
    (nowUs : UInt64) : Reply → DeliveryEngine → Prop where
  /-- The message is not complete, or the fragment is refused. -/
  | incomplete {e' : DeliveryEngine} {r : Result} (none : e.arriving? frame nowUs = none)
      (delivery : e'.delivery = e.delivery) (books : e'.books = e.books) :
      FrameOutcome P e frame nowUs (.error r) e'
  /-- The message arrived too late. -/
  | expired {e' : DeliveryEngine} {env : MessageEnvelope} (some : e.arriving? frame nowUs = some env)
      (late : ExpiredAt nowUs env)
      (delivery : e'.delivery = { e.delivery with
        dropped := e.stats.msgsDroppedExpired + 1, trace := e.trace ++ [.expired env] })
      (books : e'.books = e.books) : FrameOutcome P e frame nowUs (.error .errExpired) e'
  /-- The message is for somebody else. -/
  | misrouted {e' : DeliveryEngine} {env : MessageEnvelope} (some : e.arriving? frame nowUs = some env)
      (elsewhere : ¬ envelopeAddressedTo env e.localId) (delivery : e'.delivery = e.delivery)
      (books : e'.books = e.books) : FrameOutcome P e frame nowUs (.error .errInvalid) e'
  /-- A control message. -/
  | control {e' : DeliveryEngine} {env : MessageEnvelope} (some : e.arriving? frame nowUs = some env)
      (routed : Routed e.localId env nowUs) (isControl : envelopeIsControl env)
      (delivery : e'.delivery = e.delivery) (books : e'.books = e.books.afterControl env) :
      FrameOutcome P e frame nowUs (.ok env) e'
  /-- A data message. -/
  | data {e' : DeliveryEngine} {env : MessageEnvelope} {reply : Reply}
      (some : e.arriving? frame nowUs = some env) (routed : Routed e.localId env nowUs)
      (accepted : Accepted P env) (source : env.sourceId = frame.sourceId)
      (outcome : DataOutcome P e env nowUs reply e') (books : e'.books = e.books) :
      FrameOutcome P e frame nowUs reply e'

/-- The data path does not look at reassembly. -/
theorem DataOutcome.of_reassembly {reassembly : ReassemblyBuffer} {reply : Reply}
    (h : DataOutcome P { e with reassembly } env nowUs reply e') : DataOutcome P e env nowUs reply e' := by
  cases h with
  | duplicate retry known delivery => exact .duplicate retry known delivery
  | kept through gate delivery => exact .kept through gate delivery
  | passed through gate release delivery => exact .passed through gate release delivery

/-- What reassembly makes of a valid frame. -/
theorem handleFragmentIngest_spec (hp : HeaderProperty P) (inv : Inv P e) (hvalid : envelopeValid frame)
    (hP : P frame) (nowUs : UInt64) :
    ∃ reply reassembly, e.handleFragmentIngest frame nowUs = .ok (reply, { e with reassembly }) ∧
      reassembly.Inv (Readable P) ∧
      ((∃ r, reply = .error r ∧ e.arriving? frame nowUs = none) ∨
        ∃ env, reply = .ok env ∧ e.arriving? frame nowUs = some env ∧ envelopeValid env ∧ P env ∧
          env.sourceId = frame.sourceId) := by
  have hreadable : Readable P frame := ⟨hvalid.1, hP⟩
  obtain ⟨reply, reassembly, hingest, hingested, hinv⟩ :=
    ReassemblyBuffer.ingest_spec inv.reassembly nowUs hvalid.2.2 hreadable
  refine ⟨reply, reassembly, ?_, hinv, ?_⟩
  · refine ensure_bind_eq_ok.mpr ⟨hvalid, bind_eq_ok.mpr ⟨_, hingest, ?_⟩⟩
    rcases hingested.reply inv.reassembly (Readable.headerProperty hp) hreadable hvalid.2.1 with
      ⟨env, rfl, -⟩ | rfl | rfl | rfl
    · rfl
    · rfl
    · rfl
    · rfl
  · rcases hingested.reply inv.reassembly (Readable.headerProperty hp) hreadable hvalid.2.1 with
      ⟨env, rfl, hread, hsource, hlen⟩ | hr
    · refine .inr ⟨env, rfl, ?_, ⟨hread.1, hlen, ?_⟩, hread.2, hsource⟩
      · rw [arriving?, hingest]
      · rw [hsource]
        exact hvalid.2.2
    · refine .inl ?_
      rcases hr with rfl | rfl | rfl
      · exact ⟨_, rfl, by rw [arriving?, hingest]⟩
      · exact ⟨_, rfl, by rw [arriving?, hingest]⟩
      · exact ⟨_, rfl, by rw [arriving?, hingest]⟩

theorem recordRoutingFailure_expired (e : DeliveryEngine) (env : MessageEnvelope) :
    e.recordRoutingFailure env .errExpired = .ok { e with
      stats := { e.stats with msgsDroppedExpired := e.stats.msgsDroppedExpired + 1 }
      trace := e.trace ++ [.expired env] } :=
  ensure_bind_eq_ok.mpr ⟨by decide, rfl⟩

theorem recordRoutingFailure_misrouted (e : DeliveryEngine) (env : MessageEnvelope) :
    e.recordRoutingFailure env .errInvalid = .ok { e with
      stats := { e.stats with msgsDroppedMisrouted := e.stats.msgsDroppedMisrouted + 1 } } :=
  ensure_bind_eq_ok.mpr ⟨by decide, rfl⟩

/-- What `receive` does with a message once it is complete. -/
private theorem receiveFrame_complete (inv : Inv P e) (hnow : nowUs > 0) (hvalid : envelopeValid frame)
    {reassembly : ReassemblyBuffer} (hreassembly : reassembly.Inv (Readable P))
    (hingest : e.handleFragmentIngest frame nowUs = .ok (.ok env, { e with reassembly })) :
    (ExpiredAt nowUs env → ∃ events, events.Inv ∧ e.receiveFrame frame nowUs =
      .ok (.error .errExpired, { e with
        reassembly, events
        stats := { e.stats with msgsDroppedExpired := e.stats.msgsDroppedExpired + 1 }
        trace := e.trace ++ [.expired env] })) ∧
    (¬ ExpiredAt nowUs env → ¬ envelopeAddressedTo env e.localId → ∃ events, events.Inv ∧
      e.receiveFrame frame nowUs = .ok (.error .errInvalid, { e with
        reassembly, events
        stats := { e.stats with msgsDroppedMisrouted := e.stats.msgsDroppedMisrouted + 1 } })) ∧
    (Routed e.localId env nowUs → e.receiveFrame frame nowUs =
      if envelopeIsControl env then do
        let e ← { e with reassembly }.handleControlMessage env nowUs
        return (.ok env, e)
      else do
        neverCompiledOutAssert .engineReceive (envelopeIsData env)
        { e with reassembly }.handleDataPath env nowUs) := by
  have hinv₁ : Inv P { e with reassembly } := { inv with reassembly := hreassembly }
  have hroute := checkRouting_eq hinv₁ env hnow
  unfold receiveFrame
  simp only [ensure_pos hvalid, ok_bind, hingest]
  refine ⟨fun hexp => ?_, fun hfresh haddr => ?_, fun hrouted => ?_⟩
  · rw [if_pos hexp] at hroute
    have hinv₂ : Inv P { e with
        reassembly, stats := { e.stats with msgsDroppedExpired := e.stats.msgsDroppedExpired + 1 }
        trace := e.trace ++ [.expired env] } := { hinv₁ with }
    obtain ⟨events, hemit, hevents⟩ :=
      emitRoutingDropEvent_spec hinv₂ env (by decide : Result.errExpired ≠ .ok) hnow
    refine ⟨events, hevents, bind_eq_ok.mpr ⟨_, hroute, ?_⟩⟩
    rw [if_pos (by decide)]
    exact bind_eq_ok.mpr ⟨_, recordRoutingFailure_expired _ env, bind_eq_ok.mpr ⟨_, hemit, rfl⟩⟩
  · rw [if_neg hfresh, if_pos haddr] at hroute
    have hinv₂ : Inv P { e with
        reassembly
        stats := { e.stats with msgsDroppedMisrouted := e.stats.msgsDroppedMisrouted + 1 } } :=
      { hinv₁ with }
    obtain ⟨events, hemit, hevents⟩ :=
      emitRoutingDropEvent_spec hinv₂ env (by decide : Result.errInvalid ≠ .ok) hnow
    refine ⟨events, hevents, bind_eq_ok.mpr ⟨_, hroute, ?_⟩⟩
    rw [if_pos (by decide)]
    exact bind_eq_ok.mpr ⟨_, recordRoutingFailure_misrouted _ env, bind_eq_ok.mpr ⟨_, hemit, rfl⟩⟩
  · have hfresh : ¬ timestampExpired env.expiryTimeUs nowUs = true := by
      rw [hrouted.1]
      exact Bool.false_ne_true
    have haddr : ¬ ¬ envelopeAddressedTo env ({ e with reassembly } : DeliveryEngine).localId :=
      fun h => h hrouted.2
    rw [if_neg hfresh, if_neg haddr] at hroute
    rw [hroute, ok_bind, if_neg (fun h => h rfl)]

/-- A frame that runs into no assertion is received. -/
theorem receiveFrame_spec (hp : HeaderProperty P) (inv : Inv P e) (hnow : nowUs > 0) (hP : P frame)
    (hfault : e.frameFault frame nowUs = none) :
    ∃ reply e', e.receiveFrame frame nowUs = .ok (reply, e') ∧ Inv P e' ∧
      FrameOutcome P e frame nowUs reply e' ∧ Steady e e' := by
  have hvalid : envelopeValid frame := by
    by_contra hnot
    rw [frameFault, if_pos hnot] at hfault
    cases hfault
  obtain ⟨reply, reassembly, hingest, hreassembly, ⟨r, rfl, hnone⟩ | ⟨env, rfl, hsome, henv, hPenv, hsource⟩⟩ :=
    handleFragmentIngest_spec hp inv hvalid hP nowUs
  · have hinv₁ : Inv P { e with reassembly } := { inv with reassembly := hreassembly }
    refine ⟨.error r, _, ?_, hinv₁, .incomplete hnone rfl rfl, ⟨rfl, rfl, rfl⟩, rfl⟩
    exact ensure_bind_eq_ok.mpr ⟨hvalid, bind_eq_ok.mpr ⟨_, hingest, rfl⟩⟩
  · have hinv₁ : Inv P { e with reassembly } := { inv with reassembly := hreassembly }
    obtain ⟨hexpired, hmisrouted, hrouted⟩ :=
      receiveFrame_complete inv hnow hvalid hreassembly hingest
    by_cases hexp : ExpiredAt nowUs env
    · obtain ⟨events, hevents, hrun⟩ := hexpired hexp
      have hinv₂ : Inv P { e with
          reassembly, events
          stats := { e.stats with msgsDroppedExpired := e.stats.msgsDroppedExpired + 1 }
          trace := e.trace ++ [.expired env] } := { hinv₁ with events := hevents }
      exact ⟨_, _, hrun, hinv₂, .expired hsome hexp rfl rfl, ⟨rfl, rfl, rfl⟩, rfl⟩
    by_cases haddr : envelopeAddressedTo env e.localId
    case neg =>
      obtain ⟨events, hevents, hrun⟩ := hmisrouted hexp haddr
      have hinv₂ : Inv P { e with
          reassembly, events
          stats := { e.stats with msgsDroppedMisrouted := e.stats.msgsDroppedMisrouted + 1 } } :=
        { hinv₁ with events := hevents }
      exact ⟨_, _, hrun, hinv₂, .misrouted hsome haddr rfl rfl, ⟨rfl, rfl, rfl⟩, rfl⟩
    have hroute : Routed e.localId env nowUs := ⟨Bool.eq_false_iff.mpr hexp, haddr⟩
    have hassembled : Steady e { e with reassembly } := ⟨⟨rfl, rfl, rfl⟩, rfl⟩
    rw [hrouted hroute]
    rw [frameFault, if_neg (fun h => h hvalid), hsome] at hfault
    dsimp only at hfault
    rw [if_neg (fun h => h hroute)] at hfault
    by_cases hcontrol : envelopeIsControl env
    · rw [if_pos hcontrol] at hfault ⊢
      obtain ⟨e', hrun, hinv', hdelivery, hbooks, hframe⟩ :=
        handleControlMessage_spec hinv₁ hcontrol hnow hfault
      exact ⟨_, e', bind_eq_ok.mpr ⟨e', hrun, rfl⟩, hinv',
        .control hsome hroute hcontrol hdelivery hbooks, hassembled.trans hframe⟩
    · rw [if_neg hcontrol] at hfault ⊢
      by_cases hdata : envelopeIsData env
      case neg =>
        rw [if_neg hdata] at hfault
        cases hfault
      have haccepted : Accepted P env := ⟨henv, hdata, hPenv⟩
      obtain ⟨reply, e', hrun, hinv', houtcome, hbooks, hframe⟩ :=
        handleDataPath_spec hinv₁ haccepted hnow
      exact ⟨reply, e', ensure_bind_eq_ok.mpr ⟨hdata, hrun⟩, hinv',
        .data hsome hroute haccepted hsource houtcome.of_reassembly hbooks, hassembled.trans hframe⟩

/-- A frame that runs into an assertion stops the run there. -/
theorem receiveFrame_fault (hp : HeaderProperty P) (inv : Inv P e) (hnow : nowUs > 0) (hP : P frame)
    {site : Site} (hfault : e.frameFault frame nowUs = some site) :
    e.receiveFrame frame nowUs = .error (.assertion site) := by
  by_cases hvalid : envelopeValid frame
  case neg =>
    rw [frameFault, if_pos hvalid] at hfault
    cases hfault
    unfold receiveFrame
    simp only [ensure_neg hvalid, error_bind]
  rw [frameFault, if_neg (fun h => h hvalid)] at hfault
  obtain ⟨reply, reassembly, hingest, hreassembly, ⟨r, rfl, hnone⟩ | ⟨env, rfl, hsome, henv, hPenv, hsource⟩⟩ :=
    handleFragmentIngest_spec hp inv hvalid hP nowUs
  · rw [hnone] at hfault
    cases hfault
  · have hinv₁ : Inv P { e with reassembly } := { inv with reassembly := hreassembly }
    rw [hsome] at hfault
    dsimp only at hfault
    by_cases hroute : Routed e.localId env nowUs
    case neg =>
      rw [if_pos hroute] at hfault
      cases hfault
    rw [if_neg (fun h => h hroute)] at hfault
    rw [(receiveFrame_complete inv hnow hvalid hreassembly hingest).2.2 hroute]
    by_cases hcontrol : envelopeIsControl env
    · rw [if_pos hcontrol] at hfault ⊢
      rw [handleControlMessage_fault hinv₁ hcontrol hnow hfault, error_bind]
    · rw [if_neg hcontrol] at hfault ⊢
      split at hfault
      case isTrue _ => cases hfault
      case isFalse hdata =>
        cases hfault
        simp only [ensure_neg hdata, error_bind]

/-! ## The transport is asked -/

/-- The assertion that asking the transport runs into, if it does. -/
def pollFault (e : DeliveryEngine) (timeoutMs : UInt32) (nowUs : UInt64) : Option Site :=
  match e.transport.inbound timeoutMs with
  | .error _ => none
  | .ok frame => e.frameFault frame nowUs

/-- Everything that asking the transport can do. -/
inductive PollOutcome (P : MessageEnvelope → Prop) (e : DeliveryEngine) (timeoutMs : UInt32)
    (nowUs : UInt64) : Reply → DeliveryEngine → Prop where
  | nothing {r : Result} (empty : e.transport.inbound timeoutMs = .error r) :
      PollOutcome P e timeoutMs nowUs (.error r) e
  | frame {e' : DeliveryEngine} {frame : MessageEnvelope} {reply : Reply}
      (arrived : e.transport.inbound timeoutMs = .ok frame)
      (outcome : FrameOutcome P e frame nowUs reply e') : PollOutcome P e timeoutMs nowUs reply e'

/-- Every frame the transport hands up has the property. -/
def Delivers (P : MessageEnvelope → Prop) (t : Transport) : Prop :=
  ∀ timeoutMs frame, t.inbound timeoutMs = .ok frame → P frame

theorem receiveFromTransport_spec (hp : HeaderProperty P) (inv : Inv P e) (hnow : nowUs > 0)
    (hframes : Delivers P e.transport) (hfault : e.pollFault timeoutMs nowUs = none) :
    ∃ reply e', e.receiveFromTransport timeoutMs nowUs = .ok (reply, e') ∧ Inv P e' ∧
      PollOutcome P e timeoutMs nowUs reply e' ∧ Steady e e' := by
  unfold receiveFromTransport
  unfold pollFault at hfault
  cases harrived : e.transport.inbound timeoutMs with
  | error r => exact ⟨_, e, rfl, inv, .nothing harrived, Steady.refl e⟩
  | ok frame =>
    rw [harrived] at hfault
    obtain ⟨reply, e', hrun, hinv, houtcome, hframe⟩ :=
      receiveFrame_spec hp inv hnow (hframes timeoutMs frame harrived) hfault
    exact ⟨reply, e', hrun, hinv, .frame harrived houtcome, hframe⟩

theorem receiveFromTransport_fault (hp : HeaderProperty P) (inv : Inv P e) (hnow : nowUs > 0)
    (hframes : Delivers P e.transport) {site : Site} (hfault : e.pollFault timeoutMs nowUs = some site) :
    e.receiveFromTransport timeoutMs nowUs = .error (.assertion site) := by
  unfold receiveFromTransport
  unfold pollFault at hfault
  cases harrived : e.transport.inbound timeoutMs with
  | error r =>
    rw [harrived] at hfault
    cases hfault
  | ok frame =>
    rw [harrived] at hfault
    exact receiveFrame_fault hp inv hnow (hframes timeoutMs frame harrived) hfault

/-! ## The staged message first -/

/-- The assertion that `receive` runs into after the drain, if it does. -/
def drainedFault (e : DeliveryEngine) (timeoutMs : UInt32) (nowUs : UInt64) : Option Site :=
  match e.staged? with
  | none => e.pollFault timeoutMs nowUs
  | some env =>
    if timestampExpired env.expiryTimeUs nowUs then
      if e.stats.msgsDroppedExpired + 1 > 0 then e.pollFault timeoutMs nowUs
      else some .engineDeliverHeldPending
    else none

/-- Everything that `receive` can do after the drain. -/
inductive DrainedOutcome (P : MessageEnvelope → Prop) (e : DeliveryEngine) (timeoutMs : UInt32)
    (nowUs : UInt64) : Reply → DeliveryEngine → Prop where
  /-- The staged message is returned. -/
  | returned {e' : DeliveryEngine} {env : MessageEnvelope} (staged : e.staged? = some env)
      (held : HeldOutcome e env nowUs (.ok env) e') (books : e'.books = e.books) :
      DrainedOutcome P e timeoutMs nowUs (.ok env) e'
  /-- Nothing is staged: the transport is asked. -/
  | polled {e' : DeliveryEngine} {reply : Reply} (staged : e.staged? = none)
      (poll : PollOutcome P e timeoutMs nowUs reply e') : DrainedOutcome P e timeoutMs nowUs reply e'
  /-- The staged message is dropped, and then the transport is asked. -/
  | fellThrough {e₁ e' : DeliveryEngine} {env : MessageEnvelope} {reply : Reply}
      (staged : e.staged? = some env) (inv : Inv P e₁)
      (held : HeldOutcome e env nowUs (.error .errExpired) e₁) (books : e₁.books = e.books)
      (framed : Framed e e₁) (poll : PollOutcome P e₁ timeoutMs nowUs reply e') :
      DrainedOutcome P e timeoutMs nowUs reply e'

/-- Dropping the staged message changes nothing that a frame's assertions depend on. -/
theorem HeldOutcome.pollFault_eq {reply : Reply} (h : HeldOutcome e env nowUs reply e')
    (late : ExpiredAt nowUs env) (hbooks : e'.books = e.books) (hframe : Steady e e') :
    e'.pollFault timeoutMs nowUs = e.pollFault timeoutMs nowUs := by
  cases h with
  | returned fresh _ _ => exact absurd late fresh
  | expired _ _ _ reassembly =>
    have htracker : e'.ackTracker = e.ackTracker := congrArg Books.ackTracker hbooks
    simp only [pollFault, frameFault, arriving?, hframe.inbound, hframe.localId, reassembly, htracker]

theorem receiveDrained_spec (hp : HeaderProperty P) (inv : Inv P e) (hnow : nowUs > 0)
    (hframes : Delivers P e.transport) (hfault : e.drainedFault timeoutMs nowUs = none) :
    ∃ reply e', e.receiveDrained timeoutMs nowUs = .ok (reply, e') ∧ Inv P e' ∧
      DrainedOutcome P e timeoutMs nowUs reply e' ∧ Steady e e' := by
  unfold receiveDrained
  unfold drainedFault at hfault
  cases hstaged : e.staged? with
  | none =>
    rw [hstaged] at hfault
    have hvalid : ¬ e.heldPendingValid = true := by
      intro h
      rw [staged?, if_pos h] at hstaged
      cases hstaged
    rw [if_neg hvalid]
    obtain ⟨reply, e', hrun, hinv, hpoll, hframe⟩ := receiveFromTransport_spec hp inv hnow hframes hfault
    exact ⟨reply, e', hrun, hinv, .polled hstaged hpoll, hframe⟩
  | some env =>
    rw [hstaged] at hfault
    dsimp only at hfault
    rw [if_pos (inv.accepted_staged hstaged).1]
    have hwrap (hexp : ExpiredAt nowUs env) : e.stats.msgsDroppedExpired + 1 > 0 := by
      by_contra hnot
      rw [if_pos hexp, if_neg hnot] at hfault
      cases hfault
    obtain ⟨reply, e₁, hrun, hinv₁, hheld, hbooks, hframe₁⟩ :=
      deliverHeldPending_spec inv hstaged hnow hwrap
    cases hheld with
    | returned fresh release delivery =>
      refine ⟨.ok env, e₁, bind_eq_ok.mpr ⟨_, hrun, rfl⟩, hinv₁, ?_, hframe₁⟩
      exact .returned hstaged (.returned fresh release delivery) hbooks
    | expired late release delivery reassembly =>
      rw [if_pos late, if_pos (hwrap late)] at hfault
      have hheld₁ : HeldOutcome e env nowUs (.error .errExpired) e₁ :=
        .expired late release delivery reassembly
      have hframes₁ : Delivers P e₁.transport := by
        intro t frame h
        rw [hframe₁.inbound] at h
        exact hframes t frame h
      rw [← hheld₁.pollFault_eq late hbooks hframe₁] at hfault
      obtain ⟨reply, e', hrun', hinv', hpoll, hframe'⟩ :=
        receiveFromTransport_spec hp hinv₁ hnow hframes₁ hfault
      exact ⟨reply, e', bind_eq_ok.mpr ⟨_, hrun, hrun'⟩, hinv',
        .fellThrough hstaged hinv₁ hheld₁ hbooks hframe₁.toFramed hpoll, hframe₁.trans hframe'⟩

theorem receiveDrained_fault (hp : HeaderProperty P) (inv : Inv P e) (hnow : nowUs > 0)
    (hframes : Delivers P e.transport) {site : Site}
    (hfault : e.drainedFault timeoutMs nowUs = some site) :
    e.receiveDrained timeoutMs nowUs = .error (.assertion site) := by
  unfold receiveDrained
  unfold drainedFault at hfault
  cases hstaged : e.staged? with
  | none =>
    rw [hstaged] at hfault
    have hvalid : ¬ e.heldPendingValid = true := by
      intro h
      rw [staged?, if_pos h] at hstaged
      cases hstaged
    rw [if_neg hvalid]
    exact receiveFromTransport_fault hp inv hnow hframes hfault
  | some env =>
    rw [hstaged] at hfault
    dsimp only at hfault
    rw [if_pos (inv.accepted_staged hstaged).1]
    split at hfault
    case isFalse _ => cases hfault
    case isTrue late =>
      split at hfault
      case isFalse hwrap =>
        cases hfault
        rw [deliverHeldPending_wrap inv hstaged hnow late hwrap, error_bind]
      case isTrue hwrap =>
        obtain ⟨reply, e₁, hrun, hinv₁, hheld, hbooks, hframe₁⟩ :=
          deliverHeldPending_spec inv hstaged hnow (fun _ => hwrap)
        rw [← hheld.pollFault_eq late hbooks hframe₁] at hfault
        have hframes₁ : Delivers P e₁.transport := by
          intro t frame h
          rw [hframe₁.inbound] at h
          exact hframes t frame h
        refine bind_eq_error.mpr (.inr ⟨_, hrun, ?_⟩)
        cases hheld with
        | returned fresh _ _ => exact absurd late fresh
        | expired _ _ _ _ => exact receiveFromTransport_fault hp hinv₁ hnow hframes₁ hfault

/-! ## The whole call -/

/-- The monotonic guard: the call brings a time before the last one. -/
def Stale (e : DeliveryEngine) (nowUs : UInt64) : Prop := e.lastNowUs > 0 ∧ nowUs < e.lastNowUs

instance (e : DeliveryEngine) (nowUs : UInt64) : Decidable (e.Stale nowUs) :=
  inferInstanceAs (Decidable (_ ∧ _))

/-- The engine once a `receive` at `nowUs` has drained the reconnects. -/
def drained (e : DeliveryEngine) (nowUs : UInt64) : Checked DeliveryEngine :=
  drainHelloReconnects orderingPeerCount { e with lastNowUs := nowUs }

theorem drained_spec (inv : Inv P e) (nowUs : UInt64) :
    ∃ d, e.drained nowUs = .ok d ∧ Inv P d ∧
      Resets (reconnects orderingPeerCount e.transport) e.delivery d.delivery ∧
      Framed { e with lastNowUs := nowUs } d := by
  have hinv : Inv P { e with lastNowUs := nowUs } := { inv with }
  exact drainHelloReconnects_spec orderingPeerCount hinv

/-- A call that the guard accepts is a drain and what comes after it. -/
theorem receive_eq (hnow : nowUs > 0) (hfresh : ¬ e.Stale nowUs) {d : DeliveryEngine}
    (hd : e.drained nowUs = .ok d) : e.receive timeoutMs nowUs = d.receiveDrained timeoutMs nowUs := by
  unfold receive
  simp only [ensure_pos hnow, ok_bind]
  rw [if_neg (show ¬ (e.lastNowUs > 0 ∧ nowUs < e.lastNowUs) from hfresh)]
  change (e.drained nowUs >>= fun d => d.receiveDrained timeoutMs nowUs) = _
  rw [hd, ok_bind]

theorem receive_stale (hnow : nowUs > 0) (hstale : e.Stale nowUs) :
    e.receive timeoutMs nowUs = .ok (.error .errInvalid, e) := by
  unfold receive
  simp only [ensure_pos hnow, ok_bind]
  rw [if_pos (show e.lastNowUs > 0 ∧ nowUs < e.lastNowUs from hstale)]
  rfl

theorem receive_zero (e : DeliveryEngine) (timeoutMs : UInt32) :
    e.receive timeoutMs 0 = .error (.assertion .engineReceive) := by
  have hzero : ¬ (0 : UInt64) > 0 := by decide
  unfold receive
  simp only [ensure_neg hzero, error_bind]

end DeliveryEngine

end MessageEngine
