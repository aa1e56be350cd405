import MessageEngine.Laws.Runs.Staging
import MessageEngine.Laws.Serializer.Frame

/-!
# Assertions that the outside can reach

Each component checks its preconditions with an assertion that stops the program, so a value from
the outside must not reach one. Two kinds of values do. An acknowledgement that names no
destination, or a message that was broadcast, stops `receive`. A caller's message is broadcast over
an ordered channel, never expires because its deadline was saturated, or is retried with a backoff
of more than a minute: the first stops `send`, the others stop a later `pump_retries`.

## What is proved

- `deserialized_frame_received_iff`: which frames the engine survives, of those the decoder accepts;
- `api_faults_iff`: which runs of calls are survived by the send path, the retry table and the
  tracker.
-/

namespace MessageEngine

open Outcome Table OrderingBuffer

namespace DeliveryEngine

variable {e : DeliveryEngine} {i : Input} {r : Receiving} {frame : MessageEnvelope} {nowUs : UInt64}

/-! ## Frames -/

/-- The backends keep `HELLO` frames to themselves. -/
def NotHello (env : MessageEnvelope) : Prop := env.messageType ≠ .hello

theorem headerProperty_notHello : HeaderProperty NotHello where
  stable := fun _ _ _ _ _ _ h => h

/-- An acknowledgement that `receive` survives: it names a destination, and not a message that was
broadcast. -/
def Harmless (t : AckTracker) (env : MessageEnvelope) : Prop :=
  env.messageType = .ack → env.destinationId ≠ nodeIdInvalid ∧
    t.trackedDestination? env.destinationId env.messageId ≠ some nodeIdInvalid

instance (t : AckTracker) (env : MessageEnvelope) : Decidable (Harmless t env) :=
  inferInstanceAs (Decidable (_ → _))

theorem controlFault_eq_none_iff (t : AckTracker) (env : MessageEnvelope) :
    controlFault t env = none ↔ Harmless t env := by
  by_cases hack : env.messageType = .ack
  · rw [controlFault_eq_none t hack]
    exact ⟨fun h _ => h, fun h => h hack⟩
  · rw [controlFault, if_pos hack]
    exact ⟨fun _ h => absurd h hack, fun _ => rfl⟩

/-- A valid envelope is data, control or a `HELLO`. -/
theorem isData_or_isControl {env : MessageEnvelope} (hvalid : envelopeValid env) (h : NotHello env) :
    envelopeIsData env ∨ envelopeIsControl env := by
  unfold envelopeIsData envelopeIsControl
  cases htype : env.messageType with
  | data => exact .inl rfl
  | ack => exact .inr (.inl rfl)
  | nak => exact .inr (.inr (.inl rfl))
  | heartbeat => exact .inr (.inr (.inr rfl))
  | hello => exact absurd htype h
  | invalid => exact absurd htype hvalid.1

/-- A valid frame is survived unless it completes an acknowledgement that is not. -/
theorem frameFault_eq_none_iff (inv : Inv NotHello e) (hvalid : envelopeValid frame)
    (hframe : NotHello frame) :
    e.frameFault frame nowUs = none ↔ ∀ env ∈ e.arriving? frame nowUs,
      Routed e.localId env nowUs → Harmless e.ackTracker env := by
  rw [frameFault, if_neg (fun h => h hvalid)]
  obtain ⟨_, _, -, -, ⟨_, -, hnone⟩ | ⟨env, -, hsome, henv, hhello, -⟩⟩ :=
    handleFragmentIngest_spec headerProperty_notHello inv hvalid hframe nowUs
  · rw [hnone]
    simp
  · rw [hsome]
    dsimp only
    by_cases hrouted : Routed e.localId env nowUs
    · rw [if_neg (fun h => h hrouted)]
      rcases isData_or_isControl henv hhello with hdata | hcontrol
      · rw [if_neg (not_isControl_of_isData hdata), if_pos hdata]
        refine ⟨fun _ x hx _ hack => ?_, fun _ => rfl⟩
        cases hx
        rw [envelopeIsData, hack] at hdata
        cases hdata
      · rw [if_pos hcontrol, controlFault_eq_none_iff]
        constructor
        · intro h x hx _
          cases hx
          exact h
        · exact fun h => h env rfl hrouted
    · rw [if_pos hrouted]
      refine ⟨fun _ x hx h => ?_, fun _ => rfl⟩
      cases hx
      exact absurd h hrouted

/-- What the transport hands up makes `receive` stop, or not, for one of two reasons. -/
theorem drainedFault_eq_none_iff (inv : Inv NotHello r.engine)
    (hframe : ∀ frame ∈ r.frame?, envelopeValid frame ∧ NotHello frame) :
    r.engine.drainedFault r.timeoutMs r.nowUs = none ↔ ¬ r.Overflows ∧
      ∀ env ∈ r.arrival?, Routed r.engine.localId env r.nowUs → Harmless r.engine.ackTracker env := by
  rw [drainedFault_eq, Receiving.arrival?]
  by_cases hover : r.Overflows
  case pos => simp [hover]
  rw [if_neg hover]
  cases hasked : r.frame? with
  | none => simp [hover]
  | some frame =>
    obtain ⟨hvalid, hhello⟩ := hframe frame hasked
    change r.engine.frameFault frame r.nowUs = none ↔ _ ∧ ∀ env ∈ r.engine.arriving? frame r.nowUs, _
    rw [frameFault_eq_none_iff inv hvalid hhello]
    exact ⟨fun h => ⟨hover, h⟩, fun h => h.2⟩

theorem deserialize_valid {buf : List UInt8} {bufLen : UInt32} (fits : bufLen.toNat ≤ buf.length)
    (h : Serializer.deserialize buf bufLen = .ok (.ok frame)) : envelopeValid frame := by
  rw [Serializer.deserialize_eq fits] at h
  split at h
  case isTrue accepts =>
    cases h
    exact Serializer.valid_decode accepts fits
  case isFalse _ => cases h

/-- A `receive` to which the transport hands up the frame, whatever else it answers. -/
def handing (frame : MessageEnvelope) (helloPeers : List NodeId) (sendResults : List Result)
    (timeoutMs : UInt32) (nowUs : UInt64) : Input :=
  ⟨.receive timeoutMs nowUs, ⟨helloPeers, fun _ => .ok frame, sendResults⟩⟩

theorem receiving?_none_of_receive {P : MessageEnvelope → Prop} {timeoutMs : UInt32} (inv : Inv P e)
    (hcall : i.call = .receive timeoutMs nowUs) (hnow : nowUs > 0) (h : receiving? e i = none) :
    stepFault i e = none := by
  unfold receiving? at h
  rw [hcall] at h
  rw [stepFault, hcall]
  change (e.attach i.transport).receiveFault timeoutMs nowUs = none
  rw [receiveFault, if_neg (UInt64.pos_iff_ne_zero.mp hnow)]
  dsimp only at h
  split at h
  case isTrue hstale => exact if_pos hstale
  case isFalse _ =>
    obtain ⟨d, hd, -, -, -⟩ := drained_spec (inv.attach i.transport) nowUs
    rw [hd] at h
    cases h

/-- Handing a decoded frame to `receive` runs into no assertion exactly when the counter of drops
does not overflow on the way and the frame does not complete an acknowledgement for this node that
names no destination or a broadcast message. -/
theorem deserialized_frame_received_iff (cfg : ChannelConfig) (localId : NodeId) (entropy : UInt64)
    (inputs : List Input) (os : List Observation) (e : DeliveryEngine) (buf : List UInt8)
    (bufLen : UInt32) (frame : MessageEnvelope) (helloPeers : List NodeId) (sendResults : List Result)
    (timeoutMs : UInt32) (nowUs : UInt64) (hlocal : localId ≠ nodeIdInvalid)
    (hframes : ∀ i ∈ inputs, Delivers NotHello i.transport)
    (hreached : Run.runAll exec inputs (init cfg localId entropy) = .ok (os, e))
    (fits : bufLen.toNat ≤ buf.length) (hread : Serializer.deserialize buf bufLen = .ok (.ok frame))
    (hhello : frame.messageType ≠ .hello) (hnow : nowUs > 0) :
    (∃ o e', exec (handing frame helloPeers sendResults timeoutMs nowUs) e = .ok (o, e')) ↔
      ∀ r ∈ receiving? e (handing frame helloPeers sendResults timeoutMs nowUs), ¬ r.Overflows ∧
        ∀ env ∈ r.arrival?, Routed r.engine.localId env r.nowUs → Harmless r.engine.ackTracker env := by
  obtain ⟨inv, -⟩ := reachable_inv headerProperty_notHello hlocal hframes hreached
  have hdelivers : Delivers NotHello
      (handing frame helloPeers sendResults timeoutMs nowUs).transport := by
    intro _ x hx
    cases hx
    exact hhello
  have hreturns : (∃ o e', exec (handing frame helloPeers sendResults timeoutMs nowUs) e = .ok (o, e')) ↔
      stepFault (handing frame helloPeers sendResults timeoutMs nowUs) e = none :=
    exec_ok_iff headerProperty_notHello inv hdelivers
  rw [hreturns]
  cases hr : receiving? e (handing frame helloPeers sendResults timeoutMs nowUs) with
  | none =>
    have hnone := receiving?_none_of_receive inv rfl hnow hr
    simp [hnone]
  | some r =>
    obtain ⟨hinv, -, hinbound⟩ := inv.receiving hr
    obtain ⟨hcall, -, -⟩ := receiving?_eq_some hr
    obtain ⟨rfl, rfl⟩ : timeoutMs = r.timeoutMs ∧ nowUs = r.nowUs := by
      simpa [handing] using hcall
    have hframe : ∀ x ∈ r.frame?, envelopeValid x ∧ NotHello x := by
      intro x hx
      obtain ⟨-, harrived⟩ := Receiving.frame?_eq_some hx
      rw [hinbound] at harrived
      cases harrived
      exact ⟨deserialize_valid fits hread, hhello⟩
    rw [stepFault_of_receiving hr hnow, drainedFault_eq_none_iff hinv hframe]
    constructor
    · intro h x hx
      cases hx
      exact h
    · exact fun h => h r rfl

/-- An acknowledgement of the bare header that names no destination. -/
def unaddressedAck : List UInt8 :=
  Serializer.encode { envelopeInit with messageType := .ack, sourceId := 2 }

theorem unaddressed_ack_stops_receive : ∃ frame,
    Serializer.deserialize unaddressedAck 52 = .ok (.ok frame) ∧ frame.messageType ≠ .hello ∧
    exec (handing frame [] [] 0 1) (init orderedConfig 1 7) =
      .error (.assertion .ackTrackerGetSendTimestamp) := by
  refine ⟨Serializer.decode unaddressedAck, ?_, by decide +kernel, ?_⟩
  · rw [Serializer.deserialize_eq (by decide +kernel), if_pos (by decide +kernel)]
  · have hstops : (match exec (handing (Serializer.decode unaddressedAck) [] [] 0 1)
        (init orderedConfig 1 7) with
      | .error fault => some fault
      | .ok _ => none) = some (.assertion .ackTrackerGetSendTimestamp) := by decide +kernel
    split at hstops
    case h_1 fault hexec =>
      cases hstops
      exact hexec
    case h_2 _ => cases hstops

/-- A message is sent that waits for its acknowledgement and to be sent again, and message 2 of node 2 waits
for message 1. -/
def busyRun : List Input :=
  [⟨.send { plainData 1 0 0 with destinationId := 2, reliabilityClass := .reliableRetry } 1, silent⟩,
    receiveOf 2 (plainData 2 2 0)]

/-- The acknowledgement of node 2. -/
def ackBytes : List UInt8 :=
  Serializer.encode { plainData 2 0 0 with messageType := .ack, messageId := idSeed 7 1 }

/-- Message 1 of node 2. -/
def dueBytes : List UInt8 := Serializer.encode (plainData 2 1 0)

/-- The engine has a tracked message and one that waits, and receives what they wait for. -/
theorem busy_engine_receives : ∃ os e, Run.runAll exec busyRun (init orderedConfig 1 7) = .ok (os, e) ∧
    e.ackTracker.trackedDestination? 1 (idSeed 7 1) = some 2 ∧ e.ordering.holdCount 2 = 1 ∧
    ∀ bytes ∈ [ackBytes, dueBytes], ∃ frame, Serializer.deserialize bytes 52 = .ok (.ok frame) ∧
      ∃ o e', exec (handing frame [] [] 0 3) e = .ok (o, e') := by
  have hends : Run.Ends exec busyRun (init orderedConfig 1 7) fun e =>
      e.ackTracker.trackedDestination? 1 (idSeed 7 1) = some 2 ∧ e.ordering.holdCount 2 = 1 ∧
        ∀ bytes ∈ [ackBytes, dueBytes],
          ∀ r ∈ receiving? e (handing (Serializer.decode bytes) [] [] 0 3), ¬ r.Overflows ∧
            ∀ env ∈ r.arrival?, Routed r.engine.localId env r.nowUs → Harmless r.engine.ackTracker env := by
    decide +kernel
  have hread : ∀ bytes ∈ [ackBytes, dueBytes],
      (52 : UInt32).toNat ≤ bytes.length ∧ Serializer.Accepts bytes 52 ∧
        (Serializer.decode bytes).messageType ≠ .hello := by
    decide +kernel
  obtain ⟨os, e, hrun, htracked, hheld, hsafe⟩ := hends.exists
  refine ⟨os, e, hrun, htracked, hheld, fun bytes hmem => ?_⟩
  obtain ⟨fits, hreadable, hhello⟩ := hread bytes hmem
  have hframe : Serializer.deserialize bytes 52 = .ok (.ok (Serializer.decode bytes)) := by
    rw [Serializer.deserialize_eq fits, if_pos hreadable]
  refine ⟨Serializer.decode bytes, hframe, ?_⟩
  exact (deserialized_frame_received_iff orderedConfig 1 7 busyRun os e bytes 52 _ [] [] 0 3 (by decide)
    (by simp [busyRun, NotHello, plainData]) hrun fits hframe hhello (by decide)).mpr (hsafe bytes hmem)

/-! ## Calls -/

/-- The functions of the send path, the retry table and the tracker that hold an assertion. -/
def outboundSites : List Site :=
  [.engineSend, .engineNextSeqFor, .retryManagerSchedule, .retryManagerOnAck, .retryManagerCancelPeer,
   .retryManagerCancel, .retryManagerReapTerminatedSlots, .retryManagerCollectDue, .slotHasExpired,
   .advanceBackoff, .ackTrackerTrack, .ackTrackerOnAck, .ackTrackerCancelPeer, .ackTrackerCancel,
   .ackTrackerSweepExpired, .ackTrackerGetSendTimestamp, .ackTrackerGetTrackedDestination]

/-- The calls brought a time, and an envelope that is an envelope. -/
def Proper : Call → Prop
  | .send env nowUs => nowUs > 0 ∧ Sendable env
  | .receive _ nowUs => nowUs > 0
  | .pumpRetries nowUs => nowUs > 0
  | .sweepAckTimeouts nowUs => nowUs > 0
  | _ => True

instance : DecidablePred Proper := fun call =>
  match call with
  | .send _ _ => inferInstanceAs (Decidable (_ ∧ _))
  | .receive _ _ => inferInstanceAs (Decidable (_ > _))
  | .pumpRetries _ => inferInstanceAs (Decidable (_ > _))
  | .sweepAckTimeouts _ => inferInstanceAs (Decidable (_ > _))
  | .resetPeerOrdering _ => .isTrue trivial
  | .pollEvent => .isTrue trivial
  | .drainEvents _ => .isTrue trivial

/-- The call is survived: a message that needs a sequence number names a destination, no message
waits to be retried that was given the saturated expiry or, once it is due, a backoff of more than a
minute, and no acknowledgement arrives that is not harmless. -/
def Survives (e : DeliveryEngine) (i : Input) : Prop :=
  match i.call with
  | .send env nowUs => ¬ e.Stale nowUs → NeedsSequence e.cfg env → env.destinationId ≠ nodeIdInvalid
  | .receive _ _ => ∀ r ∈ receiving? e i, ¬ r.Overflows → ∀ frame ∈ r.frame?, envelopeValid frame →
      ∀ env ∈ r.arrival?, Routed r.engine.localId env r.nowUs → Harmless r.engine.ackTracker env
  | .pumpRetries nowUs => ¬ e.Stale nowUs → ∀ k : Fin ackTrackerCapacity,
      ¬ e.retryManager.slots[k].endless ∧
        ¬ e.retryManager.slots[k].slowAt (e.retryManager.collectTime nowUs)
  | _ => True

instance (e : DeliveryEngine) (i : Input) : Decidable (Survives e i) := by
  unfold Survives
  split
  · infer_instance
  · infer_instance
  · infer_instance
  · infer_instance

/-- The assertion, if there is one, is not of the functions above. -/
def Spared (fault : Option Site) : Prop := ∀ site, fault = some site → site ∉ outboundSites

@[simp] theorem spared_none : Spared none := fun _ h => nomatch h

@[simp] theorem spared_some (site : Site) : Spared (some site) ↔ site ∉ outboundSites := by
  refine ⟨fun h => h site rfl, fun h x hx => ?_⟩
  cases hx
  exact h

/-- Whatever stops at a control message is one of the functions above. -/
theorem spared_controlFault (t : AckTracker) (env : MessageEnvelope) :
    Spared (controlFault t env) ↔ Harmless t env := by
  rw [← controlFault_eq_none_iff]
  refine ⟨fun h => ?_, fun h => ?_⟩
  · unfold controlFault at h ⊢
    split
    case isTrue _ => rfl
    case isFalse hack =>
      rw [if_neg hack] at h
      split
      case isTrue hdst =>
        rw [if_pos hdst] at h
        exact absurd (by decide) (h _ rfl)
      case isFalse hdst =>
        rw [if_neg hdst] at h
        split
        case isTrue hknown =>
          rw [if_pos hknown] at h
          exact absurd (by decide) (h _ rfl)
        case isFalse _ => rfl
  · rw [h]
    exact spared_none

theorem harmless_of_not_isControl {t : AckTracker} {env : MessageEnvelope}
    (h : ¬ envelopeIsControl env) : Harmless t env :=
  fun hack => absurd (isControl_of_ack hack) h

theorem spared_frameFault (e : DeliveryEngine) (frame : MessageEnvelope) (nowUs : UInt64) :
    Spared (e.frameFault frame nowUs) ↔ (envelopeValid frame → ∀ env ∈ e.arriving? frame nowUs,
      Routed e.localId env nowUs → Harmless e.ackTracker env) := by
  by_cases hvalid : envelopeValid frame
  case neg =>
    rw [frameFault, if_pos hvalid]
    simp [hvalid, outboundSites]
  rw [frameFault, if_neg (fun h => h hvalid)]
  cases harriving : e.arriving? frame nowUs with
  | none => simp
  | some env =>
    have hone : (envelopeValid frame → ∀ x ∈ some env, Routed e.localId x nowUs → Harmless e.ackTracker x) ↔
        (Routed e.localId env nowUs → Harmless e.ackTracker env) := by
      simp [hvalid]
    rw [hone]
    dsimp only
    by_cases hrouted : Routed e.localId env nowUs
    case neg => simp [hrouted]
    rw [if_neg (fun h => h hrouted)]
    by_cases hcontrol : envelopeIsControl env
    case pos =>
      rw [if_pos hcontrol, spared_controlFault]
      exact ⟨fun h _ => h, fun h => h hrouted⟩
    have hharmless : Harmless e.ackTracker env := harmless_of_not_isControl hcontrol
    rw [if_neg hcontrol]
    split
    · simp [hharmless]
    · simp [hharmless, outboundSites]

theorem spared_drainedFault (r : Receiving) :
    Spared (r.engine.drainedFault r.timeoutMs r.nowUs) ↔
      (¬ r.Overflows → ∀ frame ∈ r.frame?, envelopeValid frame →
        ∀ env ∈ r.arrival?, Routed r.engine.localId env r.nowUs → Harmless r.engine.ackTracker env) := by
  rw [drainedFault_eq, Receiving.arrival?]
  by_cases hover : r.Overflows
  case pos => simp [hover, outboundSites]
  rw [if_neg hover]
  cases hasked : r.frame? with
  | none => simp
  | some frame =>
    change Spared (r.engine.frameFault frame r.nowUs) ↔ _
    rw [spared_frameFault]
    constructor
    · intro h _ x hx
      cases hx
      exact h
    · exact fun h => h hover frame rfl

/-- The calls that are survived are those that run into no assertion of the functions above. -/
theorem survives_iff_spared (inv : Inv (fun _ => True) e) (hproper : Proper i.call) :
    Survives e i ↔ Spared (stepFault i e) := by
  obtain ⟨call, transport⟩ := i
  unfold Survives
  cases call with
  | send env nowUs =>
    obtain ⟨hnow, hsendable⟩ := hproper
    change (¬ e.Stale nowUs → NeedsSequence e.cfg env → env.destinationId ≠ nodeIdInvalid) ↔
      Spared ((e.attach transport).sendFault env nowUs)
    have hvalid : ¬ ¬ Sendable env := fun h => h hsendable
    rw [sendFault, if_neg (UInt64.pos_iff_ne_zero.mp hnow), if_neg hvalid]
    change _ ↔ Spared (if e.Stale nowUs then none
      else if NeedsSequence e.cfg env ∧ env.destinationId = 0 then some .engineNextSeqFor else none)
    by_cases hstale : e.Stale nowUs
    · simp [hstale]
    · by_cases hseq : NeedsSequence e.cfg env ∧ env.destinationId = 0
      · simp [hstale, hseq, outboundSites]
      · simp only [hstale, hseq, if_false, spared_none, iff_true]
        exact fun _ hneeds hzero => hseq ⟨hneeds, hzero⟩
  | receive timeoutMs nowUs =>
    have hnow : nowUs > 0 := hproper
    dsimp only
    cases hr : receiving? e ⟨.receive timeoutMs nowUs, transport⟩ with
    | none =>
      have hnone := receiving?_none_of_receive inv rfl hnow hr
      simp [hnone]
    | some r =>
      obtain ⟨hcall, -, -⟩ := receiving?_eq_some hr
      have hr' : r.nowUs > 0 := by
        cases hcall
        exact hnow
      rw [stepFault_of_receiving hr hr', spared_drainedFault]
      constructor
      · exact fun h => h r rfl
      · intro h x hx
        cases hx
        exact h
  | pumpRetries nowUs =>
    have hnow : nowUs > 0 := hproper
    change (¬ e.Stale nowUs → ∀ k : Fin ackTrackerCapacity, _) ↔
      Spared ((e.attach transport).pumpFault nowUs)
    rw [pumpFault, if_neg (UInt64.pos_iff_ne_zero.mp hnow)]
    change _ ↔ Spared (if e.Stale nowUs then none
      else if ∃ k : Fin ackTrackerCapacity, e.retryManager.slots[k].endless then some .slotHasExpired
      else if ∃ k : Fin ackTrackerCapacity,
        e.retryManager.slots[k].slowAt (e.retryManager.collectTime nowUs) then some .advanceBackoff
      else none)
    by_cases hstale : e.Stale nowUs
    case pos => simp [hstale]
    by_cases hend : ∃ k : Fin ackTrackerCapacity, e.retryManager.slots[k].endless
    · obtain ⟨k, hk⟩ := hend
      rw [if_neg hstale, if_pos ⟨k, hk⟩, spared_some]
      exact ⟨fun h => absurd hk (h hstale k).1, fun h => absurd (by decide) h⟩
    by_cases hslow : ∃ k : Fin ackTrackerCapacity,
        e.retryManager.slots[k].slowAt (e.retryManager.collectTime nowUs)
    · obtain ⟨k, hk⟩ := hslow
      rw [if_neg hstale, if_neg hend, if_pos ⟨k, hk⟩, spared_some]
      exact ⟨fun h => absurd hk (h hstale k).2, fun h => absurd (by decide) h⟩
    · rw [if_neg hstale, if_neg hend, if_neg hslow]
      exact ⟨fun _ => spared_none, fun _ _ k => ⟨fun hk => hend ⟨k, hk⟩, fun hk => hslow ⟨k, hk⟩⟩⟩
  | sweepAckTimeouts nowUs =>
    have hnow : nowUs > 0 := hproper
    change True ↔ Spared (if nowUs = 0 then some .engineSweepAckTimeouts else none)
    rw [if_neg (UInt64.pos_iff_ne_zero.mp hnow)]
    simp
  | resetPeerOrdering src =>
    change True ↔ Spared (if src = 0 then some .engineResetPeerOrdering else none)
    split
    · simp [outboundSites]
    · simp
  | pollEvent => exact ⟨fun _ => spared_none, fun _ => trivial⟩
  | drainEvents bufCap => exact ⟨fun _ => spared_none, fun _ => trivial⟩

/-- The run did not stop at an assertion of the functions above. -/
def NotOutbound : Fault → Prop
  | .assertion site => site ∉ outboundSites
  | .outOfBounds => True

theorem spared_stepFault_iff (inv : Inv (fun _ => True) e) :
    Spared (stepFault i e) ↔ ∀ fault, exec i e = .error fault → NotOutbound fault := by
  have hframes : Delivers (fun _ => True) i.transport := fun _ _ _ => trivial
  cases hfault : stepFault i e with
  | none =>
    obtain ⟨o, e', hrun⟩ := (exec_ok_iff headerProperty_true inv hframes).mpr hfault
    rw [hrun]
    exact ⟨fun _ _ h => (nomatch h), fun _ => spared_none⟩
  | some site =>
    rw [exec_fault headerProperty_true inv hframes hfault, spared_some]
    constructor
    · intro h fault hf
      cases hf
      exact h
    · exact fun h => h _ rfl

/-- A run of proper calls runs into no assertion of the send path, the retry table and the tracker
exactly when each of its calls is survived. -/
theorem api_faults_iff (cfg : ChannelConfig) (localId : NodeId) (entropy : UInt64)
    (inputs : List Input) (hlocal : localId ≠ nodeIdInvalid) (hproper : ∀ i ∈ inputs, Proper i.call) :
    (∀ fault, Run.runAll exec inputs (init cfg localId entropy) = .error fault → NotOutbound fault) ↔
      Run.Along exec Survives inputs (init cfg localId entropy) := by
  refine Run.runAll_error_iff (I := Inv fun _ => True) ?_ ?_ (inv_init cfg entropy hlocal)
  · intro i _ e o e' inv hexec
    exact (exec_outcome headerProperty_true inv (fun _ _ _ => trivial) hexec).1
  · intro i hi e inv
    rw [survives_iff_spared inv (hproper i hi), spared_stepFault_iff inv]

/-! ## A run that a saturated deadline stops -/

/-- A `RELIABLE_RETRY` message to node 2 with a saturated deadline, and the retransmission of it. -/
def saturatedRun : List Input :=
  [⟨.send { plainData 1 0 saturatedUs with
      destinationId := 2, reliabilityClass := .reliableRetry } 1, silent⟩,
   ⟨.pumpRetries 2, silent⟩]

theorem saturated_deadline_stops_pump :
    (∀ i ∈ saturatedRun, Proper i.call) ∧
    ¬ ∀ fault, Run.runAll exec saturatedRun (init orderedConfig 1 7) = .error fault →
      NotOutbound fault := by
  refine ⟨by decide +kernel, fun h => ?_⟩
  have hstops : (match Run.runAll exec saturatedRun (init orderedConfig 1 7) with
    | .error fault => some fault
    | .ok _ => none) = some (.assertion .slotHasExpired) := by decide +kernel
  split at hstops
  case h_1 fault hrun =>
    cases hstops
    exact h _ hrun (by decide)
  case h_2 _ => cases hstops

/-- The same message with a deadline, sent, retransmitted and acknowledged. -/
def boundedRun : List Input :=
  [⟨.send { plainData 1 0 1000 with
      destinationId := 2, reliabilityClass := .reliableRetry } 1, silent⟩,
   ⟨.pumpRetries 2, silent⟩,
   receiveOf 3 { plainData 2 0 0 with messageType := .ack, messageId := idSeed 7 1 }]

theorem api_faults_bounded :
    (∀ i ∈ boundedRun, Proper i.call) ∧
    ∀ fault, Run.runAll exec boundedRun (init orderedConfig 1 7) = .error fault → NotOutbound fault := by
  have hproper : ∀ i ∈ boundedRun, Proper i.call := by decide +kernel
  refine ⟨hproper, (api_faults_iff orderedConfig 1 7 boundedRun (by decide) hproper).mpr ?_⟩
  decide +kernel

end DeliveryEngine

end MessageEngine
