import MessageEngine.Laws.Outbound.Booking

/-!
# A message that is late when it is sent

`send_via_transport` refuses a late frame with `ERR_EXPIRED`. For a message of one frame that result
is the result of `send`. For a fragmented message the loop of `send_fragments` turns every failure
into `ERR_IO`, so `send` reports a transport failure, counts no expired message and emits
`SEND_FAIL`.

## What is proved

- `late_send_iff`: a late message is dropped as late exactly when it fits one frame, so of two late
  messages on the two sides of that size at most one is;
- `late_send_reported_as_io`: a late message of two frames is reported as an I/O failure.
-/

namespace MessageEngine

open Outcome Table OrderingBuffer

namespace DeliveryEngine

variable {e e' : DeliveryEngine} {env : MessageEnvelope} {nowUs : UInt64} {res : Result}

/-- The tables have room for a message of its class. -/
structure HasRoom (b : Books) (env : MessageEnvelope) : Prop where
  ackTracker : env.reliabilityClass ≠ .bestEffort →
    ∃ i : Fin ackTrackerCapacity, b.ackTracker.slots[i].state = .free
  retryManager : env.reliabilityClass = .reliableRetry →
    ∃ i : Fin ackTrackerCapacity, b.retryManager.slots[i].active = false

theorem HasRoom.reserve {t t' : AckTracker} {m m' : RetryManager} {cfg : ChannelConfig}
    (room : HasRoom ⟨t, m⟩ env) (h : reserveBookkeeping t m env cfg nowUs = .ok (res, t', m')) :
    res = .ok := by
  obtain ⟨-, h⟩ := ensure_bind_eq_ok.mp h
  obtain ⟨-, h⟩ := ensure_bind_eq_ok.mp h
  split at h
  case isTrue _ =>
    cases h
    rfl
  case isFalse hreliable =>
    have hclass : env.reliabilityClass ≠ .bestEffort := fun hbest => hreliable (by simp [hbest])
    obtain ⟨⟨trackRes, t₁⟩, htrack, hdone⟩ := bind_eq_ok.mp h
    rcases AckTracker.track_cases htrack with ⟨rfl, -⟩ | ⟨-, -, hfull⟩
    case inr =>
      obtain ⟨i, hi⟩ := room.ackTracker hclass
      exact absurd hi (hfull i)
    replace hdone := (if_neg (by decide)).symm.trans hdone
    split at hdone
    case isTrue _ =>
      cases hdone
      rfl
    case isFalse hretry =>
      obtain ⟨⟨schedRes, m₁⟩, hsched, hdone'⟩ := bind_eq_ok.mp hdone
      rcases RetryManager.schedule_cases hsched with ⟨rfl, -⟩ | ⟨-, -, hfull⟩
      · cases hdone'.symm.trans (if_neg (by decide))
        rfl
      · obtain ⟨i, hi⟩ := room.retryManager (Classical.not_not.mp hretry)
        exact absurd hi (hfull i)

/-- A send drops the message as late: it answers `ERR_EXPIRED`, counts it once, emits `EXPIRY_DROP`
and hands nothing to the transport. -/
def DropsLate (e : DeliveryEngine) (env : MessageEnvelope) (nowUs : UInt64) (transport : Transport) :
    Prop :=
  ∃ out effects e', exec ⟨.send env nowUs, transport⟩ e = .ok (⟨.sent .errExpired out, effects⟩, e') ∧
    e'.stats.msgsDroppedExpired = e.stats.msgsDroppedExpired + 1 ∧
    e.events.push ⟨out.messageId, nowUs, env.destinationId, .expiryDrop, .errExpired⟩ = .ok e'.events ∧
    ∀ frame r, Effect.sent frame r ∉ effects

/-- What becomes of a late message. -/
theorem SendOutcome.late {out : MessageEnvelope} (h : SendOutcome e env nowUs res out e')
    (htrace : e.trace = []) (late : ExpiredAt nowUs env) (room : HasRoom e.books env) :
    (e.Stale nowUs ∧ res = .errInvalid) ∨
    (¬ e.Stale nowUs ∧ ¬ FitsFrame env ∧ res = .errIo) ∨
    (¬ e.Stale nowUs ∧ FitsFrame env ∧ res = .errExpired ∧
      e'.stats.msgsDroppedExpired = e.stats.msgsDroppedExpired + 1 ∧
      e.events.push ⟨out.messageId, nowUs, env.destinationId, .expiryDrop, .errExpired⟩ = .ok e'.events ∧
      e'.trace = [.expired out]) := by
  have hroom : HasRoom ⟨e.ackTracker, e.retryManager⟩ (e.filledIn env nowUs) :=
    ⟨room.ackTracker, room.retryManager⟩
  cases h with
  | refused stale => exact .inl ⟨stale, rfl⟩
  | unbooked _ reserve failed _ => exact absurd (hroom.reserve reserve) failed
  | failed fresh _ carries _ handle record =>
    obtain ⟨rfl, hres⟩ := carries.late late
    by_cases hfits : FitsFrame (e.filledIn env nowUs)
    · rw [if_pos hfits] at hres
      cases hres
      cases handleSendFragmentsFailure_reported (by decide) handle
      rcases recordSendFailure_cases record with ⟨-, events, hpush, rfl⟩ | ⟨hne, -⟩
      · refine .inr (.inr ⟨fresh, hfits, rfl, rfl, hpush, ?_⟩)
        change (e.trace ++ []) ++ [_] = _
        rw [htrace]
        rfl
      · exact absurd rfl hne
    · rw [if_neg hfits] at hres
      cases hres
      cases handleSendFragmentsFailure_reported (by decide) handle
      exact .inr (.inl ⟨fresh, hfits, rfl⟩)
  | sent _ _ carries =>
    have hres := (carries.late late).2
    split at hres
    · cases hres
    · cases hres

/-- A late message for which there is room is dropped as late exactly when the call passes its own
checks and the message fits one frame; so never are both messages of a pair, one of which is larger. -/
theorem late_send_iff {cfg : ChannelConfig} {localId : NodeId} {entropy : UInt64} {inputs : List Input}
    {os : List Observation} {e : DeliveryEngine} (hlocal : localId ≠ nodeIdInvalid)
    (hreached : Run.runAll exec inputs (init cfg localId entropy) = .ok (os, e)) (transport : Transport)
    (nowUs : UInt64) :
    (∀ env, ExpiredAt nowUs env → HasRoom e.books env → (DropsLate e env nowUs transport ↔
      stepFault ⟨.send env nowUs, transport⟩ e = none ∧ ¬ e.Stale nowUs ∧ FitsFrame env)) ∧
    ∀ small large : MessageEnvelope, large = { small with
        payload := large.payload, payloadLength := large.payloadLength
        totalPayloadLength := large.totalPayloadLength } →
      ExpiredAt nowUs small → HasRoom e.books small → FitsFrame small → ¬ FitsFrame large →
      ¬ (DropsLate e small nowUs transport ∧ DropsLate e large nowUs transport) := by
  obtain ⟨inv, -⟩ := reachable_inv (P := fun _ => True) headerProperty_true hlocal
    (fun _ _ _ _ _ => trivial) hreached
  have hiff : ∀ env, ExpiredAt nowUs env → HasRoom e.books env → (DropsLate e env nowUs transport ↔
      stepFault ⟨.send env nowUs, transport⟩ e = none ∧ ¬ e.Stale nowUs ∧ FitsFrame env) := by
    intro env late room
    constructor
    · intro h
      obtain ⟨out, effects, e', hexec, -⟩ := h
      refine ⟨(exec_ok_iff headerProperty_true inv (fun _ _ _ => trivial)).mp ⟨_, e', hexec⟩, ?_⟩
      obtain ⟨⟨answer, e₁⟩, hrun, heq⟩ := bind_eq_ok.mp hexec
      obtain ⟨⟨⟨res, out₁⟩, e₂⟩, hsend, heq'⟩ := bind_eq_ok.mp hrun
      cases heq'
      cases heq
      rcases (send_outcome hsend).late rfl late room with ⟨-, hres⟩ | ⟨-, -, hres⟩ | ⟨hfresh, hfits, -⟩
      · cases hres
      · cases hres
      · exact ⟨hfresh, hfits⟩
    · intro h
      obtain ⟨hfault, hfresh, hfits⟩ := h
      obtain ⟨⟨res, out⟩, e', hsend, -⟩ := send_spec (inv.attach transport) hfault
      rcases (send_outcome hsend).late rfl late room with ⟨hstale, -⟩ | ⟨-, hlarge, -⟩ |
        ⟨-, -, rfl, hcount, hpush, htrace⟩
      · exact absurd hstale hfresh
      · exact absurd hfits hlarge
      · refine ⟨out, e'.trace, e', bind_eq_ok.mpr ⟨_, bind_eq_ok.mpr ⟨_, hsend, rfl⟩, rfl⟩, hcount, hpush, ?_⟩
        intro frame r hsent
        rw [htrace] at hsent
        cases List.mem_singleton.mp hsent
  refine ⟨hiff, fun small large hdiffer late room _ hlarge hboth => ?_⟩
  have late' : ExpiredAt nowUs large := by
    rw [hdiffer]
    exact late
  have room' : HasRoom e.books large := by
    rw [hdiffer]
    exact ⟨room.ackTracker, room.retryManager⟩
  exact hlarge ((hiff large late' room').mp hboth.2).2.2

/-- A message for node 2 that expired at time 3. -/
def lateData (payloadLength : UInt32) : MessageEnvelope :=
  { plainData 1 0 3 with destinationId := 2, payloadLength }

theorem hasRoom_init (env : MessageEnvelope) : HasRoom (init orderedConfig 1 7).books env :=
  ⟨fun _ => ⟨0, by decide +kernel⟩, fun _ => ⟨0, by decide +kernel⟩⟩

theorem late_send_one_frame : DropsLate (init orderedConfig 1 7) (lateData 10) 5 silent ∧
    ¬ DropsLate (init orderedConfig 1 7) (lateData 1025) 5 silent := by
  have hreached : Run.runAll exec [] (init orderedConfig 1 7) = .ok ([], init orderedConfig 1 7) := rfl
  obtain ⟨hiff, -⟩ := late_send_iff (by decide) hreached silent 5
  constructor
  · refine (hiff (lateData 10) (by decide) (hasRoom_init _)).mpr ⟨?_, by decide, by decide⟩
    decide +kernel
  · intro h
    have hfits := ((hiff (lateData 1025) (by decide) (hasRoom_init _)).mp h).2.2
    exact absurd hfits (by decide)

/-- The result of a send. -/
def Answer.result? : Answer → Option Result
  | .sent res _ => some res
  | _ => none

/-- Of two late messages that differ in their length, the one of two frames is reported as an I/O
failure. -/
theorem late_send_reported_as_io :
    ¬ ∀ small large : MessageEnvelope, large = { small with
        payload := large.payload, payloadLength := large.payloadLength
        totalPayloadLength := large.totalPayloadLength } →
      ExpiredAt 5 small → HasRoom (init orderedConfig 1 7).books small → FitsFrame small →
      ¬ FitsFrame large →
      DropsLate (init orderedConfig 1 7) small 5 silent ∧ DropsLate (init orderedConfig 1 7) large 5 silent := by
  intro h
  obtain ⟨-, out, effects, e', hexec, -⟩ := h (lateData 10) (lateData 1025) rfl (by decide) (hasRoom_init _)
    (by decide) (by decide)
  have hres : (exec ⟨.send (lateData 1025) 5, silent⟩ (init orderedConfig 1 7)).toOption.map
      (fun r => r.1.answer.result?) = some (some .errIo) := by decide +kernel
  rw [hexec] at hres
  cases hres

end DeliveryEngine

end MessageEngine
