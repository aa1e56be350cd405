import MessageEngine.Laws.Outbound.Booking
import MessageEngine.Laws.EndToEnd.Connection
import MessageEngine.Laws.EndToEnd.Harnessed
import MessageEngine.Laws.LocalSim.Transparent

/-!
# Two engines over harnesses that lose nothing

Where the harnesses impair nothing, the engines lose nothing either. A data message that goes out in one frame,
without a number and without retries, is returned by the call that polls its frame, unless it has expired; and
between the two ends there is only the queue.

## What is proved

- `answer_polling`: an engine returns such a message when it polls its frame;
- `Poll.stands`, `Puts.stands`: what a call does to the queues;
- `Lossless.sends`, `Lossless.receives`: one call on either side;
- `exec_confirms`: where nothing is retransmitted, what a call puts on the wire is what it confirms;
- `harnessed_exact`: what one side's `send` confirmed is what the other returned, and then what is queued.
-/

namespace MessageEngine

open Outcome Network

namespace DeliveryEngine

variable {e e' : DeliveryEngine} {timeoutMs : UInt32} {nowUs : UInt64} {frame : MessageEnvelope} {reply : Reply}
  {results : List Result} {o : Observation}

/-! ## One poll -/

/-- Data messages bear no number. -/
def Unnumbered (env : MessageEnvelope) : Prop := envelopeIsData env → env.sequenceNum = 0

theorem headerProperty_unnumbered : HeaderProperty Unnumbered where
  stable := fun _ _ _ _ _ _ h => h

/-- Only numbered messages are staged. -/
theorem Inv.nothing_staged (inv : Inv Unnumbered e) : e.staged? = none := by
  cases hstaged : e.staged? with
  | none => rfl
  | some env =>
    obtain ⟨-, -, accepted, hseq⟩ := inv.accepted_staged hstaged
    exact absurd (accepted.prop accepted.data) hseq

/-- A frame that is a message of its own, and waits for nothing. -/
structure Direct (localId : NodeId) (nowUs : UInt64) (frame : MessageEnvelope) : Prop where
  single : frame.fragmentCount.toNat ≤ 1
  formed : ReassemblyBuffer.WellFormed frame
  source : frame.sourceId ≠ 0
  data : envelopeIsData frame → frame.sequenceNum = 0 ∧ frame.reliabilityClass ≠ .reliableRetry ∧
    Routed localId frame nowUs

/-- The `receive` as it polls, when no peer has said hello. -/
def polling (e : DeliveryEngine) (timeoutMs : UInt32) (nowUs : UInt64) (reply : Reply) (results : List Result) :
    Receiving :=
  ⟨{ e with transport := ⟨[], fun _ => reply, results⟩, trace := [], lastNowUs := nowUs }, timeoutMs, nowUs⟩

theorem receiving?_polling (fresh : ¬ e.Stale nowUs) (timeoutMs : UInt32) (reply : Reply) (results : List Result) :
    receiving? e ⟨.receive timeoutMs nowUs, [], fun _ => reply, results⟩ =
      some (e.polling timeoutMs nowUs reply results) := by
  unfold receiving?
  dsimp only
  rw [if_neg (show ¬ (e.attach ⟨[], fun _ => reply, results⟩).Stale nowUs from fresh)]
  rfl

theorem polling_asks (inv : Inv Unnumbered e) (timeoutMs : UInt32) (nowUs : UInt64) (reply : Reply)
    (results : List Result) : (e.polling timeoutMs nowUs reply results).asks := by
  intro env henv
  have hnone : (e.polling timeoutMs nowUs reply results).engine.staged? = none := inv.nothing_staged
  rw [hnone] at henv
  cases henv

/-- The data message that comes of the poll is the frame. -/
theorem polling_data? (inv : Inv Unnumbered e) (direct : ∀ frame, reply = .ok frame → Direct e.localId nowUs frame)
    (timeoutMs : UInt32) (results : List Result) :
    (e.polling timeoutMs nowUs reply results).data? = reply.toOption.filter fun env => envelopeIsData env := by
  have hframe : (e.polling timeoutMs nowUs reply results).frame? = reply.toOption := if_pos (polling_asks inv _ _ _ _)
  cases reply with
  | error r =>
    apply Receiving.data?_of_no_arrival
    rw [Receiving.arrival?, hframe]
    rfl
  | ok frame =>
    obtain ⟨single, formed, source, data⟩ := direct frame rfl
    have harrival : (e.polling timeoutMs nowUs (.ok frame) results).arrival? = some frame := by
      rw [Receiving.arrival?, hframe]
      show arriving? _ frame nowUs = some frame
      unfold arriving?
      rw [Connection.ingest_single source formed single]
    by_cases hdata : envelopeIsData frame
    · obtain ⟨-, once, routed⟩ := data hdata
      rw [Receiving.data?_of_arrival harrival ⟨routed, hdata, fun h => once h.1⟩]
      exact (Option.filter_some_pos (p := fun env => decide (envelopeIsData env)) (decide_eq_true hdata)).symm
    · rw [Receiving.data?_of_refused harrival fun h => hdata h.2.1]
      exact (Option.filter_some_neg (p := fun env => decide (envelopeIsData env)) (decide_eq_false hdata)).symm

/-- What the application is given of an answer. -/
def Answer.data? (answer : Answer) : Option MessageEnvelope := answer.returned?.filter fun env => envelopeIsData env

theorem Answer.data?_of_none {answer : Answer} (h : answer.returned? = none) : answer.data? = none := by
  rw [Answer.data?, h]
  rfl

/-- An engine that polls such a frame returns it at once, if it is a data message. -/
theorem answer_polling (inv : Inv Unnumbered e) (fresh : ¬ e.Stale nowUs)
    (direct : ∀ frame, reply = .ok frame → Direct e.localId nowUs frame)
    (hexec : exec ⟨.receive timeoutMs nowUs, [], fun _ => reply, results⟩ e = .ok (o, e')) :
    o.answer.data? = reply.toOption.filter fun env => envelopeIsData env := by
  have hframes : Delivers Unnumbered (⟨[], fun _ => reply, results⟩ : Transport) :=
    fun _ frame harrived hdata => ((direct frame harrived).data hdata).1
  obtain ⟨-, hdelivered, -⟩ := exec_delivered headerProperty_unnumbered inv hframes hexec
  have hreceiving := receiving?_polling fresh timeoutMs reply results
  have hpolled := polling_data? inv direct timeoutMs results
  have data_unnumbered {env : MessageEnvelope}
      (h : (e.polling timeoutMs nowUs reply results).data? = some env) : env.sequenceNum = 0 := by
    rw [hpolled] at h
    obtain ⟨hmem, hdata⟩ := Option.mem_filter_iff.mp h
    cases reply with
    | error r => cases hmem
    | ok frame =>
      cases hmem
      exact ((direct env rfl).data (of_decide_eq_true hdata)).1
  generalize o.answer = answer, e'.delivery = d at hdelivered
  cases hdelivered with
  | outbound notReceive _ _ => exact absurd rfl (notReceive timeoutMs nowUs)
  | rejected none =>
    rw [hreceiving] at none
    cases none
  | swept call _ _ _ => cases call
  | reset call _ => cases call
  | @received _ got _ receiving _ _ answered =>
    rw [hreceiving] at receiving
    cases receiving
    rw [← hpolled]
    cases answered with
    | returned staged _ _ _ =>
      have hnone : (e.polling timeoutMs nowUs reply results).engine.staged? = none := inv.nothing_staged
      rw [hnone] at staged
      cases staged
    | idle _ none noData _ =>
      rw [none]
      cases got with
      | error r => rfl
      | ok env => exact Option.filter_some_neg (decide_eq_false (noData env rfl))
    | duplicate _ none _ _ =>
      rw [none]
      rfl
    | kept _ data _ _ gate =>
      have hunnumbered := data_unnumbered data
      cases gate.ingested with
      | stored seq _ _ _ _ _ => exact absurd hunnumbered seq
      | refused seq _ _ _ _ => exact absurd hunnumbered seq
    | passed _ data accepted _ _ _ =>
      rw [data]
      exact Option.filter_some_pos (decide_eq_true accepted.data)

/-- A call that polls nothing gives the application nothing. -/
theorem answer_idle {i : Input} (inv : Inv Unnumbered e) (idle : ¬ HarnessedEngines.Looks e i.call)
    (hframes : Delivers Unnumbered i.transport) (hexec : exec i e = .ok (o, e')) : o.answer.data? = none := by
  obtain ⟨-, hdelivered, -⟩ := exec_delivered headerProperty_unnumbered inv hframes hexec
  generalize o.answer = answer, e'.delivery = d at hdelivered
  cases hdelivered with
  | outbound _ notReceived _ => exact Answer.data?_of_none (returned?_of_not_received notReceived)
  | rejected _ => rfl
  | swept _ _ _ _ => rfl
  | reset _ _ => rfl
  | received receiving _ _ _ =>
    obtain ⟨hcall, hfresh, -⟩ := receiving?_eq_some receiving
    apply absurd _ idle
    rw [hcall]
    refine ⟨hfresh, fun hstaged => ?_⟩
    have hnone := inv.nothing_staged
    rw [staged?, if_pos hstaged.1] at hnone
    cases hnone

end DeliveryEngine

namespace HarnessedEngines

variable {side : Side} {e : DeliveryEngine} {call : DeliveryEngine.Call} {p p' : LocalSimPair} {reply : Reply}
  {polled put : List LocalSimPair.Made} {effects : List Effect} {x : MessageEnvelope}
  {q : Side → List MessageEnvelope}

/-! ## The queues during a call -/

/-- A frame that the transport accepted. -/
def acceptedFrame? : Effect → Option MessageEnvelope
  | .sent env .ok => some env
  | _ => none

/-- The frames of a call that the transport accepted. -/
def acceptedIn (effects : List Effect) : List MessageEnvelope := effects.filterMap acceptedFrame?

theorem acceptedIn_cons (y : Effect) (effects : List Effect) :
    acceptedIn (y :: effects) = (acceptedFrame? y).toList ++ acceptedIn effects := by
  unfold acceptedIn
  rw [List.filterMap_cons]
  cases acceptedFrame? y with
  | none => rfl
  | some env => rfl

/-- A poll takes the first frame of the queue. -/
theorem Poll.stands (h : Poll side e call p reply polled p') (stands : LocalSimPair.StandsFor p q) :
    ∃ q', LocalSimPair.StandsFor p' q' ∧ q' side.other = q side.other ∧
      ((Looks e call ∧ (reply, q' side) = LocalSimHarness.popped (q side)) ∨
        (¬ Looks e call ∧ reply = .error .errTimeout ∧ q' side = q side)) := by
  cases h with
  | @made timeoutMs nowUs reply p' receives looks polls =>
    have hstep := LocalSimPair.step_refines stands (.receive side timeoutMs)
    have hspec : LocalSimPair.queueStep (.receive side timeoutMs) q =
        .ok (.reply (LocalSimHarness.popped (q side)).1,
          Function.update q side (LocalSimHarness.popped (q side)).2) := rfl
    rw [polls, hspec] at hstep
    cases hstep with
    | ok outputs states =>
      have hreply := LocalSimPair.Answer.reply.inj outputs
      refine ⟨_, states, Function.update_of_ne (LocalSimPair.other_ne side).symm _ _, .inl ⟨looks, ?_⟩⟩
      rw [hreply, Function.update_self]
  | none idle => exact ⟨q, stands, rfl, .inr ⟨idle, rfl, rfl⟩⟩

theorem pushed_accepted (queue : List MessageEnvelope) (env : MessageEnvelope) :
    (LocalSimHarness.pushed queue env).2 =
      queue ++ (acceptedFrame? (.sent env (LocalSimHarness.pushed queue env).1)).toList := by
  unfold LocalSimHarness.pushed
  split
  · rfl
  · exact (List.append_nil queue).symm

/-- The frames that are accepted go to the end of the other queue. -/
theorem Puts.stands (h : Puts side effects p put p') (stands : LocalSimPair.StandsFor p q) :
    ∃ q', LocalSimPair.StandsFor p' q' ∧ q' side = q side ∧
      q' side.other = q side.other ++ acceptedIn effects := by
  induction h generalizing q with
  | nil => exact ⟨q, stands, rfl, (List.append_nil _).symm⟩
  | @frame env res nowUs effects wire p p₁ p' sends rest ih =>
    have hstep := LocalSimPair.step_refines stands (.send side env nowUs)
    rw [sends] at hstep
    generalize hspec : LocalSimPair.queueStep (.send side env nowUs) q = run at hstep
    cases hstep with
    | ok outputs states =>
      obtain ⟨-, hspec⟩ := ensure_bind_eq_ok.mp hspec
      have hpushed : Except.ok (LocalSimPair.Answer.result (LocalSimHarness.pushed (q side.other) env).1,
          Function.update q side.other (LocalSimHarness.pushed (q side.other) env).2) = .ok (_, _) := hspec
      obtain ⟨rfl, rfl⟩ := Prod.mk.inj (Except.ok.inj hpushed)
      obtain ⟨q', hstands, hmine, htheirs⟩ := ih states
      have hres := LocalSimPair.Answer.result.inj outputs
      rw [Function.update_of_ne (LocalSimPair.other_ne side)] at hmine
      rw [Function.update_self, pushed_accepted, ← hres] at htheirs
      refine ⟨q', hstands, hmine, ?_⟩
      rw [htheirs, acceptedIn_cons, List.append_assoc]
  | @other y effects wire p p' quiet rest ih =>
    obtain ⟨q', hstands, hmine, htheirs⟩ := ih stands
    refine ⟨q', hstands, hmine, ?_⟩
    have hnone : acceptedFrame? y = none := by
      cases y with
      | sent env res => exact absurd rfl (quiet env res)
      | _ => rfl
    rw [htheirs, acceptedIn_cons, hnone]
    rfl

theorem popped_data {queue rest : List MessageEnvelope} (h : (reply, rest) = LocalSimHarness.popped queue) :
    (queue.filter fun env => envelopeIsData env) =
      (reply.toOption.filter fun env => envelopeIsData env).toList ++ rest.filter fun env => envelopeIsData env := by
  cases queue with
  | nil =>
    cases h
    rfl
  | cons env queue =>
    cases h
    by_cases hdata : envelopeIsData env
    · simp [hdata, Except.toOption, Option.filter]
    · simp [hdata, Except.toOption, Option.filter]

theorem looks_receive (h : Looks e call) :
    ∃ timeoutMs nowUs, call = .receive timeoutMs nowUs ∧ ¬ e.Stale nowUs := by
  cases call with
  | receive timeoutMs nowUs => exact ⟨timeoutMs, nowUs, rfl, h.1⟩
  | _ => exact absurd h id

/-! ## What a `send` confirms -/

section Confirmations

open DeliveryEngine

variable {e' : DeliveryEngine} {env out : MessageEnvelope} {nowUs : UInt64} {res : Result}

/-- Nothing waits to be retransmitted. -/
abbrev NoneQueued (m : RetryManager) : Prop := Queued (fun _ => False) m

/-- A message without retries is not entered for them. -/
theorem reserve_once {t t' : AckTracker} {m m' : RetryManager} {cfg : ChannelConfig}
    (once : env.reliabilityClass ≠ .reliableRetry)
    (h : reserveBookkeeping t m env cfg nowUs = .ok (res, t', m')) : m' = m := by
  obtain ⟨-, h⟩ := ensure_bind_eq_ok.mp h
  obtain ⟨-, h⟩ := ensure_bind_eq_ok.mp h
  split at h
  · cases h
    rfl
  · obtain ⟨⟨trackRes, t₁⟩, -, h⟩ := bind_eq_ok.mp h
    dsimp only at h
    split at h
    · cases h
      rfl
    · cases h
      rfl

/-- A message in one frame goes out as it is, or not at all. -/
theorem sendFragments_whole (fits : FitsFrame env) (h : e.sendFragments env nowUs = .ok (res, e')) :
    ∃ rest, (res ≠ .ok ∧ e' = e.handed [] rest) ∨ e' = e.handed [.sent env res] rest := by
  obtain ⟨-, h⟩ := ensure_bind_eq_ok.mp h
  obtain ⟨fragment, hneeds, h⟩ := bind_eq_ok.mp h
  obtain ⟨-, hneeds⟩ := ensure_bind_eq_ok.mp hneeds
  cases hneeds
  rw [if_pos (by simpa [FitsFrame] using fits)] at h
  rcases sendViaTransport_cases h with ⟨-, rfl, rfl⟩ | ⟨-, -, rfl⟩
  · refine ⟨e'.transport.sendResults, .inl ⟨?_, (handed_nil e').symm⟩⟩
    intro hok
    cases hok
  · exact ⟨_, .inr rfl⟩

theorem accepted_recordSendFailure (h : e.recordSendFailure env res = .ok e') :
    acceptedIn e'.trace = acceptedIn e.trace ∧ e'.retryManager = e.retryManager := by
  rcases recordSendFailure_cases h with ⟨-, events, -, rfl⟩ | ⟨-, events, rfl⟩
  · refine ⟨?_, rfl⟩
    show acceptedIn (e.trace ++ [.expired env]) = acceptedIn e.trace
    unfold acceptedIn
    rw [List.filterMap_append]
    exact List.append_nil _
  · exact ⟨rfl, rfl⟩

/-- A failure is reported as one. -/
theorem handle_reports {t t' : AckTracker} {m m' : RetryManager} {reported : Result}
    (h : handleSendFragmentsFailure t m env res = .ok (reported, t', m')) : reported ≠ .ok := by
  have hres := (ensure_bind_eq_ok.mp h).1
  by_cases hpartial : res = .errIoPartial
  · obtain ⟨-, h⟩ := ensure_bind_eq_ok.mp h
    obtain ⟨-, h⟩ := ensure_bind_eq_ok.mp h
    rw [if_pos hpartial] at h
    cases h
    decide
  · rw [handleSendFragmentsFailure_reported hpartial h]
    exact hres

/-- The frame of a message is accepted when `send` answers OK, and only then. -/
theorem send_confirms (queued : NoneQueued e.retryManager) (quiet : e.trace = []) (fits : FitsFrame env)
    (once : env.reliabilityClass ≠ .reliableRetry) (h : e.send env nowUs = .ok ((res, out), e')) :
    NoneQueued e'.retryManager ∧ acceptedIn e'.trace = if res = .ok then [out] else [] := by
  obtain ⟨-, h⟩ := ensure_bind_eq_ok.mp h
  split at h
  case isTrue hstale =>
    cases h
    refine ⟨queued, ?_⟩
    rw [quiet]
    rfl
  case isFalse hfresh =>
  obtain ⟨⟨out₁, e₁⟩, hprepare, h⟩ := bind_eq_ok.mp h
  obtain ⟨idGen, rfl, rfl⟩ := prepareEnvelope_eq hprepare
  obtain ⟨⟨bookRes, t, m⟩, hreserve, h⟩ := bind_eq_ok.mp h
  have honce : (e.filledIn env nowUs).reliabilityClass ≠ .reliableRetry := once
  have hfits : FitsFrame (e.filledIn env nowUs) := fits
  have hsame : m = e.retryManager := reserve_once honce hreserve
  subst hsame
  dsimp only at h
  split at h
  case isTrue hfailed =>
    obtain ⟨e₂, hrecord, h⟩ := bind_eq_ok.mp h
    cases h
    obtain ⟨hnothing, hretry⟩ := accepted_recordSendFailure hrecord
    rw [hnothing, hretry, if_neg hfailed]
    refine ⟨queued, ?_⟩
    show acceptedIn e.trace = []
    rw [quiet]
    rfl
  case isFalse hbooked =>
  have hbooked : bookRes = .ok := Classical.not_not.mp hbooked
  cases hbooked
  obtain ⟨⟨sendRes, e₂⟩, hsend, h⟩ := bind_eq_ok.mp h
  obtain ⟨rest, hwhole⟩ := sendFragments_whole hfits hsend
  have haccepted : e₂.retryManager = e.retryManager ∧
      acceptedIn e₂.trace = if sendRes = .ok then [e.filledIn env nowUs] else [] := by
    rcases hwhole with ⟨hfailed, rfl⟩ | rfl
    · refine ⟨rfl, ?_⟩
      show acceptedIn (e.trace ++ []) = _
      rw [quiet, if_neg hfailed]
      rfl
    · refine ⟨rfl, ?_⟩
      show acceptedIn (e.trace ++ [.sent (e.filledIn env nowUs) sendRes]) = _
      rw [quiet]
      cases sendRes with
      | ok => rfl
      | _ => rfl
  dsimp only at h
  split at h
  case isTrue hfailed =>
    obtain ⟨⟨reported, t', m'⟩, hhandle, h⟩ := bind_eq_ok.mp h
    obtain ⟨e₃, hrecord, h⟩ := bind_eq_ok.mp h
    cases h
    obtain ⟨hnothing, hretry⟩ := accepted_recordSendFailure hrecord
    rw [hnothing, hretry, if_neg (handle_reports hhandle)]
    rw [if_neg hfailed] at haccepted
    refine ⟨Queued.handle ?_ hhandle, haccepted.2⟩
    rw [haccepted.1]
    exact queued
  case isFalse hok =>
    have hok : sendRes = .ok := Classical.not_not.mp hok
    subst hok
    obtain ⟨e₃, hemit, h⟩ := bind_eq_ok.mp h
    obtain ⟨-, hemit⟩ := ensure_bind_eq_ok.mp hemit
    obtain ⟨events, -, hemit⟩ := bind_eq_ok.mp hemit
    cases hemit
    obtain ⟨-, h⟩ := ensure_bind_eq_ok.mp h
    obtain ⟨-, h⟩ := ensure_bind_eq_ok.mp h
    cases h
    refine ⟨?_, haccepted.2⟩
    show NoneQueued e₂.retryManager
    rw [haccepted.1]
    exact queued

/-- The data message that a `send` confirms. -/
def confirmed? : Answer → Option MessageEnvelope
  | .sent .ok env => if envelopeIsData env then some env else none
  | _ => none

theorem confirmed?_of_not_send {i : Input} {o : Observation} (hnot : ∀ env nowUs, i.call ≠ .send env nowUs)
    (hexec : exec i e = .ok (o, e')) : confirmed? o.answer = none := by
  obtain ⟨⟨answer, e₁⟩, hrun, hdone⟩ := bind_eq_ok.mp hexec
  cases hdone
  cases hcall : i.call with
  | send env nowUs => exact absurd hcall (hnot env nowUs)
  | resetPeerOrdering src =>
    rw [hcall] at hrun
    obtain ⟨e₂, -, hdone⟩ := bind_eq_ok.mp hrun
    cases hdone
    rfl
  | _ =>
    rw [hcall] at hrun
    obtain ⟨⟨_, e₂⟩, -, hdone⟩ := bind_eq_ok.mp hrun
    cases hdone
    rfl

/-- Where nothing waits to be retransmitted, the data frames that are accepted are what is confirmed. -/
theorem exec_confirms {i : Input} {o : Observation} (queued : NoneQueued e.retryManager)
    (simple : ∀ env nowUs, i.call = .send env nowUs → FitsFrame env ∧ env.reliabilityClass ≠ .reliableRetry)
    (hexec : exec i e = .ok (o, e')) :
    NoneQueued e'.retryManager ∧
      ((acceptedIn o.effects).filter fun env => envelopeIsData env) = (confirmed? o.answer).toList := by
  by_cases hsend : ∃ env nowUs, i.call = .send env nowUs
  · obtain ⟨env, nowUs, hcall⟩ := hsend
    obtain ⟨fits, once⟩ := simple env nowUs hcall
    obtain ⟨⟨answer, e₁⟩, hrun, hdone⟩ := bind_eq_ok.mp hexec
    cases hdone
    rw [hcall] at hrun
    obtain ⟨⟨⟨res, out⟩, e₂⟩, hsend, hdone⟩ := bind_eq_ok.mp hrun
    cases hdone
    obtain ⟨hqueued, haccepted⟩ := send_confirms (e := e.attach i.transport) queued rfl fits once hsend
    refine ⟨hqueued, ?_⟩
    dsimp only
    rw [haccepted]
    cases res with
    | ok =>
      rw [if_pos rfl]
      unfold confirmed?
      by_cases hdata : envelopeIsData out
      · simp [hdata]
      · simp [hdata]
    | _ => rfl
  · have hother : ∀ env nowUs, i.call ≠ .send env nowUs := fun env nowUs hcall => hsend ⟨env, nowUs, hcall⟩
    obtain ⟨hspeaks, -, -, heffects⟩ := Speaks.exec (S := fun _ => False) (fun _ h => h.elim) queued
      (fun x hx => by cases (offer?_of_not_send hother).symm.trans hx) hexec
    refine ⟨hspeaks.queued, ?_⟩
    rw [confirmed?_of_not_send hother hexec]
    apply List.filter_eq_nil_iff.mpr
    intro x hx hdata
    obtain ⟨y, hy, hframe⟩ := List.mem_filterMap.mp hx
    obtain ⟨res, rfl⟩ : ∃ res, y = .sent x res := by
      unfold acceptedFrame? at hframe
      split at hframe
      · cases hframe
        exact ⟨.ok, rfl⟩
      · cases hframe
    rw [heffects] at hy
    rcases hspeaks.heard x res hy with ⟨data, nowUs, rfl⟩ | ⟨_, hnone, -⟩
    · cases of_decide_eq_true hdata
    · exact hnone

end Confirmations

/-! ## Runs -/

variable {a : Side} {cfg : Side → ChannelConfig} {localId : Side → NodeId} {entropy : Side → UInt64}
  {chan : Side → ImpairmentConfig} {past : List (Made Side)} {wire : List LocalSimPair.Made} {s : HarnessedEngines}

/-- The data messages that a side's `send` confirmed, in order. -/
def confirmed (a : Side) (past : List (Made Side)) : List MessageEnvelope :=
  (stepsOf a past).filterMap fun t => confirmed? t.output.answer

/-- The data messages that a side returned, in order. -/
def returned (b : Side) (past : List (Made Side)) : List MessageEnvelope :=
  (stepsOf b past).filterMap fun t => t.output.answer.data?

/-- A message in one frame, without a number and without retries, for `dst` or for all. -/
structure SimpleMessage (dst : NodeId) (m : MessageEnvelope) : Prop where
  fits : FitsFrame m
  unnumbered : m.sequenceNum = 0
  once : m.reliabilityClass ≠ .reliableRetry
  addressed : envelopeAddressedTo m dst

instance (dst : NodeId) (m : MessageEnvelope) : Decidable (SimpleMessage dst m) :=
  decidable_of_iff (FitsFrame m ∧ m.sequenceNum = 0 ∧ m.reliabilityClass ≠ .reliableRetry ∧ envelopeAddressedTo m dst)
    ⟨fun h => ⟨h.1, h.2.1, h.2.2.1, h.2.2.2⟩, fun h => ⟨h.fits, h.unnumbered, h.once, h.addressed⟩⟩

/-- One side is given such messages alone, and they have not expired when the other side polls their frames. -/
structure SimpleCall (localId : Side → NodeId) (a : Side) (past : List (Made Side)) (m : Made Side) : Prop where
  sends : m.input.node = a → ∀ env nowUs, m.input.input.call = .send env nowUs →
    SimpleMessage (localId a.other) env ∧ ¬ DeliveryEngine.NeedsSequence (m.before a).cfg env
  lasts : m.input.node = a.other → ∀ timeoutMs nowUs frame, m.input.input.call = .receive timeoutMs nowUs →
    m.input.input.transport.inbound timeoutMs = .ok frame → envelopeIsData frame →
      timestampExpired frame.expiryTimeUs nowUs = false

theorem simpleMessage_filledIn {dst : NodeId} {env : MessageEnvelope} (h : SimpleMessage dst env)
    (hno : ¬ DeliveryEngine.NeedsSequence e.cfg env) (nowUs : UInt64) : SimpleMessage dst (e.filledIn env nowUs) := by
  refine ⟨h.fits, ?_, h.once, h.addressed⟩
  show (e.drawn env).1 = 0
  rw [DeliveryEngine.drawn, if_neg hno]
  exact h.unnumbered

/-- Nothing is lost between the one side and the other. -/
structure Lossless (localId : Side → NodeId) (a : Side) (past : List (Made Side)) (s : HarnessedEngines)
    (q : Side → List MessageEnvelope) : Prop where
  inv : DeliveryEngine.Inv DeliveryEngine.Unnumbered (s.engine a.other)
  given : ∀ m ∈ given a past, SimpleMessage (localId a.other) m
  queued : NoneQueued (s.engine a).retryManager
  stands : LocalSimPair.StandsFor s.wires q
  balance : confirmed a past = returned a.other past ++ (q a.other).filter fun env => envelopeIsData env

/-- What comes from the one side is ready for the other. -/
theorem Lossless.direct (h : Lossless localId a past s q) (known : Known localId entropy chan past wire s)
    (hlocal : ∀ a, localId a ≠ nodeIdInvalid) (hx : OnWire a past x) {nowUs : UInt64}
    (lasts : envelopeIsData x → timestampExpired x.expiryTimeUs nowUs = false) :
    DeliveryEngine.Direct (localId a.other) nowUs x := by
  rcases known.sound.wire a x hx with ⟨data, nowUs, rfl⟩ | ⟨m, hm, hframe⟩
  · refine ⟨Nat.zero_le 1, ⟨Nat.zero_lt_one, Nat.zero_le _, Nat.zero_le _⟩, hlocal a, fun hdata => ?_⟩
    cases hdata
  · obtain ⟨hname, hvalid⟩ : m.sourceId = localId a ∧ envelopeValid m :=
      ⟨((known.sound.remembers a).valid m hm).1, ((known.sound.remembers a).valid m hm).2⟩
    have hsimple := h.given m hm
    cases hframe with
    | piece large _ _ => exact absurd hsimple.fits large
    | whole _ same =>
      have hfields := same.1
      refine ⟨?_, ⟨?_, ?_, ?_⟩, ?_, fun hdata => ⟨?_, ?_, lasts hdata, ?_⟩⟩
      · rw [hfields]
        exact Nat.le_refl 1
      · rw [hfields]
        exact Nat.zero_lt_one
      · rw [hfields]
        exact Nat.le_of_ble_eq_true rfl
      · rw [hfields]
        dsimp only
        rw [total_toNat hvalid.2.1]
        exact hvalid.2.1
      · rw [hfields]
        exact hvalid.2.2
      · rw [hfields]
        exact hsimple.unnumbered
      · rw [hfields]
        exact hsimple.once
      · rw [hfields]
        exact hsimple.addressed

theorem confirmed_append (a : Side) (past : List (Made Side)) (m : Made Side) :
    confirmed a (past ++ [m]) = confirmed a past ++
      if m.input.node = a then (confirmed? m.output.answer).toList else [] := by
  unfold confirmed
  rw [stepsOf_append, List.filterMap_append]
  split
  · rw [List.filterMap_cons]
    cases confirmed? m.output.answer with
    | none => rfl
    | some env => rfl
  · rfl

theorem returned_append (b : Side) (past : List (Made Side)) (m : Made Side) :
    returned b (past ++ [m]) = returned b past ++
      if m.input.node = b then m.output.answer.data?.toList else [] := by
  unfold returned
  rw [stepsOf_append, List.filterMap_append]
  split
  · rw [List.filterMap_cons]
    cases m.output.answer.data? with
    | none => rfl
    | some env => rfl
  · rfl

/-- A call on the sending side: what is confirmed waits in the queue. -/
theorem Lossless.sends {results : List Result} {o : DeliveryEngine.Observation} {after : Side → DeliveryEngine}
    {p₁ p₂ : LocalSimPair} (h : Lossless localId a past s q)
    (poll : Poll a (s.engine a) call s.wires reply polled p₁)
    (runs : Network.exec ⟨a, call, [], fun _ => reply, results⟩ s.engine = .ok (o, after))
    (puts : Puts a o.effects p₁ put p₂)
    (simple : SimpleCall localId a past ⟨s.engine, ⟨a, call, [], fun _ => reply, results⟩, o, after⟩) :
    ∃ q', Lossless localId a (past ++ [⟨s.engine, ⟨a, call, [], fun _ => reply, results⟩, o, after⟩])
      ⟨after, p₂⟩ q' := by
  obtain ⟨e', hcall, rfl⟩ := exec_eq_ok.mp runs
  obtain ⟨q₁, hstands₁, htheirs₁, -⟩ := poll.stands h.stands
  obtain ⟨q₂, hstands₂, -, htheirs₂⟩ := puts.stands hstands₁
  obtain ⟨hqueued, hconfirms⟩ := exec_confirms h.queued
    (fun env nowUs hsend => ⟨(simple.sends rfl env nowUs hsend).1.fits, (simple.sends rfl env nowUs hsend).1.once⟩) hcall
  refine ⟨q₂, ?_, fun m hm => ?_, ?_, hstands₂, ?_⟩
  · dsimp only
    rw [Function.update_of_ne (LocalSimPair.other_ne a).symm]
    exact h.inv
  · unfold Network.given at hm
    rw [stepsOf_append, if_pos rfl, DeliveryEngine.offered_append] at hm
    rcases List.mem_append.mp hm with hbefore | hnow
    · exact h.given m hbefore
    · have hoffer := Option.mem_toList.mp hnow
      unfold DeliveryEngine.offer? at hoffer
      split at hoffer
      case h_2 _ => cases hoffer
      case h_1 env nowUs hsend =>
        split at hoffer
        case isTrue _ => cases hoffer
        case isFalse _ =>
          cases hoffer
          obtain ⟨hsimple, hno⟩ := simple.sends rfl env nowUs hsend
          exact simpleMessage_filledIn hsimple hno nowUs
  · dsimp only
    rw [Function.update_self]
    exact hqueued
  · rw [confirmed_append, returned_append, if_pos rfl, if_neg (LocalSimPair.other_ne a), List.append_nil, htheirs₂,
      htheirs₁, List.filter_append, hconfirms, h.balance, List.append_assoc]

/-- A call on the receiving side: what it polls it returns. -/
theorem Lossless.receives {results : List Result} {o : DeliveryEngine.Observation} {after : Side → DeliveryEngine}
    {p₁ p₂ : LocalSimPair} (h : Lossless localId a past s q) (known : Known localId entropy chan past wire s)
    (hlocal : ∀ a, localId a ≠ nodeIdInvalid) (poll : Poll a.other (s.engine a.other) call s.wires reply polled p₁)
    (runs : Network.exec ⟨a.other, call, [], fun _ => reply, results⟩ s.engine = .ok (o, after))
    (puts : Puts a.other o.effects p₁ put p₂)
    (simple : SimpleCall localId a past ⟨s.engine, ⟨a.other, call, [], fun _ => reply, results⟩, o, after⟩) :
    ∃ q', Lossless localId a (past ++ [⟨s.engine, ⟨a.other, call, [], fun _ => reply, results⟩, o, after⟩])
      ⟨after, p₂⟩ q' := by
  obtain ⟨e', hcall, rfl⟩ := exec_eq_ok.mp runs
  obtain ⟨q₁, hstands₁, -, hpoll⟩ := poll.stands h.stands
  obtain ⟨q₂, hstands₂, hmine₂, -⟩ := puts.stands hstands₁
  have hnode : a.other ≠ a := (LocalSimPair.other_ne a).symm
  have hon (frame : MessageEnvelope) (hreply : reply = .ok frame) : OnWire a past frame := by
    subst hreply
    have harrived := (known.arrived poll).1
    rw [LocalSimPair.other_other] at harrived
    exact harrived
  obtain ⟨hframes, hqueue⟩ : DeliveryEngine.Delivers DeliveryEngine.Unnumbered ⟨[], fun _ => reply, results⟩ ∧
      ((q a.other).filter fun env => envelopeIsData env) =
        o.answer.data?.toList ++ (q₁ a.other).filter fun env => envelopeIsData env := by
    rcases hpoll with ⟨looks, hpop⟩ | ⟨idle, hreply, hsame⟩
    · obtain ⟨timeoutMs, nowUs, rfl, hfresh⟩ := looks_receive looks
      have hdirect : ∀ frame, reply = .ok frame →
          DeliveryEngine.Direct (s.engine a.other).localId nowUs frame := by
        intro frame hreply
        rw [(known.sound.remembers a.other).name]
        exact h.direct known hlocal (hon frame hreply) (simple.lasts rfl timeoutMs nowUs frame rfl hreply)
      refine ⟨fun _ frame harrived hdata => ((hdirect frame harrived).data hdata).1, ?_⟩
      rw [DeliveryEngine.answer_polling h.inv hfresh hdirect hcall]
      exact popped_data hpop
    · subst hreply
      have hnothing : DeliveryEngine.Delivers DeliveryEngine.Unnumbered
          ⟨[], fun _ => .error .errTimeout, results⟩ := fun _ frame harrived => by cases harrived
      refine ⟨hnothing, ?_⟩
      rw [DeliveryEngine.answer_idle h.inv idle hnothing hcall, hsame]
      rfl
  have hinv := (DeliveryEngine.exec_delivered DeliveryEngine.headerProperty_unnumbered h.inv hframes hcall).1
  refine ⟨q₂, ?_, fun m hm => ?_, ?_, hstands₂, ?_⟩
  · dsimp only
    rw [Function.update_self]
    exact hinv
  · unfold Network.given at hm
    rw [stepsOf_append, if_neg hnode, List.append_nil] at hm
    exact h.given m hm
  · dsimp only
    rw [Function.update_of_ne hnode.symm]
    exact h.queued
  · rw [confirmed_append, returned_append, if_neg hnode, if_pos rfl, List.append_nil, hmine₂, h.balance, hqueue,
      List.append_assoc]

theorem lossless_init {channel : Side → Option ImpairmentConfig} {draws : Side → UInt64} (a : Side)
    (cfg : Side → ChannelConfig) (entropy : Side → UInt64) (hlocal : ∀ a, localId a ≠ nodeIdInvalid)
    (hinit : LocalSimPair.init channel draws = .ok p)
    (plain : ∀ t, PassThrough ((channel t).getD impairmentConfigDefault)) :
    Lossless localId a [] ⟨Network.init cfg localId entropy, p⟩ fun _ => [] := by
  refine ⟨DeliveryEngine.inv_init (cfg a.other) (entropy a.other) (hlocal a.other), fun m hm => ?_,
    fun i hi => ?_, LocalSimPair.standsFor_init plain hinit, rfl⟩
  · cases hm
  · cases (DeliveryEngine.remembers_init (cfg a) (localId a) (entropy a)).queued i hi

/-- Over harnesses that impair nothing, the data messages that one side's `send` confirmed are those that the other
side returned, in the same order, and then those that wait in the queue. -/
theorem harnessed_exact {channel : Side → Option ImpairmentConfig} {draws : Side → UInt64}
    (runs : Runs cfg localId entropy p past wire s) (hinit : LocalSimPair.init channel draws = .ok p)
    (plain : ∀ t, PassThrough ((channel t).getD impairmentConfigDefault))
    (hlocal : ∀ a, localId a ≠ nodeIdInvalid) (hdistinct : localId .left ≠ localId .right)
    (hfew : past.length ≤ Counter.period) (simple : Run.Lawful (SimpleCall localId a) past) :
    confirmed a past = returned a.other past ++
      (s.wires.get a.other).inbox.recvQueue.queued.filter fun env => envelopeIsData env := by
  obtain ⟨q, hlossless⟩ : ∃ q, Lossless localId a past s q := by
    induction runs with
    | start => exact ⟨_, lossless_init a cfg entropy hlocal hinit plain⟩
    | @call past wire polled put s side call reply results o after p₁ p₂ before poll runs puts ih =>
      rw [List.length_append] at hfew
      obtain ⟨q, hbefore⟩ := ih (by omega) simple.init
      by_cases hside : a = side
      · subst hside
        exact hbefore.sends poll runs puts simple.last
      · cases LocalSimPair.eq_other hside
        have hknown := (before.known hinit hlocal hdistinct (by omega)).1
        exact hbefore.receives hknown hlocal poll runs puts simple.last
  rw [hlossless.stands.queue]
  exact hlossless.balance

/-! ## An exchange -/

def unorderedConfig : ChannelConfig := ⟨.unordered, 1000, 3, 100⟩

/-- The left node sends three messages, and the right one takes two of them. -/
def handing : List Play :=
  ([1, 2, 3].map fun nowUs => ⟨.left, .send (DeliveryEngine.plainData 0 0 0) nowUs, nowUs⟩) ++
    [4, 5].map fun nowUs => ⟨.right, .receive 0 nowUs, nowUs⟩

/-- A call of that kind. -/
def Hands (m : Made Side) : Bool :=
  match m.input.input.call with
  | .send env _ =>
    decide (SimpleMessage 1 env ∧ ¬ DeliveryEngine.NeedsSequence (m.before .left).cfg env)
  | .receive timeoutMs nowUs =>
    match m.input.input.transport.inbound timeoutMs with
    | .ok frame => !timestampExpired frame.expiryTimeUs nowUs
    | .error _ => true
  | _ => true

theorem simpleCall_of_hands {past : List (Made Side)} (hhands : ∀ m ∈ past, Hands m = true) :
    Run.Lawful (SimpleCall sideIds .left) past := by
  intro before m after hsplit
  have hm : Hands m = true := hhands m (by simp [hsplit])
  refine ⟨fun _ env nowUs hcall => ?_, fun _ timeoutMs nowUs frame hcall harrived _ => ?_⟩
  · simp only [Hands, hcall, decide_eq_true_eq] at hm
    exact hm
  · simp only [Hands, hcall, harrived] at hm
    simpa using hm

theorem runs_plain : ∃ p past wire s,
    LocalSimPair.init (fun _ => some LocalSimPair.switchedOff) (fun _ => 0) = .ok p ∧
    Runs (fun _ => unorderedConfig) sideIds (fun _ => 7) p past wire s ∧ past.length = 5 ∧
    (confirmed .left past).length = 3 ∧ (returned .right past).length = 2 ∧
    Run.Lawful (SimpleCall sideIds .left) past := by
  have hplayed : Succeeds (LocalSimPair.init (fun _ => some LocalSimPair.switchedOff) fun _ => 0) fun p =>
      ∃ past ∈ play handing ⟨Network.init (fun _ => unorderedConfig) sideIds fun _ => 7, p⟩ [],
        past.length = 5 ∧ (confirmed .left past).length = 3 ∧ (returned .right past).length = 2 ∧
        ∀ m ∈ past, Hands m = true := by decide +kernel
  obtain ⟨p, hinit, past, hplay, hlength, hconfirmed, hreturned, hhands⟩ := hplayed.exists
  obtain ⟨wire, s, hruns⟩ := Runs.start.play hplay
  exact ⟨p, past, wire, s, hinit, hruns, hlength, hconfirmed, hreturned, simpleCall_of_hands hhands⟩

theorem harnessed_exact_plain : ∃ past s, (confirmed .left past).length = 3 ∧ (returned .right past).length = 2 ∧
    past.length ≤ Counter.period ∧ Run.Lawful (SimpleCall sideIds .left) past ∧
    confirmed .left past = returned .right past ++
      ((HarnessedEngines.wires s).get .right).inbox.recvQueue.queued.filter fun env => envelopeIsData env := by
  obtain ⟨p, past, wire, s, hinit, hruns, hlength, hconfirmed, hreturned, hsimple⟩ := runs_plain
  have hfew : past.length ≤ Counter.period := by
    rw [hlength]
    unfold Counter.period
    omega
  exact ⟨past, s, hconfirmed, hreturned, hfew, hsimple,
    harnessed_exact hruns hinit (fun _ => by decide) sideIds_valid (by decide) hfew hsimple⟩

end HarnessedEngines

end MessageEngine
