import MessageEngine.Laws.DeliveryEngine.Arrival

/-!
# What a send can do

`send` reserves, hands over frames and then keeps or gives back what it reserved. The laws about
sending compare the tables, the frames and the numbers before and after, so the whole call is taken
apart once here: `SendOutcome` lists what a call of `send` that returned has done, and `Carries`
what became of the frames.

## What is proved

- `sendFragments_carries`: what the frames of one message have to do with the result;
- `send_outcome`: the case list is complete.
-/

namespace MessageEngine

open Outcome Table OrderingBuffer

/-- The transport accepted a frame. -/
def AnyAccepted (effects : List Effect) : Prop := ∃ env, Effect.sent env .ok ∈ effects

theorem anyAccepted_append {xs ys : List Effect} :
    AnyAccepted (xs ++ ys) ↔ AnyAccepted xs ∨ AnyAccepted ys := by
  simp [AnyAccepted, exists_or]

theorem not_anyAccepted_nil : ¬ AnyAccepted [] := by
  simp [AnyAccepted]

theorem anyAccepted_sent {env : MessageEnvelope} {res : Result} :
    AnyAccepted [.sent env res] ↔ res = .ok := by
  simp [AnyAccepted, eq_comm]

theorem not_anyAccepted_expired {env : MessageEnvelope} : ¬ AnyAccepted [.expired env] := by
  simp [AnyAccepted]

/-- The message goes out in one frame. -/
def FitsFrame (env : MessageEnvelope) : Prop := env.payloadLength.toNat ≤ fragMaxPayloadBytes

instance (env : MessageEnvelope) : Decidable (FitsFrame env) := inferInstanceAs (Decidable (_ ≤ _))

namespace DeliveryEngine

variable {P : MessageEnvelope → Prop} {e e' : DeliveryEngine} {env : MessageEnvelope}
  {nowUs : UInt64} {res : Result}

/-! ## Frames -/

/-- What the transport was handed and what it answered, against the result. -/
structure Carries (env : MessageEnvelope) (nowUs : UInt64) (answers : List Result)
    (sent : List Effect) (res : Result) : Prop where
  late : ExpiredAt nowUs env →
    sent = [] ∧ res = if FitsFrame env then .errExpired else .errIo
  accepted : ¬ ExpiredAt nowUs env → (AnyAccepted sent ↔ answers.headD .ok = .ok)
  ok : res = .ok → AnyAccepted sent
  partly : .errIoPartial ∉ answers → (AnyAccepted sent ↔ res = .ok ∨ res = .errIoPartial)

/-- The engine after it handed over these frames, with these answers left. -/
def handed (e : DeliveryEngine) (sent : List Effect) (sendResults : List Result) : DeliveryEngine :=
  { e with transport := { e.transport with sendResults }, trace := e.trace ++ sent }

theorem sendMessage_handed (e : DeliveryEngine) (env : MessageEnvelope) :
    e.sendMessage env = (e.transport.sendResults.headD .ok,
      e.handed [.sent env (e.transport.sendResults.headD .ok)] e.transport.sendResults.tail) := by
  unfold sendMessage handed note
  cases h : e.transport.sendResults with
  | nil =>
    have hsame : { e.transport with sendResults := [] } = e.transport := by rw [← h]
    rw [List.tail_nil, hsame]
    rfl
  | cons r rest => rfl

theorem sendViaTransport_cases (h : e.sendViaTransport env nowUs = .ok (res, e')) :
    (ExpiredAt nowUs env ∧ res = .errExpired ∧ e' = e) ∨
    (¬ ExpiredAt nowUs env ∧ res = e.transport.sendResults.headD .ok ∧
      e' = e.handed [.sent env res] e.transport.sendResults.tail) := by
  obtain ⟨-, h⟩ := ensure_bind_eq_ok.mp h
  split at h
  case isTrue hlate =>
    cases h
    exact .inl ⟨hlate, rfl, rfl⟩
  case isFalse hfresh =>
    obtain ⟨-, h⟩ := ensure_bind_eq_ok.mp h
    rw [sendMessage_handed] at h
    cases h
    exact .inr ⟨hfresh, rfl, rfl⟩

theorem handed_handed (e : DeliveryEngine) (xs ys : List Effect) (rs rs' : List Result) :
    (e.handed xs rs).handed ys rs' = e.handed (xs ++ ys) rs' := by
  simp only [handed, List.append_assoc]

/-- The frames of a message that is not late: the result tells whether one was accepted. -/
theorem sendFragmentsLoop_cases (frags : List MessageEnvelope)
    (hfresh : ∀ frag ∈ frags, ¬ ExpiredAt nowUs frag) :
    ∀ (anySent : Bool) {e e' : DeliveryEngine} {res : Result},
      sendFragments.loop nowUs frags anySent e = .ok (res, e') →
      ∃ sent rest, e' = e.handed sent rest ∧
        (frags ≠ [] → (AnyAccepted sent ↔ e.transport.sendResults.headD .ok = .ok)) ∧
        (frags ≠ [] ∨ anySent = true → (anySent = true ∨ AnyAccepted sent ↔
          res = .ok ∨ res = .errIoPartial)) := by
  induction frags with
  | nil =>
    intro anySent e e' res h
    cases h
    refine ⟨[], e.transport.sendResults, ?_, fun hne => absurd rfl hne, ?_⟩
    · rw [handed, List.append_nil]
    · intro hor
      rcases hor with hne | hany
      · exact absurd rfl hne
      · simp [hany]
  | cons frag frags ih =>
    intro anySent e e' res h
    obtain ⟨⟨res₁, e₁⟩, hsend, h⟩ := bind_eq_ok.mp h
    rcases sendViaTransport_cases hsend with ⟨hlate, -⟩ | ⟨-, hres₁, rfl⟩
    · exact absurd hlate (hfresh frag List.mem_cons_self)
    dsimp only at h
    split at h
    case isTrue hfail =>
      cases h
      refine ⟨_, _, rfl, fun _ => ?_, fun _ => ?_⟩
      · rw [anyAccepted_sent, ← hres₁]
      · rw [anyAccepted_sent]
        cases anySent with
        | true => simp
        | false => simp [hfail]
    case isFalse hok =>
      have hok : res₁ = .ok := Classical.not_not.mp hok
      obtain ⟨sent, rest, rfl, -, hresult⟩ := ih (fun x hx => hfresh x (List.mem_cons_of_mem frag hx)) true h
      have haccepted : AnyAccepted ([.sent frag res₁] ++ sent) :=
        anyAccepted_append.mpr (.inl (anyAccepted_sent.mpr hok))
      refine ⟨_, rest, handed_handed _ _ _ _ _, fun _ => ?_, fun _ => ?_⟩
      · exact iff_of_true haccepted (hres₁.symm.trans hok)
      · exact iff_of_true (.inr haccepted) ((hresult (.inr rfl)).mp (.inl rfl))

theorem handed_nil (e : DeliveryEngine) : e.handed [] e.transport.sendResults = e := by
  rw [handed, List.append_nil]

theorem mem_of_headD {answers : List Result} (h : answers.headD .ok = res) (hne : res ≠ .ok) :
    res ∈ answers := by
  cases answers with
  | nil => exact absurd h.symm hne
  | cons a rest =>
    cases h
    exact List.mem_cons_self

theorem ne_nil_of_length {frags : List MessageEnvelope} (hlarge : ¬ FitsFrame env)
    (hlen : frags.length = pieceCount env.payloadLength.toNat) : frags ≠ [] := by
  intro hnil
  rw [hnil, List.length_nil] at hlen
  unfold FitsFrame fragMaxPayloadBytes at hlarge
  unfold pieceCount fragMaxPayloadBytes at hlen
  omega

/-- What became of the frames of a message, whatever its size. -/
theorem sendFragments_carries (h : e.sendFragments env nowUs = .ok (res, e')) :
    ∃ sent rest, e' = e.handed sent rest ∧ Carries env nowUs e.transport.sendResults sent res := by
  obtain ⟨hvalid, h⟩ := ensure_bind_eq_ok.mp h
  obtain ⟨fragment, hneeds, h⟩ := bind_eq_ok.mp h
  obtain ⟨-, hneeds⟩ := ensure_bind_eq_ok.mp hneeds
  cases hneeds
  split at h
  case isTrue hsmall =>
    have hfits : FitsFrame env := by simpa [FitsFrame] using hsmall
    rcases sendViaTransport_cases h with ⟨hlate, rfl, rfl⟩ | ⟨hfresh, hres, rfl⟩
    · refine ⟨[], _, (handed_nil e').symm, fun _ => ⟨rfl, (if_pos hfits).symm⟩,
        fun hfresh => absurd hlate hfresh, fun hok => (by cases hok), fun _ => ?_⟩
      simp [not_anyAccepted_nil]
    · refine ⟨_, _, rfl, fun hlate => absurd hlate hfresh, fun _ => ?_, anyAccepted_sent.mpr, fun hnot => ?_⟩
      · rw [anyAccepted_sent, hres]
      · have hne : res ≠ .errIoPartial := by
          intro heq
          rw [heq] at hres
          exact hnot (mem_of_headD hres.symm (by decide))
        simp [anyAccepted_sent, hne]
  case isFalse hlarge =>
    have hlarge : ¬ FitsFrame env := by simpa [FitsFrame] using hlarge
    obtain ⟨frags, hfrags, h⟩ := bind_eq_ok.mp h
    obtain ⟨frags', hspec, hlen, hpieces⟩ := fragmentMessage_spec hvalid (Nat.lt_of_not_le hlarge)
    cases hfrags.symm.trans hspec
    have hne : frags ≠ [] := ne_nil_of_length hlarge hlen
    rw [if_neg (fun hempty => hne (List.isEmpty_iff.mp hempty))] at h
    obtain ⟨-, h⟩ := ensure_bind_eq_ok.mp h
    have hexpiry : ∀ frag ∈ frags, (ExpiredAt nowUs frag ↔ ExpiredAt nowUs env) := by
      intro frag hfrag
      obtain ⟨k, hk, rfl⟩ := List.getElem_of_mem hfrag
      have hfields := (hpieces k hk).fields
      rw [List.get_eq_getElem] at hfields
      rw [hfields]
    by_cases hlate : ExpiredAt nowUs env
    · cases frags with
      | nil => exact absurd rfl hne
      | cons frag frags =>
        obtain ⟨⟨res₁, e₁⟩, hsend, hrest⟩ := bind_eq_ok.mp h
        rcases sendViaTransport_cases hsend with ⟨-, rfl, rfl⟩ | ⟨hfresh, -⟩
        · cases hrest
          refine ⟨[], _, (handed_nil _).symm, fun _ => ⟨rfl, (if_neg hlarge).symm⟩,
            fun hfresh => absurd hlate hfresh, fun hok => (by cases hok), fun _ => ?_⟩
          simp [not_anyAccepted_nil]
        · exact absurd ((hexpiry frag List.mem_cons_self).mpr hlate) hfresh
    · obtain ⟨sent, rest, rfl, haccepted, hresult⟩ :=
        sendFragmentsLoop_cases frags (fun frag hfrag h => hlate ((hexpiry frag hfrag).mp h)) false h
      have hresult := hresult (.inl hne)
      simp only [Bool.false_eq_true, false_or] at hresult
      exact ⟨sent, rest, rfl, fun h => absurd h hlate, fun _ => haccepted hne,
        fun hok => hresult.mpr (.inl hok), fun _ => hresult⟩

/-! ## The two records of a failure -/

/-- The event and the counter of a failed send. -/
theorem recordSendFailure_cases (h : e.recordSendFailure env res = .ok e') :
    (res = .errExpired ∧ ∃ events, e.events.push
        ⟨env.messageId, env.timestampUs, env.destinationId, .expiryDrop, .errExpired⟩ = .ok events ∧
      e' = { e with
        stats := { e.stats with msgsDroppedExpired := e.stats.msgsDroppedExpired + 1 }
        trace := e.trace ++ [.expired env], events }) ∨
    (res ≠ .errExpired ∧ ∃ events, e' = { e with events }) := by
  obtain ⟨-, h⟩ := ensure_bind_eq_ok.mp h
  split at h
  case isTrue hlate =>
    obtain ⟨-, h⟩ := ensure_bind_eq_ok.mp h
    obtain ⟨events, hpush, h⟩ := bind_eq_ok.mp h
    cases h
    exact .inl ⟨hlate, events, hlate ▸ hpush, rfl⟩
  case isFalse hother =>
    obtain ⟨-, h⟩ := ensure_bind_eq_ok.mp h
    obtain ⟨events, -, h⟩ := bind_eq_ok.mp h
    cases h
    exact .inr ⟨hother, events, rfl⟩

/-! ## Numbers -/

/-- The next number of a destination in the table, and the table after it was drawn. -/
def draw (v : Vector SeqState ackTrackerCapacity) (dst : NodeId) :
    UInt32 × Vector SeqState ackTrackerCapacity :=
  match firstSlot? (fun s => s.active && s.dst == dst) v with
  | some i =>
    (v[i].nextSeq, v.set i { v[i] with nextSeq := if v[i].nextSeq + 1 = 0 then 1 else v[i].nextSeq + 1 } i.isLt)
  | none =>
    match firstSlot? (fun s => !s.active) v with
    | some i => (1, v.set i ⟨dst, 2, true⟩ i.isLt)
    | none => (0, v)

theorem nextSeqFor_eq {dst : NodeId} {seq : UInt32} (h : e.nextSeqFor dst = .ok (seq, e')) :
    seq = (draw e.seqState dst).1 ∧ e' = { e with seqState := (draw e.seqState dst).2 } := by
  obtain ⟨-, h⟩ := ensure_bind_eq_ok.mp h
  unfold draw
  cases hfound : firstSlot? (fun s => s.active && s.dst == dst) e.seqState with
  | some i =>
    rw [hfound] at h
    cases h
    exact ⟨rfl, rfl⟩
  | none =>
    rw [hfound] at h
    dsimp only at h ⊢
    cases hfree : firstSlot? (fun s => !s.active) e.seqState with
    | some i =>
      rw [hfree] at h
      cases h
      exact ⟨rfl, rfl⟩
    | none =>
      rw [hfree] at h
      cases h
      exact ⟨rfl, rfl⟩

/-- The number that a message gets, and the table after it. -/
def drawn (e : DeliveryEngine) (env : MessageEnvelope) : UInt32 × Vector SeqState ackTrackerCapacity :=
  if NeedsSequence e.cfg env then draw e.seqState env.destinationId else (env.sequenceNum, e.seqState)

/-- The envelope as `send` fills it in. -/
def filledIn (e : DeliveryEngine) (env : MessageEnvelope) (nowUs : UInt64) : MessageEnvelope :=
  { env with
    sourceId := e.localId, messageId := e.idGen.next, timestampUs := nowUs
    sequenceNum := (e.drawn env).1, fragmentIndex := 0, fragmentCount := 1
    totalPayloadLength := env.payloadLength.toUInt16 }

/-- The engine once the envelope is filled in. -/
def prepared (e : DeliveryEngine) (env : MessageEnvelope) (nowUs : UInt64) (idGen : MessageIdGen) :
    DeliveryEngine :=
  { e with lastNowUs := nowUs, idGen, seqState := (e.drawn env).2 }

theorem prepareEnvelope_eq {out : MessageEnvelope}
    (h : { e with lastNowUs := nowUs }.prepareEnvelope env nowUs = .ok (out, e')) :
    ∃ idGen, out = e.filledIn env nowUs ∧ e' = e.prepared env nowUs idGen := by
  obtain ⟨⟨messageId, idGen⟩, htake, h⟩ := bind_eq_ok.mp h
  have hid : messageId = e.idGen.next := by
    obtain ⟨-, htake⟩ := ensure_bind_eq_ok.mp htake
    cases htake
    rfl
  dsimp only at h
  rw [ite_bind] at h
  obtain ⟨⟨seq, e₁⟩, hseq, h⟩ := bind_eq_ok.mp h
  cases h
  cases hid
  refine ⟨idGen, ?_⟩
  unfold filledIn prepared drawn
  by_cases hneeds : NeedsSequence e.cfg env
  · obtain ⟨rfl, rfl⟩ := nextSeqFor_eq ((if_pos hneeds).symm.trans hseq)
    rw [if_pos hneeds]
    exact ⟨rfl, rfl⟩
  · cases (if_neg hneeds).symm.trans hseq
    rw [if_neg hneeds]
    exact ⟨rfl, rfl⟩

/-! ## The whole call -/

/-- Everything a call of `send` that returned can have done: it answers the result and the envelope
as it was filled in. -/
inductive SendOutcome (e : DeliveryEngine) (env : MessageEnvelope) (nowUs : UInt64) :
    Result → MessageEnvelope → DeliveryEngine → Prop where
  /-- The time was refused. -/
  | refused (stale : e.Stale nowUs) : SendOutcome e env nowUs .errInvalid env e
  /-- A table was full. -/
  | unbooked {idGen : MessageIdGen} {res : Result} {t : AckTracker} {m : RetryManager}
      {e' : DeliveryEngine} (fresh : ¬ e.Stale nowUs)
      (reserve : reserveBookkeeping e.ackTracker e.retryManager (e.filledIn env nowUs) e.cfg nowUs =
        .ok (res, t, m)) (failed : res ≠ .ok)
      (record : recordSendFailure { e.prepared env nowUs idGen with ackTracker := t, retryManager := m }
        (e.filledIn env nowUs) res = .ok e') :
      SendOutcome e env nowUs res (e.filledIn env nowUs) e'
  /-- A frame was not accepted, or the message was late. -/
  | failed {idGen : MessageIdGen} {res reported : Result} {t t' : AckTracker} {m m' : RetryManager}
      {sent : List Effect} {rest : List Result} {e' : DeliveryEngine} (fresh : ¬ e.Stale nowUs)
      (reserve : reserveBookkeeping e.ackTracker e.retryManager (e.filledIn env nowUs) e.cfg nowUs =
        .ok (.ok, t, m))
      (carries : Carries (e.filledIn env nowUs) nowUs e.transport.sendResults sent res)
      (failed : res ≠ .ok)
      (handle : handleSendFragmentsFailure t m (e.filledIn env nowUs) res = .ok (reported, t', m'))
      (record : recordSendFailure ({ e.prepared env nowUs idGen with
          ackTracker := t', retryManager := m' }.handed sent rest) (e.filledIn env nowUs) reported = .ok e') :
      SendOutcome e env nowUs reported (e.filledIn env nowUs) e'
  /-- Every frame was accepted. -/
  | sent {idGen : MessageIdGen} {t : AckTracker} {m : RetryManager} {sent : List Effect}
      {rest : List Result} {stats : DeliveryStats} {events : DeliveryEventRing} (fresh : ¬ e.Stale nowUs)
      (reserve : reserveBookkeeping e.ackTracker e.retryManager (e.filledIn env nowUs) e.cfg nowUs =
        .ok (.ok, t, m))
      (carries : Carries (e.filledIn env nowUs) nowUs e.transport.sendResults sent .ok) :
      SendOutcome e env nowUs .ok (e.filledIn env nowUs) { { e.prepared env nowUs idGen with
        ackTracker := t, retryManager := m }.handed sent rest with stats, events }

theorem send_outcome {out : MessageEnvelope} (h : e.send env nowUs = .ok ((res, out), e')) :
    SendOutcome e env nowUs res out e' := by
  obtain ⟨-, h⟩ := ensure_bind_eq_ok.mp h
  split at h
  case isTrue hstale =>
    cases h
    exact .refused hstale
  case isFalse hfresh =>
  obtain ⟨⟨out₁, e₁⟩, hprepare, h⟩ := bind_eq_ok.mp h
  obtain ⟨idGen, rfl, rfl⟩ := prepareEnvelope_eq hprepare
  obtain ⟨⟨bookRes, t, m⟩, hreserve, h⟩ := bind_eq_ok.mp h
  dsimp only at h
  split at h
  case isTrue hfailed =>
    obtain ⟨e₂, hrecord, h⟩ := bind_eq_ok.mp h
    cases h
    exact .unbooked hfresh hreserve hfailed hrecord
  case isFalse hbooked =>
  have hbooked : bookRes = .ok := Classical.not_not.mp hbooked
  cases hbooked
  obtain ⟨⟨sendRes, e₂⟩, hsend, h⟩ := bind_eq_ok.mp h
  obtain ⟨sent, rest, rfl, hcarries⟩ := sendFragments_carries hsend
  dsimp only at h
  split at h
  case isTrue hfailed =>
    obtain ⟨⟨reported, t', m'⟩, hhandle, h⟩ := bind_eq_ok.mp h
    obtain ⟨e₃, hrecord, h⟩ := bind_eq_ok.mp h
    cases h
    exact .failed hfresh hreserve hcarries hfailed hhandle hrecord
  case isFalse hok =>
    have hok : sendRes = .ok := Classical.not_not.mp hok
    cases hok
    obtain ⟨e₃, hemit, h⟩ := bind_eq_ok.mp h
    obtain ⟨-, hemit⟩ := ensure_bind_eq_ok.mp hemit
    obtain ⟨events, -, hemit⟩ := bind_eq_ok.mp hemit
    cases hemit
    obtain ⟨-, h⟩ := ensure_bind_eq_ok.mp h
    obtain ⟨-, h⟩ := ensure_bind_eq_ok.mp h
    cases h
    exact .sent hfresh hreserve hcarries

end DeliveryEngine

end MessageEngine
