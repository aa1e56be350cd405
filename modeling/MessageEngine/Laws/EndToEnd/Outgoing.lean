import MessageEngine.Lib.Counter
import MessageEngine.Laws.Conservation.Collection
import MessageEngine.Laws.Outbound.Booking
import MessageEngine.Laws.Runs.Custody
import MessageEngine.Laws.EndToEnd.Parts

/-!
# What an engine puts on the wire

An engine hands frames to its transport from three places: `send`, the retransmissions of `pump_retries`, and
the acknowledgements of `receive`. The frames of the first two are frames of messages that the application
gave to `send`, as `send` filled them in (`offer?`), each with an identifier of its own. What waits to be
retransmitted is such a message, whole, and is cut again each time.

## What is proved

- `sendFragments_frames`: what goes out for a message is the message or its pieces;
- `Speaks.exec`: what one call adds to what the engine has said;
- `speaks_offered`: the property of whole runs.
-/

namespace MessageEngine

open Outcome Table

/-- A message as `send` fills it in: the whole of it in one fragment. -/
structure Whole (m : MessageEnvelope) : Prop where
  fragmentIndex : m.fragmentIndex = 0
  fragmentCount : m.fragmentCount = 1
  total : m.totalPayloadLength = m.payloadLength.toUInt16

/-- A frame that a message goes out in: the message, if it fits, and one of its pieces if not. -/
inductive FrameOf (m : MessageEnvelope) : MessageEnvelope → Prop where
  | whole {f : MessageEnvelope} (fits : FitsFrame m) (same : Restored m f) : FrameOf m f
  | piece {f : MessageEnvelope} {k : Fin fragMaxCount} (large : ¬ FitsFrame m)
      (below : (k : Nat) < pieceCount m.payloadLength.toNat) (piece : IsPiece m k f) : FrameOf m f

theorem Whole.restored {m : MessageEnvelope} (h : Whole m) : Restored m m := by
  refine ⟨?_, rfl⟩
  rw [← h.total, ← h.fragmentCount, ← h.fragmentIndex]

namespace DeliveryEngine

variable {S : MessageEnvelope → Prop} {e e₁ e₂ e' : DeliveryEngine} {env m : MessageEnvelope} {nowUs : UInt64}
  {res : Result}

/-! ## Frames -/

/-- Whatever was handed over in between belongs to a message of `S`. -/
def Hands (S : MessageEnvelope → Prop) (e e' : DeliveryEngine) : Prop :=
  ∀ x res, Effect.sent x res ∈ e'.trace → Effect.sent x res ∈ e.trace ∨ ∃ m, S m ∧ FrameOf m x

theorem Hands.refl (e : DeliveryEngine) : Hands S e e := fun _ _ => .inl

theorem Hands.trans (h : Hands S e e₁) (h' : Hands S e₁ e₂) : Hands S e e₂ := by
  intro x res hsent
  rcases h' x res hsent with hsent | hframe
  · exact h x res hsent
  · exact .inr hframe

theorem Hands.of_trace (h : e'.trace = e.trace) : Hands S e e' := by
  intro x res hsent
  rw [h] at hsent
  exact .inl hsent

theorem sendViaTransport_hands (hS : S m) (hframe : FrameOf m env)
    (h : e.sendViaTransport env nowUs = .ok (res, e')) : Hands S e e' := by
  rcases sendViaTransport_cases h with ⟨-, -, rfl⟩ | ⟨-, -, rfl⟩
  · exact .refl e'
  · intro x r hsent
    rcases List.mem_append.mp hsent with hsent | hsent
    · exact .inl hsent
    · cases List.mem_singleton.mp hsent
      exact .inr ⟨m, hS, hframe⟩

theorem sendFragmentsLoop_hands (hS : S m) (frags : List MessageEnvelope) (hframes : ∀ f ∈ frags, FrameOf m f) :
    ∀ {anySent : Bool} {e e' : DeliveryEngine} {res : Result},
      sendFragments.loop nowUs frags anySent e = .ok (res, e') → Hands S e e' := by
  induction frags with
  | nil =>
    intro anySent e e' res h
    cases h
    exact .refl e
  | cons frag frags ih =>
    intro anySent e e' res h
    obtain ⟨⟨res₁, e₁⟩, hsend, h⟩ := bind_eq_ok.mp h
    have hfirst := sendViaTransport_hands hS (hframes frag List.mem_cons_self) hsend
    dsimp only at h
    split at h
    · cases h
      exact hfirst
    · exact hfirst.trans (ih (fun f hf => hframes f (List.mem_cons_of_mem frag hf)) h)

/-- A message goes out as itself or in its pieces. -/
theorem sendFragments_frames (hS : S m) (whole : Whole m) (h : e.sendFragments m nowUs = .ok (res, e')) :
    Hands S e e' := by
  obtain ⟨hvalid, h⟩ := ensure_bind_eq_ok.mp h
  obtain ⟨fragment, hneeds, h⟩ := bind_eq_ok.mp h
  obtain ⟨-, hneeds⟩ := ensure_bind_eq_ok.mp hneeds
  cases hneeds
  split at h
  case isTrue hsmall =>
    have hfits : FitsFrame m := by simpa [FitsFrame] using hsmall
    exact sendViaTransport_hands hS (.whole hfits whole.restored) h
  case isFalse hlarge =>
    have hlarge : ¬ FitsFrame m := by simpa [FitsFrame] using hlarge
    obtain ⟨frags, hfrags, h⟩ := bind_eq_ok.mp h
    obtain ⟨frags', hspec, hlen, hpieces⟩ := fragmentMessage_spec hvalid (Nat.lt_of_not_le hlarge)
    cases hfrags.symm.trans hspec
    split at h
    · cases h
      exact .refl e
    · obtain ⟨hfew, h⟩ := ensure_bind_eq_ok.mp h
      refine sendFragmentsLoop_hands hS frags (fun f hf => ?_) h
      obtain ⟨k, hk, rfl⟩ := List.getElem_of_mem hf
      exact .piece (k := ⟨k, Nat.lt_of_lt_of_le hk hfew⟩) hlarge (hlen ▸ hk) (hpieces k hk)

/-! ## What waits to be retransmitted -/

/-- Every message that waits to be retransmitted is in `S`. -/
def Queued (S : MessageEnvelope → Prop) (m : RetryManager) : Prop :=
  ∀ i : Fin ackTrackerCapacity, m.slots[i].active = true → S m.slots[i].env

theorem Queued.mono {T : MessageEnvelope → Prop} {t : RetryManager} (h : Queued S t) (hmono : ∀ x, S x → T x) :
    Queued T t :=
  fun i hi => hmono _ (h i hi)

/-- A table that only lost entries. -/
theorem Queued.of_kept {t t' : RetryManager} (h : Queued S t)
    (kept : ∀ i : Fin ackTrackerCapacity, t'.slots[i].active = true → t'.slots[i] = t.slots[i]) : Queued S t' := by
  intro i hi
  have hsame := kept i hi
  rw [hsame] at hi ⊢
  exact h i hi

theorem Queued.schedule {t t' : RetryManager} {maxRetries backoffMs : UInt32} (h : Queued S t) (hS : S env)
    (hrun : t.schedule env maxRetries backoffMs nowUs = .ok (res, t')) : Queued S t' := by
  rcases RetryManager.schedule_cases hrun with ⟨-, k, -, hslots, -, -⟩ | ⟨-, rfl, -⟩
  · intro i hi
    rw [hslots, getElem_set_fin] at hi ⊢
    split
    case isTrue _ => exact hS
    case isFalse hne =>
      rw [if_neg hne] at hi
      exact h i hi
  · exact h

theorem Queued.cancel {t t' : RetryManager} {src : NodeId} {msgId : UInt64} (h : Queued S t)
    (hrun : t.cancel src msgId = .ok (res, t')) : Queued S t' := by
  rcases RetryManager.cancel_cases hrun with ⟨-, k, -, rfl⟩ | ⟨-, -, rfl⟩
  · apply h.of_kept
    intro i hi
    unfold RetryManager.release at hi ⊢
    rw [getElem_set_fin] at hi ⊢
    split
    case isTrue hk =>
      rw [if_pos hk] at hi
      cases hi
    case isFalse _ => rfl
  · exact h

theorem Queued.reserve {t t' : AckTracker} {q q' : RetryManager} {cfg : ChannelConfig} (h : Queued S q) (hS : S env)
    (hrun : reserveBookkeeping t q env cfg nowUs = .ok (res, t', q')) : Queued S q' := by
  obtain ⟨-, hrun⟩ := ensure_bind_eq_ok.mp hrun
  obtain ⟨-, hrun⟩ := ensure_bind_eq_ok.mp hrun
  split at hrun
  · cases hrun
    exact h
  · obtain ⟨⟨trackRes, t₁⟩, -, hrun⟩ := bind_eq_ok.mp hrun
    dsimp only at hrun
    split at hrun
    · cases hrun
      exact h
    · split at hrun
      · cases hrun
        exact h
      · obtain ⟨⟨schedRes, q₁⟩, hschedule, hrun⟩ := bind_eq_ok.mp hrun
        have hqueued := h.schedule hS hschedule
        dsimp only at hrun
        split at hrun
        · obtain ⟨⟨_, t₂⟩, -, hrun⟩ := bind_eq_ok.mp hrun
          cases hrun
          exact hqueued
        · cases hrun
          exact hqueued

theorem Queued.handle {t t' : AckTracker} {q q' : RetryManager} {reported : Result} (h : Queued S q)
    (hrun : handleSendFragmentsFailure t q env res = .ok (reported, t', q')) : Queued S q' := by
  obtain ⟨-, hrun⟩ := ensure_bind_eq_ok.mp hrun
  obtain ⟨-, hrun⟩ := ensure_bind_eq_ok.mp hrun
  split at hrun
  · cases hrun
    exact h
  · split at hrun
    · obtain ⟨⟨t₁, q₁⟩, hroll, hrun⟩ := bind_eq_ok.mp hrun
      cases hrun
      obtain ⟨-, hcancel⟩ := rollbackOnTransportFailure_cases hroll
      split at hcancel
      · obtain ⟨r, hcancel⟩ := hcancel
        exact h.cancel hcancel
      · rw [hcancel]
        exact h
    · cases hrun
      exact h

/-- A collection hands out what waits, and keeps it. -/
theorem Queued.collect {q q' : RetryManager} {bufCap : Nat} {out : List MessageEnvelope} (h : Queued S q)
    (hrun : q.collectDue nowUs bufCap = .ok (out, q')) : (∀ x ∈ out, S x) ∧ Queued S q' := by
  have hcollects := RetryManager.collectDue_collects hrun
  refine ⟨fun x hx => ?_, fun i hi => ?_⟩
  · rw [hcollects.out] at hx
    obtain ⟨i, hi, rfl⟩ := List.mem_map.mp hx
    exact h i (RetryManager.RetryEntry.ripe_iff.mp (RetryManager.mem_chosen hi)).1
  · rw [hcollects.slots i] at hi ⊢
    split
    case isTrue hchosen => exact h i (RetryManager.RetryEntry.ripe_iff.mp (RetryManager.mem_chosen hchosen)).1
    case isFalse hchosen =>
      rw [if_neg hchosen] at hi
      obtain ⟨hsame, hactive, -⟩ := RetryManager.RetryEntry.reaped_active hi
      rw [hsame]
      exact h i hactive

/-! ## The calls -/

/-- What the calls that send do to the engine, when all they are given to send is in `S`. -/
structure Outgoing (S : MessageEnvelope → Prop) (e e' : DeliveryEngine) : Prop where
  localId : e'.localId = e.localId
  idGen : e'.idGen = e.idGen
  reassembly : e'.reassembly = e.reassembly
  queued : Queued S e.retryManager → Queued S e'.retryManager
  hands : Hands S e e'

theorem Outgoing.trans (h : Outgoing S e e₁) (h' : Outgoing S e₁ e₂) : Outgoing S e e₂ where
  localId := h'.localId.trans h.localId
  idGen := h'.idGen.trans h.idGen
  reassembly := h'.reassembly.trans h.reassembly
  queued := fun hq => h'.queued (h.queued hq)
  hands := h.hands.trans h'.hands

/-- Nothing was handed over, and nothing was queued. -/
theorem Outgoing.of_parts {xs : List Effect} (hlocal : e'.localId = e.localId) (hid : e'.idGen = e.idGen)
    (hreassembly : e'.reassembly = e.reassembly) (hretries : e'.retryManager = e.retryManager)
    (htrace : e'.trace = e.trace ++ xs) (quiet : ∀ x r, Effect.sent x r ∉ xs) : Outgoing S e e' := by
  refine ⟨hlocal, hid, hreassembly, fun hq => hretries ▸ hq, fun x r hsent => ?_⟩
  rw [htrace] at hsent
  rcases List.mem_append.mp hsent with hsent | hsent
  · exact .inl hsent
  · exact absurd hsent (quiet x r)

theorem Outgoing.unheard (hlocal : e'.localId = e.localId) (hid : e'.idGen = e.idGen)
    (hreassembly : e'.reassembly = e.reassembly) (hretries : e'.retryManager = e.retryManager)
    (htrace : e'.trace = e.trace) : Outgoing S e e' := by
  have hempty : e'.trace = e.trace ++ [] := by rw [htrace, List.append_nil]
  apply Outgoing.of_parts hlocal hid hreassembly hretries hempty
  intro x r hsent
  cases hsent

theorem Outgoing.refl (e : DeliveryEngine) : Outgoing S e e :=
  .unheard rfl rfl rfl rfl rfl

theorem outgoing_emitEvent {kind : DeliveryEventKind} {messageId : UInt64} {nodeId : NodeId} {timestampUs : UInt64}
    {result : Result} (h : e.emitEvent kind messageId nodeId timestampUs result = .ok e') : Outgoing S e e' := by
  obtain ⟨-, h⟩ := ensure_bind_eq_ok.mp h
  obtain ⟨events, -, h⟩ := bind_eq_ok.mp h
  cases h
  exact .unheard rfl rfl rfl rfl rfl

theorem outgoing_recordSendFailure (h : e.recordSendFailure env res = .ok e') : Outgoing S e e' := by
  rcases recordSendFailure_cases h with ⟨-, events, -, rfl⟩ | ⟨-, events, rfl⟩
  · refine .of_parts rfl rfl rfl rfl rfl fun x r hsent => ?_
    cases List.mem_singleton.mp hsent
  · exact .unheard rfl rfl rfl rfl rfl

theorem outgoing_sendFragments (hS : S m) (whole : Whole m) (h : e.sendFragments m nowUs = .ok (res, e')) :
    Outgoing S e e' := by
  have hands := sendFragments_frames hS whole h
  obtain ⟨sent, rest, rfl, -⟩ := sendFragments_carries h
  exact ⟨rfl, rfl, rfl, id, hands⟩

theorem outgoing_sendPrepared {answer : Result × MessageEnvelope} (hS : S m) (whole : Whole m)
    (h : e.sendPrepared m nowUs = .ok (answer, e')) : Outgoing S e e' := by
  obtain ⟨⟨bookRes, ackTracker, retryManager⟩, hreserve, h⟩ := bind_eq_ok.mp h
  dsimp only at h
  have hreserved : Outgoing S e { e with ackTracker, retryManager } :=
    ⟨rfl, rfl, rfl, fun hq => hq.reserve hS hreserve, .of_trace rfl⟩
  split at h
  · obtain ⟨e₂, hfail, h⟩ := bind_eq_ok.mp h
    cases h
    exact hreserved.trans (outgoing_recordSendFailure hfail)
  · obtain ⟨⟨sendRes, e₂⟩, hsend, h⟩ := bind_eq_ok.mp h
    have hsent := hreserved.trans (outgoing_sendFragments hS whole hsend)
    dsimp only at h
    split at h
    · obtain ⟨⟨reported, ackTracker, retryManager⟩, hhandle, h⟩ := bind_eq_ok.mp h
      obtain ⟨e₃, hfail, h⟩ := bind_eq_ok.mp h
      cases h
      have hhandled : Outgoing S e₂ { e₂ with ackTracker, retryManager } :=
        ⟨rfl, rfl, rfl, fun hq => hq.handle hhandle, .of_trace rfl⟩
      exact (hsent.trans hhandled).trans (outgoing_recordSendFailure hfail)
    · obtain ⟨e₃, hemit, h⟩ := bind_eq_ok.mp h
      obtain ⟨-, h⟩ := ensure_bind_eq_ok.mp h
      obtain ⟨-, h⟩ := ensure_bind_eq_ok.mp h
      cases h
      have hcounted : Outgoing S e₂ { e₂ with stats := { e₂.stats with msgsSent := e₂.stats.msgsSent + 1 } } :=
        .unheard rfl rfl rfl rfl rfl
      exact (hsent.trans hcounted).trans (outgoing_emitEvent hemit)

/-- The identifier of a message is drawn from the generator. -/
theorem prepareEnvelope_draws {out : MessageEnvelope}
    (h : { e with lastNowUs := nowUs }.prepareEnvelope env nowUs = .ok (out, e')) :
    out = e.filledIn env nowUs ∧ e'.idGen.next = Counter.next e.idGen.next ∧
      Outgoing S { e with idGen := e'.idGen } e' := by
  obtain ⟨idGen, hout, hsame⟩ := prepareEnvelope_eq h
  obtain ⟨⟨messageId, idGen'⟩, htake, h⟩ := bind_eq_ok.mp h
  obtain ⟨-, htake⟩ := ensure_bind_eq_ok.mp htake
  cases htake
  dsimp only at h
  rw [ite_bind] at h
  obtain ⟨⟨seq, e₁⟩, hseq, h⟩ := bind_eq_ok.mp h
  cases h
  have hid : e₁.idGen.next = Counter.next e.idGen.next := by
    split at hseq
    · obtain ⟨-, rfl⟩ := nextSeqFor_eq hseq
      rfl
    · cases hseq
      rfl
  refine ⟨hout, hid, ?_⟩
  rw [hsame]
  exact .unheard rfl rfl rfl rfl rfl

theorem whole_filledIn (e : DeliveryEngine) (env : MessageEnvelope) (nowUs : UInt64) :
    Whole (e.filledIn env nowUs) := ⟨rfl, rfl, rfl⟩

/-- A `send` that the guard lets through draws an identifier and sends the message that it filled in. -/
theorem send_outgoing {answer : Result × MessageEnvelope} (hfresh : ¬ e.Stale nowUs)
    (hS : S (e.filledIn env nowUs)) (h : e.send env nowUs = .ok (answer, e')) :
    e'.idGen.next = Counter.next e.idGen.next ∧ Outgoing S { e with idGen := e'.idGen } e' := by
  obtain ⟨-, h⟩ := ensure_bind_eq_ok.mp h
  rw [if_neg (show ¬ (e.lastNowUs > 0 ∧ nowUs < e.lastNowUs) from hfresh)] at h
  obtain ⟨⟨out, e₁⟩, hprepare, h⟩ := bind_eq_ok.mp h
  obtain ⟨rfl, hid, hprepared⟩ := prepareEnvelope_draws (S := S) hprepare
  have hsent := outgoing_sendPrepared hS (whole_filledIn e env nowUs) h
  rw [hsent.idGen]
  exact ⟨hid, hprepared.trans hsent⟩

theorem outgoing_pumpLoop (collected : List MessageEnvelope) (hS : ∀ x ∈ collected, S x)
    (whole : ∀ x ∈ collected, Whole x) :
    ∀ {e e' : DeliveryEngine}, pumpRetries.loop nowUs collected e = .ok e' → Outgoing S e e' := by
  induction collected with
  | nil =>
    intro e e' h
    cases h
    exact .refl e
  | cons env rest ih =>
    intro e e' h
    obtain ⟨⟨res, e₁⟩, hsend, h⟩ := bind_eq_ok.mp h
    have hfirst := outgoing_sendFragments (hS env List.mem_cons_self) (whole env List.mem_cons_self) hsend
    dsimp only at h
    rw [ite_bind] at h
    obtain ⟨e₂, hemit, h⟩ := bind_eq_ok.mp h
    have hrest := ih (fun x hx => hS x (List.mem_cons_of_mem env hx))
      (fun x hx => whole x (List.mem_cons_of_mem env hx)) h
    split at hemit
    · cases hemit
      exact hfirst.trans hrest
    · exact (hfirst.trans (outgoing_emitEvent hemit)).trans hrest

/-- A retransmission sends what was queued. -/
theorem pumpRetries_outgoing {n : Nat} (whole : ∀ x, S x → Whole x) (queued : Queued S e.retryManager)
    (h : e.pumpRetries nowUs = .ok (n, e')) : Outgoing S e e' := by
  obtain ⟨-, h⟩ := ensure_bind_eq_ok.mp h
  split at h
  · cases h
    exact .refl e
  · obtain ⟨⟨collected, retryManager⟩, hcollect, h⟩ := bind_eq_ok.mp h
    obtain ⟨-, h⟩ := ensure_bind_eq_ok.mp h
    obtain ⟨e₁, hloop, h⟩ := bind_eq_ok.mp h
    cases h
    obtain ⟨hcollected, hqueued⟩ := queued.collect hcollect
    have hstamped : Outgoing S e { e with lastNowUs := nowUs, retryManager } :=
      ⟨rfl, rfl, rfl, fun _ => hqueued, .of_trace rfl⟩
    exact hstamped.trans (outgoing_pumpLoop collected hcollected (fun x hx => whole x (hcollected x hx)) hloop)

/-- Whatever is sent again, the fragments that wait stay. -/
theorem pumpLoop_reassembly (collected : List MessageEnvelope) :
    ∀ {e e' : DeliveryEngine}, pumpRetries.loop nowUs collected e = .ok e' → e'.reassembly = e.reassembly := by
  induction collected with
  | nil =>
    intro e e' h
    cases h
    rfl
  | cons env rest ih =>
    intro e e' h
    obtain ⟨⟨res, e₁⟩, hsend, h⟩ := bind_eq_ok.mp h
    obtain ⟨sent, answers, rfl, -⟩ := sendFragments_carries hsend
    dsimp only at h
    rw [ite_bind] at h
    obtain ⟨e₂, hemit, h⟩ := bind_eq_ok.mp h
    rw [ih h]
    split at hemit
    · cases hemit
      rfl
    · exact (settled_emitEvent hemit).reassembly

theorem pumpRetries_reassembly {n : Nat} (h : e.pumpRetries nowUs = .ok (n, e')) :
    e'.reassembly = e.reassembly := by
  obtain ⟨-, h⟩ := ensure_bind_eq_ok.mp h
  split at h
  · cases h
    rfl
  · obtain ⟨⟨collected, retryManager⟩, -, h⟩ := bind_eq_ok.mp h
    obtain ⟨-, h⟩ := ensure_bind_eq_ok.mp h
    obtain ⟨e₁, hloop, h⟩ := bind_eq_ok.mp h
    cases h
    have hsame := pumpLoop_reassembly collected hloop
    exact hsame

/-! ## One public call -/

/-- The message that a call gives to the engine, as the engine fills it in. -/
def offer? (e : DeliveryEngine) (i : Input) : Option MessageEnvelope :=
  match i.call with
  | .send env nowUs => if e.Stale nowUs then none else some (e.filledIn env nowUs)
  | _ => none

theorem whole_offer {i : Input} (h : m ∈ offer? e i) : Whole m := by
  unfold offer? at h
  split at h
  · split at h
    · cases h
    · cases h
      exact whole_filledIn e _ _
  · cases h

/-- A message that a call gave to the engine bears its name, and is valid: the call would have stopped. -/
theorem offer_valid {i : Input} {o : Observation} (hexec : exec i e = .ok (o, e')) (h : m ∈ offer? e i) :
    m.sourceId = e.localId ∧ envelopeValid m := by
  unfold offer? at h
  split at h
  case h_2 _ => cases h
  case h_1 env nowUs hcall =>
    split at h
    case isTrue _ => cases h
    case isFalse hfresh =>
      cases h
      refine ⟨rfl, ?_⟩
      obtain ⟨⟨answer, e₁⟩, hrun, -⟩ := bind_eq_ok.mp hexec
      rw [hcall] at hrun
      obtain ⟨⟨⟨res, out⟩, e₂⟩, hsend, -⟩ := bind_eq_ok.mp hrun
      obtain ⟨-, hsend⟩ := ensure_bind_eq_ok.mp hsend
      rw [if_neg (show ¬ ((e.attach i.transport).lastNowUs > 0 ∧ nowUs < (e.attach i.transport).lastNowUs) from hfresh)]
        at hsend
      obtain ⟨⟨out₁, e₃⟩, hprepare, hsend⟩ := bind_eq_ok.mp hsend
      obtain ⟨idGen, rfl, rfl⟩ := prepareEnvelope_eq hprepare
      obtain ⟨⟨bookRes, t, q⟩, hreserve, -⟩ := bind_eq_ok.mp hsend
      obtain ⟨-, hreserve⟩ := ensure_bind_eq_ok.mp hreserve
      exact (ensure_bind_eq_ok.mp hreserve).1

/-- An identifier is drawn for each message that is given to the engine, and for nothing else. -/
structure Drawn (o : Option MessageEnvelope) (e e' : DeliveryEngine) : Prop where
  none : o = none → e'.idGen.next = e.idGen.next
  some : ∀ x, o = some x → x.messageId = e.idGen.next ∧ e'.idGen.next = Counter.next e.idGen.next

/-- What the engine has said so far belongs to messages of `S`, and so does what waits to be said again. -/
structure Speaks (S : MessageEnvelope → Prop) (e : DeliveryEngine) : Prop where
  queued : Queued S e.retryManager
  heard : ∀ x res, Effect.sent x res ∈ e.trace → AckOf e.localId x ∨ ∃ m, S m ∧ FrameOf m x

theorem Speaks.of_outgoing (h : Outgoing S e e') (queued : Queued S e.retryManager) (quiet : e.trace = []) :
    Speaks S e' := by
  refine ⟨h.queued queued, fun x res hsent => ?_⟩
  rcases h.hands x res hsent with hbefore | hframe
  · rw [quiet] at hbefore
    cases hbefore
  · exact .inr hframe

theorem Speaks.of_inward (h : Inward e e') (queued : Queued S e.retryManager) (quiet : e.trace = []) :
    Speaks S e' := by
  refine ⟨queued.of_kept h.retries, fun x res hsent => ?_⟩
  rcases h.acks x res hsent with hbefore | hack
  · rw [quiet] at hbefore
    cases hbefore
  · rw [h.localId]
    exact .inl hack

theorem drawn_same {i : Input} (hnot : ∀ env nowUs, i.call ≠ .send env nowUs) (hid : e'.idGen = e₁.idGen)
    (h₁ : e₁.idGen = e.idGen) : Drawn (offer? e i) e e' := by
  refine ⟨fun _ => by rw [hid, h₁], fun x hx => ?_⟩
  unfold offer? at hx
  split at hx
  case h_1 env time hcall => exact absurd hcall (hnot env time)
  case h_2 _ => cases hx

/-- What one call does to what the engine says. -/
theorem Speaks.exec {i : Input} {o : Observation} (whole : ∀ x, S x → Whole x) (queued : Queued S e.retryManager)
    (offered : ∀ x ∈ offer? e i, S x) (hexec : exec i e = .ok (o, e')) :
    Speaks S e' ∧ Drawn (offer? e i) e e' ∧ e'.localId = e.localId ∧ o.effects = e'.trace := by
  obtain ⟨⟨answer, e₁⟩, hrun, hdone⟩ := bind_eq_ok.mp hexec
  cases hdone
  have hqueued : Queued S (e.attach i.transport).retryManager := queued
  suffices h : Speaks S e' ∧ Drawn (offer? e i) e e' ∧ e'.localId = e.localId from
    ⟨h.1, h.2.1, h.2.2, rfl⟩
  cases hcall : i.call with
  | send env nowUs =>
    rw [hcall] at hrun
    obtain ⟨⟨⟨res, out⟩, e₂⟩, hsend, hdone⟩ := bind_eq_ok.mp hrun
    cases hdone
    unfold offer? at offered ⊢
    rw [hcall] at offered ⊢
    dsimp only at offered ⊢
    by_cases hstale : e.Stale nowUs
    · rw [if_pos hstale]
      obtain ⟨-, hsend⟩ := ensure_bind_eq_ok.mp hsend
      rw [if_pos (show (e.attach i.transport).lastNowUs > 0 ∧ nowUs < (e.attach i.transport).lastNowUs from hstale)]
        at hsend
      cases hsend
      refine ⟨.of_outgoing (.refl _) hqueued rfl, ⟨fun _ => rfl, fun x hx => ?_⟩, rfl⟩
      cases hx
    · rw [if_neg hstale] at offered ⊢
      have hS : S ((e.attach i.transport).filledIn env nowUs) := offered _ rfl
      obtain ⟨hid, hout⟩ := send_outgoing (e := e.attach i.transport) hstale hS hsend
      refine ⟨.of_outgoing hout hqueued rfl, ⟨fun hnone => ?_, fun x hx => ?_⟩, hout.localId⟩
      · cases hnone
      · cases hx
        exact ⟨rfl, hid⟩
  | receive timeoutMs nowUs =>
    rw [hcall] at hrun
    obtain ⟨⟨reply, e₂⟩, hreceive, hdone⟩ := bind_eq_ok.mp hrun
    cases hdone
    obtain ⟨hinward, -⟩ := receive_inward hreceive
    refine ⟨.of_inward hinward hqueued rfl, drawn_same ?_ hinward.idGen rfl, hinward.localId⟩
    intro env time hsend
    cases hcall.symm.trans hsend
  | pumpRetries nowUs =>
    rw [hcall] at hrun
    obtain ⟨⟨n, e₂⟩, hpump, hdone⟩ := bind_eq_ok.mp hrun
    cases hdone
    have hout := pumpRetries_outgoing whole hqueued hpump
    refine ⟨.of_outgoing hout hqueued rfl, drawn_same ?_ hout.idGen rfl, hout.localId⟩
    intro env time hsend
    cases hcall.symm.trans hsend
  | sweepAckTimeouts nowUs =>
    rw [hcall] at hrun
    obtain ⟨⟨n, e₂⟩, hsweep, hdone⟩ := bind_eq_ok.mp hrun
    cases hdone
    have hinward := sweepAckTimeouts_inward hsweep
    refine ⟨.of_inward hinward hqueued rfl, drawn_same ?_ hinward.idGen rfl, hinward.localId⟩
    intro env time hsend
    cases hcall.symm.trans hsend
  | resetPeerOrdering src =>
    rw [hcall] at hrun
    obtain ⟨e₂, hreset, hdone⟩ := bind_eq_ok.mp hrun
    cases hdone
    have hinward := (settled_resetPeerOrdering hreset).toInward
    refine ⟨.of_inward hinward hqueued rfl, drawn_same ?_ hinward.idGen rfl, hinward.localId⟩
    intro env time hsend
    cases hcall.symm.trans hsend
  | pollEvent =>
    rw [hcall] at hrun
    obtain ⟨⟨ev, e₂⟩, hpoll, hdone⟩ := bind_eq_ok.mp hrun
    cases hdone
    have hinward := (settled_pollEvent hpoll).toInward
    refine ⟨.of_inward hinward hqueued rfl, drawn_same ?_ hinward.idGen rfl, hinward.localId⟩
    intro env time hsend
    cases hcall.symm.trans hsend
  | drainEvents bufCap =>
    rw [hcall] at hrun
    obtain ⟨⟨evs, e₂⟩, hdrain, hdone⟩ := bind_eq_ok.mp hrun
    cases hdone
    have hinward := (settled_drainEvents _ hdrain).toInward
    refine ⟨.of_inward hinward hqueued rfl, drawn_same ?_ hinward.idGen rfl, hinward.localId⟩
    intro env time hsend
    cases hcall.symm.trans hsend

/-! ## Every run -/

/-- The messages that were given to the engine, as it filled them in. -/
def offered (past : List (Run.Taken DeliveryEngine Input Observation)) : List MessageEnvelope :=
  past.filterMap fun t => offer? t.before t.input

theorem offered_append (past : List (Run.Taken DeliveryEngine Input Observation))
    (t : Run.Taken DeliveryEngine Input Observation) :
    offered (past ++ [t]) = offered past ++ (offer? t.before t.input).toList := by
  rw [offered, List.filterMap_append]
  congr 1

theorem offered_length_le (past : List (Run.Taken DeliveryEngine Input Observation)) :
    (offered past).length ≤ past.length := List.length_filterMap_le _ _

/-- What an engine knows of the messages it was given: those that wait to be said again are among them, and
their identifiers are the first ones of the generator. -/
structure Remembers (localId : NodeId) (first : UInt64) (past : List (Run.Taken DeliveryEngine Input Observation))
    (e : DeliveryEngine) : Prop where
  name : e.localId = localId
  valid : ∀ m ∈ offered past, m.sourceId = localId ∧ envelopeValid m
  queued : Queued (· ∈ offered past) e.retryManager
  ids : (offered past).map MessageEnvelope.messageId = Counter.drawn first (offered past).length
  next : e.idGen.next = Counter.next^[(offered past).length] first

variable {localId : NodeId} {first : UInt64} {past : List (Run.Taken DeliveryEngine Input Observation)}

theorem remembers_init (cfg : ChannelConfig) (localId : NodeId) (entropy : UInt64) :
    Remembers localId (idSeed entropy localId) [] (init cfg localId entropy) := by
  refine ⟨rfl, fun m hm => ?_, fun i hi => ?_, rfl, rfl⟩
  · cases hm
  have hinactive : (init cfg localId entropy).retryManager.slots[i].active = false := by
    simp [init, RetryManager.init]
  rw [hinactive] at hi
  cases hi

theorem whole_offered (h : m ∈ offered past) : Whole m := by
  obtain ⟨t, -, ht⟩ := List.mem_filterMap.mp h
  exact whole_offer ht

/-- What the engine hands to the transport in a step: frames of messages that it was given, and
acknowledgements. -/
def SaysOnly (localId : NodeId) (past : List (Run.Taken DeliveryEngine Input Observation))
    (t : Run.Taken DeliveryEngine Input Observation) : Prop :=
  ∀ x res, Effect.sent x res ∈ t.output.effects → AckOf localId x ∨ ∃ m ∈ offered (past ++ [t]), FrameOf m x

theorem Remembers.step {i : Input} {o : Observation} (h : Remembers localId first past e)
    (hexec : exec i e = .ok (o, e')) :
    SaysOnly localId past ⟨e, i, o, e'⟩ ∧ Remembers localId first (past ++ [⟨e, i, o, e'⟩]) e' := by
  have hnow : offered (past ++ [⟨e, i, o, e'⟩]) = offered past ++ (offer? e i).toList := offered_append past _
  have hkept : ∀ x ∈ offered past, x ∈ offered (past ++ [⟨e, i, o, e'⟩]) := by
    intro x hx
    rw [hnow]
    exact List.mem_append_left _ hx
  have hqueued : Queued (· ∈ offered (past ++ [⟨e, i, o, e'⟩])) e.retryManager := h.queued.mono hkept
  obtain ⟨hspeaks, hdrawn, hlocal, heffects⟩ := Speaks.exec (fun x hx => whole_offered hx) hqueued
    (fun x hx => by
      rw [hnow]
      exact List.mem_append_right _ (Option.mem_toList.mpr hx)) hexec
  refine ⟨fun x res hsent => ?_, hlocal.trans h.name, fun m hm => ?_, hspeaks.queued, ?_, ?_⟩
  · rw [heffects] at hsent
    rw [← h.name, ← hlocal]
    exact hspeaks.heard x res hsent
  · rw [hnow] at hm
    rcases List.mem_append.mp hm with hm | hm
    · exact h.valid m hm
    · rw [← h.name]
      exact offer_valid hexec (Option.mem_toList.mp hm)
  · rw [hnow]
    cases hoffer : offer? e i with
    | none =>
      rw [Option.toList_none, List.append_nil]
      exact h.ids
    | some m =>
      obtain ⟨hid, -⟩ := hdrawn.some m hoffer
      rw [Option.toList_some, List.map_append, List.length_append, List.length_singleton, Counter.drawn_succ, h.ids,
        List.map_singleton, hid, h.next]
  · rw [hnow]
    cases hoffer : offer? e i with
    | none =>
      rw [Option.toList_none, List.append_nil, hdrawn.none hoffer]
      exact h.next
    | some m =>
      obtain ⟨-, hnext⟩ := hdrawn.some m hoffer
      rw [Option.toList_some, List.length_append, List.length_singleton, Function.iterate_succ_apply', hnext, h.next]

/-- No two messages have the same identifier, while fewer were given than there are identifiers. -/
theorem Remembers.distinct (h : Remembers localId first past e) (hfirst : first ≠ 0)
    (hfew : (offered past).length ≤ Counter.period) :
    ((offered past).map MessageEnvelope.messageId).Nodup := by
  rw [h.ids]
  exact Counter.drawn_nodup hfirst hfew

/-- In every run, everything an engine hands to its transport is a frame of a message that it was given to
send, or an acknowledgement of its own; and in a run of fewer calls than identifiers no two of these messages
have the same identifier. -/
theorem speaks_offered (cfg : ChannelConfig) (localId : NodeId) (entropy : UInt64) (inputs : List Input) :
    Run.Lawful (SaysOnly localId) (Run.history exec inputs (init cfg localId entropy)) ∧
      (inputs.length ≤ Counter.period →
        ((offered (Run.history exec inputs (init cfg localId entropy))).map MessageEnvelope.messageId).Nodup) := by
  obtain ⟨last, hlast, hlaw⟩ := Run.history_inv
    (I := fun past e => Remembers localId (idSeed entropy localId) past e ∧ Run.Lawful (SaysOnly localId) past)
    (fun past e i o e' h hexec => ⟨(h.1.step hexec).2, h.2.snoc (h.1.step hexec).1⟩) inputs []
    (init cfg localId entropy) ⟨remembers_init cfg localId entropy, .nil⟩
  rw [List.nil_append] at hlast hlaw
  refine ⟨hlaw, fun hfew => hlast.distinct (idSeed_ne_zero entropy localId) ?_⟩
  have hsteps : (Run.history exec inputs (init cfg localId entropy)).length ≤ inputs.length :=
    Run.history_length_le inputs _
  exact (offered_length_le _).trans (hsteps.trans hfew)

/-- A message to node 1, and its retransmission. -/
def speakingRun : List Input := [⟨.send (retryData 0 0 0) 1, silent⟩, ⟨.pumpRetries 200000, silent⟩]

theorem speaks_offered_twice :
    speakingRun.length ≤ Counter.period ∧
    Run.Lawful (SaysOnly 2) (Run.history exec speakingRun (init orderedConfig 2 7)) ∧
      ((offered (Run.history exec speakingRun (init orderedConfig 2 7))).map MessageEnvelope.messageId).Nodup := by
  have hfew : speakingRun.length ≤ Counter.period := by
    show 2 ≤ 2 ^ 64 - 1
    omega
  obtain ⟨hlaw, hdistinct⟩ := speaks_offered orderedConfig 2 7 speakingRun
  exact ⟨hfew, hlaw, hdistinct hfew⟩

end DeliveryEngine

end MessageEngine
