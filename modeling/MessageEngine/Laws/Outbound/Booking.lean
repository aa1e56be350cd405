import MessageEngine.Laws.Outbound.Sending
import MessageEngine.Laws.Runs.Forgery

/-!
# Reservations are kept or given back

Before anything is sent, `send` takes a slot of the acknowledgement tracker and, for
`RELIABLE_RETRY`, one of the retry table. What it took it must give back when nothing reached the
wire, and must not when something did: the receiver may then have a part of the message.

## What is proved

- `Reserved.rolledBack`: the rollback undoes the reservation;
- `send_atomic`: a send that failed with nothing accepted leaves both tables with the entries they
  had, and every other send adds exactly the entries that its reliability class asks for.
-/

namespace MessageEngine

open Outcome Table OrderingBuffer

namespace AckTracker

/-- The message took a slot. -/
def Adds (env : MessageEnvelope) (t t' : AckTracker) : Prop :=
  ∃ (i : Fin ackTrackerCapacity) (deadlineUs : UInt64), t.slots[i].state = .free ∧
    t'.slots = t.slots.set i ⟨env, deadlineUs, .pending⟩ i.isLt

/-- No entry is pending for the message. -/
def Untracked (t : AckTracker) (src : NodeId) (msgId : UInt64) : Prop :=
  ∀ i : Fin ackTrackerCapacity, t.slots[i].matches src msgId = false

instance (t : AckTracker) (src : NodeId) (msgId : UInt64) : Decidable (t.Untracked src msgId) :=
  inferInstanceAs (Decidable (∀ _, _))

variable {t t' t'' : AckTracker} {env : MessageEnvelope}

theorem Adds.perm (h : Adds env t t') :
    ∃ deadlineUs, t'.pendingEntries.Perm (⟨env, deadlineUs, .pending⟩ :: t.pendingEntries) := by
  obtain ⟨i, deadlineUs, hfree, hslots⟩ := h
  refine ⟨deadlineUs, ?_⟩
  rw [pendingEntries, pendingEntries, hslots]
  apply filter_set_perm
  · rw [hfree]
    rfl
  · rfl

/-- Cancelling the message takes its slot back. -/
theorem Adds.cancelled (h : Adds env t t') (fresh : t.Untracked env.sourceId env.messageId)
    {r : Result} (hcancel : t'.cancel env.sourceId env.messageId = .ok (r, t'')) :
    t''.pendingEntries = t.pendingEntries := by
  obtain ⟨i, deadlineUs, hfree, hslots⟩ := h
  have hold : (t.slots[i].state == .pending) = false := by
    rw [hfree]
    rfl
  have hkey : Entry.matches env.sourceId env.messageId ⟨env, deadlineUs, .pending⟩ = true := by
    simp [Entry.matches]
  obtain ⟨hfound, hundo⟩ := undo_set (p := fun slot => slot.state == .pending) hold hkey fresh
  rw [← hslots] at hfound
  rcases cancel_cases hcancel with ⟨-, j, hj, rfl⟩ | ⟨-, hnone, -⟩
  case inr => cases hnone.symm.trans hfound
  cases hj.symm.trans hfound
  rw [pendingEntries, pendingEntries]
  change ((t'.slots.set i { t'.slots[i] with state := .free } i.isLt).toList.filter _) = _
  rw [hslots]
  apply hundo
  rfl

end AckTracker

namespace RetryManager

/-- The message took a slot. -/
def Adds (env : MessageEnvelope) (m m' : RetryManager) : Prop :=
  ∃ (i : Fin ackTrackerCapacity) (slot : RetryEntry), m.slots[i].active = false ∧ slot.active = true ∧
    slot.env = env ∧ m'.slots = m.slots.set i slot i.isLt

/-- No entry is active for the message. -/
def Untracked (m : RetryManager) (src : NodeId) (msgId : UInt64) : Prop :=
  ∀ i : Fin ackTrackerCapacity, m.slots[i].matches src msgId = false

instance (m : RetryManager) (src : NodeId) (msgId : UInt64) : Decidable (m.Untracked src msgId) :=
  inferInstanceAs (Decidable (∀ _, _))

variable {m m' m'' : RetryManager} {env : MessageEnvelope}

theorem Adds.perm (h : Adds env m m') :
    ∃ slot, slot.env = env ∧ slot.active = true ∧
      m'.activeEntries.Perm (slot :: m.activeEntries) := by
  obtain ⟨i, slot, hfree, hactive, henv, hslots⟩ := h
  refine ⟨slot, henv, hactive, ?_⟩
  rw [activeEntries, activeEntries, hslots]
  exact filter_set_perm hfree hactive

/-- Cancelling the message takes its slot back. -/
theorem Adds.cancelled (h : Adds env m m') (fresh : m.Untracked env.sourceId env.messageId)
    {r : Result} (hcancel : m'.cancel env.sourceId env.messageId = .ok (r, m'')) :
    m''.activeEntries = m.activeEntries := by
  obtain ⟨i, slot, hfree, hactive, henv, hslots⟩ := h
  have hkey : slot.matches env.sourceId env.messageId = true := by
    simp [RetryEntry.matches, hactive, henv]
  obtain ⟨hfound, hundo⟩ := undo_set hfree hkey fresh
  rw [← hslots] at hfound
  rcases cancel_cases hcancel with ⟨-, j, hj, rfl⟩ | ⟨-, hnone, -⟩
  case inr => cases hnone.symm.trans hfound
  cases hj.symm.trans hfound
  rw [activeEntries, activeEntries]
  change ((m'.slots.set i { m'.slots[i] with active := false } i.isLt).toList.filter _) = _
  rw [hslots]
  apply hundo
  rfl

end RetryManager

namespace DeliveryEngine

variable {P : MessageEnvelope → Prop} {e e' : DeliveryEngine} {env : MessageEnvelope}
  {nowUs : UInt64} {res : Result} {b b' : Books}

/-! ## The reservation -/

/-- The slots a message of its class takes. -/
def Reserved (env : MessageEnvelope) (b b' : Books) : Prop :=
  match env.reliabilityClass with
  | .bestEffort => b' = b
  | .reliableAck => AckTracker.Adds env b.ackTracker b'.ackTracker ∧ b'.retryManager = b.retryManager
  | .reliableRetry => AckTracker.Adds env b.ackTracker b'.ackTracker ∧
      RetryManager.Adds env b.retryManager b'.retryManager

/-- Neither table knows the message. -/
structure Unbooked (b : Books) (src : NodeId) (msgId : UInt64) : Prop where
  ackTracker : b.ackTracker.Untracked src msgId
  retryManager : b.retryManager.Untracked src msgId

theorem reserveBookkeeping_cases {t t' : AckTracker} {m m' : RetryManager} {cfg : ChannelConfig}
    (fresh : Unbooked ⟨t, m⟩ env.sourceId env.messageId)
    (h : reserveBookkeeping t m env cfg nowUs = .ok (res, t', m')) :
    (res = .ok ∧ Reserved env ⟨t, m⟩ ⟨t', m'⟩) ∨ (res = .errFull ∧ SameEntries ⟨t, m⟩ ⟨t', m'⟩) := by
  obtain ⟨-, h⟩ := ensure_bind_eq_ok.mp h
  obtain ⟨-, h⟩ := ensure_bind_eq_ok.mp h
  unfold Reserved
  cases hclass : env.reliabilityClass with
  | bestEffort =>
    rw [if_pos (by simp [hclass])] at h
    cases h
    exact .inl ⟨rfl, rfl⟩
  | reliableAck =>
    rw [if_neg (by simp [hclass])] at h
    obtain ⟨⟨trackRes, t₁⟩, htrack, hdone⟩ := bind_eq_ok.mp h
    rcases AckTracker.track_cases htrack with ⟨rfl, -, i, hfree, hslots⟩ | ⟨rfl, rfl, -⟩
    · cases hdone.symm.trans ((if_neg (by decide)).trans (if_pos (by simp [hclass])))
      exact .inl ⟨rfl, ⟨i, _, hfree, hslots⟩, rfl⟩
    · cases hdone.symm.trans (if_pos (by decide))
      exact .inr ⟨rfl, rfl, rfl⟩
  | reliableRetry =>
    rw [if_neg (by simp [hclass])] at h
    obtain ⟨⟨trackRes, t₁⟩, htrack, hdone⟩ := bind_eq_ok.mp h
    rcases AckTracker.track_cases htrack with ⟨rfl, -, i, hfree, hslots⟩ | ⟨rfl, rfl, -⟩
    · have hadds : AckTracker.Adds env t t₁ := ⟨i, _, hfree, hslots⟩
      have hretry := ((if_neg (by decide)).trans (if_neg (by simp [hclass]))).symm.trans hdone
      obtain ⟨⟨schedRes, m₁⟩, hsched, hdone'⟩ := bind_eq_ok.mp hretry
      rcases RetryManager.schedule_cases hsched with ⟨rfl, j, hfree', hslots', -, -⟩ | ⟨rfl, rfl, -⟩
      · cases hdone'.symm.trans (if_neg (by decide))
        exact .inl ⟨rfl, hadds, j, _, hfree', rfl, rfl, hslots'⟩
      · have hundone := (if_pos (by decide)).symm.trans hdone'
        obtain ⟨⟨r, t₂⟩, hcancel, hlast⟩ := bind_eq_ok.mp hundone
        cases hlast
        exact .inr ⟨rfl, hadds.cancelled fresh.ackTracker hcancel, rfl⟩
    · cases hdone.symm.trans (if_pos (by decide))
      exact .inr ⟨rfl, rfl, rfl⟩

theorem rollbackOnTransportFailure_cases {t t' : AckTracker} {m m' : RetryManager}
    (h : rollbackOnTransportFailure t m env = .ok (t', m')) :
    (∃ r, t.cancel env.sourceId env.messageId = .ok (r, t')) ∧
      if env.reliabilityClass = .reliableRetry then
        ∃ r, m.cancel env.sourceId env.messageId = .ok (r, m')
      else m' = m := by
  obtain ⟨-, h⟩ := ensure_bind_eq_ok.mp h
  obtain ⟨-, h⟩ := ensure_bind_eq_ok.mp h
  obtain ⟨⟨r, t₁⟩, hcancel, h⟩ := bind_eq_ok.mp h
  dsimp only at h
  split at h
  case isTrue hretry =>
    obtain ⟨⟨r', m₁⟩, hcancel', h⟩ := bind_eq_ok.mp h
    cases h
    rw [if_pos hretry]
    exact ⟨⟨r, hcancel⟩, r', hcancel'⟩
  case isFalse hother =>
    cases h
    rw [if_neg hother]
    exact ⟨⟨r, hcancel⟩, rfl⟩

/-- The rollback gives back what the reservation took. -/
theorem Reserved.rolledBack {t t' : AckTracker} {m m' : RetryManager} {reported : Result}
    (reserved : Reserved env b ⟨t, m⟩) (fresh : Unbooked b env.sourceId env.messageId)
    (hwhole : res ≠ .errIoPartial)
    (h : handleSendFragmentsFailure t m env res = .ok (reported, t', m')) : SameEntries b ⟨t', m'⟩ := by
  obtain ⟨-, h⟩ := ensure_bind_eq_ok.mp h
  obtain ⟨-, h⟩ := ensure_bind_eq_ok.mp h
  rw [if_neg hwhole] at h
  unfold Reserved at reserved
  cases hclass : env.reliabilityClass with
  | bestEffort =>
    rw [hclass] at reserved
    cases reserved
    rw [if_neg (by simp [hclass])] at h
    cases h
    exact ⟨rfl, rfl⟩
  | reliableAck =>
    rw [hclass] at reserved
    obtain ⟨hadds, hsame⟩ := reserved
    rw [if_pos (.inl hclass)] at h
    obtain ⟨⟨t₁, m₁⟩, hrollback, h⟩ := bind_eq_ok.mp h
    cases h
    obtain ⟨⟨r, hcancel⟩, hretry⟩ := rollbackOnTransportFailure_cases hrollback
    rw [if_neg (by simp [hclass])] at hretry
    refine ⟨hadds.cancelled fresh.ackTracker hcancel, ?_⟩
    dsimp only at hsame ⊢
    rw [hretry, hsame]
  | reliableRetry =>
    rw [hclass] at reserved
    obtain ⟨hadds, hadds'⟩ := reserved
    rw [if_pos (.inr hclass)] at h
    obtain ⟨⟨t₁, m₁⟩, hrollback, h⟩ := bind_eq_ok.mp h
    cases h
    obtain ⟨⟨r, hcancel⟩, hretry⟩ := rollbackOnTransportFailure_cases hrollback
    rw [if_pos hclass] at hretry
    obtain ⟨r', hcancel'⟩ := hretry
    exact ⟨hadds.cancelled fresh.ackTracker hcancel, hadds'.cancelled fresh.retryManager hcancel'⟩

/-- Every other failure is reported as it is. -/
theorem handleSendFragmentsFailure_reported {t t' : AckTracker} {m m' : RetryManager} {reported : Result}
    (hwhole : res ≠ .errIoPartial)
    (h : handleSendFragmentsFailure t m env res = .ok (reported, t', m')) : reported = res := by
  obtain ⟨-, h⟩ := ensure_bind_eq_ok.mp h
  obtain ⟨-, h⟩ := ensure_bind_eq_ok.mp h
  rw [if_neg hwhole] at h
  split at h
  · obtain ⟨⟨t₁, m₁⟩, -, h⟩ := bind_eq_ok.mp h
    cases h
    rfl
  · cases h
    rfl

/-- After a partial send nothing is given back. -/
theorem handleSendFragmentsFailure_partial {t t' : AckTracker} {m m' : RetryManager} {reported : Result}
    (h : handleSendFragmentsFailure t m env .errIoPartial = .ok (reported, t', m')) :
    t' = t ∧ m' = m := by
  obtain ⟨-, h⟩ := ensure_bind_eq_ok.mp h
  obtain ⟨-, h⟩ := ensure_bind_eq_ok.mp h
  rw [if_pos rfl] at h
  cases h
  exact ⟨rfl, rfl⟩

/-! ## The whole call -/

/-- The entries a message of this class adds to the two tables. -/
def Booked (reliabilityClass : ReliabilityClass) (env : MessageEnvelope) (b b' : Books) : Prop :=
  match reliabilityClass with
  | .bestEffort => SameEntries b b'
  | .reliableAck =>
    (∃ deadlineUs, b'.ackTracker.pendingEntries.Perm
      (⟨env, deadlineUs, .pending⟩ :: b.ackTracker.pendingEntries)) ∧
    b'.retryManager.activeEntries = b.retryManager.activeEntries
  | .reliableRetry =>
    (∃ deadlineUs, b'.ackTracker.pendingEntries.Perm
      (⟨env, deadlineUs, .pending⟩ :: b.ackTracker.pendingEntries)) ∧
    ∃ slot, slot.env = env ∧ slot.active = true ∧
      b'.retryManager.activeEntries.Perm (slot :: b.retryManager.activeEntries)

theorem Reserved.booked (h : Reserved env b b') : Booked env.reliabilityClass env b b' := by
  unfold Reserved at h
  unfold Booked
  cases hclass : env.reliabilityClass with
  | bestEffort =>
    rw [hclass] at h
    cases h
    exact ⟨rfl, rfl⟩
  | reliableAck =>
    rw [hclass] at h
    exact ⟨h.1.perm, congrArg RetryManager.activeEntries h.2⟩
  | reliableRetry =>
    rw [hclass] at h
    exact ⟨h.1.perm, h.2.perm⟩

theorem recordSendFailure_books (h : e.recordSendFailure env res = .ok e') :
    e'.books = e.books ∧ (AnyAccepted e'.trace ↔ AnyAccepted e.trace) := by
  rcases recordSendFailure_cases h with ⟨-, events, -, rfl⟩ | ⟨-, events, rfl⟩
  · refine ⟨rfl, ?_⟩
    rw [anyAccepted_append]
    exact or_iff_left not_anyAccepted_expired
  · exact ⟨rfl, Iff.rfl⟩

/-- What one send does to the tables. -/
theorem SendOutcome.atomic {out : MessageEnvelope} (h : SendOutcome e env nowUs res out e')
    (htrace : e.trace = []) (documented : .errIoPartial ∉ e.transport.sendResults)
    (fresh : Unbooked e.books e.localId e.idGen.next) :
    (res ≠ .ok → ¬ AnyAccepted e'.trace → SameEntries e.books e'.books) ∧
    (res = .ok ∨ AnyAccepted e'.trace → Booked env.reliabilityClass out e.books e'.books) := by
  cases h with
  | refused stale =>
    refine ⟨fun _ _ => ⟨rfl, rfl⟩, fun hsome => ?_⟩
    rcases hsome with hok | haccepted
    · cases hok
    · rw [htrace] at haccepted
      exact absurd haccepted not_anyAccepted_nil
  | unbooked _ reserve failed record =>
    obtain ⟨hbooks, hsent⟩ := recordSendFailure_books record
    rcases reserveBookkeeping_cases fresh reserve with ⟨hok, -⟩ | ⟨-, hsame⟩
    · exact absurd hok failed
    refine ⟨fun _ _ => hbooks ▸ hsame, fun hsome => ?_⟩
    rcases hsome with hok | haccepted
    · exact absurd hok failed
    · replace haccepted : AnyAccepted e.trace := hsent.mp haccepted
      rw [htrace] at haccepted
      exact absurd haccepted not_anyAccepted_nil
  | @failed _ sendRes _ _ _ _ _ sent _ _ _ reserve carries failed handle record =>
    obtain ⟨hbooks, hsent⟩ := recordSendFailure_books record
    have htrace' : AnyAccepted e'.trace ↔ AnyAccepted sent := by
      rw [hsent]
      change AnyAccepted (e.trace ++ sent) ↔ _
      rw [htrace, List.nil_append]
    rcases reserveBookkeeping_cases fresh reserve with ⟨-, reserved⟩ | ⟨hfull, -⟩
    case inr => cases hfull
    have hpartly := carries.partly documented
    rw [htrace', hbooks]
    by_cases hwhole : sendRes = .errIoPartial
    · rw [hwhole] at handle hpartly
      obtain ⟨rfl, rfl⟩ := handleSendFragmentsFailure_partial handle
      have haccepted : AnyAccepted sent := hpartly.mpr (.inr rfl)
      exact ⟨fun _ hnone => absurd haccepted hnone, fun _ => reserved.booked⟩
    · have hsame := reserved.rolledBack fresh hwhole handle
      cases handleSendFragmentsFailure_reported hwhole handle
      refine ⟨fun _ _ => hsame, fun hsome => ?_⟩
      rcases hsome with hok | haccepted
      · exact absurd hok failed
      · rcases hpartly.mp haccepted with hok | hpart
        · exact absurd hok failed
        · exact absurd hpart hwhole
  | sent _ reserve carries =>
    rcases reserveBookkeeping_cases fresh reserve with ⟨-, reserved⟩ | ⟨hfull, -⟩
    · exact ⟨fun hne => absurd rfl hne, fun _ => reserved.booked⟩
    · cases hfull

/-- Whatever the transport answers for each frame, a send that fails with nothing accepted leaves the
two tables with the entries they had, and every other send adds those of its class. `ERR_IO_PARTIAL`
is not an answer of a transport: it is how `send_fragments` reports to `send`. -/
theorem send_atomic {cfg : ChannelConfig} {localId : NodeId} {entropy : UInt64} {inputs : List Input}
    {os : List Observation} {e : DeliveryEngine} (hlocal : localId ≠ nodeIdInvalid)
    (hreached : Run.runAll exec inputs (init cfg localId entropy) = .ok (os, e)) (transport : Transport)
    (documented : .errIoPartial ∉ transport.sendResults) {env : MessageEnvelope}
    (hsendable : Sendable env) (hdst : env.destinationId ≠ 0) {nowUs : UInt64} (hnow : nowUs ≠ 0)
    (fresh : Unbooked e.books e.localId e.idGen.next) :
    ∃ res out effects e', exec ⟨.send env nowUs, transport⟩ e = .ok (⟨.sent res out, effects⟩, e') ∧
      (res ≠ .ok → ¬ AnyAccepted effects → SameEntries e.books e'.books) ∧
      (res = .ok ∨ AnyAccepted effects → Booked env.reliabilityClass out e.books e'.books) := by
  obtain ⟨inv, -⟩ := reachable_inv (P := fun _ => True) headerProperty_true hlocal
    (fun _ _ _ _ _ => trivial) hreached
  have hfault : (e.attach transport).sendFault env nowUs = none := by
    have hseq : ¬ (NeedsSequence (e.attach transport).cfg env ∧ env.destinationId = 0) := fun h => hdst h.2
    unfold sendFault
    rw [if_neg hnow, if_neg hseq, if_neg (not_not_intro hsendable), ite_self]
  obtain ⟨⟨res, out⟩, e', hsend, -⟩ := send_spec (inv.attach transport) hfault
  refine ⟨res, out, e'.trace, e', ?_, (send_outcome hsend).atomic rfl documented fresh⟩
  exact bind_eq_ok.mpr ⟨_, bind_eq_ok.mpr ⟨_, hsend, rfl⟩, rfl⟩

/-- A `RELIABLE_RETRY` message to node 2. -/
def retriedData : MessageEnvelope :=
  { plainData 1 0 0 with destinationId := 2, reliabilityClass := .reliableRetry }

/-- The transport refuses the first frame. -/
def refusing : Transport := { silent with sendResults := [.errIo] }

theorem send_atomic_refused :
    .errIoPartial ∉ refusing.sendResults ∧ Sendable retriedData ∧
    ∃ res out effects e', exec ⟨.send retriedData 5, refusing⟩ (init orderedConfig 1 7) =
        .ok (⟨.sent res out, effects⟩, e') ∧
      (res ≠ .ok → ¬ AnyAccepted effects → SameEntries (init orderedConfig 1 7).books e'.books) ∧
      (res = .ok ∨ AnyAccepted effects →
        Booked .reliableRetry out (init orderedConfig 1 7).books e'.books) := by
  have hunbooked : Unbooked (init orderedConfig 1 7).books 1 (init orderedConfig 1 7).idGen.next :=
    ⟨by decide +kernel, by decide +kernel⟩
  refine ⟨by decide, by decide, ?_⟩
  exact send_atomic (by decide) (show Run.runAll exec [] _ = _ from rfl) refusing (by decide) (by decide) (by decide)
    (by decide) hunbooked

end DeliveryEngine

end MessageEngine
