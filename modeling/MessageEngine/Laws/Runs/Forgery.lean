import MessageEngine.Laws.Runs.Staging

/-!
# Forged acknowledgements

An acknowledgement should come from the node the message was sent to. The check is made against the
acknowledgement tracker, and so is only as good as what the tracker still remembers: once the entry
has timed out there is nothing to check against, and the retries of the message, which live in the
other table, are cancelled by an acknowledgement from anybody.

## What is proved

- `forged_ack_ignored_iff`: a forged acknowledgement changes neither table exactly when it is late
  or the tracker still has a pending entry for the message, with another destination;
- `forged_ack_cancels_retry`: after a timeout, the acknowledgement of a third node cancels the
  retries.
-/

namespace MessageEngine

open Outcome Table OrderingBuffer

namespace AckTracker

theorem length_pendingEntries (t : AckTracker) :
    t.pendingEntries.length = t.slots.countP fun slot => slot.state == .pending := by
  rw [pendingEntries, ← List.countP_eq_length_filter, Vector.countP_toList]

end AckTracker

namespace RetryManager

theorem length_activeEntries (m : RetryManager) :
    m.activeEntries.length = m.slots.countP RetryEntry.active := by
  rw [activeEntries, ← List.countP_eq_length_filter, Vector.countP_toList]

end RetryManager

namespace DeliveryEngine

variable {t : AckTracker} {m : RetryManager} {src : NodeId} {msgId : UInt64}

/-- Acknowledging a tracked message takes it off the pending ones. -/
theorem pendingEntries_acked {i : Fin ackTrackerCapacity}
    (h : firstSlot? (AckTracker.Entry.matches src msgId) t.slots = some i) :
    (ackedTracker t src msgId).pendingEntries ≠ t.pendingEntries := by
  intro hsame
  have hpending := (AckTracker.state_of_matches (firstSlot?_some h)).1
  have hcount := countP_set_add (fun slot => slot.state == .pending) t.slots i
    { t.slots[i] with state := .acked }
  have hlen := congrArg List.length hsame
  rw [ackedTracker, h] at hlen
  simp only [AckTracker.length_pendingEntries] at hlen
  rw [hlen, hpending] at hcount
  simp at hcount

/-- Acknowledging a scheduled message takes it off the active ones. -/
theorem activeEntries_acked {i : Fin ackTrackerCapacity}
    (h : firstSlot? (RetryManager.RetryEntry.matches src msgId) m.slots = some i) :
    (ackedRetries m src msgId).activeEntries ≠ m.activeEntries := by
  intro hsame
  have hactive := (RetryManager.active_of_matches (firstSlot?_some h)).1
  have hcount := countP_set_add RetryManager.RetryEntry.active m.slots i
    { m.slots[i] with active := false }
  have hlen := congrArg List.length hsame
  rw [ackedRetries, h] at hlen
  simp only [RetryManager.length_activeEntries] at hlen
  change (m.slots.set i { m.slots[i] with active := false } i.isLt).countP _ = _ at hlen
  rw [hlen, hactive] at hcount
  simp at hcount

/-- A message that was sent and is waiting for an acknowledgement, or to be sent again, under a
destination other than `claimant`. -/
def Awaits (b : Books) (localId : NodeId) (msgId : UInt64) (claimant : NodeId) : Prop :=
  (∃ i : Fin ackTrackerCapacity, b.ackTracker.slots[i].matches localId msgId = true ∧
    b.ackTracker.slots[i].env.destinationId ≠ claimant) ∨
  (∃ i : Fin ackTrackerCapacity, b.retryManager.slots[i].matches localId msgId = true ∧
    b.retryManager.slots[i].env.destinationId ≠ claimant)

instance (b : Books) (localId : NodeId) (msgId : UInt64) (claimant : NodeId) :
    Decidable (Awaits b localId msgId claimant) :=
  inferInstanceAs (Decidable (_ ∨ _))

/-- The same entries are pending, and the same retries active. -/
def SameEntries (b b' : Books) : Prop :=
  b'.ackTracker.pendingEntries = b.ackTracker.pendingEntries ∧
    b'.retryManager.activeEntries = b.retryManager.activeEntries

/-- Unless the tracker has the message down for somebody else, a forged acknowledgement changes
one of the tables. -/
theorem not_sameEntries_acked {b : Books} {localId claimant : NodeId}
    (h : Awaits b localId msgId claimant) :
    ¬ SameEntries b ⟨ackedTracker b.ackTracker localId msgId, ackedRetries b.retryManager localId msgId⟩ := by
  rintro ⟨hpending, hactive⟩
  rcases h with ⟨i, hi, -⟩ | ⟨i, hi, -⟩
  · obtain ⟨j, hj⟩ := firstSlot?_isSome hi
    exact pendingEntries_acked hj hpending
  · obtain ⟨j, hj⟩ := firstSlot?_isSome hi
    exact activeEntries_acked hj hactive

/-- The tracker has the message down for a node other than `claimant`. -/
def Guarded (t : AckTracker) (localId : NodeId) (msgId : UInt64) (claimant : NodeId) : Prop :=
  ∃ dst ∈ t.trackedDestination? localId msgId, dst ≠ nodeIdInvalid ∧ dst ≠ claimant

instance (t : AckTracker) (localId : NodeId) (msgId : UInt64) (claimant : NodeId) :
    Decidable (Guarded t localId msgId claimant) :=
  Option.decidableExistsMem _

/-- The message is an acknowledgement to this node, of a message that it awaits from another one. -/
structure Receiving.Forges (r : Receiving) (ack : MessageEnvelope) : Prop where
  valid : ∀ frame ∈ r.frame?, envelopeValid frame
  isAck : ack.messageType = .ack
  toUs : ack.destinationId = r.engine.localId
  awaits : Awaits r.engine.books r.engine.localId ack.messageId ack.sourceId

instance (r : Receiving) (ack : MessageEnvelope) : Decidable (r.Forges ack) :=
  decidable_of_iff ((∀ frame ∈ r.frame?, envelopeValid frame) ∧ ack.messageType = .ack ∧
      ack.destinationId = r.engine.localId ∧
      Awaits r.engine.books r.engine.localId ack.messageId ack.sourceId)
    ⟨fun h => ⟨h.1, h.2.1, h.2.2.1, h.2.2.2⟩, fun h => ⟨h.valid, h.isAck, h.toUs, h.awaits⟩⟩

theorem frameFault_of_ack {e : DeliveryEngine} {frame ack : MessageEnvelope} {nowUs : UInt64}
    (hvalid : envelopeValid frame) (harriving : e.arriving? frame nowUs = some ack)
    (hack : ack.messageType = .ack) (hrouted : Routed e.localId ack nowUs) :
    e.frameFault frame nowUs = controlFault e.ackTracker ack := by
  rw [frameFault, if_neg (fun h => h hvalid), harriving]
  dsimp only
  rw [if_neg (fun h => h hrouted), if_pos (isControl_of_ack hack)]

theorem frameFault_of_late {e : DeliveryEngine} {frame env : MessageEnvelope} {nowUs : UInt64}
    (hvalid : envelopeValid frame) (harriving : e.arriving? frame nowUs = some env)
    (hlate : ExpiredAt nowUs env) : e.frameFault frame nowUs = none := by
  have hnot : ¬ Routed e.localId env nowUs := fun h => absurd hlate (Bool.eq_false_iff.mp h.1)
  rw [frameFault, if_neg (fun h => h hvalid), harriving]
  exact if_pos hnot

/-- What a forged acknowledgement does, from any engine in order. -/
theorem sameEntries_iff_guarded {e : DeliveryEngine} {i : Input} {r : Receiving}
    {ack : MessageEnvelope} (inv : Inv (fun _ => True) e) (hr : receiving? e i = some r)
    (hnow : r.nowUs > 0) (harrival : r.arrival? = some ack) (forges : r.Forges ack) :
    (∃ o e', exec i e = .ok (o, e') ∧ SameEntries r.engine.books e'.books) ↔
      ¬ r.Overflows ∧ (ExpiredAt r.nowUs ack ∨
        Guarded r.engine.ackTracker r.engine.localId ack.messageId ack.sourceId) := by
  obtain ⟨hvalid, hack, hdst, hawaits⟩ := forges
  obtain ⟨frame, hasked, harriving⟩ := Option.bind_eq_some_iff.mp harrival
  have hframe := hvalid frame hasked
  obtain ⟨hinv, -, -⟩ := inv.receiving hr
  have hframes : Delivers (fun _ => True) i.transport := fun _ _ _ => trivial
  have hrouted (hfresh : ¬ ExpiredAt r.nowUs ack) : Routed r.engine.localId ack r.nowUs :=
    ⟨Bool.eq_false_iff.mpr hfresh, .inl hdst⟩
  constructor
  · rintro ⟨o, e', hexec, hsame⟩
    obtain ⟨hfault, reply, -, houtcome⟩ := exec_of_receiving headerProperty_true inv hframes hr hnow hexec
    obtain ⟨hover, hfault⟩ := (drainedFault_of_frame hasked).mp hfault
    refine ⟨hover, ?_⟩
    by_cases hlate : ExpiredAt r.nowUs ack
    · exact .inl hlate
    · have hroute := hrouted hlate
      rw [frameFault_of_ack hframe harriving hack hroute,
        controlFault_eq_none r.engine.ackTracker hack] at hfault
      rw [books_of_arrival harrival houtcome, if_pos ⟨hroute, isControl_of_ack hack⟩,
        Books.afterControl] at hsame
      by_cases hforeign : Foreign r.engine.ackTracker ack
      · obtain ⟨dst, htracked, hne⟩ := hforeign
        refine .inr ⟨dst, hdst ▸ htracked, ?_, hne⟩
        rintro rfl
        exact hfault.2 htracked
      · have hnot : ¬ (ack.messageType ≠ .ack ∨ Foreign r.engine.books.ackTracker ack) := by
          rintro (h | h)
          · exact h hack
          · exact hforeign h
        rw [if_neg hnot, hdst] at hsame
        exact absurd hsame (not_sameEntries_acked hawaits)
  · rintro ⟨hover, hspared⟩
    have hfault : r.engine.drainedFault r.timeoutMs r.nowUs = none := by
      refine (drainedFault_of_frame hasked).mpr ⟨hover, ?_⟩
      by_cases hlate : ExpiredAt r.nowUs ack
      · exact frameFault_of_late hframe harriving hlate
      · obtain ⟨dst, htracked, hne, -⟩ := hspared.resolve_left hlate
        rw [frameFault_of_ack hframe harriving hack (hrouted hlate),
          controlFault_eq_none r.engine.ackTracker hack, hdst]
        exact ⟨hinv.localId, fun hzero => hne (Option.some.inj (htracked.symm.trans hzero))⟩
    obtain ⟨reply, e', hexec, -, houtcome⟩ :=
      exec_receiving headerProperty_true inv hframes hr hnow hfault
    refine ⟨_, e', hexec, ?_⟩
    have hbooks : e'.books = r.engine.books := by
      rw [books_of_arrival harrival houtcome]
      split
      case isFalse _ => rfl
      case isTrue hroute =>
        rcases hspared with hlate | ⟨dst, htracked, -, hne⟩
        · exact absurd hlate (Bool.eq_false_iff.mp hroute.1.1)
        · rw [Books.afterControl, if_pos]
          exact .inr ⟨dst, hdst ▸ htracked, hne⟩
    rw [hbooks]
    exact ⟨rfl, rfl⟩

/-- A forged acknowledgement leaves the pending entries and the active retries as they were exactly
when it is late or the tracker has the message down for another node, and the call does not stop at
the counter of drops. -/
theorem forged_ack_ignored_iff (cfg : ChannelConfig) (localId : NodeId) (entropy : UInt64)
    (inputs : List Input) (os : List Observation) (e : DeliveryEngine) (i : Input) (r : Receiving)
    (ack : MessageEnvelope) (hlocal : localId ≠ nodeIdInvalid)
    (hreached : Run.runAll exec inputs (init cfg localId entropy) = .ok (os, e))
    (hr : receiving? e i = some r) (hnow : r.nowUs > 0) (harrival : r.arrival? = some ack)
    (forges : r.Forges ack) :
    (∃ o e', exec i e = .ok (o, e') ∧ SameEntries r.engine.books e'.books) ↔
      ¬ r.Overflows ∧ (ExpiredAt r.nowUs ack ∨
        Guarded r.engine.ackTracker r.engine.localId ack.messageId ack.sourceId) := by
  obtain ⟨inv, -⟩ := reachable_inv (P := fun _ => True) headerProperty_true hlocal
    (fun _ _ _ _ _ => trivial) hreached
  exact sameEntries_iff_guarded inv hr hnow harrival forges

/-! ## A retry that a third node cancels -/

/-- A `RELIABLE_RETRY` message to node 2. -/
def sendRetry (nowUs : UInt64) : Input :=
  ⟨.send { plainData 1 0 0 with destinationId := 2, reliabilityClass := .reliableRetry } nowUs, silent⟩

def sweepAt (nowUs : UInt64) : Input := ⟨.sweepAckTimeouts nowUs, silent⟩

/-- Node 3 acknowledges the first message of node 1. -/
def forgedAck : MessageEnvelope :=
  { plainData 3 0 0 with messageType := .ack, messageId := idSeed 7 1 }

theorem forged_ack_cancels_retry : ∃ os e r ack,
    Run.runAll exec [sendRetry 1, sweepAt 2000000] (init orderedConfig 1 7) = .ok (os, e) ∧
    receiving? e (receiveOf 2000001 forgedAck) = some r ∧ r.nowUs > 0 ∧ r.arrival? = some ack ∧
    r.Forges ack ∧
    ¬ ∃ o e', exec (receiveOf 2000001 forgedAck) e = .ok (o, e') ∧
      SameEntries r.engine.books e'.books := by
  have hends : Run.Ends exec [sendRetry 1, sweepAt 2000000] (init orderedConfig 1 7) fun e =>
      ∃ r ∈ receiving? e (receiveOf 2000001 forgedAck), r.nowUs > 0 ∧ ∃ ack ∈ r.arrival?,
        r.Forges ack ∧ Run.Ends exec [receiveOf 2000001 forgedAck] e fun e' =>
          e'.retryManager.activeEntries.length ≠ r.engine.retryManager.activeEntries.length := by
    decide +kernel
  obtain ⟨os, e, hrun, r, hr, hnow, ack, harrival, hforges, hends⟩ := hends.exists
  refine ⟨os, e, r, ack, hrun, hr, hnow, harrival, hforges, ?_⟩
  rintro ⟨o, e', hexec, -, hactive⟩
  obtain ⟨os', e'', hone, hne⟩ := hends.exists
  have hsame : e'' = e' := by
    rw [Run.runAll, hexec] at hone
    cases hone
    rfl
  exact hne (by rw [hsame]; exact congrArg List.length hactive)

theorem forged_ack_ignored_tracked : ∃ os e r ack,
    Run.runAll exec [sendRetry 1] (init orderedConfig 1 7) = .ok (os, e) ∧
    receiving? e (receiveOf 2 forgedAck) = some r ∧ r.arrival? = some ack ∧ r.Forges ack ∧
    ∃ o e', exec (receiveOf 2 forgedAck) e = .ok (o, e') ∧ SameEntries r.engine.books e'.books := by
  have hends : Run.Ends exec [sendRetry 1] (init orderedConfig 1 7) fun e =>
      ∃ r ∈ receiving? e (receiveOf 2 forgedAck), r.nowUs > 0 ∧ ∃ ack ∈ r.arrival?,
        r.Forges ack ∧ ¬ r.Overflows ∧
          Guarded r.engine.ackTracker r.engine.localId ack.messageId ack.sourceId := by
    decide +kernel
  obtain ⟨os, e, hrun, r, hr, hnow, ack, harrival, hforges, hover, hguarded⟩ := hends.exists
  exact ⟨os, e, r, ack, hrun, hr, harrival, hforges,
    (forged_ack_ignored_iff orderedConfig 1 7 _ os e _ r ack (by decide) hrun hr hnow harrival
      hforges).mpr ⟨hover, .inr hguarded⟩⟩

end DeliveryEngine

end MessageEngine
