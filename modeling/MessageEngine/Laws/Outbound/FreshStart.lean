import MessageEngine.Laws.Outbound.Booking
import MessageEngine.Laws.Outbound.Renumbering

/-!
# A reset is complete, local and done once

`reset_peer_ordering` goes through five tables that are keyed by different things: the two of
messages that were sent by destination, the two of the ordering gate by source, the numbers by
destination again. The gate is reset only when the peer is known to it; that this misses no hold is
its invariant, by which every hold has a tracked source.

## What is proved

- `resetPeer_tables`: the gate after a reset, slot by slot;
- `reset_forgotten`: where nothing of a peer is left, a reset changes nothing but the trace;
- `reset_complete`: in every reachable state a reset leaves nothing of the peer, touches nothing of
  any other node, and a second one changes nothing.
-/

namespace MessageEngine

open Outcome Table OrderingBuffer

namespace OrderingBuffer

variable {Q : MessageEnvelope → Prop} {b b' : OrderingBuffer} {src : NodeId}

/-- The hold belongs to `src`. -/
abbrev HoldSlot.ownedBy (src : NodeId) (h : HoldSlot) : Prop := h.active = true ∧ h.env.sourceId = src

instance (p : PeerState) (src : NodeId) : Decidable (p.isFor src) := inferInstanceAs (Decidable (_ ∧ _))

/-- The gate after a reset, slot by slot. -/
theorem resetPeer_tables (inv : Inv Q b) (h : b.resetPeer src = .ok b') :
    (∀ i : Fin orderingPeerCount, b'.peers[i] =
      if b.peers[i].isFor src then { b.peers[i] with nextExpectedSeq := 1 } else b.peers[i]) ∧
    (∀ i : Fin orderingHoldCount, b'.hold[i] =
      if b.hold[i].ownedBy src then { b.hold[i] with active := false } else b.hold[i]) ∧
    b'.lruCounter = b.lruCounter := by
  obtain ⟨hsrc, h⟩ := ensure_bind_eq_ok.mp h
  rw [findPeer_eq b hsrc, ok_bind] at h
  cases hfound : firstSlot? (fun p => p.active && p.src == src) b.peers with
  | none =>
    rw [hfound] at h
    cases h
    have hnone (i : Fin orderingPeerCount) : ¬ b.peers[i].isFor src := by
      intro hi
      cases hfound.symm.trans (peer_found inv hi)
    refine ⟨fun i => (if_neg (hnone i)).symm, fun i => (if_neg ?_).symm, rfl⟩
    intro howned
    obtain ⟨j, hj⟩ := inv.tracked _ ⟨i, howned.1, rfl⟩
    rw [howned.2] at hj
    exact hnone j hj
  | some j =>
    rw [hfound] at h
    cases h
    have hj : b.peers[j].isFor src := by simpa [PeerState.isFor] using firstSlot?_some hfound
    refine ⟨fun i => ?_, fun i => ?_, rfl⟩
    · rw [getElem_set_fin]
      by_cases hij : j = i
      · rw [if_pos hij, ← hij, if_pos hj]
      · have hother : ¬ b.peers[i].isFor src := by
          intro hi
          exact hij (Option.some.inj (hfound.symm.trans (peer_found inv hi)))
        rw [if_neg hij, if_neg hother]
    · rw [getElem_fin, Vector.getElem_map]
      rfl

end OrderingBuffer

namespace DeliveryEngine

variable {P : MessageEnvelope → Prop} {e e' : DeliveryEngine} {src : NodeId}

/-- Nothing of the peer is left. -/
structure Forgotten (src : NodeId) (e : DeliveryEngine) : Prop where
  acks : ∀ i : Fin ackTrackerCapacity, ¬ e.ackTracker.slots[i].owedBy src
  retries : ∀ i : Fin ackTrackerCapacity, ¬ e.retryManager.slots[i].owedBy src
  cursor : ∀ i : Fin orderingPeerCount, e.ordering.peers[i].isFor src →
    e.ordering.peers[i].nextExpectedSeq = 1
  holds : ∀ i : Fin orderingHoldCount, ¬ e.ordering.hold[i].ownedBy src
  staged : ¬ (e.heldPendingValid = true ∧ e.heldPending.sourceId = src)
  numbers : ∀ i : Fin ackTrackerCapacity, SeqState.isFor e.seqState[i] src = true → e.seqState[i].nextSeq = 1

/-- What concerns other nodes, or is no table of peers, is unchanged. -/
structure LeavesOthers (src : NodeId) (e e' : DeliveryEngine) : Prop where
  acks : ∀ i : Fin ackTrackerCapacity, ¬ e.ackTracker.slots[i].owedBy src →
    e'.ackTracker.slots[i] = e.ackTracker.slots[i]
  retries : ∀ i : Fin ackTrackerCapacity, ¬ e.retryManager.slots[i].owedBy src →
    e'.retryManager.slots[i] = e.retryManager.slots[i]
  peers : ∀ i : Fin orderingPeerCount, ¬ e.ordering.peers[i].isFor src →
    e'.ordering.peers[i] = e.ordering.peers[i]
  holds : ∀ i : Fin orderingHoldCount, ¬ e.ordering.hold[i].ownedBy src →
    e'.ordering.hold[i] = e.ordering.hold[i]
  staged : ¬ (e.heldPendingValid = true ∧ e.heldPending.sourceId = src) →
    e'.heldPendingValid = e.heldPendingValid ∧ e'.heldPending = e.heldPending
  numbers : ∀ i : Fin ackTrackerCapacity, ¬ SeqState.isFor e.seqState[i] src = true →
    e'.seqState[i] = e.seqState[i]
  dedup : e'.dedup = e.dedup
  reassembly : e'.reassembly = e.reassembly

/-- The entry of a destination after its sequence started over. -/
theorem getElem_restart {v : Vector SeqState ackTrackerCapacity} (h : SeqDistinct v)
    (i : Fin ackTrackerCapacity) :
    (restart v src)[i] = if SeqState.isFor v[i] src = true then { v[i] with nextSeq := 1 } else v[i] := by
  unfold restart
  cases hfound : firstSlot? (fun s => s.active && s.dst == src) v with
  | none =>
    have hnone : ¬ SeqState.isFor v[i] src = true := by
      intro hi
      cases hfound.symm.trans (h.found hi)
    rw [if_neg hnone]
  | some j =>
    have hj : SeqState.isFor v[j] src = true := firstSlot?_some hfound
    dsimp only
    rw [getElem_set_fin]
    by_cases hij : j = i
    · rw [if_pos hij, ← hij, if_pos hj]
    · have hother : ¬ SeqState.isFor v[i] src = true := by
        intro hi
        exact hij (Option.some.inj (hfound.symm.trans (h.found hi)))
      rw [if_neg hij, if_neg hother]

/-- A reset leaves nothing of the peer and spares the others. -/
theorem reset_forgets (inv : Inv P e) (distinct : SeqDistinct e.seqState)
    (h : e.resetPeerOrdering src = .ok e') : Forgotten src e' ∧ LeavesOthers src e e' := by
  obtain ⟨ordering, n, ackTracker, k, retryManager, events, trace, hreset, hack, hretry, -, rfl⟩ :=
    resetPeerOrdering_eq h
  obtain ⟨hpeers, hholds, -⟩ := resetPeer_tables inv.ordering hreset
  have hacks := (AckTracker.cancelPeer_cases hack).1.slots.all
  have hretries := (RetryManager.cancelPeer_cases hretry).1.slots.all
  have hnumbers : ∀ i : Fin ackTrackerCapacity, (restart e.seqState src)[i] = _ := getElem_restart distinct
  refine ⟨⟨fun i hi => ?_, fun i hi => ?_, fun i hi => ?_, fun i hi => ?_, fun hstaged => ?_, fun i hi => ?_⟩,
    ⟨fun i hi => ?_, fun i hi => ?_, fun i hi => ?_, fun i hi => ?_, fun hstaged => ?_, fun i hi => ?_,
      rfl, rfl⟩⟩
  · rw [hacks i, AckTracker.Entry.cancelled] at hi
    split at hi
    case isTrue _ => cases hi.1
    case isFalse hother => exact hother hi
  · rw [hretries i, RetryManager.RetryEntry.cancelled] at hi
    split at hi
    case isTrue _ => cases hi.1
    case isFalse hother => exact hother hi
  · rw [hpeers i] at hi ⊢
    split at hi
    case isTrue hmine => rw [if_pos hmine]
    case isFalse hother => exact absurd hi hother
  · rw [hholds i] at hi
    split at hi
    case isTrue _ => cases hi.1
    case isFalse hother => exact hother hi
  · obtain ⟨hvalid, hsource⟩ := hstaged
    dsimp only at hvalid hsource
    rw [hsource, bne_self_eq_false, Bool.and_false] at hvalid
    cases hvalid
  · dsimp only at hi ⊢
    rw [hnumbers i] at hi ⊢
    split at hi
    case isTrue hmine => rw [if_pos hmine]
    case isFalse hother => exact absurd hi hother
  · exact (hacks i).trans (if_neg hi)
  · exact (hretries i).trans (if_neg hi)
  · exact (hpeers i).trans (if_neg hi)
  · exact (hholds i).trans (if_neg hi)
  · refine ⟨?_, rfl⟩
    dsimp only
    cases hvalid : e.heldPendingValid with
    | false => rfl
    | true =>
      have hne : e.heldPending.sourceId ≠ src := fun heq => hstaged ⟨hvalid, heq⟩
      simp [hne]
  · exact (hnumbers i).trans (if_neg hi)

/-- Where nothing of the peer is left, a reset changes nothing but the trace. -/
theorem reset_forgotten (inv : Inv P e) (distinct : SeqDistinct e.seqState) (forgotten : Forgotten src e)
    (h : e.resetPeerOrdering src = .ok e') : ∃ trace, e' = { e with trace } := by
  obtain ⟨ordering, n, ackTracker, k, retryManager, events, trace, hreset, hack, hretry, hevents, rfl⟩ :=
    resetPeerOrdering_eq h
  obtain ⟨hpeers, hholds, hlru⟩ := resetPeer_tables inv.ordering hreset
  obtain ⟨hn, rfl⟩ := (AckTracker.cancelPeer_cases hack).2 forgotten.acks
  obtain ⟨hk, rfl⟩ := (RetryManager.cancelPeer_cases hretry).2 forgotten.retries
  have hheld : (e.heldPendingValid && e.heldPending.sourceId != src) = e.heldPendingValid := by
    cases hvalid : e.heldPendingValid with
    | false => rfl
    | true =>
      have hne : e.heldPending.sourceId ≠ src := fun heq => forgotten.staged ⟨hvalid, heq⟩
      simp [hne]
  have hordering : ordering = e.ordering := by
    have hpeers' : ordering.peers = e.ordering.peers := by
      ext1 i hi
      refine (hpeers ⟨i, hi⟩).trans ?_
      split
      case isTrue hmine =>
        have hone := forgotten.cursor ⟨i, hi⟩ hmine
        rw [← hone]
        rfl
      case isFalse _ => rfl
    have hholds' : ordering.hold = e.ordering.hold := by
      ext1 i hi
      exact (hholds ⟨i, hi⟩).trans (if_neg (forgotten.holds ⟨i, hi⟩))
    obtain ⟨hold, peers, lruCounter⟩ := ordering
    cases hpeers'
    cases hholds'
    cases hlru
    rfl
  have hnumbers : restart e.seqState src = e.seqState := by
    ext1 i hi
    refine (getElem_restart distinct ⟨i, hi⟩).trans ?_
    split
    case isTrue hmine =>
      have hone := forgotten.numbers ⟨i, hi⟩ hmine
      rw [← hone]
      rfl
    case isFalse _ => rfl
  rw [hevents hn hk, hheld, hordering, hnumbers]
  exact ⟨trace, rfl⟩

/-- A reset is complete, local, and done once. -/
theorem reset_complete {cfg : ChannelConfig} {localId : NodeId} {entropy : UInt64} {inputs : List Input}
    {os : List Observation} {e : DeliveryEngine} (hlocal : localId ≠ nodeIdInvalid)
    (hreached : Run.runAll exec inputs (init cfg localId entropy) = .ok (os, e)) {src : NodeId}
    (hsrc : src ≠ 0) :
    ∃ e', e.resetPeerOrdering src = .ok e' ∧ Forgotten src e' ∧ LeavesOthers src e e' ∧
      ∃ trace, e'.resetPeerOrdering src = .ok { e' with trace } := by
  obtain ⟨inv, distinct⟩ := reachable_distinct hlocal hreached
  obtain ⟨e', hreset, hinv, -⟩ := resetPeerOrdering_spec inv hsrc
  obtain ⟨forgotten, spared⟩ := reset_forgets inv distinct hreset
  have hdistinct : SeqDistinct e'.seqState := by
    obtain ⟨_, _, _, _, _, _, _, -, -, -, -, rfl⟩ := resetPeerOrdering_eq hreset
    exact distinct.restart src
  obtain ⟨e'', hreset', -⟩ := resetPeerOrdering_spec hinv hsrc
  obtain ⟨trace, rfl⟩ := reset_forgotten hinv hdistinct forgotten hreset'
  exact ⟨e', hreset, forgotten, spared, trace, hreset'⟩

/-- A message to node 2 is waiting, for its acknowledgement and to be sent again. -/
theorem reset_complete_sent : ∃ os e e', Run.runAll exec [sendRetry 1] (init orderedConfig 1 7) = .ok (os, e) ∧
    (∃ i : Fin ackTrackerCapacity, e.retryManager.slots[i].owedBy 2) ∧
    e.resetPeerOrdering 2 = .ok e' ∧ Forgotten 2 e' ∧ LeavesOthers 2 e e' ∧
    ∃ trace, e'.resetPeerOrdering 2 = .ok { e' with trace } := by
  have hends : Run.Ends exec [sendRetry 1] (init orderedConfig 1 7) fun e =>
      ∃ i : Fin ackTrackerCapacity, e.retryManager.slots[i].owedBy 2 := by
    decide +kernel
  obtain ⟨os, e, hrun, howed⟩ := hends.exists
  obtain ⟨e', hreset⟩ := reset_complete (by decide) hrun (show (2 : NodeId) ≠ 0 by decide)
  exact ⟨os, e, e', hrun, howed, hreset⟩

end DeliveryEngine

end MessageEngine
