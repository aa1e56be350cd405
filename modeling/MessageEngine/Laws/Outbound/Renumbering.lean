import MessageEngine.Laws.Outbound.Sending

/-!
# The table of outbound numbers

Each destination has its own sequence of numbers, kept in a table of its own. A send draws a number,
a reset starts the sequence of one destination over, and nothing else touches the table.

## What is proved

- `resetPeerOrdering_eq`: a reset, table by table;
- `exec_seqState`: what each public call does to the table of numbers;
- `reachable_distinct`: no destination ever has two entries.
-/

namespace MessageEngine

open Outcome Table OrderingBuffer

namespace DeliveryEngine

variable {P : MessageEnvelope → Prop} {e e' : DeliveryEngine} {src : NodeId} {nowUs : UInt64}

/-! ## Resets -/

/-- The sequence of `src` starts over. -/
def restart (v : Vector SeqState ackTrackerCapacity) (src : NodeId) : Vector SeqState ackTrackerCapacity :=
  match firstSlot? (fun s => s.active && s.dst == src) v with
  | some i => v.set i { v[i] with nextSeq := 1 } i.isLt
  | none => v

theorem restartSequence_restart (e : DeliveryEngine) (src : NodeId) :
    e.restartSequence src = { e with seqState := restart e.seqState src } := by
  unfold restartSequence restart
  cases firstSlot? (fun s => s.active && s.dst == src) e.seqState with
  | some i => rfl
  | none => rfl

theorem emitReconnect_eq {ts : UInt64} (n : Nat) :
    ∀ {e e' : DeliveryEngine}, resetPeerOrdering.emit src ts n e = .ok e' →
      ∃ events, e' = { e with events } ∧ (n = 0 → events = e.events) := by
  induction n with
  | zero =>
    intro e e' h
    cases h
    exact ⟨e.events, rfl, fun _ => rfl⟩
  | succ n ih =>
    intro e e' h
    obtain ⟨e₁, hemit, h⟩ := bind_eq_ok.mp h
    obtain ⟨-, hemit⟩ := ensure_bind_eq_ok.mp hemit
    obtain ⟨events, -, hemit⟩ := bind_eq_ok.mp hemit
    cases hemit
    obtain ⟨events', rfl, -⟩ := ih h
    exact ⟨events', rfl, fun hzero => absurd hzero (Nat.succ_ne_zero n)⟩

theorem discardHeld_eq (e : DeliveryEngine) (src : NodeId) :
    ∃ trace, e.discardHeld src = { e with
      heldPendingValid := e.heldPendingValid && e.heldPending.sourceId != src, trace } := by
  unfold discardHeld
  by_cases hmine : e.heldPendingValid ∧ e.heldPending.sourceId = src
  · rw [if_pos hmine, hmine.1, hmine.2, bne_self_eq_false, Bool.and_false]
    exact ⟨_, rfl⟩
  · have hkeep : (e.heldPendingValid && e.heldPending.sourceId != src) = e.heldPendingValid := by
      cases hvalid : e.heldPendingValid with
      | false => rfl
      | true =>
        have hne : e.heldPending.sourceId ≠ src := fun heq => hmine ⟨hvalid, heq⟩
        simp [hne]
    rw [if_neg hmine, hkeep]
    exact ⟨_, rfl⟩

/-- What a reset does after it dropped the staged message. -/
theorem resetTables_eq {e₁ : DeliveryEngine} {ts : UInt64}
    (h : (do
      let (ackCancelled, ackTracker) ← e₁.ackTracker.cancelPeer src
      let e ← resetPeerOrdering.emit src ts ackCancelled { e₁ with ackTracker }
      let (retryCancelled, retryManager) ← e.retryManager.cancelPeer src
      resetPeerOrdering.emit src ts retryCancelled { e with retryManager }) = .ok e') :
    ∃ n ackTracker k retryManager events, e₁.ackTracker.cancelPeer src = .ok (n, ackTracker) ∧
      e₁.retryManager.cancelPeer src = .ok (k, retryManager) ∧
      (n = 0 → k = 0 → events = e₁.events) ∧ e' = { e₁ with ackTracker, retryManager, events } := by
  obtain ⟨⟨n, ackTracker⟩, hack, h⟩ := bind_eq_ok.mp h
  obtain ⟨e₂, hemit, h⟩ := bind_eq_ok.mp h
  obtain ⟨events₁, rfl, hnone₁⟩ := emitReconnect_eq n hemit
  obtain ⟨⟨k, retryManager⟩, hretry, h⟩ := bind_eq_ok.mp h
  obtain ⟨events₂, rfl, hnone₂⟩ := emitReconnect_eq k h
  refine ⟨n, ackTracker, k, retryManager, events₂, hack, hretry, ?_, rfl⟩
  intro hn hk
  exact (hnone₂ hk).trans (hnone₁ hn)

/-- A reset, table by table. -/
theorem resetPeerOrdering_eq (h : e.resetPeerOrdering src = .ok e') :
    ∃ ordering n ackTracker k retryManager events trace,
      e.ordering.resetPeer src = .ok ordering ∧ e.ackTracker.cancelPeer src = .ok (n, ackTracker) ∧
      e.retryManager.cancelPeer src = .ok (k, retryManager) ∧
      (n = 0 → k = 0 → events = e.events) ∧
      e' = { e with
        heldPendingValid := e.heldPendingValid && e.heldPending.sourceId != src
        ordering, seqState := restart e.seqState src, ackTracker, retryManager, events, trace } := by
  obtain ⟨-, h⟩ := ensure_bind_eq_ok.mp h
  obtain ⟨trace, hheld⟩ := discardHeld_eq e src
  dsimp only at h
  rw [hheld] at h
  obtain ⟨ordering, hreset, h⟩ := bind_eq_ok.mp h
  rw [restartSequence_restart] at h
  obtain ⟨n, ackTracker, k, retryManager, events, hack, hretry, hnone, rfl⟩ := resetTables_eq h
  exact ⟨ordering, n, ackTracker, k, retryManager, events, _, hreset, hack, hretry, hnone, rfl⟩

theorem drainHelloReconnects_seqState (rounds : Nat) :
    ∀ {e e' : DeliveryEngine}, drainHelloReconnects rounds e = .ok e' →
      e'.seqState = (reconnects rounds e.transport).foldl restart e.seqState := by
  induction rounds with
  | zero =>
    intro e e' h
    cases h
    rfl
  | succ rounds ih =>
    intro e e' h
    unfold drainHelloReconnects popHelloPeer at h
    cases hpeers : e.transport.helloPeers with
    | nil =>
      rw [hpeers] at h
      cases h
      rw [reconnects, hpeers]
      rfl
    | cons peer rest =>
      rw [hpeers] at h
      dsimp only at h
      by_cases hzero : peer = nodeIdInvalid
      · rw [if_pos hzero] at h
        cases h
        rw [reconnects, hpeers, List.take_succ_cons, hzero]
        rfl
      · rw [if_neg hzero] at h
        obtain ⟨e₁, hreset, h⟩ := bind_eq_ok.mp h
        obtain ⟨_, _, _, _, _, _, _, -, -, -, -, rfl⟩ := resetPeerOrdering_eq hreset
        rw [ih h]
        have hlist : reconnects (rounds + 1) e.transport = peer :: reconnects rounds
            { e.transport with helloPeers := rest } := by
          rw [reconnects, hpeers, List.take_succ_cons, List.takeWhile_cons_of_pos (by simpa using hzero)]
          rfl
        rw [hlist, List.foldl_cons]

/-! ## Each call -/

theorem receive_seqState (hp : HeaderProperty P) (inv : Inv P e) (hframes : Delivers P e.transport)
    {timeoutMs : UInt32} {reply : Reply} (h : e.receive timeoutMs nowUs = .ok (reply, e')) :
    e'.seqState = if e.Stale nowUs then e.seqState
      else (reconnects orderingPeerCount e.transport).foldl restart e.seqState := by
  obtain ⟨hnow, h⟩ := ensure_bind_eq_ok.mp h
  by_cases hstale : e.Stale nowUs
  · rw [if_pos hstale]
    cases h.symm.trans (if_pos hstale)
    rfl
  · rw [if_neg hstale]
    replace h := (if_neg hstale).symm.trans h
    obtain ⟨d, hdrain, h⟩ := bind_eq_ok.mp h
    obtain ⟨d', hd, hinv, -, hframe⟩ := drained_spec inv nowUs
    cases hd.symm.trans hdrain
    have hframes' : Delivers P d.transport := by
      intro t frame hframe'
      rw [hframe.inbound] at hframe'
      exact hframes t frame hframe'
    have hseq := drainHelloReconnects_seqState orderingPeerCount hdrain
    cases hfault : d.drainedFault timeoutMs nowUs with
    | some site =>
      rw [receiveDrained_fault hp hinv hnow hframes' hfault] at h
      cases h
    | none =>
      obtain ⟨reply', e₁, hrun, -, -, hsteady⟩ := receiveDrained_spec hp hinv hnow hframes' hfault
      cases hrun.symm.trans h
      rw [hsteady.seqState, hseq]

theorem pumpLoop_seqState (collected : List MessageEnvelope) :
    ∀ {e e' : DeliveryEngine}, pumpRetries.loop nowUs collected e = .ok e' → e'.seqState = e.seqState := by
  induction collected with
  | nil =>
    intro e e' h
    cases h
    rfl
  | cons env rest ih =>
    intro e e' h
    obtain ⟨⟨res, e₁⟩, hsend, h⟩ := bind_eq_ok.mp h
    obtain ⟨sent, answers, rfl, -⟩ := sendFragments_carries hsend
    dsimp only at h
    rw [ite_bind] at h
    obtain ⟨e₂, hemit, h⟩ := bind_eq_ok.mp h
    rw [ih h]
    split at hemit
    · cases hemit
      rfl
    · obtain ⟨-, hemit⟩ := ensure_bind_eq_ok.mp hemit
      obtain ⟨events, -, hemit⟩ := bind_eq_ok.mp hemit
      cases hemit
      rfl

theorem pumpRetries_seqState {n : Nat} (h : e.pumpRetries nowUs = .ok (n, e')) :
    e'.seqState = e.seqState := by
  obtain ⟨-, h⟩ := ensure_bind_eq_ok.mp h
  split at h
  · cases h
    rfl
  · obtain ⟨⟨collected, retryManager⟩, -, h⟩ := bind_eq_ok.mp h
    obtain ⟨-, h⟩ := ensure_bind_eq_ok.mp h
    obtain ⟨e₁, hloop, h⟩ := bind_eq_ok.mp h
    cases h
    have hsame := pumpLoop_seqState collected hloop
    exact hsame

theorem sweepAckTimeouts_seqState (inv : Inv P e) {n : Nat} (h : e.sweepAckTimeouts nowUs = .ok (n, e')) :
    e'.seqState = e.seqState := by
  have hnow : nowUs > 0 := (ensure_bind_eq_ok.mp h).1
  by_cases hstale : e.Stale nowUs
  · cases (sweepAckTimeouts_stale hnow hstale).symm.trans h
    rfl
  · obtain ⟨_, _, _, hrun, -, -, -, -, -, hsame⟩ := sweepAckTimeouts_spec inv hnow hstale
    cases hrun.symm.trans h
    exact hsame

theorem send_seqState {env out : MessageEnvelope} {res : Result}
    (h : e.send env nowUs = .ok ((res, out), e')) :
    e'.seqState = if e.Stale nowUs then e.seqState else (e.drawn env).2 := by
  cases send_outcome h with
  | refused stale => rw [if_pos stale]
  | unbooked fresh _ _ record =>
    rw [if_neg fresh]
    rcases recordSendFailure_cases record with ⟨-, events, -, rfl⟩ | ⟨-, events, rfl⟩
    · rfl
    · rfl
  | failed fresh _ _ _ _ record =>
    rw [if_neg fresh]
    rcases recordSendFailure_cases record with ⟨-, events, -, rfl⟩ | ⟨-, events, rfl⟩
    · rfl
    · rfl
  | sent fresh _ _ =>
    rw [if_neg fresh]
    rfl

/-- The table of numbers after a call: a send draws, a reset restarts, nothing else touches it. -/
def renumbered (e : DeliveryEngine) (i : Input) : Vector SeqState ackTrackerCapacity :=
  match i.call with
  | .send env nowUs => if e.Stale nowUs then e.seqState else (e.drawn env).2
  | .receive _ nowUs => if e.Stale nowUs then e.seqState
      else (reconnects orderingPeerCount i.transport).foldl restart e.seqState
  | .resetPeerOrdering src => restart e.seqState src
  | _ => e.seqState

theorem exec_seqState (inv : Inv (fun _ => True) e) {i : Input} {o : Observation}
    (h : exec i e = .ok (o, e')) : e'.seqState = e.renumbered i := by
  have hinv := inv.attach i.transport
  obtain ⟨call, transport⟩ := i
  obtain ⟨⟨answer, e₁⟩, hrun, heq⟩ := bind_eq_ok.mp h
  cases heq
  cases call with
  | send env nowUs =>
    obtain ⟨⟨⟨res, out⟩, e₂⟩, hsend, heq⟩ := bind_eq_ok.mp hrun
    cases heq
    have hsame := send_seqState hsend
    exact hsame
  | receive timeoutMs nowUs =>
    obtain ⟨⟨reply, e₂⟩, hreceive, heq⟩ := bind_eq_ok.mp hrun
    cases heq
    have hsame := receive_seqState headerProperty_true hinv (fun _ _ _ => trivial) hreceive
    exact hsame
  | pumpRetries nowUs =>
    obtain ⟨⟨n, e₂⟩, hpump, heq⟩ := bind_eq_ok.mp hrun
    cases heq
    have hsame := pumpRetries_seqState hpump
    exact hsame
  | sweepAckTimeouts nowUs =>
    obtain ⟨⟨n, e₂⟩, hsweep, heq⟩ := bind_eq_ok.mp hrun
    cases heq
    have hsame := sweepAckTimeouts_seqState hinv hsweep
    exact hsame
  | resetPeerOrdering src =>
    obtain ⟨e₂, hreset, heq⟩ := bind_eq_ok.mp hrun
    cases heq
    obtain ⟨_, _, _, _, _, _, _, -, -, -, -, rfl⟩ := resetPeerOrdering_eq hreset
    rfl
  | pollEvent =>
    obtain ⟨⟨ev, e₂⟩, hpoll, heq⟩ := bind_eq_ok.mp hrun
    cases heq
    obtain ⟨out, events, hspec, -⟩ := pollEvent_spec hinv
    cases hspec.symm.trans hpoll
    rfl
  | drainEvents bufCap =>
    obtain ⟨⟨evs, e₂⟩, hdrain, heq⟩ := bind_eq_ok.mp hrun
    cases heq
    obtain ⟨out, events, hspec, -⟩ := drainEvents_spec bufCap.toNat hinv
    cases hspec.symm.trans hdrain
    rfl

/-! ## One entry a destination -/

/-- No destination has two entries. -/
def SeqDistinct (v : Vector SeqState ackTrackerCapacity) : Prop :=
  ∀ i j : Fin ackTrackerCapacity, v[i].active = true → v[j].active = true → v[j].dst = v[i].dst → j = i

variable {v : Vector SeqState ackTrackerCapacity} {dst : NodeId}

/-- The entry of a destination. -/
def SeqState.isFor (s : SeqState) (dst : NodeId) : Bool := s.active && s.dst == dst

theorem isFor_iff {s : SeqState} : SeqState.isFor s dst = true ↔ s.active = true ∧ s.dst = dst := by
  simp [SeqState.isFor]

/-- The search for a destination hits its entry. -/
theorem SeqDistinct.found (h : SeqDistinct v) {i : Fin ackTrackerCapacity}
    (hi : SeqState.isFor v[i] dst = true) :
    firstSlot? (fun s => s.active && s.dst == dst) v = some i := by
  refine firstSlot?_eq_some hi fun j hj => ?_
  obtain ⟨hactive, rfl⟩ := isFor_iff.mp hi
  obtain ⟨hactive', hdst⟩ := isFor_iff.mp hj
  exact h i j hactive hactive' hdst

/-- Only the number of an entry changed. -/
theorem SeqDistinct.renumber (h : SeqDistinct v) (i : Fin ackTrackerCapacity) (nextSeq : UInt32) :
    SeqDistinct (v.set i { v[i] with nextSeq } i.isLt) := by
  have hsame (j : Fin ackTrackerCapacity) :
      (v.set i { v[i] with nextSeq } i.isLt)[j].active = v[j].active ∧
      (v.set i { v[i] with nextSeq } i.isLt)[j].dst = v[j].dst := by
    rw [getElem_set_fin]
    split
    case isTrue heq =>
      rw [heq]
      exact ⟨rfl, rfl⟩
    case isFalse _ => exact ⟨rfl, rfl⟩
  intro j k hj hk hdst
  rw [(hsame j).1] at hj
  rw [(hsame k).1] at hk
  rw [(hsame j).2, (hsame k).2] at hdst
  exact h j k hj hk hdst

theorem SeqDistinct.restart (h : SeqDistinct v) (src : NodeId) : SeqDistinct (restart v src) := by
  unfold DeliveryEngine.restart
  split
  · exact h.renumber _ 1
  · exact h

theorem SeqDistinct.draw (h : SeqDistinct v) (dst : NodeId) : SeqDistinct (draw v dst).2 := by
  unfold DeliveryEngine.draw
  cases hfound : firstSlot? (fun s => s.active && s.dst == dst) v with
  | some i => exact h.renumber i _
  | none =>
    cases hfree : firstSlot? (fun s => !s.active) v with
    | none => exact h
    | some i =>
      have hnew (j : Fin ackTrackerCapacity) (hactive : v[j].active = true) : v[j].dst ≠ dst := by
        intro heq
        have hmiss := firstSlot?_none.mp hfound j
        rw [hactive, heq] at hmiss
        simp at hmiss
      intro j k hj hk hdst
      rw [getElem_set_fin] at hj hk hdst
      rw [getElem_set_fin] at hdst
      by_cases hij : i = j
      · by_cases hik : i = k
        · rw [← hij, ← hik]
        · rw [if_neg hik] at hk hdst
          rw [if_pos hij] at hdst
          exact absurd hdst (hnew k hk)
      · rw [if_neg hij] at hj hdst
        by_cases hik : i = k
        · rw [if_pos hik] at hdst
          exact absurd hdst.symm (hnew j hj)
        · rw [if_neg hik] at hk hdst
          exact h j k hj hk hdst

theorem SeqDistinct.foldl (h : SeqDistinct v) (srcs : List NodeId) :
    SeqDistinct (srcs.foldl DeliveryEngine.restart v) := by
  induction srcs generalizing v with
  | nil => exact h
  | cons src rest ih => exact ih (h.restart src)

theorem SeqDistinct.renumbered (h : SeqDistinct e.seqState) (i : Input) : SeqDistinct (e.renumbered i) := by
  unfold DeliveryEngine.renumbered
  cases i.call with
  | send env nowUs =>
    dsimp only
    split
    · exact h
    · unfold drawn
      split
      · exact h.draw _
      · exact h
  | receive timeoutMs nowUs =>
    dsimp only
    split
    · exact h
    · exact h.foldl _
  | resetPeerOrdering src => exact h.restart src
  | pumpRetries _ => exact h
  | sweepAckTimeouts _ => exact h
  | pollEvent => exact h
  | drainEvents _ => exact h

theorem distinct_init (cfg : ChannelConfig) (localId : NodeId) (entropy : UInt64) :
    SeqDistinct (init cfg localId entropy).seqState := by
  intro i j hi
  simp [init] at hi

/-- No reachable engine has two entries for a destination. -/
theorem reachable_distinct {cfg : ChannelConfig} {localId : NodeId} {entropy : UInt64}
    {inputs : List Input} {os : List Observation} (hlocal : localId ≠ nodeIdInvalid)
    (h : Run.runAll exec inputs (init cfg localId entropy) = .ok (os, e)) :
    Inv (fun _ => True) e ∧ SeqDistinct e.seqState := by
  refine Run.runAll_inv (I := fun e => Inv (fun _ => True) e ∧ SeqDistinct e.seqState) ?_ ?_ h
  · intro i _ e o e' hold hexec
    obtain ⟨inv, hdistinct⟩ := hold
    refine ⟨(exec_outcome headerProperty_true inv (fun _ _ _ => trivial) hexec).1, ?_⟩
    rw [exec_seqState inv hexec]
    exact hdistinct.renumbered i
  · exact ⟨inv_init cfg entropy hlocal, distinct_init cfg localId entropy⟩

end DeliveryEngine

end MessageEngine
