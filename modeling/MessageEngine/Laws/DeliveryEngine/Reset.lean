import MessageEngine.Laws.DeliveryEngine.Basic

/-!
# A peer starts over

`reset_peer_ordering` and the drain of the reconnect queue that begins every `receive`. In the
`Delivery` view a reset touches one source: its holds and its staged message go, its cursor goes
back to the start. A drain is a sequence of resets, so a property that every reset keeps, a drain
keeps (`Resets.keep`).
-/

namespace MessageEngine

open Outcome Table

namespace DeliveryEngine

variable {P : MessageEnvelope → Prop} {e e' : DeliveryEngine} {src : NodeId}

/-- What a reset of `src` does to the delivery state. -/
structure IsReset (src : NodeId) (d d' : Delivery) : Prop where
  source : src ≠ 0
  dedup : d'.dedup = d.dedup
  ordering : d.ordering.resetPeer src = .ok d'.ordering
  staged : d'.staged = d.staged.filter fun env => env.sourceId != src
  dropped : d'.dropped = d.dropped
  trace : d'.trace = d.trace ++
    ((d.staged.filter fun env => env.sourceId == src).toList.map Effect.heldDiscarded ++ [.reset src])

/-- The parts of the engine a call only reads. -/
structure Framed (e e' : DeliveryEngine) : Prop where
  localId : e'.localId = e.localId
  inbound : e'.transport.inbound = e.transport.inbound
  lastNowUs : e'.lastNowUs = e.lastNowUs

theorem Framed.refl (e : DeliveryEngine) : Framed e e := ⟨rfl, rfl, rfl⟩

theorem Framed.trans {e₁ e₂ e₃ : DeliveryEngine} (h : Framed e₁ e₂) (h' : Framed e₂ e₃) :
    Framed e₁ e₃ :=
  ⟨h'.localId.trans h.localId, h'.inbound.trans h.inbound, h'.lastNowUs.trans h.lastNowUs⟩

/-- The parts of the engine that receiving a frame only reads: a reset renumbers, a frame does not. -/
structure Steady (e e' : DeliveryEngine) : Prop extends Framed e e' where
  seqState : e'.seqState = e.seqState

theorem Steady.refl (e : DeliveryEngine) : Steady e e := ⟨Framed.refl e, rfl⟩

theorem Steady.trans {e₁ e₂ e₃ : DeliveryEngine} (h : Steady e₁ e₂) (h' : Steady e₂ e₃) :
    Steady e₁ e₃ :=
  ⟨h.toFramed.trans h'.toFramed, h'.seqState.trans h.seqState⟩

/-! ## Parts of a reset -/

theorem discardHeld_inv (inv : Inv P e) (src : NodeId) : Inv P (e.discardHeld src) := by
  unfold discardHeld
  split
  case isTrue _ => exact { inv with staged := fun h => Bool.noConfusion h }
  case isFalse _ => exact inv

theorem discardHeld_delivery (e : DeliveryEngine) (src : NodeId) :
    (e.discardHeld src).delivery = { e.delivery with
      staged := e.staged?.filter fun env => env.sourceId != src
      trace := e.trace ++ (e.staged?.filter fun env => env.sourceId == src).toList.map .heldDiscarded } := by
  unfold discardHeld
  cases hv : e.heldPendingValid with
  | false => simp [delivery, staged?, hv]
  | true =>
    by_cases hs : e.heldPending.sourceId = src
    · simp [delivery, staged?, note, hv, hs, Option.filter]
    · simp [delivery, staged?, hv, hs, Option.filter]

theorem discardHeld_framed (e : DeliveryEngine) (src : NodeId) :
    Framed e (e.discardHeld src) ∧ (e.discardHeld src).transport = e.transport := by
  unfold discardHeld
  split
  · exact ⟨⟨rfl, rfl, rfl⟩, rfl⟩
  · exact ⟨Framed.refl e, rfl⟩

theorem emitReconnect_spec (src : NodeId) {ts : UInt64} (hts : ts > 0) (n : Nat) :
    ∀ {e : DeliveryEngine}, Inv P e → ∃ events, resetPeerOrdering.emit src ts n e =
      .ok { e with events } ∧ events.Inv := by
  induction n with
  | zero => exact fun inv => ⟨_, rfl, inv.events⟩
  | succ n ih =>
    intro e inv
    obtain ⟨events, hemit, hinv⟩ := emitEvent_spec inv .reconnectCancel 0 src hts .ok
    obtain ⟨events', hrest, hinv'⟩ := ih (e := { e with events }) { inv with events := hinv }
    exact ⟨events', bind_eq_ok.mpr ⟨_, hemit, hrest⟩, hinv'⟩

theorem restartSequence_eq (e : DeliveryEngine) (src : NodeId) :
    ∃ seqState, e.restartSequence src = { e with seqState } := by
  unfold restartSequence
  cases firstSlot? (fun s => s.active && s.dst == src) e.seqState with
  | some i => exact ⟨_, rfl⟩
  | none => exact ⟨e.seqState, rfl⟩

/-- A reset of a real source never fails. -/
theorem resetPeerOrdering_spec (inv : Inv P e) (hsrc : src ≠ 0) :
    ∃ e', e.resetPeerOrdering src = .ok e' ∧ Inv P e' ∧ IsReset src e.delivery e'.delivery ∧
      Framed e e' ∧ e'.transport = e.transport := by
  have hinv₁ : Inv P ((e.discardHeld src).note (.reset src)) := { discardHeld_inv inv src with }
  have hframe := discardHeld_framed e src
  have hview := discardHeld_delivery e src
  unfold resetPeerOrdering
  simp only [ensure_pos hsrc, ok_bind]
  generalize e.discardHeld src = e₁ at hinv₁ hframe hview ⊢
  have hdedup : e₁.dedup = e.dedup := congrArg Delivery.dedup hview
  have hordering : e₁.ordering = e.ordering := congrArg Delivery.ordering hview
  have hdropped : e₁.stats.msgsDroppedExpired = e.stats.msgsDroppedExpired :=
    congrArg Delivery.dropped hview
  have hstaged : e₁.staged? = _ := congrArg Delivery.staged hview
  have htrace : e₁.trace = _ := congrArg Delivery.trace hview
  obtain ⟨ordering, hreset, hord, -⟩ := OrderingBuffer.resetPeer_spec hinv₁.ordering hsrc
  obtain ⟨seqState, hseq⟩ := restartSequence_eq { e₁.note (.reset src) with ordering } src
  obtain ⟨n, ackTracker, hack, hackInv⟩ := AckTracker.cancelPeer_spec hinv₁.ackTracker hsrc
  have hts : (if e₁.lastNowUs > 0 then e₁.lastNowUs else 1) > (0 : UInt64) := by
    split
    case isTrue h => exact h
    case isFalse _ => decide
  obtain ⟨events₁, hemit₁, hevents₁⟩ := emitReconnect_spec (P := P) src hts n
    (e := { e₁.note (.reset src) with ordering, seqState, ackTracker })
    { hinv₁ with ordering := hord, ackTracker := hackInv }
  obtain ⟨m, retryManager, hretry, hretryInv⟩ := RetryManager.cancelPeer_spec hinv₁.retryManager hsrc
  have hinv₂ : Inv P { e₁.note (.reset src) with
      ordering, seqState, ackTracker, events := events₁, retryManager } :=
    { hinv₁ with
      ordering := hord, ackTracker := hackInv, events := hevents₁, retryManager := hretryInv }
  obtain ⟨events₂, hemit₂, hevents₂⟩ := emitReconnect_spec src hts m hinv₂
  have hinv₃ : Inv P { e₁.note (.reset src) with
      ordering, seqState, ackTracker, events := events₂, retryManager } :=
    { hinv₂ with events := hevents₂ }
  refine ⟨_, bind_eq_ok.mpr ⟨ordering, hreset, ?_⟩, hinv₃, ?_, ?_⟩
  · rw [hseq]
    refine bind_eq_ok.mpr ⟨(n, ackTracker), hack, bind_eq_ok.mpr ⟨_, hemit₁, ?_⟩⟩
    exact bind_eq_ok.mpr ⟨(m, retryManager), hretry, hemit₂⟩
  · refine ⟨hsrc, hdedup, ?_, hstaged, hdropped, ?_⟩
    · change e.ordering.resetPeer src = .ok ordering
      rw [← hordering]
      exact hreset
    · change e₁.trace ++ [.reset src] = _
      rw [htrace, List.append_assoc]
      rfl
  · exact ⟨⟨hframe.1.localId, hframe.1.inbound, hframe.1.lastNowUs⟩, hframe.2⟩

/-- A reset of source zero stops the run. -/
theorem resetPeerOrdering_zero (e : DeliveryEngine) :
    e.resetPeerOrdering 0 = .error (.assertion .engineResetPeerOrdering) := by
  have hzero : ¬ (0 : NodeId) ≠ 0 := fun h => h rfl
  unfold resetPeerOrdering
  simp only [ensure_neg hzero, error_bind]

/-! ## The drain -/

/-- The resets of the listed sources, in order. -/
def Resets : List NodeId → Delivery → Delivery → Prop
  | [], d, d' => d' = d
  | src :: rest, d, d' => ∃ m, IsReset src d m ∧ Resets rest m d'

/-- What every reset keeps, a sequence of resets keeps. -/
theorem Resets.keep {R : Delivery → Prop} :
    ∀ {srcs : List NodeId} {d d' : Delivery}, Resets srcs d d' → R d →
      (∀ src ∈ srcs, ∀ d d', IsReset src d d' → R d → R d') → R d' := by
  intro srcs
  induction srcs with
  | nil =>
    intro d d' h hR _
    cases h
    exact hR
  | cons src rest ih =>
    intro d d' h hR step
    obtain ⟨m, hfirst, hrest⟩ := h
    exact ih hrest (step src List.mem_cons_self d m hfirst hR)
      fun s hs => step s (List.mem_cons_of_mem src hs)

/-- The reconnected peers the drain gets to within `rounds` rounds: it ends at an invalid one. -/
def reconnects (rounds : Nat) (t : Transport) : List NodeId :=
  (t.helloPeers.take rounds).takeWhile (· != nodeIdInvalid)

theorem drainHelloReconnects_spec (rounds : Nat) :
    ∀ {e : DeliveryEngine}, Inv P e → ∃ e', drainHelloReconnects rounds e = .ok e' ∧ Inv P e' ∧
      Resets (reconnects rounds e.transport) e.delivery e'.delivery ∧ Framed e e' := by
  induction rounds with
  | zero => exact fun {e} inv => ⟨e, rfl, inv, rfl, Framed.refl e⟩
  | succ rounds ih =>
    intro e inv
    unfold drainHelloReconnects popHelloPeer
    cases hpeers : e.transport.helloPeers with
    | nil => exact ⟨e, rfl, inv, by rw [reconnects, hpeers]; rfl, Framed.refl e⟩
    | cons peer rest =>
      have hpopped : Inv P { e with transport := { e.transport with helloPeers := rest } } :=
        { inv with }
      by_cases hzero : peer = nodeIdInvalid
      · refine ⟨_, if_pos hzero, hpopped, ?_, rfl, rfl, rfl⟩
        rw [reconnects, hpeers, List.take_succ_cons, hzero]
        rfl
      · obtain ⟨e₁, hreset, hinv₁, hisReset, hframe₁, htransport⟩ :=
          resetPeerOrdering_spec hpopped hzero
        obtain ⟨e', hdrain, hinv', hresets, hframe'⟩ := ih hinv₁
        have hframe : Framed e e₁ := ⟨hframe₁.localId, hframe₁.inbound, hframe₁.lastNowUs⟩
        refine ⟨e', ?_, hinv', ?_, hframe.trans hframe'⟩
        · dsimp only
          rw [if_neg hzero]
          exact bind_eq_ok.mpr ⟨e₁, hreset, hdrain⟩
        · rw [htransport] at hresets
          have hlist : reconnects (rounds + 1) e.transport = peer :: reconnects rounds
              { e.transport with helloPeers := rest } := by
            rw [reconnects, hpeers, List.take_succ_cons, List.takeWhile_cons_of_pos (by simpa using hzero)]
            rfl
          rw [hlist]
          exact ⟨e₁.delivery, hisReset, hresets⟩

end DeliveryEngine

end MessageEngine
