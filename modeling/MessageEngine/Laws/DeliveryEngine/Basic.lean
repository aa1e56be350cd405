import MessageEngine.Core.DeliveryEngine
import MessageEngine.Laws.AckTracker
import MessageEngine.Laws.DeliveryEvent
import MessageEngine.Laws.DuplicateFilter
import MessageEngine.Laws.OrderingBuffer
import MessageEngine.Laws.ReassemblyBuffer
import MessageEngine.Laws.RetryManager

/-!
# The engine's invariant

The invariant of the engine is that of its parts, and that whatever waits for delivery, in a hold
or in the staging slot, is a valid data message. `P` is any property of the frames that were
received: it is handed on to everything the engine delivers.

`Delivery` and `Books` are the two views the laws about whole runs look through: what decides which
message is delivered and when, and the two tables of messages that were sent. Each operation below
says what it does to the engine by an equation, so what it leaves alone can be read off.
-/

namespace MessageEngine

open Outcome Table

namespace DeliveryEngine

/-- What the data path may store or deliver. -/
structure Accepted (P : MessageEnvelope → Prop) (env : MessageEnvelope) : Prop where
  valid : envelopeValid env
  data : envelopeIsData env
  prop : P env

/-- What reassembly may store. -/
def Readable (P : MessageEnvelope → Prop) (env : MessageEnvelope) : Prop :=
  env.messageType ≠ .invalid ∧ P env

theorem Readable.headerProperty {P : MessageEnvelope → Prop} (hp : HeaderProperty P) :
    HeaderProperty (Readable P) where
  stable := fun env a b c d p h => ⟨h.1, hp.stable env a b c d p h.2⟩

structure Inv (P : MessageEnvelope → Prop) (e : DeliveryEngine) : Prop where
  localId : e.localId ≠ nodeIdInvalid
  ackTracker : e.ackTracker.Inv
  retryManager : e.retryManager.Inv
  dedup : e.dedup.Inv
  idGen : e.idGen.next ≠ 0
  events : e.events.Inv
  reassembly : e.reassembly.Inv (Readable P)
  ordering : e.ordering.Inv (Accepted P)
  staged : e.heldPendingValid = true → Accepted P e.heldPending ∧ e.heldPending.sequenceNum ≠ 0

/-- The staged message, if there is one. -/
def staged? (e : DeliveryEngine) : Option MessageEnvelope :=
  if e.heldPendingValid then some e.heldPending else none

/-- What decides which message is delivered, and when. -/
structure Delivery where
  dedup : DuplicateFilter
  ordering : OrderingBuffer
  staged : Option MessageEnvelope
  dropped : UInt32
  trace : List Effect

def delivery (e : DeliveryEngine) : Delivery :=
  ⟨e.dedup, e.ordering, e.staged?, e.stats.msgsDroppedExpired, e.trace⟩

/-- The messages that were sent and not yet given up or acknowledged. -/
structure Books where
  ackTracker : AckTracker
  retryManager : RetryManager

def books (e : DeliveryEngine) : Books := ⟨e.ackTracker, e.retryManager⟩

variable {P : MessageEnvelope → Prop} {e e' : DeliveryEngine} {nowUs : UInt64}

/-! ## The start -/

theorem idSeed_ne_zero (entropy : UInt64) (localId : NodeId) : idSeed entropy localId ≠ 0 := by
  unfold idSeed
  dsimp only
  split
  case isTrue _ =>
    intro hz
    exact absurd (UInt64.or_eq_zero_iff.mp hz).2 (by decide)
  case isFalse h => exact h

theorem inv_init (cfg : ChannelConfig) (entropy : UInt64) {localId : NodeId}
    (h : localId ≠ nodeIdInvalid) : Inv P (init cfg localId entropy) where
  localId := h
  ackTracker := AckTracker.inv_init
  retryManager := RetryManager.inv_init
  dedup := DuplicateFilter.inv_init
  idGen := idSeed_ne_zero entropy localId
  events := DeliveryEventRing.inv_init
  reassembly := ReassemblyBuffer.inv_init
  ordering := OrderingBuffer.inv_init
  staged := fun hv => Bool.noConfusion hv

theorem Inv.attach (inv : Inv P e) (transport : Transport) : Inv P (e.attach transport) :=
  { inv with }

/-! ## Events and the transport -/

theorem emitEvent_spec (inv : Inv P e) (kind : DeliveryEventKind) (messageId : UInt64)
    (nodeId : NodeId) {timestampUs : UInt64} (hts : timestampUs > 0) (result : Result) :
    ∃ events, e.emitEvent kind messageId nodeId timestampUs result = .ok { e with events } ∧
      events.Inv := by
  obtain ⟨events, hpush, hinv⟩ :=
    DeliveryEventRing.push_spec inv.events ⟨messageId, timestampUs, nodeId, kind, result⟩
  exact ⟨events, ensure_bind_eq_ok.mpr ⟨hts, bind_eq_ok.mpr ⟨events, hpush, rfl⟩⟩, hinv⟩

theorem emitRoutingDropEvent_spec (inv : Inv P e) (env : MessageEnvelope) {res : Result}
    (hres : res ≠ .ok) (hnow : nowUs > 0) :
    ∃ events, e.emitRoutingDropEvent env res nowUs = .ok { e with events } ∧ events.Inv := by
  unfold emitRoutingDropEvent
  simp only [ensure_pos hres, ensure_pos hnow, ok_bind]
  split
  · exact emitEvent_spec inv _ _ _ hnow _
  · exact emitEvent_spec inv _ _ _ hnow _

/-- A send hands the frame over, whatever the transport answers. -/
theorem sendMessage_eq (e : DeliveryEngine) (env : MessageEnvelope) :
    ∃ r sendResults, e.sendMessage env = (r, { e with
      transport := { e.transport with sendResults }, trace := e.trace ++ [.sent env r] }) := by
  unfold sendMessage
  cases h : e.transport.sendResults with
  | nil =>
    exact ⟨.ok, e.transport.sendResults, rfl⟩
  | cons r rest => exact ⟨r, rest, rfl⟩

theorem sendDataAck_spec (inv : Inv P e) {env : MessageEnvelope} (hdata : envelopeIsData env)
    (nowUs : UInt64) :
    ∃ r sendResults, e.sendDataAck env nowUs = .ok { e with
      transport := { e.transport with sendResults }
      trace := e.trace ++ [.sent (envelopeMakeAck env e.localId nowUs) r] } := by
  obtain ⟨r, rest, hsend⟩ := sendMessage_eq e (envelopeMakeAck env e.localId nowUs)
  refine ⟨r, rest, ensure_bind_eq_ok.mpr ⟨hdata, ensure_bind_eq_ok.mpr ⟨inv.localId, ?_⟩⟩⟩
  simp only [hsend, pure_eq_ok]

theorem checkRouting_eq (inv : Inv P e) (env : MessageEnvelope) (hnow : nowUs > 0) :
    checkRouting env e.localId nowUs = .ok
      (if timestampExpired env.expiryTimeUs nowUs then .errExpired
        else if ¬ envelopeAddressedTo env e.localId then .errInvalid else .ok) := by
  unfold checkRouting
  simp only [ensure_pos inv.localId, ensure_pos hnow, ok_bind]
  split
  · rfl
  · split
    · rfl
    · rfl

/-! ## Accounting for swept holds -/

theorem emitExpired_spec (hnow : nowUs > 0) (freed : List MessageEnvelope) :
    ∀ {e : DeliveryEngine}, Inv P e → ∃ events, accountOrderingExpiryDrops.emit nowUs freed e =
      .ok { e with events, trace := e.trace ++ freed.map .expired } ∧ events.Inv := by
  induction freed with
  | nil =>
    intro e inv
    refine ⟨e.events, ?_, inv.events⟩
    rw [List.map_nil, List.append_nil]
    rfl
  | cons env freed ih =>
    intro e inv
    have hnoted : Inv P (e.note (.expired env)) := { inv with }
    obtain ⟨events, hemit, hinv⟩ := emitEvent_spec hnoted .expiryDrop env.messageId env.sourceId hnow
      .errExpired
    obtain ⟨events', hrest, hinv'⟩ := ih (e := { e.note (.expired env) with events })
      { hnoted with events := hinv }
    refine ⟨events', bind_eq_ok.mpr ⟨_, hemit, ?_⟩, hinv'⟩
    rw [hrest]
    simp only [note, List.append_assoc, List.map_cons, List.singleton_append]

/-- The swept holds are counted and reported, each once. -/
theorem accountOrderingExpiryDrops_spec (inv : Inv P e) (hnow : nowUs > 0)
    (freed : List MessageEnvelope) (hlen : freed.length ≤ orderingHoldCount) :
    ∃ events, e.accountOrderingExpiryDrops freed freed.length nowUs = .ok { e with
      stats := { e.stats with
        msgsDroppedExpired := e.stats.msgsDroppedExpired + UInt32.ofNat freed.length }
      events, trace := e.trace ++ freed.map .expired } ∧ events.Inv := by
  unfold accountOrderingExpiryDrops
  simp only [ensure_pos hlen, ensure_pos hnow, ok_bind]
  cases freed with
  | nil =>
    refine ⟨e.events, ?_, inv.events⟩
    simp
  | cons env rest =>
    rw [if_neg (by simp), List.take_length]
    exact emitExpired_spec (P := P) hnow (env :: rest) { inv with }

end DeliveryEngine

end MessageEngine
