import MessageEngine.Core.Datagram

/-!
# On the way into the receive queue

Between the checks of a backend and its receive queue stand the inbound impairments. They drop a
message, let it through, or keep it in the reorder window and let out one that came before.

## What is proved

- `ImpairmentEngine.WindowHolds.processInbound`: nothing comes out that did not go in, and with
  reordering off the message that comes out is the one that just went in;
- `Inbox.applyInboundImpairment_queued`, `Inbox.receiveInbound_queued`: so it is for what is queued;
- `Inbox.applyInboundImpairment_site`: the backends that share this code do the same with it.
-/

namespace MessageEngine

open Outcome

namespace ImpairmentEngine

/-- The engine of the default configuration: nothing is impaired. -/
def calm : ImpairmentEngine where
  cfg := impairmentConfigDefault
  prng := .seed 1
  delayBuf := Vector.replicate impairDelayBufSize ⟨envelopeInit, 0, false⟩
  delayCount := 0
  reorderBuf := Vector.replicate impairDelayBufSize envelopeInit
  reorderCount := 0
  partitionActive := false
  partitionStartUs := 0
  nextPartitionEventUs := 0
  stats := ⟨0, 0, 0, 0⟩

variable {e e' : ImpairmentEngine} {env : MessageEnvelope} {nowUs : UInt64}

theorem isPartitionActive_window {active : Bool} (h : e.isPartitionActive nowUs = .ok (active, e')) :
    e'.cfg = e.cfg ∧ e'.reorderBuf = e.reorderBuf ∧ e'.reorderCount = e.reorderCount := by
  unfold isPartitionActive at h
  split at h
  · cases h; exact ⟨rfl, rfl, rfl⟩
  · split at h
    · cases h; exact ⟨rfl, rfl, rfl⟩
    · split at h
      · cases h; exact ⟨rfl, rfl, rfl⟩
      · split at h
        · cases h; exact ⟨rfl, rfl, rfl⟩
        · obtain ⟨-, h⟩ := ensure_bind_eq_ok.mp h
          cases h; exact ⟨rfl, rfl, rfl⟩

/-! ## The reorder window -/

/-- Every message in the reorder window has the property. -/
structure WindowHolds (e : ImpairmentEngine) (P : MessageEnvelope → Prop) : Prop where
  bounded : e.reorderCount ≤ impairDelayBufSize
  held : ∀ j (hj : j < impairDelayBufSize), j < e.reorderCount → P e.reorderBuf[j]

variable {P : MessageEnvelope → Prop}

theorem WindowHolds.mono {Q : MessageEnvelope → Prop} (h : e.WindowHolds P) (weaker : ∀ m, P m → Q m) :
    e.WindowHolds Q :=
  ⟨h.bounded, fun j hj hlt => weaker _ (h.held j hj hlt)⟩

theorem WindowHolds.isPartitionActive {active : Bool} (hheld : e.WindowHolds P)
    (h : e.isPartitionActive nowUs = .ok (active, e')) : e'.cfg = e.cfg ∧ e'.WindowHolds P := by
  obtain ⟨hcfg, hbuf, hcount⟩ := isPartitionActive_window h
  refine ⟨hcfg, by rw [hcount]; exact hheld.bounded, fun j hj hlt => ?_⟩
  simp only [hbuf]
  exact hheld.held j hj (hcount ▸ hlt)

/-- The engine is as `init` leaves it. -/
def Initialised (e : ImpairmentEngine) : Prop :=
  ∃ cfg entropy, init cfg entropy = .ok e

theorem calm_initialised : calm.Initialised :=
  ⟨impairmentConfigDefault, 1, by
    simp [init, neverCompiledOutAssert, ensure, impairmentConfigDefault, calm]⟩

/-- After `init` the window is empty. -/
theorem WindowHolds.init (h : e.Initialised) : e.WindowHolds P := by
  obtain ⟨cfg, entropy, h⟩ := h
  unfold ImpairmentEngine.init at h
  obtain ⟨-, h⟩ := ensure_bind_eq_ok.mp h
  obtain ⟨-, h⟩ := ensure_bind_eq_ok.mp h
  obtain ⟨-, h⟩ := ensure_bind_eq_ok.mp h
  have hcount : e.reorderCount = 0 := by
    by_cases hseed : cfg.prngSeed = 0
    · simp only [if_pos hseed] at h
      obtain ⟨-, h⟩ := ensure_bind_eq_ok.mp h
      cases h; rfl
    · simp only [if_neg hseed] at h
      cases h; rfl
  exact ⟨by omega, fun j _ hlt => by omega⟩

theorem WindowHolds.storeReorder (hheld : e.WindowHolds P) (henv : P env)
    (h : e.storeReorder env = .ok e') : e'.cfg = e.cfg ∧ e'.WindowHolds P := by
  unfold ImpairmentEngine.storeReorder at h
  split at h
  case isFalse => cases h
  case isTrue hroom =>
    cases h
    refine ⟨rfl, hroom, fun j hj hlt => ?_⟩
    simp only [Vector.getElem_set]
    split
    · exact henv
    · have hlt : j < e.reorderCount + 1 := hlt
      exact hheld.held j hj (by omega)

/-- Taking a message out of the window leaves the others in it. -/
theorem WindowHolds.release {i : Nat} (hheld : e.WindowHolds P) (hi : i < e.reorderCount)
    (prng : PrngEngine) :
    WindowHolds { e with
      prng
      reorderBuf := Compact.shiftLeft e.reorderBuf i (e.reorderCount - 1 - i)
      reorderCount := e.reorderCount - 1 } P := by
  have hbounded := hheld.bounded
  refine ⟨by simp only; omega, fun j hj hlt => ?_⟩
  simp only at hlt ⊢
  have hj' : j + 1 < e.reorderCount := by omega
  rw [Compact.getElem_shiftLeft_skip e.reorderBuf hi hbounded hj']
  exact hheld.held _ _ (Compact.skip_lt hj')

/-- What comes out of the inbound stage went in, then or before; with reordering off it is the
message that just came. -/
theorem WindowHolds.processInbound {res : Result} {out : Option MessageEnvelope}
    (hheld : e.WindowHolds P) (henv : P env) {bufCap : Nat} (h : e.processInbound env nowUs bufCap = .ok ((res, out), e')) :
    e'.cfg = e.cfg ∧ e'.WindowHolds P ∧
      ∀ m, out = some m → P m ∧ (e.cfg.reorderEnabled = false → m = env) := by
  unfold ImpairmentEngine.processInbound at h
  obtain ⟨-, h⟩ := ensure_bind_eq_ok.mp h
  obtain ⟨-, h⟩ := ensure_bind_eq_ok.mp h
  simp only [ite_bind] at h
  obtain ⟨⟨partitioned, e₁⟩, hpart, h⟩ := bind_eq_ok.mp h
  have hkept : e₁.cfg = e.cfg ∧ e₁.WindowHolds P := by
    split at hpart
    · exact hheld.isPartitionActive hpart
    · cases hpart
      exact ⟨rfl, hheld⟩
  obtain ⟨hcfg, hheld₁⟩ := hkept
  rw [← hcfg]
  cases partitioned with
  | true =>
    cases h
    exact ⟨rfl, ⟨hheld₁.bounded, hheld₁.held⟩, fun m hm => nomatch hm⟩
  | false =>
    simp only [Bool.false_eq_true, if_false] at h
    split at h
    case isTrue =>
      obtain ⟨-, h⟩ := ensure_bind_eq_ok.mp h
      cases h
      refine ⟨rfl, hheld₁, fun m hm => ?_⟩
      cases hm
      exact ⟨henv, fun _ => rfl⟩
    case isFalse hon =>
      have hon : e₁.cfg.reorderEnabled = false → False := fun hoff => hon (.inl (by rw [hoff]; rfl))
      split at h
      case isTrue =>
        obtain ⟨e₂, hstore, h⟩ := bind_eq_ok.mp h
        obtain ⟨hcfg₂, hheld₂⟩ := hheld₁.storeReorder henv hstore
        obtain ⟨-, h⟩ := ensure_bind_eq_ok.mp h
        cases h
        exact ⟨hcfg₂, ⟨hheld₂.bounded, hheld₂.held⟩, fun m hm => nomatch hm⟩
      case isFalse =>
        obtain ⟨⟨releaseIdx, prng⟩, -, h⟩ := bind_eq_ok.mp h
        obtain ⟨hi, h⟩ := ensure_bind_eq_ok.mp h
        split at h
        case isFalse => cases h
        case isTrue hbound =>
          obtain ⟨e₂, hstore, h⟩ := bind_eq_ok.mp h
          have hreleased := hheld₁.release hi prng
          have hkept : e₂.cfg = e₁.cfg ∧ e₂.WindowHolds P := by
            split at hstore
            · exact hreleased.storeReorder henv hstore
            · cases hstore
              exact ⟨rfl, hreleased⟩
          obtain ⟨-, h⟩ := ensure_bind_eq_ok.mp h
          obtain ⟨-, h⟩ := ensure_bind_eq_ok.mp h
          obtain ⟨-, h⟩ := ensure_bind_eq_ok.mp h
          cases h
          refine ⟨hkept.1, hkept.2, fun m hm => ?_⟩
          cases hm
          exact ⟨hheld₁.held _ _ hi, fun hoff => (hon hoff).elim⟩

end ImpairmentEngine

namespace Inbox

variable {b b' : Inbox} {site : Site} {env : MessageEnvelope} {nowUs : UInt64}
  {queued : Option MessageEnvelope} {P : MessageEnvelope → Prop}

/-- What a TCP server queues came in then or before. -/
theorem applyInboundImpairment_queued (hheld : b.impairment.WindowHolds P) (henv : P env)
    (h : b.applyInboundImpairment site env nowUs = .ok (queued, b')) :
    b'.impairment.cfg = b.impairment.cfg ∧ b'.impairment.WindowHolds P ∧
      ∀ m, queued = some m → P m ∧ (b.impairment.cfg.reorderEnabled = false → m = env) := by
  unfold applyInboundImpairment at h
  obtain ⟨-, h⟩ := ensure_bind_eq_ok.mp h
  obtain ⟨-, h⟩ := ensure_bind_eq_ok.mp h
  obtain ⟨⟨partitioned, e₁⟩, hpart, h⟩ := bind_eq_ok.mp h
  obtain ⟨hcfg, hheld₁⟩ := hheld.isPartitionActive hpart
  cases partitioned with
  | true =>
    cases h
    exact ⟨hcfg, hheld₁, fun _ hout => nomatch hout⟩
  | false =>
    simp only [Bool.false_eq_true, if_false] at h
    obtain ⟨⟨⟨res, passed⟩, e₂⟩, hproc, h⟩ := bind_eq_ok.mp h
    obtain ⟨hcfg₂, hheld₂, hpassed⟩ := hheld₁.processInbound henv hproc
    rw [hcfg] at hcfg₂ hpassed
    split at h
    case isTrue =>
      cases h
      exact ⟨hcfg₂, hheld₂, fun _ hout => nomatch hout⟩
    case isFalse =>
      cases passed with
      | none =>
        cases h
        exact ⟨hcfg₂, hheld₂, fun _ hout => nomatch hout⟩
      | some out =>
        obtain ⟨⟨pushed, ring⟩, -, h⟩ := bind_eq_ok.mp h
        cases h
        refine ⟨hcfg₂, hheld₂, fun m hm => ?_⟩
        split at hm
        · exact hpassed m hm
        · cases hm

/-- What a datagram backend queues came in then or before. -/
theorem receiveInbound_queued (hheld : b.impairment.WindowHolds P) (henv : P env)
    (h : b.receiveInbound env nowUs = .ok (queued, b')) :
    b'.impairment.cfg = b.impairment.cfg ∧ b'.impairment.WindowHolds P ∧
      ∀ m, queued = some m → P m ∧ (b.impairment.cfg.reorderEnabled = false → m = env) := by
  unfold receiveInbound at h
  obtain ⟨⟨⟨res, passed⟩, e₁⟩, hproc, h⟩ := bind_eq_ok.mp h
  obtain ⟨hcfg, hheld₁, hpassed⟩ := hheld.processInbound henv hproc
  simp only at h
  split at h
  case isTrue =>
    cases h
    exact ⟨hcfg, hheld₁, fun _ hout => nomatch hout⟩
  case isFalse =>
    cases passed with
    | none =>
      cases h
      exact ⟨hcfg, hheld₁, fun _ hout => nomatch hout⟩
    | some out =>
      obtain ⟨⟨pushed, ring⟩, -, h⟩ := bind_eq_ok.mp h
      cases h
      refine ⟨hcfg, hheld₁, fun m hm => ?_⟩
      split at hm
      · exact hpassed m hm
      · cases hm

/-- Where the code stands makes no difference to what it returns. -/
theorem applyInboundImpairment_site (site' : Site) {r : Option MessageEnvelope × Inbox}
    (h : b.applyInboundImpairment site env nowUs = .ok r) :
    b.applyInboundImpairment site' env nowUs = .ok r := by
  unfold applyInboundImpairment at h ⊢
  obtain ⟨hvalid, h⟩ := ensure_bind_eq_ok.mp h
  obtain ⟨hclock, h⟩ := ensure_bind_eq_ok.mp h
  simp only [neverCompiledOutAssert, ensure_pos hvalid, ensure_pos hclock, ok_bind]
  exact h

end Inbox

end MessageEngine
