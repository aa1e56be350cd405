import MessageEngine.Laws.Impairment.Outbound
import MessageEngine.Laws.Impairment.Prng

/-!
# Messages on their way in

With reordering on, the first messages fill a window. From then on every message that comes takes the
place of one in the window, which leaves. `Inbound` says what one call of `process_inbound` can do to the
window; the delay buffer is none of its business.

## What is proved

- `processInbound_spec`: a call on a valid message returns and does that, and the window stays within its
  size.
-/

namespace MessageEngine

open Outcome Table

namespace ImpairmentEngine

variable {e e' : ImpairmentEngine} {env : MessageEnvelope} {nowUs : UInt64} {bufCap : Nat}

/-- The messages in the window. -/
def window (e : ImpairmentEngine) : List MessageEnvelope := e.reorderBuf.toList.take e.reorderCount

/-- The window is within its size, and that within the buffer. -/
structure Windowed (e : ImpairmentEngine) : Prop where
  count : e.reorderCount ≤ e.cfg.reorderWindowSize.toNat
  size : e.cfg.reorderWindowSize.toNat ≤ impairDelayBufSize
  prng : e.prng.state ≠ 0

theorem Windowed.length (h : e.Windowed) : e.window.length = e.reorderCount := by
  rw [window, List.length_take, Vector.length_toList, Nat.min_eq_left (Nat.le_trans h.count h.size)]

/-- Nothing happened to the window. -/
structure SameWindow (e e' : ImpairmentEngine) : Prop where
  cfg : e'.cfg = e.cfg
  buf : e'.reorderBuf = e.reorderBuf
  count : e'.reorderCount = e.reorderCount
  prng : e'.prng = e.prng

theorem SameWindow.window (h : SameWindow e e') : e'.window = e.window := by
  rw [ImpairmentEngine.window, h.buf, h.count]
  rfl

theorem SameWindow.windowed (h : SameWindow e e') (windowed : e.Windowed) : e'.Windowed := by
  refine ⟨?_, ?_, ?_⟩
  · rw [h.count, h.cfg]
    exact windowed.count
  · rw [h.cfg]
    exact windowed.size
  · rw [h.prng]
    exact windowed.prng

/-- What one call of `process_inbound` does: the message is dropped, or passes, or is kept, or takes the
place of one in the window. -/
inductive Inbound (e : ImpairmentEngine) (env : MessageEnvelope) :
    Result → Option MessageEnvelope → List MessageEnvelope → Prop where
  | dropped : Inbound e env .errIo none e.window
  | passed : Inbound e env .ok (some env) e.window
  | kept : Inbound e env .ok none (e.window ++ [env])
  | swapped (i : Fin e.window.length) : Inbound e env .ok (some e.window[i]) (e.window.eraseIdx i ++ [env])

theorem storeReorder_eq (room : e.reorderCount < impairDelayBufSize) : e.storeReorder env =
    .ok { e with reorderBuf := e.reorderBuf.set e.reorderCount env, reorderCount := e.reorderCount + 1 } :=
  dif_pos room

/-- One message of a full window leaves, and the one that came takes the last place. -/
theorem window_swap (h : e.Windowed) (env : MessageEnvelope) {i : Nat} (hi : i < e.reorderCount) (prng : PrngEngine) :
    ∃ c, ImpairmentEngine.storeReorder { e with
        prng
        reorderBuf := Compact.shiftLeft e.reorderBuf i (e.reorderCount - 1 - i)
        reorderCount := e.reorderCount - 1 } env = .ok c ∧
      c.window = e.window.eraseIdx i ++ [env] ∧ c.reorderCount = e.reorderCount ∧ c.cfg = e.cfg ∧ c.prng = prng := by
  have hbound := Nat.le_trans h.count h.size
  have hlast : e.reorderCount - 1 + 1 = e.reorderCount := Nat.sub_add_cancel (Nat.lt_of_le_of_lt (Nat.zero_le i) hi)
  have hroom : e.reorderCount - 1 < impairDelayBufSize := by omega
  refine ⟨_, storeReorder_eq hroom, ?_, hlast, rfl, rfl⟩
  change ((Compact.shiftLeft e.reorderBuf i (e.reorderCount - 1 - i)).set (e.reorderCount - 1) env).toList.take
    (e.reorderCount - 1 + 1) = _
  rw [Compact.take_set _ hroom, Compact.take_shiftLeft _ hi hbound]
  rfl

/-- A call on a valid message returns; it emits at most one message and the window stays in order. -/
theorem processInbound_spec (windowed : e.Windowed) (valid : envelopeValid env) (nowUs : UInt64) (hcap : bufCap > 0) :
    ∃ res out e', e.processInbound env nowUs bufCap = .ok ((res, out), e') ∧ e'.Windowed ∧ e'.cfg = e.cfg ∧
      Inbound e env res out e'.window := by
  obtain ⟨partitioned, e₁, hpart, hsame⟩ : ∃ partitioned e₁,
      (if e.cfg.enabled then e.isPartitionActive nowUs else pure (false, e)) = .ok (partitioned, e₁) ∧
        SameWindow e e₁ := by
    split
    case isTrue _ =>
      obtain ⟨active, e₁, hquery⟩ := e.isPartitionActive_total nowUs
      obtain ⟨⟨_, _, _, rfl⟩, -⟩ := isPartitionActive_frame hquery
      exact ⟨active, _, hquery, rfl, rfl, rfl, rfl⟩
    case isFalse _ => exact ⟨false, e, rfl, rfl, rfl, rfl, rfl⟩
  have windowed₁ := hsame.windowed windowed
  unfold processInbound
  simp only [neverCompiledOutAssert, ensure_pos valid, ensure_pos hcap, ok_bind]
  simp only [ite_bind, hpart, ok_bind]
  cases partitioned with
  | true =>
    have hwindow : e₁.window = e.window := hsame.window
    refine ⟨.errIo, none, _, rfl, ⟨windowed₁.count, windowed₁.size, windowed₁.prng⟩, hsame.cfg, ?_⟩
    change Inbound e env .errIo none e₁.window
    rw [hwindow]
    exact .dropped
  | false =>
    simp only [Bool.false_eq_true, if_false]
    by_cases hoff : (!e₁.cfg.reorderEnabled) = true ∨ e₁.cfg.reorderWindowSize = 0
    · have hone : 1 ≤ bufCap := hcap
      rw [if_pos hoff]
      simp only [ensure_pos hone, ok_bind]
      refine ⟨.ok, some env, e₁, rfl, windowed₁, hsame.cfg, ?_⟩
      rw [hsame.window]
      exact .passed
    · rw [if_neg hoff]
      have hwindow : e₁.window = e.window := hsame.window
      have hbound := Nat.le_trans windowed₁.count windowed₁.size
      by_cases hroom : e₁.reorderCount < e₁.cfg.reorderWindowSize.toNat
      · have hlt : e₁.reorderCount < impairDelayBufSize := Nat.lt_of_lt_of_le hroom windowed₁.size
        have hle : e₁.reorderCount + 1 ≤ impairDelayBufSize := hlt
        simp only [if_pos hroom, storeReorder_eq hlt, ok_bind, ensure_pos hle]
        refine ⟨.ok, none, _, rfl, ⟨hroom, windowed₁.size, windowed₁.prng⟩, hsame.cfg, ?_⟩
        have hkept : (e₁.reorderBuf.set e₁.reorderCount env).toList.take (e₁.reorderCount + 1) =
            e.window ++ [env] := by
          rw [Compact.take_set _ hlt, ← hwindow]
          rfl
        rw [window, hkept]
        exact .kept
      · rw [if_neg hroom]
        have hsize : e₁.cfg.reorderWindowSize ≠ 0 := fun hz => hoff (.inr hz)
        have hpos : 0 < e₁.reorderCount := by
          have hpos : e₁.cfg.reorderWindowSize.toNat ≠ 0 := fun hz => hsize (UInt32.toNat_inj.mp hz)
          omega
        have hcount : (UInt32.ofNat e₁.reorderCount - 1).toNat = e₁.reorderCount - 1 := by
          have hone : (1 : UInt32) ≤ UInt32.ofNat e₁.reorderCount := by
            rw [UInt32.le_iff_toNat_le, UInt32.toNat_ofNat_of_lt' (Nat.lt_of_le_of_lt hbound (by decide))]
            exact hpos
          rw [UInt32.toNat_sub_of_le _ _ hone, UInt32.toNat_ofNat_of_lt' (Nat.lt_of_le_of_lt hbound (by decide))]
          rfl
        have hzero : (0 : UInt32) ≤ UInt32.ofNat e₁.reorderCount - 1 :=
          UInt32.le_iff_toNat_le.mpr (Nat.zero_le _)
        have hexact := PrngEngine.nextRange_exact windowed₁.prng hzero
        obtain ⟨k, r, -, hdraw, -, -, hlast⟩ := hexact.returns
        have hr : r.toNat < e₁.reorderCount := by
          rw [UInt32.le_iff_toNat_le, hcount] at hlast
          omega
        have hidx : r.toNat < impairDelayBufSize := Nat.lt_of_lt_of_le hr hbound
        have hfull : e₁.reorderCount - 1 < e₁.cfg.reorderWindowSize.toNat := by
          have hle := windowed₁.count
          omega
        have hone : 1 ≤ bufCap := hcap
        obtain ⟨c, hstore, hcwindow, hccount, hccfg, hcprng⟩ :=
          window_swap windowed₁ env hr ⟨PrngEngine.xorshift^[k] e₁.prng.state⟩
        have hccount' : c.reorderCount ≤ c.cfg.reorderWindowSize.toNat := by
          rw [hccount, hccfg]
          exact windowed₁.count
        have hcbound : c.reorderCount ≤ impairDelayBufSize := hccount.symm ▸ hbound
        rw [hdraw, ok_bind]
        simp only [ensure_pos hr, dif_pos hidx, if_pos hfull, hstore, ensure_pos hone, ensure_pos hccount',
          ensure_pos hcbound, ok_bind]
        refine ⟨.ok, _, c, rfl, ⟨hccount', by rw [hccfg]; exact windowed₁.size, ?_⟩, hccfg.trans hsame.cfg, ?_⟩
        · rw [hcprng]
          exact PrngEngine.iterate_ne_zero windowed₁.prng k
        · rw [hcwindow, hwindow]
          have hi : r.toNat < e.window.length := by
            rw [← hwindow, windowed₁.length]
            exact hr
          have hget : e₁.reorderBuf[r.toNat] = e.window[r.toNat] := by
            simp only [window, List.getElem_take, Vector.getElem_toList, hsame.buf]
          rw [hget]
          exact .swapped ⟨r.toNat, hi⟩

end ImpairmentEngine

end MessageEngine
