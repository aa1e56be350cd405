import MessageEngine.Laws.Impairment.Conservation

/-!
# The way out

What `process_outbound` and `collect_deliverable` do together for the components that send through them: the
linked harnesses and the datagram backends. They leave the reorder window alone, and what is handed to them waits
in the delay buffer, once or twice, or not at all.

## What is proved

- `keepsWindow_processOutbound`, `keepsWindow_collectDeliverable`: the way out does not touch the window;
- `processOutbound_waiting`: how often a message waits once it was handed over;
- `outbound_off`: with the master switch off it goes out at once.
-/

namespace MessageEngine

open Outcome Table

namespace PrngEngine

variable {p p' : PrngEngine}

theorem nextDouble_state {r : Rat} (h : p.nextDouble = .ok (r, p')) : p'.state ≠ 0 := by
  obtain ⟨hp, h⟩ := ensure_bind_eq_ok.mp h
  rw [next_spec hp, ok_bind] at h
  obtain ⟨-, h⟩ := ensure_bind_eq_ok.mp h
  cases h
  exact xorshift_ne_zero hp

theorem nextRange_state {lo hi r : UInt32} (h : p.nextRange lo hi = .ok (r, p')) : p'.state ≠ 0 := by
  have hp : p.state ≠ 0 := (ensure_bind_eq_ok.mp h).1
  have hle : lo ≤ hi := (ensure_bind_eq_ok.mp (ensure_bind_eq_ok.mp h).2).1
  obtain ⟨k, result, -, hrun, -⟩ := (nextRange_exact hp hle).returns
  cases hrun.symm.trans h
  exact iterate_ne_zero hp k

end PrngEngine

namespace ImpairmentEngine

variable {e e' : ImpairmentEngine} {env : MessageEnvelope} {nowUs : UInt64}

/-! ## The window and the way out -/

/-- The call leaves the window alone, and the generator alive. -/
structure KeepsWindow (e e' : ImpairmentEngine) : Prop where
  cfg : e'.cfg = e.cfg
  buf : e'.reorderBuf = e.reorderBuf
  count : e'.reorderCount = e.reorderCount
  prng : e.prng.state ≠ 0 → e'.prng.state ≠ 0

theorem KeepsWindow.refl (e : ImpairmentEngine) : KeepsWindow e e := ⟨rfl, rfl, rfl, id⟩

theorem KeepsWindow.trans {e₁ : ImpairmentEngine} (h : KeepsWindow e e₁) (h' : KeepsWindow e₁ e') :
    KeepsWindow e e' :=
  ⟨h'.cfg.trans h.cfg, h'.buf.trans h.buf, h'.count.trans h.count, fun hp => h'.prng (h.prng hp)⟩

theorem KeepsWindow.windowed (h : KeepsWindow e e') (windowed : e.Windowed) : e'.Windowed := by
  refine ⟨?_, ?_, h.prng windowed.prng⟩
  · rw [h.count, h.cfg]
    exact windowed.count
  · rw [h.cfg]
    exact windowed.size

theorem KeepsWindow.window (h : KeepsWindow e e') : e'.window = e.window := by
  rw [ImpairmentEngine.window, h.buf, h.count]
  rfl

theorem keepsWindow_isPartitionActive {active : Bool} (h : e.isPartitionActive nowUs = .ok (active, e')) :
    KeepsWindow e e' := by
  obtain ⟨⟨_, _, _, rfl⟩, -⟩ := isPartitionActive_frame h
  exact ⟨rfl, rfl, rfl, id⟩

theorem keepsWindow_checkLoss {lost : Bool} (h : e.checkLoss = .ok (lost, e')) : KeepsWindow e e' := by
  obtain ⟨-, h⟩ := ensure_bind_eq_ok.mp h
  split at h
  · cases h
    exact .refl e
  · obtain ⟨⟨randVal, prng⟩, hdraw, h⟩ := bind_eq_ok.mp h
    obtain ⟨-, h⟩ := ensure_bind_eq_ok.mp h
    cases h
    exact ⟨rfl, rfl, rfl, fun _ => PrngEngine.nextDouble_state hdraw⟩

theorem keepsWindow_computeJitterUs {jitterUs : UInt64} (h : e.computeJitterUs = .ok (jitterUs, e')) :
    KeepsWindow e e' := by
  unfold computeJitterUs at h
  split at h
  · cases h
    exact .refl e
  · obtain ⟨-, h⟩ := ensure_bind_eq_ok.mp h
    obtain ⟨⟨offset, prng⟩, hdraw, h⟩ := bind_eq_ok.mp h
    cases h
    exact ⟨rfl, rfl, rfl, fun _ => PrngEngine.nextRange_state hdraw⟩

theorem keepsWindow_queueToDelayBuf {releaseUs : UInt64} {res : Result}
    (h : e.queueToDelayBuf env releaseUs = .ok (res, e')) : KeepsWindow e e' := by
  obtain ⟨-, h⟩ := ensure_bind_eq_ok.mp h
  split at h
  · obtain ⟨-, h⟩ := ensure_bind_eq_ok.mp h
    cases h
    exact ⟨rfl, rfl, rfl, id⟩
  · cases h

theorem keepsWindow_applyDuplication {releaseUs : UInt64} (h : e.applyDuplication env releaseUs = .ok e') :
    KeepsWindow e e' := by
  obtain ⟨-, h⟩ := ensure_bind_eq_ok.mp h
  obtain ⟨⟨dupRand, prng⟩, hdraw, h⟩ := bind_eq_ok.mp h
  obtain ⟨-, h⟩ := ensure_bind_eq_ok.mp h
  have hdrawn : KeepsWindow e { e with prng } := ⟨rfl, rfl, rfl, fun _ => PrngEngine.nextDouble_state hdraw⟩
  split at h
  · obtain ⟨⟨res, e₁⟩, hqueue, h⟩ := bind_eq_ok.mp h
    have hqueued := hdrawn.trans (keepsWindow_queueToDelayBuf hqueue)
    dsimp only at h
    split at h
    · cases h
      exact hqueued.trans ⟨rfl, rfl, rfl, id⟩
    · cases h
      exact hqueued
  · cases h
    exact hdrawn

theorem keepsWindow_processOutbound {res : Result} (h : e.processOutbound env nowUs = .ok (res, e')) :
    KeepsWindow e e' := by
  obtain ⟨-, h⟩ := ensure_bind_eq_ok.mp h
  split at h
  · split at h
    · cases h
      exact .refl e
    · exact keepsWindow_queueToDelayBuf h
  · obtain ⟨⟨partitioned, e₁⟩, hpart, h⟩ := bind_eq_ok.mp h
    have hfirst := keepsWindow_isPartitionActive hpart
    dsimp only at h
    split at h
    · cases h
      exact hfirst.trans ⟨rfl, rfl, rfl, id⟩
    · obtain ⟨⟨lost, e₂⟩, hloss, h⟩ := bind_eq_ok.mp h
      have hsecond := hfirst.trans (keepsWindow_checkLoss hloss)
      dsimp only at h
      split at h
      · cases h
        exact hsecond.trans ⟨rfl, rfl, rfl, id⟩
      · obtain ⟨⟨jitterUs, e₃⟩, hjitter, h⟩ := bind_eq_ok.mp h
        have hthird := hsecond.trans (keepsWindow_computeJitterUs hjitter)
        obtain ⟨releaseUs, -, h⟩ := bind_eq_ok.mp h
        split at h
        · cases h
          exact hthird
        · obtain ⟨⟨queueRes, e₄⟩, hqueue, h⟩ := bind_eq_ok.mp h
          have hfourth := hthird.trans (keepsWindow_queueToDelayBuf hqueue)
          dsimp only at h
          split at h
          · cases h
            exact hfourth
          · rw [ite_bind] at h
            split at h
            · obtain ⟨e₅, hdup, h⟩ := bind_eq_ok.mp h
              obtain ⟨-, h⟩ := ensure_bind_eq_ok.mp h
              cases h
              exact hfourth.trans (keepsWindow_applyDuplication hdup)
            · obtain ⟨-, h⟩ := ensure_bind_eq_ok.mp h
              cases h
              exact hfourth

theorem keepsWindow_collectDeliverable {bufCap : Nat} {out : List MessageEnvelope}
    (h : e.collectDeliverable nowUs bufCap = .ok (out, e')) : KeepsWindow e e' := by
  obtain ⟨-, h⟩ := ensure_bind_eq_ok.mp h
  obtain ⟨⟨out', e₁⟩, hloop, h⟩ := bind_eq_ok.mp h
  obtain ⟨-, h⟩ := ensure_bind_eq_ok.mp h
  obtain ⟨-, h⟩ := ensure_bind_eq_ok.mp h
  cases h
  refine eachIndex_inv (I := fun _ s => KeepsWindow e s.2) hloop (.refl e) ?_
  intro i s s' hkept hround
  obtain ⟨out₁, e₁⟩ := s
  unfold collectDeliverable.round at hround
  dsimp only at hround
  split at hround
  · obtain ⟨-, hround⟩ := ensure_bind_eq_ok.mp hround
    cases hround
    exact hkept.trans ⟨rfl, rfl, rfl, id⟩
  · cases hround
    exact hkept

/-! ## What waits -/

/-- Whether a message that comes in may leave twice. -/
def doubles (cfg : ImpairmentConfig) : Prop := cfg.enabled = true ∧ cfg.duplicationProbability > 0

instance (cfg : ImpairmentConfig) : Decidable (doubles cfg) :=
  inferInstanceAs (Decidable (cfg.enabled = true ∧ cfg.duplicationProbability > 0))

/-- How many of a message there are at most once it was handed to the delay buffer. -/
def copies (cfg : ImpairmentConfig) : Nat := if doubles cfg then 2 else 1

/-- What waits after a message was handed to the delay buffer. -/
theorem processOutbound_waiting {i i' : ImpairmentEngine} {res : Result} (counted : i.Counted)
    (hrun : i.processOutbound env nowUs = .ok (res, i')) :
    i'.Counted ∧ ∃ n ≤ copies i.cfg, i'.waiting.Perm (List.replicate n env ++ i.waiting) := by
  have hone : 1 ≤ copies i.cfg := by
    unfold copies
    split
    · exact Nat.le_succ 1
    · exact Nat.le_refl 1
  cases processOutbound_spec counted hrun with
  | refused same why =>
    exact ⟨same.counted counted, 0, Nat.zero_le _, .of_eq same.waiting⟩
  | queued due free single same =>
    have hfree := freeSlot?_inactive free
    exact ⟨same.counted (counted.put hfree), 1, hone,
      (List.Perm.of_eq same.waiting).trans (waiting_put hfree)⟩
  | duplicated due free next drawn delay same =>
    have hfree := freeSlot?_inactive free
    have hnext := freeSlot?_inactive next
    refine ⟨same.counted ((counted.put hfree).put hnext), 2, ?_, ?_⟩
    · rw [copies, if_pos (show doubles i.cfg from ⟨drawn.2.1, drawn.1⟩)]
    · exact (List.Perm.of_eq same.waiting).trans
        ((waiting_put hnext).trans ((waiting_put hfree).cons env))

/-- With the master switch off a message goes out as it is, at once. -/
theorem outbound_off (off : e.cfg.enabled = false) (counted : e.Counted) (empty : e.waiting = [])
    (valid : envelopeValid env) (nowUs : UInt64) :
    ∃ e₁ e₂, e.processOutbound env nowUs = .ok (.ok, e₁) ∧
      e₁.collectDeliverable nowUs impairDelayBufSize = .ok ([env], e₂) ∧ e₂.Counted ∧ e₂.waiting = [] ∧
      KeepsWindow e e₂ := by
  have hcount : e.delayCount = 0 := by
    rw [counted, ← Vector.countP_toList, List.countP_eq_length_filter]
    have hnone := congrArg List.length empty
    rw [waiting, List.length_map] at hnone
    exact hnone
  have hroom : e.delayCount < impairDelayBufSize := by
    rw [hcount]
    decide
  obtain ⟨i, hfree⟩ := counted.free hroom
  have hinactive := freeSlot?_inactive hfree
  have hqueue : e.queueToDelayBuf env nowUs = .ok (.ok, e.put i env nowUs) := queueToDelayBuf_eq hroom hfree
  have hout : e.processOutbound env nowUs = .ok (.ok, e.put i env nowUs) := by
    have hnot : ¬ e.delayCount ≥ impairDelayBufSize := Nat.not_le.mpr hroom
    unfold processOutbound
    simp only [neverCompiledOutAssert, ensure_pos valid, ok_bind, off, Bool.not_false, if_true, if_neg hnot, hqueue]
  have hcounted : (e.put i env nowUs).Counted := counted.put hinactive
  obtain ⟨out, e₂, hcollect, collects⟩ :=
    collectDeliverable_spec hcounted nowUs (show impairDelayBufSize > 0 by decide)
  have hkept : (out ++ e₂.waiting).Perm [env] := by
    have hput : (e.put i env nowUs).waiting.Perm (env :: e.waiting) := waiting_put hinactive
    rw [empty] at hput
    exact collects.kept.trans hput
  have htaken : i ∈ (e.put i env nowUs).taken nowUs impairDelayBufSize impairDelayBufSize := by
    rw [taken, mem_picks_all (Nat.le_refl _)]
    show isDue nowUs (e.delayBuf.set i ⟨env, nowUs, true⟩ i.isLt)[i] = true
    rw [getElem_set_fin, if_pos rfl]
    simp [isDue]
  have hmem : out ≠ [] := by
    intro hnil
    have hlist := collects.out
    dsimp only at hlist
    rw [hnil] at hlist
    have hnone := List.map_eq_nil_iff.mp hlist.symm
    rw [hnone] at htaken
    cases htaken
  obtain ⟨x, rest, rfl⟩ := List.exists_cons_of_ne_nil hmem
  have hlist : x :: rest ++ e₂.waiting = [env] := List.perm_singleton.mp hkept
  obtain ⟨rfl, hrest⟩ := List.cons.inj hlist
  obtain ⟨rfl, hwaiting⟩ := List.append_eq_nil_iff.mp hrest
  refine ⟨_, e₂, hout, hcollect, collects.counted, hwaiting, ?_⟩
  exact (keepsWindow_processOutbound hout).trans (keepsWindow_collectDeliverable hcollect)

end ImpairmentEngine

end MessageEngine
