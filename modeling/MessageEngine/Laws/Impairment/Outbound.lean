import MessageEngine.Core.ImpairmentEngine

/-!
# Messages on their way out

Between `process_outbound` and `collect_deliverable` a message waits in the delay buffer, alone or with a
copy of it. `Outbound` says what one call of `process_outbound` can do to the buffer, `Collects` what one
of `collect_deliverable` does.

## What is proved

- `processOutbound_spec`, `collectDeliverable_spec`: the two calls do that, as long as the counter counts
  the slots in use;
- `processOutbound_fails`: and then the assertions of the delay buffer hold.
-/

namespace MessageEngine

open Outcome Table

namespace ImpairmentEngine

variable {e e' : ImpairmentEngine} {env : MessageEnvelope} {nowUs : UInt64}

/-! ## The start -/

/-- The engine before its first call. -/
def fresh (cfg : ImpairmentConfig) (prng : PrngEngine) : ImpairmentEngine where
  cfg := cfg
  prng := prng
  delayBuf := Vector.replicate impairDelayBufSize ⟨envelopeInit, 0, false⟩
  delayCount := 0
  reorderBuf := Vector.replicate impairDelayBufSize envelopeInit
  reorderCount := 0
  partitionActive := false
  partitionStartUs := 0
  nextPartitionEventUs := 0
  stats := ⟨0, 0, 0, 0⟩

theorem init_spec {cfg : ImpairmentConfig} {entropy : UInt64} (h : init cfg entropy = .ok e) :
    cfg.reorderWindowSize.toNat ≤ impairDelayBufSize ∧ (!cfg.partitionEnabled ∨ cfg.partitionGapMs > 0) ∧
      ∃ s, e = fresh cfg (.seed s) := by
  unfold init at h
  obtain ⟨hsize, h⟩ := ensure_bind_eq_ok.mp h
  obtain ⟨-, h⟩ := ensure_bind_eq_ok.mp h
  obtain ⟨hgap, h⟩ := ensure_bind_eq_ok.mp h
  by_cases hseed : cfg.prngSeed = 0
  · simp only [if_pos hseed] at h
    obtain ⟨-, h⟩ := ensure_bind_eq_ok.mp h
    cases h
    exact ⟨hsize, hgap, _, rfl⟩
  · simp only [if_neg hseed] at h
    cases h
    exact ⟨hsize, hgap, _, rfl⟩

/-! ## What the parts of a call change -/

/-- The delay buffer, its counter and the counter of copies are as before. -/
structure SameDelays (e e' : ImpairmentEngine) : Prop where
  cfg : e'.cfg = e.cfg
  buf : e'.delayBuf = e.delayBuf
  count : e'.delayCount = e.delayCount
  injects : e'.stats.duplicateInjects = e.stats.duplicateInjects

theorem SameDelays.refl (e : ImpairmentEngine) : SameDelays e e := ⟨rfl, rfl, rfl, rfl⟩

theorem SameDelays.trans {e₁ : ImpairmentEngine} (h : SameDelays e e₁) (h' : SameDelays e₁ e') : SameDelays e e' :=
  ⟨h'.cfg.trans h.cfg, h'.buf.trans h.buf, h'.count.trans h.count, h'.injects.trans h.injects⟩

/-- A query changes the partition state and nothing else; without partitions none is active. -/
theorem isPartitionActive_frame {active : Bool} (h : e.isPartitionActive nowUs = .ok (active, e')) :
    (∃ now start next, e' =
      { e with partitionActive := now, partitionStartUs := start, nextPartitionEventUs := next }) ∧
      (active = true → e.cfg.partitionEnabled = true) := by
  unfold isPartitionActive at h
  split at h
  case isTrue _ =>
    cases h
    exact ⟨⟨_, _, _, rfl⟩, fun hactive => nomatch hactive⟩
  case isFalse hon =>
    have hon : e.cfg.partitionEnabled = true := by simpa using hon
    refine ⟨?_, fun _ => hon⟩
    split at h
    · cases h
      exact ⟨_, _, _, rfl⟩
    · split at h
      · cases h
        exact ⟨_, _, _, rfl⟩
      · split at h
        · cases h
          exact ⟨_, _, _, rfl⟩
        · obtain ⟨-, h⟩ := ensure_bind_eq_ok.mp h
          cases h
          exact ⟨_, _, _, rfl⟩

/-- Without loss no message is lost. -/
theorem checkLoss_frame {lost : Bool} (h : e.checkLoss = .ok (lost, e')) :
    (∃ prng, e' = { e with prng }) ∧ (e.cfg.lossProbability ≤ 0 → lost = false) := by
  unfold checkLoss at h
  obtain ⟨-, h⟩ := ensure_bind_eq_ok.mp h
  split at h
  case isTrue hzero =>
    cases h
    exact ⟨⟨_, rfl⟩, fun _ => rfl⟩
  case isFalse hloss =>
    obtain ⟨⟨randVal, prng⟩, -, h⟩ := bind_eq_ok.mp h
    obtain ⟨-, h⟩ := ensure_bind_eq_ok.mp h
    cases h
    exact ⟨⟨_, rfl⟩, fun hzero => absurd hzero hloss⟩

theorem nextRange_le {p p' : PrngEngine} {lo hi r : UInt32} (h : p.nextRange lo hi = .ok (r, p')) :
    lo ≤ r ∧ r ≤ hi := by
  unfold PrngEngine.nextRange at h
  obtain ⟨-, h⟩ := ensure_bind_eq_ok.mp h
  obtain ⟨-, h⟩ := ensure_bind_eq_ok.mp h
  obtain ⟨-, h⟩ := ensure_bind_eq_ok.mp h
  obtain ⟨⟨raw, p₁⟩, -, h⟩ := bind_eq_ok.mp h
  obtain ⟨hle, h⟩ := ensure_bind_eq_ok.mp h
  cases h
  exact hle

/-- The least jitter in milliseconds. -/
def minJitterMs (cfg : ImpairmentConfig) : ℕ :=
  if cfg.jitterMeanMs = 0 then 0 else cfg.jitterMeanMs.toNat - cfg.jitterVarianceMs.toNat

/-- The most jitter in milliseconds. -/
def maxJitterMs (cfg : ImpairmentConfig) : ℕ :=
  if cfg.jitterMeanMs = 0 then 0 else cfg.jitterMeanMs.toNat + cfg.jitterVarianceMs.toNat

/-- The jitter is a whole number of milliseconds in its range, and none without a mean. -/
theorem computeJitterUs_spec {jitterUs : UInt64} (h : e.computeJitterUs = .ok (jitterUs, e')) :
    (∃ prng, e' = { e with prng }) ∧ ∃ ms, jitterUs.toNat = 1000 * ms ∧ ms < 4294967296 ∧
      minJitterMs e.cfg ≤ ms ∧ ms ≤ maxJitterMs e.cfg := by
  unfold computeJitterUs at h
  split at h
  case isTrue hzero =>
    cases h
    refine ⟨⟨_, rfl⟩, 0, rfl, Nat.zero_lt_succ _, ?_, Nat.zero_le _⟩
    rw [minJitterMs, if_pos hzero]
  case isFalse hmean =>
    obtain ⟨-, h⟩ := ensure_bind_eq_ok.mp h
    obtain ⟨⟨ms, prng⟩, hdraw, h⟩ := bind_eq_ok.mp h
    cases h
    obtain ⟨hlow, hhigh⟩ := nextRange_le hdraw
    have hms : ms.toNat < 4294967296 := ms.toNat_lt
    refine ⟨⟨_, rfl⟩, ms.toNat, ?_, hms, ?_, ?_⟩
    · rw [UInt64.toNat_mul, UInt32.toNat_toUInt64]
      change ms.toNat * 1000 % 18446744073709551616 = _
      omega
    · rw [minJitterMs, if_neg hmean]
      split at hlow
      case isTrue hvar =>
        rw [UInt32.le_iff_toNat_le, UInt32.toNat_sub_of_le _ _ hvar] at hlow
        exact hlow
      case isFalse hvar =>
        have hlt := UInt32.lt_iff_toNat_lt.mp (UInt32.not_le.mp hvar)
        omega
    · have hmean' : e.cfg.jitterMeanMs ≤ 0xFFFFFFFF := UInt32.le_iff_toNat_le.mpr (Nat.lt_succ_iff.mp e.cfg.jitterMeanMs.toNat_lt)
      have hmax : (0xFFFFFFFF : UInt32).toNat = 4294967295 := rfl
      have hbound : e.cfg.jitterMeanMs.toNat < 4294967296 := e.cfg.jitterMeanMs.toNat_lt
      rw [maxJitterMs, if_neg hmean]
      split at hhigh
      case isTrue hclamp =>
        rw [gt_iff_lt, UInt32.lt_iff_toNat_lt, UInt32.toNat_sub_of_le _ _ hmean', hmax] at hclamp
        omega
      case isFalse hfits =>
        rw [gt_iff_lt, UInt32.lt_iff_toNat_lt, UInt32.toNat_sub_of_le _ _ hmean', hmax] at hfits
        have hsum : (e.cfg.jitterMeanMs + e.cfg.jitterVarianceMs).toNat =
            e.cfg.jitterMeanMs.toNat + e.cfg.jitterVarianceMs.toNat := by
          rw [UInt32.toNat_add]
          change _ % 4294967296 = _
          omega
        rw [UInt32.le_iff_toNat_le, hsum] at hhigh
        exact hhigh

/-- `now` plus a delay in milliseconds, where the clock ends. -/
def releaseTime (now delayMs : ℕ) : ℕ := min 18446744073709551615 (now + 1000 * delayMs)

/-- The sum of the two delays is far below the cap, so only the clock can saturate. -/
theorem computeReleaseUs_spec {latencyMs : UInt32} {jitterUs releaseUs : UInt64} {ms : ℕ}
    (hjitter : jitterUs.toNat = 1000 * ms) (hms : ms < 4294967296)
    (h : computeReleaseUs nowUs (latencyMs.toUInt64 * 1000) jitterUs = .ok releaseUs) :
    releaseUs.toNat = releaseTime nowUs.toNat (latencyMs.toNat + ms) := by
  have hlatency : latencyMs.toNat < 4294967296 := latencyMs.toNat_lt
  have hbase : (latencyMs.toUInt64 * 1000).toNat = 1000 * latencyMs.toNat := by
    rw [UInt64.toNat_mul, UInt32.toNat_toUInt64]
    change latencyMs.toNat * 1000 % 18446744073709551616 = _
    omega
  have hnow : nowUs.toNat < 18446744073709551616 := nowUs.toNat_lt
  have hcap : ((0xFFFFFFFFFFFFFFFF : UInt64) / 2).toNat = 9223372036854775807 := rfl
  have hmax : (0xFFFFFFFFFFFFFFFF : UInt64).toNat = 18446744073709551615 := rfl
  generalize latencyMs.toUInt64 * 1000 = base at h hbase
  have htotal : (base + jitterUs).toNat = 1000 * (latencyMs.toNat + ms) := by
    rw [UInt64.toNat_add, hbase, hjitter]
    change _ % 18446744073709551616 = _
    omega
  have hle : jitterUs ≤ (0xFFFFFFFFFFFFFFFF : UInt64) / 2 := by
    rw [UInt64.le_iff_toNat_le, hcap, hjitter]
    omega
  have huncapped : ¬ base > (0xFFFFFFFFFFFFFFFF : UInt64) / 2 - jitterUs := by
    rw [gt_iff_lt, UInt64.lt_iff_toNat_lt, UInt64.toNat_sub_of_le _ _ hle, hcap, hbase, hjitter]
    omega
  have hfits : base + jitterUs ≤ 0xFFFFFFFFFFFFFFFF := by
    rw [UInt64.le_iff_toNat_le, htotal, hmax]
    omega
  unfold computeReleaseUs at h
  obtain ⟨-, h⟩ := ensure_bind_eq_ok.mp h
  obtain ⟨-, h⟩ := ensure_bind_eq_ok.mp h
  simp only [if_neg huncapped, pure_eq_ok, Except.ok.injEq] at h
  rw [← h, releaseTime]
  split
  case isTrue hlate =>
    rw [gt_iff_lt, UInt64.lt_iff_toNat_lt, UInt64.toNat_sub_of_le _ _ hfits, hmax, htotal] at hlate
    rw [hmax]
    omega
  case isFalse hearly =>
    rw [gt_iff_lt, UInt64.lt_iff_toNat_lt, UInt64.toNat_sub_of_le _ _ hfits, hmax, htotal] at hearly
    rw [UInt64.toNat_add, htotal]
    change _ % 18446744073709551616 = _
    omega

/-! ## The delay buffer -/

/-- The counter counts the slots in use. -/
def Counted (e : ImpairmentEngine) : Prop := e.delayCount = e.delayBuf.countP DelayEntry.active

/-- The messages that wait. -/
def waiting (e : ImpairmentEngine) : List MessageEnvelope :=
  (e.delayBuf.toList.filter DelayEntry.active).map DelayEntry.env

/-- The first slot that is not in use. -/
def freeSlot? (e : ImpairmentEngine) : Option (Fin impairDelayBufSize) :=
  firstSlot? (fun s => !s.active) e.delayBuf

/-- A message is put into a slot. -/
def put (e : ImpairmentEngine) (i : Fin impairDelayBufSize) (env : MessageEnvelope) (releaseUs : UInt64) :
    ImpairmentEngine :=
  { e with
    delayBuf := e.delayBuf.set i { env, releaseUs, active := true } i.isLt, delayCount := e.delayCount + 1 }

/-- A copy is counted. -/
def injected (e : ImpairmentEngine) : ImpairmentEngine :=
  { e with stats := { e.stats with duplicateInjects := e.stats.duplicateInjects + 1 } }

variable {i j : Fin impairDelayBufSize} {releaseUs : UInt64}

theorem SameDelays.counted (h : SameDelays e e') (counted : e.Counted) : e'.Counted := by
  rw [Counted, h.count, h.buf]
  exact counted

theorem SameDelays.waiting (h : SameDelays e e') : e'.waiting = e.waiting := by
  rw [ImpairmentEngine.waiting, h.buf]
  rfl

theorem freeSlot?_inactive (h : e.freeSlot? = some i) : e.delayBuf[i].active = false :=
  Bool.not_eq_true' _ |>.mp (firstSlot?_some h)

theorem Counted.put (h : e.Counted) (free : e.delayBuf[i].active = false) : (e.put i env releaseUs).Counted := by
  have hset := countP_set_add DelayEntry.active e.delayBuf i ⟨env, releaseUs, true⟩
  rw [if_neg (by rw [free]; exact Bool.false_ne_true), if_pos rfl, Nat.add_zero] at hset
  exact (congrArg (· + 1) h).trans hset.symm

theorem waiting_put (free : e.delayBuf[i].active = false) :
    (e.put i env releaseUs).waiting.Perm (env :: e.waiting) :=
  (filter_set_perm (p := DelayEntry.active) free rfl).map DelayEntry.env

theorem Counted.le (h : e.Counted) : e.delayCount ≤ impairDelayBufSize := by
  rw [h]
  exact Vector.countP_le_size

/-- As the counter counts, there is a free slot unless it is at its end. -/
theorem Counted.free (h : e.Counted) (room : e.delayCount < impairDelayBufSize) : ∃ i, e.freeSlot? = some i := by
  cases hfree : e.freeSlot? with
  | some i => exact ⟨i, rfl⟩
  | none =>
    have hall : e.delayBuf.countP DelayEntry.active = impairDelayBufSize :=
      countP_eq_size.mpr fun i => Bool.not_eq_false' _ |>.mp (firstSlot?_none.mp hfree i)
    rw [h, hall] at room
    exact absurd room (Nat.lt_irrefl _)

theorem queueToDelayBuf_eq (room : e.delayCount < impairDelayBufSize) (free : e.freeSlot? = some i) :
    e.queueToDelayBuf env releaseUs = .ok (.ok, e.put i env releaseUs) := by
  unfold queueToDelayBuf
  rw [freeSlot?] at free
  have hcount : (e.put i env releaseUs).delayCount ≤ impairDelayBufSize := room
  simp only [neverCompiledOutAssert, ensure_pos room, ok_bind, free]
  exact congrArg (· >>= _) (ensure_pos hcount)

/-- When a message sent now is due: at once when nothing is impaired, else after the latency and a
jitter. -/
def DueAt (e : ImpairmentEngine) (nowUs releaseUs : UInt64) : Prop :=
  if e.cfg.enabled then
    ∃ ms, minJitterMs e.cfg ≤ ms ∧ ms ≤ maxJitterMs e.cfg ∧
      releaseUs.toNat = releaseTime nowUs.toNat (e.cfg.fixedLatencyMs.toNat + ms)
  else releaseUs = nowUs

/-- What the generator draws for a message sent now: whether it gets through and is copied, and its
jitter. -/
def draws (e : ImpairmentEngine) (nowUs : UInt64) : Checked (Bool × UInt64) := do
  let (partitioned, e) ← e.isPartitionActive nowUs
  let (lost, e) ← e.checkLoss
  let (jitterUs, e) ← e.computeJitterUs
  let (dupRand, _) ← e.prng.nextDouble
  pure (!partitioned && !lost && decide (dupRand < e.cfg.duplicationProbability), jitterUs)

/-- A copy of a message sent now is drawn, and there is room for both. -/
def Copies (e : ImpairmentEngine) (nowUs jitterUs : UInt64) : Prop :=
  e.cfg.enabled = true ∧ e.draws nowUs = .ok (true, jitterUs) ∧ e.delayCount + 1 < impairDelayBufSize

/-- What one call of `process_outbound` does: the message is refused, or it is put into the first free
slot, or it and a copy are. -/
inductive Outbound (e : ImpairmentEngine) (env : MessageEnvelope) (nowUs : UInt64) :
    Result → ImpairmentEngine → Prop where
  | refused {res : Result} {e' : ImpairmentEngine} (same : SameDelays e e')
      (why : res = .errFull ∨ (res = .errIo ∧ e.cfg.enabled = true ∧
        (e.cfg.partitionEnabled = true ∨ ¬ e.cfg.lossProbability ≤ 0))) : Outbound e env nowUs res e'
  | queued {i : Fin impairDelayBufSize} {releaseUs : UInt64} {e' : ImpairmentEngine}
      (due : e.DueAt nowUs releaseUs) (free : e.freeSlot? = some i)
      (single : ∀ jitterUs, ¬ e.Copies nowUs jitterUs)
      (same : SameDelays (e.put i env releaseUs) e') : Outbound e env nowUs .ok e'
  | duplicated {i j : Fin impairDelayBufSize} {releaseUs jitterUs : UInt64} {e' : ImpairmentEngine}
      (due : e.DueAt nowUs releaseUs) (free : e.freeSlot? = some i)
      (next : (e.put i env releaseUs).freeSlot? = some j)
      (copies : e.cfg.duplicationProbability > 0 ∧ e.Copies nowUs jitterUs)
      (delay : releaseUs.toNat = min 18446744073709551615
        (nowUs.toNat + 1000 * e.cfg.fixedLatencyMs.toNat + jitterUs.toNat))
      (same : SameDelays ((e.put i env releaseUs).put j env (releaseUs + 100)).injected e') :
      Outbound e env nowUs .ok e'

/-- A copy is put into the buffer when it is drawn and there is room. -/
theorem applyDuplication_cases (h : e.applyDuplication env releaseUs = .ok e') (counted : e.Counted) :
    ∃ dupRand prng, e.prng.nextDouble = .ok (dupRand, prng) ∧
      ((¬ (dupRand < e.cfg.duplicationProbability ∧ e.delayCount < impairDelayBufSize) ∧ SameDelays e e') ∨
        (dupRand < e.cfg.duplicationProbability ∧ e.delayCount < impairDelayBufSize ∧
          ∃ j, e.freeSlot? = some j ∧ SameDelays (e.put j env (releaseUs + 100)).injected e')) := by
  unfold applyDuplication at h
  obtain ⟨-, h⟩ := ensure_bind_eq_ok.mp h
  obtain ⟨⟨dupRand, prng⟩, hdraw, h⟩ := bind_eq_ok.mp h
  obtain ⟨-, h⟩ := ensure_bind_eq_ok.mp h
  refine ⟨dupRand, prng, hdraw, ?_⟩
  split at h
  case isTrue hdup =>
    obtain ⟨j, hfree⟩ := counted.free hdup.2
    have hqueue : ({ e with prng } : ImpairmentEngine).queueToDelayBuf env (releaseUs + 100) =
        .ok (.ok, ({ e with prng } : ImpairmentEngine).put j env (releaseUs + 100)) :=
      queueToDelayBuf_eq hdup.2 hfree
    rw [hqueue, ok_bind] at h
    simp only [if_true] at h
    cases h
    exact .inr ⟨hdup.1, hdup.2, j, hfree, rfl, rfl, rfl, rfl⟩
  case isFalse hdup =>
    cases h
    exact .inl ⟨hdup, rfl, rfl, rfl, rfl⟩

theorem nextDouble_nonneg {p p' : PrngEngine} {r : Rat} (h : p.nextDouble = .ok (r, p')) : 0 ≤ r := by
  unfold PrngEngine.nextDouble at h
  obtain ⟨-, h⟩ := ensure_bind_eq_ok.mp h
  obtain ⟨⟨raw, p₁⟩, -, h⟩ := bind_eq_ok.mp h
  obtain ⟨hrange, h⟩ := ensure_bind_eq_ok.mp h
  cases h
  exact hrange.1

theorem processOutbound_spec {res : Result} (counted : e.Counted)
    (h : e.processOutbound env nowUs = .ok (res, e')) : Outbound e env nowUs res e' := by
  unfold processOutbound at h
  obtain ⟨-, h⟩ := ensure_bind_eq_ok.mp h
  split at h
  case isTrue hoff =>
    have hoff : e.cfg.enabled = false := by simpa using hoff
    split at h
    case isTrue hfull =>
      cases h
      exact .refused (.refl e) (.inl rfl)
    case isFalse hroom =>
      obtain ⟨i, hfree⟩ := counted.free (Nat.not_le.mp hroom)
      rw [queueToDelayBuf_eq (Nat.not_le.mp hroom) hfree] at h
      cases h
      refine .queued ?_ hfree (fun _ copies => ?_) (.refl _)
      · rw [DueAt, hoff]
        exact rfl
      · rw [copies.1] at hoff
        cases hoff
  case isFalse hon =>
    have hon : e.cfg.enabled = true := by simpa using hon
    obtain ⟨⟨partitioned, e₁⟩, hpart, h⟩ := bind_eq_ok.mp h
    obtain ⟨⟨_, _, _, rfl⟩, hactive⟩ := isPartitionActive_frame hpart
    cases partitioned with
    | true =>
      cases h
      exact .refused ⟨rfl, rfl, rfl, rfl⟩ (.inr ⟨rfl, hon, .inl (hactive rfl)⟩)
    | false =>
      simp only [Bool.false_eq_true, if_false] at h
      obtain ⟨⟨lost, e₂⟩, hloss, h⟩ := bind_eq_ok.mp h
      obtain ⟨⟨_, rfl⟩, hlossless⟩ := checkLoss_frame hloss
      cases lost with
      | true =>
        cases h
        refine .refused ⟨rfl, rfl, rfl, rfl⟩ (.inr ⟨rfl, hon, .inr fun hzero => ?_⟩)
        cases hlossless hzero
      | false =>
        simp only [Bool.false_eq_true, if_false] at h
        obtain ⟨⟨jitterUs, e₃⟩, hjitter, h⟩ := bind_eq_ok.mp h
        obtain ⟨⟨prng, rfl⟩, ms, hms, hlt, hmin, hmax⟩ := computeJitterUs_spec hjitter
        obtain ⟨releaseUs, hrelease, h⟩ := bind_eq_ok.mp h
        have htime := computeReleaseUs_spec hms hlt hrelease
        have hdue : e.DueAt nowUs releaseUs := by
          rw [DueAt, if_pos hon]
          exact ⟨ms, hmin, hmax, htime⟩
        have hdraws : e.draws nowUs = (do
            let (dupRand, _) ← prng.nextDouble
            pure (decide (dupRand < e.cfg.duplicationProbability), jitterUs)) := by
          unfold draws
          rw [hpart, ok_bind]
          simp only [hloss, hjitter, ok_bind]
          rfl
        split at h
        case isTrue hfull =>
          cases h
          exact .refused ⟨rfl, rfl, rfl, rfl⟩ (.inl rfl)
        case isFalse hroom =>
          obtain ⟨i, hfree⟩ := counted.free (Nat.not_le.mp hroom)
          rw [queueToDelayBuf_eq (Nat.not_le.mp hroom) hfree, ok_bind] at h
          have hput : (e.put i env releaseUs).Counted := counted.put (freeSlot?_inactive hfree)
          simp only [ne_eq, not_true_eq_false, if_false] at h
          split at h
          case isTrue hdup =>
            obtain ⟨e₄, happly, h⟩ := bind_eq_ok.mp h
            obtain ⟨-, h⟩ := ensure_bind_eq_ok.mp h
            cases h
            obtain ⟨dupRand, p, hdraw, hcases⟩ := applyDuplication_cases happly hput
            have hdraw : prng.nextDouble = .ok (dupRand, p) := hdraw
            rw [hdraw] at hdraws
            rcases hcases with ⟨hnone, same⟩ | ⟨hless, hfits, j, hnext, same⟩
            · refine .queued hdue hfree (fun jitterUs' copies => ?_) ⟨same.cfg, same.buf, same.count, same.injects⟩
              obtain ⟨-, hdrawn, hfits⟩ := copies
              rw [hdraws] at hdrawn
              have hless := congrArg Prod.fst (Except.ok.inj hdrawn)
              exact hnone ⟨of_decide_eq_true hless, hfits⟩
            · have hcopies : e.Copies nowUs jitterUs := by
                refine ⟨hon, ?_, hfits⟩
                rw [hdraws]
                have hless : dupRand < e.cfg.duplicationProbability := hless
                change Except.ok (decide (dupRand < e.cfg.duplicationProbability), jitterUs) = _
                rw [decide_eq_true hless]
              refine .duplicated hdue hfree hnext ⟨hdup, hcopies⟩ ?_ ⟨same.cfg, same.buf, same.count, same.injects⟩
              rw [htime, releaseTime, hms, Nat.mul_add, ← Nat.add_assoc]
          case isFalse hdup =>
            obtain ⟨-, h⟩ := ensure_bind_eq_ok.mp h
            cases h
            refine .queued hdue hfree (fun jitterUs' copies => ?_) ⟨rfl, rfl, rfl, rfl⟩
            obtain ⟨-, hdrawn, -⟩ := copies
            rw [hdraws] at hdrawn
            obtain ⟨⟨dupRand, p⟩, hdraw, hdrawn⟩ := bind_eq_ok.mp hdrawn
            have hless := of_decide_eq_true (congrArg Prod.fst (Except.ok.inj hdrawn))
            exact hdup (lt_of_le_of_lt (nextDouble_nonneg hdraw) hless)

/-! ## How it fails -/

/-- The program stopped somewhere else than at an assertion of the delay buffer. -/
def Elsewhere (fault : Fault) : Prop :=
  fault ≠ .assertion .impairmentQueueToDelayBuf ∧ fault ≠ .assertion .impairmentCollectDeliverable

instance : DecidablePred Elsewhere := fun _ => inferInstanceAs (Decidable (_ ∧ _))

theorem next_fails (p : PrngEngine) : FailsOnly Elsewhere p.next :=
  .bind (.ensure (by decide)) fun _ _ => .bind (.ensure (by decide)) fun _ _ => .ok _

theorem nextDouble_fails (p : PrngEngine) : FailsOnly Elsewhere p.nextDouble :=
  .bind (.ensure (by decide)) fun _ _ => .bind (next_fails p) fun _ _ =>
    .bind (.ensure (by decide)) fun _ _ => .ok _

theorem draw_fails (threshold : UInt64) (attempts : Nat) (raw : UInt64) (p : PrngEngine) :
    FailsOnly Elsewhere (PrngEngine.nextRange.draw threshold attempts raw p) := by
  induction attempts generalizing raw p with
  | zero => exact .ok _
  | succ attempts ih => exact .bind (next_fails p) fun r _ => .ite (fun _ => .ok _) fun _ => ih r.1 r.2

theorem nextRange_fails (p : PrngEngine) (lo hi : UInt32) : FailsOnly Elsewhere (p.nextRange lo hi) :=
  .bind (.ensure (by decide)) fun _ _ => .bind (.ensure (by decide)) fun _ _ =>
    .bind (.ensure (by decide)) fun _ _ => .bind (draw_fails _ 64 0 p) fun _ _ =>
      .bind (.ensure (by decide)) fun _ _ => .ok _

theorem checkLoss_fails (e : ImpairmentEngine) : FailsOnly Elsewhere e.checkLoss :=
  .bind (.ensure (by decide)) fun _ _ => .ite (fun _ => .ok _) fun _ =>
    .bind (nextDouble_fails e.prng) fun _ _ => .bind (.ensure (by decide)) fun _ _ => .ok _

theorem computeJitterUs_fails (e : ImpairmentEngine) : FailsOnly Elsewhere e.computeJitterUs :=
  .ite (fun _ => .ok _) fun _ => .bind (.ensure (by decide)) fun _ _ =>
    .bind (nextRange_fails e.prng _ _) fun _ _ => .ok _

theorem computeReleaseUs_fails (nowUs baseDelayUs jitterUs : UInt64) :
    FailsOnly Elsewhere (computeReleaseUs nowUs baseDelayUs jitterUs) :=
  .bind (.ensure (by decide)) fun _ _ => .bind (.ensure (by decide)) fun _ _ => .ok _

/-- A query returns. -/
theorem isPartitionActive_total (e : ImpairmentEngine) (nowUs : UInt64) :
    ∃ active e', e.isPartitionActive nowUs = .ok (active, e') := by
  unfold isPartitionActive
  split
  · exact ⟨_, _, rfl⟩
  split
  · exact ⟨_, _, rfl⟩
  case isFalse hevent =>
  split
  · exact ⟨_, _, rfl⟩
  split
  · exact ⟨_, _, rfl⟩
  · have hpos : e.nextPartitionEventUs > 0 := by
      rw [gt_iff_lt, UInt64.lt_iff_toNat_lt]
      refine Nat.pos_of_ne_zero fun hz => hevent ?_
      exact UInt64.toNat_inj.mp hz
    simp only [neverCompiledOutAssert, ensure_pos hpos, ok_bind, pure_eq_ok]
    exact ⟨_, _, rfl⟩

theorem queueToDelayBuf_fails (counted : e.Counted) (room : e.delayCount < impairDelayBufSize) :
    FailsOnly Elsewhere (e.queueToDelayBuf env releaseUs) := by
  obtain ⟨i, hfree⟩ := counted.free room
  rw [queueToDelayBuf_eq room hfree]
  exact .ok _

theorem applyDuplication_fails (counted : e.Counted) : FailsOnly Elsewhere (e.applyDuplication env releaseUs) := by
  refine .bind (.ensure (by decide)) fun _ _ => .bind (nextDouble_fails e.prng) fun r _ =>
    .bind (.ensure (by decide)) fun _ _ => .ite (fun h => ?_) fun _ => .ok _
  refine .bind (queueToDelayBuf_fails (e := { e with prng := r.2 }) counted h.2) fun _ _ => ?_
  exact .ite (fun _ => .ok _) fun _ => .ok _

/-- The assertions of the delay buffer hold. -/
theorem processOutbound_fails (counted : e.Counted) : FailsOnly Elsewhere (e.processOutbound env nowUs) := by
  refine .bind (.ensure (by decide)) fun _ _ => .ite (fun _ => .ite (fun _ => .ok _) fun room => ?_) fun _ => ?_
  · exact queueToDelayBuf_fails counted (Nat.not_le.mp room)
  obtain ⟨active, e₁, hquery⟩ := e.isPartitionActive_total nowUs
  obtain ⟨⟨_, _, _, rfl⟩, -⟩ := isPartitionActive_frame hquery
  rw [hquery, ok_bind]
  refine .ite (fun _ => .ok _) fun _ => .bind (checkLoss_fails _) ?_
  rintro ⟨lost, e₂⟩ hloss
  obtain ⟨⟨_, rfl⟩, -⟩ := checkLoss_frame hloss
  refine .ite (fun _ => .ok _) fun _ => .bind (computeJitterUs_fails _) ?_
  rintro ⟨jitterUs, e₃⟩ hjitter
  obtain ⟨⟨_, rfl⟩, -⟩ := computeJitterUs_spec hjitter
  refine .bind (computeReleaseUs_fails _ _ _) fun releaseUs _ => .ite (fun _ => .ok _) fun room => ?_
  obtain ⟨i, hfree⟩ := counted.free (Nat.not_le.mp room)
  rw [queueToDelayBuf_eq (Nat.not_le.mp room) hfree, ok_bind]
  have hput : (e.put i env releaseUs).Counted := counted.put (freeSlot?_inactive hfree)
  refine .ite (fun _ => .ok _) fun _ => .ite (fun _ => ?_) fun _ => ?_
  · exact .bind (applyDuplication_fails hput) fun _ _ => .bind (.ensure (by decide)) fun _ _ => .ok _
  · exact .bind (.ok _) fun _ _ => .bind (.ensure (by decide)) fun _ _ => .ok _

/-! ## Collecting -/

/-- The message can go. -/
def isDue (nowUs : UInt64) (s : DelayEntry) : Bool := s.active && decide (s.releaseUs ≤ nowUs)

/-- The slots a collection takes: the first due ones that the buffer has room for. -/
def taken (e : ImpairmentEngine) (nowUs : UInt64) (bufCap k : Nat) : List (Fin impairDelayBufSize) :=
  picks (isDue nowUs) e.delayBuf bufCap k

/-- What a collection has done before round `k`. -/
structure Collects (e : ImpairmentEngine) (nowUs : UInt64) (bufCap k : Nat)
    (s : List MessageEnvelope × ImpairmentEngine) : Prop where
  out : s.1 = (e.taken nowUs bufCap k).map fun i => e.delayBuf[i].env
  slots : ∀ j : Fin impairDelayBufSize, s.2.delayBuf[j] =
    if j ∈ e.taken nowUs bufCap k then { e.delayBuf[j] with active := false } else e.delayBuf[j]
  counted : s.2.Counted
  kept : (s.1 ++ s.2.waiting).Perm e.waiting
  cfg : s.2.cfg = e.cfg
  injects : s.2.stats.duplicateInjects = e.stats.duplicateInjects

variable {bufCap k : Nat} {s s' : List MessageEnvelope × ImpairmentEngine}

theorem mem_taken (h : i ∈ e.taken nowUs bufCap k) :
    (i : Nat) < k ∧ e.delayBuf[i].active = true ∧ e.delayBuf[i].releaseUs ≤ nowUs := by
  obtain ⟨hlt, hdue⟩ := mem_picks h
  rw [isDue, Bool.and_eq_true, decide_eq_true_iff] at hdue
  exact ⟨hlt, hdue⟩

theorem Collects.start (counted : e.Counted) : Collects e nowUs bufCap 0 ([], e) := by
  have hnone : e.taken nowUs bufCap 0 = [] := picks_zero
  refine ⟨by rw [hnone]; rfl, fun j => ?_, counted, .refl _, rfl, rfl⟩
  rw [hnone, if_neg List.not_mem_nil]

theorem Collects.round (h : Collects e nowUs bufCap i s) :
    ∃ s', collectDeliverable.round nowUs bufCap i s = .ok s' ∧ Collects e nowUs bufCap (i + 1) s' := by
  obtain ⟨out, c⟩ := s
  have hget : c.delayBuf[i] = e.delayBuf[i] := by
    rw [h.slots i, if_neg]
    intro hi
    exact Nat.lt_irrefl _ (mem_taken hi).1
  have hout : out = (e.taken nowUs bufCap i).map fun i => e.delayBuf[i].env := h.out
  have hlength : out.length = (e.taken nowUs bufCap i).length := by
    rw [hout, List.length_map]
  unfold collectDeliverable.round
  by_cases hgo : out.length < bufCap ∧ c.delayBuf[i].active ∧ c.delayBuf[i].releaseUs ≤ nowUs
  · obtain ⟨hroom, hactive, hdue⟩ := hgo
    have hset := countP_set_add DelayEntry.active c.delayBuf i { c.delayBuf[i] with active := false }
    rw [if_pos hactive, if_neg Bool.false_ne_true] at hset
    have hcounted : c.delayCount = c.delayBuf.countP DelayEntry.active := h.counted
    have hone := hcounted.trans hset.symm
    have hcount : c.delayCount > 0 := by
      rw [hone]
      exact Nat.succ_pos _
    have hpicks : e.taken nowUs bufCap (i + 1) = e.taken nowUs bufCap i ++ [i] := by
      apply picks_room
      · rw [← hget, isDue, hactive, decide_eq_true hdue]
        rfl
      · rw [← taken, ← hlength]
        exact hroom
    simp only [hactive, hdue, hroom, and_self, if_true, neverCompiledOutAssert, ensure_pos hcount, ok_bind]
    refine ⟨_, rfl, ?_, fun j => ?_, ?_, ?_, h.cfg, h.injects⟩
    · dsimp only
      rw [hpicks, List.map_append, ← hout, hget]
      rfl
    · dsimp only
      rw [getElem_set_fin, hpicks]
      by_cases hij : i = j
      · rw [if_pos hij, if_pos (List.mem_append_right _ (List.mem_singleton.mpr hij.symm)), hget, hij]
      · have hiff : j ∈ e.taken nowUs bufCap i ++ [i] ↔ j ∈ e.taken nowUs bufCap i := by
          rw [List.mem_append, List.mem_singleton]
          exact or_iff_left fun heq => hij heq.symm
        rw [if_neg hij, h.slots j, if_congr hiff rfl rfl]
    · exact Nat.sub_eq_of_eq_add hone
    · have hperm := (filter_unset_perm (p := DelayEntry.active) hactive
        (x := { c.delayBuf[i] with active := false }) rfl).map DelayEntry.env
      change (out ++ [c.delayBuf[i].env] ++ _).Perm _
      rw [List.append_assoc]
      exact (List.Perm.append_left out hperm).trans h.kept
  · simp only [if_neg hgo]
    have hpicks : e.taken nowUs bufCap (i + 1) = e.taken nowUs bufCap i := by
      apply picks_skip
      rw [← taken, ← hlength, ← hget, isDue, Bool.and_eq_false_iff, decide_eq_false_iff_not]
      by_cases hroom : out.length < bufCap
      · by_cases hactive : c.delayBuf[i].active = true
        · exact .inl (.inr fun hdue => hgo ⟨hroom, hactive, hdue⟩)
        · exact .inl (.inl (Bool.not_eq_true _ |>.mp hactive))
      · exact .inr hroom
    refine ⟨_, rfl, by rw [hpicks]; exact h.out, fun j => ?_, h.counted, h.kept, h.cfg, h.injects⟩
    rw [hpicks]
    exact h.slots j

/-- A collection returns, and takes the due messages the buffer has room for. -/
theorem collectDeliverable_spec (counted : e.Counted) (nowUs : UInt64) (hcap : bufCap > 0) :
    ∃ out e', e.collectDeliverable nowUs bufCap = .ok (out, e') ∧
      Collects e nowUs bufCap impairDelayBufSize (out, e') := by
  obtain ⟨⟨out, e'⟩, hloop, collects⟩ := eachIndex_total (fun k s => Collects e nowUs bufCap k s) ([], e)
    (.start counted) fun i s h => h.round
  have hout : out = (e.taken nowUs bufCap impairDelayBufSize).map fun i => e.delayBuf[i].env := collects.out
  have hlength : out.length ≤ bufCap := by
    rw [hout, List.length_map]
    exact List.length_take_le _ _
  have hle : e'.delayCount ≤ impairDelayBufSize := collects.counted.le
  refine ⟨out, e', ?_, collects⟩
  unfold collectDeliverable
  simp only [neverCompiledOutAssert, ensure_pos hcap, hloop, ensure_pos hlength, ensure_pos hle, ok_bind, pure_eq_ok]

end ImpairmentEngine

end MessageEngine
