import MessageEngine.Laws.Impairment.Outbound
import MessageEngine.Lib.Run
import MessageEngine.Lib.Stretch

/-!
# When a partition starts and ends

The engine knows one time, that of the next transition, and looks at it when it is asked. The answers are
stretches, inactive and active in turn. A stretch is due to end after the gap or the duration, counted from
the query that opened it.

## What is proved

- `isPartitionActive_due`: a query makes the transition exactly when it is due;
- `partition_timing`: so of every sequence of queries, and the first answer is inactive.
-/

namespace MessageEngine

open Outcome Stretch

namespace ImpairmentEngine

variable {e : ImpairmentEngine} {cfg : ImpairmentConfig}

/-- How long a stretch lasts, in milliseconds. -/
def span (cfg : ImpairmentConfig) (active : Bool) : UInt32 :=
  if active then cfg.partitionDurationMs else cfg.partitionGapMs

theorem satAddUs_toNat {nowUs : UInt64} {deltaMs : UInt32}
    (fits : nowUs.toNat + 1000 * deltaMs.toNat < 18446744073709551616) :
    (satAddUs nowUs deltaMs).toNat = nowUs.toNat + 1000 * deltaMs.toNat := by
  have hlt : deltaMs.toNat < 4294967296 := deltaMs.toNat_lt
  have hdelta : (deltaMs.toUInt64 * 1000).toNat = 1000 * deltaMs.toNat := by
    rw [UInt64.toNat_mul, UInt32.toNat_toUInt64]
    change deltaMs.toNat * 1000 % 18446744073709551616 = _
    omega
  have hmax : (0xFFFFFFFFFFFFFFFF : UInt64).toNat = 18446744073709551615 := rfl
  have hle : deltaMs.toUInt64 * 1000 ≤ 0xFFFFFFFFFFFFFFFF := by
    rw [UInt64.le_iff_toNat_le, hdelta, hmax]
    omega
  have hroom : ¬ nowUs > 0xFFFFFFFFFFFFFFFF - deltaMs.toUInt64 * 1000 := by
    rw [gt_iff_lt, UInt64.lt_iff_toNat_lt, UInt64.toNat_sub_of_le _ _ hle, hdelta, hmax]
    omega
  rw [satAddUs, if_neg hroom, UInt64.toNat_add, hdelta]
  exact Nat.mod_eq_of_lt fits

/-- Once a transition is planned, a query makes it when it is due and changes nothing before. -/
theorem isPartitionActive_due (hon : e.cfg.partitionEnabled = true) (planned : 0 < e.nextPartitionEventUs)
    (nowUs : UInt64) :
    (e.nextPartitionEventUs ≤ nowUs ∧ ∃ startUs, e.isPartitionActive nowUs = .ok (!e.partitionActive, { e with
      partitionActive := !e.partitionActive
      partitionStartUs := startUs
      nextPartitionEventUs := satAddUs nowUs (span e.cfg !e.partitionActive) })) ∨
    (¬ e.nextPartitionEventUs ≤ nowUs ∧ e.isPartitionActive nowUs = .ok (e.partitionActive, e)) := by
  have hne : e.nextPartitionEventUs ≠ 0 := by
    intro hzero
    rw [hzero] at planned
    cases planned
  have hoff : ¬ (!e.cfg.partitionEnabled) = true := by
    rw [hon]
    exact Bool.false_ne_true
  unfold isPartitionActive
  rw [if_neg hoff, if_neg hne]
  by_cases hdue : e.nextPartitionEventUs ≤ nowUs
  · refine .inl ⟨hdue, ?_⟩
    cases hactive : e.partitionActive with
    | false =>
      refine ⟨nowUs, ?_⟩
      rw [if_pos (by simpa using hdue)]
      rfl
    | true =>
      refine ⟨e.partitionStartUs, ?_⟩
      rw [if_neg (by simp), if_pos (by simpa using hdue)]
      rfl
  · refine .inr ⟨hdue, ?_⟩
    have hstart : ¬ (!e.partitionActive && decide (nowUs ≥ e.nextPartitionEventUs)) = true := by
      rw [decide_eq_false hdue, Bool.and_false]
      exact Bool.false_ne_true
    have hend : ¬ (e.partitionActive && decide (nowUs ≥ e.nextPartitionEventUs)) = true := by
      rw [decide_eq_false hdue, Bool.and_false]
      exact Bool.false_ne_true
    rw [if_neg hstart, if_neg hend]
    simp only [neverCompiledOutAssert, ensure_pos planned, ok_bind, pure_eq_ok]

/-! ## Sequences of queries -/

def query (nowUs : UInt64) (e : ImpairmentEngine) : Checked (Bool × ImpairmentEngine) := e.isPartitionActive nowUs

/-- One query, with the engine before and after it. -/
abbrev Query := Run.Taken ImpairmentEngine UInt64 Bool

/-- The first answer is inactive; a later one differs from the stretch before it exactly when the time of
that stretch is over, counted from the query that opened it. -/
structure OnTime (cfg : ImpairmentConfig) (past : List Query) (q : Query) : Prop where
  starts : past = [] → q.output = false
  turns : ∀ first, Opens Run.Taken.output past first →
    (q.output ≠ first.output ↔ first.input.toNat + 1000 * (span cfg first.output).toNat ≤ q.input.toNat)

/-- The engine after the queries in `past`: the next transition is planned for the end of the stretch. -/
structure Phase (cfg : ImpairmentConfig) (past : List Query) (e : ImpairmentEngine) : Prop where
  same : e.cfg = cfg
  lawful : Run.Lawful (OnTime cfg) past
  planned : (past = [] ∧ e.nextPartitionEventUs = 0) ∨
    ∃ first, Opens Run.Taken.output past first ∧ e.partitionActive = first.output ∧ 0 < e.nextPartitionEventUs ∧
      e.nextPartitionEventUs.toNat = first.input.toNat + 1000 * (span cfg first.output).toNat

/-- The time does not run past the end of the clock. -/
def Fits (cfg : ImpairmentConfig) (nowUs : UInt64) : Prop :=
  nowUs.toNat + 1000 * max cfg.partitionGapMs.toNat cfg.partitionDurationMs.toNat < 18446744073709551616

theorem Fits.span {nowUs : UInt64} (h : Fits cfg nowUs) (active : Bool) :
    (satAddUs nowUs (span cfg active)).toNat = nowUs.toNat + 1000 * (ImpairmentEngine.span cfg active).toNat := by
  apply satAddUs_toNat
  unfold Fits at h
  cases active with
  | false =>
    change nowUs.toNat + 1000 * cfg.partitionGapMs.toNat < _
    omega
  | true =>
    change nowUs.toNat + 1000 * cfg.partitionDurationMs.toNat < _
    omega

/-- One more query is answered on time. -/
theorem Phase.query {past : List Query} {nowUs : UInt64} (h : Phase cfg past e) (hon : cfg.partitionEnabled = true)
    (hgap : 0 < cfg.partitionGapMs) (fits : Fits cfg nowUs) :
    ∃ a e', ImpairmentEngine.query nowUs e = .ok (a, e') ∧ Phase cfg (past ++ [⟨e, nowUs, a, e'⟩]) e' := by
  obtain ⟨hcfg, hlawful, hplanned⟩ := h
  have hon : e.cfg.partitionEnabled = true := by
    rw [hcfg]
    exact hon
  rcases hplanned with ⟨rfl, hfresh⟩ | ⟨first, opens, hactive, hpos, hdue⟩
  · -- the first query plans the first partition
    have hquery : e.isPartitionActive nowUs = .ok (false, { e with
        nextPartitionEventUs := satAddUs nowUs e.cfg.partitionGapMs, partitionActive := false }) := by
      unfold isPartitionActive
      rw [if_neg (by rw [hon]; exact Bool.false_ne_true), if_pos hfresh]
      rfl
    have hnext := fits.span false
    change (satAddUs nowUs cfg.partitionGapMs).toNat = nowUs.toNat + 1000 * cfg.partitionGapMs.toNat at hnext
    refine ⟨_, _, hquery, hcfg, hlawful.snoc ⟨fun _ => rfl, fun first opens => ?_⟩, .inr ⟨_, .singleton _ _, rfl, ?_, ?_⟩⟩
    · obtain ⟨before, more, hsplit, -⟩ := opens
      exact absurd hsplit.symm (by simp)
    · rw [hcfg, UInt64.lt_iff_toNat_lt, hnext]
      have hgap := UInt32.lt_iff_toNat_lt.mp hgap
      change 0 < cfg.partitionGapMs.toNat at hgap
      change 0 < _
      omega
    · rw [hcfg]
      exact hnext
  · have hstarted : past ≠ [] := by
      rintro rfl
      obtain ⟨before, more, hsplit, -⟩ := opens
      exact absurd hsplit.symm (by simp)
    rcases e.isPartitionActive_due hon hpos nowUs with ⟨hlate, startUs, hquery⟩ | ⟨hearly, hquery⟩
    · -- the transition is made, and a new stretch begins
      have hlate := UInt64.le_iff_toNat_le.mp hlate
      rw [hdue] at hlate
      have hturned : (!e.partitionActive) ≠ first.output := by
        rw [hactive]
        exact Bool.not_ne_self _
      refine ⟨_, _, hquery, hcfg, hlawful.snoc ⟨fun hnil => absurd hnil hstarted, fun first' opens' => ?_⟩,
        .inr ⟨_, opens.turned hturned, rfl, ?_, ?_⟩⟩
      · obtain rfl := opens.unique opens'
        exact iff_of_true hturned hlate
      · rw [UInt64.lt_iff_toNat_lt, hcfg, fits.span]
        have hpos := UInt64.lt_iff_toNat_lt.mp hpos
        change 0 < e.nextPartitionEventUs.toNat at hpos
        change 0 < _
        omega
      · rw [hcfg]
        exact fits.span _
    · -- nothing is due, and the stretch goes on
      rw [UInt64.le_iff_toNat_le, hdue] at hearly
      refine ⟨_, _, hquery, hcfg, hlawful.snoc ⟨fun hnil => absurd hnil hstarted, fun first' opens' => ?_⟩,
        .inr ⟨first, opens.continued hactive, hactive, hpos, hdue⟩⟩
      obtain rfl := opens.unique opens'
      exact iff_of_false (fun hne => hne hactive) hearly

/-- Of every sequence of queries after `init`, each is answered, and on time. -/
theorem partition_timing {entropy : UInt64} {start : ImpairmentEngine} (hinit : init cfg entropy = .ok start)
    (hon : cfg.partitionEnabled = true) {times : List UInt64} (fits : ∀ nowUs ∈ times, Fits cfg nowUs) :
    ∃ answers e, Run.runAll query times start = .ok (answers, e) ∧
      Run.Lawful (OnTime cfg) (Run.history query times start) := by
  obtain ⟨-, hgap, seed, rfl⟩ := init_spec hinit
  have hgap : 0 < cfg.partitionGapMs := by
    rw [hon] at hgap
    simpa using hgap
  have hstart : Phase cfg [] (fresh cfg (.seed seed)) := ⟨rfl, .nil, .inl ⟨rfl, rfl⟩⟩
  obtain ⟨answers, e, hrun, hphase⟩ := Run.history_total
    (fun nowUs hnow past e h => h.query hon hgap (fits nowUs hnow)) hstart
  exact ⟨answers, e, hrun, hphase.lawful⟩

/-- A partition of two milliseconds after every three. -/
def parting : ImpairmentConfig :=
  { impairmentConfigDefault with
    enabled := true, partitionEnabled := true, partitionGapMs := 3, partitionDurationMs := 2, prngSeed := 1 }

theorem partition_timing_parting :
    ∃ start answers e, init parting 0 = .ok start ∧
      Run.runAll query [1000, 3999, 4000, 5999, 9000] start = .ok (answers, e) ∧
      Run.Lawful (OnTime parting) (Run.history query [1000, 3999, 4000, 5999, 9000] start) := by
  have hinit : Succeeds (init parting 0) fun _ => True := by decide
  obtain ⟨start, hinit, -⟩ := hinit.exists
  have hfits : ∀ nowUs ∈ ([1000, 3999, 4000, 5999, 9000] : List UInt64), Fits parting nowUs := by
    have hgap : parting.partitionGapMs.toNat = 3 := rfl
    have hduration : parting.partitionDurationMs.toNat = 2 := rfl
    simp [Fits, hgap, hduration]
  obtain ⟨answers, e, hrun, hlawful⟩ := partition_timing hinit rfl hfits
  exact ⟨start, answers, e, hinit, hrun, hlawful⟩

end ImpairmentEngine

end MessageEngine
