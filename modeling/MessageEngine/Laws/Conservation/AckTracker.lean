import MessageEngine.Laws.AckTracker
import MessageEngine.Lib.Run

/-!
# The acknowledgement tracker keeps its books

A tracker is driven by any sequence of its five operations. Each operation moves entries between
the pending slots and three ways out: acknowledged, timed out, cancelled. The step law says how many
entries a step moves and that the counters follow; the law of a run adds the steps up.

## What is proved

- `step_moves`: the balance of one operation.
- `tracker_conserves`: every run of the tracker returns, its counter counts the slots in use, a
  message is refused exactly when no slot is free, and every message that was tracked is pending,
  acknowledged, timed out or cancelled.
-/

namespace MessageEngine

open Outcome Table
open Run (total total_append)

namespace AckTracker

/-- An operation of the tracker. -/
inductive Op where
  | track (env : MessageEnvelope) (deadlineUs : UInt64)
  | onAck (src : NodeId) (msgId : UInt64)
  | cancel (src : NodeId) (msgId : UInt64)
  | cancelPeer (dst : NodeId)
  | sweepExpired (nowUs : UInt64) (bufCap : Nat)

/-- What the operation returns. -/
inductive Reply where
  | result (r : Result)
  | cancelled (n : Nat)
  | expired (out : List MessageEnvelope)

def step : Op → AckTracker → Checked (Reply × AckTracker)
  | .track env deadlineUs, t => do
    let (r, t) ← t.track env deadlineUs
    pure (.result r, t)
  | .onAck src msgId, t => do
    let (r, t) ← t.onAck src msgId
    pure (.result r, t)
  | .cancel src msgId, t => do
    let (r, t) ← t.cancel src msgId
    pure (.result r, t)
  | .cancelPeer dst, t => do
    let (n, t) ← t.cancelPeer dst
    pure (.cancelled n, t)
  | .sweepExpired nowUs bufCap, t => do
    let (out, t) ← t.sweepExpired nowUs bufCap
    pure (.expired out, t)

/-- The arguments the operations check: node ids and timestamps are not zero. -/
def Op.WellFormed : Op → Prop
  | .track env _ => env.sourceId ≠ 0
  | .onAck src _ => src ≠ 0
  | .cancel src _ => src ≠ 0
  | .cancelPeer dst => dst ≠ 0
  | .sweepExpired nowUs _ => nowUs ≠ 0

instance : DecidablePred Op.WellFormed := fun op =>
  match op with
  | .track env _ => inferInstanceAs (Decidable (env.sourceId ≠ 0))
  | .onAck src _ => inferInstanceAs (Decidable (src ≠ 0))
  | .cancel src _ => inferInstanceAs (Decidable (src ≠ 0))
  | .cancelPeer dst => inferInstanceAs (Decidable (dst ≠ 0))
  | .sweepExpired nowUs _ => inferInstanceAs (Decidable (nowUs ≠ 0))

/-! ## What one step moves -/

/-- A step of the tracker that was taken. -/
abbrev Step := Run.Taken AckTracker Op Reply

/-- The messages the step began to track. -/
def Step.tracked (s : Step) : Nat :=
  match s.input, s.output with
  | .track _ _, .result .ok => 1
  | _, _ => 0

/-- The entries the step marked as acknowledged. -/
def Step.acked (s : Step) : Nat :=
  match s.input, s.output with
  | .onAck _ _, .result .ok => 1
  | _, _ => 0

/-- The entries the step cancelled. -/
def Step.cancelled (s : Step) : Nat :=
  match s.input, s.output with
  | .cancel _ _, .result .ok => 1
  | .cancelPeer _, .cancelled n => n
  | _, _ => 0

/-- The pending entries the step took for timed out: those its sweep removed. -/
def Step.timedOut (s : Step) : Nat :=
  match s.input with
  | .sweepExpired _ _ => s.before.pendingCount - s.after.pendingCount
  | _ => 0

/-- The balance of a step. -/
structure Moves (s : Step) : Prop where
  entries : s.before.pendingCount + s.tracked = s.after.pendingCount + s.acked + s.timedOut + s.cancelled
  acksReceived : s.after.stats.acksReceived = s.before.stats.acksReceived + UInt32.ofNat s.acked
  timeouts : s.after.stats.timeouts = s.before.stats.timeouts + UInt32.ofNat s.timedOut

variable {t t' : AckTracker} {op : Op} {reply : Reply}

/-- A free slot that is written over as pending. -/
theorem pendingCount_track {i : Fin ackTrackerCapacity} {slot : Entry} (hold : t.slots[i].state = .free)
    (hnew : slot.state = .pending) :
    (t.slots.set i slot i.isLt).countP (fun slot => slot.state == .pending) = t.pendingCount + 1 := by
  have hset := countP_set_add (fun slot => slot.state == .pending) t.slots i slot
  rw [hold, if_neg (by decide), hnew, if_pos (beq_self_eq_true _)] at hset
  exact hset

/-- A step of which only the pending slots need a look. -/
theorem Moves.of_stats {s : Step} (hacked : s.acked = 0) (htimed : s.timedOut = 0)
    (hstats : s.after.stats = s.before.stats)
    (hentries : s.before.pendingCount + s.tracked = s.after.pendingCount + s.cancelled) : Moves s := by
  refine ⟨?_, ?_, ?_⟩
  · rw [hacked, htimed]
    exact hentries
  · rw [hacked, hstats]
    exact (UInt32.add_zero _).symm
  · rw [htimed, hstats]
    exact (UInt32.add_zero _).symm

theorem moves_track {env : MessageEnvelope} {deadlineUs : UInt64} {r : Result}
    (h : t.track env deadlineUs = .ok (r, t')) : Moves ⟨t, .track env deadlineUs, .result r, t'⟩ := by
  rcases track_cases h with ⟨rfl, hstats, i, hfree, hslots⟩ | ⟨rfl, rfl, -⟩
  · apply Moves.of_stats rfl rfl hstats
    change t.pendingCount + 1 = t'.slots.countP _ + 0
    rw [hslots]
    exact (pendingCount_track hfree rfl).symm
  · exact Moves.of_stats rfl rfl rfl rfl

theorem moves_onAck (counted : Counted t) {src : NodeId} {msgId : UInt64} {r : Result}
    (h : t.onAck src msgId = .ok (r, t')) : Moves ⟨t, .onAck src msgId, .result r, t'⟩ := by
  rw [onAck_eq counted] at h
  cases hf : firstSlot? (Entry.matches src msgId) t.slots with
  | some i =>
    rw [hf] at h
    cases h
    have hpending := (state_of_matches (firstSlot?_some hf)).1
    have hcount := pendingCount_set hpending
      (show ({ t.slots[i] with state := .acked } : Entry).state ≠ .pending by simp)
    refine ⟨?_, rfl, (UInt32.add_zero _).symm⟩
    exact hcount.symm
  | none =>
    rw [hf] at h
    cases h
    exact Moves.of_stats rfl rfl rfl rfl

theorem moves_cancel {src : NodeId} {msgId : UInt64} {r : Result}
    (h : t.cancel src msgId = .ok (r, t')) : Moves ⟨t, .cancel src msgId, .result r, t'⟩ := by
  rcases cancel_cases h with ⟨rfl, i, hi, rfl⟩ | ⟨rfl, -, rfl⟩
  · have hpending := (state_of_matches (firstSlot?_some hi)).1
    have hcount := pendingCount_set hpending
      (show ({ t.slots[i] with state := .free } : Entry).state ≠ .pending by simp)
    exact Moves.of_stats rfl rfl rfl hcount.symm
  · exact Moves.of_stats rfl rfl rfl rfl

theorem moves_cancelPeer {dst : NodeId} {n : Nat} (h : t.cancelPeer dst = .ok (n, t')) :
    Moves ⟨t, .cancelPeer dst, .cancelled n, t'⟩ := by
  have hcancelled := (cancelPeer_cases h).1
  apply Moves.of_stats rfl rfl hcancelled.stats
  exact hcancelled.counted.symm.trans (Nat.add_comm _ _)

theorem moves_sweepExpired {nowUs : UInt64} {bufCap : Nat} {out : List MessageEnvelope}
    (h : t.sweepExpired nowUs bufCap = .ok (out, t')) :
    Moves ⟨t, .sweepExpired nowUs bufCap, .expired out, t'⟩ := by
  have hswept := sweepExpired_cases h
  obtain ⟨n, hn, htimeouts⟩ := hswept.timeouts
  have htimed : t.pendingCount - t'.pendingCount = n := by
    dsimp only at hn
    omega
  refine ⟨?_, ?_, ?_⟩
  · change t.pendingCount = t'.pendingCount + 0 + (t.pendingCount - t'.pendingCount) + 0
    dsimp only at hn
    omega
  · exact hswept.acksReceived.trans (UInt32.add_zero _).symm
  · change t'.stats.timeouts = t.stats.timeouts + UInt32.ofNat (t.pendingCount - t'.pendingCount)
    rw [htimed]
    exact htimeouts

/-- Every step balances. -/
theorem step_moves (counted : Counted t) (h : step op t = .ok (reply, t')) : Moves ⟨t, op, reply, t'⟩ := by
  cases op with
  | track env deadlineUs =>
    obtain ⟨⟨r, t₁⟩, htrack, hdone⟩ := bind_eq_ok.mp h
    cases hdone
    exact moves_track htrack
  | onAck src msgId =>
    obtain ⟨⟨r, t₁⟩, hack, hdone⟩ := bind_eq_ok.mp h
    cases hdone
    exact moves_onAck counted hack
  | cancel src msgId =>
    obtain ⟨⟨r, t₁⟩, hcancel, hdone⟩ := bind_eq_ok.mp h
    cases hdone
    exact moves_cancel hcancel
  | cancelPeer dst =>
    obtain ⟨⟨n, t₁⟩, hcancel, hdone⟩ := bind_eq_ok.mp h
    cases hdone
    exact moves_cancelPeer hcancel
  | sweepExpired nowUs bufCap =>
    obtain ⟨⟨out, t₁⟩, hsweep, hdone⟩ := bind_eq_ok.mp h
    cases hdone
    exact moves_sweepExpired hsweep

/-- Every step with arguments in order returns and leaves the count right. -/
theorem step_total (counted : Counted t) (h : op.WellFormed) :
    ∃ reply t', step op t = .ok (reply, t') ∧ Counted t' := by
  cases op with
  | track env deadlineUs =>
    obtain ⟨r, t', hrun, hcounted⟩ := track_total counted env deadlineUs
    exact ⟨_, t', bind_eq_ok.mpr ⟨_, hrun, rfl⟩, hcounted⟩
  | onAck src msgId =>
    obtain ⟨r, t', hrun, hcounted, -⟩ := onAck_total counted src msgId
    exact ⟨_, t', bind_eq_ok.mpr ⟨_, hrun, rfl⟩, hcounted⟩
  | cancel src msgId =>
    obtain ⟨r, t', hrun, hcounted, -⟩ := cancel_total counted msgId h
    exact ⟨_, t', bind_eq_ok.mpr ⟨_, hrun, rfl⟩, hcounted⟩
  | cancelPeer dst =>
    obtain ⟨n, t', hrun, hcounted⟩ := cancelPeer_total counted h
    exact ⟨_, t', bind_eq_ok.mpr ⟨_, hrun, rfl⟩, hcounted⟩
  | sweepExpired nowUs bufCap =>
    obtain ⟨out, t', hrun, hcounted, -⟩ := sweepExpired_total counted h bufCap
    exact ⟨_, t', bind_eq_ok.mpr ⟨_, hrun, rfl⟩, hcounted⟩

/-! ## The balance of a run -/

/-- The books after the steps `past`. -/
structure Balanced (past : List Step) (t : AckTracker) : Prop where
  counted : Counted t
  entries : total Step.tracked past =
    t.pendingCount + total Step.acked past + total Step.timedOut past + total Step.cancelled past
  acksReceived : t.stats.acksReceived = UInt32.ofNat (total Step.acked past)
  timeouts : t.stats.timeouts = UInt32.ofNat (total Step.timedOut past)

theorem balanced_init : Balanced [] init := by
  refine ⟨inv_init.counted, ?_, rfl, rfl⟩
  have hnone : init.pendingCount = 0 := by
    rw [pendingCount, countP_eq_zero]
    intro i
    simp [init]
  rw [hnone]
  rfl

theorem Balanced.step {past : List Step} (h : Balanced past t) (counted : Counted t')
    (moves : Moves ⟨t, op, reply, t'⟩) : Balanced (past ++ [⟨t, op, reply, t'⟩]) t' := by
  refine ⟨counted, ?_, ?_, ?_⟩
  · have hbefore := h.entries
    have hmoved := moves.entries
    simp only [total_append]
    dsimp only at hmoved
    omega
  · rw [total_append, UInt32.ofNat_add, ← h.acksReceived]
    exact moves.acksReceived
  · rw [total_append, UInt32.ofNat_add, ← h.timeouts]
    exact moves.timeouts

/-- The tracker is full: every slot is pending or acknowledged. -/
abbrev Full (t : AckTracker) : Prop := ∀ i : Fin ackTrackerCapacity, t.slots[i].state ≠ .free

/-- Tracking fails exactly when the tracker is full. -/
theorem track_fails_iff (counted : Counted t) (env : MessageEnvelope) (deadlineUs : UInt64) :
    ∃ r t', t.track env deadlineUs = .ok (r, t') ∧ (r = .ok ∨ r = .errFull) ∧ (r ≠ .ok ↔ Full t) := by
  obtain ⟨r, t', htrack, -⟩ := track_total counted env deadlineUs
  refine ⟨r, t', htrack, ?_⟩
  rcases track_cases htrack with ⟨rfl, -, i, hfree, -⟩ | ⟨rfl, -, hfull⟩
  · refine ⟨.inl rfl, fun h => absurd rfl h, fun h => absurd hfree (h i)⟩
  · exact ⟨.inr rfl, fun _ => hfull, fun _ h => by cases h⟩

/-- The books of a run, as its history shows them. -/
structure Conserved (past : List Step) (t : AckTracker) : Prop where
  count : t.count = t.slots.countP Entry.used
  refuses : ∀ (env : MessageEnvelope) (deadlineUs : UInt64), ∃ r t', t.track env deadlineUs = .ok (r, t') ∧
    (r = .ok ∨ r = .errFull) ∧ (r ≠ .ok ↔ Full t)
  acksReceived : t.stats.acksReceived.toNat = total Step.acked past % 2 ^ 32
  timeouts : t.stats.timeouts.toNat = total Step.timedOut past % 2 ^ 32
  entries : total Step.acked past < 2 ^ 32 → total Step.timedOut past < 2 ^ 32 →
    total Step.tracked past =
      t.pendingCount + t.stats.acksReceived.toNat + t.stats.timeouts.toNat + total Step.cancelled past

theorem Balanced.conserved {past : List Step} (h : Balanced past t) : Conserved past t := by
  have hacks : t.stats.acksReceived.toNat = total Step.acked past % 2 ^ 32 := by
    rw [h.acksReceived]
    exact UInt32.toNat_ofNat'
  have htimeouts : t.stats.timeouts.toNat = total Step.timedOut past % 2 ^ 32 := by
    rw [h.timeouts]
    exact UInt32.toNat_ofNat'
  refine ⟨h.counted, track_fails_iff h.counted, hacks, htimeouts, fun hacked htimed => ?_⟩
  rw [hacks, htimeouts, Nat.mod_eq_of_lt hacked, Nat.mod_eq_of_lt htimed]
  exact h.entries

/-- Every run of the tracker ends with its books in order. -/
theorem tracker_conserves (ops : List Op) (wellFormed : ∀ op ∈ ops, op.WellFormed) :
    ∃ replies t, Run.runAll step ops init = .ok (replies, t) ∧ Conserved (Run.history step ops init) t := by
  obtain ⟨replies, t, hrun, hbalanced⟩ := Run.history_total (I := Balanced) (fun op hop past t h => by
    obtain ⟨reply, t', hstep, hcounted⟩ := step_total h.counted (wellFormed op hop)
    exact ⟨reply, t', hstep, h.step hcounted (step_moves h.counted hstep)⟩) balanced_init
  exact ⟨replies, t, hrun, hbalanced.conserved⟩

/-- Of three messages one is acknowledged, one is cancelled with its peer and one times out. -/
def threeMessages : List Op :=
  [.track { envelopeInit with messageId := 7, sourceId := 1, destinationId := 2 } 5,
    .track { envelopeInit with messageId := 8, sourceId := 1, destinationId := 3 } 5,
    .track { envelopeInit with messageId := 9, sourceId := 1, destinationId := 2 } 5,
    .onAck 1 7, .cancelPeer 3, .sweepExpired 9 4]

theorem tracker_conserves_three :
    ∃ replies t, Run.runAll step threeMessages init = .ok (replies, t) ∧
      Conserved (Run.history step threeMessages init) t :=
  tracker_conserves threeMessages (by decide)

end AckTracker

end MessageEngine
