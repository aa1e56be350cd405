import MessageEngine.Laws.Ordering.Calls

/-!
# What the expiry sweep frees and what it reports

The sweep walks the holds in slot order. An expired hold is copied out, the cursor of its source skips
past it, and then it is freed. The skip frees every hold it passes as well, and those are not copied
out: a message that has not expired, or an expired one whose slot was still to come.

So the sweep frees exactly the expired holds, and reports all of them, if and only if no skip passes
over a hold the sweep still has to come to, or over one that has not expired (`PassesNone`). The other direction rests on one fact about the rounds: a message
that was freed without being reported stays unreported (`Auditing.audited`).

## What is proved

- `sweep_exact_iff`: in every state a run reaches, the sweep is exact if and only if every hold that
  an expired one would pass has expired too and sits in an earlier slot.
- `sweep_loses_unexpired`: a message that has not expired is freed and not reported.
-/

namespace MessageEngine

open Outcome Table

namespace OrderingBuffer

variable {Q : MessageEnvelope → Prop} {b b' : OrderingBuffer} {nowUs : UInt64}

/-- The hold at slot `i` is taken and its message has expired. -/
def Expires (b : OrderingBuffer) (nowUs : UInt64) (i : Fin orderingHoldCount) : Prop :=
  b.hold[i].active = true ∧ ExpiredAt nowUs b.hold[i].env

instance (b : OrderingBuffer) (nowUs : UInt64) (i : Fin orderingHoldCount) : Decidable (b.Expires nowUs i) :=
  inferInstanceAs (Decidable (_ ∧ _))

/-- The holds that have expired, in slot order. -/
def expiredSlots (b : OrderingBuffer) (nowUs : UInt64) : List (Fin orderingHoldCount) :=
  (List.finRange orderingHoldCount).filter fun i => b.Expires nowUs i

/-- The sweep freed exactly the expired holds, returned their number and copied out each of them
once. -/
structure FreesExactly (b : OrderingBuffer) (nowUs : UInt64) (s : Sweep) : Prop where
  freed : ∀ i : Fin orderingHoldCount,
    b.hold[i].active = true ∧ s.buffer.hold[i].active = false ↔ b.Expires nowUs i
  count : s.freed = (b.expiredSlots nowUs).length
  listed : s.out.Perm ((b.expiredSlots nowUs).map fun i => b.hold[i].env)

/-- Skipping past hold `i` passes over hold `j` of the same source. -/
def Overruns (b : OrderingBuffer) (i j : Fin orderingHoldCount) : Prop :=
  j ≠ i ∧ b.hold[j].active = true ∧ b.hold[j].env.sourceId = b.hold[i].env.sourceId ∧
    b.expected b.hold[i].env.sourceId < nextSeq b.hold[i].env.sequenceNum ∧
    b.hold[j].env.sequenceNum < nextSeq b.hold[i].env.sequenceNum

instance (b : OrderingBuffer) (i j : Fin orderingHoldCount) : Decidable (b.Overruns i j) :=
  inferInstanceAs (Decidable (_ ∧ _))

/-- Whatever an expired hold passes over has expired too, and the sweep has come to it before. -/
def PassesNone (b : OrderingBuffer) (nowUs : UInt64) : Prop :=
  ∀ i j : Fin orderingHoldCount, b.Expires nowUs i → b.Overruns i j → b.Expires nowUs j ∧ j < i

instance (b : OrderingBuffer) (nowUs : UInt64) : Decidable (b.PassesNone nowUs) :=
  @Nat.decidableForallFin _ _ fun _ => @Nat.decidableForallFin _ _ fun _ => inferInstance

/-! ## One round, slot by slot -/

theorem Inv.expected_ne_zero (inv : Inv Q b) (src : NodeId) : b.expected src ≠ 0 := by
  unfold expected
  cases hcur : b.cursor? src with
  | none => exact (by decide : (1 : UInt32) ≠ 0)
  | some c => exact inv.cursor_ne_zero hcur

/-- A hold whose successor is ahead of a cursor is not the last before the wrap. -/
theorem lt_nextSeq_of_lt {c seq : UInt32} (hc : c ≠ 0) (h : c < nextSeq seq) : seq < nextSeq seq := by
  have hlast : seq ≠ lastSeq := by
    rintro rfl
    have hlt : c < 1 := h
    exact hc (UInt32.lt_one_iff.mp hlt)
  exact (lt_nextSeq_iff hlast).mpr (UInt32.le_refl seq)

/-- A message that a smaller gate still holds is in the slot it was in. -/
theorem active_iff_held (inv : Inv Q b)
    (kept : ∀ j : Fin orderingHoldCount, b'.hold[j].active = true →
      b.hold[j].active = true ∧ b'.hold[j].env = b.hold[j].env)
    {j : Fin orderingHoldCount} (hj : b.hold[j].active = true) :
    b'.hold[j].active = true ↔ Held b' b.hold[j].env := by
  constructor
  · exact fun h => ⟨j, h, (kept j h).2⟩
  · rintro ⟨k, hk, henv⟩
    obtain ⟨hk', hsame⟩ := kept k hk
    rw [hsame] at henv
    have hkj := inv.holdDistinct j k hj hk' (by rw [henv]) (by rw [henv])
    rwa [hkj] at hk

/-- The round of an expired hold: it goes, and so does what the skip passes over. -/
theorem sweepHold_slots {s : Sweep} (inv : Inv Q s.buffer) (outCap : Nat) {i : Fin orderingHoldCount}
    (hexp : s.buffer.Expires nowUs i) :
    ∃ b', sweepHold nowUs outCap i s = .ok
        ⟨b', if s.freed < outCap then s.out ++ [s.buffer.hold[i].env] else s.out, s.freed + 1⟩ ∧ Inv Q b' ∧
      (∀ j : Fin orderingHoldCount, b'.hold[j].active = true →
        s.buffer.hold[j].active = true ∧ b'.hold[j].env = s.buffer.hold[j].env) ∧
      (∀ j : Fin orderingHoldCount, b'.hold[j].active = true ↔
        s.buffer.hold[j].active = true ∧ j ≠ i ∧ ¬ s.buffer.Overruns i j) ∧
      ∀ src, b'.expected src = if src = s.buffer.hold[i].env.sourceId then
        skipTo (s.buffer.expected src) (nextSeq s.buffer.hold[i].env.sequenceNum) else s.buffer.expected src := by
  obtain ⟨hactive, hexpired⟩ := hexp
  obtain ⟨c, hcur⟩ := inv.heldCursor ⟨i, hactive, rfl⟩
  obtain ⟨b', hrun, hinv, -, hkept, hheld, hcurs⟩ := sweepHold_expired inv outCap hactive hexpired hcur
  have hexpected : s.buffer.expected s.buffer.hold[i].env.sourceId = c := by
    rw [expected, hcur]
    rfl
  refine ⟨b', hrun, hinv, hkept, fun j => ?_, fun src => ?_⟩
  · unfold Overruns
    rw [hexpected]
    constructor
    · intro hj
      obtain ⟨hsj, henv⟩ := hkept j hj
      obtain ⟨-, hne, hpass⟩ := (hheld _).mp ((active_iff_held inv hkept hsj).mp hj)
      refine ⟨hsj, ?_, fun h => hpass ⟨h.2.2.2.1, h.2.2.1, h.2.2.2.2⟩⟩
      rintro rfl
      exact hne rfl
    · rintro ⟨hsj, hne, hpass⟩
      refine (active_iff_held inv hkept hsj).mpr ((hheld _).mpr ⟨⟨j, hsj, rfl⟩, fun heq => hne ?_, fun h => ?_⟩)
      · exact inv.holdDistinct i j hactive hsj (by rw [heq]) (by rw [heq])
      · exact hpass ⟨hne, hsj, h.2.1, h.1, h.2.2⟩
  · unfold expected
    rw [hcurs]
    split
    case isTrue heq =>
      rw [heq, hcur]
      rfl
    case isFalse _ => rfl

/-! ## The whole sweep -/

/-- Every message that was held is still held or was copied out. -/
def Accounted (b : OrderingBuffer) (s : Sweep) : Prop :=
  ∀ i : Fin orderingHoldCount, b.hold[i].active = true →
    s.buffer.hold[i].active = true ∨ b.hold[i].env ∈ s.out

/-- The sweep after `k` rounds, against the gate it started from. -/
structure Auditing (Q : MessageEnvelope → Prop) (b : OrderingBuffer) (nowUs : UInt64) (k : Nat) (s : Sweep) :
    Prop where
  inv : Inv Q s.buffer
  kept : ∀ j : Fin orderingHoldCount, s.buffer.hold[j].active = true →
    b.hold[j].active = true ∧ s.buffer.hold[j].env = b.hold[j].env
  cursors : ∀ src, b.expected src ≤ s.buffer.expected src
  bound : s.freed ≤ k
  count : s.freed = s.out.length
  /-- What was copied out is an expired hold of an earlier round. -/
  reported : ∀ x ∈ s.out, ∃ j : Fin orderingHoldCount, (j : Nat) < k ∧ b.Expires nowUs j ∧ b.hold[j].env = x
  /-- No cursor moved past a hold that is still there. -/
  ahead : ∀ j : Fin orderingHoldCount, s.buffer.hold[j].active = true →
    b.expected b.hold[j].env.sourceId < nextSeq b.hold[j].env.sequenceNum →
    s.buffer.expected b.hold[j].env.sourceId < nextSeq b.hold[j].env.sequenceNum
  /-- If nothing is lost, no skip passed over a hold that was still to come. -/
  audited : Accounted b s → ∀ i j : Fin orderingHoldCount, (i : Nat) < k → b.Expires nowUs i →
    b.Overruns i j → b.Expires nowUs j ∧ j < i
  /-- If no skip passes over a hold that is still to come, the rounds are exact. -/
  exact : b.PassesNone nowUs →
    (∀ j : Fin orderingHoldCount, s.buffer.hold[j].active = true ↔
      b.hold[j].active = true ∧ ¬ ((j : Nat) < k ∧ b.Expires nowUs j)) ∧
    s.out = (((List.finRange orderingHoldCount).take k).filter fun j => b.Expires nowUs j).map fun j =>
      b.hold[j].env

theorem Auditing.start (inv : Inv Q b) : Auditing Q b nowUs 0 ⟨b, [], 0⟩ where
  inv := inv
  kept := fun _ h => ⟨h, rfl⟩
  cursors := fun _ => UInt32.le_refl _
  bound := Nat.le_refl 0
  count := rfl
  reported := fun _ h => absurd h List.not_mem_nil
  ahead := fun _ _ h => h
  audited := fun _ _ _ hi => absurd hi (Nat.not_lt_zero _)
  exact := fun _ => ⟨fun _ => ⟨fun h => ⟨h, fun hk => Nat.not_lt_zero _ hk.1⟩, And.left⟩, rfl⟩

section Rounds

variable {i : Fin orderingHoldCount} {s : Sweep}

/-- Two holds with one message are one hold. -/
theorem Inv.slot_eq (inv : Inv Q b) {i j : Fin orderingHoldCount} (hi : b.hold[i].active = true)
    (hj : b.hold[j].active = true) (h : b.hold[j].env = b.hold[i].env) : j = i :=
  inv.holdDistinct i j hi hj (by rw [h]) (by rw [h])

/-- A hold that was copied out belongs to an earlier round. -/
theorem Auditing.earlier {k : Nat} (w : Auditing Q b nowUs k s) (inv : Inv Q b) {j : Fin orderingHoldCount}
    (hj : b.hold[j].active = true) (hout : b.hold[j].env ∈ s.out) : (j : Nat) < k ∧ b.Expires nowUs j := by
  obtain ⟨j', hlt, hexp, henv⟩ := w.reported _ hout
  obtain rfl := inv.slot_eq hj hexp.1 henv
  exact ⟨hlt, hexp⟩

/-- The round of a hold that is free, or has not expired. -/
theorem Auditing.skip (w : Auditing Q b nowUs i s) (inv : Inv Q b) (hexp : ¬ s.buffer.Expires nowUs i) :
    Auditing Q b nowUs (i + 1) s := by
  have hsame (h : s.buffer.hold[i].active = true) : ¬ b.Expires nowUs i := by
    intro hb
    refine hexp ⟨h, ?_⟩
    rw [(w.kept i h).2]
    exact hb.2
  refine { w with
    bound := Nat.le_succ_of_le w.bound
    reported := fun x hx => ?_
    audited := fun haccounted i' j hlt hi' hover => ?_
    exact := fun hnone => ?_ }
  · obtain ⟨j, hlt, h⟩ := w.reported x hx
    exact ⟨j, Nat.lt_succ_of_lt hlt, h⟩
  · rcases Nat.lt_succ_iff_lt_or_eq.mp hlt with hlt | heq
    · exact w.audited haccounted i' j hlt hi' hover
    · obtain rfl := Fin.ext heq
      rcases haccounted i' hi'.1 with hactive | hout
      · exact absurd hi' (hsame hactive)
      · exact absurd (w.earlier inv hi'.1 hout).1 (Nat.lt_irrefl _)
  · obtain ⟨hactive, hout⟩ := w.exact hnone
    have hnot : ¬ b.Expires nowUs i := by
      intro hb
      exact hsame ((hactive i).mpr ⟨hb.1, fun h => Nat.lt_irrefl _ h.1⟩) hb
    refine ⟨fun j => (hactive j).trans (and_congr_right fun _ => not_congr ?_), ?_⟩
    · constructor
      · rintro ⟨hlt, hj⟩
        exact ⟨Nat.lt_succ_of_lt hlt, hj⟩
      · rintro ⟨hlt, hj⟩
        rcases Nat.lt_succ_iff_lt_or_eq.mp hlt with hlt | heq
        · exact ⟨hlt, hj⟩
        · rw [Fin.ext heq] at hj
          exact absurd hj hnot
    · rw [take_finRange_succ, List.filter_append, List.filter_singleton, hout]
      simp only [decide_eq_false hnot, Bool.cond_false, List.append_nil]

/-- A skip over a hold in the course of the sweep is one over it at the start. -/
theorem Auditing.overruns {k : Nat} (w : Auditing Q b nowUs k s) {i j : Fin orderingHoldCount}
    (hi : s.buffer.hold[i].active = true) (h : s.buffer.Overruns i j) : b.Overruns i j := by
  obtain ⟨hne, hj, hsrc, hcur, hseq⟩ := h
  obtain ⟨hbj, henvj⟩ := w.kept j hj
  obtain ⟨-, henvi⟩ := w.kept i hi
  rw [henvi, henvj] at hsrc hseq
  rw [henvi] at hcur
  exact ⟨hne, hbj, hsrc, UInt32.lt_of_le_of_lt (w.cursors _) hcur, hseq⟩

/-- And the other way round, as long as both are still held. -/
theorem Auditing.overruns_of_start {k : Nat} (w : Auditing Q b nowUs k s) {i j : Fin orderingHoldCount}
    (hi : s.buffer.hold[i].active = true) (hj : s.buffer.hold[j].active = true) (h : b.Overruns i j) :
    s.buffer.Overruns i j := by
  obtain ⟨hne, -, hsrc, hcur, hseq⟩ := h
  have hcur' := w.ahead i hi hcur
  obtain ⟨-, henvj⟩ := w.kept j hj
  obtain ⟨-, henvi⟩ := w.kept i hi
  unfold Overruns
  rw [henvi, henvj]
  exact ⟨hne, hj, hsrc, hcur', hseq⟩

/-- The round of an expired hold. -/
theorem Auditing.take (w : Auditing Q b nowUs i s) (inv : Inv Q b) {outCap : Nat}
    (hcap : orderingHoldCount ≤ outCap) (hexp : s.buffer.Expires nowUs i) :
    ∃ s', sweepHold nowUs outCap i s = .ok s' ∧ Auditing Q b nowUs (i + 1) s' := by
  obtain ⟨b', hrun, hinv, hkept, hslots, hcurs⟩ := sweepHold_slots w.inv outCap hexp
  have hroom : s.freed < outCap := Nat.lt_of_lt_of_le (Nat.lt_of_le_of_lt w.bound i.isLt) hcap
  obtain ⟨hbi, henvi⟩ := w.kept i hexp.1
  rw [if_pos hroom, henvi] at hrun
  simp only [henvi] at hcurs
  have hbexp : b.Expires nowUs i := ⟨hbi, by rw [← henvi]; exact hexp.2⟩
  refine ⟨_, hrun, ?_⟩
  constructor
  case inv => exact hinv
  case kept =>
    intro j hj
    obtain ⟨hsj, henv⟩ := hkept j hj
    obtain ⟨hbj, henv'⟩ := w.kept j hsj
    exact ⟨hbj, henv.trans henv'⟩
  case cursors =>
    intro src
    rw [hcurs]
    split
    case isTrue _ => exact UInt32.le_trans (w.cursors src) (le_skipTo_left _ _)
    case isFalse _ => exact w.cursors src
  case bound => exact Nat.succ_le_succ w.bound
  case count =>
    rw [List.length_append, List.length_singleton]
    exact congrArg (· + 1) w.count
  case reported =>
    intro x hx
    rcases List.mem_append.mp hx with hx | hx
    · obtain ⟨j, hlt, h⟩ := w.reported x hx
      exact ⟨j, Nat.lt_succ_of_lt hlt, h⟩
    · rw [List.mem_singleton] at hx
      exact ⟨i, Nat.lt_succ_self _, hbexp, hx.symm⟩
  case ahead =>
    intro j hj hahead
    obtain ⟨hsj, hne, hpass⟩ := (hslots j).mp hj
    have hbefore := w.ahead j hsj hahead
    rw [hcurs]
    split
    case isFalse _ => exact hbefore
    case isTrue hsrc =>
      unfold skipTo
      split
      case isFalse _ => exact hbefore
      case isTrue hskip =>
        -- The skip went past the hold: it would have freed it.
        have hnext := lt_nextSeq_of_lt (inv.expected_ne_zero _) hahead
        refine UInt32.lt_of_le_of_lt (UInt32.not_lt.mp fun hlt => hpass ?_) hnext
        obtain ⟨-, henvj⟩ := w.kept j hsj
        unfold Overruns
        rw [henvi, henvj]
        rw [hsrc] at hskip
        exact ⟨hne, hsj, hsrc, hskip, hlt⟩
  case audited =>
    intro haccounted i' j hlt hi' hover
    have hbefore : Accounted b s := by
      intro j hj
      rcases haccounted j hj with hactive | hout
      · exact .inl ((hslots j).mp hactive).1
      · rcases List.mem_append.mp hout with hout | hout
        · exact .inr hout
        · obtain rfl := inv.slot_eq hbi hj (List.mem_singleton.mp hout)
          exact .inl hexp.1
    rcases Nat.lt_succ_iff_lt_or_eq.mp hlt with hlt | heq
    · exact w.audited hbefore i' j hlt hi' hover
    · obtain rfl := Fin.ext heq
      have hout : b.hold[j].env ∈ s.out := by
        rcases hbefore j hover.2.1 with hsj | hout
        · have hgone : ¬ b'.hold[j].active = true := fun h =>
            ((hslots j).mp h).2.2 (w.overruns_of_start hexp.1 hsj hover)
          rcases haccounted j hover.2.1 with hactive | hout
          · exact absurd hactive hgone
          · rcases List.mem_append.mp hout with hout | hout
            · exact hout
            · exact absurd (inv.slot_eq hbi hover.2.1 (List.mem_singleton.mp hout)) hover.1
        · exact hout
      exact (w.earlier inv hover.2.1 hout).symm
  case exact =>
    intro hnone
    obtain ⟨hactive, hout⟩ := w.exact hnone
    have hpass (j : Fin orderingHoldCount) : ¬ s.buffer.Overruns i j := by
      intro hover
      obtain ⟨hj, hlt⟩ := hnone i j hbexp (w.overruns hexp.1 hover)
      exact ((hactive j).mp hover.2.1).2 ⟨hlt, hj⟩
    refine ⟨fun j => ?_, ?_⟩
    · rw [hslots j, hactive j]
      constructor
      · rintro ⟨⟨hbj, hnot⟩, hne, -⟩
        refine ⟨hbj, fun h => hnot ⟨?_, h.2⟩⟩
        exact Nat.lt_of_le_of_ne (Nat.lt_succ_iff.mp h.1) fun heq => hne (Fin.ext heq)
      · rintro ⟨hbj, hnot⟩
        refine ⟨⟨hbj, fun h => hnot ⟨Nat.lt_succ_of_lt h.1, h.2⟩⟩, ?_, hpass j⟩
        rintro rfl
        exact hnot ⟨Nat.lt_succ_self _, hbexp⟩
    · rw [take_finRange_succ, List.filter_append, List.filter_singleton, List.map_append, ← hout]
      simp only [decide_eq_true hbexp, Bool.cond_true, List.map_cons, List.map_nil]

end Rounds

/-- The sweep is exact if and only if no skip passes over a hold that is still to come. -/
theorem Auditing.freesExactly_iff {s : Sweep} (w : Auditing Q b nowUs orderingHoldCount s) :
    b.FreesExactly nowUs s ↔ b.PassesNone nowUs := by
  constructor
  · intro h i j hi hover
    refine w.audited (fun k hk => ?_) i j i.isLt hi hover
    by_cases hactive : s.buffer.hold[k].active = true
    · exact .inl hactive
    · refine .inr (h.listed.mem_iff.mpr (List.mem_map.mpr ⟨k, ?_, rfl⟩))
      rw [expiredSlots, List.mem_filter, decide_eq_true_iff]
      exact ⟨List.mem_finRange k, (h.freed k).mp ⟨hk, Bool.eq_false_iff.mpr hactive⟩⟩
  · intro hnone
    obtain ⟨hactive, hout⟩ := w.exact hnone
    have hall : (List.finRange orderingHoldCount).take orderingHoldCount = List.finRange orderingHoldCount :=
      List.take_of_length_le (Nat.le_of_eq List.length_finRange)
    rw [hall] at hout
    refine ⟨fun i => ?_, ?_, ?_⟩
    · rw [← Bool.not_eq_true, hactive i]
      constructor
      · rintro ⟨hbi, hnot⟩
        by_contra hno
        exact hnot ⟨hbi, fun h => hno h.2⟩
      · intro hexp
        exact ⟨hexp.1, fun h => h.2 ⟨i.isLt, hexp⟩⟩
    · rw [w.count, hout, List.length_map]
      rfl
    · rw [hout]
      exact List.Perm.refl _

theorem sweep_audited (inv : Inv Q b) (hnow : nowUs > 0) {outCap : Nat} (hcap : orderingHoldCount ≤ outCap) :
    ∃ s, b.sweepExpiredHolds nowUs outCap = .ok s ∧ Auditing Q b nowUs orderingHoldCount s := by
  obtain ⟨s, hrun, w⟩ := eachIndex_total (Auditing Q b nowUs) ⟨b, [], 0⟩ (.start inv) (fun i s w => by
    by_cases hexp : s.buffer.Expires nowUs i
    · exact w.take inv hcap hexp
    · exact ⟨s, if_neg hexp, w.skip inv hexp⟩)
  exact ⟨s, ensure_bind_eq_ok.mpr ⟨hnow, bind_eq_ok.mpr ⟨s, hrun, ensure_bind_eq_ok.mpr ⟨w.bound, rfl⟩⟩⟩, w⟩

/-- In every state a run reaches, the sweep frees exactly the expired holds and reports all of them if
and only if whatever an expired hold passes over has expired too and sits in an earlier slot. -/
theorem sweep_exact_iff {calls : List Call} {answers : List Answer}
    (reached : Run.runAll step calls init = .ok (answers, b)) (hnow : nowUs > 0) {outCap : Nat}
    (hcap : orderingHoldCount ≤ outCap) :
    ∃ s, b.sweepExpiredHolds nowUs outCap = .ok s ∧ (b.FreesExactly nowUs s ↔ b.PassesNone nowUs) := by
  obtain ⟨s, hsweep, w⟩ := sweep_audited (reached_sound reached).inv hnow hcap
  exact ⟨s, hsweep, w.freesExactly_iff⟩

/-- Message `seq` of source five, that expires at `expiryTimeUs`. -/
def heldMessage (seq : UInt32) (expiryTimeUs : UInt64) : MessageEnvelope :=
  { envelopeInit with messageType := .data, sourceId := 5, sequenceNum := seq, expiryTimeUs }

/-- The second and the third message come before the first, and the second expires. -/
def expiringCalls : List Call := [.ingest (heldMessage 2 100) 50, .ingest (heldMessage 3 0) 50]

theorem sweep_exact_expiring :
    ∃ answers b s, Run.runAll step expiringCalls init = .ok (answers, b) ∧
      b.sweepExpiredHolds 200 orderingHoldCount = .ok s ∧ b.FreesExactly 200 s := by
  have hends : Run.Ends step expiringCalls init fun b => b.PassesNone 200 := by decide +kernel
  obtain ⟨answers, b, hrun, hnone⟩ := hends.exists
  obtain ⟨s, hsweep, hiff⟩ := sweep_exact_iff hrun (by decide : (200 : UInt64) > 0) (Nat.le_refl _)
  exact ⟨answers, b, s, hrun, hsweep, hiff.mpr hnone⟩

/-- The second and the third message come before the first, and the third expires. -/
def overrunCalls : List Call := [.ingest (heldMessage 2 0) 50, .ingest (heldMessage 3 100) 50]

/-- The second message is freed with the third, though it never expires. -/
theorem sweep_loses_unexpired :
    ∃ answers b s, Run.runAll step overrunCalls init = .ok (answers, b) ∧
      b.sweepExpiredHolds 200 orderingHoldCount = .ok s ∧ ¬ b.FreesExactly 200 s := by
  have hends : Run.Ends step overrunCalls init fun b =>
      b.Expires 200 1 ∧ b.Overruns 1 0 ∧ ¬ b.Expires 200 0 := by decide +kernel
  obtain ⟨answers, b, hrun, hexp, hover, hnot⟩ := hends.exists
  obtain ⟨s, hsweep, w⟩ :=
    sweep_audited (reached_sound hrun).inv (by decide : (200 : UInt64) > 0) (Nat.le_refl _)
  refine ⟨answers, b, s, hrun, hsweep, fun hexact => ?_⟩
  exact hnot (w.freesExactly_iff.mp hexact 1 0 hexp hover).1

end OrderingBuffer

end MessageEngine
