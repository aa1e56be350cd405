import MessageEngine.Laws.OrderingBuffer
import MessageEngine.Lib.Run
import Mathlib.Data.Set.Card

/-!
# The ordering gate under any sequence of calls

The gate is driven by any sequence of its five operations, with any arguments. A call either stops
at an assertion on its own arguments or returns with the gate in order.

How much a source has waiting is counted slot by slot in the code. Here it is the size of a set: a
gate in order holds a message in one slot only, so that what a call does to `Held` says what it does to
the count.

## What is proved

- `holdCount_eq_ncard`: the count of the code is the size of `heldOf`.
- `gate_sound`: every state of every run is sound, no run stops at the assertion of the eviction,
  and what an eviction gives up holds nothing.
-/

namespace MessageEngine

open Outcome Table

namespace OrderingBuffer

/-- A call of the gate. -/
inductive Call where
  | ingest (msg : MessageEnvelope) (nowUs : UInt64)
  | tryReleaseNext (src : NodeId)
  | advanceSequence (src : NodeId) (upToSeq : UInt32)
  | sweepExpiredHolds (nowUs : UInt64) (outCap : Nat)
  | resetPeer (src : NodeId)

/-- What the call returns. -/
inductive Answer where
  | ingested (reply : Reply)
  | released (out : Option MessageEnvelope)
  | swept (out : List MessageEnvelope) (freed : Nat)
  | done

def step : Call → OrderingBuffer → Checked (Answer × OrderingBuffer)
  | .ingest msg nowUs, b => do
    let (reply, b) ← b.ingest msg nowUs
    pure (.ingested reply, b)
  | .tryReleaseNext src, b => do
    let (out, b) ← b.tryReleaseNext src
    pure (.released out, b)
  | .advanceSequence src upToSeq, b => do
    let b ← b.advanceSequence src upToSeq
    pure (.done, b)
  | .sweepExpiredHolds nowUs outCap, b => do
    let s ← b.sweepExpiredHolds nowUs outCap
    pure (.swept s.out s.freed, s.buffer)
  | .resetPeer src, b => do
    let b ← b.resetPeer src
    pure (.done, b)

/-- The arguments the calls check: a time and, where one is used, a source. -/
def Call.WellFormed : Call → Prop
  | .ingest msg nowUs => nowUs > 0 ∧ (¬ envelopeIsControl msg → msg.sequenceNum ≠ 0 → msg.sourceId ≠ 0)
  | .tryReleaseNext src => src ≠ 0
  | .advanceSequence src _ => src ≠ 0
  | .sweepExpiredHolds nowUs _ => nowUs > 0
  | .resetPeer src => src ≠ 0

/-- The call hands in an ordered message of the source. -/
def Call.hears (src : NodeId) : Call → Bool
  | .ingest msg _ => !envelopeIsControl msg && msg.sequenceNum != 0 && msg.sourceId == src
  | _ => false

variable {Q : MessageEnvelope → Prop} {b b' : OrderingBuffer} {src : NodeId}

/-! ## Counting what waits -/

/-- What a source has waiting. -/
def heldOf (b : OrderingBuffer) (src : NodeId) : Set MessageEnvelope :=
  {env | Held b env ∧ env.sourceId = src}

/-- The slots that hold for a source. -/
private def slotsOf (b : OrderingBuffer) (src : NodeId) : Finset (Fin orderingHoldCount) :=
  ((List.finRange orderingHoldCount).filter fun i =>
    b.hold[i].active && b.hold[i].env.sourceId == src).toFinset

private theorem mem_slotsOf {i : Fin orderingHoldCount} :
    i ∈ b.slotsOf src ↔ b.hold[i].active = true ∧ b.hold[i].env.sourceId = src := by
  rw [slotsOf, List.mem_toFinset, List.mem_filter, Bool.and_eq_true, beq_iff_eq]
  exact and_iff_right (List.mem_finRange i)

private theorem heldOf_eq_image : b.heldOf src =
    (fun i : Fin orderingHoldCount => b.hold[i].env) '' (b.slotsOf src : Set (Fin orderingHoldCount)) := by
  ext env
  constructor
  · rintro ⟨⟨i, hactive, rfl⟩, hsrc⟩
    exact ⟨i, mem_slotsOf.mpr ⟨hactive, hsrc⟩, rfl⟩
  · rintro ⟨i, hi, rfl⟩
    obtain ⟨hactive, hsrc⟩ := mem_slotsOf.mp hi
    exact ⟨⟨i, hactive, rfl⟩, hsrc⟩

theorem heldOf_finite : (b.heldOf src).Finite := by
  rw [heldOf_eq_image]
  exact (Finset.finite_toSet _).image _

/-- The count of the code is the number of messages that wait: none waits twice. -/
theorem holdCount_eq_ncard (inv : Inv Q b) : b.holdCount src = (b.heldOf src).ncard := by
  have hinj : Set.InjOn (fun i : Fin orderingHoldCount => b.hold[i].env) (b.slotsOf src) := by
    intro i hi j hj hsame
    obtain ⟨hi, -⟩ := mem_slotsOf.mp hi
    obtain ⟨hj, -⟩ := mem_slotsOf.mp hj
    have hsame : b.hold[i].env = b.hold[j].env := hsame
    exact (inv.holdDistinct i j hi hj (by rw [hsame]) (by rw [hsame])).symm
  rw [heldOf_eq_image, hinj.ncard_image, Set.ncard_coe_finset, slotsOf,
    List.toFinset_card_of_nodup ((List.nodup_finRange _).filter _), holdCount, countP_eq_finRange,
    List.countP_eq_length_filter]

/-- A gate that holds nothing new has no more waiting. -/
theorem holdCount_le_of_held (inv : Inv Q b) (inv' : Inv Q b') (kept : ∀ x, Held b' x → Held b x) :
    b'.holdCount src ≤ b.holdCount src := by
  rw [holdCount_eq_ncard inv, holdCount_eq_ncard inv']
  exact Set.ncard_le_ncard (fun x hx => ⟨kept x hx.1, hx.2⟩) heldOf_finite

/-! ## One call -/

/-- The gate is in order, and no source takes more than its share of the holds. -/
structure Sound (b : OrderingBuffer) : Prop where
  inv : Inv (fun _ => True) b
  quota : ∀ src, b.holdCount src ≤ kHoldPerPeerMax

theorem sound_init : Sound init := by
  refine ⟨inv_init, fun src => ?_⟩
  have hzero : init.holdCount src = 0 := holdCount_eq_zero.mpr fun env h => absurd h (not_held_init env)
  rw [hzero]
  exact Nat.zero_le _

theorem Sound.of_held (sound : Sound b) (inv' : Inv (fun _ => True) b') (kept : ∀ x, Held b' x → Held b x) :
    Sound b' :=
  ⟨inv', fun src => Nat.le_trans (holdCount_le_of_held sound.inv inv' kept) (sound.quota src)⟩

/-- A message that comes in takes a hold only within the share of its source. -/
theorem Ingested.sound {msg : MessageEnvelope} {reply : Reply} (sound : Sound b)
    (inv' : Inv (fun _ => True) b') (h : Ingested b msg reply b') : Sound b' := by
  cases h with
  | unordered zero => exact sound
  | delivered seq next moved holds => exact sound.of_held inv' fun x => (held_congr holds x).mp
  | refused seq result why moved holds => exact sound.of_held inv' fun x => (held_congr holds x).mp
  | stored seq ahead new room moved held =>
    refine ⟨inv', fun src => ?_⟩
    have hle := sound.quota src
    rw [holdCount_eq_ncard sound.inv] at hle room
    rw [holdCount_eq_ncard inv']
    by_cases hsrc : msg.sourceId = src
    · have hsub : b'.heldOf src ⊆ insert msg (b.heldOf src) := by
        intro x hx
        rcases (held x).mp hx.1 with hold | rfl
        · exact .inr ⟨hold, hx.2⟩
        · exact .inl rfl
      rw [hsrc] at room
      calc (b'.heldOf src).ncard
          ≤ (insert msg (b.heldOf src)).ncard := Set.ncard_le_ncard hsub (heldOf_finite.insert msg)
        _ ≤ (b.heldOf src).ncard + 1 := Set.ncard_insert_le msg _
        _ ≤ kHoldPerPeerMax := room
    · have hsub : b'.heldOf src ⊆ b.heldOf src := by
        intro x hx
        rcases (held x).mp hx.1 with hold | rfl
        · exact ⟨hold, hx.2⟩
        · exact absurd hx.2 hsrc
      exact Nat.le_trans (Set.ncard_le_ncard hsub heldOf_finite) hle

/-- The sweep after `k` rounds: it only frees. -/
private structure Freeing (Q : MessageEnvelope → Prop) (b : OrderingBuffer) (k : Nat) (s : Sweep) : Prop where
  inv : Inv Q s.buffer
  kept : ∀ x, Held s.buffer x → Held b x
  untracked : ∀ src, b.cursor? src = none → s.buffer.cursor? src = none
  bound : s.freed ≤ k

private theorem Freeing.round {i : Fin orderingHoldCount} {s : Sweep} (w : Freeing Q b i s)
    (nowUs : UInt64) (outCap : Nat) : ∃ s', sweepHold nowUs outCap i s = .ok s' ∧ Freeing Q b (i + 1) s' := by
  by_cases hexp : s.buffer.hold[i].active = true ∧ ExpiredAt nowUs s.buffer.hold[i].env
  · obtain ⟨c, hcur⟩ := w.inv.heldCursor ⟨i, hexp.1, rfl⟩
    obtain ⟨b', hrun, hinv, -, -, hheld, hcurs⟩ := sweepHold_expired w.inv outCap hexp.1 hexp.2 hcur
    refine ⟨_, hrun, hinv, fun x hx => w.kept x ((hheld x).mp hx).1, fun src hnone => ?_,
      Nat.succ_le_succ w.bound⟩
    have hstill := w.untracked src hnone
    rw [hcurs, if_neg]
    · exact hstill
    · rintro rfl
      rw [hcur] at hstill
      cases hstill
  · exact ⟨s, if_neg hexp, w.inv, w.kept, w.untracked, Nat.le_succ_of_le w.bound⟩

/-- The sweep only frees, whatever room there is for what it frees. -/
theorem sweepExpiredHolds_frees (inv : Inv Q b) {nowUs : UInt64} (hnow : nowUs > 0) (outCap : Nat) :
    ∃ s, b.sweepExpiredHolds nowUs outCap = .ok s ∧ Inv Q s.buffer ∧ (∀ x, Held s.buffer x → Held b x) ∧
      ∀ src, b.cursor? src = none → s.buffer.cursor? src = none := by
  obtain ⟨s, hrun, hs⟩ := eachIndex_total (Freeing Q b) ⟨b, [], 0⟩
    ⟨inv, fun _ h => h, fun _ h => h, Nat.le_refl 0⟩
    (fun i _ w => w.round nowUs outCap)
  exact ⟨s, ensure_bind_eq_ok.mpr ⟨hnow, bind_eq_ok.mpr ⟨s, hrun, ensure_bind_eq_ok.mpr ⟨hs.bound, rfl⟩⟩⟩,
    hs.inv, hs.kept, hs.untracked⟩

/-- Skipping forward only frees, for any source and any target. -/
theorem advanceSequence_frees (inv : Inv Q b) (hsrc : src ≠ 0) (upTo : UInt32) :
    ∃ b', b.advanceSequence src upTo = .ok b' ∧ Inv Q b' ∧ (∀ x, Held b' x → Held b x) ∧
      ∀ s, b.cursor? s = none → b'.cursor? s = none := by
  cases hcur : b.cursor? src with
  | none =>
    refine ⟨b, ?_, inv, fun _ h => h, fun _ h => h⟩
    unfold advanceSequence
    simp only [ensure_pos hsrc, ok_bind, findPeer_eq b hsrc, peer_missing (no_peer_of_cursor? hcur),
      pure_eq_ok]
  | some c =>
    by_cases hup : upTo = 0
    · refine ⟨b, ?_, inv, fun _ h => h, fun _ h => h⟩
      obtain ⟨p, hp, rfl⟩ := peer_of_cursor? hcur
      have hnot : ¬ upTo > b.peers[p].nextExpectedSeq := by
        rw [hup]
        exact UInt32.not_lt_zero
      unfold advanceSequence
      simp only [ensure_pos hsrc, ok_bind, findPeer_eq b hsrc, peer_found inv hp, if_neg hnot]
      exact ensure_bind_eq_ok.mpr ⟨UInt32.not_lt.mp hnot, rfl⟩
    · obtain ⟨b', hadvance, hinv, hheld, hcurs, -⟩ := advanceSequence_spec inv hcur hup
      refine ⟨b', hadvance, hinv, fun x hx => ((hheld x).mp hx).1, fun s hnone => ?_⟩
      rw [hcurs, if_neg]
      · exact hnone
      · rintro rfl
        rw [hcur] at hnone
        cases hnone

/-- Only an ordered message of its own makes the gate track a source. -/
theorem Ingested.untracked {msg : MessageEnvelope} {reply : Reply} (h : Ingested b msg reply b')
    (hother : msg.sequenceNum ≠ 0 → src ≠ msg.sourceId) (hnone : b.cursor? src = none) :
    b'.cursor? src = none := by
  have hmoved {c : UInt32} (hseq : msg.sequenceNum ≠ 0) (moved : Moved b msg.sourceId c b') :
      b'.cursor? src = none := by
    rcases moved.others src (hother hseq) with hsame | ⟨hlost, -⟩
    · rw [hsame]
      exact hnone
    · exact hlost
  cases h with
  | unordered _ => exact hnone
  | delivered seq _ moved _ => exact hmoved seq moved
  | stored seq _ _ _ moved _ => exact hmoved seq moved
  | refused seq _ _ moved _ => exact hmoved seq moved

/-- A call with the arguments it asks for returns, the gate stays sound, and it tracks no source that it
has not heard. -/
theorem step_sound {call : Call} (sound : Sound b) (h : call.WellFormed) :
    ∃ answer b', step call b = .ok (answer, b') ∧ Sound b' ∧
      ∀ src, call.hears src = false → b.cursor? src = none → b'.cursor? src = none := by
  cases call with
  | ingest msg nowUs =>
    obtain ⟨hnow, hsrc⟩ := h
    by_cases hcontrol : envelopeIsControl msg
    · refine ⟨_, b, bind_eq_ok.mpr ⟨(.ok msg, b), ?_, rfl⟩, sound, fun _ _ hnone => hnone⟩
      exact ensure_bind_eq_ok.mpr ⟨hnow, if_pos hcontrol⟩
    · by_cases hzero : msg.sequenceNum = 0
      · refine ⟨_, b, bind_eq_ok.mpr ⟨(.ok msg, b), ?_, rfl⟩, sound, fun _ _ hnone => hnone⟩
        refine ensure_bind_eq_ok.mpr ⟨hnow, ?_⟩
        rw [if_neg hcontrol, if_pos hzero]
        rfl
      · obtain ⟨reply, b', hin, ingested, hinv⟩ :=
          ingest_spec sound.inv hnow hcontrol (hsrc hcontrol hzero) trivial
        refine ⟨_, b', bind_eq_ok.mpr ⟨_, hin, rfl⟩, ingested.sound sound hinv, fun src hdeaf => ?_⟩
        refine ingested.untracked fun _ hsame => ?_
        rw [hsame] at hdeaf
        simp [Call.hears, hcontrol, hzero] at hdeaf
  | tryReleaseNext src =>
    obtain ⟨out, b', hrelease, released, hinv⟩ := tryReleaseNext_spec sound.inv h
    cases released with
    | nothing _ => exact ⟨_, b, bind_eq_ok.mpr ⟨_, hrelease, rfl⟩, sound, fun _ _ hnone => hnone⟩
    | next _ _ atCursor cursors rest =>
      refine ⟨_, b', bind_eq_ok.mpr ⟨_, hrelease, rfl⟩, sound.of_held hinv fun x hx => ((rest x).mp hx).1,
        fun s _ hnone => ?_⟩
      rw [cursors, if_neg]
      · exact hnone
      · rintro rfl
        rw [atCursor] at hnone
        cases hnone
  | advanceSequence src upToSeq =>
    obtain ⟨b', hadvance, hinv, hkept, huntracked⟩ := advanceSequence_frees sound.inv h upToSeq
    exact ⟨_, b', bind_eq_ok.mpr ⟨_, hadvance, rfl⟩, sound.of_held hinv hkept, fun s _ => huntracked s⟩
  | sweepExpiredHolds nowUs outCap =>
    obtain ⟨s, hsweep, hinv, hkept, huntracked⟩ := sweepExpiredHolds_frees sound.inv h outCap
    exact ⟨_, s.buffer, bind_eq_ok.mpr ⟨_, hsweep, rfl⟩, sound.of_held hinv hkept, fun s _ => huntracked s⟩
  | resetPeer src =>
    obtain ⟨b', hreset, hinv, hheld, hcurs⟩ := resetPeer_spec sound.inv h
    refine ⟨_, b', bind_eq_ok.mpr ⟨_, hreset, rfl⟩, sound.of_held hinv fun x hx => ((hheld x).mp hx).1,
      fun s _ hnone => ?_⟩
    rw [hcurs]
    split
    case isTrue heq => rw [← heq, hnone]; rfl
    case isFalse _ => exact hnone

/-- A call without the arguments it asks for stops at an assertion on them. -/
theorem step_illFormed {call : Call} (h : ¬ call.WellFormed) (b : OrderingBuffer) :
    ∃ site, step call b = .error (.assertion site) ∧ site ≠ .orderingEvictLruPeer := by
  cases call with
  | ingest msg nowUs =>
    by_cases hnow : nowUs > 0
    · have hbad : ¬ envelopeIsControl msg ∧ msg.sequenceNum ≠ 0 ∧ ¬ msg.sourceId ≠ 0 := by
        by_contra hno
        exact h ⟨hnow, fun hdata hseq hsrc => hno ⟨hdata, hseq, fun hne => hne hsrc⟩⟩
      obtain ⟨hdata, hseq, hsrc⟩ := hbad
      refine ⟨.orderingFindPeer, ?_, by decide⟩
      simp only [step, OrderingBuffer.ingest, ensure_pos hnow, ok_bind, if_neg hdata, if_neg hseq,
        getOrCreatePeer, findPeer, ensure_neg hsrc, error_bind]
    · refine ⟨.orderingIngest, ?_, by decide⟩
      simp only [step, OrderingBuffer.ingest, ensure_neg hnow, error_bind]
  | tryReleaseNext src =>
    refine ⟨.orderingTryReleaseNext, ?_, by decide⟩
    have hbad : ¬ src ≠ 0 := h
    simp only [step, OrderingBuffer.tryReleaseNext, ensure_neg hbad, error_bind]
  | advanceSequence src upToSeq =>
    refine ⟨.orderingAdvanceSequence, ?_, by decide⟩
    have hbad : ¬ src ≠ 0 := h
    simp only [step, OrderingBuffer.advanceSequence, ensure_neg hbad, error_bind]
  | sweepExpiredHolds nowUs outCap =>
    refine ⟨.orderingSweepExpiredHolds, ?_, by decide⟩
    have hbad : ¬ nowUs > 0 := h
    simp only [step, OrderingBuffer.sweepExpiredHolds, ensure_neg hbad, error_bind]
  | resetPeer src =>
    refine ⟨.orderingResetPeer, ?_, by decide⟩
    have hbad : ¬ src ≠ 0 := h
    simp only [step, OrderingBuffer.resetPeer, ensure_neg hbad, error_bind]

/-! ## Every run -/

/-- From a full table an entry can be given up, and every hold keeps its entry. -/
def EvictsSafely (b : OrderingBuffer) : Prop :=
  (∀ i : Fin orderingPeerCount, b.peers[i].active = true) →
    ∃ i b', b.evictLruPeer = .ok (i, b') ∧
      ∀ env, Held b' env → ∃ j : Fin orderingPeerCount, b'.peers[j].isFor env.sourceId

theorem Sound.evictsSafely (sound : Sound b) : EvictsSafely b := by
  intro full
  obtain ⟨i, hvictim, hidle⟩ := exists_victim sound.inv full
  refine ⟨i, _, evictLruPeer_spec sound.inv hvictim, fun env henv => ?_⟩
  obtain ⟨j, hj⟩ := sound.inv.tracked env henv
  have hne : i ≠ j := by
    rintro rfl
    exact holdCount_eq_zero.mp hidle env henv hj.2.symm
  refine ⟨j, ?_⟩
  rw [getElem_set_fin, if_neg hne]
  exact hj

/-- A call that returns leaves the gate sound, and tracks no source that it has not heard. -/
theorem sound_of_step {call : Call} {answer : Answer} (sound : Sound b)
    (h : step call b = .ok (answer, b')) :
    Sound b' ∧ ∀ src, call.hears src = false → b.cursor? src = none → b'.cursor? src = none := by
  by_cases hcall : call.WellFormed
  · obtain ⟨answer₁, b₁, hstep, hsound⟩ := step_sound sound hcall
    rw [hstep] at h
    cases h
    exact hsound
  · obtain ⟨site, hstep, -⟩ := step_illFormed hcall b
    rw [hstep] at h
    cases h

theorem reached_sound {calls : List Call} {answers : List Answer}
    (reached : Run.runAll step calls init = .ok (answers, b)) : Sound b :=
  Run.runAll_inv (fun _ _ _ _ _ sound h => (sound_of_step sound h).1) sound_init reached

/-- Every state a run reaches is sound and gives up entries safely, no run stops at the assertion of
the eviction, and a run of calls with the arguments they ask for returns. -/
theorem gate_sound (calls : List Call) :
    (∀ answers b, Run.runAll step calls init = .ok (answers, b) → Sound b ∧ EvictsSafely b) ∧
    (∀ f, Run.runAll step calls init = .error f → f ≠ .assertion .orderingEvictLruPeer) ∧
    ((∀ call ∈ calls, call.WellFormed) → ∃ answers b, Run.runAll step calls init = .ok (answers, b)) := by
  have hfails (call : Call) (b : OrderingBuffer) (sound : Sound b) (f : Fault) (hf : step call b = .error f) :
      f ≠ .assertion .orderingEvictLruPeer := by
    by_cases h : call.WellFormed
    · obtain ⟨answer₁, b₁, hstep₁, -⟩ := step_sound sound h
      rw [hstep₁] at hf
      cases hf
    · obtain ⟨site, hstep₁, hsite⟩ := step_illFormed h b
      rw [hstep₁] at hf
      cases hf
      intro hsame
      cases hsame
      exact hsite rfl
  refine ⟨fun answers b hrun => ?_, ?_, fun wellFormed => ?_⟩
  · exact ⟨reached_sound hrun, (reached_sound hrun).evictsSafely⟩
  · refine (Run.runAll_error_iff (I := Sound) (fun _ _ _ _ _ sound h => (sound_of_step sound h).1) (fun call _ b sound => ?_)
      sound_init).mpr (Run.Along.of_forall (fun _ _ => trivial) calls init)
    exact ⟨fun _ => hfails call b sound, fun _ => trivial⟩
  · obtain ⟨answers, b, hrun, -⟩ := @Run.history_total _ _ _ _ step (fun _ b => Sound b) calls
      (fun call hcall _ b sound => by
        obtain ⟨answer, b', hstep, hsound, -⟩ := step_sound sound (wellFormed call hcall)
        exact ⟨answer, b', hstep, hsound⟩) [] init sound_init
    exact ⟨answers, b, hrun⟩

end OrderingBuffer

end MessageEngine
