import MessageEngine.Laws.Ordering.Calls

/-!
# Which source a new one takes the place of

When every entry of the peer table is in use, a new source takes the place of one that holds nothing.
The code keeps a use stamp with every entry and calls its choice the least recently used one, but the
choice never reads the stamps: it is the first idle entry in slot order. How recently a source was heard
is counted here in calls (`age`), over the whole run that led to the state.

## What is proved

- `tracked_heard`: every source in the table was heard in the run.
- `evicts_oldest_iff`: in every state a run reaches, the entry that is replaced is the one heard longest
  ago if and only if the first idle entry is. The stamps play no part.
- `evicts_latest`: the source heard last loses its entry.
-/

namespace MessageEngine

open Outcome Table

namespace OrderingBuffer

variable {b : OrderingBuffer} {src : NodeId}

/-- How many calls ago an ordered message of the source came in. -/
def age (calls : List Call) (src : NodeId) : Nat := calls.reverse.findIdx (Call.hears src)

/-- The entry is in use and its source holds nothing. -/
def Idle (b : OrderingBuffer) (i : Fin orderingPeerCount) : Prop :=
  (b.peers[i].active && b.holdCount b.peers[i].src == 0) = true

instance (b : OrderingBuffer) (i : Fin orderingPeerCount) : Decidable (b.Idle i) :=
  inferInstanceAs (Decidable (_ = true))

/-- Of the idle entries, this one was heard longest ago. -/
def OldestIdle (calls : List Call) (b : OrderingBuffer) (i : Fin orderingPeerCount) : Prop :=
  b.Idle i ∧ ∀ j : Fin orderingPeerCount, b.Idle j → age calls b.peers[j].src ≤ age calls b.peers[i].src

/-- No idle entry was heard longer ago than the first one in slot order. -/
def FirstIdleOldest (calls : List Call) (b : OrderingBuffer) : Prop :=
  ∀ i j : Fin orderingPeerCount, b.Idle i → (∀ k : Fin orderingPeerCount, k < i → ¬ b.Idle k) → b.Idle j →
    age calls b.peers[j].src ≤ age calls b.peers[i].src

/-- A run tracks no source that it has not heard. -/
theorem untracked_of_unheard {calls : List Call} {answers : List Answer}
    (reached : Run.runAll step calls init = .ok (answers, b))
    (unheard : ∀ call ∈ calls, call.hears src = false) : b.cursor? src = none := by
  have hinv := Run.runAll_inv (I := fun b => Sound b ∧ b.cursor? src = none)
    (fun call hcall b answer b' h hstep => ?_) ⟨sound_init, cursor?_init⟩ reached
  · exact hinv.2
  · obtain ⟨hsound, huntracked⟩ := sound_of_step h.1 hstep
    exact ⟨hsound, huntracked src (unheard call hcall) h.2⟩

/-- Every source in the table was heard in the run, so that its age is that of a message. -/
theorem tracked_heard {calls : List Call} {answers : List Answer}
    (reached : Run.runAll step calls init = .ok (answers, b)) {i : Fin orderingPeerCount}
    (hi : b.peers[i].active = true) : age calls b.peers[i].src < calls.length := by
  rw [age, ← List.length_reverse, List.findIdx_lt_length]
  by_contra hno
  have hnone : b.cursor? b.peers[i].src = none := by
    refine untracked_of_unheard reached fun call hcall => ?_
    rw [Bool.eq_false_iff]
    exact fun h => hno ⟨call, List.mem_reverse.mpr hcall, h⟩
  exact no_peer_of_cursor? hnone i ⟨hi, rfl⟩

/-- The victim is the first idle entry. -/
theorem victim_first {i : Fin orderingPeerCount} (h : b.victim? = some i) :
    b.Idle i ∧ ∀ k : Fin orderingPeerCount, k < i → ¬ b.Idle k := by
  refine ⟨firstSlot?_some h, fun k hk hidle => ?_⟩
  have hbusy := firstSlot?_before h hk
  rw [Idle, hbusy] at hidle
  cases hidle

theorem oldestIdle_iff {calls : List Call} {i : Fin orderingPeerCount} (hvictim : b.victim? = some i) :
    OldestIdle calls b i ↔ FirstIdleOldest calls b := by
  obtain ⟨hidle, hfirst⟩ := victim_first hvictim
  constructor
  · rintro ⟨-, holdest⟩ i' j hidle' hfirst' hj
    have hsame : i' = i := by
      rcases lt_trichotomy i' i with hlt | heq | hlt
      · exact absurd hidle' (hfirst i' hlt)
      · exact heq
      · exact absurd hidle (hfirst' i hlt)
    rw [hsame]
    exact holdest j hj
  · exact fun h => ⟨hidle, fun j hj => h i j hidle hfirst hj⟩

/-- In every state a run reaches with all entries in use, a source that is not tracked takes the place
of the idle entry heard longest ago if and only if that is the first idle one. -/
theorem evicts_oldest_iff {calls : List Call} {answers : List Answer}
    (reached : Run.runAll step calls init = .ok (answers, b)) (hsrc : src ≠ 0)
    (new : ∀ i : Fin orderingPeerCount, ¬ b.peers[i].isFor src)
    (full : ∀ i : Fin orderingPeerCount, b.peers[i].active = true) :
    ∃ i, b.getOrCreatePeer src = .ok (i, b.enterPeer i src) ∧
      (OldestIdle calls b i ↔ FirstIdleOldest calls b) := by
  have inv := (reached_sound reached).inv
  obtain ⟨i, hvictim, -⟩ := exists_victim inv full
  exact ⟨i, getOrCreatePeer_full inv hsrc (cursor?_eq_none new) full hvictim, oldestIdle_iff hvictim⟩

/-- Message `seq` of a source. -/
def orderedMessage (src : NodeId) (seq : UInt32) : MessageEnvelope :=
  { envelopeInit with messageType := .data, sourceId := src, sequenceNum := seq }

/-- The first message of every source from one to the number of entries. -/
def crowd : List Call :=
  (List.range orderingPeerCount).map fun n => .ingest (orderedMessage (UInt32.ofNat (n + 1)) 1) 50

/-- The state has no room for source 99. -/
def Crowded (b : OrderingBuffer) : Prop :=
  (∀ i : Fin orderingPeerCount, ¬ (b.peers[i].active = true ∧ b.peers[i].src = 99)) ∧
    ∀ i : Fin orderingPeerCount, b.peers[i].active = true

instance (b : OrderingBuffer) : Decidable b.Crowded :=
  @instDecidableAnd _ _ (@Nat.decidableForallFin _ _ fun _ => inferInstance)
    (@Nat.decidableForallFin _ _ fun _ => inferInstance)

instance (calls : List Call) (b : OrderingBuffer) : Decidable (FirstIdleOldest calls b) :=
  @Nat.decidableForallFin _ _ fun _ => @Nat.decidableForallFin _ _ fun _ =>
    @instDecidableForall _ _ _ (@instDecidableForall _ _ (@Nat.decidableForallFin _ _ fun _ => inferInstance) _)

theorem evicts_oldest_crowd :
    ∃ answers b i, Run.runAll step crowd init = .ok (answers, b) ∧
      b.getOrCreatePeer 99 = .ok (i, b.enterPeer i 99) ∧ OldestIdle crowd b i := by
  have hends : Run.Ends step crowd init fun b => b.Crowded ∧ FirstIdleOldest crowd b := by decide +kernel
  obtain ⟨answers, b, hrun, ⟨hnew, hfull⟩, hfirst⟩ := hends.exists
  obtain ⟨i, hget, hiff⟩ := evicts_oldest_iff hrun (by decide : (99 : NodeId) ≠ 0) hnew hfull
  exact ⟨answers, b, i, hrun, hget, hiff.mpr hfirst⟩

/-- Then the first source sends once more. -/
def crowdAgain : List Call := crowd ++ [.ingest (orderedMessage 1 2) 60]

/-- The first source was heard last, and it is its entry that goes. -/
theorem evicts_latest :
    ∃ answers b i, Run.runAll step crowdAgain init = .ok (answers, b) ∧ b.Crowded ∧
      b.getOrCreatePeer 99 = .ok (i, b.enterPeer i 99) ∧ ¬ OldestIdle crowdAgain b i := by
  have hends : Run.Ends step crowdAgain init fun b => b.Crowded ∧ ¬ FirstIdleOldest crowdAgain b := by
    decide +kernel
  obtain ⟨answers, b, hrun, hcrowded, hnot⟩ := hends.exists
  have inv := (reached_sound hrun).inv
  obtain ⟨i, hvictim, -⟩ := exists_victim inv hcrowded.2
  refine ⟨answers, b, i, hrun, hcrowded, ?_, fun h => hnot ((oldestIdle_iff hvictim).mp h)⟩
  exact getOrCreatePeer_full inv (by decide) (cursor?_eq_none hcrowded.1) hcrowded.2 hvictim

end OrderingBuffer

end MessageEngine
