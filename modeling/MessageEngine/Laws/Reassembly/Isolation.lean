import MessageEngine.Laws.Fragmentation

/-!
# The slots of the reassembly buffer

The buffer is driven by any sequence of fragments and sweeps, hostile ones included. Between two calls
every open slot is in order and unfinished, no message has two and no source more than its share; a
fragment touches the slot of its own message only.

## What is proved

- `Arrival.sound`: one call returns and keeps the invariant;
- `slots_sound`: so does every run, and each of its calls leaves the slots of other messages alone.
-/

namespace MessageEngine

open Outcome Table ReassemblyBuffer

namespace ReassemblyBuffer

/-- The buffer between two calls. -/
structure Sound (b : ReassemblyBuffer) : Prop where
  /-- Open slots are in order, and no message has two. -/
  inv : Inv (fun _ => True) b
  /-- No source has more than its share of the slots. -/
  quota : ∀ src : NodeId, b.openCount src ≤ kReasmPerSrcMax
  /-- Only fragments below the expected count are marked. -/
  marked : ∀ i : Fin reassemblySlotCount, b.slots[i].active = true →
    b.slots[i].receivedMask.toNat < 2 ^ b.slots[i].expectedCount.toNat
  /-- Not all of them. -/
  unfinished : ∀ i : Fin reassemblySlotCount, b.slots[i].active = true →
    complete b.slots[i].receivedMask b.slots[i].expectedCount = false

variable {b b' : ReassemblyBuffer} {frag : MessageEnvelope} {nowUs : UInt64}

theorem sound_init : Sound init := by
  have hinactive (i : Fin reassemblySlotCount) : init.slots[i].active = false := by simp [init]
  refine ⟨inv_init, fun src => ?_, fun i hi => ?_, fun i hi => ?_⟩
  · have hnone : init.openCount src = 0 := by
      rw [openCount, countP_eq_zero]
      intro i
      rw [hinactive i]
      rfl
    rw [hnone]
    exact Nat.zero_le _
  · rw [hinactive i] at hi
    cases hi
  · rw [hinactive i] at hi
    cases hi

/-! ## One fragment -/

theorem fragmentBit_toNat : ∀ k : Fin fragMaxCount, (fragmentBit (UInt8.ofNat k)).toNat = 2 ^ (k : Nat) := by
  decide +kernel

/-- Marking a fragment below the count. -/
theorem marked_or {mask : UInt32} {index count : UInt8} (h : mask.toNat < 2 ^ count.toNat)
    (hindex : index < count) (hcount : count.toNat ≤ fragMaxCount) :
    (mask ||| fragmentBit index).toNat < 2 ^ count.toNat := by
  have hlt := UInt8.lt_iff_toNat_lt.mp hindex
  have hbit : (fragmentBit index).toNat = 2 ^ index.toNat := by
    have heach := fragmentBit_toNat ⟨index.toNat, by omega⟩
    rwa [UInt8.ofNat_toNat] at heach
  rw [UInt32.toNat_or]
  apply Nat.or_lt_two_pow h
  rw [hbit]
  exact Nat.pow_lt_pow_right (by decide) hlt

/-- The slot a fragment goes to expects its count, and has only fragments below it marked. -/
theorem SlotFor.marked {i : Fin reassemblySlotCount} {s₀ : ReassemblySlot} (h : SlotFor b frag nowUs i s₀)
    (sound : Sound b) : s₀.expectedCount = frag.fragmentCount ∧ s₀.receivedMask.toNat < 2 ^ s₀.expectedCount.toNat := by
  cases h with
  | found mine agree => exact ⟨agree.1.symm, sound.marked i mine.1⟩
  | opened _ _ _ => exact ⟨rfl, Nat.two_pow_pos _⟩

/-- What a fragment leaves in the slot of its message. -/
theorem Ingested.slot_sound {i : Fin reassemblySlotCount} {s₀ s : ReassemblySlot} {reply : Reply}
    (sound : Sound b) (wf : WellFormed frag) (several : 1 < frag.fragmentCount.toNat)
    (mine : SlotFor b frag nowUs i s₀) (step : Step s₀ frag reply s) (active : s.active = true) :
    s.sourceId = frag.sourceId ∧ s.receivedMask.toNat < 2 ^ s.expectedCount.toNat ∧
      complete s.receivedMask s.expectedCount = false := by
  obtain ⟨hcount, hmarked⟩ := mine.marked sound
  have hindex : frag.fragmentIndex < s₀.expectedCount := by
    rw [hcount, UInt8.lt_iff_toNat_lt]
    have hlt := wf.1
    omega
  cases step with
  | repeated marked =>
    cases mine with
    | found hfor _ => exact ⟨hfor.2.1, hmarked, sound.unfinished i hfor.1⟩
    | opened _ _ _ => exact absurd UInt32.zero_and marked
  | refused _ _ freed =>
    rw [freed] at active
    cases active
  | kept new fits recorded missing =>
    refine ⟨?_, ?_, Bool.not_eq_true _ ▸ missing⟩
    · rw [recorded.fields]
      exact mine.key.1
    · rw [recorded.fields]
      exact marked_or hmarked hindex (hcount ▸ wf.2.1)
  | done _ _ _ _ _ _ freed =>
    rw [freed] at active
    cases active

/-- The slots of a source after one was written. -/
theorem openCount_set (src : NodeId) (i : Fin reassemblySlotCount) (s : ReassemblySlot) :
    openCount { b with slots := b.slots.set i s i.isLt } src +
        (if b.slots[i].active && b.slots[i].sourceId == src then 1 else 0) =
      b.openCount src + if s.active && s.sourceId == src then 1 else 0 :=
  countP_set_add (fun s : ReassemblySlot => s.active && s.sourceId == src) b.slots i s

theorem Ingested.sound {reply : Reply} (h : Ingested b frag nowUs reply b') (sound : Sound b)
    (inv : Inv (fun _ => True) b') : Sound b' := by
  cases h with
  | invalid => exact sound
  | full => exact sound
  | whole _ => exact sound
  | slot wf several mine step =>
    rename_i i s₀ s
    have hslot := Ingested.slot_sound sound wf several mine step
    refine ⟨inv, fun src => ?_, fun j hj => ?_, fun j hj => ?_⟩
    · have hset := @openCount_set b src i s
      have hle := sound.quota src
      by_cases hnew : (s.active && s.sourceId == src) = true
      · rw [Bool.and_eq_true, beq_iff_eq] at hnew
        have hsrc : frag.sourceId = src := (hslot hnew.1).1.symm.trans hnew.2
        cases mine with
        | found hfor _ =>
          rw [hfor.1, hfor.2.1, hsrc, hnew.1, hnew.2, beq_self_eq_true, Bool.and_self, if_pos rfl] at hset
          omega
        | opened hinactive _ room =>
          have hroom := room.1
          rw [hinactive, hnew.1, hnew.2, beq_self_eq_true, Bool.and_self, if_pos rfl, Bool.false_and,
            if_neg Bool.false_ne_true] at hset
          rw [hsrc] at hroom
          omega
      · rw [if_neg hnew] at hset
        omega
    · rw [getElem_set_fin] at hj ⊢
      split
      case isTrue hij =>
        rw [if_pos hij] at hj
        exact (hslot hj).2.1
      case isFalse hij =>
        rw [if_neg hij] at hj
        exact sound.marked j hj
    · rw [getElem_set_fin] at hj ⊢
      split
      case isTrue hij =>
        rw [if_pos hij] at hj
        exact (hslot hj).2.2
      case isFalse hij =>
        rw [if_neg hij] at hj
        exact sound.unfinished j hj

/-! ## The sweeps -/

/-- A table that only lost open slots is as sound as before. -/
theorem Sound.of_kept (sound : Sound b) (inv : Inv (fun _ => True) b')
    (kept : ∀ i : Fin reassemblySlotCount, b'.slots[i].active = true → b'.slots[i] = b.slots[i]) : Sound b' := by
  refine ⟨inv, fun src => ?_, fun i hi => ?_, fun i hi => ?_⟩
  · refine Nat.le_trans (countP_le_of_imp fun i hi => ?_) (sound.quota src)
    rw [Bool.and_eq_true] at hi
    rw [← kept i hi.1, Bool.and_eq_true]
    exact hi
  · have hsame := kept i hi
    rw [hsame] at hi ⊢
    exact sound.marked i hi
  · have hsame := kept i hi
    rw [hsame] at hi ⊢
    exact sound.unfinished i hi

end ReassemblyBuffer

/-! ## Every run -/

/-- The arguments the calls check: a fragment has a source, an expiry sweep a time. -/
def Arrival.WellFormed : Arrival → Prop
  | .ingest frag _ => frag.sourceId ≠ 0
  | .sweepExpired nowUs => nowUs > 0
  | .sweepStale _ _ => True

instance : DecidablePred Arrival.WellFormed := fun a =>
  match a with
  | .ingest frag _ => inferInstanceAs (Decidable (frag.sourceId ≠ 0))
  | .sweepExpired nowUs => inferInstanceAs (Decidable (nowUs > 0))
  | .sweepStale _ _ => .isTrue trivial

/-- A call that was made. -/
abbrev Arrival.Taken := Run.Taken ReassemblyBuffer Arrival (Option Reply)

/-- A fragment leaves the open slots of other messages alone. -/
def Arrival.Isolated (t : Arrival.Taken) : Prop :=
  ∀ frag nowUs, t.input = .ingest frag nowUs → ∀ (src : NodeId) (msgId : UInt64),
    ¬ (src = frag.sourceId ∧ msgId = frag.messageId) →
    ∀ i : Fin reassemblySlotCount, t.before.slots[i].isFor src msgId → t.after.slots[i] = t.before.slots[i]

/-- One call returns, keeps the buffer sound and touches one message at most. -/
theorem Arrival.sound {a : Arrival} {b : ReassemblyBuffer} (sound : Sound b) (h : a.WellFormed) :
    ∃ o b', a.apply b = .ok (o, b') ∧ Sound b' ∧ Arrival.Isolated ⟨b, a, o, b'⟩ := by
  cases a with
  | ingest frag nowUs =>
    obtain ⟨reply, b', hin, hdone, hinv⟩ := ingest_spec sound.inv nowUs h trivial
    refine ⟨some reply, b', bind_eq_ok.mpr ⟨_, hin, rfl⟩, hdone.sound sound hinv, ?_⟩
    intro _ _ hinput src msgId hother i
    cases hinput
    exact (hdone.frame hother i).1
  | sweepExpired nowUs =>
    obtain ⟨b', hsweep, hinv⟩ := sweepExpired_spec sound.inv h
    refine ⟨none, b', bind_eq_ok.mpr ⟨_, hsweep, rfl⟩, sound.of_kept hinv fun i hi => ?_, ?_⟩
    · rcases sweepExpired_slot hsweep i with hsame | ⟨hfreed, -⟩
      · exact hsame
      · rw [hfreed] at hi
        cases hi
    · intro _ _ hinput
      cases hinput
  | sweepStale nowUs staleThresholdUs =>
    refine ⟨none, _, rfl, sound.of_kept (sweepStale_inv sound.inv nowUs staleThresholdUs) fun i hi => ?_, ?_⟩
    · rcases sweepStale_slot b nowUs staleThresholdUs i with hsame | ⟨hfreed, -⟩
      · exact hsame
      · rw [hfreed] at hi
        cases hi
    · intro _ _ hinput
      cases hinput

/-- Every run returns with the buffer sound, and every call of it touches one message at most. A run that
returned has passed every assertion, and every copy into a slot stayed within it. -/
theorem slots_sound (arrivals : List Arrival) (wellFormed : ∀ a ∈ arrivals, a.WellFormed) :
    ∃ replies b, Run.runAll Arrival.apply arrivals init = .ok (replies, b) ∧ Sound b ∧
      ∀ t ∈ Run.history Arrival.apply arrivals init, Arrival.Isolated t := by
  have hstart : Sound init ∧ ∀ t ∈ ([] : List Arrival.Taken), Arrival.Isolated t :=
    ⟨sound_init, fun t ht => absurd ht List.not_mem_nil⟩
  obtain ⟨replies, b, hrun, hsound, hisolated⟩ := Run.history_total
    (I := fun past b => Sound b ∧ ∀ t ∈ past, Arrival.Isolated t)
    (fun a ha past b h => by
      obtain ⟨o, b', happly, hsound, hone⟩ := Arrival.sound h.1 (wellFormed a ha)
      refine ⟨o, b', happly, hsound, fun t ht => ?_⟩
      rw [List.mem_append, List.mem_singleton] at ht
      rcases ht with hold | rfl
      · exact h.2 t hold
      · exact hone) hstart
  exact ⟨replies, b, hrun, hsound, hisolated⟩

/-- A message in two fragments, a hostile fragment with its key and one of another message. -/
def hostileArrivals : List Arrival :=
  [.ingest { envelopeInit with sourceId := 1, messageId := 7, fragmentCount := 2, payloadLength := 9999 } 5,
    .ingest { envelopeInit with sourceId := 1, messageId := 7, fragmentCount := 2 } 5,
    .ingest { envelopeInit with sourceId := 1, messageId := 8, fragmentCount := 3, fragmentIndex := 2 } 5,
    .ingest { envelopeInit with sourceId := 1, messageId := 7, fragmentCount := 2, fragmentIndex := 1 } 5,
    .sweepStale 9 4, .sweepExpired 9]

theorem slots_sound_hostile :
    ∃ replies b, Run.runAll Arrival.apply hostileArrivals init = .ok (replies, b) ∧ Sound b ∧
      ∀ t ∈ Run.history Arrival.apply hostileArrivals init, Arrival.Isolated t :=
  slots_sound hostileArrivals (by decide)

end MessageEngine
