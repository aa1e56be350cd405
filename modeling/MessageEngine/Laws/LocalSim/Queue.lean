import MessageEngine.Laws.RingBuffer

/-!
# The receive ring as a queue

Used from one thread the ring is a queue of at most `MSG_RING_CAPACITY` envelopes. Its two counters run
freely; the queue is what lies between them, and a push and a pop see no more of the ring than that.

## What is proved

- `push_spec`, `pop_spec`: a push and a pop return, and do to the queue what their names say.
-/

namespace MessageEngine

open Outcome

namespace RingBuffer

variable {r r' : RingBuffer} {env : MessageEnvelope} {res : Result} {reply : Reply}

/-- The envelopes between the two counters, oldest first. -/
def queued (r : RingBuffer) : List MessageEnvelope :=
  Circular.window ring_pos r.buf r.head.toNat (r.tail - r.head).toNat

/-- The counters are no further apart than the ring is long. -/
def Bounded (r : RingBuffer) : Prop := r.tail - r.head ≤ ringCapacity

theorem bounded_init : init.Bounded := by
  show (0 : UInt32) ≤ ringCapacity
  decide

theorem queued_init : init.queued = [] := rfl

theorem length_queued (r : RingBuffer) : r.queued.length = (r.tail - r.head).toNat :=
  Circular.length_window _ _ _

/-- The slot that `pop` reads. -/
theorem slot_head (head : UInt32) : slot head = Circular.slot ring_pos head.toNat 0 := by
  have hslot := slot_counter head 0
  have hzero : head + UInt32.ofNat 0 = head := UInt32.add_zero head
  rwa [hzero] at hslot

/-- The slot that `push` writes. -/
theorem slot_tail (r : RingBuffer) :
    slot r.tail = Circular.slot ring_pos r.head.toNat (r.tail - r.head).toNat := by
  have hslot := slot_counter r.head (r.tail - r.head).toNat
  rwa [UInt32.ofNat_toNat, UInt32.add_comm, UInt32.sub_add_cancel] at hslot

/-- The queue starts in the slot of the counter. -/
theorem window_slot (buf : Vector MessageEnvelope msgRingCapacity) (head : UInt32) (count : Nat) :
    Circular.window ring_pos buf (Circular.slot ring_pos head.toNat 1) count =
      Circular.window ring_pos buf (head + 1).toNat count := by
  unfold Circular.window
  apply List.map_congr_left
  intro k _
  have hslot : Circular.slot ring_pos (Circular.slot ring_pos head.toNat 1) k =
      Circular.slot ring_pos (head + 1).toNat k := by
    have hnext := congrArg Fin.val (slot_counter head 1)
    rw [slot_head] at hnext
    apply Fin.ext
    show ((head.toNat + 1) % msgRingCapacity + k) % msgRingCapacity = ((head + 1).toNat + k) % msgRingCapacity
    have hmod : ((head + 1).toNat + 0) % msgRingCapacity = (head.toNat + 1) % msgRingCapacity := hnext
    rw [← hmod, Nat.add_zero, Nat.mod_add_mod]
  rw [hslot]

/-- A push appends, while there is room. -/
theorem push_spec (h : r.Bounded) (env : MessageEnvelope) :
    ∃ res r', r.push env = .ok (res, r') ∧ r'.Bounded ∧
      ((res = .ok ∧ r'.queued = r.queued ++ [env] ∧ r.queued.length < msgRingCapacity) ∨
        (res = .errFull ∧ r' = r ∧ r.queued.length = msgRingCapacity)) := by
  have hle : (r.tail - r.head).toNat ≤ 64 := UInt32.le_iff_toNat_le.mp h
  unfold push
  have hbound : r.tail - r.head ≤ ringCapacity := h
  simp only [neverCompiledOutAssert, ensure_pos hbound, ok_bind]
  by_cases hfull : r.tail - r.head ≥ ringCapacity
  · have hlen : 64 ≤ (r.tail - r.head).toNat := UInt32.le_iff_toNat_le.mp hfull
    rw [if_pos hfull]
    refine ⟨.errFull, r, rfl, h, .inr ⟨rfl, rfl, ?_⟩⟩
    rw [length_queued]
    exact Nat.le_antisymm hle hlen
  · have hlt : (r.tail - r.head).toNat < 64 := UInt32.lt_iff_toNat_lt.mp (UInt32.not_le.mp hfull)
    have hsucc : r.tail + 1 - r.head = r.tail - r.head + 1 := by
      rw [UInt32.sub_eq_add_neg, UInt32.sub_eq_add_neg, UInt32.add_assoc, UInt32.add_assoc, UInt32.add_comm 1]
    have hcount : (r.tail + 1 - r.head).toNat = (r.tail - r.head).toNat + 1 := by
      rw [hsucc, UInt32.toNat_add]
      show ((r.tail - r.head).toNat + 1) % 2 ^ 32 = _
      exact Nat.mod_eq_of_lt (by omega)
    have hroom : r.tail + 1 - r.head ≤ ringCapacity := by
      rw [UInt32.le_iff_toNat_le, hcount]
      exact hlt
    rw [if_neg hfull]
    simp only [ensure_pos hroom, ok_bind]
    refine ⟨.ok, _, rfl, hroom, .inl ⟨rfl, ?_, ?_⟩⟩
    · show Circular.window ring_pos (r.buf.set (slot r.tail) env (slot_lt r.tail)) r.head.toNat
        (r.tail + 1 - r.head).toNat = _
      have hwritten : r.buf.set (slot r.tail) env (slot_lt r.tail) =
          r.buf.set (Circular.slot ring_pos r.head.toNat (r.tail - r.head).toNat) env (Fin.isLt _) := by
        congr 1
        exact congrArg Fin.val (slot_tail r)
      rw [hcount, hwritten]
      exact Circular.window_push hlt env
    · rw [length_queued]
      exact hlt

/-- A pop takes the oldest. -/
theorem pop_spec (h : r.Bounded) :
    ∃ reply r', r.pop = .ok (reply, r') ∧ r'.Bounded ∧
      ((reply = .error .errEmpty ∧ r' = r ∧ r.queued = []) ∨
        ∃ env, reply = .ok env ∧ r.queued = env :: r'.queued) := by
  have hle : (r.tail - r.head).toNat ≤ 64 := UInt32.le_iff_toNat_le.mp h
  unfold pop
  have hbound : r.tail - r.head ≤ ringCapacity := h
  simp only [neverCompiledOutAssert, ensure_pos hbound, ok_bind]
  by_cases hempty : r.tail - r.head = 0
  · rw [if_pos hempty]
    refine ⟨.error .errEmpty, r, rfl, h, .inl ⟨rfl, rfl, ?_⟩⟩
    apply List.eq_nil_of_length_eq_zero
    rw [length_queued, hempty]
    rfl
  · have hpos : (r.tail - r.head).toNat ≠ 0 := fun hzero => hempty (UInt32.toNat_inj.mp hzero)
    have hpred : r.tail - (r.head + 1) = r.tail - r.head - 1 := by
      rw [UInt32.sub_eq_add_neg r.tail, UInt32.neg_add, UInt32.sub_eq_add_neg r.tail r.head]
      rw [UInt32.sub_eq_add_neg, UInt32.sub_eq_add_neg, UInt32.add_assoc]
    have hone : (1 : UInt32) ≤ r.tail - r.head := by
      rw [UInt32.le_iff_toNat_le]
      exact Nat.one_le_iff_ne_zero.mpr hpos
    have hcount : (r.tail - (r.head + 1)).toNat = (r.tail - r.head).toNat - 1 := by
      rw [hpred, UInt32.toNat_sub_of_le _ _ hone]
      rfl
    have hless : r.tail - (r.head + 1) < ringCapacity := by
      rw [UInt32.lt_iff_toNat_lt, hcount]
      show _ < 64
      omega
    rw [if_neg hempty]
    simp only [ensure_pos hless, ok_bind]
    refine ⟨_, _, rfl, UInt32.le_of_lt hless, .inr ⟨r.buf[slot r.head], rfl, ?_⟩⟩
    show Circular.window ring_pos r.buf r.head.toNat (r.tail - r.head).toNat =
      r.buf[slot r.head] :: Circular.window ring_pos r.buf (r.head + 1).toNat (r.tail - (r.head + 1)).toNat
    have hlen : (r.tail - r.head).toNat = (r.tail - (r.head + 1)).toNat + 1 := by omega
    rw [hlen, Circular.window_pop, window_slot, ← slot_head]

end RingBuffer

end MessageEngine
