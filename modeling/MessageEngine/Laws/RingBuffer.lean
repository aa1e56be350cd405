import MessageEngine.Core.RingBuffer
import MessageEngine.Lib.Circular
import MessageEngine.Lib.Run

/-!
# The receive ring between two threads

Each thread owns one counter and sees the other's only in snapshots, which may be old by the time
they are used. An old `head` makes the ring look fuller than it is and an old `tail` emptier, so
acting on them is safe; the invariant says how old they can be. The counters are read as positions
in the list of all envelopes ever accepted, which does not wrap.

## What is proved

- `push_steps` and `pop_steps`: a thread that is not interrupted computes `push` and `pop`;
- `step_total`: from a state that satisfies the invariant every step passes its assertions and
  re-establishes the invariant;
- `single_producer_single_consumer`: the laws of a queue, for every interleaving.
-/

namespace MessageEngine

open Outcome

namespace RingBuffer

/-! ## A thread on its own -/

theorem push_steps {r r' : RingBuffer} {env : MessageEnvelope} {res : Result} {consumer : Consumer}
    (h : push r env = .ok (res, r')) :
    ∃ events, .pushReturned env res ∈ events ∧
      Run.runAll step [.push env, .producer, .producer, .producer, .producer] ⟨r, .idle, consumer⟩ =
        .ok (events, ⟨r', .idle, consumer⟩) := by
  unfold push at h
  obtain ⟨hpre, h⟩ := ensure_bind_eq_ok.mp h
  by_cases hfull : r.tail - r.head ≥ ringCapacity
  · rw [if_pos hfull] at h
    cases h
    refine ⟨[.internal, .internal, .pushReturned env .errFull, .internal, .internal], by simp, ?_⟩
    simp only [Run.runAll, step, producerStep, pure_eq_ok, ok_bind, neverCompiledOutAssert,
      ensure_pos hpre, if_pos hfull]
  · rw [if_neg hfull] at h
    obtain ⟨hpost, h⟩ := ensure_bind_eq_ok.mp h
    cases h
    refine ⟨[.internal, .internal, .internal, .internal, .pushReturned env .ok], by simp, ?_⟩
    simp only [Run.runAll, step, producerStep, pure_eq_ok, ok_bind, neverCompiledOutAssert,
      ensure_pos hpre, ensure_pos hpost, if_neg hfull]

theorem pop_steps {r r' : RingBuffer} {reply : Reply} {producer : Producer}
    (h : pop r = .ok (reply, r')) :
    ∃ events, .popReturned reply ∈ events ∧
      Run.runAll step [.pop, .consumer, .consumer, .consumer, .consumer] ⟨r, producer, .idle⟩ =
        .ok (events, ⟨r', producer, .idle⟩) := by
  unfold pop at h
  obtain ⟨hpre, h⟩ := ensure_bind_eq_ok.mp h
  by_cases hempty : r.tail - r.head = 0
  · rw [if_pos hempty] at h
    cases h
    refine ⟨[.internal, .internal, .popReturned (.error .errEmpty), .internal, .internal], by simp, ?_⟩
    simp only [Run.runAll, step, consumerStep, pure_eq_ok, ok_bind, neverCompiledOutAssert,
      ensure_pos hpre, if_pos hempty]
  · rw [if_neg hempty] at h
    obtain ⟨hpost, h⟩ := ensure_bind_eq_ok.mp h
    cases h
    refine ⟨[.internal, .internal, .internal, .internal, .popReturned (.ok r.buf[slot r.head])],
      by simp, ?_⟩
    simp only [Run.runAll, step, consumerStep, pure_eq_ok, ok_bind, neverCompiledOutAssert,
      ensure_pos hpre, ensure_pos hpost, if_neg hempty]

/-! ## The two logs -/

/-- The envelope an event accepts. -/
def Event.accepted : Event → Option MessageEnvelope
  | .pushReturned env .ok => some env
  | _ => none

/-- The envelope an event returns. -/
def Event.returned : Event → Option MessageEnvelope
  | .popReturned (.ok env) => some env
  | _ => none

/-- The envelopes accepted by successful pushes, in order. -/
def accepted (events : List Event) : List MessageEnvelope := events.filterMap Event.accepted

/-- The envelopes returned by successful pops, in order. -/
def returned (events : List Event) : List MessageEnvelope := events.filterMap Event.returned

theorem accepted_append (past : List Event) (event : Event) :
    accepted (past ++ [event]) = accepted past ++ event.accepted.toList := by
  cases h : event.accepted with
  | none => simp [accepted, h]
  | some env => simp [accepted, h]

theorem returned_append (past : List Event) (event : Event) :
    returned (past ++ [event]) = returned past ++ event.returned.toList := by
  cases h : event.returned with
  | none => simp [returned, h]
  | some env => simp [returned, h]

/-- What every step is to obey: of the events before it, the state it is taken in, the move and the
event. -/
structure Lawful (counter : UInt32) (past : List Event) (s : Threads) (move : Move) (event : Event) :
    Prop where
  fifo : returned (past ++ [event]) <+: accepted (past ++ [event])
  bounded : (accepted (past ++ [event])).length ≤
    (returned (past ++ [event])).length + msgRingCapacity
  /-- An accepted envelope stays in its slot until the pop that returns it has copied it out and
  given the slot back. -/
  kept : ∀ k env, (returned past).length ≤ k → (accepted past)[k]? = some env →
    s.ring.buf[slot (counter + .ofNat k)] = env ∧
      writes move s ≠ some (slot (counter + .ofNat k))
  full : ∀ env res, event = .pushReturned env res → res ≠ .ok → (∃ t, s.producer = .tailLoaded env t) ∧
    (accepted past).length = (returned past).length + msgRingCapacity

/-! ## The invariant -/

theorem ring_pos : 0 < msgRingCapacity := by decide

/-- The slot of a counter is the slot of the position it stands for. -/
theorem slot_counter (counter : UInt32) (k : Nat) :
    slot (counter + .ofNat k) = Circular.slot ring_pos counter.toNat k := by
  apply Fin.ext
  have hmask : ((counter + .ofNat k) &&& ringMask).toNat =
      (counter + .ofNat k).toNat % msgRingCapacity := by
    rw [UInt32.toNat_and]
    exact Nat.and_two_pow_sub_one_eq_mod _ 6
  exact hmask.trans (Circular.counter_mod (by decide))

/-- What the producer's locals stand for, when `acc` envelopes were accepted and `ret` returned. -/
def ProducerAt (counter : UInt32) (buf : Vector MessageEnvelope msgRingCapacity) (acc ret : Nat) :
    Producer → Prop
  | .idle | .called _ => True
  | .tailLoaded _ t => t = counter + .ofNat acc
  | .checked _ t h => t = counter + .ofNat acc ∧
      ∃ k ≤ ret, acc < k + msgRingCapacity ∧ h = counter + .ofNat k
  | .copied env t h => t = counter + .ofNat acc ∧ buf[slot t] = env ∧
      ∃ k ≤ ret, acc < k + msgRingCapacity ∧ h = counter + .ofNat k

/-- What the consumer's locals stand for, when `log` was accepted and `ret` returned. -/
def ConsumerAt (counter : UInt32) (log : List MessageEnvelope) (ret : Nat) : Consumer → Prop
  | .idle | .called => True
  | .headLoaded h => h = counter + .ofNat ret
  | .checked h t => h = counter + .ofNat ret ∧
      ∃ k ≤ log.length, ret < k ∧ t = counter + .ofNat k
  | .copied h t env => h = counter + .ofNat ret ∧ log[ret]? = some env ∧
      ∃ k ≤ log.length, ret < k ∧ t = counter + .ofNat k

structure Inv (counter : UInt32) (past : List Event) (s : Threads) : Prop where
  tail : s.ring.tail = counter + .ofNat (accepted past).length
  head : s.ring.head = counter + .ofNat (returned past).length
  fifo : returned past <+: accepted past
  bounded : (accepted past).length ≤ (returned past).length + msgRingCapacity
  holds : Circular.Holds ring_pos counter.toNat s.ring.buf (accepted past) (returned past).length
  producer : ProducerAt counter s.ring.buf (accepted past).length (returned past).length s.producer
  consumer : ConsumerAt counter (accepted past) (returned past).length s.consumer

variable {counter : UInt32} {past : List Event} {s : Threads}

theorem Inv.start (buf : Vector MessageEnvelope msgRingCapacity) (counter : UInt32) :
    Inv counter [] (Threads.start buf counter) where
  tail := by simp [accepted, Threads.start]
  head := by simp [returned, Threads.start]
  fifo := List.prefix_refl []
  bounded := Nat.zero_le _
  holds := by
    intro k x _ hx
    cases hx
  producer := trivial
  consumer := trivial

/-- The number of envelopes between two positions, as a thread computes it from its snapshots. -/
theorem occupancy {i j : Nat} (hle : i ≤ j) (hnear : j ≤ i + msgRingCapacity) :
    ((counter + .ofNat j) - (counter + .ofNat i)).toNat = j - i :=
  Circular.counter_sub hle (by simp only [msgRingCapacity] at hnear; omega)

/-- The consumer does not mind that more was accepted. -/
theorem ConsumerAt.append {log : List MessageEnvelope} {ret : Nat} {c : Consumer}
    (h : ConsumerAt counter log ret c) (env : MessageEnvelope) :
    ConsumerAt counter (log ++ [env]) ret c := by
  have hlen : log.length ≤ (log ++ [env]).length := by simp
  cases c with
  | idle => trivial
  | called => trivial
  | headLoaded h' => exact h
  | checked h' t =>
    obtain ⟨hh, k, hk, hret, ht⟩ := h
    exact ⟨hh, k, Nat.le_trans hk hlen, hret, ht⟩
  | copied h' t x =>
    obtain ⟨hh, hx, k, hk, hret, ht⟩ := h
    have hlt : ret < log.length := (List.getElem?_eq_some_iff.mp hx).1
    exact ⟨hh, by rw [List.getElem?_append_left hlt]; exact hx, k, Nat.le_trans hk hlen, hret, ht⟩

/-- The producer does not mind that more was returned. -/
theorem ProducerAt.mono {buf : Vector MessageEnvelope msgRingCapacity} {acc ret : Nat} {p : Producer}
    (h : ProducerAt counter buf acc ret p) : ProducerAt counter buf acc (ret + 1) p := by
  cases p with
  | idle => trivial
  | called env => trivial
  | tailLoaded env t => exact h
  | checked env t h' =>
    obtain ⟨ht, k, hk, hroom, hh⟩ := h
    exact ⟨ht, k, Nat.le_succ_of_le hk, hroom, hh⟩
  | copied env t h' =>
    obtain ⟨ht, hbuf, k, hk, hroom, hh⟩ := h
    exact ⟨ht, hbuf, k, Nat.le_succ_of_le hk, hroom, hh⟩

/-- The next entry of the longer list extends the prefix. -/
theorem prefix_append_next {α : Type} {xs ys : List α} {x : α} (h : xs <+: ys)
    (hx : ys[xs.length]? = some x) : xs ++ [x] <+: ys := by
  obtain ⟨rest, rfl⟩ := h
  rw [List.getElem?_append_right (Nat.le_refl _), Nat.sub_self] at hx
  cases rest with
  | nil => cases hx
  | cons y rest =>
    cases hx
    exact ⟨rest, by simp⟩

/-! ## One step -/

/-- A step that returns nothing leaves both logs alone. -/
theorem Inv.internal {s' : Threads} {event : Event} (h : Inv counter past s) (htail : s'.ring.tail = s.ring.tail)
    (hhead : s'.ring.head = s.ring.head)
    (hholds : Circular.Holds ring_pos counter.toNat s'.ring.buf (accepted past) (returned past).length)
    (hproducer : ProducerAt counter s'.ring.buf (accepted past).length (returned past).length s'.producer)
    (hconsumer : ConsumerAt counter (accepted past) (returned past).length s'.consumer)
    (hacc : event.accepted = none) (hret : event.returned = none) :
    Inv counter (past ++ [event]) s' := by
  have hlog : accepted (past ++ [event]) = accepted past := by rw [accepted_append, hacc]; simp
  have hout : returned (past ++ [event]) = returned past := by rw [returned_append, hret]; simp
  constructor
  · rw [hlog, htail]
    exact h.tail
  · rw [hout, hhead]
    exact h.head
  · rw [hlog, hout]
    exact h.fifo
  · rw [hlog, hout]
    exact h.bounded
  · rw [hlog, hout]
    exact hholds
  · rw [hlog, hout]
    exact hproducer
  · rw [hlog, hout]
    exact hconsumer

/-- The producer compares its own counter with the consumer's as it is now. -/
theorem Inv.compare (h : Inv counter past s) {env : MessageEnvelope} {t : UInt32}
    (hat : s.producer = .tailLoaded env t) :
    (t - s.ring.head).toNat = (accepted past).length - (returned past).length ∧
      (returned past).length ≤ (accepted past).length := by
  have ht := h.producer
  rw [hat] at ht
  have hle := h.fifo.length_le
  refine ⟨?_, hle⟩
  rw [show t = _ from ht, h.head]
  exact occupancy hle h.bounded

theorem producerStep_total (h : Inv counter past s) :
    ∃ event s', producerStep s = .ok (event, s') ∧ Inv counter (past ++ [event]) s' ∧
      ∀ env res, event = .pushReturned env res → res ≠ .ok → (∃ t, s.producer = .tailLoaded env t) ∧
        (accepted past).length = (returned past).length + msgRingCapacity := by
  have hpc := h.producer
  unfold producerStep
  cases hat : s.producer with
  | idle =>
    refine ⟨_, s, rfl, h.internal rfl rfl h.holds hpc h.consumer rfl rfl, ?_⟩
    intro env res hev
    cases hev
  | called env =>
    refine ⟨.internal, { s with producer := .tailLoaded env s.ring.tail }, rfl,
      h.internal rfl rfl h.holds h.tail h.consumer rfl rfl, ?_⟩
    intro env res hev
    cases hev
  | tailLoaded env t =>
    rw [hat] at hpc
    obtain ⟨hcnt, hle⟩ := h.compare hat
    have hpre : t - s.ring.head ≤ ringCapacity := by
      rw [UInt32.le_iff_toNat_le, hcnt]
      exact Nat.sub_le_iff_le_add'.mpr h.bounded
    by_cases hfull : t - s.ring.head ≥ ringCapacity
    · refine ⟨.pushReturned env .errFull, { s with producer := .idle }, ?_, ?_, ?_⟩
      · simp only [neverCompiledOutAssert, ensure_pos hpre, ok_bind, if_pos hfull, pure_eq_ok]
      · exact h.internal rfl rfl h.holds trivial h.consumer rfl rfl
      · intro env' res hev _
        cases hev
        rw [ge_iff_le, UInt32.le_iff_toNat_le, hcnt] at hfull
        have hbound := h.bounded
        have hcap : ringCapacity.toNat = msgRingCapacity := rfl
        exact ⟨⟨t, rfl⟩, by omega⟩
    · refine ⟨.internal, { s with producer := .checked env t s.ring.head }, ?_, ?_, ?_⟩
      · simp only [neverCompiledOutAssert, ensure_pos hpre, ok_bind, if_neg hfull, pure_eq_ok]
      · refine h.internal rfl rfl h.holds
          ⟨hpc, _, Nat.le_refl _, ?_, h.head⟩ h.consumer rfl rfl
        rw [ge_iff_le, UInt32.le_iff_toNat_le, hcnt] at hfull
        have hcap : ringCapacity.toNat = msgRingCapacity := rfl
        omega
      · intro env' res hev
        cases hev
  | checked env t head =>
    rw [hat] at hpc
    obtain ⟨ht, k, hk, hroom, hh⟩ := hpc
    refine ⟨.internal, { s with
        ring := { s.ring with buf := s.ring.buf.set (slot t) env (slot_lt t) }
        producer := .copied env t head }, rfl,
      h.internal rfl rfl ?_ ⟨ht, ?_, k, hk, hroom, hh⟩ h.consumer rfl rfl, ?_⟩
    · -- the next position is not one that is still wanted
      have hslot : slot t = Circular.slot ring_pos counter.toNat (accepted past).length := by
        rw [ht, slot_counter]
      simp only [hslot]
      exact h.holds.write (by omega) env
    · simp
    · intro env' res hev
      cases hev
  | copied env t head =>
    rw [hat] at hpc
    obtain ⟨ht, hbuf, k, hk, hroom, hh⟩ := hpc
    have hnext : t + 1 = counter + .ofNat ((accepted past).length + 1) := by
      rw [ht]
      exact Circular.counter_succ
    have hpost : t + 1 - head ≤ ringCapacity := by
      have hle := h.fifo.length_le
      rw [UInt32.le_iff_toNat_le, hnext, hh, occupancy (by omega) (by omega)]
      exact Nat.sub_le_iff_le_add'.mpr hroom
    have hlog : accepted (past ++ [.pushReturned env .ok]) = accepted past ++ [env] :=
      accepted_append past _
    have hout : returned (past ++ [.pushReturned env .ok]) = returned past := by
      rw [returned_append]
      exact List.append_nil _
    refine ⟨.pushReturned env .ok,
      { s with ring := { s.ring with tail := t + 1 }, producer := .idle }, ?_, ?_, ?_⟩
    · simp only [neverCompiledOutAssert, ensure_pos hpost, ok_bind, pure_eq_ok]
    · constructor
      · rw [hlog, List.length_append]
        exact hnext
      · rw [hout]
        exact h.head
      · rw [hlog, hout]
        exact h.fifo.trans (List.prefix_append _ _)
      · rw [hlog, hout, List.length_append, List.length_singleton]
        omega
      · rw [hlog, hout]
        refine h.holds.append ?_
        rw [ht] at hbuf
        simp only [slot_counter] at hbuf
        exact hbuf
      · trivial
      · rw [hlog, hout]
        exact h.consumer.append env
    · intro env' res hev hres
      cases hev
      exact absurd rfl hres

theorem consumerStep_total (h : Inv counter past s) :
    ∃ event s', consumerStep s = .ok (event, s') ∧ Inv counter (past ++ [event]) s' ∧
      ∀ env res, event ≠ .pushReturned env res := by
  have hpc := h.consumer
  have hle := h.fifo.length_le
  unfold consumerStep
  cases hat : s.consumer with
  | idle =>
    exact ⟨_, s, rfl, h.internal rfl rfl h.holds h.producer hpc rfl rfl, by intro _ _ hev; cases hev⟩
  | called =>
    exact ⟨.internal, { s with consumer := .headLoaded s.ring.head }, rfl,
      h.internal rfl rfl h.holds h.producer h.head rfl rfl, by intro _ _ hev; cases hev⟩
  | headLoaded head =>
    rw [hat] at hpc
    have hcnt : (s.ring.tail - head).toNat = (accepted past).length - (returned past).length := by
      rw [show head = _ from hpc, h.tail]
      exact occupancy hle h.bounded
    have hpre : s.ring.tail - head ≤ ringCapacity := by
      rw [UInt32.le_iff_toNat_le, hcnt]
      exact Nat.sub_le_iff_le_add'.mpr h.bounded
    by_cases hempty : s.ring.tail - head = 0
    · refine ⟨.popReturned (.error .errEmpty), { s with consumer := .idle }, ?_, ?_, ?_⟩
      · simp only [neverCompiledOutAssert, ensure_pos hpre, ok_bind, if_pos hempty, pure_eq_ok]
      · exact h.internal rfl rfl h.holds h.producer trivial rfl rfl
      · intro _ _ hev
        cases hev
    · refine ⟨.internal, { s with consumer := .checked head s.ring.tail }, ?_, ?_, ?_⟩
      · simp only [neverCompiledOutAssert, ensure_pos hpre, ok_bind, if_neg hempty, pure_eq_ok]
      · refine h.internal rfl rfl h.holds h.producer
          ⟨hpc, _, Nat.le_refl _, ?_, h.tail⟩ rfl rfl
        have hne : (s.ring.tail - head).toNat ≠ 0 := fun hzero => hempty (UInt32.toNat_inj.mp hzero)
        omega
      · intro _ _ hev
        cases hev
  | checked head t =>
    rw [hat] at hpc
    obtain ⟨hh, k, hk, hret, ht⟩ := hpc
    have hlt : (returned past).length < (accepted past).length := by omega
    have hget : s.ring.buf[slot head] = (accepted past)[(returned past).length] := by
      rw [hh]
      simp only [slot_counter]
      exact h.holds _ _ (Nat.le_refl _) (List.getElem?_eq_getElem hlt)
    refine ⟨.internal, { s with consumer := .copied head t s.ring.buf[slot head] }, rfl,
      h.internal rfl rfl h.holds h.producer ⟨hh, ?_, k, hk, hret, ht⟩ rfl rfl,
      by intro _ _ hev; cases hev⟩
    rw [hget]
    exact List.getElem?_eq_getElem hlt
  | copied head t env =>
    rw [hat] at hpc
    obtain ⟨hh, henv, k, hk, hret, ht⟩ := hpc
    have hnext : head + 1 = counter + .ofNat ((returned past).length + 1) := by
      rw [hh]
      exact Circular.counter_succ
    have hbound := h.bounded
    have hpost : t - (head + 1) < ringCapacity := by
      rw [UInt32.lt_iff_toNat_lt, hnext, ht, occupancy (by omega) (by omega)]
      have hcap : ringCapacity.toNat = msgRingCapacity := rfl
      omega
    have hlog : accepted (past ++ [.popReturned (.ok env)]) = accepted past := by
      rw [accepted_append]
      exact List.append_nil _
    have hout : returned (past ++ [.popReturned (.ok env)]) = returned past ++ [env] :=
      returned_append past _
    refine ⟨.popReturned (.ok env),
      { s with ring := { s.ring with head := head + 1 }, consumer := .idle }, ?_, ?_, ?_⟩
    · simp only [neverCompiledOutAssert, ensure_pos hpost, ok_bind, pure_eq_ok]
    · constructor
      · rw [hlog]
        exact h.tail
      · rw [hout, List.length_append]
        exact hnext
      · rw [hlog, hout]
        exact prefix_append_next h.fifo henv
      · rw [hlog, hout, List.length_append]
        omega
      · rw [hlog, hout, List.length_append]
        exact h.holds.mono (Nat.le_succ _)
      · rw [hlog, hout, List.length_append]
        exact h.producer.mono
      · trivial
    · intro _ _ hev
      cases hev

/-- Every step passes its assertions, keeps the invariant, and fails to push only on a full ring. -/
theorem step_total (h : Inv counter past s) (move : Move) :
    ∃ event s', step move s = .ok (event, s') ∧ Inv counter (past ++ [event]) s' ∧
      ∀ env res, event = .pushReturned env res → res ≠ .ok → (∃ t, s.producer = .tailLoaded env t) ∧
        (accepted past).length = (returned past).length + msgRingCapacity := by
  cases move with
  | push env =>
    simp only [step]
    split
    · exact ⟨.internal, { s with producer := .called env }, rfl,
        h.internal rfl rfl h.holds trivial h.consumer rfl rfl, by intro _ _ hev; cases hev⟩
    · exact ⟨.internal, s, rfl, h.internal rfl rfl h.holds h.producer h.consumer rfl rfl,
        by intro _ _ hev; cases hev⟩
  | pop =>
    simp only [step]
    split
    · exact ⟨.internal, { s with consumer := .called }, rfl,
        h.internal rfl rfl h.holds h.producer trivial rfl rfl, by intro _ _ hev; cases hev⟩
    · exact ⟨.internal, s, rfl, h.internal rfl rfl h.holds h.producer h.consumer rfl rfl,
        by intro _ _ hev; cases hev⟩
  | producer => exact producerStep_total h
  | consumer =>
    obtain ⟨event, s', hstep, hinv, hnot⟩ := consumerStep_total h
    exact ⟨event, s', hstep, hinv, fun env res hev => absurd hev (hnot env res)⟩

/-- The slot of an envelope that is still wanted is not the one the producer is about to write. -/
theorem Inv.kept (h : Inv counter past s) (move : Move) {k : Nat} {env : MessageEnvelope}
    (hk : (returned past).length ≤ k) (henv : (accepted past)[k]? = some env) :
    s.ring.buf[slot (counter + .ofNat k)] = env ∧ writes move s ≠ some (slot (counter + .ofNat k)) := by
  simp only [slot_counter]
  refine ⟨h.holds k env hk henv, ?_⟩
  have hlt : k < (accepted past).length := (List.getElem?_eq_some_iff.mp henv).1
  unfold writes
  split
  next _ _ t head hat =>
    have hpc := h.producer
    rw [hat] at hpc
    obtain ⟨ht, j, hj, hroom, _⟩ := hpc
    rw [ht, slot_counter]
    intro heq
    exact Circular.slot_ne hlt (by omega) (Option.some.inj heq).symm
  next _ _ =>
    intro heq
    cases heq

/-- For every interleaving of the two threads, and wherever the counters start: no assertion fails,
what is popped is what was pushed, in order, and never more than the capacity apart; the producer
writes no slot that is still wanted; and a push is refused only at a moment when the ring is full. -/
theorem single_producer_single_consumer (buf : Vector MessageEnvelope msgRingCapacity)
    (counter : UInt32) (moves : List Move) :
    (∃ events s', Run.runAll step moves (Threads.start buf counter) = .ok (events, s')) ∧
      Run.EachStep step (fun past s move event _ => Lawful counter past s move event) [] moves
        (Threads.start buf counter) := by
  have along : Run.Along step (fun _ _ => True) moves (Threads.start buf counter) :=
    Run.Along.of_forall (fun _ _ => trivial) moves _
  have total : ∀ s move, (∃ past, Inv counter past s) → True →
      ∃ event s', step move s = .ok (event, s') ∧ (∃ past, Inv counter past s') ∧ True := by
    rintro s move ⟨past, hinv⟩ _
    obtain ⟨event, s', hstep, hinv', _⟩ := step_total hinv move
    exact ⟨event, s', hstep, ⟨_, hinv'⟩, trivial⟩
  constructor
  · obtain ⟨events, s', hrun, _⟩ :=
      Run.runAll_total total moves _ ⟨[], Inv.start buf counter⟩ along
    exact ⟨events, s', hrun⟩
  · refine Run.eachStep_of_inv (Inv counter) ?_ moves [] _ (Inv.start buf counter) along
    intro past s move event s' hinv _ hstep
    obtain ⟨event', s'', hstep', hinv', hfull⟩ := step_total hinv move
    cases hstep.symm.trans hstep'
    exact ⟨⟨hinv'.fifo, hinv'.bounded, fun k env hk henv => hinv.kept move hk henv, hfull⟩, hinv'⟩

end RingBuffer

end MessageEngine
