import MessageEngine.Laws.DeliveryEngine.Basic
import MessageEngine.Lib.Circular
import MessageEngine.Lib.Lockstep
import Mathlib.Data.List.DropRight

/-!
# The event ring is a queue that drops its oldest

The ring keeps two positions and a count, and moves them differently when it is full. Read as a list
from the oldest event on, it is a queue with a bound: a push appends and keeps the last events only, a
pop takes the first.

## What is proved

- `push_events`, `pop_events`: what one operation does to the list;
- `drains_like_polls`: `drain_events` is `poll_event`, called again and again;
- `ring_refines`: every run of the ring is the run of the queue.
-/

namespace MessageEngine

open Outcome

namespace DeliveryEventRing

theorem ring_pos : 0 < deliveryEventRingCapacity := by decide

/-- The events in the ring, oldest first. -/
def events (r : DeliveryEventRing) : List DeliveryEvent := Circular.window ring_pos r.buf r.tail r.count

/-- The positions are inside the ring, and the next event is written behind the last one. -/
structure Sound (r : DeliveryEventRing) : Prop where
  inv : Inv r
  head : r.head = (r.tail + r.count) % deliveryEventRingCapacity

variable {r r' : DeliveryEventRing}

theorem length_events (r : DeliveryEventRing) : r.events.length = r.count := Circular.length_window _ _ _

theorem sound_init : Sound init := ⟨inv_init, rfl⟩

/-! ## The queue -/

/-- What is done to the ring. -/
inductive Op where
  | push (ev : DeliveryEvent)
  | pop

/-- An operation of the ring: a push answers nothing. -/
def step : Op → DeliveryEventRing → Checked (Option DeliveryEvent × DeliveryEventRing)
  | .push ev, r => do
    let r ← r.push ev
    pure (none, r)
  | .pop, r => r.pop

/-- The same operation of the queue. -/
def queueStep : Op → List DeliveryEvent → Checked (Option DeliveryEvent × List DeliveryEvent)
  | .push ev, q => .ok (none, (q ++ [ev]).rtake deliveryEventRingCapacity)
  | .pop, q => .ok (q.head?, q.tail)

/-! ## One operation -/

/-- The slot of event number `k`, from the oldest on. -/
def slot (r : DeliveryEventRing) (k : Nat) : Fin deliveryEventRingCapacity := Circular.slot ring_pos r.tail k

/-- The ring with the event in the slot behind the last one. -/
def appended (r : DeliveryEventRing) (ev : DeliveryEvent) : DeliveryEventRing where
  buf := r.buf.set (r.slot r.count) ev (r.slot r.count).isLt
  head := (r.tail + (r.count + 1)) % deliveryEventRingCapacity
  tail := r.tail
  count := r.count + 1

/-- The ring with the event in the slot of the oldest one. -/
def overwritten (r : DeliveryEventRing) (ev : DeliveryEvent) : DeliveryEventRing where
  buf := r.buf.set (r.slot 0) ev (r.slot 0).isLt
  head := (r.tail + 1) % deliveryEventRingCapacity
  tail := (r.tail + 1) % deliveryEventRingCapacity
  count := r.count

theorem slot_zero (inv : Inv r) : r.slot 0 = ⟨r.tail, inv.tail⟩ := Fin.ext (Nat.mod_eq_of_lt inv.tail)

/-- The events of a ring that is not empty. -/
theorem events_eq_cons {k : Nat} (h : r.count = k + 1) :
    r.events = r.buf[r.slot 0] :: Circular.window ring_pos r.buf (r.slot 1) k := by
  rw [events, h]
  exact Circular.window_pop r.buf r.tail k

theorem push_eq (sound : Sound r) (ev : DeliveryEvent) :
    r.push ev = .ok (if r.count < deliveryEventRingCapacity then r.appended ev else r.overwritten ev) := by
  have hhead := sound.inv.head
  refine ensure_bind_eq_ok.mpr ⟨sound.inv.count, ?_⟩
  rw [dif_pos hhead, pure_eq_ok]
  have hnext : (r.head + 1) % deliveryEventRingCapacity = (r.tail + (r.count + 1)) % deliveryEventRingCapacity := by
    rw [sound.head, Nat.mod_add_mod, Nat.add_assoc]
  have hplace : r.slot r.count = ⟨r.head, hhead⟩ := Fin.ext sound.head.symm
  by_cases room : r.count < deliveryEventRingCapacity
  · simp only [if_pos room]
    simp only [appended, hplace, hnext]
  · have hfull : r.count = deliveryEventRingCapacity := Nat.le_antisymm sound.inv.count (Nat.not_lt.mp room)
    have hoverlap : r.slot 0 = r.slot r.count := by
      apply Fin.ext
      change (r.tail + 0) % _ = (r.tail + r.count) % _
      rw [hfull, Nat.add_mod_right, Nat.add_zero]
    have hround : (r.tail + (r.count + 1)) % deliveryEventRingCapacity = (r.tail + 1) % deliveryEventRingCapacity := by
      rw [hfull, Nat.add_comm deliveryEventRingCapacity 1, ← Nat.add_assoc, Nat.add_mod_right]
    simp only [if_neg room]
    simp only [overwritten, hoverlap, hplace, hnext, hround]

/-- A push appends, and keeps the last events only. -/
theorem push_events (sound : Sound r) (ev : DeliveryEvent) : ∃ r', r.push ev = .ok r' ∧ Sound r' ∧
    r'.events = (r.events ++ [ev]).rtake deliveryEventRingCapacity := by
  obtain ⟨r', hpush, hinv⟩ := push_spec sound.inv ev
  have hlen : (r.events ++ [ev]).length = r.count + 1 := by
    rw [List.length_append, length_events, List.length_singleton]
  refine ⟨r', hpush, ?_⟩
  rw [push_eq sound] at hpush
  cases hpush
  rw [List.rtake, hlen]
  by_cases room : r.count < deliveryEventRingCapacity
  · rw [if_pos room] at hinv ⊢
    refine ⟨⟨hinv, rfl⟩, ?_⟩
    rw [Nat.sub_eq_zero_of_le room, List.drop_zero]
    exact Circular.window_push room ev
  · have hfull : r.count = deliveryEventRingCapacity := Nat.le_antisymm sound.inv.count (Nat.not_lt.mp room)
    obtain ⟨k, hk⟩ : ∃ k, r.count = k + 1 := ⟨63, hfull⟩
    rw [if_neg room] at hinv ⊢
    refine ⟨⟨hinv, ?_⟩, ?_⟩
    · change (r.tail + 1) % deliveryEventRingCapacity =
        ((r.tail + 1) % deliveryEventRingCapacity + r.count) % deliveryEventRingCapacity
      rw [hfull, Nat.add_mod_right, Nat.mod_mod]
    · have hone : r.count + 1 - deliveryEventRingCapacity = 1 := by rw [hfull, Nat.add_sub_cancel_left]
      rw [hone, events_eq_cons hk, List.cons_append, List.drop_one, List.tail_cons]
      have hshift := @Circular.window_push_full _ _ ring_pos r.buf r.tail k (hk.symm.trans hfull) ev
      rw [← hk] at hshift
      exact hshift

/-- A pop takes the oldest event. -/
theorem pop_events (sound : Sound r) : ∃ r', r.pop = .ok (r.events.head?, r') ∧ Sound r' ∧
    r'.events = r.events.tail := by
  have htail := sound.inv.tail
  by_cases hempty : r.count = 0
  · have hnone : r.events = [] := List.eq_nil_of_length_eq_zero ((length_events r).trans hempty)
    refine ⟨r, ensure_bind_eq_ok.mpr ⟨sound.inv.count, ?_⟩, sound, ?_⟩
    · rw [dif_pos htail, if_pos hempty, hnone]
      rfl
    · rw [hnone, List.tail_nil]
  · obtain ⟨k, hk⟩ := Nat.exists_eq_succ_of_ne_zero hempty
    have hevents := events_eq_cons hk
    rw [slot_zero sound.inv] at hevents
    refine ⟨{ r with tail := (r.tail + 1) % deliveryEventRingCapacity, count := r.count - 1 },
      ensure_bind_eq_ok.mpr ⟨sound.inv.count, ?_⟩, ⟨⟨sound.inv.head, Nat.mod_lt _ ring_pos, ?_⟩, ?_⟩, ?_⟩
    · rw [dif_pos htail, if_neg hempty, hevents]
      rfl
    · exact Nat.le_trans (Nat.sub_le _ _) sound.inv.count
    · change r.head = ((r.tail + 1) % deliveryEventRingCapacity + (r.count - 1)) % deliveryEventRingCapacity
      rw [sound.head, Nat.mod_add_mod, hk, Nat.succ_sub_one, Nat.add_assoc, Nat.add_comm 1]
    · rw [hevents, List.tail_cons, events]
      dsimp only
      rw [hk, Nat.succ_sub_one]
      rfl

/-- A pop that finds nothing changes nothing. -/
theorem pop_none (h : r.pop = .ok (none, r')) : r' = r := by
  obtain ⟨-, h⟩ := ensure_bind_eq_ok.mp h
  split at h
  case isFalse _ => cases h
  case isTrue _ =>
    split at h
    case isTrue _ =>
      cases h
      rfl
    case isFalse _ => cases h

/-! ## Runs -/

/-- The ring stands for the queue. -/
def StandsFor (r : DeliveryEventRing) (q : List DeliveryEvent) : Prop := Sound r ∧ r.events = q

theorem step_refines {q : List DeliveryEvent} (h : StandsFor r q) (op : Op) :
    Run.Lockstep (· = ·) StandsFor (step op r) (queueStep op q) := by
  obtain ⟨sound, rfl⟩ := h
  cases op with
  | push ev =>
    obtain ⟨r', hpush, hsound, hevents⟩ := push_events sound ev
    rw [step, hpush]
    exact .ok rfl ⟨hsound, hevents⟩
  | pop =>
    obtain ⟨r', hpop, hsound, hevents⟩ := pop_events sound
    rw [step, hpop]
    exact .ok rfl ⟨hsound, hevents⟩

theorem queueStep_total (op : Op) (q : List DeliveryEvent) : ∃ o q', queueStep op q = .ok (o, q') := by
  cases op with
  | push ev => exact ⟨_, _, rfl⟩
  | pop => exact ⟨_, _, rfl⟩

theorem queue_total (ops : List Op) : ∃ os q, Run.runAll queueStep ops [] = .ok (os, q) := by
  have total (q : List DeliveryEvent) (op : Op) (_ : True) (_ : True) :
      ∃ o q', queueStep op q = .ok (o, q') ∧ True ∧ True := by
    obtain ⟨o, q', hstep⟩ := queueStep_total op q
    exact ⟨o, q', hstep, trivial, trivial⟩
  obtain ⟨os, q, hrun, -⟩ := Run.runAll_total total ops [] trivial (Run.Along.of_forall (fun _ _ => trivial) ops [])
  exact ⟨os, q, hrun⟩

/-- Every run of the ring is the run of the queue. -/
theorem run_refines (ops : List Op) : ∃ os r q, Run.runAll step ops init = .ok (os, r) ∧
    Run.runAll queueStep ops [] = .ok (os, q) ∧ StandsFor r q := by
  obtain ⟨os, q, hqueue⟩ := queue_total ops
  have lockstep (r : DeliveryEventRing) (q : List DeliveryEvent) (op : Op) (h : StandsFor r q) (_ : True) :
      Run.Lockstep (· = ·) StandsFor (step op r) (queueStep op q) := step_refines h op
  have hruns := Run.lockstep_runAll lockstep ops init [] ⟨sound_init, rfl⟩
    (Run.Along.of_forall (fun _ _ => trivial) ops init)
  rw [hqueue] at hruns
  generalize hring : Run.runAll step ops init = ring at hruns
  cases hruns with
  | ok outputs states =>
    rw [List.forall₂_eq_eq_eq] at outputs
    cases outputs
    exact ⟨os, _, q, rfl, hqueue, states⟩

end DeliveryEventRing

namespace DeliveryEngine

variable {e : DeliveryEngine}

/-! ## Draining -/

/-- `poll_event`, called `n` times. -/
def pollEvents : Nat → DeliveryEngine → Checked (List (Option DeliveryEvent) × DeliveryEngine)
  | 0, e => pure ([], e)
  | n + 1, e => do
    let (out, e) ← e.pollEvent
    let (rest, e) ← pollEvents n e
    pure (out :: rest, e)

theorem pollEvent_of_pop (inv : e.events.Inv) {out : Option DeliveryEvent} {r' : DeliveryEventRing}
    (hpop : e.events.pop = .ok (out, r')) : e.pollEvent = .ok (out, { e with events := r' }) :=
  bind_eq_ok.mpr ⟨_, DeliveryEventRing.size_eq inv, ensure_bind_eq_ok.mpr ⟨inv.count,
    bind_eq_ok.mpr ⟨_, hpop, rfl⟩⟩⟩

/-- An empty ring answers nothing, and stays as it is. -/
theorem pollEvents_empty (inv : e.events.Inv) (hpop : e.events.pop = .ok (none, e.events)) (n : Nat) :
    pollEvents n e = .ok (List.replicate n none, e) := by
  induction n with
  | zero => rfl
  | succ n ih =>
    rw [pollEvents, pollEvent_of_pop inv hpop, ok_bind]
    dsimp only
    rw [ih]
    rfl

/-- `drain_events` hands over what as many calls of `poll_event` would, up to the first that finds
nothing, and leaves the engine that they leave. -/
theorem drains_like_polls (n : Nat) : ∀ {e : DeliveryEngine}, e.events.Sound → ∃ evs e',
    drainEvents n e = .ok (evs, e') ∧
      pollEvents n e = .ok (evs.map some ++ List.replicate (n - evs.length) none, e') := by
  induction n with
  | zero => exact fun {e} _ => ⟨[], e, rfl, rfl⟩
  | succ n ih =>
    intro e sound
    obtain ⟨r', hpop, hsound, -⟩ := DeliveryEventRing.pop_events sound
    have hpoll := pollEvent_of_pop sound.inv hpop
    rw [drainEvents, pollEvents, hpop, hpoll, ok_bind, ok_bind]
    dsimp only
    cases hhead : e.events.events.head? with
    | none =>
      have hsame : r' = e.events := DeliveryEventRing.pop_none (hhead ▸ hpop)
      subst hsame
      rw [hhead] at hpop
      refine ⟨[], e, rfl, ?_⟩
      rw [pollEvents_empty sound.inv hpop]
      rfl
    | some ev =>
      obtain ⟨evs, e', hdrain, hpolls⟩ := ih (e := { e with events := r' }) hsound
      refine ⟨ev :: evs, e', ?_, ?_⟩
      · rw [hdrain]
        rfl
      · rw [hpolls, List.length_cons, Nat.add_sub_add_right]
        rfl

/-- Every run of the ring is the run of the queue, its size is the length of that, and to drain an engine
with that ring is to poll it. -/
theorem ring_refines (ops : List DeliveryEventRing.Op) : ∃ os r q,
    Run.runAll DeliveryEventRing.step ops .init = .ok (os, r) ∧
    Run.runAll DeliveryEventRing.queueStep ops [] = .ok (os, q) ∧ r.size = .ok q.length ∧
    ∀ (e : DeliveryEngine) (bufCap : UInt32), ∃ evs e',
      drainEvents bufCap.toNat { e with events := r } = .ok (evs, e') ∧
      pollEvents bufCap.toNat { e with events := r } =
        .ok (evs.map some ++ List.replicate (bufCap.toNat - evs.length) none, e') := by
  obtain ⟨os, r, q, hring, hqueue, hsound, rfl⟩ := DeliveryEventRing.run_refines ops
  refine ⟨os, r, r.events, hring, hqueue, ?_, fun e bufCap => ?_⟩
  · rw [DeliveryEventRing.length_events]
    exact DeliveryEventRing.size_eq hsound.inv
  · exact drains_like_polls (e := { e with events := r }) bufCap.toNat hsound

end DeliveryEngine

end MessageEngine
