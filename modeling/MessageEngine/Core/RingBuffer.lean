import MessageEngine.Core.MessageEnvelope

/-!
# The receive ring

A ring of `MSG_RING_CAPACITY` envelopes between one producer and one consumer. The two counters
run freely and wrap at `2 ^ 32`; what they are apart is the number of envelopes in the ring, and
their low bits are the slots.

`push` and `pop` are the functions as one thread sees them. The second half of the module is the
same code for two threads: one step for each atomic load, each atomic store and each copy of an
envelope, with what a thread does on its own (the difference of its two snapshots, the assertions,
the branch, the return) in the step before it.
-/

namespace MessageEngine

open Outcome

structure RingBuffer where
  buf : Vector MessageEnvelope msgRingCapacity
  head : UInt32
  tail : UInt32

namespace RingBuffer

abbrev ringCapacity : UInt32 := 64

abbrev ringMask : UInt32 := ringCapacity - 1

def init : RingBuffer where
  buf := Vector.replicate msgRingCapacity envelopeInit
  head := 0
  tail := 0

theorem masked_lt (counter : UInt32) : (counter &&& ringMask).toNat < msgRingCapacity := by
  rw [UInt32.toNat_and]
  exact Nat.lt_of_le_of_lt Nat.and_le_right (by decide)

/-- The slot of a counter. -/
def slot (counter : UInt32) : Fin msgRingCapacity := ⟨(counter &&& ringMask).toNat, masked_lt counter⟩

theorem slot_lt (counter : UInt32) : (slot counter).val < msgRingCapacity := (slot counter).isLt

def push (r : RingBuffer) (env : MessageEnvelope) : Checked (Result × RingBuffer) := do
  let t := r.tail
  let h := r.head
  let cnt := t - h
  neverCompiledOutAssert .ringBufferPush (cnt ≤ ringCapacity)
  if cnt ≥ ringCapacity then
    pure (.errFull, r)
  else
    let r := { r with buf := r.buf.set (slot t) env (slot_lt t) }
    let r := { r with tail := t + 1 }
    neverCompiledOutAssert .ringBufferPush (t + 1 - h ≤ ringCapacity)
    pure (.ok, r)

def pop (r : RingBuffer) : Checked (Reply × RingBuffer) := do
  let h := r.head
  let t := r.tail
  let cnt := t - h
  neverCompiledOutAssert .ringBufferPop (cnt ≤ ringCapacity)
  if cnt = 0 then
    pure (.error .errEmpty, r)
  else
    let env := r.buf[slot h]
    let r := { r with head := h + 1 }
    neverCompiledOutAssert .ringBufferPop (t - (h + 1) < ringCapacity)
    pure (.ok env, r)

/-! ## Two threads -/

/-- Where the producer is in `push`, with its locals. -/
inductive Producer where
  | idle
  | called (env : MessageEnvelope)
  | tailLoaded (env : MessageEnvelope) (t : UInt32)
  | checked (env : MessageEnvelope) (t h : UInt32)
  | copied (env : MessageEnvelope) (t h : UInt32)

/-- Where the consumer is in `pop`, with its locals. -/
inductive Consumer where
  | idle
  | called
  | headLoaded (h : UInt32)
  | checked (h t : UInt32)
  | copied (h t : UInt32) (env : MessageEnvelope)

structure Threads where
  ring : RingBuffer
  producer : Producer
  consumer : Consumer

/-- What the scheduler can do next. -/
inductive Move where
  | push (env : MessageEnvelope)
  | pop
  | producer
  | consumer

inductive Event where
  | internal
  | pushReturned (env : MessageEnvelope) (res : Result)
  | popReturned (reply : Reply)

/-- One step of the producer inside `push`. -/
def producerStep (s : Threads) : Checked (Event × Threads) :=
  match s.producer with
  | .idle => pure (.internal, s)
  | .called env => pure (.internal, { s with producer := .tailLoaded env s.ring.tail })
  | .tailLoaded env t => do
    let h := s.ring.head
    let cnt := t - h
    neverCompiledOutAssert .ringBufferPush (cnt ≤ ringCapacity)
    if cnt ≥ ringCapacity then
      pure (.pushReturned env .errFull, { s with producer := .idle })
    else
      pure (.internal, { s with producer := .checked env t h })
  | .checked env t h =>
    pure (.internal, { s with
      ring := { s.ring with buf := s.ring.buf.set (slot t) env (slot_lt t) }
      producer := .copied env t h })
  | .copied env t h => do
    let s := { s with ring := { s.ring with tail := t + 1 } }
    neverCompiledOutAssert .ringBufferPush (t + 1 - h ≤ ringCapacity)
    pure (.pushReturned env .ok, { s with producer := .idle })

/-- One step of the consumer inside `pop`. -/
def consumerStep (s : Threads) : Checked (Event × Threads) :=
  match s.consumer with
  | .idle => pure (.internal, s)
  | .called => pure (.internal, { s with consumer := .headLoaded s.ring.head })
  | .headLoaded h => do
    let t := s.ring.tail
    let cnt := t - h
    neverCompiledOutAssert .ringBufferPop (cnt ≤ ringCapacity)
    if cnt = 0 then
      pure (.popReturned (.error .errEmpty), { s with consumer := .idle })
    else
      pure (.internal, { s with consumer := .checked h t })
  | .checked h t => pure (.internal, { s with consumer := .copied h t s.ring.buf[slot h] })
  | .copied h t env => do
    let s := { s with ring := { s.ring with head := h + 1 } }
    neverCompiledOutAssert .ringBufferPop (t - (h + 1) < ringCapacity)
    pure (.popReturned (.ok env), { s with consumer := .idle })

/-- One step of the system. A call is made only by a thread that is in none; the scheduler may also
pick a thread that has nothing to do. -/
def step (move : Move) (s : Threads) : Checked (Event × Threads) :=
  match move with
  | .push env =>
    match s.producer with
    | .idle => pure (.internal, { s with producer := .called env })
    | _ => pure (.internal, s)
  | .pop =>
    match s.consumer with
    | .idle => pure (.internal, { s with consumer := .called })
    | _ => pure (.internal, s)
  | .producer => producerStep s
  | .consumer => consumerStep s

/-- Both threads idle on a ring whose counters are both at `counter`. -/
def Threads.start (buf : Vector MessageEnvelope msgRingCapacity) (counter : UInt32) : Threads where
  ring := ⟨buf, counter, counter⟩
  producer := .idle
  consumer := .idle

/-- The slot the next step of the scheduler's choice writes. -/
def writes (move : Move) (s : Threads) : Option (Fin msgRingCapacity) :=
  match move, s.producer with
  | .producer, .checked _ t _ => some (slot t)
  | _, _ => none

end RingBuffer

end MessageEngine
