import MessageEngine.Core.Types

/-!
# Message identifiers and the event ring

Two small stateful parts of the engine: the generator of message identifiers, which skips zero,
and the bounded ring of observability events, which overwrites its oldest entry when full.
-/

namespace MessageEngine

open Outcome

structure MessageIdGen where
  next : UInt64

/-- The next identifier and the generator after it. -/
def MessageIdGen.take (g : MessageIdGen) : Checked (UInt64 × MessageIdGen) := do
  neverCompiledOutAssert .messageIdGenNext (g.next ≠ 0)
  let next := g.next + 1
  pure (g.next, ⟨if next = 0 then 1 else next⟩)

inductive DeliveryEventKind where
  | sendOk
  | sendFail
  | ackReceived
  | retryFired
  | ackTimeout
  | duplicateDrop
  | expiryDrop
  | misrouteDrop
  | reconnectCancel
  deriving DecidableEq, Repr

structure DeliveryEvent where
  messageId : UInt64
  timestampUs : UInt64
  nodeId : NodeId
  kind : DeliveryEventKind
  result : Result
  deriving DecidableEq, Repr

structure DeliveryEventRing where
  buf : Vector DeliveryEvent deliveryEventRingCapacity
  head : Nat
  tail : Nat
  count : Nat

namespace DeliveryEventRing

def init : DeliveryEventRing where
  buf := Vector.replicate deliveryEventRingCapacity ⟨0, 0, 0, .sendOk, .ok⟩
  head := 0
  tail := 0
  count := 0

def push (r : DeliveryEventRing) (ev : DeliveryEvent) : Checked DeliveryEventRing := do
  neverCompiledOutAssert .eventRingPush (r.count ≤ deliveryEventRingCapacity)
  if h : r.head < deliveryEventRingCapacity then
    pure { buf := r.buf.set r.head ev
           head := (r.head + 1) % deliveryEventRingCapacity
           tail := if r.count < deliveryEventRingCapacity then r.tail
             else (r.tail + 1) % deliveryEventRingCapacity
           count := if r.count < deliveryEventRingCapacity then r.count + 1 else r.count }
  else
    throw (.assertion .eventRingPush)

/-- Pop the oldest event; `none` is `ERR_EMPTY`. -/
def pop (r : DeliveryEventRing) : Checked (Option DeliveryEvent × DeliveryEventRing) := do
  neverCompiledOutAssert .eventRingPop (r.count ≤ deliveryEventRingCapacity)
  if h : r.tail < deliveryEventRingCapacity then
    if r.count = 0 then
      pure (none, r)
    else
      pure (some r.buf[r.tail], { r with
        tail := (r.tail + 1) % deliveryEventRingCapacity, count := r.count - 1 })
  else
    throw (.assertion .eventRingPop)

def size (r : DeliveryEventRing) : Checked Nat := do
  neverCompiledOutAssert .eventRingSize (r.count ≤ deliveryEventRingCapacity)
  neverCompiledOutAssert .eventRingSize (r.head < deliveryEventRingCapacity)
  pure r.count

end DeliveryEventRing

end MessageEngine
