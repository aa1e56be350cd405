import MessageEngine.Core.Backend

/-!
# The loop of receive_message

The four backends have the same `receive_message`: the receive queue first, and then rounds of polling,
each followed by a flush of the delayed messages, with the queue tried after both. What a backend does in
these two places is a `Pump`; the number of rounds comes from the timeout and is the same everywhere.

`polls` is not program state and nothing reads it: it counts the rounds in which the sockets were polled.
-/

namespace MessageEngine

open Outcome

/-- `poll_count` of `receive_message`: a round is a tenth of a second, and there are fifty at most. -/
def pollCount (timeoutMs : UInt32) : UInt32 :=
  let pollCount := (timeoutMs + 99) / 100
  if pollCount > 50 then 50 else pollCount

/-- What `receive_message` answers, and how often the sockets were polled for it. -/
structure Delivery where
  reply : Reply
  polls : Nat

/-- A backend as its `receive_message` uses it: a round of polling, a flush, and the pop. A round meets
what the operating system answers in it. -/
structure Pump (τ σ : Type) where
  poll : τ → σ → Checked σ
  flush : τ → σ → Checked σ
  pop : σ → Checked (Reply × σ)

namespace Pump

variable {τ σ : Type}

/-- The rounds of `receive_message`, with those that are left. -/
def rounds (p : Pump τ σ) (turns : Nat → τ) : Nat → Nat → σ → Checked (Delivery × σ)
  | 0, attempt, s => pure (⟨.error .errTimeout, attempt⟩, s)
  | left + 1, attempt, s => do
    let s ← p.poll (turns attempt) s
    match ← p.pop s with
    | (.ok env, s) => pure (⟨.ok env, attempt + 1⟩, s)
    | (.error _, s) =>
      let s ← p.flush (turns attempt) s
      match ← p.pop s with
      | (.ok env, s) => pure (⟨.ok env, attempt + 1⟩, s)
      | (.error _, s) => rounds p turns left (attempt + 1) s

/-- `receive_message` after its preconditions; the site is that of the backend. -/
def receiveMessage (site : Site) (p : Pump τ σ) (timeoutMs : UInt32) (turns : Nat → τ) (s : σ) :
    Checked (Delivery × σ) := do
  match ← p.pop s with
  | (.ok env, s) => pure (⟨.ok env, 0⟩, s)
  | (.error _, s) =>
    let pollCount := pollCount timeoutMs
    neverCompiledOutAssert site (pollCount ≤ 50)
    p.rounds turns pollCount.toNat 0 s

end Pump

/-- `is_current` of the flushes: the message being sent, known by its source and number. -/
def isCurrent (env current : MessageEnvelope) : Bool :=
  env.sourceId == current.sourceId && env.messageId == current.messageId

/-- `Serializer::serialize` into a buffer of the backend: the buffer and the length, or the error. -/
def serializeToWire (env : MessageEnvelope) : Checked (Except Result (List UInt8 × UInt32)) := do
  match ← Serializer.serialize env (List.replicate socketRecvBufBytes.toNat 0) socketRecvBufBytes with
  | .error res => pure (.error res)
  | .ok (buf, len) => pure (.ok (buf, .ofNat len))

/-- A backend is used through the calls of its interface. A `receive` meets one turn in each of its
rounds. -/
inductive TransportCall (τ : Type) where
  | send (env : MessageEnvelope) (nowUs : UInt64)
  | receive (timeoutMs : UInt32) (turns : Nat → τ)
  | registerLocalId (id : NodeId)
  | popHelloPeer
  | close

end MessageEngine
