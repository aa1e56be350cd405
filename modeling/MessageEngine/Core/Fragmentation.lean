import MessageEngine.Core.MessageEnvelope

/-!
# Fragmentation

A logical message whose payload exceeds one wire fragment is cut into slices of
`fragMaxPayloadBytes`, the last one shorter. Every fragment repeats the header.
-/

namespace MessageEngine

open Outcome

def needsFragmentation (env : MessageEnvelope) : Checked Bool := do
  neverCompiledOutAssert .needsFragmentation (env.payloadLength.toNat ≤ msgMaxPayloadBytes)
  pure (decide (env.payloadLength.toNat > fragMaxPayloadBytes))

/-- The loop of `fragment_message`: `left` fragments to go, the next one being `index`, with
`offset` payload bytes already cut. Answers the fragments and the final offset. -/
def fragmentMessage.loop (logical : MessageEnvelope) (fragCount : Nat) :
    (left index offset : Nat) → Checked (List MessageEnvelope × Nat)
  | 0, _, offset => pure ([], offset)
  | left + 1, index, offset => do
    let remaining := logical.payloadLength.toNat - offset
    let fragPayload := if remaining > fragMaxPayloadBytes then fragMaxPayloadBytes else remaining
    -- The fragment starts as a copy of the logical envelope, its payload included.
    let payload ← if fragPayload > 0 then
        memcpy logical.payload 0 logical.payload offset fragPayload
      else pure logical.payload
    let frag := { logical with
      fragmentIndex := UInt8.ofNat index
      fragmentCount := UInt8.ofNat fragCount
      totalPayloadLength := logical.payloadLength.toUInt16
      payloadLength := UInt32.ofNat fragPayload
      payload }
    let (rest, offset) ← loop logical fragCount left (index + 1) (offset + fragPayload)
    pure (frag :: rest, offset)

/-- The fragments of `logical`; none is the error return. -/
def fragmentMessage (logical : MessageEnvelope) : Checked (List MessageEnvelope) :=
  if logical.payloadLength.toNat > msgMaxPayloadBytes then
    pure []
  else do
    let fragCount := if logical.payloadLength = 0 then 1
      else (logical.payloadLength.toNat + fragMaxPayloadBytes - 1) / fragMaxPayloadBytes
    neverCompiledOutAssert .fragmentMessage (fragCount ≥ 1)
    neverCompiledOutAssert .fragmentMessage (fragCount ≤ fragMaxCount)
    let (frags, offset) ← fragmentMessage.loop logical fragCount fragCount 0 0
    neverCompiledOutAssert .fragmentMessage (offset = logical.payloadLength.toNat)
    pure frags

end MessageEngine
