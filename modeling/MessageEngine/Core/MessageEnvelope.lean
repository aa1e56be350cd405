import MessageEngine.Core.Types

/-!
# The message envelope

One record for every message, data and control, logical or fragment. `payload` is the whole
fixed array; `payloadLength` says how much of it is in use, and nothing ties the two together
but the checks of the functions that read them.
-/

namespace MessageEngine

structure MessageEnvelope where
  messageId : UInt64
  timestampUs : UInt64
  expiryTimeUs : UInt64
  sourceId : NodeId
  destinationId : NodeId
  payloadLength : UInt32
  sequenceNum : UInt32
  totalPayloadLength : UInt16
  messageType : MessageType
  priority : UInt8
  reliabilityClass : ReliabilityClass
  fragmentIndex : UInt8
  fragmentCount : UInt8
  payload : Vector UInt8 msgMaxPayloadBytes
  deriving DecidableEq

/-- What a function that fills an envelope on success answers: the envelope, or the result
code of the failure. -/
abbrev Reply := Except Result MessageEnvelope

/-- All fields zero, the type the `INVALID` sentinel. -/
def envelopeInit : MessageEnvelope where
  messageId := 0
  timestampUs := 0
  expiryTimeUs := 0
  sourceId := 0
  destinationId := 0
  payloadLength := 0
  sequenceNum := 0
  totalPayloadLength := 0
  messageType := .invalid
  priority := 0
  reliabilityClass := .bestEffort
  fragmentIndex := 0
  fragmentCount := 0
  payload := Vector.replicate msgMaxPayloadBytes 0

def envelopeValid (env : MessageEnvelope) : Prop :=
  env.messageType ≠ .invalid ∧ env.payloadLength.toNat ≤ msgMaxPayloadBytes ∧
    env.sourceId ≠ nodeIdInvalid

instance (env : MessageEnvelope) : Decidable (envelopeValid env) :=
  inferInstanceAs (Decidable (_ ∧ _ ∧ _))

def envelopeIsData (env : MessageEnvelope) : Prop := env.messageType = .data

instance (env : MessageEnvelope) : Decidable (envelopeIsData env) :=
  inferInstanceAs (Decidable (_ = _))

/-- In-band control messages; a `HELLO` is neither data nor control. -/
def envelopeIsControl (env : MessageEnvelope) : Prop :=
  env.messageType = .ack ∨ env.messageType = .nak ∨ env.messageType = .heartbeat

instance (env : MessageEnvelope) : Decidable (envelopeIsControl env) :=
  inferInstanceAs (Decidable (_ ∨ _ ∨ _))

def envelopeAddressedTo (env : MessageEnvelope) (thisNode : NodeId) : Prop :=
  env.destinationId = thisNode ∨ env.destinationId = nodeIdInvalid

instance (env : MessageEnvelope) (thisNode : NodeId) : Decidable (envelopeAddressedTo env thisNode) :=
  inferInstanceAs (Decidable (_ ∨ _))

def envelopeNeedsAckResponse (env : MessageEnvelope) : Prop :=
  env.reliabilityClass = .reliableAck ∨ env.reliabilityClass = .reliableRetry

instance (env : MessageEnvelope) : Decidable (envelopeNeedsAckResponse env) :=
  inferInstanceAs (Decidable (_ ∨ _))

/-- The acknowledgement of `original`, sent by `myId`. -/
def envelopeMakeAck (original : MessageEnvelope) (myId : NodeId) (nowUs : UInt64) :
    MessageEnvelope :=
  { envelopeInit with
    messageType := .ack
    messageId := original.messageId
    timestampUs := nowUs
    sourceId := myId
    destinationId := original.sourceId
    priority := original.priority
    reliabilityClass := .bestEffort
    expiryTimeUs := 0
    payloadLength := 0 }

theorem not_isControl_of_isData {env : MessageEnvelope} (h : envelopeIsData env) :
    ¬ envelopeIsControl env := by
  unfold envelopeIsData at h
  simp [envelopeIsControl, h]

end MessageEngine
