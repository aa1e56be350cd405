import MessageEngine.Laws.Serializer.Words

/-!
# The frame: what is written and what is read

`encode` is the byte string of an envelope and `Accepts` the grammar of a frame, both stated
without reference to the code.

## What is proved

- `serialize_eq`: a successful serialization stores `encode env` at the front of the buffer;
- `deserialize_eq`: deserialization decides `Accepts` and answers `decode`, whatever the bytes.
-/

namespace MessageEngine

open Outcome Bytes

namespace Serializer

variable {buf : List UInt8} {offset : Nat}

/-! ## What is written -/

/-- A fragment count of zero goes out as one. -/
def wireFragCount (env : MessageEnvelope) : UInt8 :=
  if env.fragmentCount = 0 then 1 else env.fragmentCount

/-- A total length of zero goes out as the payload length. -/
def wireTotalLength (env : MessageEnvelope) : UInt16 :=
  if env.totalPayloadLength = 0 then env.payloadLength.toUInt16 else env.totalPayloadLength

/-- The fields of the header: their widths in bytes and the numbers they spell. -/
def headerFields (env : MessageEnvelope) : List (Nat × Nat) :=
  [(1, env.messageType.toByte.toNat), (1, env.reliabilityClass.toByte.toNat),
   (1, env.priority.toNat), (1, protoVersion.toNat), (8, env.messageId.toNat),
   (8, env.timestampUs.toNat), (4, env.sourceId.toNat), (4, env.destinationId.toNat),
   (8, env.expiryTimeUs.toNat), (4, env.payloadLength.toNat),
   (4, (protoMagic.toUInt32 <<< 16).toNat), (4, env.sequenceNum.toNat),
   (1, env.fragmentIndex.toNat), (1, (wireFragCount env).toNat), (2, (wireTotalLength env).toNat)]

/-- The header bytes of an envelope. -/
def headerBytes (env : MessageEnvelope) : List UInt8 :=
  (headerFields env).flatMap fun f => toBigEndian f.1 f.2

/-- The payload bytes in use. -/
def payloadBytes (env : MessageEnvelope) : List UInt8 :=
  env.payload.toList.take env.payloadLength.toNat

/-- The whole frame of an envelope. -/
def encode (env : MessageEnvelope) : List UInt8 := headerBytes env ++ payloadBytes env

@[simp] theorem length_headerBytes (env : MessageEnvelope) :
    (headerBytes env).length = wireHeaderSize := by
  simp [headerBytes, headerFields]

theorem length_payloadBytes {env : MessageEnvelope} (valid : envelopeValid env) :
    (payloadBytes env).length = env.payloadLength.toNat := by
  have hle := valid.2.1
  simp only [payloadBytes, List.length_take, Vector.length_toList]
  omega

theorem length_encode {env : MessageEnvelope} (valid : envelopeValid env) :
    (encode env).length = wireHeaderSize + env.payloadLength.toNat := by
  rw [encode, List.length_append, length_headerBytes, length_payloadBytes valid]

section After

variable {pre : List UInt8} (hoff : pre.length = offset)
include hoff

private theorem overwrite_after {bs : List UInt8} (h : offset + bs.length ≤ buf.length) :
    overwrite (overwrite buf 0 pre) offset bs = overwrite buf 0 (pre ++ bs) := by
  have := overwrite_overwrite buf 0 pre bs (by omega)
  rwa [Nat.zero_add, hoff] at this

private theorem length_after (h : offset ≤ buf.length) : (overwrite buf 0 pre).length = buf.length :=
  length_overwrite (by omega)

theorem writeU8_after (val : UInt8) (h : offset + 1 ≤ buf.length) (small : offset ≤ 52) :
    writeU8 (overwrite buf 0 pre) offset val =
      .ok (overwrite buf 0 (pre ++ toBigEndian 1 val.toNat), offset + 1) := by
  rw [writeU8_eq val (by rw [length_after hoff (by omega)]; exact h) (by omega),
    overwrite_after hoff (by rw [length_toBigEndian]; exact h)]

theorem writeU16_after (val : UInt16) (h : offset + 2 ≤ buf.length) (small : offset ≤ 52) :
    writeU16 (overwrite buf 0 pre) offset val =
      .ok (overwrite buf 0 (pre ++ toBigEndian 2 val.toNat), offset + 2) := by
  rw [writeU16_eq val (by rw [length_after hoff (by omega)]; exact h) (by omega),
    overwrite_after hoff (by rw [length_toBigEndian]; exact h)]

theorem writeU32_after (val : UInt32) (h : offset + 4 ≤ buf.length) (small : offset ≤ 52) :
    writeU32 (overwrite buf 0 pre) offset val =
      .ok (overwrite buf 0 (pre ++ toBigEndian 4 val.toNat), offset + 4) := by
  rw [writeU32_eq val (by rw [length_after hoff (by omega)]; exact h) (by omega),
    overwrite_after hoff (by rw [length_toBigEndian]; exact h)]

theorem writeU64_after (val : UInt64) (h : offset + 8 ≤ buf.length) (small : offset ≤ 52) :
    writeU64 (overwrite buf 0 pre) offset val =
      .ok (overwrite buf 0 (pre ++ toBigEndian 8 val.toNat), offset + 8) := by
  rw [writeU64_eq val (by rw [length_after hoff (by omega)]; exact h) (by omega),
    overwrite_after hoff (by rw [length_toBigEndian]; exact h)]

end After

/-- The header as the serializer builds it, field after field. -/
theorem header_eq (env : MessageEnvelope) :
    headerBytes env =
      [] ++ toBigEndian 1 env.messageType.toByte.toNat ++
        toBigEndian 1 env.reliabilityClass.toByte.toNat ++ toBigEndian 1 env.priority.toNat ++
        toBigEndian 1 protoVersion.toNat ++ toBigEndian 8 env.messageId.toNat ++
        toBigEndian 8 env.timestampUs.toNat ++ toBigEndian 4 env.sourceId.toNat ++
        toBigEndian 4 env.destinationId.toNat ++ toBigEndian 8 env.expiryTimeUs.toNat ++
        toBigEndian 4 env.payloadLength.toNat ++ toBigEndian 4 (protoMagic.toUInt32 <<< 16).toNat ++
        toBigEndian 4 env.sequenceNum.toNat ++ toBigEndian 1 env.fragmentIndex.toNat ++
        toBigEndian 1 (wireFragCount env).toNat ++ toBigEndian 2 (wireTotalLength env).toNat := by
  simp only [headerBytes, headerFields, List.flatMap_cons, List.flatMap_nil, List.nil_append,
    List.append_nil, List.append_assoc]

/-- Serialization of a valid envelope into a buffer that fits stores the frame at the front. -/
theorem serialize_eq {env : MessageEnvelope} {bufLen : UInt32} (valid : envelopeValid env)
    (room : wireHeaderSize + env.payloadLength.toNat ≤ bufLen.toNat)
    (fits : bufLen.toNat ≤ buf.length) :
    serialize env buf bufLen =
      .ok (.ok (overwrite buf 0 (encode env), wireHeaderSize + env.payloadLength.toNat)) := by
  have hle : env.payloadLength.toNat ≤ 4096 := valid.2.1
  have hlen : 52 + env.payloadLength.toNat ≤ bufLen.toNat := room
  have hbuf : buf = overwrite buf 0 [] := by simp [overwrite]
  rw [serialize, if_neg (by simpa using valid), if_neg (by unfold wireHeaderSize; omega),
    if_neg (by unfold wireHeaderSize; omega)]
  conv_lhs => rw [hbuf]
  dsimp only
  rw [writeU8_after (by simp) _ (by omega) (by omega), ok_bind]
  dsimp only
  rw [writeU8_after (by simp) _ (by omega) (by omega), ok_bind]
  dsimp only
  rw [writeU8_after (by simp) _ (by omega) (by omega), ok_bind]
  dsimp only
  rw [writeU8_after (by simp) _ (by omega) (by omega), ok_bind]
  dsimp only
  rw [writeU64_after (by simp) _ (by omega) (by omega), ok_bind]
  dsimp only
  rw [writeU64_after (by simp) _ (by omega) (by omega), ok_bind]
  dsimp only
  rw [writeU32_after (by simp) _ (by omega) (by omega), ok_bind]
  dsimp only
  rw [writeU32_after (by simp) _ (by omega) (by omega), ok_bind]
  dsimp only
  rw [writeU64_after (by simp) _ (by omega) (by omega), ok_bind]
  dsimp only
  rw [writeU32_after (by simp) _ (by omega) (by omega), ok_bind]
  dsimp only
  rw [writeU32_after (by simp) _ (by omega) (by omega), ok_bind]
  dsimp only
  rw [if_neg (by omega)]
  rw [writeU32_after (by simp) _ (by omega) (by omega), ok_bind]
  dsimp only
  rw [writeU8_after (by simp) _ (by omega) (by omega), ok_bind]
  dsimp only
  rw [writeU8_after (by simp) _ (by omega) (by omega), ok_bind]
  dsimp only
  rw [writeU16_after (by simp) _ (by omega) (by omega), ok_bind]
  dsimp only
  have hdr := header_eq env
  simp only [wireFragCount, wireTotalLength] at hdr
  simp only [← hdr, Nat.reduceAdd, ensure_pos trivial, ensure_pos hlen, ok_bind]
  split
  case isTrue hpos =>
    rw [storePayload, if_pos ⟨hle, by rw [length_after (length_headerBytes env) (by omega)]; omega⟩,
      ok_bind, ← payloadBytes,
      overwrite_after (length_headerBytes env) (by rw [length_payloadBytes valid]; omega)]
    rfl
  case isFalse hzero =>
    have hnil : payloadBytes env = [] := by
      apply List.eq_nil_of_length_eq_zero
      rw [length_payloadBytes valid]
      omega
    rw [pure_eq_ok, ok_bind, encode, hnil, List.append_nil]
    rfl

/-! ## What is read -/

/-- The grammar of an accepted frame, field by field at its offset. -/
structure Accepts (buf : List UInt8) (bufLen : UInt32) : Prop where
  headerPresent : wireHeaderSize ≤ bufLen.toNat
  messageType : fieldAt buf 0 1 ≤ 4
  reliabilityClass : fieldAt buf 1 1 ≤ 2
  version : fieldAt buf 3 1 = protoVersion.toNat
  sourceId : fieldAt buf 20 4 ≠ 0
  magic : fieldAt buf 40 4 = protoMagic.toNat * 2 ^ 16
  fragmentCount : 1 ≤ fieldAt buf 49 1 ∧ fieldAt buf 49 1 ≤ fragMaxCount
  fragmentIndex : fieldAt buf 48 1 < fieldAt buf 49 1
  totalLength : fieldAt buf 50 2 ≤ msgMaxPayloadBytes
  payloadLength : fieldAt buf 36 4 ≤ msgMaxPayloadBytes
  payloadPresent : wireHeaderSize + fieldAt buf 36 4 ≤ bufLen.toNat

instance (buf : List UInt8) (bufLen : UInt32) : Decidable (Accepts buf bufLen) :=
  decidable_of_iff
    (wireHeaderSize ≤ bufLen.toNat ∧ fieldAt buf 0 1 ≤ 4 ∧ fieldAt buf 1 1 ≤ 2 ∧
      fieldAt buf 3 1 = protoVersion.toNat ∧ fieldAt buf 20 4 ≠ 0 ∧
      fieldAt buf 40 4 = protoMagic.toNat * 2 ^ 16 ∧
      (1 ≤ fieldAt buf 49 1 ∧ fieldAt buf 49 1 ≤ fragMaxCount) ∧
      fieldAt buf 48 1 < fieldAt buf 49 1 ∧ fieldAt buf 50 2 ≤ msgMaxPayloadBytes ∧
      fieldAt buf 36 4 ≤ msgMaxPayloadBytes ∧ wireHeaderSize + fieldAt buf 36 4 ≤ bufLen.toNat)
    ⟨fun ⟨a, b, c, d, e, f, g, h, i, j, k⟩ => ⟨a, b, c, d, e, f, g, h, i, j, k⟩,
      fun h => ⟨h.1, h.2, h.3, h.4, h.5, h.6, h.7, h.8, h.9, h.10, h.11⟩⟩

/-- The envelope an accepted frame stands for. Payload bytes past the payload length are zero. -/
def decode (buf : List UInt8) : MessageEnvelope where
  messageType := .ofByte (UInt8.ofNat (fieldAt buf 0 1))
  reliabilityClass := .ofByte (UInt8.ofNat (fieldAt buf 1 1))
  priority := UInt8.ofNat (fieldAt buf 2 1)
  messageId := UInt64.ofNat (fieldAt buf 4 8)
  timestampUs := UInt64.ofNat (fieldAt buf 12 8)
  sourceId := UInt32.ofNat (fieldAt buf 20 4)
  destinationId := UInt32.ofNat (fieldAt buf 24 4)
  expiryTimeUs := UInt64.ofNat (fieldAt buf 28 8)
  payloadLength := UInt32.ofNat (fieldAt buf 36 4)
  sequenceNum := UInt32.ofNat (fieldAt buf 44 4)
  fragmentIndex := UInt8.ofNat (fieldAt buf 48 1)
  fragmentCount := UInt8.ofNat (fieldAt buf 49 1)
  totalPayloadLength := UInt16.ofNat (fieldAt buf 50 2)
  payload := Vector.ofFn fun i : Fin msgMaxPayloadBytes =>
    if (i : Nat) < fieldAt buf 36 4 then buf.getD (wireHeaderSize + i) 0 else 0

section Decode

variable {bufLen : UInt32}

/-- The verdict on a frame outside the grammar. -/
private theorem refused (bad : ¬ Accepts buf bufLen) :
    (pure (.error .errInvalid) : Checked Reply) =
      .ok (if Accepts buf bufLen then .ok (decode buf) else .error .errInvalid) := by
  rw [if_neg bad]
  rfl

theorem toNat_field8 {n : Nat} (h : n < 256 ^ 1) : (UInt8.ofNat n).toNat = n := by
  rw [UInt8.toNat_ofNat']
  exact Nat.mod_eq_of_lt (by simpa using h)

theorem toNat_field16 {n : Nat} (h : n < 256 ^ 2) : (UInt16.ofNat n).toNat = n := by
  rw [UInt16.toNat_ofNat']
  exact Nat.mod_eq_of_lt (by simpa using h)

theorem toNat_field32 {n : Nat} (h : n < 256 ^ 4) : (UInt32.ofNat n).toNat = n := by
  rw [UInt32.toNat_ofNat']
  exact Nat.mod_eq_of_lt (by simpa using h)

theorem toNat_field64 {n : Nat} (h : n < 256 ^ 8) : (UInt64.ofNat n).toNat = n := by
  rw [UInt64.toNat_ofNat']
  exact Nat.mod_eq_of_lt (by simpa using h)

/-- The check of the fragment fields, on the numbers they spell. -/
private theorem fragmentHeaderValid_iff (env : MessageEnvelope) :
    fragmentHeaderValid env = true ↔
      (1 ≤ env.fragmentCount.toNat ∧ env.fragmentCount.toNat ≤ fragMaxCount) ∧
        env.fragmentIndex.toNat < env.fragmentCount.toNat ∧
        env.totalPayloadLength.toNat ≤ msgMaxPayloadBytes := by
  have hzero : env.fragmentCount = 0 ↔ env.fragmentCount.toNat = 0 := by
    rw [← UInt8.toNat_inj]
    rfl
  unfold fragmentHeaderValid
  split
  · simp_all
  · split
    · rename_i hge
      have := UInt8.le_iff_toNat_le.mp hge
      simp only [Bool.false_eq_true, false_iff]
      omega
    · rename_i hlt
      have := UInt8.not_le.mp hlt
      rw [UInt8.lt_iff_toNat_lt] at this
      split
      · simp only [Bool.false_eq_true, false_iff]
        omega
      · simp only [decide_eq_true_eq]
        omega

/-- The check of the payload length, once the header is known to be there. -/
private theorem payloadLengthValid_eq {payloadLength : UInt32} (header : wireHeaderSize ≤ bufLen.toNat) :
    payloadLengthValid payloadLength bufLen = .ok (decide
      (payloadLength.toNat ≤ msgMaxPayloadBytes ∧
        wireHeaderSize + payloadLength.toNat ≤ bufLen.toNat)) := by
  simp only [payloadLengthValid, ensure_pos header, ok_bind]
  split
  · rename_i hgt
    simp only [pure_eq_ok, Except.ok.injEq]
    symm
    rw [decide_eq_false_iff_not]
    omega
  · rename_i hle
    rw [if_neg (by unfold wireHeaderSize msgMaxPayloadBytes at *; omega), pure_eq_ok]
    congr 1
    rw [decide_eq_decide]
    omega

private theorem ofByte_ne_invalid {raw : UInt8} (h : raw.toNat ≤ 4) :
    MessageType.ofByte raw ≠ .invalid := by
  have hcases : raw = 0 ∨ raw = 1 ∨ raw = 2 ∨ raw = 3 ∨ raw = 4 := by
    simp only [← UInt8.toNat_inj, UInt8.reduceToNat]
    omega
  rcases hcases with rfl | rfl | rfl | rfl | rfl <;> decide

private theorem init_payload (i : Fin msgMaxPayloadBytes) : envelopeInit.payload[i] = 0 := by
  simp [envelopeInit]

/-- An accepted frame decodes to a valid envelope. -/
theorem valid_decode (a : Accepts buf bufLen) (fits : bufLen.toNat ≤ buf.length) :
    envelopeValid (decode buf) := by
  have hlen : 52 ≤ buf.length := Nat.le_trans a.headerPresent fits
  have f0 : (UInt8.ofNat (fieldAt buf 0 1)).toNat = fieldAt buf 0 1 :=
    toNat_field8 (fieldAt_lt (by omega))
  have f20 : (UInt32.ofNat (fieldAt buf 20 4)).toNat = fieldAt buf 20 4 :=
    toNat_field32 (fieldAt_lt (by omega))
  have f36 : (UInt32.ofNat (fieldAt buf 36 4)).toNat = fieldAt buf 36 4 :=
    toNat_field32 (fieldAt_lt (by omega))
  refine ⟨ofByte_ne_invalid (by rw [f0]; exact a.messageType), ?_, ?_⟩
  · rw [decode, f36]
    exact a.payloadLength
  · intro h
    apply a.sourceId
    rw [← f20, show UInt32.ofNat (fieldAt buf 20 4) = nodeIdInvalid from h]
    rfl

/-- Reading a buffer: it decides the grammar, and an accepted frame is decoded. -/
theorem deserialize_eq (fits : bufLen.toNat ≤ buf.length) :
    deserialize buf bufLen =
      .ok (if Accepts buf bufLen then .ok (decode buf) else .error .errInvalid) := by
  by_cases header : wireHeaderSize ≤ bufLen.toNat
  case neg =>
    rw [deserialize, if_pos (by omega)]
    exact refused fun a => header a.headerPresent
  have hlen : 52 ≤ buf.length := Nat.le_trans header fits
  rw [deserialize, if_neg (by omega)]
  simp only []
  rw [readU8_eq (by omega) (by omega), ok_bind,
    readU8_eq (by omega) (by omega), ok_bind,
    readU8_eq (by omega) (by omega), ok_bind,
    readU8_eq (by omega) (by omega), ok_bind,
    readU64_eq (by omega) (by omega), ok_bind,
    readU64_eq (by omega) (by omega), ok_bind,
    readU32_eq (by omega) (by omega), ok_bind,
    readU32_eq (by omega) (by omega), ok_bind,
    readU64_eq (by omega) (by omega), ok_bind,
    readU32_eq (by omega) (by omega), ok_bind,
    readU32_eq (by omega) (by omega), ok_bind,
    readU32_eq (by omega) (by omega), ok_bind,
    readU8_eq (by omega) (by omega), ok_bind,
    readU8_eq (by omega) (by omega), ok_bind,
    readU16_eq (by omega) (by omega), ok_bind]
  simp only [Nat.reduceAdd]
  have f0 : (UInt8.ofNat (fieldAt buf 0 1)).toNat = fieldAt buf 0 1 :=
    toNat_field8 (fieldAt_lt (by omega))
  have f1 : (UInt8.ofNat (fieldAt buf 1 1)).toNat = fieldAt buf 1 1 :=
    toNat_field8 (fieldAt_lt (by omega))
  have f3 : (UInt8.ofNat (fieldAt buf 3 1)).toNat = fieldAt buf 3 1 :=
    toNat_field8 (fieldAt_lt (by omega))
  have f20 : (UInt32.ofNat (fieldAt buf 20 4)).toNat = fieldAt buf 20 4 :=
    toNat_field32 (fieldAt_lt (by omega))
  have f36 : (UInt32.ofNat (fieldAt buf 36 4)).toNat = fieldAt buf 36 4 :=
    toNat_field32 (fieldAt_lt (by omega))
  have f40 : (UInt32.ofNat (fieldAt buf 40 4)).toNat = fieldAt buf 40 4 :=
    toNat_field32 (fieldAt_lt (by omega))
  have f48 : (UInt8.ofNat (fieldAt buf 48 1)).toNat = fieldAt buf 48 1 :=
    toNat_field8 (fieldAt_lt (by omega))
  have f49 : (UInt8.ofNat (fieldAt buf 49 1)).toNat = fieldAt buf 49 1 :=
    toNat_field8 (fieldAt_lt (by omega))
  have f50 : (UInt16.ofNat (fieldAt buf 50 2)).toNat = fieldAt buf 50 2 :=
    toNat_field16 (fieldAt_lt (by omega))
  by_cases hmt : fieldAt buf 0 1 ≤ 4
  case neg =>
    rw [if_pos (by simpa [messageTypeInRange, UInt8.le_iff_toNat_le, f0] using hmt)]
    exact refused fun a => hmt a.messageType
  rw [if_neg (by simpa [messageTypeInRange, UInt8.le_iff_toNat_le, f0] using hmt)]
  by_cases hrc : fieldAt buf 1 1 ≤ 2
  case neg =>
    rw [if_pos (by simpa [reliabilityClassInRange, UInt8.le_iff_toNat_le, f1] using hrc)]
    exact refused fun a => hrc a.reliabilityClass
  rw [if_neg (by simpa [reliabilityClassInRange, UInt8.le_iff_toNat_le, f1] using hrc)]
  by_cases hver : fieldAt buf 3 1 = protoVersion.toNat
  case neg =>
    rw [if_pos (fun h => hver (by rw [← f3, h]))]
    exact refused fun a => hver a.version
  rw [if_neg (not_not.mpr (UInt8.toNat_inj.mp (by rw [f3, hver])))]
  by_cases hsrc : fieldAt buf 20 4 = 0
  case pos =>
    rw [if_pos (UInt32.toNat_inj.mp (by rw [f20, hsrc]; rfl))]
    exact refused fun a => a.sourceId hsrc
  have hsrc' : UInt32.ofNat (fieldAt buf 20 4) ≠ nodeIdInvalid :=
    fun h => hsrc (by rw [← f20, h]; rfl)
  rw [if_neg hsrc']
  by_cases hmagic : fieldAt buf 40 4 = protoMagic.toNat * 2 ^ 16
  case neg =>
    rw [if_pos (fun h => hmagic (by rw [← f40, h]; rfl))]
    exact refused fun a => hmagic a.magic
  rw [if_neg (not_not.mpr (UInt32.toNat_inj.mp (by rw [f40, hmagic]; rfl)))]
  by_cases hfrag : (1 ≤ fieldAt buf 49 1 ∧ fieldAt buf 49 1 ≤ fragMaxCount) ∧
      fieldAt buf 48 1 < fieldAt buf 49 1 ∧ fieldAt buf 50 2 ≤ msgMaxPayloadBytes
  case neg =>
    rw [if_pos (by rwa [Bool.not_eq_true', ← Bool.not_eq_true, fragmentHeaderValid_iff, f48, f49, f50])]
    exact refused fun a => hfrag ⟨a.fragmentCount, a.fragmentIndex, a.totalLength⟩
  rw [if_neg (by rwa [Bool.not_eq_true', Bool.not_eq_false, fragmentHeaderValid_iff, f48, f49, f50]),
    payloadLengthValid_eq header]
  simp only [ensure_pos trivial, ok_bind, f36]
  by_cases hpl : fieldAt buf 36 4 ≤ msgMaxPayloadBytes ∧
      wireHeaderSize + fieldAt buf 36 4 ≤ bufLen.toNat
  case neg =>
    rw [if_pos (by rwa [Bool.not_eq_true', decide_eq_false_iff_not])]
    exact refused fun a => hpl ⟨a.payloadLength, a.payloadPresent⟩
  rw [if_neg (by rwa [Bool.not_eq_true', Bool.not_eq_false, decide_eq_true_eq])]
  have accepts : Accepts buf bufLen :=
    { headerPresent := header
      messageType := hmt
      reliabilityClass := hrc
      version := hver
      sourceId := hsrc
      magic := hmagic
      fragmentCount := hfrag.1
      fragmentIndex := hfrag.2.1
      totalLength := hfrag.2.2
      payloadLength := hpl.1
      payloadPresent := hpl.2 }
  rw [if_pos accepts]
  have valid := valid_decode accepts fits
  split
  case isTrue hpos =>
    have hload : loadPayload envelopeInit.payload buf 52 (fieldAt buf 36 4) =
        .ok (decode buf).payload := by
      have hroom : 52 + fieldAt buf 36 4 ≤ buf.length := Nat.le_trans hpl.2 fits
      rw [loadPayload, dif_pos ⟨hpl.1, hroom⟩]
      refine congrArg Except.ok (Vector.ext fun j hj => ?_)
      rw [getElem_blit hj]
      simp only [length_slice hroom, Nat.zero_le, true_and, Nat.zero_add, Nat.sub_zero, decode,
        Vector.getElem_ofFn]
      split
      case isTrue hin =>
        simp only [slice, List.get_eq_getElem, List.getElem_take, List.getElem_drop]
        exact (List.getD_eq_getElem _ _ (by omega)).symm
      case isFalse hout => exact init_payload ⟨j, hj⟩
    rw [hload, ok_bind]
    exact ensure_bind_eq_ok.mpr ⟨valid, rfl⟩
  case isFalse hzero =>
    have hnone : fieldAt buf 36 4 = 0 := by omega
    have hload : envelopeInit.payload = (decode buf).payload := by
      apply Vector.ext
      intro i hi
      simp only [decode, hnone, Vector.getElem_ofFn, Nat.not_lt_zero, if_false]
      exact init_payload ⟨i, hi⟩
    rw [hload, pure_eq_ok, ok_bind]
    exact ensure_bind_eq_ok.mpr ⟨valid, rfl⟩

end Decode

end Serializer

end MessageEngine
