import MessageEngine.Laws.Serializer.Frame

/-!
# Round trips of the wire format

Both directions. Writing and reading gives the envelope back (`deserialize_serialize`); reading and
writing gives the bytes back (`deserialize_exact`), which a codec that drops or normalises a field
would fail.
-/

namespace MessageEngine

open Outcome Bytes

namespace Serializer

variable {buf : List UInt8} {offset : Nat}

/-! ## Written bytes are read back -/

/-- Field `k` of a written header reads back as the number it spells. -/
private theorem fieldAt_headerBytes {env : MessageEnvelope} {w v off : Nat} (rest : List UInt8)
    (k : Nat) (hk : (headerFields env)[k]? = some (w, v))
    (hoff : (((headerFields env).take k).map Prod.fst).sum = off) (small : v < 256 ^ w) :
    fieldAt (headerBytes env ++ rest) off w = v := by
  rw [fieldAt, headerBytes, ← hoff]
  rw [← ofBigEndian_toBigEndian_of_lt small]
  congr 1
  clear hoff small
  generalize headerFields env = fields at hk ⊢
  -- The induction is on the fields in front of field `k`.
  induction fields generalizing k with
  | nil => cases hk
  | cons f fields ih =>
    cases k with
    | zero =>
      cases hk
      rw [List.flatMap_cons, List.append_assoc]
      exact slice_append_exact (length_toBigEndian w v)
    | succ k =>
      rw [List.flatMap_cons, List.append_assoc, List.take_succ_cons, List.map_cons, List.sum_cons,
        slice_append_right (length_toBigEndian f.1 f.2)]
      exact ih k hk

/-- The fields of a frame that starts with the header of `env`. -/
structure Reads (env : MessageEnvelope) (buf : List UInt8) : Prop where
  messageType : fieldAt buf 0 1 = env.messageType.toByte.toNat
  reliabilityClass : fieldAt buf 1 1 = env.reliabilityClass.toByte.toNat
  priority : fieldAt buf 2 1 = env.priority.toNat
  version : fieldAt buf 3 1 = protoVersion.toNat
  messageId : fieldAt buf 4 8 = env.messageId.toNat
  timestampUs : fieldAt buf 12 8 = env.timestampUs.toNat
  sourceId : fieldAt buf 20 4 = env.sourceId.toNat
  destinationId : fieldAt buf 24 4 = env.destinationId.toNat
  expiryTimeUs : fieldAt buf 28 8 = env.expiryTimeUs.toNat
  payloadLength : fieldAt buf 36 4 = env.payloadLength.toNat
  magic : fieldAt buf 40 4 = (protoMagic.toUInt32 <<< 16).toNat
  sequenceNum : fieldAt buf 44 4 = env.sequenceNum.toNat
  fragmentIndex : fieldAt buf 48 1 = env.fragmentIndex.toNat
  fragmentCount : fieldAt buf 49 1 = (wireFragCount env).toNat
  totalLength : fieldAt buf 50 2 = (wireTotalLength env).toNat

private theorem lt8 (x : UInt8) : x.toNat < 256 ^ 1 := by simpa using x.toNat_lt

private theorem lt16 (x : UInt16) : x.toNat < 256 ^ 2 := by simpa using x.toNat_lt

private theorem lt32 (x : UInt32) : x.toNat < 256 ^ 4 := by simpa using x.toNat_lt

private theorem lt64 (x : UInt64) : x.toNat < 256 ^ 8 := by simpa using x.toNat_lt

theorem reads_headerBytes (env : MessageEnvelope) (rest : List UInt8) :
    Reads env (headerBytes env ++ rest) where
  messageType := fieldAt_headerBytes rest 0 rfl (by simp [headerFields]) (lt8 env.messageType.toByte)
  reliabilityClass := fieldAt_headerBytes rest 1 rfl (by simp [headerFields]) (lt8 env.reliabilityClass.toByte)
  priority := fieldAt_headerBytes rest 2 rfl (by simp [headerFields]) (lt8 env.priority)
  version := fieldAt_headerBytes rest 3 rfl (by simp [headerFields]) (lt8 protoVersion)
  messageId := fieldAt_headerBytes rest 4 rfl (by simp [headerFields]) (lt64 env.messageId)
  timestampUs := fieldAt_headerBytes rest 5 rfl (by simp [headerFields]) (lt64 env.timestampUs)
  sourceId := fieldAt_headerBytes rest 6 rfl (by simp [headerFields]) (lt32 env.sourceId)
  destinationId := fieldAt_headerBytes rest 7 rfl (by simp [headerFields]) (lt32 env.destinationId)
  expiryTimeUs := fieldAt_headerBytes rest 8 rfl (by simp [headerFields]) (lt64 env.expiryTimeUs)
  payloadLength := fieldAt_headerBytes rest 9 rfl (by simp [headerFields]) (lt32 env.payloadLength)
  magic := fieldAt_headerBytes rest 10 rfl (by simp [headerFields]) (lt32 (protoMagic.toUInt32 <<< 16))
  sequenceNum := fieldAt_headerBytes rest 11 rfl (by simp [headerFields]) (lt32 env.sequenceNum)
  fragmentIndex := fieldAt_headerBytes rest 12 rfl (by simp [headerFields]) (lt8 env.fragmentIndex)
  fragmentCount := fieldAt_headerBytes rest 13 rfl (by simp [headerFields]) (lt8 (wireFragCount env))
  totalLength := fieldAt_headerBytes rest 14 rfl (by simp [headerFields]) (lt16 (wireTotalLength env))

theorem messageType_ofByte_toByte (t : MessageType) : MessageType.ofByte t.toByte = t := by
  cases t <;> rfl

theorem reliabilityClass_ofByte_toByte (c : ReliabilityClass) :
    ReliabilityClass.ofByte c.toByte = c := by
  cases c <;> rfl

/-- The envelope that comes back: the two legacy zeros normalised, the rest of the header kept. -/
def normalized (env : MessageEnvelope) (payload : Vector UInt8 msgMaxPayloadBytes) :
    MessageEnvelope :=
  { env with
    fragmentCount := wireFragCount env
    totalPayloadLength := wireTotalLength env
    payload }

theorem decode_of_reads {env : MessageEnvelope} (r : Reads env buf) :
    decode buf = normalized env (decode buf).payload := by
  simp only [decode, normalized, r.messageType, r.reliabilityClass, r.priority, r.messageId,
    r.timestampUs, r.sourceId, r.destinationId, r.expiryTimeUs, r.payloadLength, r.sequenceNum,
    r.fragmentIndex, r.fragmentCount, r.totalLength, UInt8.ofNat_toNat, UInt16.ofNat_toNat,
    UInt32.ofNat_toNat, UInt64.ofNat_toNat, messageType_ofByte_toByte,
    reliabilityClass_ofByte_toByte]

/-- The payload bytes in use of a decoded frame are the bytes behind the header. -/
theorem payload_decode {n : Nat} (hn : fieldAt buf 36 4 = n) (small : n ≤ msgMaxPayloadBytes)
    (fits : wireHeaderSize + n ≤ buf.length) :
    (decode buf).payload.toList.take n = slice buf wireHeaderSize n := by
  apply List.ext_getElem
  · rw [length_slice fits, List.length_take, Vector.length_toList]
    exact Nat.min_eq_left small
  · intro k hk hk'
    have hkn : k < n := by
      rw [length_slice fits] at hk'
      exact hk'
    simp only [decode, hn, List.getElem_take, Vector.getElem_toList, Vector.getElem_ofFn, if_pos hkn,
      slice, List.getElem_drop]
    exact List.getD_eq_getElem _ _ (by omega)

/-- What the header of a legal envelope is accepted for. -/
theorem accepts_of_reads {env : MessageEnvelope} {bufLen : UInt32} (r : Reads env buf)
    (valid : envelopeValid env) (count : env.fragmentCount.toNat ≤ fragMaxCount)
    (index : env.fragmentIndex.toNat < max env.fragmentCount.toNat 1)
    (total : env.totalPayloadLength.toNat ≤ msgMaxPayloadBytes)
    (room : wireHeaderSize + env.payloadLength.toNat ≤ bufLen.toNat) : Accepts buf bufLen := by
  have hcount : (wireFragCount env).toNat = max env.fragmentCount.toNat 1 := by
    unfold wireFragCount
    split
    case isTrue h => rw [h]; rfl
    case isFalse h =>
      have : env.fragmentCount.toNat ≠ 0 := fun h0 => h (UInt8.toNat_inj.mp h0)
      omega
  have htotal : (wireTotalLength env).toNat ≤ msgMaxPayloadBytes := by
    unfold wireTotalLength
    split
    case isTrue h =>
      rw [UInt32.toNat_toUInt16]
      exact Nat.le_trans (Nat.mod_le _ _) valid.2.1
    case isFalse h => exact total
  refine ⟨by omega, ?_, ?_, r.version, ?_, r.magic, ?_, ?_, ?_, ?_, ?_⟩
  · rw [r.messageType]
    have := valid.1
    revert this
    cases env.messageType <;> decide
  · rw [r.reliabilityClass]
    cases env.reliabilityClass <;> decide
  · rw [r.sourceId]
    exact fun h => valid.2.2 (UInt32.toNat_inj.mp h)
  · rw [r.fragmentCount, hcount]
    unfold fragMaxCount at *
    omega
  · rw [r.fragmentIndex, r.fragmentCount, hcount]
    exact index
  · rw [r.totalLength]
    exact htotal
  · rw [r.payloadLength]
    exact valid.2.1
  · rw [r.payloadLength]
    exact room

/-- Serializing an envelope and reading the bytes back, whatever follows them, gives the envelope
again. -/
theorem deserialize_serialize (env : MessageEnvelope) (buf : List UInt8) (bufLen : UInt32)
    (valid : envelopeValid env) (count : env.fragmentCount.toNat ≤ fragMaxCount)
    (index : env.fragmentIndex.toNat < max env.fragmentCount.toNat 1)
    (total : env.totalPayloadLength.toNat ≤ msgMaxPayloadBytes)
    (room : wireHeaderSize + env.payloadLength.toNat ≤ bufLen.toNat)
    (fits : bufLen.toNat ≤ buf.length) :
    ∃ frame, frame.length = wireHeaderSize + env.payloadLength.toNat ∧
      serialize env buf bufLen = .ok (.ok (frame ++ buf.drop frame.length, frame.length)) ∧
      ∀ (trailing : List UInt8) (len : UInt32), len.toNat = (frame ++ trailing).length →
        ∃ payload : Vector UInt8 msgMaxPayloadBytes,
          deserialize (frame ++ trailing) len = .ok (.ok
            { env with
              fragmentCount := if env.fragmentCount = 0 then 1 else env.fragmentCount
              totalPayloadLength := if env.totalPayloadLength = 0 then env.payloadLength.toUInt16
                else env.totalPayloadLength
              payload }) ∧
          payload.toList.take env.payloadLength.toNat =
            env.payload.toList.take env.payloadLength.toNat := by
  have hlen := length_encode valid
  refine ⟨encode env, hlen, ?_, ?_⟩
  · rw [serialize_eq valid room fits, ← hlen]
    simp [overwrite]
  · intro trailing len hend
    have hroom : wireHeaderSize + env.payloadLength.toNat ≤ (encode env ++ trailing).length := by
      rw [List.length_append]
      omega
    have r : Reads env (encode env ++ trailing) := by
      rw [encode, List.append_assoc]
      exact reads_headerBytes env _
    have accepted := accepts_of_reads r valid count index total (by rw [hend]; exact hroom)
    refine ⟨(decode (encode env ++ trailing)).payload, ?_, ?_⟩
    · rw [deserialize_eq (by omega), if_pos accepted, decode_of_reads r]
      rfl
    · rw [payload_decode r.payloadLength valid.2.1 hroom, encode, List.append_assoc,
        ← Nat.add_zero wireHeaderSize, slice_append_right (length_headerBytes env),
        slice_append_exact (length_payloadBytes valid)]
      rfl

/-- A data message from before fragmentation: its fragment count and total length are zero. -/
def legacyEnvelope : MessageEnvelope :=
  { envelopeInit with
    messageType := .data, messageId := 7, sourceId := 1, destinationId := 2, payloadLength := 3
    sequenceNum := 5, reliabilityClass := .reliableRetry }

theorem deserialize_serialize_legacy :
    ∃ frame, frame.length = 55 ∧
      serialize legacyEnvelope (List.replicate 60 0) 60 =
        .ok (.ok (frame ++ (List.replicate 60 0).drop frame.length, frame.length)) := by
  obtain ⟨frame, hlen, hser, _⟩ := deserialize_serialize legacyEnvelope (List.replicate 60 0) 60
    (by decide) (by decide) (by decide) (by decide) (by decide) (by simp)
  exact ⟨frame, hlen, hser⟩

/-! ## Accepted bytes are written back -/

theorem messageType_toByte_ofByte {raw : UInt8} (h : raw.toNat ≤ 4) :
    (MessageType.ofByte raw).toByte = raw := by
  have hcases : raw = 0 ∨ raw = 1 ∨ raw = 2 ∨ raw = 3 ∨ raw = 4 := by
    simp only [← UInt8.toNat_inj, UInt8.reduceToNat]
    omega
  rcases hcases with rfl | rfl | rfl | rfl | rfl <;> rfl

theorem reliabilityClass_toByte_ofByte {raw : UInt8} (h : raw.toNat ≤ 2) :
    (ReliabilityClass.ofByte raw).toByte = raw := by
  have hcases : raw = 0 ∨ raw = 1 ∨ raw = 2 := by
    simp only [← UInt8.toNat_inj, UInt8.reduceToNat]
    omega
  rcases hcases with rfl | rfl | rfl <;> rfl

/-- Spelling a field again gives its slice. -/
theorem toBigEndian_fieldAt {w : Nat} (h : offset + w ≤ buf.length) :
    toBigEndian w (fieldAt buf offset w) = slice buf offset w := by
  have := toBigEndian_ofBigEndian (slice buf offset w)
  rwa [length_slice h] at this

/-- An accepted header is written back byte for byte. -/
theorem headerBytes_decode {bufLen : UInt32} (a : Accepts buf bufLen)
    (fits : bufLen.toNat ≤ buf.length)
    (total : fieldAt buf 50 2 ≠ 0 ∨ fieldAt buf 36 4 = 0) :
    headerBytes (decode buf) = buf.take wireHeaderSize := by
  have hlen : 52 ≤ buf.length := Nat.le_trans a.headerPresent fits
  have f8 {off : Nat} (h : off + 1 ≤ buf.length) :
      (UInt8.ofNat (fieldAt buf off 1)).toNat = fieldAt buf off 1 := toNat_field8 (fieldAt_lt h)
  have f16 {off : Nat} (h : off + 2 ≤ buf.length) :
      (UInt16.ofNat (fieldAt buf off 2)).toNat = fieldAt buf off 2 := toNat_field16 (fieldAt_lt h)
  have f32 {off : Nat} (h : off + 4 ≤ buf.length) :
      (UInt32.ofNat (fieldAt buf off 4)).toNat = fieldAt buf off 4 := toNat_field32 (fieldAt_lt h)
  have f64 {off : Nat} (h : off + 8 ≤ buf.length) :
      (UInt64.ofNat (fieldAt buf off 8)).toNat = fieldAt buf off 8 := toNat_field64 (fieldAt_lt h)
  have hmt : (decode buf).messageType.toByte.toNat = fieldAt buf 0 1 := by
    rw [decode, messageType_toByte_ofByte (by rw [f8 (by omega)]; exact a.messageType), f8 (by omega)]
  have hrc : (decode buf).reliabilityClass.toByte.toNat = fieldAt buf 1 1 := by
    rw [decode, reliabilityClass_toByte_ofByte (by rw [f8 (by omega)]; exact a.reliabilityClass),
      f8 (by omega)]
  have hmagic : (protoMagic.toUInt32 <<< 16).toNat = fieldAt buf 40 4 := by
    rw [a.magic]
    rfl
  have hcount : (wireFragCount (decode buf)).toNat = fieldAt buf 49 1 := by
    rw [wireFragCount, if_neg, decode, f8 (by omega)]
    intro h0
    have : (UInt8.ofNat (fieldAt buf 49 1)).toNat = fieldAt buf 49 1 := f8 (by omega)
    have hpos := a.fragmentCount.1
    rw [show UInt8.ofNat (fieldAt buf 49 1) = 0 from h0] at this
    simp at this
    omega
  have htotal : (wireTotalLength (decode buf)).toNat = fieldAt buf 50 2 := by
    unfold wireTotalLength
    split
    case isTrue h0 =>
      have hz : fieldAt buf 50 2 = 0 := by
        rw [← f16 (by omega), show UInt16.ofNat (fieldAt buf 50 2) = 0 from h0]
        rfl
      have hp : fieldAt buf 36 4 = 0 := total.resolve_left (not_not.mpr hz)
      rw [hz, decode, hp]
      rfl
    case isFalse h0 => rw [decode, f16 (by omega)]
  rw [header_eq, hmt, hrc, hmagic, hcount, htotal, ← a.version]
  simp only [decode]
  rw [f8 (by omega), f64 (by omega), f64 (by omega), f32 (by omega), f32 (by omega), f64 (by omega),
    f32 (by omega), f32 (by omega), f8 (by omega)]
  simp only [List.nil_append]
  iterate 15 rw [toBigEndian_fieldAt (by omega)]
  iterate 14 rw [slice_append (by rfl)]
  rfl

theorem encode_decode {bufLen : UInt32} (a : Accepts buf bufLen) (fits : bufLen.toNat ≤ buf.length)
    (total : fieldAt buf 50 2 ≠ 0 ∨ fieldAt buf 36 4 = 0) :
    encode (decode buf) = buf.take (wireHeaderSize + fieldAt buf 36 4) := by
  have hroom := a.payloadPresent
  have hpl : (decode buf).payloadLength.toNat = fieldAt buf 36 4 :=
    toNat_field32 (fieldAt_lt (by unfold wireHeaderSize at hroom; omega))
  rw [encode, payloadBytes, hpl, payload_decode rfl a.payloadLength (by omega),
    headerBytes_decode a fits total, List.take_add]
  rfl

/-- A field inside the first `n` bytes does not see what follows them. -/
theorem fieldAt_take {n w : Nat} (h : offset + w ≤ n) :
    fieldAt (buf.take n) offset w = fieldAt buf offset w := by
  rw [fieldAt, fieldAt, slice, slice, List.drop_take, List.take_take, Nat.min_eq_left (by omega)]

/-- The grammar sees the header fields only. -/
theorem Accepts.congr {buf' : List UInt8} {bufLen : UInt32} (a : Accepts buf bufLen)
    (same : ∀ off w, off + w ≤ 52 → fieldAt buf off w = fieldAt buf' off w) :
    Accepts buf' bufLen where
  headerPresent := a.headerPresent
  messageType := same 0 1 (by decide) ▸ a.messageType
  reliabilityClass := same 1 1 (by decide) ▸ a.reliabilityClass
  version := same 3 1 (by decide) ▸ a.version
  sourceId := same 20 4 (by decide) ▸ a.sourceId
  magic := same 40 4 (by decide) ▸ a.magic
  fragmentCount := same 49 1 (by decide) ▸ a.fragmentCount
  fragmentIndex := same 49 1 (by decide) ▸ same 48 1 (by decide) ▸ a.fragmentIndex
  totalLength := same 50 2 (by decide) ▸ a.totalLength
  payloadLength := same 36 4 (by decide) ▸ a.payloadLength
  payloadPresent := same 36 4 (by decide) ▸ a.payloadPresent

/-- Decoding sees the header fields and the payload bytes only. -/
theorem decode_take {bufLen : UInt32} (a : Accepts buf bufLen) :
    decode (buf.take bufLen.toNat) = decode buf := by
  have header : 52 ≤ bufLen.toNat := a.headerPresent
  have hroom : 52 + fieldAt buf 36 4 ≤ bufLen.toNat := a.payloadPresent
  have same {off w : Nat} (h : off + w ≤ 52) :
      fieldAt (buf.take bufLen.toNat) off w = fieldAt buf off w := fieldAt_take (by omega)
  have hpayload (i : Fin msgMaxPayloadBytes) :
      (if (i : Nat) < fieldAt buf 36 4 then (buf.take bufLen.toNat).getD (wireHeaderSize + i) 0
        else (0 : UInt8)) =
      if (i : Nat) < fieldAt buf 36 4 then buf.getD (wireHeaderSize + i) 0 else 0 := by
    split
    case isTrue h =>
      rw [List.getD_eq_getElem?_getD, List.getD_eq_getElem?_getD,
        List.getElem?_take_of_lt (by unfold wireHeaderSize; omega)]
    case isFalse h => rfl
  unfold decode
  rw [same (by decide), same (by decide), same (by decide), same (by decide), same (by decide),
    same (by decide), same (by decide), same (by decide), same (by decide), same (by decide),
    same (by decide), same (by decide), same (by decide)]
  simp only [hpayload]

/-- What `deserialize` accepts, that it never faults and reads nothing past its length, and that an
accepted frame is written back as it was. -/
theorem deserialize_exact (buf : List UInt8) (bufLen : UInt32) (fits : bufLen.toNat ≤ buf.length) :
    ∃ reply : Reply, deserialize buf bufLen = .ok reply ∧
      deserialize (buf.take bufLen.toNat) bufLen = .ok reply ∧
      ((∃ env, reply = .ok env) ↔ Accepts buf bufLen) ∧
      ∀ env, reply = .ok env → fieldAt buf 50 2 ≠ 0 ∨ fieldAt buf 36 4 = 0 →
        ∀ (out : List UInt8) (outLen : UInt32), outLen.toNat ≤ out.length →
          wireHeaderSize + fieldAt buf 36 4 ≤ outLen.toNat →
          ∃ out', serialize env out outLen = .ok (.ok (out', wireHeaderSize + fieldAt buf 36 4)) ∧
            out'.take (wireHeaderSize + fieldAt buf 36 4) =
              buf.take (wireHeaderSize + fieldAt buf 36 4) := by
  have hread := deserialize_eq fits
  have hpre : bufLen.toNat ≤ (buf.take bufLen.toNat).length := by
    rw [List.length_take]
    omega
  have hreadPrefix := deserialize_eq hpre
  by_cases a : Accepts buf bufLen
  case neg =>
    have a' : ¬ Accepts (buf.take bufLen.toNat) bufLen := fun a' =>
      a (a'.congr fun off w h => fieldAt_take (Nat.le_trans h a'.headerPresent))
    rw [if_neg a] at hread
    rw [if_neg a'] at hreadPrefix
    refine ⟨_, hread, hreadPrefix, by simp [a], ?_⟩
    intro env h
    cases h
  case pos =>
    have header : 52 ≤ bufLen.toNat := a.headerPresent
    have a' : Accepts (buf.take bufLen.toNat) bufLen :=
      a.congr fun off w h => (fieldAt_take (by omega)).symm
    rw [if_pos a] at hread
    rw [if_pos a', decode_take a] at hreadPrefix
    refine ⟨_, hread, hreadPrefix, by simp [a], ?_⟩
    intro env henv total out outLen hout hroom
    cases henv
    have hpl : (decode buf).payloadLength.toNat = fieldAt buf 36 4 :=
      toNat_field32 (fieldAt_lt (by omega))
    have valid : envelopeValid (decode buf) := valid_decode a fits
    have hser := serialize_eq valid (by rw [hpl]; exact hroom) hout
    rw [hpl] at hser
    refine ⟨_, hser, ?_⟩
    have hlen := length_encode valid
    rw [hpl] at hlen
    rw [← hlen, take_overwrite_zero, hlen, encode_decode a fits total]

/-- A heartbeat frame of the bare header. -/
def heartbeatFrame : List UInt8 := encode { envelopeInit with messageType := .heartbeat, sourceId := 9 }

theorem deserialize_exact_heartbeat :
    ∃ reply : Reply, deserialize heartbeatFrame 52 = .ok reply ∧ ∃ env, reply = .ok env := by
  obtain ⟨reply, hread, _, hiff, _⟩ := deserialize_exact heartbeatFrame 52 (by decide +kernel)
  exact ⟨reply, hread, hiff.mpr (by decide +kernel)⟩

end Serializer

end MessageEngine
