import MessageEngine.Core.RequestReplyEngine
import MessageEngine.Laws.Serializer.Words

/-!
# The wire payload of a request or a response

`build_wire_payload` puts a header in front of the application's bytes, `parse_rr_header` reads it back. The
length of both parts together is a sum on 32 bits; where it wraps, the check against the room of the
buffer passes and the copy of the application's bytes runs out of it.

## What is proved

- `readHeader_eq_iff`: reading the twelve bytes gives the header they were written from, and no others do;
- `rr_codec_iff`: what was built is parsed back and what is parsed was built, exactly when the sum does
  not wrap.
-/

namespace MessageEngine

open Outcome Bytes

namespace RequestReplyEngine

variable {kind : RRKind} {cid : UInt64} {n : Nat}

/-! ## The header -/

theorem headerBytes_toList (kind : RRKind) (cid : UInt64) :
    (headerBytes kind cid).toList = kind.code :: (toBigEndian 8 cid.toNat ++ [0, 0, 0]) := by
  have byte {k : UInt64} {w : Nat} (hk : k.toNat < 64) (hw : 256 ^ w = 2 ^ k.toNat) :
      (cid >>> k).toUInt8 = UInt8.ofNat (cid.toNat / 256 ^ w) := by
    rw [← Serializer.byte64 cid hk hw]
    apply UInt8.toNat_inj.mp
    have hmask := Nat.and_two_pow_sub_one_eq_mod (cid >>> k).toNat 8
    simp only [Nat.reducePow, Nat.reduceSub] at hmask
    simp only [UInt64.toNat_toUInt8, UInt64.toNat_and, UInt64.reduceToNat, Nat.reducePow, hmask, Nat.mod_mod]
  have hbytes : [(cid >>> 56).toUInt8, (cid >>> 48).toUInt8, (cid >>> 40).toUInt8, (cid >>> 32).toUInt8,
      (cid >>> 24).toUInt8, (cid >>> 16).toUInt8, (cid >>> 8).toUInt8, (cid >>> 0).toUInt8] =
      toBigEndian 8 cid.toNat := by
    rw [byte (k := 56) (w := 7) (by decide) (by decide), byte (k := 48) (w := 6) (by decide) (by decide),
      byte (k := 40) (w := 5) (by decide) (by decide), byte (k := 32) (w := 4) (by decide) (by decide),
      byte (k := 24) (w := 3) (by decide) (by decide), byte (k := 16) (w := 2) (by decide) (by decide),
      byte (k := 8) (w := 1) (by decide) (by decide), byte (k := 0) (w := 0) (by decide) (by decide)]
    simp only [toBigEndian]
  rw [← hbytes]
  rfl

/-- A number spelled in eight bytes is read back from them, and from no others. -/
theorem word_eq_iff {bs : List UInt8} (hlen : bs.length = 8) :
    UInt64.ofNat (ofBigEndian bs) = cid ↔ bs = toBigEndian 8 cid.toNat := by
  have hlt : ofBigEndian bs < 256 ^ 8 := by
    rw [← hlen]
    exact ofBigEndian_lt bs
  constructor
  · rintro rfl
    have hsize : ofBigEndian bs < 2 ^ 64 := hlt
    rw [UInt64.toNat_ofNat', Nat.mod_eq_of_lt hsize, ← hlen, toBigEndian_ofBigEndian]
  · rintro rfl
    rw [ofBigEndian_toBigEndian_of_lt cid.toNat_lt, UInt64.ofNat_toNat]

/-- The first twelve bytes of a buffer, one by one. -/
theorem take_header (hn : rrHeaderSize ≤ n) (raw : Vector UInt8 n) :
    raw.toList.take rrHeaderSize = List.ofFn fun i : Fin rrHeaderSize => raw[i.castLE hn] := by
  apply List.ext_getElem
  · rw [List.length_take, Vector.length_toList, List.length_ofFn, Nat.min_eq_left hn]
  · intro i hi _
    rw [List.getElem_take, List.getElem_ofFn, Vector.getElem_toList]
    rfl

/-- The header read from a buffer is this one exactly when the buffer starts with its bytes. -/
theorem readHeader_eq_iff (kind : RRKind) (cid : UInt64) (hn : rrHeaderSize ≤ n) (raw : Vector UInt8 n) :
    readHeader hn raw = ⟨kind.code, cid, 0, 0, 0⟩ ↔
      raw.toList.take rrHeaderSize = (headerBytes kind cid).toList := by
  rw [take_header hn, headerBytes_toList, readHeader]
  generalize (fun i : Fin rrHeaderSize => raw[i.castLE hn]) = byte
  have hword := Serializer.word64 (byte 1) (byte 2) (byte 3) (byte 4) (byte 5) (byte 6) (byte 7) (byte 8)
  rw [UInt64.zero_or] at hword
  simp only [hword, RRHeader.mk.injEq]
  rw [word_eq_iff rfl]
  have hsplit : List.ofFn byte = byte 0 :: ([byte 1, byte 2, byte 3, byte 4, byte 5, byte 6, byte 7, byte 8] ++
      [byte 9, byte 10, byte 11]) := rfl
  have hlen : [byte 1, byte 2, byte 3, byte 4, byte 5, byte 6, byte 7, byte 8].length =
      (toBigEndian 8 cid.toNat).length := by
    rw [length_toBigEndian]
    rfl
  rw [hsplit, List.cons.injEq, List.append_eq_append_iff_of_size_eq_left hlen]
  simp only [List.cons.injEq, and_true]

variable {appLen outCap rawLen : UInt32}

/-- A buffer that starts with a header is accepted. -/
theorem parseRrHeader_built {raw : Vector UInt8 n} (hn : rrHeaderSize ≤ n) (hlen : rawLen ≥ 12) (hcid : cid ≠ 0)
    (starts : raw.toList.take rrHeaderSize = (headerBytes kind cid).toList) :
    parseRrHeader raw rawLen = .ok (some ⟨kind.code, cid, 0, 0, 0⟩) := by
  have hpos : rawLen > 0 := by
    have hlen := UInt32.le_iff_toNat_le.mp hlen
    exact UInt32.lt_iff_toNat_lt.mpr (Nat.lt_of_lt_of_le (by decide) hlen)
  have hkind : kind.code = RRKind.request.code ∨ kind.code = RRKind.response.code := by
    cases kind with
    | request => exact .inl rfl
    | response => exact .inr rfl
  unfold parseRrHeader
  simp only [neverCompiledOutAssert, ensure_pos hpos, ok_bind, if_neg (UInt32.not_lt.mpr hlen), dif_pos hn]
  rw [(readHeader_eq_iff kind cid hn raw).mpr starts]
  simp only [if_neg (not_not.mpr hkind), if_neg hcid, ne_eq, not_true_eq_false, or_self, if_false, ensure_pos hcid,
    ok_bind, pure_eq_ok]

/-- The parser answers, and a buffer it accepts starts with a header. -/
theorem parseRrHeader_accepts (hlen : rawLen > 0) (raw : Vector UInt8 rawLen.toNat) :
    ∃ res, parseRrHeader raw rawLen = .ok res ∧ ∀ hdr, res = some hdr → rawLen ≥ 12 ∧
      ∃ kind : RRKind, hdr.kind = kind.code ∧ hdr.correlationId ≠ 0 ∧
        raw.toList.take rrHeaderSize = (headerBytes kind hdr.correlationId).toList := by
  unfold parseRrHeader
  simp only [neverCompiledOutAssert, ensure_pos hlen, ok_bind]
  by_cases hshort : rawLen < 12
  · rw [if_pos hshort]
    refine ⟨none, rfl, fun hdr h => ?_⟩
    cases h
  have hlong : rawLen ≥ 12 := UInt32.not_lt.mp hshort
  have hn : rrHeaderSize ≤ rawLen.toNat := UInt32.le_iff_toNat_le.mp hlong
  have hread (kind : RRKind) (cid : UInt64) := readHeader_eq_iff kind cid hn raw
  rw [if_neg hshort, dif_pos hn]
  generalize readHeader hn raw = hdr at hread ⊢
  obtain ⟨code, cid, pad0, pad1, pad2⟩ := hdr
  dsimp only
  split
  · refine ⟨none, rfl, fun hdr h => ?_⟩
    cases h
  case isFalse hkind =>
  split
  · refine ⟨none, rfl, fun hdr h => ?_⟩
    cases h
  case isFalse hcid =>
  split
  · refine ⟨none, rfl, fun hdr h => ?_⟩
    cases h
  case isFalse hpad =>
  refine ⟨_, by rw [ensure_pos hcid]; rfl, fun hdr h => ⟨hlong, ?_⟩⟩
  cases h
  simp only [not_or, ne_eq, not_not] at hpad
  obtain ⟨rfl, rfl, rfl⟩ := hpad
  rcases not_not.mp hkind with rfl | rfl
  · exact ⟨.request, rfl, hcid, (hread .request cid).mp rfl⟩
  · exact ⟨.response, rfl, hcid, (hread .response cid).mp rfl⟩

/-! ## Building and parsing -/

/-- A whole array is copied over the bytes from `off`. -/
theorem memcpy_whole {m : Nat} (dst : Vector UInt8 n) (off : Nat) (src : Vector UInt8 m) (room : off + m ≤ n) :
    ∃ out, memcpy dst off src 0 m = .ok out ∧ out.toList = overwrite dst.toList off src.toList := by
  have hbounds : off + m ≤ n ∧ 0 + m ≤ m := ⟨room, Nat.le_of_eq (Nat.zero_add m)⟩
  refine ⟨_, dif_pos hbounds, ?_⟩
  rw [toList_blit, slice_zero, List.take_of_length_le (Nat.le_of_eq Vector.length_toList)]

theorem total_toNat (fits : 12 + appLen.toNat < 4294967296) : (12 + appLen).toNat = 12 + appLen.toNat := by
  rw [UInt32.toNat_add]
  exact Nat.mod_eq_of_lt fits

/-- What is built is the header and the application's bytes in front of the rest of the buffer. -/
theorem buildWirePayload_fits (kind : RRKind) (cid : UInt64) (hcap : outCap ≥ 12)
    (fits : 12 + appLen.toNat ≤ outCap.toNat) (app : Vector UInt8 appLen.toNat) (outBuf : Vector UInt8 outCap.toNat) :
    ∃ out, buildWirePayload kind cid app appLen outBuf outCap = .ok (12 + appLen, out) ∧
      out.toList = overwrite outBuf.toList 0 ((headerBytes kind cid).toList ++ app.toList) := by
  have hlt : outCap.toNat < 4294967296 := outCap.toNat_lt
  have hroom : ¬ 12 + appLen > outCap := by
    rw [gt_iff_lt, UInt32.lt_iff_toNat_lt, total_toNat (by omega)]
    exact Nat.not_lt.mpr fits
  have hcap' : 12 ≤ outCap.toNat := UInt32.le_iff_toNat_le.mp hcap
  obtain ⟨out, hheader, hout⟩ := memcpy_whole outBuf 0 (headerBytes kind cid) (by rw [Nat.zero_add]; exact hcap')
  unfold buildWirePayload
  simp only [neverCompiledOutAssert, ensure_pos hcap, ok_bind, if_neg hroom, hheader]
  by_cases happ : appLen > 0
  · obtain ⟨out', hcopy, hout'⟩ := memcpy_whole out rrHeaderSize app fits
    rw [if_pos happ, hcopy]
    refine ⟨out', rfl, ?_⟩
    have hlength : (headerBytes kind cid).toList.length = rrHeaderSize := Vector.length_toList
    have hstores := overwrite_overwrite outBuf.toList 0 (headerBytes kind cid).toList app.toList (by
      rw [Vector.length_toList, Vector.length_toList, Vector.length_toList]
      omega)
    rw [hout', hout, ← hstores, hlength, Nat.zero_add]
  · rw [if_neg happ]
    refine ⟨out, rfl, ?_⟩
    have hnone : app.toList = [] := by
      apply List.eq_nil_of_length_eq_zero
      rw [Vector.length_toList]
      exact Nat.eq_zero_of_not_pos fun hpos => happ (UInt32.lt_iff_toNat_lt.mpr hpos)
    rw [hout, hnone, List.append_nil]

/-- Where the sum wraps, the application's bytes run out of the buffer. -/
theorem buildWirePayload_wraps (hcap : outCap ≥ 12) (wraps : 4294967296 ≤ 12 + appLen.toNat)
    (app : Vector UInt8 appLen.toNat) (outBuf : Vector UInt8 outCap.toNat) :
    buildWirePayload kind cid app appLen outBuf outCap = .error .outOfBounds := by
  have hlt : outCap.toNat < 4294967296 := outCap.toNat_lt
  have happ : appLen.toNat < 4294967296 := appLen.toNat_lt
  have hcap' : 12 ≤ outCap.toNat := UInt32.le_iff_toNat_le.mp hcap
  have hroom : ¬ 12 + appLen > outCap := by
    rw [gt_iff_lt, UInt32.lt_iff_toNat_lt, UInt32.toNat_add]
    change ¬ outCap.toNat < (12 + appLen.toNat) % 4294967296
    omega
  have hpos : appLen > 0 := UInt32.lt_iff_toNat_lt.mpr (by change 0 < _; omega)
  obtain ⟨out, hheader, -⟩ := memcpy_whole outBuf 0 (headerBytes kind cid) (by rw [Nat.zero_add]; exact hcap')
  have hcopy : memcpy out rrHeaderSize app 0 appLen.toNat = .error .outOfBounds := by
    refine dif_neg fun hbounds => ?_
    have hout : 12 + appLen.toNat ≤ outCap.toNat := hbounds.1
    omega
  unfold buildWirePayload
  simp only [neverCompiledOutAssert, ensure_pos hcap, ok_bind, if_neg hroom, hheader, if_pos hpos, hcopy, error_bind]

/-- The payload is built in the buffer, or it does not fit, and what is built is parsed back. -/
def Encodes (kind : RRKind) (cid : UInt64) (appLen : UInt32) (app : Vector UInt8 appLen.toNat) (outCap : UInt32)
    (outBuf : Vector UInt8 outCap.toNat) : Prop :=
  ∃ total out, buildWirePayload kind cid app appLen outBuf outCap = .ok (total, out) ∧
    (total = 0 ∨ (total.toNat = rrHeaderSize + appLen.toNat ∧ total ≤ outCap ∧
      (∃ hdr, parseRrHeader out total = .ok (some hdr) ∧ hdr.kind = kind.code ∧ hdr.correlationId = cid) ∧
      slice out.toList rrHeaderSize appLen.toNat = app.toList))

/-- The parser answers, and what it accepts could have been built. -/
def Decodes (rawLen : UInt32) (raw : Vector UInt8 rawLen.toNat) : Prop :=
  ∃ res, parseRrHeader raw rawLen = .ok res ∧ ∀ hdr, res = some hdr →
    ∃ (kind : RRKind) (appLen : UInt32) (app : Vector UInt8 appLen.toNat),
      hdr.kind = kind.code ∧ hdr.correlationId ≠ 0 ∧ ∀ outBuf : Vector UInt8 rawLen.toNat,
        buildWirePayload kind hdr.correlationId app appLen outBuf rawLen = .ok (rawLen, raw)

theorem encodes (hcid : cid ≠ 0) (hcap : outCap ≥ 12) (small : appLen.toNat ≤ 4294967296 - 13)
    (app : Vector UInt8 appLen.toNat) (outBuf : Vector UInt8 outCap.toNat) : Encodes kind cid appLen app outCap outBuf := by
  have htotal : (12 + appLen).toNat = 12 + appLen.toNat := total_toNat (by omega)
  by_cases fits : 12 + appLen.toNat ≤ outCap.toNat
  · obtain ⟨out, hbuild, hout⟩ := buildWirePayload_fits kind cid hcap fits app outBuf
    have hheader : (headerBytes kind cid).toList.length = rrHeaderSize := Vector.length_toList
    have hout : out.toList = (headerBytes kind cid).toList ++
        (app.toList ++ outBuf.toList.drop ((headerBytes kind cid).toList ++ app.toList).length) := by
      rw [hout, overwrite, Nat.zero_add, List.take_zero, List.nil_append, List.append_assoc]
    refine ⟨12 + appLen, out, hbuild, .inr ⟨htotal, ?_, ⟨⟨kind.code, cid, 0, 0, 0⟩, ?_, rfl, rfl⟩, ?_⟩⟩
    · rw [UInt32.le_iff_toNat_le, htotal]
      exact fits
    · apply parseRrHeader_built (UInt32.le_iff_toNat_le.mp hcap) _ hcid
      · rw [hout]
        exact List.take_left' hheader
      · rw [ge_iff_le, UInt32.le_iff_toNat_le, htotal]
        exact Nat.le_add_right _ _
    · have happ : app.toList.length = appLen.toNat := Vector.length_toList
      rw [hout, slice, List.drop_left' hheader]
      exact List.take_left' happ
  · refine ⟨0, outBuf, ?_, .inl rfl⟩
    have hfull : 12 + appLen > outCap := by
      rw [gt_iff_lt, UInt32.lt_iff_toNat_lt, htotal]
      exact Nat.not_le.mp fits
    unfold buildWirePayload
    simp only [neverCompiledOutAssert, ensure_pos hcap, ok_bind, if_pos hfull, pure_eq_ok]

theorem decodes (hlen : rawLen > 0) (raw : Vector UInt8 rawLen.toNat) : Decodes rawLen raw := by
  obtain ⟨res, hparse, haccepts⟩ := parseRrHeader_accepts hlen raw
  refine ⟨res, hparse, fun hdr hres => ?_⟩
  obtain ⟨hlong, kind, hkind, hcid, hstarts⟩ := haccepts hdr hres
  have hsub : (rawLen - 12).toNat = rawLen.toNat - 12 := UInt32.toNat_sub_of_le _ _ hlong
  have hle : 12 ≤ rawLen.toNat := UInt32.le_iff_toNat_le.mp hlong
  let app : Vector UInt8 (rawLen - 12).toNat :=
    ⟨(raw.toList.drop rrHeaderSize).toArray, by
      rw [List.size_toArray, List.length_drop, Vector.length_toList, hsub]⟩
  refine ⟨kind, rawLen - 12, app, hkind, hcid, fun outBuf => ?_⟩
  obtain ⟨out, hbuild, hout⟩ := buildWirePayload_fits kind hdr.correlationId hlong (by omega) app outBuf
  have hwhole : (headerBytes kind hdr.correlationId).toList ++ app.toList = raw.toList := by
    rw [← hstarts]
    exact List.take_append_drop rrHeaderSize raw.toList
  have htotal : 12 + (rawLen - 12) = rawLen := by
    apply UInt32.toNat_inj.mp
    have hlt : rawLen.toNat < 4294967296 := rawLen.toNat_lt
    rw [total_toNat (by omega), hsub]
    omega
  have hraw : out = raw := by
    apply Vector.toList_inj.mp
    rw [hout, hwhole, overwrite, Nat.zero_add, List.take_zero, List.nil_append, List.drop_of_length_le,
      List.append_nil]
    rw [Vector.length_toList, Vector.length_toList]
  rw [hbuild, htotal, hraw]

/-- A payload is built within its buffer and parsed back, and what is parsed was built, exactly when the
lengths of header and application bytes do not add up to more than 32 bits hold. -/
theorem rr_codec_iff (hcid : cid ≠ 0) (app : Vector UInt8 appLen.toNat) (hcap : outCap ≥ 12)
    (outBuf : Vector UInt8 outCap.toNat) (hlen : rawLen > 0) (raw : Vector UInt8 rawLen.toNat) :
    (Encodes kind cid appLen app outCap outBuf ∧ Decodes rawLen raw) ↔ appLen.toNat ≤ 4294967296 - 13 := by
  constructor
  · rintro ⟨⟨total, out, hbuild, -⟩, -⟩
    by_contra hlate
    have happ : appLen.toNat < 4294967296 := appLen.toNat_lt
    rw [buildWirePayload_wraps hcap (by omega)] at hbuild
    cases hbuild
  · intro fits
    exact ⟨encodes hcid hcap fits app outBuf, decodes hlen raw⟩

/-- A response with two bytes, as it comes over the wire. -/
def answerBytes : Vector UInt8 (14 : UInt32).toNat := #v[1, 0, 0, 0, 0, 0, 0, 0, 9, 0, 0, 0, 5, 6]

/-- A request of three bytes in a buffer of twenty, and a buffer that the parser accepts. -/
theorem rr_codec_iff_small :
    ((Encodes .request 7 3 #v[1, 2, 3] 20 (Vector.replicate 20 0) ∧ Decodes 14 answerBytes) ↔
      (3 : UInt32).toNat ≤ 4294967296 - 13) ∧
    parseRrHeader answerBytes 14 = .ok (some ⟨RRKind.response.code, 9, 0, 0, 0⟩) :=
  ⟨rr_codec_iff (by decide) _ (by decide) _ (by decide) _, rfl⟩

/-- Application bytes whose length and the header's add up to `2 ^ 32`. -/
def overlong : Vector UInt8 (4294967284 : UInt32).toNat := Vector.replicate _ 0

/-- They are copied behind the end of a buffer of 4096 bytes. -/
theorem wrapped_length_overruns (outBuf : Vector UInt8 (4096 : UInt32).toNat) :
    buildWirePayload .request 1 overlong 4294967284 outBuf 4096 = .error .outOfBounds :=
  buildWirePayload_wraps (by decide) (by decide) overlong outBuf

theorem not_encodes_overlong : ¬ Encodes .request 1 4294967284 overlong 4096 (Vector.replicate _ 0) := by
  rintro ⟨total, out, h, -⟩
  rw [wrapped_length_overruns] at h
  cases h

end RequestReplyEngine

end MessageEngine
