import MessageEngine.Core.Transport
import MessageEngine.Laws.SocketUtils
import MessageEngine.Laws.Serializer.RoundTrip
import MessageEngine.Laws.Backend.Discard
import MessageEngine.Laws.EndToEnd.Network

/-!
# A connection from end to end

Between the `send` of one engine and the `receive` of another a message is cut into fragments, each fragment is
serialized and goes out behind its length; at the other end frames are cut out of the byte stream, read, and put
together again. The parts are written apart in the source. Here they stand in a row, the sending side up to the
first frame that fails. The operating systems at both ends cut the stream as they like, and either may fail or
stop at any point.

## What is proved

- `deserialize_encode`: a frame comes off the wire as it was, the bytes behind its payload apart;
- `ingest_message`: the frames of one message, read in a row, give that message and leave no slot open;
- `connection_carries`: what has come out at the far end is a beginning of what was put in, each message as it
  was, and all of it when nothing failed.
-/

namespace MessageEngine

open Outcome Table Bytes SocketUtils

/-- A message that the engine gives to its transport, before it is cut. -/
structure Sendable (m : MessageEnvelope) : Prop where
  valid : envelopeValid m
  index : m.fragmentIndex = 0
  count : m.fragmentCount.toNat ≤ 1
  total : m.totalPayloadLength = 0 ∨ m.totalPayloadLength = m.payloadLength.toUInt16

namespace Connection

/-! ## The two ends -/

/-- The frames of a message, as `send_fragments` makes them. -/
def cut (m : MessageEnvelope) : Checked (List MessageEnvelope) := do
  let fragment ← needsFragmentation m
  if fragment then fragmentMessage m else pure [m]

/-- Frames written one after the other, up to the first that fails. -/
def putFrames : List MessageEnvelope → Outbound → Checked (Bool × Outbound)
  | [], s => pure (true, s)
  | frame :: frames, s => do
    match ← serializeToWire frame with
    | .error _ => pure (false, s)
    | .ok (buf, len) =>
      let (ok, s) ← tcpSendFrame s buf len
      if ok then putFrames frames s else pure (false, s)

/-- Messages written one after the other, up to the first that fails. -/
def putMessages : List MessageEnvelope → Outbound → Checked (Bool × Outbound)
  | [], s => pure (true, s)
  | m :: ms, s => do
    let frames ← cut m
    let (ok, s) ← putFrames frames s
    if ok then putMessages ms s else pure (false, s)

/-- The frames that can be read; the others are dropped. -/
def readFrames : List (List UInt8) → Checked (List MessageEnvelope)
  | [] => pure []
  | bytes :: rest => do
    let reply ← Serializer.deserialize bytes (.ofNat bytes.length)
    let envs ← readFrames rest
    match reply with
    | .ok env => pure (env :: envs)
    | .error _ => pure envs

/-- The messages that reassembly hands out, the frame with number `i` coming at `clock i`. -/
def ingestAll (clock : Nat → UInt64) :
    Nat → List MessageEnvelope → ReassemblyBuffer → Checked (List MessageEnvelope × ReassemblyBuffer)
  | _, [], b => pure ([], b)
  | i, env :: envs, b => do
    let (reply, b) ← b.ingest env (clock i)
    let (ms, b) ← ingestAll clock (i + 1) envs b
    match reply with
    | .ok m => pure (m :: ms, b)
    | .error _ => pure (ms, b)

/-- What the far end makes of the stream when it reads `n` frames at most. -/
def takeMessages (clock : Nat → UInt64) (n : Nat) (s : Inbound) : Checked (List MessageEnvelope) := do
  let frames ← recvFrames socketRecvBufBytes n (List.replicate socketRecvBufBytes.toNat 0) s
  let envs ← readFrames frames
  let (ms, _) ← ingestAll clock 0 envs .init
  pure ms

/-! ## One frame -/

/-- A frame within the limits of the format. -/
structure Legal (frame : MessageEnvelope) : Prop where
  valid : envelopeValid frame
  count : frame.fragmentCount.toNat ≤ fragMaxCount
  index : frame.fragmentIndex.toNat < max frame.fragmentCount.toNat 1
  total : frame.totalPayloadLength.toNat ≤ msgMaxPayloadBytes

/-- The frame as it comes off the wire. -/
def readBack (frame : MessageEnvelope) : MessageEnvelope := Serializer.decode (Serializer.encode frame)

variable {m frame : MessageEnvelope} {frames ms : List MessageEnvelope} {clock : Nat → UInt64}

theorem encode_frameOk (valid : envelopeValid frame) : FrameOk (Serializer.encode frame) := by
  have hle : frame.payloadLength.toNat ≤ msgMaxPayloadBytes := valid.2.1
  unfold FrameOk
  rw [Serializer.length_encode valid]
  omega

/-- A frame comes off the wire as it was: it is accepted, and its header and payload bytes are kept. -/
theorem deserialize_encode (legal : Legal frame) :
    Serializer.deserialize (Serializer.encode frame) (.ofNat (Serializer.encode frame).length) =
        .ok (.ok (readBack frame)) ∧
      readBack frame = Serializer.normalized frame (readBack frame).payload ∧
      (readBack frame).payload.toList.take frame.payloadLength.toNat =
        frame.payload.toList.take frame.payloadLength.toNat := by
  have hlen := Serializer.length_encode legal.valid
  have hle : frame.payloadLength.toNat ≤ 4096 := legal.valid.2.1
  have hheader : wireHeaderSize = 52 := rfl
  have hval : (UInt32.ofNat (Serializer.encode frame).length).toNat = (Serializer.encode frame).length := by
    rw [UInt32.toNat_ofNat', Nat.mod_eq_of_lt (by omega)]
  have reads : Serializer.Reads frame (Serializer.encode frame) := Serializer.reads_headerBytes frame _
  have room : wireHeaderSize + frame.payloadLength.toNat ≤ (UInt32.ofNat (Serializer.encode frame).length).toNat := by
    rw [hval, hlen]
  have accepted := Serializer.accepts_of_reads reads legal.valid legal.count legal.index legal.total room
  refine ⟨?_, Serializer.decode_of_reads reads, ?_⟩
  · rw [Serializer.deserialize_eq (Nat.le_of_eq hval), if_pos accepted]
    rfl
  · have hpayload := Serializer.payload_decode reads.payloadLength legal.valid.2.1 (Nat.le_of_eq hlen.symm)
    have hslice : slice (Serializer.encode frame) wireHeaderSize frame.payloadLength.toNat =
        Serializer.payloadBytes frame := by
      unfold slice Serializer.encode
      rw [← Serializer.length_headerBytes frame, List.drop_left,
        ← Serializer.length_payloadBytes legal.valid, List.take_length]
    exact hpayload.trans hslice

/-! ## Writing -/

/-- The bytes that announce a frame. -/
abbrev head (bytes : List UInt8) : List UInt8 := frameHeader (.ofNat bytes.length)

/-- The stream was continued by some of the frames, and perhaps the beginning of one more. -/
structure Wrote (frames : List MessageEnvelope) (s s' : Outbound) (k : Nat) (tail : List UInt8) : Prop where
  some : k ≤ frames.length
  wire : s'.wire = s.wire ++ Framing.encode head ((frames.take k).map Serializer.encode) ++ tail
  short : Framing.next (format socketRecvBufBytes) tail = none

theorem wrote_nil (frames : List MessageEnvelope) (s : Outbound) : Wrote frames s s 0 [] :=
  ⟨Nat.zero_le _, by simp [Framing.encode], rfl⟩

/-- All of one part, and then some of the next. -/
theorem Wrote.append {rest : List MessageEnvelope} {s s₁ s' : Outbound} {k : Nat} {tail : List UInt8}
    (first : Wrote frames s s₁ frames.length []) (second : Wrote rest s₁ s' k tail) :
    Wrote (frames ++ rest) s s' (frames.length + k) tail := by
  refine ⟨?_, ?_, second.short⟩
  · rw [List.length_append]
    exact Nat.add_le_add_left second.some _
  · rw [second.wire, first.wire, List.take_length_add_append, List.take_length, List.append_nil]
    simp [Framing.encode]

/-- Some of one part is some of the whole. -/
theorem Wrote.left {s s' : Outbound} {k : Nat} {tail : List UInt8} (h : Wrote frames s s' k tail)
    (rest : List MessageEnvelope) : Wrote (frames ++ rest) s s' k tail := by
  refine ⟨?_, ?_, h.short⟩
  · rw [List.length_append]
    exact Nat.le_add_right_of_le h.some
  · rw [List.take_append_of_le_length h.some]
    exact h.wire

/-- One frame: all of it, or the beginning of it. -/
theorem putFrames_one (valid : envelopeValid frame) (s : Outbound) :
    ∃ buf ok s', serializeToWire frame = .ok (.ok (buf, .ofNat (Serializer.encode frame).length)) ∧
      tcpSendFrame s buf (.ofNat (Serializer.encode frame).length) = .ok (ok, s') ∧
      ∃ k tail, Wrote [frame] s s' k tail ∧ (ok = true → k = 1 ∧ tail = []) := by
  obtain ⟨buf, hserialize, hbuf, htake⟩ := serializeToWire_eq valid
  obtain ⟨-, hmax⟩ := encode_frameOk valid
  have hval : (UInt32.ofNat (Serializer.encode frame).length).toNat = (Serializer.encode frame).length := by
    rw [UInt32.toNat_ofNat', Nat.mod_eq_of_lt (Nat.lt_of_le_of_lt hmax (by decide))]
  obtain ⟨ok, s', j, hrun, hwire, -, hj, hok⟩ := @tcpSendFrame_spec buf s (.ofNat (Serializer.encode frame).length)
    (by rw [hval]; exact hbuf)
  have hbytes : frameBytes buf (.ofNat (Serializer.encode frame).length) =
      head (Serializer.encode frame) ++ Serializer.encode frame := by
    rw [frameBytes, hval, htake]
  have hwhole : (head (Serializer.encode frame) ++ Serializer.encode frame).length =
      4 + (Serializer.encode frame).length := by
    rw [List.length_append, length_frameHeader]
  rw [hbytes] at hwire
  rw [hval] at hj hok
  refine ⟨buf, ok, s', hserialize, hrun, ?_⟩
  have hannounces : Framing.Announces (format socketRecvBufBytes) (head (Serializer.encode frame))
      (Serializer.encode frame) := announces_frameHeader (encode_frameOk valid) (by decide)
  by_cases hfull : j = 4 + (Serializer.encode frame).length
  · refine ⟨1, [], ⟨Nat.le_refl 1, ?_, rfl⟩, fun _ => ⟨rfl, rfl⟩⟩
    rw [hwire, List.take_of_length_le (by omega)]
    simp [Framing.encode]
  · refine ⟨0, (head (Serializer.encode frame) ++ Serializer.encode frame).take j, ⟨Nat.zero_le _, ?_, ?_⟩,
      fun h => absurd (hok.mp h) hfull⟩
    · rw [hwire]
      simp [Framing.encode]
    · exact Framing.next_of_short hannounces (by omega)

/-- Frames that are written: a number of whole ones, then perhaps the beginning of one. -/
theorem putFrames_spec (valid : ∀ frame ∈ frames, envelopeValid frame) (s : Outbound) :
    ∃ ok s' k tail, putFrames frames s = .ok (ok, s') ∧ Wrote frames s s' k tail ∧
      (ok = true → k = frames.length ∧ tail = []) := by
  induction frames generalizing s with
  | nil => exact ⟨true, s, 0, [], rfl, wrote_nil [] s, fun _ => ⟨rfl, rfl⟩⟩
  | cons frame frames ih =>
    obtain ⟨buf, ok, s₁, hserialize, hsend, k, tail, hwrote, hall⟩ :=
      putFrames_one (valid frame List.mem_cons_self) s
    rw [putFrames, hserialize, ok_bind]
    dsimp only
    rw [hsend, ok_bind]
    cases ok with
    | false => exact ⟨false, s₁, k, tail, rfl, hwrote.left frames, fun h => by cases h⟩
    | true =>
      obtain ⟨rfl, rfl⟩ := hall rfl
      obtain ⟨ok, s', k, tail, hrun, hrest, hdone⟩ :=
        ih (fun f hf => valid f (List.mem_cons_of_mem frame hf)) s₁
      have hboth : Wrote ([frame] ++ frames) s s' ([frame].length + k) tail := hwrote.append hrest
      refine ⟨ok, s', 1 + k, tail, hrun, hboth, fun h => ?_⟩
      obtain ⟨rfl, rfl⟩ := hdone h
      exact ⟨Nat.add_comm _ _, rfl⟩

/-! ## The frames of a message -/

/-- What a message is cut into. -/
inductive Cut (m : MessageEnvelope) : List MessageEnvelope → Prop where
  | whole (fits : m.payloadLength.toNat ≤ fragMaxPayloadBytes) : Cut m [m]
  | pieces {frames : List MessageEnvelope} (large : fragMaxPayloadBytes < m.payloadLength.toNat)
    (count : frames.length = pieceCount m.payloadLength.toNat)
    (piece : ∀ (k : Nat) (hk : k < frames.length), IsPiece m k (frames.get ⟨k, hk⟩)) : Cut m frames

theorem cut_spec (valid : envelopeValid m) : ∃ frames, cut m = .ok frames ∧ Cut m frames := by
  have hneeds : needsFragmentation m = .ok (decide (m.payloadLength.toNat > fragMaxPayloadBytes)) := by
    unfold needsFragmentation
    rw [neverCompiledOutAssert, ensure_pos valid.2.1, ok_bind, pure_eq_ok]
  unfold cut
  rw [hneeds, ok_bind]
  by_cases hlarge : fragMaxPayloadBytes < m.payloadLength.toNat
  · obtain ⟨frames, hfragment, hcount, hpiece⟩ := fragmentMessage_spec valid hlarge
    rw [if_pos (decide_eq_true hlarge)]
    exact ⟨frames, hfragment, .pieces hlarge hcount hpiece⟩
  · rw [if_neg (by rw [decide_eq_true_iff]; exact hlarge)]
    exact ⟨[m], rfl, .whole (Nat.le_of_not_lt hlarge)⟩

theorem Cut.short (h : Cut m frames) (valid : envelopeValid m) : frames.length ≤ fragMaxCount := by
  cases h with
  | whole fits => exact Nat.le_of_ble_eq_true rfl
  | pieces large count piece =>
    have hsmall : m.payloadLength.toNat ≤ 4096 := valid.2.1
    rw [count]
    unfold pieceCount fragMaxPayloadBytes fragMaxCount
    omega

/-- The frames of a message are within the limits of the format. -/
theorem Cut.legal (h : Cut m frames) (sendable : Sendable m) : ∀ frame ∈ frames, Legal frame := by
  intro frame hframe
  cases h with
  | whole fits =>
    rw [List.mem_singleton.mp hframe]
    refine ⟨sendable.valid, ?_, ?_, ?_⟩
    · exact sendable.count.trans (by decide)
    · rw [sendable.index]
      exact Nat.lt_of_lt_of_le Nat.zero_lt_one (Nat.le_max_right _ _)
    · rcases sendable.total with htotal | htotal
      · rw [htotal]
        exact Nat.zero_le _
      · rw [htotal, total_toNat sendable.valid.2.1]
        exact sendable.valid.2.1
  | pieces large count piece =>
    obtain ⟨⟨k, hk⟩, rfl⟩ := List.get_of_mem hframe
    have hpiece := piece k hk
    have hshort : k < fragMaxCount := Nat.lt_of_lt_of_le hk (Cut.short (.pieces large count piece) sendable.valid)
    obtain ⟨⟨hindex, hcount, htotal⟩, -⟩ :=
      IsPiece.wellFormed (k := ⟨k, hshort⟩) hpiece sendable.valid.2.1 large (count ▸ hk)
    refine ⟨?_, hcount, hindex, htotal⟩
    have hlen := IsPiece.length (k := ⟨k, hshort⟩) hpiece
    refine ⟨?_, ?_, ?_⟩
    · rw [hpiece.fields]
      exact sendable.valid.1
    · rw [hlen]
      unfold pieceLength fragMaxPayloadBytes msgMaxPayloadBytes
      omega
    · rw [hpiece.fields]
      exact sendable.valid.2.2

/-! ## Putting a message together -/

/-- No slot is open. -/
def Idle (b : ReassemblyBuffer) : Prop := ∀ i : Fin reassemblySlotCount, b.slots[i].active = false

/-- Every open slot is the message's. -/
structure Only (m : MessageEnvelope) (b : ReassemblyBuffer) : Prop where
  inv : b.Inv fun _ => True
  mine : ∀ i : Fin reassemblySlotCount, b.slots[i].active = true → b.slots[i].isFor m.sourceId m.messageId

variable {b b' : ReassemblyBuffer} {nowUs : UInt64}

theorem idle_init : Idle .init := by
  intro i
  simp [ReassemblyBuffer.init]

theorem Idle.only (idle : Idle b) (m : MessageEnvelope) : Only m b := by
  refine ⟨⟨fun i hactive => ?_, fun i j hactive => ?_⟩, fun i hactive => ?_⟩
  · rw [idle i] at hactive
    cases hactive
  · rw [idle i] at hactive
    cases hactive
  · rw [idle i] at hactive
    cases hactive

theorem Idle.room (idle : Idle b) (src : NodeId) : b.HasRoom src := by
  constructor
  · have hzero : b.openCount src = 0 := by
      apply countP_eq_zero.mpr
      intro i
      rw [idle i]
      rfl
    rw [hzero]
    decide
  · intro hnone
    have hfull := firstSlot?_none.mp hnone ⟨0, by decide⟩
    rw [idle ⟨0, by decide⟩] at hfull
    cases hfull

/-- A fragment of the message leaves only slots of the message, and none if it was the last. -/
theorem Only.ingest {frag : MessageEnvelope} {reply : Reply} (only : Only m b) (key : SameKey m frag)
    (h : ReassemblyBuffer.Ingested b frag nowUs reply b') (inv : b'.Inv fun _ => True) :
    Only m b' ∧ (1 < frag.fragmentCount.toNat → ∀ env, reply = .ok env → Idle b') := by
  cases h with
  | invalid => exact ⟨only, fun _ env henv => by cases henv⟩
  | full => exact ⟨only, fun _ env henv => by cases henv⟩
  | whole single => exact ⟨only, fun several => absurd single (Nat.not_le.mpr several)⟩
  | slot wf several mine step =>
    rename_i i s₀ s
    have hothers : ∀ j : Fin reassemblySlotCount, i ≠ j → b.slots[j].active = false := by
      intro j hj
      by_contra hactive
      have hfor := only.mine j (by simpa using hactive)
      rw [← key.1, ← key.2] at hfor
      cases mine with
      | found hmine _ =>
        apply hj
        apply only.inv.distinct j i hfor.1
        rw [hfor.2.1, hfor.2.2]
        exact hmine
      | opened _ unknown _ => exact unknown j hfor
    refine ⟨⟨inv, fun j hactive => ?_⟩, fun _ env henv j => ?_⟩
    · dsimp only at hactive ⊢
      rw [getElem_set_fin] at hactive ⊢
      by_cases hj : i = j
      · rw [if_pos hj] at hactive ⊢
        have hkey := mine.key
        have hsame : s.sourceId = s₀.sourceId ∧ s.messageId = s₀.messageId := by
          cases step with
          | repeated _ => exact ⟨rfl, rfl⟩
          | refused _ _ freed =>
            rw [freed] at hactive
            cases hactive
          | kept _ _ recorded _ =>
            rw [recorded.fields]
            exact ⟨rfl, rfl⟩
          | done _ _ _ _ _ _ freed =>
            rw [freed] at hactive
            cases hactive
        exact ⟨hactive, hsame.1.trans (hkey.1.trans key.1), hsame.2.trans (hkey.2.trans key.2)⟩
      · rw [if_neg hj, hothers j hj] at hactive
        cases hactive
    · dsimp only
      rw [getElem_set_fin]
      by_cases hj : i = j
      · rw [if_pos hj]
        cases step with
        | repeated _ => cases henv
        | refused _ _ _ => cases henv
        | kept _ _ _ _ => cases henv
        | done _ _ _ _ _ _ freed => exact freed
      · rw [if_neg hj]
        exact hothers j hj

/-- A message in one frame passes through. -/
theorem ingest_single (hsrc : frame.sourceId ≠ 0) (wf : ReassemblyBuffer.WellFormed frame)
    (single : frame.fragmentCount.toNat ≤ 1) (b : ReassemblyBuffer) (nowUs : UInt64) :
    b.ingest frame nowUs = .ok (.ok frame, b) := by
  obtain ⟨r, hr, hcases⟩ := ReassemblyBuffer.validateMetadata_eq hsrc
  rcases hcases with ⟨rfl, -⟩ | ⟨-, hnot⟩
  · simp only [ReassemblyBuffer.ingest, neverCompiledOutAssert, ensure_pos hsrc, ok_bind, hr, ne_eq, not_true,
      if_false]
    rw [if_pos]
    · rfl
    · rw [UInt8.le_iff_toNat_le]
      exact single
  · exact absurd wf hnot

theorem ingestAll_append {first second ms ms' : List MessageEnvelope} {b₁ : ReassemblyBuffer} {i : Nat}
    (hfirst : ingestAll clock i first b = .ok (ms, b₁))
    (hsecond : ingestAll clock (i + first.length) second b₁ = .ok (ms', b')) :
    ingestAll clock i (first ++ second) b = .ok (ms ++ ms', b') := by
  induction first generalizing i b ms with
  | nil =>
    cases hfirst
    exact hsecond
  | cons env envs ih =>
    obtain ⟨⟨reply, b₂⟩, hingest, hfirst⟩ := bind_eq_ok.mp hfirst
    obtain ⟨⟨rest, b₃⟩, hrest, hdone⟩ := bind_eq_ok.mp hfirst
    have hnext : i + (env :: envs).length = i + 1 + envs.length := by
      rw [List.length_cons]
      omega
    rw [hnext] at hsecond
    rw [List.cons_append, ingestAll, hingest, ok_bind]
    dsimp only at hdone ⊢
    cases reply with
    | ok m =>
      cases hdone
      rw [ih hrest hsecond]
      rfl
    | error r =>
      cases hdone
      rw [ih hrest hsecond]
      rfl

/-- What came out of the first frames is the beginning of what comes out of all. -/
theorem ingestAll_take {envs ms : List MessageEnvelope} {i : Nat} (h : ingestAll clock i envs b = .ok (ms, b'))
    (n : Nat) : ∃ out b₁, ingestAll clock i (envs.take n) b = .ok (out, b₁) ∧ out <+: ms := by
  induction envs generalizing n i b b' ms with
  | nil =>
    rw [List.take_nil]
    exact ⟨ms, b', h, List.prefix_refl ms⟩
  | cons env envs ih =>
    cases n with
    | zero => exact ⟨[], b, rfl, List.nil_prefix⟩
    | succ n =>
      obtain ⟨⟨reply, b₂⟩, hingest, h⟩ := bind_eq_ok.mp h
      obtain ⟨⟨rest, b₃⟩, hrest, hdone⟩ := bind_eq_ok.mp h
      obtain ⟨out, b₁, hout, hprefix⟩ := ih hrest n
      rw [List.take_succ_cons, ingestAll, hingest, ok_bind]
      dsimp only at hdone ⊢
      rw [hout, ok_bind]
      cases reply with
      | ok m =>
        cases hdone
        exact ⟨m :: out, b₁, rfl, List.cons_prefix_cons.mpr ⟨rfl, hprefix⟩⟩
      | error r =>
        cases hdone
        exact ⟨out, b₁, rfl, hprefix⟩

/-- One more piece than the first `k`. -/
theorem insert_allPieces {k : Nat} (hk : k < fragMaxCount) : insert ⟨k, hk⟩ (allPieces k) = allPieces (k + 1) := by
  ext j
  rw [Finset.mem_insert, mem_allPieces, mem_allPieces, Fin.ext_iff]
  dsimp only
  omega

theorem allPieces_ne {k n : Nat} (hk : k < n) (hn : n ≤ fragMaxCount) : allPieces k ≠ allPieces n := by
  intro h
  have hmem : (⟨k, Nat.lt_of_lt_of_le hk hn⟩ : Fin fragMaxCount) ∈ allPieces n := mem_allPieces.mpr hk
  rw [← h, mem_allPieces] at hmem
  exact Nat.lt_irrefl k hmem

/-- The frames of a message come off the wire as its pieces. -/
theorem isPiece_readBack {k : Fin fragMaxCount} (legal : Legal frame) (piece : IsPiece m k frame)
    (several : 1 < frame.fragmentCount.toNat) (large : fragMaxPayloadBytes < m.payloadLength.toNat)
    (small : m.payloadLength.toNat ≤ msgMaxPayloadBytes) : IsPiece m k (readBack frame) := by
  obtain ⟨-, hfields, hbytes⟩ := deserialize_encode legal
  have hcount : Serializer.wireFragCount frame = frame.fragmentCount := by
    apply if_neg
    intro hzero
    rw [hzero] at several
    exact absurd several (by decide)
  have htotal : Serializer.wireTotalLength frame = frame.totalPayloadLength := by
    apply if_neg
    intro hzero
    have hlen := total_toNat small
    have hlarge : 1024 < m.payloadLength.toNat := large
    rw [piece.fields] at hzero
    dsimp only at hzero
    rw [hzero] at hlen
    change 0 = m.payloadLength.toNat at hlen
    omega
  refine Network.isPiece_carried piece ⟨?_, hbytes⟩
  unfold Serializer.normalized at hfields
  rw [hcount, htotal] at hfields
  exact hfields

/-- One piece, when those before it have arrived: the message is complete with the last. -/
theorem ingest_piece (sendable : Sendable m) (large : fragMaxPayloadBytes < m.payloadLength.toNat)
    (count : frames.length = pieceCount m.payloadLength.toNat)
    (piece : ∀ (k : Nat) (hk : k < frames.length), IsPiece m k (frames.get ⟨k, hk⟩)) {k : Nat}
    (hk : k < frames.length) (only : Only m b) (tracks : Tracks m (allPieces k) b) (hfirst : k = 0 → Idle b)
    (nowUs : UInt64) :
    ∃ reply b', b.ingest (readBack (frames.get ⟨k, hk⟩)) nowUs = .ok (reply, b') ∧
      (k + 1 < frames.length → reply = .error .errAgain ∧ Only m b' ∧ Tracks m (allPieces (k + 1)) b') ∧
      (k + 1 = frames.length → ∃ env, reply = .ok env ∧ Restored m env ∧ Idle b') := by
  have hcut : Cut m frames := .pieces large count piece
  have hshort := hcut.short sendable.valid
  have hbelow : k < fragMaxCount := Nat.lt_of_lt_of_le hk hshort
  have hmember : IsPiece m (⟨k, hbelow⟩ : Fin fragMaxCount) (frames.get ⟨k, hk⟩) := piece k hk
  have hlegal := hcut.legal sendable _ (List.get_mem frames ⟨k, hk⟩)
  have hseveral := (hmember.wellFormed sendable.valid.2.1 large (count ▸ hk)).2
  have hpiece := isPiece_readBack hlegal hmember hseveral large sendable.valid.2.1
  have hmany := (hpiece.wellFormed sendable.valid.2.1 large (count ▸ hk)).2
  have hkey : SameKey m (readBack (frames.get ⟨k, hk⟩)) := by
    rw [hpiece.fields]
    exact ⟨rfl, rfl⟩
  have hroom : (∃ i : Fin reassemblySlotCount, b.slots[i].isFor m.sourceId m.messageId) ∨ b.HasRoom m.sourceId := by
    rcases Nat.eq_zero_or_pos k with hzero | hpos
    · exact .inr ((hfirst hzero).room _)
    · rcases tracks.slot with ⟨hempty, -⟩ | ⟨i, progress⟩
      · have hmem : (⟨0, by decide⟩ : Fin fragMaxCount) ∈ allPieces k := mem_allPieces.mpr hpos
        rw [hempty] at hmem
        cases hmem
      · exact .inl ⟨i, progress.mine⟩
  obtain ⟨reply, b', hingest, hmore, hlast⟩ :=
    tracks.ingest_own nowUs sendable.valid large hpiece (count ▸ hk) hroom
  obtain ⟨reply₁, b₁, hspec, hdid, hinv⟩ :=
    ReassemblyBuffer.ingest_spec only.inv nowUs (hkey.1 ▸ sendable.valid.2.2) trivial
  rw [hspec] at hingest
  cases hingest
  obtain ⟨honly, hidle⟩ := only.ingest hkey hdid hinv
  rw [insert_allPieces hbelow, ← count] at hmore hlast
  refine ⟨reply, b', hspec, fun hlt => ?_, fun heq => ?_⟩
  · obtain ⟨hreply, htracks⟩ := hmore (allPieces_ne hlt hshort)
    exact ⟨hreply, honly, htracks⟩
  · have hnew : (⟨k, hbelow⟩ : Fin fragMaxCount) ∉ allPieces k := by
      rw [mem_allPieces]
      exact Nat.lt_irrefl k
    obtain ⟨env, hreply, hrestored⟩ := hlast hnew (congrArg allPieces heq)
    exact ⟨env, hreply, hrestored, hidle hmany env hreply⟩

/-- The pieces of a message from the one with index `k` on, when those before it have arrived. -/
theorem ingest_pieces (sendable : Sendable m) (large : fragMaxPayloadBytes < m.payloadLength.toNat)
    (count : frames.length = pieceCount m.payloadLength.toNat)
    (piece : ∀ (k : Nat) (hk : k < frames.length), IsPiece m k (frames.get ⟨k, hk⟩)) (left : Nat) :
    ∀ k i b, k + (left + 1) = frames.length → Only m b → Tracks m (allPieces k) b → (k = 0 → Idle b) →
      ∃ env b', ingestAll clock i ((frames.drop k).map readBack) b = .ok ([env], b') ∧ Restored m env ∧
        Idle b' := by
  induction left with
  | zero =>
    intro k i b hk only tracks hfirst
    have hlt : k < frames.length := by omega
    obtain ⟨reply, b', hingest, -, hlast⟩ :=
      ingest_piece sendable large count piece hlt only tracks hfirst (clock i)
    obtain ⟨env, rfl, hrestored, hidle⟩ := hlast hk
    refine ⟨env, b', ?_, hrestored, hidle⟩
    rw [List.drop_eq_getElem_cons hlt, List.map_cons, ingestAll]
    rw [List.get_eq_getElem] at hingest
    rw [hingest, ok_bind, List.drop_of_length_le (Nat.le_of_eq hk.symm)]
    rfl
  | succ left ih =>
    intro k i b hk only tracks hfirst
    have hlt : k < frames.length := by omega
    obtain ⟨reply, b₁, hingest, hmore, -⟩ :=
      ingest_piece sendable large count piece hlt only tracks hfirst (clock i)
    obtain ⟨rfl, honly, htracks⟩ := hmore (by omega)
    obtain ⟨env, b', hrest, hrestored, hidle⟩ :=
      ih (k + 1) (i + 1) b₁ (by omega) honly htracks (fun h => absurd h (Nat.succ_ne_zero k))
    refine ⟨env, b', ?_, hrestored, hidle⟩
    rw [List.drop_eq_getElem_cons hlt, List.map_cons, ingestAll]
    rw [List.get_eq_getElem] at hingest
    rw [hingest, ok_bind]
    dsimp only
    rw [hrest]
    rfl

/-- A message in one frame comes off the wire as it was. -/
theorem restored_readBack (sendable : Sendable m) (legal : Legal m) : Restored m (readBack m) := by
  obtain ⟨-, hfields, hbytes⟩ := deserialize_encode legal
  have hcount : Serializer.wireFragCount m = 1 := by
    unfold Serializer.wireFragCount
    split
    case isTrue h => rfl
    case isFalse h =>
      have hone := sendable.count
      have hne : m.fragmentCount.toNat ≠ 0 := fun hzero => h (UInt8.toNat_inj.mp hzero)
      apply UInt8.toNat_inj.mp
      show m.fragmentCount.toNat = 1
      omega
  have htotal : Serializer.wireTotalLength m = m.payloadLength.toUInt16 := by
    unfold Serializer.wireTotalLength
    split
    case isTrue h => rfl
    case isFalse h => exact sendable.total.resolve_left h
  refine ⟨hfields.trans ?_, hbytes⟩
  unfold Serializer.normalized
  rw [hcount, htotal, ← sendable.index]

/-- The frames of one message, read in a row, give that message and leave no slot open. -/
theorem ingest_message (sendable : Sendable m) (hcut : Cut m frames) (idle : Idle b) (i : Nat) :
    ∃ env b', ingestAll clock i (frames.map readBack) b = .ok ([env], b') ∧ Restored m env ∧ Idle b' := by
  cases hcut with
  | whole fits =>
    have hrestored := restored_readBack sendable ((Cut.whole fits).legal sendable m List.mem_cons_self)
    have hsource : (readBack m).sourceId ≠ 0 := by
      rw [hrestored.1]
      exact sendable.valid.2.2
    have hformed : ReassemblyBuffer.WellFormed (readBack m) := by
      rw [hrestored.1]
      refine ⟨Nat.zero_lt_one, Nat.le_of_ble_eq_true rfl, ?_⟩
      dsimp only
      rw [total_toNat sendable.valid.2.1]
      exact sendable.valid.2.1
    have hsingle : (readBack m).fragmentCount.toNat ≤ 1 := by
      rw [hrestored.1]
      exact Nat.le_refl 1
    refine ⟨readBack m, b, ?_, hrestored, idle⟩
    rw [List.map_cons, List.map_nil, ingestAll, ingest_single hsource hformed hsingle, ok_bind]
    rfl
  | pieces large count piece =>
    have hpos : 0 < frames.length := by
      have hlarge : 1024 < m.payloadLength.toNat := large
      rw [count]
      unfold pieceCount fragMaxPayloadBytes
      omega
    have htracks : Tracks m (allPieces 0) b := by
      refine ⟨(idle.only m).inv, .inl ⟨?_, fun j hj => ?_⟩⟩
      · ext j
        rw [mem_allPieces]
        simp
      · have hactive := hj.1
        rw [idle j] at hactive
        cases hactive
    obtain ⟨env, b', hrun, hrestored, hidle⟩ := ingest_pieces sendable large count piece (frames.length - 1) 0 i b
      (by omega) (idle.only m) htracks (fun _ => idle)
    rw [List.drop_zero] at hrun
    exact ⟨env, b', hrun, hrestored, hidle⟩

/-! ## All the messages -/

variable {fss : List (List MessageEnvelope)}

theorem cuts_exist (sendable : ∀ m ∈ ms, Sendable m) : ∃ fss, List.Forall₂ Cut ms fss := by
  induction ms with
  | nil => exact ⟨[], .nil⟩
  | cons m ms ih =>
    obtain ⟨frames, -, hcut⟩ := cut_spec (sendable m List.mem_cons_self).valid
    obtain ⟨fss, hrest⟩ := ih fun x hx => sendable x (List.mem_cons_of_mem m hx)
    exact ⟨frames :: fss, .cons hcut hrest⟩

theorem cuts_legal (cuts : List.Forall₂ Cut ms fss) (sendable : ∀ m ∈ ms, Sendable m) :
    ∀ frame ∈ fss.flatten, Legal frame := by
  induction cuts with
  | nil =>
    intro frame hframe
    cases hframe
  | cons hcut _ ih =>
    intro frame hframe
    rw [List.flatten_cons] at hframe
    rcases List.mem_append.mp hframe with hfirst | hrest
    · exact hcut.legal (sendable _ List.mem_cons_self) frame hfirst
    · exact ih (fun x hx => sendable x (List.mem_cons_of_mem _ hx)) frame hrest

theorem cuts_short (cuts : List.Forall₂ Cut ms fss) (sendable : ∀ m ∈ ms, Sendable m) :
    fss.flatten.length ≤ ms.length * fragMaxCount := by
  induction cuts with
  | nil => exact Nat.zero_le _
  | cons hcut _ ih =>
    have hfirst := hcut.short (sendable _ List.mem_cons_self).valid
    have hrest := ih fun x hx => sendable x (List.mem_cons_of_mem _ hx)
    rw [List.flatten_cons, List.length_append, List.length_cons, Nat.succ_mul]
    omega

/-- Messages that are written: a number of whole frames, then perhaps the beginning of one. -/
theorem putMessages_spec (sendable : ∀ m ∈ ms, Sendable m) (s : Outbound) :
    ∃ ok s' fss k tail, putMessages ms s = .ok (ok, s') ∧ List.Forall₂ Cut ms fss ∧
      Wrote fss.flatten s s' k tail ∧ (ok = true → k = fss.flatten.length ∧ tail = []) := by
  induction ms generalizing s with
  | nil => exact ⟨true, s, [], 0, [], rfl, .nil, wrote_nil [] s, fun _ => ⟨rfl, rfl⟩⟩
  | cons m ms ih =>
    have hothers : ∀ x ∈ ms, Sendable x := fun x hx => sendable x (List.mem_cons_of_mem m hx)
    have hsendable := sendable m List.mem_cons_self
    obtain ⟨frames, hcutrun, hcut⟩ := cut_spec hsendable.valid
    obtain ⟨ok, s₁, k, tail, hrun, hwrote, hall⟩ :=
      putFrames_spec (fun f hf => (hcut.legal hsendable f hf).valid) s
    rw [putMessages, hcutrun, ok_bind, hrun, ok_bind]
    cases ok with
    | false =>
      obtain ⟨fss, hcuts⟩ := cuts_exist hothers
      refine ⟨false, s₁, frames :: fss, k, tail, rfl, .cons hcut hcuts, hwrote.left fss.flatten, fun h => ?_⟩
      cases h
    | true =>
      obtain ⟨rfl, rfl⟩ := hall rfl
      obtain ⟨ok, s', fss, k, tail, hrest, hcuts, hmore, hdone⟩ := ih hothers s₁
      refine ⟨ok, s', frames :: fss, frames.length + k, tail, hrest, .cons hcut hcuts, hwrote.append hmore,
        fun h => ?_⟩
      obtain ⟨rfl, rfl⟩ := hdone h
      exact ⟨by rw [List.flatten_cons, List.length_append], rfl⟩

/-- Frames that were serialized are all read. -/
theorem readFrames_encode (legal : ∀ frame ∈ frames, Legal frame) :
    readFrames (frames.map Serializer.encode) = .ok (frames.map readBack) := by
  induction frames with
  | nil => rfl
  | cons frame frames ih =>
    have hrest := ih fun x hx => legal x (List.mem_cons_of_mem frame hx)
    obtain ⟨hread, -, -⟩ := deserialize_encode (legal frame List.mem_cons_self)
    rw [List.map_cons, readFrames, hread, ok_bind, hrest]
    rfl

/-- The frames of all messages, one after the other. -/
theorem ingest_messages (cuts : List.Forall₂ Cut ms fss) (sendable : ∀ m ∈ ms, Sendable m) (idle : Idle b)
    (i : Nat) : ∃ whole b', ingestAll clock i (fss.flatten.map readBack) b = .ok (whole, b') ∧
      List.Forall₂ Restored ms whole ∧ Idle b' := by
  induction cuts generalizing i b with
  | nil => exact ⟨[], b, rfl, .nil, idle⟩
  | cons hcut _ ih =>
    obtain ⟨env, b₁, hfirst, hrestored, hidle₁⟩ := ingest_message (sendable _ List.mem_cons_self) hcut idle i
    obtain ⟨whole, b', hrest, hothers, hidle⟩ :=
      ih (fun x hx => sendable x (List.mem_cons_of_mem _ hx)) hidle₁ (i + (List.map readBack _).length)
    refine ⟨env :: whole, b', ?_, .cons hrestored hothers, hidle⟩
    rw [List.flatten_cons, List.map_append]
    exact ingestAll_append hfirst hrest

/-- What is read off the stream is a beginning of the frames that were written, and all of them that can be read
when the reads are reliable. -/
theorem Wrote.arrive {s s' : Outbound} {k : Nat} {tail : List UInt8} (h : Wrote frames s s' k tail)
    (hempty : s.wire = []) (legal : ∀ frame ∈ frames, Legal frame) (os : Nat → Round) (rounds n : Nat) :
    ∃ j, recvFrames socketRecvBufBytes n (List.replicate socketRecvBufBytes.toNat 0) ⟨s'.wire, os, rounds⟩ =
        .ok ((frames.take j).map Serializer.encode) ∧ (Reliable os → j = min n k) := by
  have hannounces : ∀ body ∈ (frames.take k).map Serializer.encode,
      Framing.Announces (format socketRecvBufBytes) (head body) body := by
    intro body hbody
    obtain ⟨frame, hframe, rfl⟩ := List.mem_map.mp hbody
    exact announces_frameHeader (encode_frameOk (legal frame (List.mem_of_mem_take hframe)).valid) (by decide)
  have hwire : s'.wire = Framing.encode head ((frames.take k).map Serializer.encode) ++ tail := by
    rw [h.wire, hempty, List.nil_append]
  have hdecode : Framing.decode (format socketRecvBufBytes) n s'.wire =
      ((frames.take k).map Serializer.encode).take n := by
    rw [hwire]
    exact Framing.decode_encode hannounces h.short n
  obtain ⟨read, hrecv, hprefix, hreliable⟩ := recvFrames_prefix n ⟨s'.wire, os, rounds⟩
    (show socketRecvBufBytes > 0 by decide) (Nat.le_of_eq (List.length_replicate (a := (0 : UInt8))).symm)
  dsimp only at hprefix hreliable
  rw [hdecode] at hprefix hreliable
  have htake := List.prefix_iff_eq_take.mp hprefix
  rw [← List.map_take, ← List.map_take, List.take_take, List.take_take] at htake
  refine ⟨min (min read.length n) k, ?_, fun hos => ?_⟩
  · rw [hrecv]
    exact congrArg Except.ok htake
  · have hsome := h.some
    rw [hreliable hos, List.length_take, List.length_map, List.length_take]
    omega

/-- Whatever the operating systems at both ends do, what has come out is a beginning of the messages that were
put in, each as it was; and it is all of them when nothing failed. -/
theorem connection_carries (sendable : ∀ m ∈ ms, Sendable m) (s : Outbound) (hempty : s.wire = []) :
    ∃ sent s', putMessages ms s = .ok (sent, s') ∧
      ∀ (os : Nat → Round) (rounds n : Nat) (clock : Nat → UInt64),
        ∃ out, takeMessages clock n ⟨s'.wire, os, rounds⟩ = .ok out ∧
          List.Forall₂ Restored (ms.take out.length) out ∧
          (sent = true → Reliable os → ms.length * fragMaxCount ≤ n → out.length = ms.length) := by
  obtain ⟨sent, s', fss, k, tail, hrun, hcuts, hwrote, hall⟩ := putMessages_spec sendable s
  refine ⟨sent, s', hrun, fun os rounds n clock => ?_⟩
  have hlegal := cuts_legal hcuts sendable
  obtain ⟨j, hrecv, hreliable⟩ := hwrote.arrive hempty hlegal os rounds n
  have hread : readFrames ((fss.flatten.take j).map Serializer.encode) =
      .ok ((fss.flatten.map readBack).take j) := by
    rw [readFrames_encode fun f hf => hlegal f (List.mem_of_mem_take hf), List.map_take]
  -- All the frames give all the messages, so the first of them give the beginning.
  obtain ⟨whole, b', hwhole, hrestored, -⟩ : ∃ whole b',
      ingestAll clock 0 (fss.flatten.map readBack) .init = .ok (whole, b') ∧
        List.Forall₂ Restored ms whole ∧ Idle b' := ingest_messages hcuts sendable idle_init 0
  obtain ⟨out, b₁, hout, hbeginning⟩ := ingestAll_take hwhole j
  refine ⟨out, ?_, ?_, fun hsent hos hn => ?_⟩
  · unfold takeMessages
    rw [hrecv, ok_bind, hread, ok_bind, hout]
    rfl
  · have hsame := List.forall₂_take out.length hrestored
    rw [← List.prefix_iff_eq_take.mp hbeginning] at hsame
    exact hsame
  · obtain ⟨hk, -⟩ := hall hsent
    have hshort := cuts_short hcuts sendable
    have hj := hreliable hos
    rw [List.take_of_length_le (by rw [List.length_map]; omega), hwhole] at hout
    cases hout
    exact hrestored.length_eq.symm

/-- A message in one frame, and one in two. -/
theorem connection_carries_two :
    ∃ sent s',
      putMessages [Serializer.legacyEnvelope, wideMessage] ⟨[], fun _ => .moved 1, 0, []⟩ = .ok (sent, s') ∧
      ∀ (os : Nat → Round) (rounds n : Nat) (clock : Nat → UInt64),
        ∃ out, takeMessages clock n ⟨s'.wire, os, rounds⟩ = .ok out ∧
          List.Forall₂ Restored ([Serializer.legacyEnvelope, wideMessage].take out.length) out ∧
          (sent = true → Reliable os → 2 * fragMaxCount ≤ n → out.length = 2) := by
  apply connection_carries
  · intro m hm
    rw [List.mem_cons, List.mem_singleton] at hm
    rcases hm with rfl | rfl
    · exact ⟨by decide, rfl, by decide, .inl rfl⟩
    · exact ⟨by decide, rfl, by decide, .inl rfl⟩
  · rfl

end Connection

end MessageEngine
