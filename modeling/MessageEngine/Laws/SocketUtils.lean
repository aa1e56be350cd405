import MessageEngine.Core.SocketUtils
import MessageEngine.Laws.Serializer.Words
import MessageEngine.Lib.Framing

/-!
# Framed messages over a byte stream

Both loops move a number of bytes that depends on the operating system, and stop early or move all
of them. Said so (`socketSendAll_spec`, `socketRecvExact_spec`), nothing about rounds is needed any
more: a send puts a prefix of the frame on the wire, and a receive takes one frame off it, as
`Framing.next` does, or fails.

## What is proved

- `tcpSendFrame_spec`: a send writes a prefix of its frame, the whole frame if it succeeds;
- `tcpRecvFrame_spec`: a receive that succeeds reads the next frame of the stream;
- `recvFrames_prefix` and `recvFrames_reliable`: what a sequence of receives returns;
- `framing_round_trip`: what was sent is received, however the stream is cut.
-/

namespace MessageEngine

open Outcome Bytes

namespace SocketUtils

variable {buf : List UInt8}

theorem amount_spec {n most : Nat} (h : 0 < most) :
    0 < Round.amount n most ∧ Round.amount n most ≤ most := by
  unfold Round.amount
  omega

/-! ## Sending -/

theorem sendLoop_spec (buf : List UInt8) (len fuel sent : Nat) (s : Outbound)
    (hfuel : len ≤ sent + fuel) (hsent : sent ≤ len) :
    ∃ r s' k, sendLoop buf len fuel sent s = (r, s') ∧ s'.wire = s.wire ++ slice buf sent k ∧
      s'.calls = s.calls ∧ ((r = some len ∧ sent + k = len) ∨ (r = none ∧ sent + k < len)) := by
  induction fuel generalizing sent s with
  | zero =>
    have heq : sent = len := by omega
    exact ⟨some sent, s, 0, rfl, by simp [slice], rfl, .inl ⟨by rw [heq], heq⟩⟩
  | succ fuel ih =>
    rw [sendLoop]
    by_cases hmore : sent < len
    · rw [if_pos hmore]
      have hstop : ∃ r s' k, (none, { s with rounds := s.rounds + 1 }) = (r, s') ∧
          s'.wire = s.wire ++ slice buf sent k ∧ s'.calls = s.calls ∧
            ((r = some len ∧ sent + k = len) ∨ (r = none ∧ sent + k < len)) :=
        ⟨none, _, 0, rfl, by simp [slice], rfl, .inr ⟨rfl, hmore⟩⟩
      cases s.os s.rounds with
      | timeout => exact hstop
      | failed => exact hstop
      | closed => exact hstop
      | moved n =>
        obtain ⟨hpos, hmost⟩ := amount_spec (n := n) (show 0 < len - sent by omega)
        obtain ⟨r, s', k, hrun, hwire, hcalls, hend⟩ := ih (sent + Round.amount n (len - sent))
          { s with rounds := s.rounds + 1
                   wire := s.wire ++ slice buf sent (Round.amount n (len - sent)) } (by omega) (by omega)
        refine ⟨r, s', Round.amount n (len - sent) + k, hrun, ?_, hcalls, ?_⟩
        · rw [hwire, List.append_assoc, slice_append rfl]
        · rw [← Nat.add_assoc]
          exact hend
    · rw [if_neg hmore]
      have heq : sent = len := by omega
      exact ⟨some sent, s, 0, rfl, by simp [slice], rfl, .inl ⟨by rw [heq], heq⟩⟩

/-- `socket_send_all` writes a prefix of the buffer, and all of it when it succeeds. -/
theorem socketSendAll_spec (s : Outbound) {len : UInt32} (hpos : len > 0) (hlen : len.toNat ≤ buf.length) :
    ∃ ok s' k, socketSendAll s buf len = .ok (ok, s') ∧ s'.wire = s.wire ++ buf.take k ∧
      s'.calls = s.calls ∧ k ≤ len.toNat ∧ (ok = true ↔ k = len.toNat) := by
  obtain ⟨r, s', k, hrun, hwire, hcalls, hend⟩ :=
    sendLoop_spec buf len.toNat len.toNat 0 s (by omega) (Nat.zero_le _)
  unfold socketSendAll
  simp only [neverCompiledOutAssert, ensure_pos hpos, ok_bind, if_neg (Nat.not_lt.mpr hlen), hrun]
  rw [Nat.zero_add] at hend
  rcases hend with ⟨rfl, hk⟩ | ⟨rfl, hk⟩
  · refine ⟨true, s', k, ?_, hwire, hcalls, by omega, by simp [hk]⟩
    simp only [ensure_pos, ok_bind, pure_eq_ok]
  · exact ⟨false, s', k, rfl, hwire, hcalls, by omega, by simp; omega⟩

theorem frameHeader_eq (len : UInt32) : frameHeader len = toBigEndian 4 len.toNat := by
  have hlast : (len &&& 0xFF).toUInt8 = ((len >>> 0) &&& 0xFF).toUInt8 := by
    rw [UInt32.shiftRight_zero]
  rw [frameHeader, hlast]
  simp only [Serializer.byte32 len (k := 24) (w := 3) (by decide) (by decide),
    Serializer.byte32 len (k := 16) (w := 2) (by decide) (by decide),
    Serializer.byte32 len (k := 8) (w := 1) (by decide) (by decide),
    Serializer.byte32 len (k := 0) (w := 0) (by decide) (by decide), toBigEndian]

theorem length_frameHeader (len : UInt32) : (frameHeader len).length = 4 := rfl

/-- The bytes of a frame. -/
def frameBytes (buf : List UInt8) (len : UInt32) : List UInt8 := frameHeader len ++ buf.take len.toNat

/-- `tcp_send_frame` writes a prefix of its frame, and all of it when it succeeds. -/
theorem tcpSendFrame_spec (s : Outbound) {len : UInt32} (hlen : len.toNat ≤ buf.length) :
    ∃ ok s' k, tcpSendFrame s buf len = .ok (ok, s') ∧
      s'.wire = s.wire ++ (frameBytes buf len).take k ∧ s'.calls = s.calls ++ [(buf.take len.toNat, k)] ∧
        k ≤ 4 + len.toNat ∧ (ok = true ↔ k = 4 + len.toNat) := by
  have hwrite : ∃ ok s' k, writeFrame s buf len = .ok (ok, s') ∧
      s'.wire = s.wire ++ (frameBytes buf len).take k ∧ s'.calls = s.calls ∧
        k ≤ 4 + len.toNat ∧ (ok = true ↔ k = 4 + len.toNat) := by
    obtain ⟨ok₁, s₁, k₁, hrun₁, hwire₁, hcalls₁, hk₁, hok₁⟩ :=
      @socketSendAll_spec (frameHeader len) s 4 (by decide) (Nat.le_refl 4)
    rw [show (4 : UInt32).toNat = 4 from rfl] at hk₁ hok₁
    have hhead : (frameHeader len).take k₁ = (frameBytes buf len).take k₁ :=
      (List.take_append_of_le_length hk₁).symm
    unfold writeFrame
    rw [hrun₁, ok_bind]
    cases ok₁ with
    | false =>
      have hne : k₁ ≠ 4 := fun heq => by simpa using hok₁.mpr heq
      refine ⟨false, s₁, k₁, rfl, by rw [hwire₁, hhead], hcalls₁, by omega, ?_⟩
      simp only [Bool.false_eq_true, false_iff]
      omega
    | true =>
      have heq : k₁ = 4 := hok₁.mp rfl
      subst heq
      by_cases hpos : len > 0
      · obtain ⟨ok₂, s₂, k₂, hrun₂, hwire₂, hcalls₂, hk₂, hok₂⟩ := socketSendAll_spec s₁ hpos hlen
        have hbytes : s₂.wire = s.wire ++ (frameBytes buf len).take (4 + k₂) := by
          rw [hwire₂, hwire₁, List.append_assoc, frameBytes, ← length_frameHeader len,
            List.take_length_add_append, List.take_take, Nat.min_eq_left hk₂, List.take_length]
        refine ⟨ok₂, s₂, 4 + k₂, ?_, hbytes, by rw [hcalls₂, hcalls₁], by omega, by rw [hok₂]; omega⟩
        simp only [Bool.not_true, Bool.false_eq_true, if_false, if_pos hpos, hrun₂, ok_bind]
        cases ok₂ with
        | false => rfl
        | true => rfl
      · have hzero : len.toNat = 0 := by
          rw [gt_iff_lt, UInt32.lt_iff_toNat_lt] at hpos
          exact Nat.eq_zero_of_not_pos hpos
        refine ⟨true, s₁, 4, ?_, by rw [hwire₁, hhead], hcalls₁, by omega, by simp [hzero]⟩
        simp only [Bool.not_true, Bool.false_eq_true, if_false, if_neg hpos, pure_eq_ok]
  obtain ⟨ok, s', k, hrun, hwire, hcalls, hk, hok⟩ := hwrite
  have hput : s'.wire.length - s.wire.length = k := by
    have hlength : (frameBytes buf len).length = 4 + len.toNat := by
      rw [frameBytes, List.length_append, List.length_take, Nat.min_eq_left hlen, length_frameHeader]
    rw [hwire, List.length_append, List.length_take, hlength]
    omega
  refine ⟨ok, { s' with calls := s'.calls ++ [(buf.take len.toNat, s'.wire.length - s.wire.length)] },
    k, ?_, hwire, ?_, hk, hok⟩
  · rw [tcpSendFrame, hrun]
    rfl
  · simp only [hcalls, hput]

/-! ## Receiving -/

/-- Every round moves bytes. -/
def Reliable (os : Nat → Round) : Prop := ∀ t, ∃ n, os t = .moved n

theorem recvLoop_spec (len fuel received : Nat) (buf : List UInt8) (s : Inbound)
    (hfuel : len ≤ received + fuel) (hreceived : received ≤ len) (hbuf : len ≤ buf.length) :
    ∃ r k, recvLoop len fuel received buf s = r ∧ r.socket.wire = s.wire.drop k ∧
      r.buf = overwrite buf received (s.wire.take k) ∧ r.socket.os = s.os ∧ k ≤ s.wire.length ∧
      ((r.count = some len ∧ received + k = len) ∨
        (r.count = none ∧ received + k < len ∧ (Reliable s.os → s.wire.length = k))) := by
  induction fuel generalizing received buf s with
  | zero =>
    have heq : received = len := by omega
    exact ⟨_, 0, rfl, rfl, by simp [overwrite, recvLoop], rfl, Nat.zero_le _,
      .inl ⟨by rw [recvLoop, heq], heq⟩⟩
  | succ fuel ih =>
    rw [recvLoop]
    by_cases hmore : received < len
    · rw [if_pos hmore]
      have hstop (hnot : Reliable s.os → s.wire.length = 0) :
          ∃ r k, (⟨none, buf, { s with rounds := s.rounds + 1 }⟩ : Received) = r ∧
            r.socket.wire = s.wire.drop k ∧ r.buf = overwrite buf received (s.wire.take k) ∧
            r.socket.os = s.os ∧ k ≤ s.wire.length ∧ ((r.count = some len ∧ received + k = len) ∨
              (r.count = none ∧ received + k < len ∧ (Reliable s.os → s.wire.length = k))) :=
        ⟨_, 0, rfl, rfl, by simp [overwrite], rfl, Nat.zero_le _, .inr ⟨rfl, hmore, hnot⟩⟩
      have hlate (round : Round) (hround : s.os s.rounds = round) (hne : ∀ n, round ≠ .moved n) :
          Reliable s.os → s.wire.length = 0 := by
        intro hos
        obtain ⟨n, hn⟩ := hos s.rounds
        exact absurd (hround.symm.trans hn) (hne n)
      cases hround : s.os s.rounds with
      | timeout => exact hstop (hlate _ hround (by intro _ h; cases h))
      | failed => exact hstop (hlate _ hround (by intro _ h; cases h))
      | closed => exact hstop (hlate _ hround (by intro _ h; cases h))
      | moved n =>
        cases hwire : s.wire with
        | nil =>
          rw [hwire] at hstop
          exact hstop (fun _ => rfl)
        | cons b rest =>
          obtain ⟨hpos, hmost⟩ := amount_spec (n := n)
            (show 0 < min (len - received) (b :: rest).length by simp; omega)
          simp only
          generalize Round.amount n (min (len - received) (b :: rest).length) = got at hpos hmost ⊢
          have htake : ((b :: rest).take got).length = got := by
            rw [List.length_take]
            omega
          obtain ⟨r, k, hrun, hrest, hbuf', hos, hk, hend⟩ := ih (received + got)
            (overwrite buf received ((b :: rest).take got))
            { s with rounds := s.rounds + 1, wire := (b :: rest).drop got } (by omega) (by omega)
            (by rw [length_overwrite (by omega)]; exact hbuf)
          simp only [List.length_drop] at hk hend
          refine ⟨r, got + k, hrun, ?_, ?_, hos, by omega, ?_⟩
          · rw [hrest, List.drop_drop]
          · have htail : (((b :: rest).drop got).take k).length = k := by
              rw [List.length_take, List.length_drop]
              omega
            have hjoin := overwrite_overwrite buf received ((b :: rest).take got)
              (((b :: rest).drop got).take k) (by omega)
            rw [htake, ← List.take_add] at hjoin
            rw [hbuf', hjoin]
          · rw [← Nat.add_assoc]
            rcases hend with hend | ⟨hnone, hlt, hall⟩
            · exact .inl hend
            · exact .inr ⟨hnone, hlt, fun h => by have := hall h; omega⟩
    · rw [if_neg hmore]
      have heq : received = len := by omega
      exact ⟨_, 0, rfl, rfl, by simp [overwrite], rfl, Nat.zero_le _, .inl ⟨by rw [heq], heq⟩⟩

/-- `socket_recv_exact` reads a number of bytes into the front of the buffer: all it was asked for
when it succeeds, and all there are when only their number stops it. -/
theorem socketRecvExact_spec (s : Inbound) {len : UInt32} (hpos : len > 0)
    (hlen : len.toNat ≤ buf.length) :
    ∃ ok buf' s' k, socketRecvExact s buf len = .ok (ok, buf', s') ∧ s'.wire = s.wire.drop k ∧
      buf' = overwrite buf 0 (s.wire.take k) ∧ s'.os = s.os ∧ k ≤ s.wire.length ∧ k ≤ len.toNat ∧
        (ok = true ↔ k = len.toNat) ∧ (Reliable s.os → ok = false → s.wire.length < len.toNat) := by
  obtain ⟨r, k, hrun, hwire, hbuf, hos, hk, hend⟩ :=
    recvLoop_spec len.toNat len.toNat 0 buf s (by omega) (Nat.zero_le _) hlen
  unfold socketRecvExact
  simp only [neverCompiledOutAssert, ensure_pos hpos, ok_bind, if_neg (Nat.not_lt.mpr hlen), hrun]
  obtain ⟨count, buf', s'⟩ := r
  rw [Nat.zero_add] at hend
  rcases hend with ⟨rfl, hend⟩ | ⟨rfl, hend, hall⟩
  · refine ⟨true, buf', s', k, ?_, hwire, hbuf, hos, hk, by omega, by simp [hend], by intro _ h; cases h⟩
    simp only [ensure_pos, ok_bind, pure_eq_ok]
  · refine ⟨false, buf', s', k, rfl, hwire, hbuf, hos, hk, by omega, by simp; omega, ?_⟩
    intro h _
    rw [hall h]
    exact hend

/-! ## Frames -/

/-- The frames `tcp_recv_frame` takes with a buffer of `bufCap` bytes. -/
def format (bufCap : UInt32) : Framing.Format UInt8 where
  header := 4
  size header :=
    if frameLen header < 52 ∨ frameLen header > maxSafeFrame ∨ frameLen header > bufCap then none
    else some (frameLen header).toNat

variable {bufCap : UInt32}

/-- The first four bytes are read, or too few arrived. -/
theorem recvHeader_spec (s : Inbound) :
    ∃ ok header s', socketRecvExact s (List.replicate 4 0) 4 = .ok (ok, header, s') ∧ s'.os = s.os ∧
      (ok = true → 4 ≤ s.wire.length ∧ header = s.wire.take 4 ∧ s'.wire = s.wire.drop 4) ∧
      (Reliable s.os → ok = false → s.wire.length < 4) := by
  obtain ⟨ok, header, s', k, hrun, hwire, hheader, hos, hk, -, hok, hall⟩ :=
    @socketRecvExact_spec (List.replicate 4 0) s 4 (by decide) (Nat.le_refl 4)
  refine ⟨ok, header, s', hrun, hos, fun h => ?_, hall⟩
  have hfour : k = 4 := hok.mp h
  subst hfour
  have hlen : (s.wire.take 4).length = 4 := by
    rw [List.length_take]
    omega
  refine ⟨hk, ?_, hwire⟩
  rw [hheader, overwrite, hlen]
  simp

/-- `tcp_recv_frame` returns the next frame of the stream; when only the stream can stop it, it
fails only where no frame comes next. -/
theorem tcpRecvFrame_spec (s : Inbound) (hcap : bufCap > 0) (hbuf : bufCap.toNat ≤ buf.length) :
    ∃ r, tcpRecvFrame s buf bufCap = .ok r ∧ r.buf.length = buf.length ∧ r.socket.os = s.os ∧
      (∀ n, r.outLen = some n → n = frameLen (s.wire.take 4) ∧
        Framing.next (format bufCap) s.wire = some (r.buf.take n.toNat, r.socket.wire)) ∧
      (Reliable s.os → r.outLen = none → Framing.next (format bufCap) s.wire = none) := by
  have hheader : (format bufCap).header = 4 := rfl
  obtain ⟨ok₁, header, s₁, hrun₁, hos₁, hread₁, hfail₁⟩ := recvHeader_spec s
  unfold tcpRecvFrame
  simp only [neverCompiledOutAssert, ensure_pos hcap, ok_bind, hrun₁]
  cases ok₁ with
  | false =>
    refine ⟨⟨none, buf, s₁⟩, rfl, rfl, hos₁, (by intro _ h; cases h), fun hos _ => ?_⟩
    have hshort := hfail₁ hos rfl
    rw [Framing.next, hheader, if_neg (Nat.not_le.mpr hshort)]
  | true =>
    obtain ⟨hfour, rfl, hwire₁⟩ := hread₁ rfl
    simp only [Bool.not_true, Bool.false_eq_true, if_false]
    by_cases hbad : frameLen (s.wire.take 4) < 52 ∨ frameLen (s.wire.take 4) > maxSafeFrame ∨
        frameLen (s.wire.take 4) > bufCap
    · rw [if_pos hbad]
      refine ⟨⟨none, buf, s₁⟩, rfl, rfl, hos₁, (by intro _ h; cases h), fun _ _ => ?_⟩
      rw [Framing.next, hheader, if_pos hfour]
      simp only [format, if_pos hbad]
    · rw [if_neg hbad]
      have hsize : (format bufCap).size (s.wire.take 4) = some (frameLen (s.wire.take 4)).toNat :=
        if_neg hbad
      rw [not_or, not_or, UInt32.not_lt, UInt32.not_lt, UInt32.not_lt] at hbad
      obtain ⟨hmin, hmax, hfits⟩ := hbad
      have hpos : frameLen (s.wire.take 4) > 0 := UInt32.lt_of_lt_of_le (by decide) hmin
      have hroom : (frameLen (s.wire.take 4)).toNat ≤ buf.length :=
        Nat.le_trans (UInt32.le_iff_toNat_le.mp hfits) hbuf
      obtain ⟨ok₂, buf₂, s₂, k, hrun₂, hwire₂, hbuf₂, hos₂, hk, hkmax, hok₂, hall⟩ :=
        socketRecvExact_spec s₁ hpos hroom
      have hlength : buf₂.length = buf.length := by
        rw [hbuf₂, length_overwrite]
        rw [List.length_take]
        omega
      rw [hwire₁] at hall hk hwire₂ hbuf₂
      simp only [ensure_pos hmax, ensure_pos hfits, ok_bind, hrun₂]
      cases ok₂ with
      | false =>
        refine ⟨⟨none, buf₂, s₂⟩, rfl, hlength, hos₂.trans hos₁, (by intro _ h; cases h), fun hos _ => ?_⟩
        have hshort := hall (hos₁ ▸ hos) rfl
        rw [Framing.next, hheader, if_pos hfour, hsize]
        exact if_neg (Nat.not_le.mpr hshort)
      | true =>
        have heq : k = (frameLen (s.wire.take 4)).toNat := hok₂.mp rfl
        refine ⟨⟨some _, buf₂, s₂⟩, rfl, hlength, hos₂.trans hos₁, fun n hn => ?_, by intro _ h; cases h⟩
        cases hn
        refine ⟨rfl, ?_⟩
        have hbody : buf₂.take (frameLen (s.wire.take 4)).toNat =
            (s.wire.drop 4).take (frameLen (s.wire.take 4)).toNat := by
          have hlen : ((s.wire.drop 4).take k).length = k := by
            rw [List.length_take]
            omega
          rw [hbuf₂, ← heq]
          nth_rewrite 1 [← hlen]
          exact take_overwrite_zero buf _
        rw [Framing.next, hheader, if_pos hfour, hsize, hbody, hwire₂, heq]
        exact if_pos (heq ▸ hk)

/-- A sequence of receives returns frames of the stream, in order and from its beginning. -/
theorem recvFrames_prefix (n : Nat) (s : Inbound) (hcap : bufCap > 0) (hbuf : bufCap.toNat ≤ buf.length) :
    ∃ frames, recvFrames bufCap n buf s = .ok frames ∧
      frames <+: Framing.decode (format bufCap) n s.wire ∧
      (Reliable s.os → frames = Framing.decode (format bufCap) n s.wire) := by
  induction n generalizing s buf with
  | zero => exact ⟨[], rfl, List.prefix_refl [], fun _ => rfl⟩
  | succ n ih =>
    obtain ⟨r, hrun, hlength, hos, hsome, hnone⟩ := tcpRecvFrame_spec s hcap hbuf
    rw [recvFrames, hrun, ok_bind]
    cases hout : r.outLen with
    | none =>
      refine ⟨[], rfl, List.nil_prefix, fun hrel => ?_⟩
      rw [Framing.decode, hnone hrel hout]
    | some len =>
      obtain ⟨frames, hframes, hpre, heq⟩ := ih r.socket (hlength ▸ hbuf)
      have hdecode : Framing.decode (format bufCap) (n + 1) s.wire =
          r.buf.take len.toNat :: Framing.decode (format bufCap) n r.socket.wire := by
        rw [Framing.decode, (hsome len hout).2]
      refine ⟨r.buf.take len.toNat :: frames, ?_, ?_, fun hrel => ?_⟩
      · simp only [hframes, ok_bind, pure_eq_ok]
      · rw [hdecode]
        exact List.cons_prefix_cons.mpr ⟨rfl, hpre⟩
      · rw [hdecode, heq (hos ▸ hrel)]

/-- A frame of a length that may be sent. -/
def FrameOk (frame : List UInt8) : Prop :=
  wireHeaderSize ≤ frame.length ∧ frame.length ≤ wireHeaderSize + msgMaxPayloadBytes

/-- The length is the number the four bytes spell. -/
theorem frameLen_eq {header : List UInt8} (h : header.length = 4) :
    frameLen header = UInt32.ofNat (ofBigEndian header) := by
  match header, h with
  | [b0, b1, b2, b3], _ =>
    rw [← Serializer.word32, UInt32.zero_or, UInt32.shiftLeft_zero]
    rfl

theorem frameLen_frameHeader (len : UInt32) : frameLen (frameHeader len) = len := by
  rw [frameLen_eq (length_frameHeader len), frameHeader_eq, ofBigEndian_toBigEndian_of_lt len.toNat_lt,
    UInt32.ofNat_toNat]

/-- The header of a frame that may be sent announces it. -/
theorem announces_frameHeader {frame : List UInt8} (h : FrameOk frame)
    (hcap : wireHeaderSize + msgMaxPayloadBytes ≤ bufCap.toNat) :
    Framing.Announces (format bufCap) (frameHeader (.ofNat frame.length)) frame where
  length := length_frameHeader _
  size := by
    obtain ⟨hmin, hmax⟩ := h
    simp only [wireHeaderSize, msgMaxPayloadBytes] at hmin hmax hcap
    have hval : (UInt32.ofNat frame.length).toNat = frame.length := by
      rw [UInt32.toNat_ofNat', Nat.mod_eq_of_lt (by omega)]
    simp only [format, frameLen_frameHeader]
    rw [if_neg, hval]
    rw [not_or, not_or, UInt32.not_lt, UInt32.not_lt, UInt32.not_lt]
    simp only [UInt32.le_iff_toNat_le, hval]
    exact ⟨hmin, hmax, by omega⟩

/-! ## The round trip -/

/-- Successive calls of `tcp_send_frame`, up to the first that fails; whether all succeeded. -/
def sendFrames : List (List UInt8) → Outbound → Checked (Bool × Outbound)
  | [], s => pure (true, s)
  | frame :: frames, s => do
    let (ok, s) ← tcpSendFrame s frame (.ofNat frame.length)
    if !ok then
      return (false, s)
    sendFrames frames s

/-- Frames that were sent are on the wire, whole and in order. -/
theorem sendFrames_wire {frames : List (List UInt8)} {s s' : Outbound}
    (hframes : ∀ frame ∈ frames, FrameOk frame) (hsent : sendFrames frames s = .ok (true, s')) :
    s'.wire = s.wire ++ Framing.encode (fun frame => frameHeader (.ofNat frame.length)) frames := by
  induction frames generalizing s with
  | nil =>
    cases hsent
    simp [Framing.encode]
  | cons frame frames ih =>
    obtain ⟨-, hmax⟩ := hframes frame List.mem_cons_self
    have hval : (UInt32.ofNat frame.length).toNat = frame.length := by
      rw [UInt32.toNat_ofNat', Nat.mod_eq_of_lt (Nat.lt_of_le_of_lt hmax (by decide))]
    obtain ⟨ok, s₁, k, hrun, hwire, -, -, hok⟩ :=
      @tcpSendFrame_spec frame s (.ofNat frame.length) (Nat.le_of_eq hval)
    rw [sendFrames, hrun, ok_bind] at hsent
    cases ok with
    | false => cases hsent
    | true =>
      have hrest := ih (fun f hf => hframes f (List.mem_cons_of_mem frame hf)) hsent
      have hbytes : frameBytes frame (.ofNat frame.length) =
          frameHeader (.ofNat frame.length) ++ frame := by
        rw [frameBytes, hval, List.take_length]
      have hwhole : (frameHeader (.ofNat frame.length) ++ frame).take k =
          frameHeader (.ofNat frame.length) ++ frame := by
        apply List.take_of_length_le
        rw [hok.mp rfl, hval, List.length_append, length_frameHeader]
      rw [hrest, hwire, hbytes, hwhole, List.append_assoc]
      simp [Framing.encode]

/-- A length out of range stops `tcp_recv_frame` behind the header, with the buffer as it was. -/
theorem tcpRecvFrame_refuses (s : Inbound) (hcap : bufCap > 0) (hos : Reliable s.os)
    (hfour : 4 ≤ s.wire.length)
    (hbad : ofBigEndian (s.wire.take 4) < wireHeaderSize ∨
      wireHeaderSize + msgMaxPayloadBytes < ofBigEndian (s.wire.take 4)) :
    ∃ s', tcpRecvFrame s buf bufCap = .ok ⟨none, buf, s'⟩ ∧ s'.wire = s.wire.drop 4 := by
  obtain ⟨ok, header, s', hrun, hos', hread, hfail⟩ := recvHeader_spec s
  have hok : ok = true := by
    by_contra hnot
    have hshort := hfail hos (Bool.eq_false_iff.mpr hnot)
    omega
  obtain ⟨-, rfl, hwire⟩ := hread hok
  have hlen : (s.wire.take 4).length = 4 := by
    rw [List.length_take]
    omega
  have hlt := ofBigEndian_lt (s.wire.take 4)
  rw [hlen] at hlt
  have hval : (frameLen (s.wire.take 4)).toNat = ofBigEndian (s.wire.take 4) := by
    rw [frameLen_eq hlen, UInt32.toNat_ofNat']
    exact Nat.mod_eq_of_lt hlt
  have hrefused : frameLen (s.wire.take 4) < 52 ∨ frameLen (s.wire.take 4) > maxSafeFrame ∨
      frameLen (s.wire.take 4) > bufCap := by
    rcases hbad with hsmall | hlarge
    · exact .inl (UInt32.lt_iff_toNat_lt.mpr (hval ▸ hsmall))
    · exact .inr (.inl (UInt32.lt_iff_toNat_lt.mpr (hval ▸ hlarge)))
  refine ⟨s', ?_, hwire⟩
  subst hok
  unfold tcpRecvFrame
  simp only [neverCompiledOutAssert, ensure_pos hcap, ok_bind, hrun, Bool.not_true, Bool.false_eq_true,
    if_false, if_pos hrefused, pure_eq_ok]

/-- Frames that were sent are received, in order and with nothing after them, however the stream was
cut on either side; and a length out of range is refused right behind the header. -/
theorem framing_round_trip :
    (∀ (frames : List (List UInt8)) (s s' : Outbound) (os : Nat → Round) (rounds n : Nat)
      (buf : List UInt8) (bufCap : UInt32), (∀ frame ∈ frames, FrameOk frame) → s.wire = [] →
      sendFrames frames s = .ok (true, s') → Reliable os →
      wireHeaderSize + msgMaxPayloadBytes ≤ bufCap.toNat → bufCap.toNat ≤ buf.length →
      recvFrames bufCap n buf ⟨s'.wire, os, rounds⟩ = .ok (frames.take n)) ∧
    (∀ (s : Inbound) (buf : List UInt8) (bufCap : UInt32), bufCap > 0 → Reliable s.os →
      4 ≤ s.wire.length → (ofBigEndian (s.wire.take 4) < wireHeaderSize ∨
        wireHeaderSize + msgMaxPayloadBytes < ofBigEndian (s.wire.take 4)) →
      ∃ s', tcpRecvFrame s buf bufCap = .ok ⟨none, buf, s'⟩ ∧ s'.wire = s.wire.drop 4) := by
  refine ⟨?_, fun s buf bufCap hcap hos hfour hbad => tcpRecvFrame_refuses s hcap hos hfour hbad⟩
  intro frames s s' os rounds n buf bufCap hframes hempty hsent hos hcap hbuf
  have hpos : bufCap > 0 := UInt32.lt_iff_toNat_lt.mpr (Nat.lt_of_lt_of_le (by decide) hcap)
  obtain ⟨received, hrun, -, heq⟩ := recvFrames_prefix n ⟨s'.wire, os, rounds⟩ hpos hbuf
  have hwire := sendFrames_wire hframes hsent
  have hnone : Framing.next (format bufCap) [] = none := rfl
  have hdecode := Framing.decode_encode (fun frame hframe => announces_frameHeader (hframes frame hframe) hcap)
    hnone n
  rw [List.append_nil] at hdecode
  rw [hempty, List.nil_append] at hwire
  rw [hrun, heq hos, ← hdecode, hwire]

/-- A frame of the shortest length, taken byte by byte; and a length of five. -/
theorem framing_round_trip_bytewise :
    (∃ s', sendFrames [List.replicate 52 7] ⟨[], fun _ => .moved 1, 0, []⟩ = .ok (true, s') ∧
      recvFrames 4148 3 (List.replicate 4148 0) ⟨s'.wire, fun _ => .moved 1, 0⟩ =
        .ok [List.replicate 52 7]) ∧
    ∃ s', tcpRecvFrame ⟨[0, 0, 0, 5, 1, 2, 3, 4, 5], fun _ => .moved 1, 0⟩ [] 1 = .ok ⟨none, [], s'⟩ ∧
      s'.wire = [1, 2, 3, 4, 5] := by
  refine ⟨?_, framing_round_trip.2 ⟨[0, 0, 0, 5, 1, 2, 3, 4, 5], fun _ => .moved 1, 0⟩ [] 1
    (by decide) (fun _ => ⟨1, rfl⟩) (by decide) (.inl (by decide))⟩
  have hsent : sendFrames [List.replicate 52 7] ⟨[], fun _ => .moved 1, 0, []⟩ =
      .ok (true, ⟨[0, 0, 0, 52] ++ List.replicate 52 7, fun _ => .moved 1, 56,
        [(List.replicate 52 7, 56)]⟩) := by rfl
  refine ⟨_, hsent, framing_round_trip.1 [List.replicate 52 7] _ _ (fun _ => .moved 1) 0 3 _ 4148 ?_ rfl
    hsent (fun _ => ⟨1, rfl⟩) (by decide) (Nat.le_of_eq List.length_replicate.symm)⟩
  intro frame hframe
  rw [List.mem_singleton.mp hframe]
  exact ⟨by simp, by simp⟩

end SocketUtils

end MessageEngine
