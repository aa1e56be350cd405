import MessageEngine.Core.TlsFraming
import MessageEngine.Laws.SocketUtils

/-!
# Frames over TLS and over TCP

`tls_recv_frame` reads the frames that `tcp_recv_frame` reads, with loops of its own. A call of `ssl_read`
that asks to be called again counts as one that moved bytes, so the loops end early when there are many of
them: four for the header, and one less for each byte of the payload that does not come alone. And the
lengths are not checked alike: what is shorter than the header of a message, or longer than the longest, is
taken over TLS.

What a number of calls brings is a matter of the answers alone (`brought`), as long as the bytes are there.

## What is proved

- `readLoop_spec`: what the loop reads, from the answers;
- `tlsRecvFrame_payload`, `tcpRecvFrame_accepts`: when each of the two returns a frame, and which;
- `tls_agrees_iff`: so when they agree.
-/

namespace MessageEngine

open Outcome Bytes

/-- The bytes that an answer brings, if they are wanted and there. -/
def SslRead.size : SslRead → Nat
  | .chunk n => max n 1
  | _ => 0

namespace TlsFraming

variable {s : SslInbound} {buf : List UInt8} {bufCap : UInt32}

/-- Every call brings bytes, or asks to be called again and the connection becomes readable. -/
def Delivering (answers : Nat → SslRead) : Prop :=
  ∀ t, (∃ n, answers t = .chunk n) ∨ answers t = .wantRead true

/-- What a number of calls brings, from call `call` on. -/
def brought (answers : Nat → SslRead) : Nat → Nat → Nat
  | 0, _ => 0
  | iters + 1, call => (answers call).size + brought answers iters (call + 1)

/-- The calls it takes to bring `need` bytes, and no more than there are iterations. -/
def callsFor (answers : Nat → SslRead) : Nat → Nat → Nat → Nat
  | _, 0, _ => 0
  | need, iters + 1, call =>
    if need = 0 then 0 else 1 + callsFor answers (need - (answers call).size) iters (call + 1)

/-! ## The loop -/

/-- As long as the bytes are there, the answers alone decide how many are read. -/
theorem readLoop_spec {len iters received : Nat} (hos : Delivering s.answers) (hreceived : received ≤ len)
    (hbuf : len ≤ buf.length) (hthere : len ≤ received + s.wire.length) :
    readLoop len iters received buf s =
      ⟨some (received + min (len - received) (brought s.answers iters s.calls)),
        overwrite buf received (s.wire.take (min (len - received) (brought s.answers iters s.calls))),
        { s with
          wire := s.wire.drop (min (len - received) (brought s.answers iters s.calls))
          calls := s.calls + callsFor s.answers (len - received) iters s.calls }⟩ := by
  induction iters generalizing received buf s with
  | zero => simp [readLoop, brought, callsFor, overwrite]
  | succ iters ih =>
    rw [readLoop, brought, callsFor]
    by_cases hmore : received < len
    · rw [if_pos hmore, if_neg (by omega)]
      rcases hos s.calls with ⟨n, hchunk⟩ | hwait
      · cases hwire : s.wire with
        | nil =>
          rw [hwire] at hthere
          simp only [List.length_nil] at hthere
          omega
        | cons b rest =>
          rw [hwire] at hthere
          have hsize : SslRead.size (.chunk n) = max n 1 := rfl
          have hgot : Round.amount n (min (len - received) (b :: rest).length) =
              min (SslRead.size (.chunk n)) (len - received) := by
            unfold Round.amount
            rw [hsize]
            omega
          simp only [hchunk, hgot]
          have hpos : 0 < SslRead.size (.chunk n) := by
            rw [hsize]
            omega
          generalize SslRead.size (.chunk n) = size at hpos ⊢
          have htake : ((b :: rest).take (min size (len - received))).length = min size (len - received) := by
            rw [List.length_take]
            omega
          have hnext := @ih { s with calls := s.calls + 1, wire := (b :: rest).drop (min size (len - received)) }
            (overwrite buf received ((b :: rest).take (min size (len - received))))
            (received + min size (len - received)) hos (by omega)
            (by rw [length_overwrite (by omega)]; exact hbuf)
            (by simp only [List.length_drop]; omega)
          rw [hnext]
          have hsum : min size (len - received) +
              min (len - (received + min size (len - received))) (brought s.answers iters (s.calls + 1)) =
              min (len - received) (size + brought s.answers iters (s.calls + 1)) := by omega
          have hneed : len - (received + min size (len - received)) = len - received - size := by omega
          have hjoin := overwrite_overwrite buf received ((b :: rest).take (min size (len - received)))
            (((b :: rest).drop (min size (len - received))).take
              (min (len - (received + min size (len - received))) (brought s.answers iters (s.calls + 1))))
            (by rw [List.length_take, List.length_take, List.length_drop]; omega)
          rw [htake, ← List.take_add, hsum] at hjoin
          dsimp only
          rw [hjoin, List.drop_drop, Nat.add_assoc received, hsum, hneed, Nat.add_assoc s.calls]
      · simp only [hwait, SslRead.size, Nat.zero_add, Nat.sub_zero]
        have hnext := @ih { s with calls := s.calls + 1 } buf received hos hreceived hbuf hthere
        rw [hnext, Nat.add_assoc]
    · rw [if_neg hmore]
      have heq : received = len := by omega
      subst heq
      simp [overwrite]

/-- No more is read than there is. -/
theorem readLoop_count_le {len iters received m : Nat} (h : (readLoop len iters received buf s).count = some m) :
    m ≤ received + s.wire.length := by
  induction iters generalizing received buf s with
  | zero =>
    cases h
    exact Nat.le_add_right _ _
  | succ iters ih =>
    rw [readLoop] at h
    split at h
    case isFalse =>
      cases h
      exact Nat.le_add_right _ _
    case isTrue =>
      dsimp only at h
      split at h
      case h_1 => exact ih (s := { s with calls := s.calls + 1 }) h
      case h_5 n b rest _ hwire =>
        have hle := ih h
        have hgot : Round.amount n (min (len - received) (b :: rest).length) ≤ (b :: rest).length := by
          unfold Round.amount
          omega
        simp only [hwire, List.length_drop] at hle ⊢
        omega
      all_goals cases h

/-! ## The header -/

/-- The four bytes of the length come within the calls that there are for them. -/
def HeaderInTime (s : SslInbound) : Prop := 4 ≤ brought s.answers 8 s.calls

/-- The bytes of the payload come within the calls that there are for them, after those for the header. -/
def PayloadInTime (s : SslInbound) (len : Nat) : Prop :=
  len ≤ brought s.answers len (s.calls + callsFor s.answers 4 8 s.calls)

instance (s : SslInbound) : Decidable (HeaderInTime s) := inferInstanceAs (Decidable (_ ≤ _))

instance (s : SslInbound) (len : Nat) : Decidable (PayloadInTime s len) := inferInstanceAs (Decidable (_ ≤ _))

/-- The connection behind the header. -/
def behindHeader (s : SslInbound) : SslInbound :=
  { s with wire := s.wire.drop 4, calls := s.calls + callsFor s.answers 4 8 s.calls }

theorem readTlsHeader_inTime (hos : Delivering s.answers) (hfour : 4 ≤ s.wire.length) (htime : HeaderInTime s) :
    readTlsHeader s = (some (s.wire.take 4), behindHeader s) := by
  have hmin : min (4 - 0) (brought s.answers 8 s.calls) = 4 := Nat.min_eq_left htime
  have hloop := @readLoop_spec s (List.replicate 4 0) 4 8 0 hos (by omega) (Nat.le_refl 4) (by omega)
  rw [hmin] at hloop
  have hheader : overwrite (List.replicate 4 0) 0 (s.wire.take 4) = s.wire.take 4 := by
    have hlen : (s.wire.take 4).length = 4 := by
      rw [List.length_take]
      omega
    rw [overwrite, hlen]
    simp
  unfold readTlsHeader
  rw [hloop, hheader]
  rfl

theorem readTlsHeader_none (hos : Delivering s.answers) (hnot : ¬ (4 ≤ s.wire.length ∧ HeaderInTime s)) :
    ∃ s', readTlsHeader s = (none, s') := by
  unfold readTlsHeader
  split
  case h_1 header s' hloop =>
    have hcount : (readLoop 4 8 0 (List.replicate 4 0) s).count = some 4 := congrArg Received.count hloop
    have hle := readLoop_count_le hcount
    have hfour : 4 ≤ s.wire.length := by omega
    rw [@readLoop_spec s (List.replicate 4 0) 4 8 0 hos (by omega) (Nat.le_refl 4) (by omega)] at hcount
    refine absurd ⟨hfour, ?_⟩ hnot
    have hmin := Option.some.inj hcount
    unfold HeaderInTime
    omega
  case h_2 s' _ _ => exact ⟨s', rfl⟩

/-! ## The frame -/

/-- The length that the first four bytes announce. -/
def announced (wire : List UInt8) : Nat := (SocketUtils.frameLen (wire.take 4)).toNat

theorem tlsRecvFrame_none (hos : Delivering s.answers) (hnot : ¬ (4 ≤ s.wire.length ∧ HeaderInTime s)) :
    ∃ r, tlsRecvFrame s buf bufCap = .ok r ∧ r.outLen = none := by
  obtain ⟨s', hheader⟩ := readTlsHeader_none hos hnot
  unfold tlsRecvFrame
  rw [hheader]
  exact ⟨_, rfl, rfl⟩

/-- A length of nothing, or one over the capacity, is refused. -/
theorem tlsRecvFrame_refuses (hos : Delivering s.answers) (hfour : 4 ≤ s.wire.length) (htime : HeaderInTime s)
    (hbad : announced s.wire = 0 ∨ bufCap.toNat < announced s.wire) :
    ∃ r, tlsRecvFrame s buf bufCap = .ok r ∧ r.outLen = none := by
  have hrefused : SocketUtils.frameLen (s.wire.take 4) = 0 ∨ SocketUtils.frameLen (s.wire.take 4) > bufCap := by
    rcases hbad with hzero | hlarge
    · exact .inl (UInt32.toNat_inj.mp hzero)
    · exact .inr (UInt32.lt_iff_toNat_lt.mpr hlarge)
  unfold tlsRecvFrame
  rw [readTlsHeader_inTime hos hfour htime]
  dsimp only
  rw [if_pos hrefused]
  exact ⟨_, rfl, rfl⟩

/-- What is left to do once a length was accepted. -/
theorem tlsRecvFrame_eq (hos : Delivering s.answers) (hfour : 4 ≤ s.wire.length) (htime : HeaderInTime s)
    (hpos : 1 ≤ announced s.wire) (hfits : announced s.wire ≤ bufCap.toNat) :
    tlsRecvFrame s buf bufCap = tlsReadPayload (behindHeader s) buf (SocketUtils.frameLen (s.wire.take 4)) := by
  have haccepted : ¬ (SocketUtils.frameLen (s.wire.take 4) = 0 ∨ SocketUtils.frameLen (s.wire.take 4) > bufCap) := by
    rintro (hzero | hlarge)
    · unfold announced at hpos
      rw [hzero] at hpos
      cases hpos
    · exact absurd (UInt32.lt_iff_toNat_lt.mp hlarge) (Nat.not_lt.mpr hfits)
  unfold tlsRecvFrame
  rw [readTlsHeader_inTime hos hfour htime]
  dsimp only
  rw [if_neg haccepted]

/-- A length over the receive buffer of a backend does not pass the assertion. -/
theorem tlsReadPayload_aborts {len : UInt32} (hlarge : socketRecvBufBytes.toNat < len.toNat) :
    tlsReadPayload s buf len = .error (.assertion .tlsReadPayload) := by
  unfold tlsReadPayload
  rw [neverCompiledOutAssert, ensure_neg fun h =>
    absurd (UInt32.le_iff_toNat_le.mp h.2) (Nat.not_le.mpr hlarge)]
  rfl

/-- The payload is returned when all of it is there and comes in time. -/
theorem tlsReadPayload_spec {len : UInt32} (hos : Delivering s.answers) (hpos : 1 ≤ len.toNat)
    (hmost : len.toNat ≤ socketRecvBufBytes.toNat) (hbuf : len.toNat ≤ buf.length) :
    ∃ r, tlsReadPayload s buf len = .ok r ∧
      (r.outLen = some len ∧ r.buf.take len.toNat = s.wire.take len.toNat ∧
          len.toNat ≤ s.wire.length ∧ len.toNat ≤ brought s.answers len.toNat s.calls ∨
        r.outLen = none ∧ ¬ (len.toNat ≤ s.wire.length ∧ len.toNat ≤ brought s.answers len.toNat s.calls)) := by
  have hallowed : len > 0 ∧ len ≤ socketRecvBufBytes :=
    ⟨UInt32.lt_iff_toNat_lt.mpr hpos, UInt32.le_iff_toNat_le.mpr hmost⟩
  unfold tlsReadPayload
  simp only [neverCompiledOutAssert, ensure_pos hallowed, ok_bind, if_neg (Nat.not_lt.mpr hbuf)]
  by_cases hthere : len.toNat ≤ s.wire.length
  · have hloop := @readLoop_spec s buf len.toNat len.toNat 0 hos (Nat.zero_le _) hbuf (by omega)
    by_cases htime : len.toNat ≤ brought s.answers len.toNat s.calls
    · have hmin : min (len.toNat - 0) (brought s.answers len.toNat s.calls) = len.toNat := by omega
      rw [hmin, Nat.zero_add] at hloop
      have hlen : (s.wire.take len.toNat).length = len.toNat := by
        rw [List.length_take]
        omega
      have hfront := take_overwrite_zero buf (s.wire.take len.toNat)
      rw [hlen] at hfront
      rw [hloop, if_pos rfl]
      exact ⟨_, rfl, .inl ⟨rfl, hfront, hthere, htime⟩⟩
    · have hshort : (readLoop len.toNat len.toNat 0 buf s).count ≠ some len.toNat := by
        rw [hloop]
        intro hcount
        have heq := Option.some.inj hcount
        omega
      rw [if_neg hshort]
      exact ⟨_, rfl, .inr ⟨rfl, fun h => htime h.2⟩⟩
  · have hshort : (readLoop len.toNat len.toNat 0 buf s).count ≠ some len.toNat := by
      intro hcount
      have hle := readLoop_count_le hcount
      omega
    rw [if_neg hshort]
    exact ⟨_, rfl, .inr ⟨rfl, fun h => hthere h.1⟩⟩

/-- When a length was accepted, the frame is returned exactly when its bytes are there and come in time. -/
theorem tlsRecvFrame_payload (hos : Delivering s.answers) (hfour : 4 ≤ s.wire.length) (htime : HeaderInTime s)
    (hpos : 1 ≤ announced s.wire) (hfits : announced s.wire ≤ bufCap.toNat)
    (hmost : announced s.wire ≤ socketRecvBufBytes.toNat) (hbuf : bufCap.toNat ≤ buf.length) :
    ∃ r, tlsRecvFrame s buf bufCap = .ok r ∧
      (r.outLen = some (SocketUtils.frameLen (s.wire.take 4)) ∧
          r.buf.take (announced s.wire) = (s.wire.drop 4).take (announced s.wire) ∧
          4 + announced s.wire ≤ s.wire.length ∧ PayloadInTime s (announced s.wire) ∨
        r.outLen = none ∧ ¬ (4 + announced s.wire ≤ s.wire.length ∧ PayloadInTime s (announced s.wire))) := by
  rw [tlsRecvFrame_eq hos hfour htime hpos hfits]
  obtain ⟨r, hrun, hend⟩ := @tlsReadPayload_spec (behindHeader s) buf (SocketUtils.frameLen (s.wire.take 4))
    hos hpos hmost (Nat.le_trans hfits hbuf)
  have hthere : announced s.wire ≤ (behindHeader s).wire.length ↔ 4 + announced s.wire ≤ s.wire.length := by
    unfold behindHeader
    simp only [List.length_drop]
    omega
  refine ⟨r, hrun, ?_⟩
  rcases hend with ⟨hout, hbytes, hall, hcame⟩ | ⟨hout, hnot⟩
  · exact .inl ⟨hout, hbytes, hthere.mp hall, hcame⟩
  · exact .inr ⟨hout, fun h => hnot ⟨hthere.mpr h.1, h.2⟩⟩

/-! ## Over TCP -/

/-- The lengths of a message: its header, and a payload of any length. -/
def LegalLength (len : Nat) : Prop := 52 ≤ len ∧ len ≤ 4148

instance (len : Nat) : Decidable (LegalLength len) := inferInstanceAs (Decidable (_ ∧ _))

theorem size_eq (header : List UInt8) :
    (SocketUtils.format bufCap).size header =
      if LegalLength (SocketUtils.frameLen header).toNat ∧ (SocketUtils.frameLen header).toNat ≤ bufCap.toNat then
        some (SocketUtils.frameLen header).toNat
      else none := by
  have hmin : (52 : UInt32).toNat = 52 := rfl
  have hmax : SocketUtils.maxSafeFrame.toNat = 4148 := rfl
  unfold SocketUtils.format LegalLength
  simp only [gt_iff_lt, UInt32.lt_iff_toNat_lt, hmin, hmax]
  generalize (SocketUtils.frameLen header).toNat = len
  split
  case isTrue hbad => rw [if_neg (by omega)]
  case isFalse hgood => rw [if_pos (by omega)]

/-- `tcp_recv_frame` returns the next frame when its length is legal and its bytes are there. -/
theorem tcpRecvFrame_accepts (t : Inbound) (hcap : bufCap > 0) (hbuf : bufCap.toNat ≤ buf.length)
    (hos : SocketUtils.Reliable t.os) :
    ∃ r, SocketUtils.tcpRecvFrame t buf bufCap = .ok r ∧
      (r.outLen = some (SocketUtils.frameLen (t.wire.take 4)) ∧
          r.buf.take (announced t.wire) = (t.wire.drop 4).take (announced t.wire) ∧
          4 ≤ t.wire.length ∧ LegalLength (announced t.wire) ∧ announced t.wire ≤ bufCap.toNat ∧
          4 + announced t.wire ≤ t.wire.length ∨
        r.outLen = none ∧ ¬ (4 ≤ t.wire.length ∧ LegalLength (announced t.wire) ∧
          announced t.wire ≤ bufCap.toNat ∧ 4 + announced t.wire ≤ t.wire.length)) := by
  obtain ⟨r, hrun, -, -, hsome, hnone⟩ := SocketUtils.tcpRecvFrame_spec t hcap hbuf
  have hheader : (SocketUtils.format bufCap).header = 4 := rfl
  have hrest : (t.wire.drop 4).length = t.wire.length - 4 := List.length_drop
  refine ⟨r, hrun, ?_⟩
  cases hout : r.outLen with
  | none =>
    refine .inr ⟨rfl, fun ⟨hfour, hlegal, hfits, hthere⟩ => ?_⟩
    have hnext := hnone hos hout
    unfold announced at hlegal hfits hthere
    rw [Framing.next, hheader, if_pos hfour, size_eq, if_pos ⟨hlegal, hfits⟩] at hnext
    dsimp only at hnext
    rw [if_pos (by omega)] at hnext
    cases hnext
  | some n =>
    obtain ⟨rfl, hnext⟩ := hsome n hout
    rw [Framing.next, hheader] at hnext
    split at hnext
    case isFalse => cases hnext
    case isTrue hfour =>
      rw [size_eq] at hnext
      by_cases haccepted : LegalLength (announced t.wire) ∧ announced t.wire ≤ bufCap.toNat
      · unfold announced at haccepted
        rw [if_pos haccepted] at hnext
        dsimp only at hnext
        split at hnext
        case isFalse => cases hnext
        case isTrue hthere =>
          have hbytes := congrArg Prod.fst (Option.some.inj hnext)
          refine .inl ⟨rfl, hbytes.symm, hfour, haccepted.1, haccepted.2, ?_⟩
          unfold announced
          omega
      · unfold announced at haccepted
        rw [if_neg haccepted] at hnext
        cases hnext

/-! ## When the two agree -/

/-- Both return, with a frame or without; and if with one, then the same. -/
def Agree (r : Checked RecvFrame) (r' : Checked SocketUtils.RecvFrame) : Prop :=
  ∃ x y, r = .ok x ∧ r' = .ok y ∧ x.outLen = y.outLen ∧
    ∀ len, x.outLen = some len → x.buf.take len.toNat = y.buf.take len.toNat

theorem agree_ok {x : RecvFrame} {y : SocketUtils.RecvFrame} :
    Agree (.ok x) (.ok y) ↔ x.outLen = y.outLen ∧
      ∀ len, x.outLen = some len → x.buf.take len.toNat = y.buf.take len.toNat := by
  constructor
  · rintro ⟨x', y', hx, hy, hsame⟩
    cases hx
    cases hy
    exact hsame
  · intro hsame
    exact ⟨x, y, rfl, rfl, hsame⟩

/-- A length that TLS does not refuse at once is one that fits the receive buffer, and when its bytes are
there, it is legal exactly when header and payload come in time. -/
def AgreesOn (s : SslInbound) (bufCap : UInt32) : Prop :=
  4 ≤ s.wire.length → 1 ≤ announced s.wire → announced s.wire ≤ bufCap.toNat →
    (HeaderInTime s → announced s.wire ≤ socketRecvBufBytes.toNat) ∧
    (4 + announced s.wire ≤ s.wire.length →
      (LegalLength (announced s.wire) ↔ HeaderInTime s ∧ PayloadInTime s (announced s.wire)))

instance (s : SslInbound) (bufCap : UInt32) : Decidable (AgreesOn s bufCap) :=
  inferInstanceAs (Decidable (_ → _ → _ → _))

/-- On the same bytes `tls_recv_frame` and `tcp_recv_frame` agree under exactly this condition. -/
theorem tls_agrees_iff (s : SslInbound) (t : Inbound) (buf : List UInt8) (bufCap : UInt32)
    (hwire : t.wire = s.wire) (hdelivering : Delivering s.answers) (hreliable : SocketUtils.Reliable t.os)
    (hcap : bufCap > 0) (hbuf : bufCap.toNat ≤ buf.length) :
    Agree (tlsRecvFrame s buf bufCap) (SocketUtils.tcpRecvFrame t buf bufCap) ↔ AgreesOn s bufCap := by
  obtain ⟨y, hy, hend⟩ := tcpRecvFrame_accepts t hcap hbuf hreliable
  rw [hwire] at hend
  rw [hy]
  have hpositive (h : LegalLength (announced s.wire)) : 1 ≤ announced s.wire := Nat.le_trans (by decide) h.1
  by_cases hheader : 4 ≤ s.wire.length ∧ HeaderInTime s
  · obtain ⟨hfour, htime⟩ := hheader
    by_cases hrange : 1 ≤ announced s.wire ∧ announced s.wire ≤ bufCap.toNat
    · obtain ⟨hpos, hfits⟩ := hrange
      by_cases hmost : announced s.wire ≤ socketRecvBufBytes.toNat
      · obtain ⟨x, hx, hcame⟩ := tlsRecvFrame_payload hdelivering hfour htime hpos hfits hmost hbuf
        rw [hx, agree_ok]
        unfold AgreesOn
        rcases hcame with ⟨hxout, hxbytes, hthere, hintime⟩ | ⟨hxout, hxnot⟩
        · rcases hend with ⟨hyout, hybytes, -, hlegal, -, -⟩ | ⟨hyout, hynot⟩
          · refine iff_of_true ⟨hxout.trans hyout.symm, fun len hlen => ?_⟩ fun _ _ _ => ⟨fun _ => hmost, fun _ =>
              iff_of_true hlegal ⟨htime, hintime⟩⟩
            cases hxout.symm.trans hlen
            exact hxbytes.trans hybytes.symm
          · refine iff_of_false (fun hsame => ?_) fun hcond => ?_
            · have hnone := hsame.1
              rw [hxout, hyout] at hnone
              cases hnone
            · have hlegal := ((hcond hfour hpos hfits).2 hthere).mpr ⟨htime, hintime⟩
              exact hynot ⟨hfour, hlegal, hfits, hthere⟩
        · rcases hend with ⟨hyout, -, -, hlegal, -, hthere⟩ | ⟨hyout, hynot⟩
          · refine iff_of_false (fun hsame => ?_) fun hcond => ?_
            · have hnone := hsame.1
              rw [hxout, hyout] at hnone
              cases hnone
            · exact hxnot ⟨hthere, (((hcond hfour hpos hfits).2 hthere).mp hlegal).2⟩
          · refine iff_of_true ⟨hxout.trans hyout.symm, fun len hlen => ?_⟩ fun _ _ _ => ⟨fun _ => hmost, fun hthere =>
              iff_of_false (fun hlegal => hynot ⟨hfour, hlegal, hfits, hthere⟩) fun h => hxnot ⟨hthere, h.2⟩⟩
            rw [hxout] at hlen
            cases hlen
      · refine iff_of_false ?_ fun hcond => hmost ((hcond hfour hpos hfits).1 htime)
        rw [tlsRecvFrame_eq hdelivering hfour htime hpos hfits, tlsReadPayload_aborts (Nat.not_le.mp hmost)]
        rintro ⟨x, -, hx, -⟩
        cases hx
    · have hbad : announced s.wire = 0 ∨ bufCap.toNat < announced s.wire := by omega
      obtain ⟨x, hx, hxout⟩ := @tlsRecvFrame_refuses s buf bufCap hdelivering hfour htime hbad
      rw [hx, agree_ok]
      refine iff_of_true ?_ fun _ hpos hfits => absurd ⟨hpos, hfits⟩ hrange
      rcases hend with ⟨-, -, -, hlegal, hfits, -⟩ | ⟨hyout, -⟩
      · exact absurd ⟨hpositive hlegal, hfits⟩ hrange
      · refine ⟨hxout.trans hyout.symm, fun len hlen => ?_⟩
        rw [hxout] at hlen
        cases hlen
  · obtain ⟨x, hx, hxout⟩ := @tlsRecvFrame_none s buf bufCap hdelivering hheader
    rw [hx, agree_ok]
    rcases hend with ⟨hyout, -, hfour, hlegal, hfits, hthere⟩ | ⟨hyout, hynot⟩
    · refine iff_of_false (fun hsame => ?_) fun hcond => ?_
      · have hnone := hsame.1
        rw [hxout, hyout] at hnone
        cases hnone
      · have hintime := ((hcond hfour (hpositive hlegal) hfits).2 hthere).mp hlegal
        exact hheader ⟨hfour, hintime.1⟩
    · refine iff_of_true ⟨hxout.trans hyout.symm, fun len hlen => ?_⟩ fun hfour _ hfits =>
        ⟨fun htime => absurd ⟨hfour, htime⟩ hheader, fun hthere => ?_⟩
      · rw [hxout] at hlen
        cases hlen
      · exact iff_of_false (fun hlegal => hynot ⟨hfour, hlegal, hfits, hthere⟩) fun h => hheader ⟨hfour, h.1⟩

/-! ### Three streams -/

/-- A stream over TLS with some calls that bring nothing, and then one byte a call. -/
def dripping (wire : List UInt8) (waits : Nat) : SslInbound :=
  ⟨wire, fun t => if t < waits then .wantRead true else .chunk 1, 0⟩

theorem dripping_delivering (wire : List UInt8) (waits : Nat) : Delivering (dripping wire waits).answers := by
  intro t
  unfold dripping
  dsimp only
  split
  · exact .inr rfl
  · exact .inl ⟨1, rfl⟩

/-- The shortest frame of a message. -/
def shortestFrame : List UInt8 := [0, 0, 0, 52] ++ List.replicate 52 7

/-- Four calls that bring nothing are borne. -/
theorem shortestFrame_agrees :
    Agree (tlsRecvFrame (dripping shortestFrame 4) (List.replicate 60 0) 60)
      (SocketUtils.tcpRecvFrame ⟨shortestFrame, fun _ => .moved 1, 0⟩ (List.replicate 60 0) 60) :=
  (tls_agrees_iff (dripping shortestFrame 4) _ _ 60 rfl (dripping_delivering _ _) (fun _ => ⟨1, rfl⟩) (by decide)
    (by decide)).mpr (by decide +kernel)

/-- A fifth is not: TLS refuses a frame that TCP takes. And it takes a frame of five bytes, which TCP
refuses. -/
theorem framings_disagree :
    (∃ x y, tlsRecvFrame (dripping shortestFrame 5) (List.replicate 60 0) 60 = .ok x ∧
      SocketUtils.tcpRecvFrame ⟨shortestFrame, fun _ => .moved 1, 0⟩ (List.replicate 60 0) 60 = .ok y ∧
      x.outLen = none ∧ y.outLen = some 52) ∧
    (∃ x y, tlsRecvFrame (dripping [0, 0, 0, 5, 1, 2, 3, 4, 5] 0) (List.replicate 60 0) 60 = .ok x ∧
      SocketUtils.tcpRecvFrame ⟨[0, 0, 0, 5, 1, 2, 3, 4, 5], fun _ => .moved 1, 0⟩ (List.replicate 60 0) 60 =
        .ok y ∧
      x.outLen = some 5 ∧ y.outLen = none) :=
  ⟨⟨_, _, rfl, rfl, rfl, rfl⟩, ⟨_, _, rfl, rfl, rfl, rfl⟩⟩

end TlsFraming

end MessageEngine
