import MessageEngine.Core.Serializer

/-!
# Framed messages over a byte stream

`tcp_send_frame` writes a length of four bytes, big-endian, and then the message;
`tcp_recv_frame` reads them back. Both move bytes in rounds, a `poll` and then a `send` or `recv`,
and the operating system decides how each round ends: `Round` is that decision, and a connection
carries one for every round. A round that moves bytes moves at least one and at most what is left.

The operating system is reliable and ordered: a byte it took arrives, once, and after those it took
before. So one side of a connection is the list of bytes it took and the other the list of bytes
still to be read.
-/

namespace MessageEngine

open Outcome

/-- How one round of `poll` and `send`, or `poll` and `recv`, ends: `poll` times out or fails, the
call fails, the call returns zero, or it moves bytes. -/
inductive Round where
  | timeout
  | failed
  | closed
  | moved (n : Nat)

/-- The number of bytes a round moves when `most` could be. -/
def Round.amount (n most : Nat) : Nat := min (max n 1) most

/-- The sending side of a connection. `calls` is not program state and nothing reads it: it lists
the frames `tcp_send_frame` was called with, and how many bytes each call put on the wire. -/
structure Outbound where
  wire : List UInt8
  os : Nat → Round
  rounds : Nat
  calls : List (List UInt8 × Nat)

/-- The receiving side of a connection: the bytes not read yet. -/
structure Inbound where
  wire : List UInt8
  os : Nat → Round
  rounds : Nat

namespace SocketUtils

/-! ## Sending -/

/-- The loop of `socket_send_all`, with the rounds that are left; `none` is the return in the
middle. -/
def sendLoop (buf : List UInt8) (len : Nat) : Nat → Nat → Outbound → Option Nat × Outbound
  | 0, sent, s => (some sent, s)
  | fuel + 1, sent, s =>
    if sent < len then
      let round := s.os s.rounds
      let s := { s with rounds := s.rounds + 1 }
      match round with
      | .timeout | .failed | .closed => (none, s)
      | .moved n =>
        let sendResult := Round.amount n (len - sent)
        sendLoop buf len fuel (sent + sendResult)
          { s with wire := s.wire ++ Bytes.slice buf sent sendResult }
    else (some sent, s)

def socketSendAll (s : Outbound) (buf : List UInt8) (len : UInt32) : Checked (Bool × Outbound) := do
  neverCompiledOutAssert .socketSendAll (len > 0)
  if buf.length < len.toNat then throw .outOfBounds
  match sendLoop buf len.toNat len.toNat 0 s with
  | (none, s) => pure (false, s)
  | (some sent, s) =>
    neverCompiledOutAssert .socketSendAll (sent = len.toNat)
    pure (true, s)

/-- The four bytes that announce a frame of `len` bytes. -/
def frameHeader (len : UInt32) : List UInt8 :=
  [((len >>> 24) &&& 0xFF).toUInt8, ((len >>> 16) &&& 0xFF).toUInt8,
    ((len >>> 8) &&& 0xFF).toUInt8, (len &&& 0xFF).toUInt8]

/-- The two writes of `tcp_send_frame`. -/
def writeFrame (s : Outbound) (buf : List UInt8) (len : UInt32) : Checked (Bool × Outbound) := do
  let (ok, s) ← socketSendAll s (frameHeader len) 4
  if !ok then
    return (false, s)
  if len > 0 then
    let (ok, s) ← socketSendAll s buf len
    if !ok then
      return (false, s)
    return (true, s)
  return (true, s)

/-- `tcp_send_frame`, with the call noted. -/
def tcpSendFrame (s : Outbound) (buf : List UInt8) (len : UInt32) : Checked (Bool × Outbound) := do
  let (ok, s') ← writeFrame s buf len
  let put := s'.wire.length - s.wire.length
  pure (ok, { s' with calls := s'.calls ++ [(buf.take len.toNat, put)] })

/-! ## Receiving -/

/-- What a receiving loop leaves: the count, or `none` for the return in the middle, the buffer and
the connection. -/
structure Received where
  count : Option Nat
  buf : List UInt8
  socket : Inbound

/-- The loop of `socket_recv_exact`. When no byte is there to be read, `poll` times out. -/
def recvLoop (len : Nat) : Nat → Nat → List UInt8 → Inbound → Received
  | 0, received, buf, s => ⟨some received, buf, s⟩
  | fuel + 1, received, buf, s =>
    if received < len then
      let round := s.os s.rounds
      let s := { s with rounds := s.rounds + 1 }
      match round, s.wire with
      | .timeout, _ | .failed, _ | .closed, _ | .moved _, [] => ⟨none, buf, s⟩
      | .moved n, b :: rest =>
        let recvResult := Round.amount n (min (len - received) (b :: rest).length)
        recvLoop len fuel (received + recvResult)
          (Bytes.overwrite buf received (s.wire.take recvResult))
          { s with wire := s.wire.drop recvResult }
    else ⟨some received, buf, s⟩

def socketRecvExact (s : Inbound) (buf : List UInt8) (len : UInt32) :
    Checked (Bool × List UInt8 × Inbound) := do
  neverCompiledOutAssert .socketRecvExact (len > 0)
  if buf.length < len.toNat then throw .outOfBounds
  match recvLoop len.toNat len.toNat 0 buf s with
  | ⟨none, buf, s⟩ => pure (false, buf, s)
  | ⟨some received, buf, s⟩ =>
    neverCompiledOutAssert .socketRecvExact (received = len.toNat)
    pure (true, buf, s)

/-- The length four bytes announce. -/
def frameLen (header : List UInt8) : UInt32 :=
  match header with
  | [h0, h1, h2, h3] => (h0.toUInt32 <<< 24) ||| (h1.toUInt32 <<< 16) ||| (h2.toUInt32 <<< 8) ||| h3.toUInt32
  | _ => 0

/-- The longest frame a peer may send. -/
abbrev maxSafeFrame : UInt32 := 52 + 4096

/-- What `tcp_recv_frame` leaves: the length on success, the buffer and the connection. -/
structure RecvFrame where
  outLen : Option UInt32
  buf : List UInt8
  socket : Inbound

def tcpRecvFrame (s : Inbound) (buf : List UInt8) (bufCap : UInt32) : Checked RecvFrame := do
  neverCompiledOutAssert .tcpRecvFrame (bufCap > 0)
  let (ok, header, s) ← socketRecvExact s (List.replicate 4 0) 4
  if !ok then
    return ⟨none, buf, s⟩
  let frameLen := frameLen header
  if frameLen < 52 ∨ frameLen > maxSafeFrame ∨ frameLen > bufCap then
    return ⟨none, buf, s⟩
  neverCompiledOutAssert .tcpRecvFrame (frameLen ≤ maxSafeFrame)
  let (ok, buf, s) ← socketRecvExact s buf frameLen
  if !ok then
    return ⟨none, buf, s⟩
  neverCompiledOutAssert .tcpRecvFrame (frameLen ≤ bufCap)
  neverCompiledOutAssert .tcpRecvFrame (frameLen ≤ maxSafeFrame)
  return ⟨some frameLen, buf, s⟩

/-- `n` calls of `tcp_recv_frame` in a row, up to the first that fails: a connection on which it
failed is closed. -/
def recvFrames (bufCap : UInt32) : Nat → List UInt8 → Inbound → Checked (List (List UInt8))
  | 0, _, _ => pure []
  | n + 1, buf, s => do
    let r ← tcpRecvFrame s buf bufCap
    match r.outLen with
    | none => pure []
    | some outLen =>
      let frames ← recvFrames bufCap n r.buf r.socket
      pure (r.buf.take outLen.toNat :: frames)

end SocketUtils

end MessageEngine
