import MessageEngine.Core.SocketUtils

/-!
# Framed messages over TLS

The frames of `TlsTcpBackend` are those of `SocketUtils`, a length of four bytes and the message, but the
loops that move them are its own. `ssl_write` and `ssl_read` move some bytes, or ask to be called again; a
read that asks so is followed by a `net_poll`. Each loop has a bound on its calls, and calls that move
nothing count.

What the library answers is part of the connection: one answer for every call. It delivers the peer's bytes
in order.
-/

namespace MessageEngine

open Outcome

/-- What a call of `ssl_write` answers. -/
inductive SslWrite where
  | wrote (n : Nat)
  | wantWrite
  | failed

/-- What a call of `ssl_read` answers; after `MBEDTLS_ERR_SSL_WANT_READ`, whether `net_poll` finds the
connection readable. -/
inductive SslRead where
  | chunk (n : Nat)
  | wantRead (polled : Bool)
  | failed

/-- The sending side of a TLS connection: the bytes written so far. -/
structure SslOutbound where
  wire : List UInt8
  answers : Nat → SslWrite
  calls : Nat

/-- The receiving side of a TLS connection: the bytes not read yet. -/
structure SslInbound where
  wire : List UInt8
  answers : Nat → SslRead
  calls : Nat

namespace TlsFraming

/-! ## Sending -/

/-- The loop of `tls_write_all`, with the iterations that are left; `none` is the return in the middle. -/
def writeLoop (buf : List UInt8) (len : Nat) : Nat → Nat → SslOutbound → Option Nat × SslOutbound
  | 0, sent, s => (some sent, s)
  | iters + 1, sent, s =>
    if sent < len then
      let answer := s.answers s.calls
      let s := { s with calls := s.calls + 1 }
      match answer with
      | .wrote n =>
        let ret := Round.amount n (len - sent)
        writeLoop buf len iters (sent + ret) { s with wire := s.wire ++ Bytes.slice buf sent ret }
      | .wantWrite => writeLoop buf len iters sent s
      | .failed => (none, s)
    else (some sent, s)

def tlsWriteAll (s : SslOutbound) (buf : List UInt8) (len : UInt32) : Checked (Bool × SslOutbound) := do
  neverCompiledOutAssert .tlsWriteAll (len > 0)
  if buf.length < len.toNat then throw .outOfBounds
  match writeLoop buf len.toNat len.toNat 0 s with
  | (none, s) => pure (false, s)
  | (some sent, s) => pure (decide (sent = len.toNat), s)

/-- `tls_send_frame` with TLS enabled. -/
def tlsSendFrame (s : SslOutbound) (buf : List UInt8) (len : UInt32) : Checked (Bool × SslOutbound) := do
  neverCompiledOutAssert .tlsSendFrame (len > 0)
  let (ok, s) ← tlsWriteAll s (SocketUtils.frameHeader len) 4
  if !ok then
    return (false, s)
  tlsWriteAll s buf len

/-! ## Receiving -/

/-- What a receiving loop leaves: the count, or `none` for the return in the middle, the buffer and the
connection. -/
structure Received where
  count : Option Nat
  buf : List UInt8
  socket : SslInbound

/-- The loop that `read_tls_header` and `tls_read_payload` share, with the iterations that are left. When
no byte is there to be read, `ssl_read` brings none. -/
def readLoop (len : Nat) : Nat → Nat → List UInt8 → SslInbound → Received
  | 0, received, buf, s => ⟨some received, buf, s⟩
  | iters + 1, received, buf, s =>
    if received < len then
      let answer := s.answers s.calls
      let s := { s with calls := s.calls + 1 }
      match answer, s.wire with
      | .wantRead true, _ => readLoop len iters received buf s
      | .wantRead false, _ | .failed, _ | .chunk _, [] => ⟨none, buf, s⟩
      | .chunk n, b :: rest =>
        let ret := Round.amount n (min (len - received) (b :: rest).length)
        readLoop len iters (received + ret) (Bytes.overwrite buf received (s.wire.take ret))
          { s with wire := s.wire.drop ret }
    else ⟨some received, buf, s⟩

/-- The four bytes of the length, or `none`. -/
def readTlsHeader (s : SslInbound) : Option (List UInt8) × SslInbound :=
  match readLoop 4 8 0 (List.replicate 4 0) s with
  | ⟨some 4, header, s⟩ => (some header, s)
  | ⟨_, _, s⟩ => (none, s)

/-- What `tls_recv_frame` leaves: the length on success, the buffer and the connection. -/
structure RecvFrame where
  outLen : Option UInt32
  buf : List UInt8
  socket : SslInbound

def tlsReadPayload (s : SslInbound) (buf : List UInt8) (payloadLen : UInt32) : Checked RecvFrame := do
  neverCompiledOutAssert .tlsReadPayload (payloadLen > 0 ∧ payloadLen ≤ socketRecvBufBytes)
  if buf.length < payloadLen.toNat then throw .outOfBounds
  let r := readLoop payloadLen.toNat payloadLen.toNat 0 buf s
  if r.count = some payloadLen.toNat then
    return ⟨some payloadLen, r.buf, r.socket⟩
  return ⟨none, r.buf, r.socket⟩

/-- `tls_recv_frame` with TLS enabled. -/
def tlsRecvFrame (s : SslInbound) (buf : List UInt8) (bufCap : UInt32) : Checked RecvFrame := do
  match readTlsHeader s with
  | (none, s) => return ⟨none, buf, s⟩
  | (some header, s) =>
    let payloadLen := SocketUtils.frameLen header
    if payloadLen = 0 ∨ payloadLen > bufCap then
      return ⟨none, buf, s⟩
    tlsReadPayload s buf payloadLen

end TlsFraming

end MessageEngine
