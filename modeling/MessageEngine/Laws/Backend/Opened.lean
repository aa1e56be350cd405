import MessageEngine.Laws.Backend.Rounds
import MessageEngine.Laws.TcpBackend.Reading
import MessageEngine.Lib.Run

/-!
# When is_open may be asked

`is_open` asserts that an open backend listens or has a connection. A server listens from `init` to
`close`. A client has its one connection, and nothing else: when a read of it fails, the connection is
removed and the backend still takes itself for open.

## What is proved

- `TcpTransport.Opened.exec`, `TlsTransport.Opened.exec`: what keeps the assertion, and the calls that keep it:
  all those of a server, and those of a client in which no read of its connection fails;
- `is_open_holds`: so the assertion holds in every state of every run in which no client loses its
  connection.
-/

namespace MessageEngine

open Outcome Table

namespace TcpTransport

variable {t t' : TcpTransport} {buf : List UInt8} {len : UInt32} {env : MessageEnvelope} {ok : Bool}
  {res : Result} {turn : TcpTurn}

/-- What `is_open` looks at, and the table of descriptors. -/
def connections (t : TcpTransport) : (Bool × Int) × Bool × Vector Int maxTcpConnections × Nat :=
  ((t.isOpen, t.listenFd), t.backend.isServer, t.backend.clientFds, t.backend.clientCount)

/-! ## Sending -/

theorem sendFrame_connections {fd : Int} (h : t.sendFrame fd buf len = .ok (ok, t')) :
    t'.connections = t.connections := by
  unfold sendFrame at h
  obtain ⟨-, h⟩ := ensure_bind_eq_ok.mp h
  obtain ⟨⟨sent, link⟩, -, h⟩ := bind_eq_ok.mp h
  cases h
  rfl

theorem sendToAllClients_connections (h : t.sendToAllClients buf len = .ok (ok, t')) :
    t'.connections = t.connections := by
  unfold sendToAllClients at h
  obtain ⟨-, h⟩ := ensure_bind_eq_ok.mp h
  refine foldlM_view (fun s : Bool × TcpTransport => s.2.connections) ?_ h
  rintro ⟨failed, s⟩ i ⟨failed', s'⟩ hround
  unfold sendToAllClients.round at hround
  dsimp only at hround
  split at hround
  case isTrue => cases hround; rfl
  case isFalse =>
    obtain ⟨⟨sent, s₁⟩, hsend, hround⟩ := bind_eq_ok.mp hround
    cases hround
    exact sendFrame_connections hsend

theorem sendToSlot_connections {slot : Fin maxTcpConnections} (h : t.sendToSlot slot buf len = .ok (ok, t')) :
    t'.connections = t.connections := by
  unfold sendToSlot at h
  obtain ⟨-, h⟩ := ensure_bind_eq_ok.mp h
  obtain ⟨⟨sent, t₁⟩, hsend, h⟩ := bind_eq_ok.mp h
  cases h
  exact sendFrame_connections hsend

theorem sendOneDelayed_connections {routed : Result × Bool} (h : t.sendOneDelayed env = .ok (routed, t')) :
    t'.connections = t.connections := by
  unfold sendOneDelayed at h
  obtain ⟨-, h⟩ := ensure_bind_eq_ok.mp h
  obtain ⟨-, h⟩ := ensure_bind_eq_ok.mp h
  obtain ⟨wire, -, h⟩ := bind_eq_ok.mp h
  cases wire with
  | error res => cases h; rfl
  | ok wire =>
    dsimp only at h
    split at h
    case isTrue =>
      obtain ⟨⟨failed, t₁⟩, hsend, h⟩ := bind_eq_ok.mp h
      cases h
      exact sendToAllClients_connections hsend
    case isFalse =>
      obtain ⟨slot, -, h⟩ := bind_eq_ok.mp h
      cases slot with
      | none => cases h; rfl
      | some slot =>
        obtain ⟨⟨failed, t₁⟩, hsend, h⟩ := bind_eq_ok.mp h
        cases h
        exact sendToSlot_connections hsend

theorem flushDelayedToClients_connections {nowUs : UInt64}
    (h : t.flushDelayedToClients env nowUs = .ok (res, t')) : t'.connections = t.connections := by
  unfold flushDelayedToClients at h
  obtain ⟨-, h⟩ := ensure_bind_eq_ok.mp h
  obtain ⟨-, h⟩ := ensure_bind_eq_ok.mp h
  obtain ⟨⟨delayed, impairment⟩, -, h⟩ := bind_eq_ok.mp h
  refine (foldlM_view (fun s : Result × TcpTransport => s.2.connections) ?_ h).trans rfl
  rintro ⟨final, s⟩ out ⟨final', s'⟩ hround
  unfold flushDelayedToClients.round at hround
  obtain ⟨⟨⟨routed, failed⟩, s₁⟩, hsend, hround⟩ := bind_eq_ok.mp hround
  obtain ⟨_, -, hround⟩ := bind_eq_ok.mp hround
  cases hround
  exact sendOneDelayed_connections hsend

theorem sendMessage_connections {nowUs : UInt64} (h : t.sendMessage env nowUs = .ok (res, t')) :
    t'.connections = t.connections := by
  unfold sendMessage at h
  obtain ⟨-, h⟩ := ensure_bind_eq_ok.mp h
  obtain ⟨-, h⟩ := ensure_bind_eq_ok.mp h
  obtain ⟨wire, -, h⟩ := bind_eq_ok.mp h
  cases wire with
  | error res => cases h; rfl
  | ok wire =>
    obtain ⟨⟨queued, impairment⟩, -, h⟩ := bind_eq_ok.mp h
    dsimp only at h
    split at h
    · cases h; rfl
    · split at h
      · cases h; rfl
      · split at h
        · cases h; rfl
        · obtain ⟨⟨flushed, t₁⟩, hflush, h⟩ := bind_eq_ok.mp h
          obtain ⟨-, h⟩ := ensure_bind_eq_ok.mp h
          cases h
          exact (flushDelayedToClients_connections hflush).trans rfl

theorem sendHelloFrame_connections (h : t.sendHelloFrame = .ok (res, t')) : t'.connections = t.connections := by
  unfold sendHelloFrame at h
  obtain ⟨-, h⟩ := ensure_bind_eq_ok.mp h
  obtain ⟨-, h⟩ := ensure_bind_eq_ok.mp h
  obtain ⟨wire, -, h⟩ := bind_eq_ok.mp h
  cases wire with
  | error res => cases h; rfl
  | ok wire =>
    dsimp only at h
    split at h
    · cases h; rfl
    · obtain ⟨⟨sent, t₁⟩, hsend, h⟩ := bind_eq_ok.mp h
      cases h
      exact sendFrame_connections hsend

theorem registerLocalId_connections {id : NodeId} (h : t.registerLocalId id = .ok (res, t')) :
    t'.connections = t.connections := by
  unfold registerLocalId at h
  obtain ⟨-, h⟩ := ensure_bind_eq_ok.mp h
  obtain ⟨-, h⟩ := ensure_bind_eq_ok.mp h
  dsimp only at h
  split at h
  case isTrue => exact (sendHelloFrame_connections h).trans rfl
  case isFalse => cases h; rfl

/-! ## Polling -/

/-- No round of polling touches the flag or the listening socket. -/
theorem recvFromClient_socket {fd : Int} {read : Int → Read} (h : t.recvFromClient fd read = .ok t') :
    t'.connections.1 = t.connections.1 := by
  unfold recvFromClient at h
  obtain ⟨-, h⟩ := ensure_bind_eq_ok.mp h
  obtain ⟨⟨_, backend⟩, -, h⟩ := bind_eq_ok.mp h
  cases h
  rfl

theorem drainLoop_socket {ready : Nat → Bool} {nfds base : Nat} {read : Int → Read} {rounds i : Nat}
    (h : drainReadableClients.loop ready nfds base read rounds i t = .ok t') :
    t'.connections.1 = t.connections.1 := by
  induction rounds generalizing i t with
  | zero => cases h; rfl
  | succ rounds ih =>
    rw [drainReadableClients.loop] at h
    split at h
    case isFalse => cases h; rfl
    case isTrue =>
      split at h
      case isTrue => cases h; rfl
      case isFalse =>
        split at h
        case isFalse => exact ih h
        case isTrue =>
          split at h
          case isFalse => cases h
          case isTrue =>
            obtain ⟨t₁, hread, h⟩ := bind_eq_ok.mp h
            rw [ih h, recvFromClient_socket hread]

theorem pollClientsOnce_socket (h : t.pollClientsOnce turn = .ok t') :
    t'.connections.1 = t.connections.1 := by
  unfold pollClientsOnce at h
  obtain ⟨-, h⟩ := ensure_bind_eq_ok.mp h
  dsimp only at h
  rw [ite_bind] at h
  obtain ⟨backend, -, h⟩ := bind_eq_ok.mp h
  obtain ⟨⟨pfds, hasListen⟩, -, h⟩ := bind_eq_ok.mp h
  dsimp only at h
  split at h
  case isTrue => cases h; rfl
  case isFalse =>
    split at h
    · cases h; rfl
    · unfold acceptAndDrain at h
      dsimp only at h
      rw [ite_bind] at h
      obtain ⟨t₁, haccept, h⟩ := bind_eq_ok.mp h
      unfold drainReadableClients at h
      obtain ⟨-, h⟩ := ensure_bind_eq_ok.mp h
      rw [drainLoop_socket h]
      split at haccept
      case isTrue =>
        unfold acceptClients at haccept
        obtain ⟨-, haccept⟩ := ensure_bind_eq_ok.mp haccept
        obtain ⟨backend', -, haccept⟩ := bind_eq_ok.mp haccept
        cases haccept
        rfl
      case isFalse => cases haccept; rfl

/-! ## A client and its connection -/

/-- A client with its connection. -/
structure Connected (t : TcpTransport) : Prop where
  client : t.backend.isServer = false
  count : t.backend.clientCount = 1
  fd : 0 ≤ t.backend.clientFds[0]

/-- In this round the connection of a client is read, and the read fails. -/
def Loses (fd : Int) (turn : TcpTurn) : Prop := turn.ready.any (· 0) ∧ (turn.read fd).frame.isNone

instance (fd : Int) (turn : TcpTurn) : Decidable (Loses fd turn) := inferInstanceAs (Decidable (_ ∧ _))

theorem Connected.congr (h : t.Connected) (hsame : t'.connections = t.connections) : t'.Connected := by
  have hserver : t'.backend.isServer = t.backend.isServer := congrArg (·.2.1) hsame
  have hfds : t'.backend.clientFds = t.backend.clientFds := congrArg (·.2.2.1) hsame
  have hcount : t'.backend.clientCount = t.backend.clientCount := congrArg (·.2.2.2) hsame
  exact ⟨hserver.trans h.client, hcount.trans h.count, by rw [hfds]; exact h.fd⟩

/-- A read of the connection that brings a frame. -/
theorem recvFromClient_connections {fd : Int} {read : Int → Read} (hclient : t.backend.isServer = false)
    (hread : (read fd).frame.isNone = false) (h : t.recvFromClient fd read = .ok t') :
    t'.connections = t.connections := by
  unfold recvFromClient at h
  obtain ⟨-, h⟩ := ensure_bind_eq_ok.mp h
  obtain ⟨⟨res, backend⟩, hrun, h⟩ := bind_eq_ok.mp h
  cases h
  unfold TcpBackend.recvFromClient at hrun
  obtain ⟨-, hrun⟩ := ensure_bind_eq_ok.mp hrun
  cases hframe : (read fd).frame with
  | none =>
    rw [hframe] at hread
    cases hread
  | some frame =>
    simp only [hframe] at hrun
    obtain ⟨reply, -, hrun⟩ := bind_eq_ok.mp hrun
    cases reply with
    | error error => cases hrun; rfl
    | ok env =>
      have hdata : ¬ (env.messageType = .hello ∧ (t.backend.note (.received fd env)).isServer = true) := by
        rintro ⟨-, hserver⟩
        exact Bool.false_ne_true (hclient.symm.trans hserver)
      obtain ⟨hfds, hserver, hcount, -⟩ := TcpBackend.dispatch_stays hdata hrun
      unfold connections
      rw [hfds, hserver, hcount]
      rfl

theorem drainLoop_connections {ready : Nat → Bool} {nfds : Nat} {read : Int → Read} {rounds i : Nat}
    (hconn : t.Connected) (hread : ready 0 = true → (read t.backend.clientFds[0]).frame.isNone = false)
    (h : drainReadableClients.loop ready nfds 0 read rounds i t = .ok t') : t'.connections = t.connections := by
  induction rounds generalizing i t with
  | zero => cases h; rfl
  | succ rounds ih =>
    rw [drainReadableClients.loop] at h
    split at h
    case isFalse => cases h; rfl
    case isTrue hi =>
      obtain rfl : i = 0 := by
        rw [hconn.count] at hi
        omega
      split at h
      case isTrue => cases h; rfl
      case isFalse =>
        split at h
        case isFalse => exact ih hconn hread h
        case isTrue hready =>
          split at h
          case isFalse => cases h
          case isTrue =>
            obtain ⟨t₁, hrun, h⟩ := bind_eq_ok.mp h
            have hsame := recvFromClient_connections hconn.client (hread hready) hrun
            have hfds : t₁.backend.clientFds = t.backend.clientFds := congrArg (·.2.2.1) hsame
            rw [ih (hconn.congr hsame) (by rw [hfds]; exact hread) h, hsame]

theorem pollClientsOnce_connections (hconn : t.Connected) (hkept : ¬ Loses t.backend.clientFds[0] turn)
    (h : t.pollClientsOnce turn = .ok t') : t'.connections = t.connections := by
  unfold pollClientsOnce at h
  obtain ⟨-, h⟩ := ensure_bind_eq_ok.mp h
  dsimp only at h
  rw [ite_bind] at h
  obtain ⟨backend, hsweep, h⟩ := bind_eq_ok.mp h
  rw [if_neg (by rw [hconn.client]; exact Bool.false_ne_true)] at hsweep
  cases hsweep
  obtain ⟨⟨pfds, hasListen⟩, hbuild, h⟩ := bind_eq_ok.mp h
  obtain rfl : hasListen = false := by
    unfold buildPollFds at hbuild
    obtain ⟨_, -, hbuild⟩ := bind_eq_ok.mp hbuild
    obtain ⟨-, hbuild⟩ := ensure_bind_eq_ok.mp hbuild
    cases hbuild
    rw [hconn.client]
    rfl
  dsimp only at h
  split at h
  case isTrue => cases h; rfl
  case isFalse =>
    split at h
    · cases h; rfl
    case h_2 ready hready =>
      unfold acceptAndDrain drainReadableClients at h
      simp only [Bool.false_and, Bool.false_eq_true, if_false, ok_bind, pure_eq_ok] at h
      obtain ⟨-, h⟩ := ensure_bind_eq_ok.mp h
      refine drainLoop_connections (t := t) hconn (fun hready₀ => ?_) h
      rw [Loses, hready] at hkept
      by_contra hbroken
      exact hkept ⟨hready₀, Bool.of_not_eq_false hbroken⟩

/-! ## The calls -/

/-- An open backend listens, or is a client with its connection. -/
def Opened (t : TcpTransport) : Prop := t.isOpen = true → t.listenFd ≥ 0 ∨ t.Connected

/-- A call to a server; or to a client, and in none of its rounds the connection is lost. -/
def KeepsConnection (t : TcpTransport) (call : TransportCall TcpTurn) : Prop :=
  t.backend.isServer = true ∨
    match call with
    | .receive timeoutMs turns =>
      match t.receiveMessage timeoutMs turns with
      | .ok (delivery, _) =>
        ∀ n < delivery.polls, ¬ Loses (getElem t.backend.clientFds 0 maxTcpConnections_pos) (turns n)
      | .error _ => True
    | _ => True

instance (t : TcpTransport) (call : TransportCall TcpTurn) : Decidable (t.KeepsConnection call) := by
  unfold KeepsConnection
  refine @instDecidableOr _ _ inferInstance ?_
  split
  · split
    · infer_instance
    · infer_instance
  · infer_instance

theorem Opened.of_connections (h : t.Opened) (hsame : t'.connections = t.connections) : t'.Opened := by
  have hopen : t'.isOpen = t.isOpen := congrArg (·.1.1) hsame
  have hlisten : t'.listenFd = t.listenFd := congrArg (·.1.2) hsame
  intro hopened
  rcases h (hopen.symm.trans hopened) with hserver | hconn
  · exact .inl (hlisten ▸ hserver)
  · exact .inr (hconn.congr hsame)

theorem Opened.checkOpen (h : t.Opened) : ∃ opened, t.checkOpen = .ok opened := by
  refine ⟨t.isOpen, ?_⟩
  unfold TcpTransport.checkOpen
  cases hopen : t.isOpen with
  | false =>
    rw [neverCompiledOutAssert, ensure_pos (.inr rfl)]
    rfl
  | true =>
    have hany : t.listenFd ≥ 0 ∨ t.backend.clientCount > 0 := by
      rcases h hopen with hserver | hconn
      · exact .inl hserver
      · exact .inr (by rw [hconn.count]; exact Nat.one_pos)
    rw [neverCompiledOutAssert, ensure_pos (.inl (decide_eq_true hany).symm)]
    rfl

theorem init_opened {opening : TcpOpening} {recvTimeoutMs : UInt32} {impairment : ImpairmentEngine}
    (h : init opening recvTimeoutMs impairment = .ok (.ok, t)) : t.Opened := by
  unfold init at h
  dsimp only at h
  split at h
  case isTrue =>
    unfold bindAndListen at h
    obtain ⟨-, h⟩ := ensure_bind_eq_ok.mp h
    split at h
    · cases h
    · obtain ⟨hlisten, h⟩ := ensure_bind_eq_ok.mp h
      cases h
      exact fun _ => .inl hlisten
  case isFalse hclient =>
    unfold connectToServer at h
    obtain ⟨-, h⟩ := ensure_bind_eq_ok.mp h
    obtain ⟨-, h⟩ := ensure_bind_eq_ok.mp h
    split at h
    · cases h
    case h_2 fd _ =>
      cases h
      refine fun _ => .inr ⟨Bool.eq_false_of_not_eq_true hclient, rfl, ?_⟩
      exact Int.natCast_nonneg fd

/-- One call. -/
theorem Opened.exec {call : TransportCall TcpTurn} {polls : Nat} (h : t.Opened) (hkeeps : t.KeepsConnection call)
    (hexec : exec call t = .ok (polls, t')) : t'.Opened := by
  cases call with
  | send env nowUs =>
    obtain ⟨⟨res, t₁⟩, hrun, hout⟩ := bind_eq_ok.mp hexec
    cases hout
    exact h.of_connections (sendMessage_connections hrun)
  | registerLocalId id =>
    obtain ⟨⟨res, t₁⟩, hrun, hout⟩ := bind_eq_ok.mp hexec
    cases hout
    exact h.of_connections (registerLocalId_connections hrun)
  | popHelloPeer =>
    obtain ⟨⟨src, backend⟩, hrun, hout⟩ := bind_eq_ok.mp hexec
    cases hout
    unfold TcpBackend.popHelloPeer at hrun
    obtain ⟨⟨src', q⟩, -, hrun⟩ := bind_eq_ok.mp hrun
    cases hrun
    exact h.of_connections rfl
  | close =>
    cases hexec
    intro hopened
    cases hopened
  | receive timeoutMs turns =>
    obtain ⟨⟨d, t₁⟩, hrun, hout⟩ := bind_eq_ok.mp hexec
    cases hout
    have hkept : t.backend.isServer = true ∨ ∀ n < d.polls, ¬ Loses t.backend.clientFds[0] (turns n) := by
      unfold KeepsConnection at hkeeps
      simp only [hrun] at hkeeps
      exact hkeeps
    unfold receiveMessage at hrun
    obtain ⟨hopen, hrun⟩ := ensure_bind_eq_ok.mp hrun
    have hpop (s : TcpTransport) (reply : Reply) (s' : TcpTransport) (h : pump.pop s = .ok (reply, s')) :
        s'.connections = s.connections := by
      obtain ⟨⟨reply', q⟩, -, h⟩ := bind_eq_ok.mp h
      cases h
      rfl
    have hflush (turn : TcpTurn) (s s' : TcpTransport) (h : pump.flush turn s = .ok s') :
        s'.connections = s.connections := by
      obtain ⟨⟨res, s₁⟩, hflush, h⟩ := bind_eq_ok.mp h
      cases h
      exact flushDelayedToClients_connections hflush
    rcases h hopen with hlisten | hconn
    · have hsocket := Pump.receiveMessage_inv (I := fun s => s.connections.1 = t.connections.1)
        (fun turn s s' h (_ : True) hpoll => (pollClientsOnce_socket hpoll).trans h)
        (fun turn s s' h hrun => (congrArg Prod.fst (hflush turn s s' hrun)).trans h)
        (fun s reply s' h hrun => (congrArg Prod.fst (hpop s reply s' hrun)).trans h)
        hrun rfl fun _ _ => trivial
      have hsame : t'.listenFd = t.listenFd := congrArg Prod.snd hsocket
      exact fun _ => .inl (hsame ▸ hlisten)
    · have hnever : ∀ n < d.polls, ¬ Loses t.backend.clientFds[0] (turns n) := by
        rcases hkept with hserver | hnever
        · rw [hconn.client] at hserver
          cases hserver
        · exact hnever
      have hpoll (turn : TcpTurn) (s s' : TcpTransport) (h : s.connections = t.connections)
          (hgood : ¬ Loses t.backend.clientFds[0] turn) (hpoll : pump.poll turn s = .ok s') :
          s'.connections = t.connections := by
        have hfds : s.backend.clientFds = t.backend.clientFds := congrArg (·.2.2.1) h
        exact (pollClientsOnce_connections (hconn.congr h) (by rw [hfds]; exact hgood) hpoll).trans h
      have hsame := Pump.receiveMessage_inv (I := fun s => s.connections = t.connections) hpoll
        (fun turn s s' h hrun => (hflush turn s s' hrun).trans h)
        (fun s reply s' h hrun => (hpop s reply s' hrun).trans h) hrun rfl hnever
      exact h.of_connections hsame

end TcpTransport

namespace TlsTransport

variable {t t' : TlsTransport} {buf : List UInt8} {len : UInt32} {env : MessageEnvelope} {ok : Bool}
  {res : Result} {turn : TlsTurn}

/-- What `is_open` looks at, and the slots in use. -/
def connections (t : TlsTransport) : (Bool × Int) × (Bool × Bool) × Vector Bool maxTcpConnections × Nat :=
  ((t.isOpen, t.listenFd), (t.isServer, t.tlsEnabled), t.backend.clientSlotActive, t.backend.clientCount)

/-! ## Sending -/

theorem tlsSendFrame_connections {idx : Fin maxTcpConnections} (h : t.tlsSendFrame idx buf len = .ok (ok, t')) :
    t'.connections = t.connections := by
  unfold tlsSendFrame at h
  obtain ⟨-, h⟩ := ensure_bind_eq_ok.mp h
  split at h
  · obtain ⟨⟨sent, s⟩, -, h⟩ := bind_eq_ok.mp h
    cases h
    rfl
  · obtain ⟨-, h⟩ := ensure_bind_eq_ok.mp h
    obtain ⟨⟨sent, s⟩, -, h⟩ := bind_eq_ok.mp h
    cases h
    rfl

theorem sendToAllClients_connections (h : t.sendToAllClients buf len = .ok (ok, t')) :
    t'.connections = t.connections := by
  unfold sendToAllClients at h
  obtain ⟨-, h⟩ := ensure_bind_eq_ok.mp h
  refine foldlM_view (fun s : Bool × TlsTransport => s.2.connections) ?_ h
  rintro ⟨failed, s⟩ i ⟨failed', s'⟩ hround
  unfold sendToAllClients.round at hround
  dsimp only at hround
  split at hround
  case isTrue => cases hround; rfl
  case isFalse =>
    obtain ⟨⟨sent, s₁⟩, hsend, hround⟩ := bind_eq_ok.mp hround
    cases hround
    exact tlsSendFrame_connections hsend

theorem unicastSerialized_connections {dst : NodeId} (h : t.unicastSerialized dst buf len = .ok (res, t')) :
    t'.connections = t.connections := by
  unfold unicastSerialized at h
  obtain ⟨-, h⟩ := ensure_bind_eq_ok.mp h
  obtain ⟨slot, -, h⟩ := bind_eq_ok.mp h
  cases slot with
  | none => cases h; rfl
  | some slot =>
    obtain ⟨⟨failed, t₁⟩, hsend, h⟩ := bind_eq_ok.mp h
    cases h
    unfold sendToSlot at hsend
    obtain ⟨-, hsend⟩ := ensure_bind_eq_ok.mp hsend
    obtain ⟨⟨sent, t₂⟩, hsent, hsend⟩ := bind_eq_ok.mp hsend
    cases hsend
    exact tlsSendFrame_connections hsent

theorem routeOneDelayed_connections {current : Bool} (h : t.routeOneDelayed env current = .ok (res, t')) :
    t'.connections = t.connections := by
  unfold routeOneDelayed at h
  obtain ⟨-, h⟩ := ensure_bind_eq_ok.mp h
  obtain ⟨-, h⟩ := ensure_bind_eq_ok.mp h
  obtain ⟨wire, -, h⟩ := bind_eq_ok.mp h
  cases wire with
  | error res => cases h; rfl
  | ok wire =>
    dsimp only at h
    split at h
    case isTrue =>
      obtain ⟨⟨failed, t₁⟩, hroute, h⟩ := bind_eq_ok.mp h
      rw [pure_eq_ok, ok_bind] at h
      dsimp only at h
      generalize (if failed = true then Result.errIo else Result.ok) = sent at h
      split at h
      · cases h; exact sendToAllClients_connections hroute
      · cases h; exact sendToAllClients_connections hroute
    case isFalse =>
      obtain ⟨⟨sent, t₁⟩, hroute, h⟩ := bind_eq_ok.mp h
      dsimp only at h
      split at h
      · cases h; exact unicastSerialized_connections hroute
      · cases h; exact unicastSerialized_connections hroute

theorem flushDelayedToClients_connections {nowUs : UInt64}
    (h : t.flushDelayedToClients env nowUs = .ok (res, t')) : t'.connections = t.connections := by
  unfold flushDelayedToClients at h
  obtain ⟨-, h⟩ := ensure_bind_eq_ok.mp h
  obtain ⟨-, h⟩ := ensure_bind_eq_ok.mp h
  obtain ⟨⟨delayed, impairment⟩, -, h⟩ := bind_eq_ok.mp h
  refine (foldlM_view (fun s : Result × TlsTransport => s.2.connections) ?_ h).trans rfl
  rintro ⟨final, s⟩ out ⟨final', s'⟩ hround
  unfold flushDelayedToClients.round at hround
  obtain ⟨⟨routed, s₁⟩, hroute, hround⟩ := bind_eq_ok.mp hround
  cases hround
  exact routeOneDelayed_connections hroute

theorem sendMessage_connections {nowUs : UInt64} (h : t.sendMessage env nowUs = .ok (res, t')) :
    t'.connections = t.connections := by
  unfold sendMessage at h
  obtain ⟨-, h⟩ := ensure_bind_eq_ok.mp h
  obtain ⟨-, h⟩ := ensure_bind_eq_ok.mp h
  obtain ⟨wire, -, h⟩ := bind_eq_ok.mp h
  cases wire with
  | error res => cases h; rfl
  | ok wire =>
    obtain ⟨⟨queued, impairment⟩, -, h⟩ := bind_eq_ok.mp h
    dsimp only at h
    split at h
    · cases h; rfl
    · split at h
      · cases h; rfl
      · split at h
        · cases h; rfl
        · obtain ⟨⟨flushed, t₁⟩, hflush, h⟩ := bind_eq_ok.mp h
          obtain ⟨-, h⟩ := ensure_bind_eq_ok.mp h
          cases h
          exact (flushDelayedToClients_connections hflush).trans rfl

theorem registerLocalId_connections {id : NodeId} (h : t.registerLocalId id = .ok (res, t')) :
    t'.connections = t.connections := by
  unfold registerLocalId at h
  obtain ⟨-, h⟩ := ensure_bind_eq_ok.mp h
  obtain ⟨-, h⟩ := ensure_bind_eq_ok.mp h
  dsimp only at h
  split at h
  case isFalse => cases h; rfl
  case isTrue =>
    unfold sendHelloFrame at h
    obtain ⟨-, h⟩ := ensure_bind_eq_ok.mp h
    obtain ⟨-, h⟩ := ensure_bind_eq_ok.mp h
    obtain ⟨wire, -, h⟩ := bind_eq_ok.mp h
    cases wire with
    | error res => cases h; rfl
    | ok wire =>
      obtain ⟨⟨sent, t₁⟩, hsend, h⟩ := bind_eq_ok.mp h
      cases h
      exact (tlsSendFrame_connections hsend).trans rfl

/-! ## Polling -/

/-- No round of polling touches the flag or the listening socket. -/
theorem recvFromClient_socket {idx : Fin maxTcpConnections} {read : Read} (h : t.recvFromClient idx read = .ok t') :
    t'.connections.1 = t.connections.1 := by
  unfold recvFromClient at h
  obtain ⟨-, h⟩ := ensure_bind_eq_ok.mp h
  dsimp only at h
  rw [ite_bind] at h
  obtain ⟨⟨_, backend⟩, -, h⟩ := bind_eq_ok.mp h
  cases h
  rfl

theorem acceptAndHandshake_socket (h : t.acceptAndHandshake turn = .ok t') :
    t'.connections.1 = t.connections.1 := by
  unfold acceptAndHandshake at h
  obtain ⟨-, h⟩ := ensure_bind_eq_ok.mp h
  obtain ⟨-, h⟩ := ensure_bind_eq_ok.mp h
  obtain ⟨backend, -, h⟩ := bind_eq_ok.mp h
  cases h
  split
  · rfl
  · rfl

theorem pollClientsOnce_socket (h : t.pollClientsOnce turn = .ok t') :
    t'.connections.1 = t.connections.1 := by
  unfold pollClientsOnce at h
  obtain ⟨-, h⟩ := ensure_bind_eq_ok.mp h
  dsimp only at h
  have hfold {s s' : TlsTransport} {entries : List (Fin maxTcpConnections × Nat)}
      (h : entries.foldlM (pollClientsOnce.round turn) s = .ok s') : s'.connections.1 = s.connections.1 := by
    refine foldlM_view (fun s : TlsTransport => s.connections.1) (fun s entry s' hround => ?_) h
    obtain ⟨slot, pi⟩ := entry
    unfold pollClientsOnce.round at hround
    dsimp only at hround
    split at hround
    · exact recvFromClient_socket hround
    · cases hround; rfl
  split at h
  case isTrue =>
    obtain ⟨backend, -, h⟩ := bind_eq_ok.mp h
    obtain ⟨t₁, haccept, h⟩ := bind_eq_ok.mp h
    obtain ⟨slotOf, -, h⟩ := bind_eq_ok.mp h
    exact (hfold h).trans ((acceptAndHandshake_socket haccept).trans rfl)
  case isFalse =>
    rw [pure_eq_ok, ok_bind] at h
    obtain ⟨slotOf, -, h⟩ := bind_eq_ok.mp h
    exact hfold h

/-! ## A client and its connection -/

/-- A client with its connection. -/
structure Connected (t : TlsTransport) : Prop where
  client : t.isServer = false
  count : t.backend.clientCount = 1
  active : t.backend.clientSlotActive = (Vector.replicate maxTcpConnections false).set 0 true

/-- In this round the connection of a client is read, and the read fails. -/
def Loses (t : TlsTransport) (turn : TlsTurn) : Prop :=
  (t.tlsEnabled && turn.available 0 || turn.ready 0) ∧ (turn.read 0).frame.isNone

instance (t : TlsTransport) (turn : TlsTurn) : Decidable (t.Loses turn) := inferInstanceAs (Decidable (_ ∧ _))

theorem Connected.congr (h : t.Connected) (hsame : t'.connections = t.connections) : t'.Connected := by
  have hserver : t'.isServer = t.isServer := congrArg (·.2.1.1) hsame
  have hactive : t'.backend.clientSlotActive = t.backend.clientSlotActive := congrArg (·.2.2.1) hsame
  have hcount : t'.backend.clientCount = t.backend.clientCount := congrArg (·.2.2.2) hsame
  exact ⟨hserver.trans h.client, hcount.trans h.count, hactive.trans h.active⟩

theorem Loses.congr (hsame : t'.connections = t.connections) : t'.Loses turn ↔ t.Loses turn := by
  have htls : t'.tlsEnabled = t.tlsEnabled := congrArg (·.2.1.2) hsame
  unfold Loses
  rw [htls]

theorem applyInboundImpairment_slots {b b' : TlsTcpBackend} {fd : Int} {nowUs : UInt64}
    (h : b.applyInboundImpairment fd env nowUs = .ok b') :
    b'.clientSlotActive = b.clientSlotActive ∧ b'.clientCount = b.clientCount := by
  unfold TlsTcpBackend.applyInboundImpairment at h
  obtain ⟨⟨queued, inbox⟩, -, h⟩ := bind_eq_ok.mp h
  cases queued with
  | none => cases h; exact ⟨rfl, rfl⟩
  | some out => cases h; exact ⟨rfl, rfl⟩

/-- A read of the connection that brings a frame. -/
theorem recvFromClient_connections {idx : Fin maxTcpConnections} {read : Read} (hclient : t.isServer = false)
    (hread : read.frame.isNone = false) (h : t.recvFromClient idx read = .ok t') :
    t'.connections = t.connections := by
  unfold recvFromClient at h
  obtain ⟨-, h⟩ := ensure_bind_eq_ok.mp h
  dsimp only at h
  rw [ite_bind] at h
  obtain ⟨⟨res, backend⟩, hrun, h⟩ := bind_eq_ok.mp h
  cases h
  rw [hclient, if_neg Bool.false_ne_true] at hrun
  unfold recvFromServer at hrun
  cases hframe : read.frame with
  | none =>
    rw [hframe] at hread
    cases hread
  | some frame =>
    simp only [hframe] at hrun
    obtain ⟨reply, -, hrun⟩ := bind_eq_ok.mp hrun
    cases reply with
    | error error => cases hrun; rfl
    | ok env =>
      dsimp only at hrun
      obtain ⟨-, hrun⟩ := ensure_bind_eq_ok.mp hrun
      split at hrun
      · cases hrun; rfl
      · split at hrun
        · cases hrun; rfl
        · obtain ⟨b, hinbound, hrun⟩ := bind_eq_ok.mp hrun
          cases hrun
          obtain ⟨hactive, hcount⟩ := applyInboundImpairment_slots hinbound
          unfold connections
          rw [hactive, hcount]
          split
          · rfl
          · rfl

theorem pollClientsOnce_connections (hconn : t.Connected) (hkept : ¬ t.Loses turn)
    (h : t.pollClientsOnce turn = .ok t') : t'.connections = t.connections := by
  unfold pollClientsOnce at h
  obtain ⟨-, h⟩ := ensure_bind_eq_ok.mp h
  dsimp only at h
  rw [if_neg (by rw [hconn.client]; exact Bool.false_ne_true), pure_eq_ok, ok_bind] at h
  obtain ⟨slotOf, hslots, h⟩ := bind_eq_ok.mp h
  obtain rfl : slotOf = [0] := by
    unfold buildPollFds at hslots
    obtain ⟨-, hslots⟩ := ensure_bind_eq_ok.mp hslots
    cases hslots
    rw [hconn.active]
    rfl
  obtain ⟨t₁, hround, h⟩ := bind_eq_ok.mp h
  cases h
  unfold pollClientsOnce.round at hround
  dsimp only at hround
  split at hround
  case isTrue hdata =>
    refine recvFromClient_connections hconn.client ?_ hround
    by_contra hbroken
    exact hkept ⟨hdata, Bool.of_not_eq_false hbroken⟩
  case isFalse => cases hround; rfl

/-! ## The calls -/

/-- An open backend listens, or is a client with its connection. -/
def Opened (t : TlsTransport) : Prop := t.isOpen = true → t.listenFd ≥ 0 ∨ t.Connected

/-- A call to a server; or to a client, and in none of its rounds the connection is lost. -/
def KeepsConnection (t : TlsTransport) (call : TransportCall TlsTurn) : Prop :=
  t.isServer = true ∨
    match call with
    | .receive timeoutMs turns =>
      match t.receiveMessage timeoutMs turns with
      | .ok (delivery, _) => ∀ n < delivery.polls, ¬ t.Loses (turns n)
      | .error _ => True
    | _ => True

instance (t : TlsTransport) (call : TransportCall TlsTurn) : Decidable (t.KeepsConnection call) := by
  unfold KeepsConnection
  refine @instDecidableOr _ _ inferInstance ?_
  split
  · split
    · infer_instance
    · infer_instance
  · infer_instance

theorem Opened.of_connections (h : t.Opened) (hsame : t'.connections = t.connections) : t'.Opened := by
  have hopen : t'.isOpen = t.isOpen := congrArg (·.1.1) hsame
  have hlisten : t'.listenFd = t.listenFd := congrArg (·.1.2) hsame
  intro hopened
  rcases h (hopen.symm.trans hopened) with hserver | hconn
  · exact .inl (hlisten ▸ hserver)
  · exact .inr (hconn.congr hsame)

theorem Opened.checkOpen (h : t.Opened) : ∃ opened, t.checkOpen = .ok opened := by
  refine ⟨t.isOpen, ?_⟩
  unfold TlsTransport.checkOpen
  cases hopen : t.isOpen with
  | false =>
    rw [neverCompiledOutAssert, ensure_pos (.inr rfl)]
    rfl
  | true =>
    have hany : t.listenFd ≥ 0 ∨ t.backend.clientCount > 0 := by
      rcases h hopen with hserver | hconn
      · exact .inl hserver
      · exact .inr (by rw [hconn.count]; exact Nat.one_pos)
    rw [neverCompiledOutAssert, ensure_pos (.inl (decide_eq_true hany).symm)]
    rfl

theorem init_opened {opening : TlsOpening} {recvTimeoutMs : UInt32} {impairment : ImpairmentEngine}
    (h : init opening recvTimeoutMs impairment = .ok (.ok, t)) : t.Opened := by
  unfold init at h
  dsimp only at h
  split at h
  case isTrue =>
    unfold bindAndListen at h
    obtain ⟨-, h⟩ := ensure_bind_eq_ok.mp h
    split at h
    · cases h
    · obtain ⟨hlisten, h⟩ := ensure_bind_eq_ok.mp h
      cases h
      exact fun _ => .inl hlisten
  case isFalse hclient =>
    unfold connectToServer at h
    obtain ⟨-, h⟩ := ensure_bind_eq_ok.mp h
    obtain ⟨-, h⟩ := ensure_bind_eq_ok.mp h
    split at h
    · cases h
    · obtain ⟨-, h⟩ := ensure_bind_eq_ok.mp h
      cases h
      exact fun _ => .inr ⟨Bool.eq_false_of_not_eq_true hclient, rfl, rfl⟩

/-- One call. -/
theorem Opened.exec {call : TransportCall TlsTurn} {polls : Nat} (h : t.Opened) (hkeeps : t.KeepsConnection call)
    (hexec : exec call t = .ok (polls, t')) : t'.Opened := by
  cases call with
  | send env nowUs =>
    obtain ⟨⟨res, t₁⟩, hrun, hout⟩ := bind_eq_ok.mp hexec
    cases hout
    exact h.of_connections (sendMessage_connections hrun)
  | registerLocalId id =>
    obtain ⟨⟨res, t₁⟩, hrun, hout⟩ := bind_eq_ok.mp hexec
    cases hout
    exact h.of_connections (registerLocalId_connections hrun)
  | popHelloPeer =>
    obtain ⟨⟨src, backend⟩, hrun, hout⟩ := bind_eq_ok.mp hexec
    cases hout
    unfold TlsTcpBackend.popHelloPeer at hrun
    obtain ⟨⟨src', q⟩, -, hrun⟩ := bind_eq_ok.mp hrun
    cases hrun
    exact h.of_connections rfl
  | close =>
    obtain ⟨t₁, hrun, hout⟩ := bind_eq_ok.mp hexec
    cases hout
    unfold TlsTransport.close at hrun
    split at hrun
    case isTrue => cases hrun; exact h
    case isFalse =>
      obtain ⟨-, hrun⟩ := ensure_bind_eq_ok.mp hrun
      cases hrun
      intro hopened
      cases hopened
  | receive timeoutMs turns =>
    obtain ⟨⟨d, t₁⟩, hrun, hout⟩ := bind_eq_ok.mp hexec
    cases hout
    have hkept : t.isServer = true ∨ ∀ n < d.polls, ¬ t.Loses (turns n) := by
      unfold KeepsConnection at hkeeps
      simp only [hrun] at hkeeps
      exact hkeeps
    unfold receiveMessage at hrun
    obtain ⟨hopen, hrun⟩ := ensure_bind_eq_ok.mp hrun
    have hpop (s : TlsTransport) (reply : Reply) (s' : TlsTransport) (h : pump.pop s = .ok (reply, s')) :
        s'.connections = s.connections := by
      obtain ⟨⟨reply', q⟩, -, h⟩ := bind_eq_ok.mp h
      cases h
      rfl
    have hflush (turn : TlsTurn) (s s' : TlsTransport) (h : pump.flush turn s = .ok s') :
        s'.connections = s.connections := by
      obtain ⟨⟨res, s₁⟩, hflush, h⟩ := bind_eq_ok.mp h
      cases h
      exact flushDelayedToClients_connections hflush
    rcases h hopen with hlisten | hconn
    · have hsocket := Pump.receiveMessage_inv (I := fun s => s.connections.1 = t.connections.1)
        (fun turn s s' h (_ : True) hpoll => (pollClientsOnce_socket hpoll).trans h)
        (fun turn s s' h hrun => (congrArg Prod.fst (hflush turn s s' hrun)).trans h)
        (fun s reply s' h hrun => (congrArg Prod.fst (hpop s reply s' hrun)).trans h)
        hrun rfl fun _ _ => trivial
      have hsame : t'.listenFd = t.listenFd := congrArg Prod.snd hsocket
      exact fun _ => .inl (hsame ▸ hlisten)
    · have hnever : ∀ n < d.polls, ¬ t.Loses (turns n) := by
        rcases hkept with hserver | hnever
        · rw [hconn.client] at hserver
          cases hserver
        · exact hnever
      have hpoll (turn : TlsTurn) (s s' : TlsTransport) (h : s.connections = t.connections)
          (hgood : ¬ t.Loses turn) (hpoll : pump.poll turn s = .ok s') : s'.connections = t.connections := by
        have hkept : ¬ s.Loses turn := fun hloses => hgood ((Loses.congr h).mp hloses)
        exact (pollClientsOnce_connections (hconn.congr h) hkept hpoll).trans h
      have hsame := Pump.receiveMessage_inv (I := fun s => s.connections = t.connections) hpoll
        (fun turn s s' h hrun => (hflush turn s s' hrun).trans h)
        (fun s reply s' h hrun => (hpop s reply s' hrun).trans h) hrun rfl hnever
      exact h.of_connections hsame

end TlsTransport

/-! ## Runs -/

/-- From a successful `init` on, `is_open` can be asked after every call, as long as no client loses its
connection. -/
theorem is_open_holds (recvTimeoutMs : UInt32) (impairment : ImpairmentEngine) :
    (∀ (opening : TcpOpening) (t : TcpTransport) (calls : List (TransportCall TcpTurn)),
      TcpTransport.init opening recvTimeoutMs impairment = .ok (.ok, t) →
      Run.Along TcpTransport.exec TcpTransport.KeepsConnection calls t →
        (∃ opened, t.checkOpen = .ok opened) ∧
          Run.EachStep TcpTransport.exec (fun _ _ _ _ t' => ∃ opened, t'.checkOpen = .ok opened) [] calls t) ∧
    (∀ (opening : TlsOpening) (t : TlsTransport) (calls : List (TransportCall TlsTurn)),
      TlsTransport.init opening recvTimeoutMs impairment = .ok (.ok, t) →
      Run.Along TlsTransport.exec TlsTransport.KeepsConnection calls t →
        (∃ opened, t.checkOpen = .ok opened) ∧
          Run.EachStep TlsTransport.exec (fun _ _ _ _ t' => ∃ opened, t'.checkOpen = .ok opened) [] calls t) := by
  constructor
  · intro opening t calls hinit hkeeps
    have hopened := TcpTransport.init_opened hinit
    refine ⟨hopened.checkOpen, Run.eachStep_of_inv (fun _ t => t.Opened) ?_ calls [] t hopened hkeeps⟩
    intro past t call polls t' h hkeeps hexec
    have h' := h.exec hkeeps hexec
    exact ⟨h'.checkOpen, h'⟩
  · intro opening t calls hinit hkeeps
    have hopened := TlsTransport.init_opened hinit
    refine ⟨hopened.checkOpen, Run.eachStep_of_inv (fun _ t => t.Opened) ?_ calls [] t hopened hkeeps⟩
    intro past t call polls t' h hkeeps hexec
    have h' := h.exec hkeeps hexec
    exact ⟨h'.checkOpen, h'⟩

/-! ### Two clients -/

/-- A client with its connection on descriptor `5`, without TLS and with it. -/
def client : TcpOpening := ⟨false, some 5, fun _ => .moved 100⟩

def tlsClient : TlsOpening := ⟨false, true, some 5, fun _ => .timeout, fun _ => .wrote 100⟩

/-- A round in which the connection is readable; a read that brings nothing fails. -/
def clientTurn (frame : Option Frame) : TcpTurn where
  sweepUs := 1
  ready := some (· = 0)
  acceptedFd := -1
  os := fun _ => .timeout
  acceptUs := 1
  read _ := ⟨frame, 1⟩
  flushUs := 1

def tlsClientTurn (frame : Option Frame) : TlsTurn where
  sweepUs := 1
  acceptedFd := -1
  os := fun _ => .timeout
  writes := fun _ => .failed
  acceptUs := 1
  ready := (· = 0)
  available := fun _ => false
  read _ := ⟨frame, 1⟩
  flushUs := 1

/-- The client says who it is, hears an answer, and closes. -/
def shortVisit : List (TransportCall TcpTurn) :=
  [.registerLocalId 2, .receive 1 fun _ => clientTurn (some arrivedFrame), .close]

def shortTlsVisit : List (TransportCall TlsTurn) :=
  [.registerLocalId 2, .receive 1 fun _ => tlsClientTurn (some arrivedFrame), .close]

theorem shortVisit_holds :
    (∃ t, TcpTransport.init client 1000 .calm = .ok (.ok, t) ∧
      Run.EachStep TcpTransport.exec (fun _ _ _ _ t' => ∃ opened, t'.checkOpen = .ok opened) [] shortVisit t) ∧
    (∃ t, TlsTransport.init tlsClient 1000 .calm = .ok (.ok, t) ∧
      Run.EachStep TlsTransport.exec (fun _ _ _ _ t' => ∃ opened, t'.checkOpen = .ok opened) [] shortTlsVisit t) := by
  constructor
  · have hinit : Succeeds (TcpTransport.init client 1000 .calm) fun r => r.1 = .ok ∧
        Run.Along TcpTransport.exec TcpTransport.KeepsConnection shortVisit r.2 := by decide +kernel
    obtain ⟨⟨res, t⟩, hinit, rfl, hkeeps⟩ := hinit.exists
    exact ⟨t, hinit, ((is_open_holds 1000 .calm).1 _ _ _ hinit hkeeps).2⟩
  · have hinit : Succeeds (TlsTransport.init tlsClient 1000 .calm) fun r => r.1 = .ok ∧
        Run.Along TlsTransport.exec TlsTransport.KeepsConnection shortTlsVisit r.2 := by decide +kernel
    obtain ⟨⟨res, t⟩, hinit, rfl, hkeeps⟩ := hinit.exists
    exact ⟨t, hinit, ((is_open_holds 1000 .calm).2 _ _ _ hinit hkeeps).2⟩

/-- The server hangs up. The client has no connection left and takes itself for open: `is_open` aborts. -/
theorem hung_up_aborts :
    (∃ t t', TcpTransport.init client 1000 .calm = .ok (.ok, t) ∧
      TcpTransport.exec (.receive 1 fun _ => clientTurn none) t = .ok (1, t') ∧
      t'.checkOpen = .error (.assertion .tcpIsOpen)) ∧
    (∃ t t', TlsTransport.init tlsClient 1000 .calm = .ok (.ok, t) ∧
      TlsTransport.exec (.receive 1 fun _ => tlsClientTurn none) t = .ok (1, t') ∧
      t'.checkOpen = .error (.assertion .tlsIsOpen)) := by
  constructor
  · exact ⟨_, _, rfl, rfl, rfl⟩
  · exact ⟨_, _, rfl, rfl, rfl⟩

end MessageEngine
