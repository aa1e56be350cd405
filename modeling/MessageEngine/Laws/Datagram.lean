import MessageEngine.Core.DtlsUdpBackend
import MessageEngine.Core.UdpBackend
import MessageEngine.Laws.Backend.Inbox
import MessageEngine.Lib.Run

/-!
# Who sent a message, by datagram

A datagram backend has one peer, and a session lasts from one `init` to the next. `Step` is what the
two backends do with a datagram, without what differs between them: which sources they take for the
peer is a parameter.

## What is proved

- `UdpBackend.recvOneDatagram_step`, `DtlsUdpBackend.recvOneDtlsDatagram_step`: the two backends do such steps,
  and leave their sockets alone;
- `Step.bound`: a peer that counts as greeted has introduced itself in this session, and what is
  queued came from it and has its node as the source;
- `Datagrams.queuedFromPeer`: so it is in every run of a backend that does such steps.
-/

namespace MessageEngine

open Outcome Run

namespace PeerBinding

/-- The three answers of `process_hello_or_validate`. -/
theorem processHelloOrValidate_cases {p p' : PeerBinding} {env : MessageEnvelope} {verdict : Bool × Bool}
    (h : p.processHelloOrValidate env = (verdict, p')) :
    (verdict = (false, false) ∧ (env.messageType = .hello → p.helloReceived = true) ∧ p' = p) ∨
    (verdict = (true, true) ∧ env.messageType = .hello ∧ p.helloReceived = false ∧ p' = ⟨env.sourceId, true⟩) ∨
    (verdict = (true, false) ∧ env.messageType ≠ .hello ∧ p.helloReceived = true ∧
      env.sourceId = p.nodeId ∧ p' = p) := by
  unfold processHelloOrValidate at h
  split at h
  case isTrue hhello =>
    split at h
    case isTrue hgreeted =>
      cases h
      exact .inl ⟨rfl, fun _ => hgreeted, rfl⟩
    case isFalse hfirst =>
      cases h
      exact .inr (.inl ⟨rfl, hhello, by simpa using hfirst, rfl⟩)
  case isFalse hdata =>
    split at h
    case isTrue =>
      cases h
      exact .inl ⟨rfl, fun hhello => absurd hhello hdata, rfl⟩
    case isFalse hgreeted =>
      split at h
      case isTrue =>
        cases h
        exact .inl ⟨rfl, fun hhello => absurd hhello hdata, rfl⟩
      case isFalse hsame =>
        cases h
        exact .inr (.inr ⟨rfl, hdata, by simpa using hgreeted, not_not.mp hsame, rfl⟩)

end PeerBinding

/-! ## Steps -/

/-- A datagram backend without its socket. -/
structure Datagrams where
  peer : PeerBinding
  inbox : Inbox

namespace Datagrams

/-- What an event does. -/
inductive Step (FromPeer : Source → Prop) (v : Datagrams) :
    DatagramEvent → List DatagramEffect → Datagrams → Prop
  | ignored {a : Attempt} : Step FromPeer v (.arrival a) [] v
  | dropped {a : Attempt} {src : Source} {env : MessageEnvelope} (peer : FromPeer src) :
      Step FromPeer v (.arrival a) [.received src env] v
  | greeted {a : Attempt} {src : Source} {env : MessageEnvelope} {answer : List DatagramEffect}
      (peer : FromPeer src) (hello : env.messageType = .hello) (answers : ∀ x ∈ answer, x = .helloSent) :
      Step FromPeer v (.arrival a) (.received src env :: answer) { v with peer := ⟨env.sourceId, true⟩ }
  | admitted {a : Attempt} {src : Source} {env : MessageEnvelope} {queued : Option MessageEnvelope}
      {inbox : Inbox} (peer : FromPeer src) (data : env.messageType ≠ .hello)
      (greeted : v.peer.helloReceived = true) (speaks : env.sourceId = v.peer.nodeId)
      (inbound : v.inbox.receiveInbound env a.nowUs = .ok (queued, inbox)) :
      Step FromPeer v (.arrival a) (.received src env :: queued.toList.map (.queued src)) { v with inbox }
  | taken {reply : Reply} {recvQueue : RingBuffer} (pop : v.inbox.recvQueue.pop = .ok (reply, recvQueue)) :
      Step FromPeer v .popMessage [] { v with inbox := { v.inbox with recvQueue } }
  | reopened {fd : Int} {impairment : ImpairmentEngine} :
      Step FromPeer v (.reopen fd impairment) [.opened] ⟨.none, ⟨impairment, .init⟩⟩

end Datagrams

namespace UdpBackend

variable {b b' : UdpBackend} {event : DatagramEvent} {effects : List DatagramEffect}

/-- The backend without its socket. -/
def datagrams (b : UdpBackend) : Datagrams := ⟨b.peer, b.inbox⟩

/-- The configured peer sent it. -/
def FromPeer (b : UdpBackend) (src : Source) : Prop := src = b.peerAddress

/-- The socket and the configured peer are as before. -/
structure SameSocket (b b' : UdpBackend) : Prop where
  isOpen : b'.isOpen = b.isOpen
  fd : b'.fd = b.fd
  peerAddress : b'.peerAddress = b.peerAddress

theorem SameSocket.fromPeer (h : SameSocket b b') : b'.FromPeer = b.FromPeer := by
  unfold FromPeer
  rw [h.peerAddress]

theorem passInbound_queued {src : Source} {env : MessageEnvelope} {nowUs : UInt64} {res : Bool}
    (h : b.passInbound src env nowUs = .ok (res, b')) :
    ∃ queued inbox, b.inbox.receiveInbound env nowUs = .ok (queued, inbox) ∧
      b' = { b with inbox, trace := b.trace ++ queued.toList.map (.queued src) } := by
  unfold passInbound at h
  obtain ⟨⟨queued, inbox⟩, hinbound, h⟩ := bind_eq_ok.mp h
  refine ⟨queued, inbox, hinbound, ?_⟩
  cases queued with
  | none =>
    cases h
    simp
  | some out =>
    cases h
    rfl

theorem validateSource_fromPeer {src : Source} (h : b.validateSource src = .ok true) : b.FromPeer src := by
  obtain ⟨-, h⟩ := ensure_bind_eq_ok.mp h
  injection h with h
  simp only [Bool.and_eq_true, beq_iff_eq] at h
  exact congr (congrArg Source.mk h.1) h.2

/-- What an attempt to receive does to the backend. -/
theorem recvOneDatagram_step {a : Attempt} {res : Bool} (h : b.recvOneDatagram a = .ok (res, b')) :
    SameSocket b b' ∧ ∃ effects, b'.trace = b.trace ++ effects ∧
      Datagrams.Step b.FromPeer b.datagrams (.arrival a) effects b'.datagrams := by
  have hignored : SameSocket b b ∧ ∃ effects, b.trace = b.trace ++ effects ∧
      Datagrams.Step b.FromPeer b.datagrams (.arrival a) effects b.datagrams :=
    ⟨⟨rfl, rfl, rfl⟩, [], (List.append_nil _).symm, .ignored⟩
  unfold recvOneDatagram at h
  obtain ⟨-, h⟩ := ensure_bind_eq_ok.mp h
  obtain ⟨-, h⟩ := ensure_bind_eq_ok.mp h
  cases hdatagram : a.datagram with
  | none =>
    simp only [hdatagram] at h
    cases h
    exact hignored
  | some datagram =>
    obtain ⟨src, frame⟩ := datagram
    simp only [hdatagram] at h
    obtain ⟨valid, hvalid, h⟩ := bind_eq_ok.mp h
    cases valid with
    | false =>
      cases h
      exact hignored
    | true =>
      have hpeer := validateSource_fromPeer hvalid
      simp only [Bool.not_true, Bool.false_eq_true, if_false] at h
      obtain ⟨reply, -, h⟩ := bind_eq_ok.mp h
      cases reply with
      | error _ =>
        cases h
        exact hignored
      | ok env =>
        obtain ⟨⟨⟨valid, consumed⟩, b₁⟩, hverdict, h⟩ := bind_eq_ok.mp h
        obtain ⟨-, hverdict⟩ := ensure_bind_eq_ok.mp hverdict
        obtain ⟨-, hverdict⟩ := ensure_bind_eq_ok.mp hverdict
        cases hp : b.peer.processHelloOrValidate env with
        | mk verdict peer =>
          simp only [note, hp] at hverdict
          cases hverdict
          rcases PeerBinding.processHelloOrValidate_cases hp with
            ⟨hv, -, rfl⟩ | ⟨hv, hhello, -, rfl⟩ | ⟨hv, hdata, hgreeted, hspeaks, rfl⟩
          · cases hv
            cases h
            exact ⟨⟨rfl, rfl, rfl⟩, _, rfl, .dropped hpeer⟩
          · cases hv
            cases h
            exact ⟨⟨rfl, rfl, rfl⟩, _, rfl, .greeted hpeer hhello (by simp)⟩
          · cases hv
            simp only [Bool.not_true, Bool.false_eq_true, if_false] at h
            obtain ⟨queued, inbox, hinbound, rfl⟩ := passInbound_queued h
            exact ⟨⟨rfl, rfl, rfl⟩, _, List.append_assoc .., .admitted hpeer hdata hgreeted hspeaks hinbound⟩

/-- What an event does to the backend. -/
theorem exec_step (h : b.exec event = .ok (effects, b')) :
    b'.FromPeer = b.FromPeer ∧ Datagrams.Step b.FromPeer b.datagrams event effects b'.datagrams := by
  cases event with
  | reopen fd impairment =>
    cases h
    exact ⟨rfl, .reopened⟩
  | popMessage =>
    obtain ⟨⟨reply, recvQueue⟩, hpop, hend⟩ := bind_eq_ok.mp h
    cases hend
    exact ⟨rfl, .taken hpop⟩
  | arrival a =>
    obtain ⟨⟨res, b₁⟩, hrecv, hend⟩ := bind_eq_ok.mp h
    cases hend
    obtain ⟨hsame, effects, htrace, hstep⟩ := recvOneDatagram_step (b := { b with trace := [] }) hrecv
    rw [List.nil_append] at htrace
    rw [htrace]
    exact ⟨hsame.fromPeer, hstep⟩

end UdpBackend

namespace DtlsUdpBackend

variable {b b' : DtlsUdpBackend} {event : DatagramEvent} {effects : List DatagramEffect}

/-- The backend without its socket. -/
def datagrams (b : DtlsUdpBackend) : Datagrams := ⟨b.peer, b.inbox⟩

/-- The peer of the DTLS session sent it; without DTLS the address tells, and to a client also the
port. -/
def FromPeer (b : DtlsUdpBackend) (src : Source) : Prop :=
  b.tlsEnabled = true ∨
    src.ip = b.peerAddress.ip ∧ (b.isServer = true ∨ src.port = b.peerAddress.port)

/-- The socket, the configuration and the node are as before; the port that was learned may not be. -/
structure SameSocket (b b' : DtlsUdpBackend) : Prop where
  isServer : b'.isServer = b.isServer
  tlsEnabled : b'.tlsEnabled = b.tlsEnabled
  isOpen : b'.isOpen = b.isOpen
  sockFd : b'.sockFd = b.sockFd
  peerAddress : b'.peerAddress = b.peerAddress
  localNodeId : b'.localNodeId = b.localNodeId

theorem SameSocket.fromPeer (h : SameSocket b b') : b'.FromPeer = b.FromPeer := by
  unfold FromPeer
  rw [h.isServer, h.tlsEnabled, h.peerAddress]

theorem SameSocket.trans {b₁ : DtlsUdpBackend} (h : SameSocket b b₁) (h' : SameSocket b₁ b') : SameSocket b b' :=
  ⟨h'.isServer.trans h.isServer, h'.tlsEnabled.trans h.tlsEnabled, h'.isOpen.trans h.isOpen,
    h'.sockFd.trans h.sockFd, h'.peerAddress.trans h.peerAddress, h'.localNodeId.trans h.localNodeId⟩

theorem validateSource_fromPeer {src : Source} {valid : Bool}
    (h : b.validateSource src = .ok (valid, b')) :
    (∃ port, b' = { b with pendingSrcPort := port }) ∧ (valid = true → b.FromPeer src) := by
  obtain ⟨-, h⟩ := ensure_bind_eq_ok.mp h
  by_cases htls : b.tlsEnabled = true
  · rw [if_pos htls] at h
    cases h
    exact ⟨⟨_, rfl⟩, fun _ => .inl htls⟩
  · rw [if_neg htls] at h
    by_cases hserver : b.isServer = true
    · by_cases hport : b.peerSrcPort = 0
      · simp only [if_pos hserver, if_pos hport] at h
        cases h
        refine ⟨⟨_, rfl⟩, fun hvalid => .inr ⟨?_, .inl hserver⟩⟩
        simpa using hvalid
      · simp only [if_pos hserver, if_neg hport] at h
        cases h
        refine ⟨⟨_, rfl⟩, fun hvalid => .inr ⟨?_, .inl hserver⟩⟩
        simp only [Bool.and_eq_true, beq_iff_eq] at hvalid
        exact hvalid.1
    · simp only [if_neg hserver] at h
      cases h
      refine ⟨⟨_, rfl⟩, fun hvalid => .inr ?_⟩
      simp only [Bool.and_eq_true, beq_iff_eq] at hvalid
      exact ⟨hvalid.1, .inr hvalid.2⟩

theorem commitPendingSrcPort_ports (h : b.commitPendingSrcPort = .ok b') :
    ∃ locked pending, b' = { b with peerSrcPort := locked, pendingSrcPort := pending } := by
  obtain ⟨-, h⟩ := ensure_bind_eq_ok.mp h
  split at h
  · obtain ⟨-, h⟩ := ensure_bind_eq_ok.mp h
    cases h
    exact ⟨_, _, rfl⟩
  · cases h
    exact ⟨_, _, rfl⟩

/-- The three answers of `process_hello_or_validate`. -/
theorem processHelloOrValidate_cases {env : MessageEnvelope} {verdict : Bool × Bool}
    (h : b.processHelloOrValidate env = .ok (verdict, b')) :
    (verdict = (false, false) ∧ (env.messageType = .hello → b.peer.helloReceived = true) ∧ b' = b) ∨
    (verdict = (true, true) ∧ env.messageType = .hello ∧ b.peer.helloReceived = false ∧
      ∃ b₁ answer, commitPendingSrcPort { b with peer := ⟨env.sourceId, true⟩ } = .ok b₁ ∧
        (∀ x ∈ answer, x = DatagramEffect.helloSent) ∧ b' = { b₁ with trace := b₁.trace ++ answer }) ∨
    (verdict = (true, false) ∧ env.messageType ≠ .hello ∧ b.peer.helloReceived = true ∧
      env.sourceId = b.peer.nodeId ∧ b' = b) := by
  obtain ⟨-, h⟩ := ensure_bind_eq_ok.mp h
  obtain ⟨-, h⟩ := ensure_bind_eq_ok.mp h
  cases hp : b.peer.processHelloOrValidate env with
  | mk answered peer =>
    simp only [hp] at h
    rcases PeerBinding.processHelloOrValidate_cases hp with
      ⟨rfl, hagain, rfl⟩ | ⟨rfl, hhello, hfirst, rfl⟩ | ⟨rfl, hdata, hgreeted, hspeaks, rfl⟩
    · cases h
      exact .inl ⟨rfl, hagain, rfl⟩
    · simp only [if_true] at h
      obtain ⟨b₁, hcommit, h⟩ := bind_eq_ok.mp h
      split at h
      · cases h
        exact .inr (.inl ⟨rfl, hhello, hfirst, b₁, [.helloSent], hcommit, by simp, rfl⟩)
      · cases h
        exact .inr (.inl ⟨rfl, hhello, hfirst, b', [], hcommit, by simp, by simp⟩)
    · cases h
      exact .inr (.inr ⟨rfl, hdata, hgreeted, hspeaks, rfl⟩)

theorem applyInboundImpairment_queued {src : Source} {env : MessageEnvelope} {nowUs : UInt64} {res : Bool}
    (h : b.applyInboundImpairment src env nowUs = .ok (res, b')) :
    ∃ queued inbox, b.inbox.receiveInbound env nowUs = .ok (queued, inbox) ∧
      b' = { b with inbox, trace := b.trace ++ queued.toList.map (.queued src) } := by
  obtain ⟨-, h⟩ := ensure_bind_eq_ok.mp h
  obtain ⟨⟨queued, inbox⟩, hinbound, h⟩ := bind_eq_ok.mp h
  refine ⟨queued, inbox, hinbound, ?_⟩
  cases queued with
  | none =>
    cases h
    simp
  | some out =>
    cases h
    rfl

theorem deserializeAndDispatch_step {a : Attempt} {src : Source} {frame : Frame} {res : Bool}
    (hpeer : b.FromPeer src) (h : b.deserializeAndDispatch src frame a.nowUs = .ok (res, b')) :
    SameSocket b b' ∧ ∃ effects, b'.trace = b.trace ++ effects ∧
      Datagrams.Step b.FromPeer b.datagrams (.arrival a) effects b'.datagrams := by
  obtain ⟨-, h⟩ := ensure_bind_eq_ok.mp h
  obtain ⟨-, h⟩ := ensure_bind_eq_ok.mp h
  obtain ⟨reply, -, h⟩ := bind_eq_ok.mp h
  cases reply with
  | error _ =>
    cases h
    exact ⟨⟨rfl, rfl, rfl, rfl, rfl, rfl⟩, [], (List.append_nil _).symm, .ignored⟩
  | ok env =>
    obtain ⟨⟨⟨valid, consumed⟩, b₁⟩, hverdict, h⟩ := bind_eq_ok.mp h
    rcases processHelloOrValidate_cases hverdict with
      ⟨hv, -, rfl⟩ | ⟨hv, hhello, -, b₂, answer, hcommit, hanswer, rfl⟩ | ⟨hv, hdata, hgreeted, hspeaks, rfl⟩
    · cases hv
      cases h
      exact ⟨⟨rfl, rfl, rfl, rfl, rfl, rfl⟩, _, rfl, .dropped hpeer⟩
    · obtain ⟨locked, pending, rfl⟩ := commitPendingSrcPort_ports hcommit
      cases hv
      cases h
      exact ⟨⟨rfl, rfl, rfl, rfl, rfl, rfl⟩, _, List.append_assoc .., .greeted hpeer hhello hanswer⟩
    · cases hv
      simp only [Bool.not_true, Bool.false_eq_true, if_false] at h
      obtain ⟨queued, inbox, hinbound, rfl⟩ := applyInboundImpairment_queued h
      exact ⟨⟨rfl, rfl, rfl, rfl, rfl, rfl⟩, _, List.append_assoc ..,
        .admitted hpeer hdata hgreeted hspeaks hinbound⟩

/-- What an attempt to receive does to the backend. -/
theorem recvOneDtlsDatagram_step {a : Attempt} {res : Bool} (h : b.recvOneDtlsDatagram a = .ok (res, b')) :
    SameSocket b b' ∧ ∃ effects, b'.trace = b.trace ++ effects ∧
      Datagrams.Step b.FromPeer b.datagrams (.arrival a) effects b'.datagrams := by
  obtain ⟨-, h⟩ := ensure_bind_eq_ok.mp h
  obtain ⟨-, h⟩ := ensure_bind_eq_ok.mp h
  cases hdatagram : a.datagram with
  | none =>
    simp only [hdatagram] at h
    cases h
    exact ⟨⟨rfl, rfl, rfl, rfl, rfl, rfl⟩, [], (List.append_nil _).symm, .ignored⟩
  | some datagram =>
    obtain ⟨src, frame⟩ := datagram
    simp only [hdatagram] at h
    split at h
    case isTrue htls => exact deserializeAndDispatch_step (.inl htls) h
    case isFalse =>
      obtain ⟨⟨valid, b₂⟩, hvalid, h⟩ := bind_eq_ok.mp h
      obtain ⟨⟨port, rfl⟩, hpeer⟩ := validateSource_fromPeer hvalid
      cases valid with
      | false =>
        cases h
        exact ⟨⟨rfl, rfl, rfl, rfl, rfl, rfl⟩, [], (List.append_nil _).symm, .ignored⟩
      | true =>
        obtain ⟨hsame, hstep⟩ := deserializeAndDispatch_step (b := { b with pendingSrcPort := port }) (hpeer rfl) h
        exact ⟨⟨hsame.isServer, hsame.tlsEnabled, hsame.isOpen, hsame.sockFd, hsame.peerAddress, hsame.localNodeId⟩,
          hstep⟩

/-- What an event does to the backend. -/
theorem exec_step (h : b.exec event = .ok (effects, b')) :
    b'.FromPeer = b.FromPeer ∧ Datagrams.Step b.FromPeer b.datagrams event effects b'.datagrams := by
  cases event with
  | reopen fd impairment =>
    cases h
    exact ⟨rfl, .reopened⟩
  | popMessage =>
    obtain ⟨⟨reply, recvQueue⟩, hpop, hend⟩ := bind_eq_ok.mp h
    cases hend
    exact ⟨rfl, .taken hpop⟩
  | arrival a =>
    obtain ⟨⟨res, b₁⟩, hrecv, hend⟩ := bind_eq_ok.mp h
    cases hend
    obtain ⟨hsame, effects, htrace, hstep⟩ := recvOneDtlsDatagram_step (b := { b with trace := [] }) hrecv
    rw [List.nil_append] at htrace
    rw [htrace]
    exact ⟨hsame.fromPeer, hstep⟩

end DtlsUdpBackend

/-! ## Messages and their sender -/

namespace Datagrams

/-- In the session that is on, the peer has said `HELLO` as `node`. -/
def Introduced (FromPeer : Source → Prop) (past : List DatagramEffect) (node : NodeId) : Prop :=
  ∃ before src hello after, past = before ++ .received src hello :: after ∧ FromPeer src ∧
    hello.messageType = .hello ∧ hello.sourceId = node ∧ .opened ∉ after

/-- In the session that is on, the message came in from the peer, which had introduced itself as its
source. -/
def Arrived (FromPeer : Source → Prop) (past : List DatagramEffect) (src : Source)
    (env : MessageEnvelope) : Prop :=
  ∃ before after, past = before ++ .received src env :: after ∧ FromPeer src ∧
    Introduced FromPeer before env.sourceId ∧ .opened ∉ after

/-- What the effects queue is no `HELLO`, and came in from the peer after it had introduced itself as
the source: without reordering, it is the datagram that was read. -/
def QueuedFromPeer (FromPeer : Source → Prop) (reordering : Bool) (past effects : List DatagramEffect) :
    Prop :=
  ∀ before src env after, effects = before ++ .queued src env :: after →
    env.messageType ≠ .hello ∧ ∃ origin, Arrived FromPeer (past ++ before) origin env ∧
      (reordering = false → origin = src)

/-- A message that may be queued. -/
def Vetted (FromPeer : Source → Prop) (past : List DatagramEffect) (env : MessageEnvelope) : Prop :=
  env.messageType ≠ .hello ∧ ∃ src, Arrived FromPeer past src env

/-- A peer that counts as greeted has introduced itself, and so had the sender of every message that
waits in the reorder window. -/
structure Bound (FromPeer : Source → Prop) (past : List DatagramEffect) (v : Datagrams) : Prop where
  peer : v.peer.helloReceived = true → Introduced FromPeer past v.peer.nodeId
  window : v.inbox.impairment.WindowHolds (Vetted FromPeer past)

variable {FromPeer : Source → Prop} {past effects : List DatagramEffect} {v v' : Datagrams}
  {event : DatagramEvent} {env : MessageEnvelope}

theorem Introduced.append {node : NodeId} (h : Introduced FromPeer past node) (hsame : .opened ∉ effects) :
    Introduced FromPeer (past ++ effects) node := by
  obtain ⟨before, src, hello, after, rfl, hpeer, htype, hsrc, hafter⟩ := h
  refine ⟨before, src, hello, after ++ effects, by simp, hpeer, htype, hsrc, ?_⟩
  rw [List.mem_append]
  exact not_or.mpr ⟨hafter, hsame⟩

theorem Vetted.append (h : Vetted FromPeer past env) (hsame : .opened ∉ effects) :
    Vetted FromPeer (past ++ effects) env := by
  obtain ⟨hdata, src, before, after, rfl, hpeer, hintro, hafter⟩ := h
  refine ⟨hdata, src, before, after ++ effects, by simp, hpeer, hintro, ?_⟩
  rw [List.mem_append]
  exact not_or.mpr ⟨hafter, hsame⟩

theorem Bound.append (h : Bound FromPeer past v) (hsame : .opened ∉ effects) :
    Bound FromPeer (past ++ effects) v :=
  ⟨fun hgreeted => (h.peer hgreeted).append hsame, h.window.mono fun _ hm => hm.append hsame⟩

/-- The impairments a session starts with are as `init` leaves them. -/
def Fresh : DatagramEvent → Prop
  | .arrival _ | .popMessage => True
  | .reopen _ impairment => impairment.Initialised

/-- What a datagram queues was vetted, and without reordering it is the message in it. -/
theorem admitted_queued {reordering : Bool} {src : Source} {queued : Option MessageEnvelope}
    (hpeer : FromPeer src) (hintro : Introduced FromPeer past env.sourceId)
    (hqueued : ∀ m, queued = some m → Vetted FromPeer (past ++ [.received src env]) m ∧
      (reordering = false → m = env)) :
    QueuedFromPeer FromPeer reordering past (.received src env :: queued.toList.map (.queued src)) := by
  rintro before src' env' after heq
  cases queued with
  | none =>
    have hmem : DatagramEffect.queued src' env' ∈ [DatagramEffect.received src env] := by
      rw [show [DatagramEffect.received src env] = _ from heq]
      exact List.mem_append_right _ List.mem_cons_self
    simp at hmem
  | some out =>
    obtain ⟨⟨hdata, origin, harrived⟩, hsame⟩ := hqueued out rfl
    have hlast : before = [.received src env] ∧ src = src' ∧ out = env' := by
      rcases before with _ | ⟨x, _ | ⟨y, rest⟩⟩
      · simp at heq
      · simp only [Option.toList_some, List.map_cons, List.map_nil, List.cons_append, List.nil_append,
          List.cons.injEq] at heq
        obtain ⟨rfl, heq, -⟩ := heq
        injection heq with hsrc henv
        exact ⟨rfl, hsrc, henv⟩
      · simp at heq
    obtain ⟨rfl, rfl, rfl⟩ := hlast
    refine ⟨hdata, ?_⟩
    cases reordering with
    | true => exact ⟨origin, harrived, by intro h; cases h⟩
    | false =>
      obtain rfl := hsame rfl
      exact ⟨src, ⟨past, [], rfl, hpeer, hintro, by simp⟩, fun _ => rfl⟩

theorem Step.bound (h : Step FromPeer v event effects v') (hfresh : Fresh event)
    (hbound : Bound FromPeer past v) :
    QueuedFromPeer FromPeer v.inbox.impairment.cfg.reorderEnabled past effects ∧
      Bound FromPeer (past ++ effects) v' := by
  have hnone (hnone : ∀ src env, .queued src env ∉ effects) :
      QueuedFromPeer FromPeer v.inbox.impairment.cfg.reorderEnabled past effects := by
    rintro before src env after rfl
    exact absurd (List.mem_append_right _ List.mem_cons_self) (hnone src env)
  cases h with
  | ignored => exact ⟨hnone (by simp), hbound.append (by simp)⟩
  | dropped => exact ⟨hnone (by simp), hbound.append (by simp)⟩
  | taken =>
    have hkept : Bound FromPeer (past ++ []) v := hbound.append (by simp)
    exact ⟨hnone (by simp), hkept.peer, hkept.window⟩
  | @greeted a src env answer peer hello answers =>
    have hanswer : .opened ∉ answer := by
      intro hmem
      cases answers _ hmem
    refine ⟨hnone fun src' env' hmem => ?_, fun _ => ⟨past, src, env, answer, rfl, peer, hello, rfl, hanswer⟩,
      (hbound.append (by simpa using hanswer)).window⟩
    rcases List.mem_cons.mp hmem with hmem | hmem
    · cases hmem
    · cases answers _ hmem
  | @admitted a src env queued inbox peer data greeted speaks inbound =>
    have hintro : Introduced FromPeer past env.sourceId := speaks ▸ hbound.peer greeted
    have harrived : .opened ∉ [DatagramEffect.received src env] := by simp
    have hvetted : Vetted FromPeer (past ++ [.received src env]) env :=
      ⟨data, src, past, [], rfl, peer, hintro, by simp⟩
    obtain ⟨-, hwindow, hqueued⟩ := Inbox.receiveInbound_queued (hbound.append harrived).window hvetted inbound
    have hlater : .opened ∉ queued.toList.map (DatagramEffect.queued src) := by simp
    refine ⟨admitted_queued peer hintro hqueued, fun _ => ?_, ?_⟩
    · exact (hbound.peer greeted).append (by simp)
    · have hkept := hwindow.mono fun m hm => Vetted.append hm hlater
      rw [List.append_assoc] at hkept
      exact hkept
  | reopened =>
    refine ⟨hnone (by simp), ?_, .init hfresh⟩
    intro hgreeted
    cases hgreeted

/-- In every run of a backend that does such steps. -/
theorem queuedFromPeer {β : Type} {exec : DatagramEvent → β → Checked (List DatagramEffect × β)}
    (view : β → Datagrams) (FromPeer : β → Source → Prop)
    (hstep : ∀ b event effects b', exec event b = .ok (effects, b') →
      FromPeer b' = FromPeer b ∧ Step (FromPeer b) (view b) event effects (view b'))
    (b₀ : β) (hpeer : (view b₀).peer = .none) (hinit : (view b₀).inbox.impairment.Initialised)
    (events : List DatagramEvent) (hfresh : ∀ event ∈ events, Fresh event) :
    EachStep exec (fun past b _ effects _ => QueuedFromPeer (FromPeer b₀)
      (view b).inbox.impairment.cfg.reorderEnabled past.flatten effects) [] events b₀ := by
  have halong : Along exec (fun _ event => True ∧ Fresh event) events b₀ :=
    (Along.of_forall (fun _ _ => trivial) events b₀).and_inputs hfresh
  refine eachStep_of_inv (fun past b => FromPeer b = FromPeer b₀ ∧
    Bound (FromPeer b) past.flatten (view b)) ?_ events [] _ ⟨rfl, ?_, .init hinit⟩ halong
  · rintro past b event effects b' ⟨hpeer, hbound⟩ ⟨-, hfresh⟩ hrun
    obtain ⟨hpeer', hstep⟩ := hstep b event effects b' hrun
    obtain ⟨hqueued, hbound'⟩ := hstep.bound hfresh hbound
    rw [List.flatten_append, List.flatten_singleton, hpeer', ← hpeer]
    exact ⟨hqueued, rfl, hbound'⟩
  · rw [hpeer]
    intro hgreeted
    cases hgreeted

end Datagrams

theorem UdpBackend.queuedFromPeer (peerAddress : Source) (fd : Int) (impairment : ImpairmentEngine)
    (hinit : impairment.Initialised) (events : List DatagramEvent)
    (hfresh : ∀ event ∈ events, Datagrams.Fresh event) :
    EachStep exec (fun past b _ effects _ => Datagrams.QueuedFromPeer (start peerAddress fd impairment).FromPeer
        b.inbox.impairment.cfg.reorderEnabled past.flatten effects)
      [] events (start peerAddress fd impairment) :=
  Datagrams.queuedFromPeer datagrams FromPeer (fun _ _ _ _ => exec_step)
    (start peerAddress fd impairment) rfl hinit events hfresh

theorem DtlsUdpBackend.queuedFromPeer (isServer tlsEnabled : Bool) (peerAddress : Source)
    (localNodeId : NodeId) (fd : Int) (impairment : ImpairmentEngine) (hinit : impairment.Initialised)
    (events : List DatagramEvent) (hfresh : ∀ event ∈ events, Datagrams.Fresh event) :
    EachStep exec (fun past b _ effects _ => Datagrams.QueuedFromPeer
        (start isServer tlsEnabled peerAddress localNodeId fd impairment).FromPeer
        b.inbox.impairment.cfg.reorderEnabled past.flatten effects)
      [] events (start isServer tlsEnabled peerAddress localNodeId fd impairment) :=
  Datagrams.queuedFromPeer datagrams FromPeer (fun _ _ _ _ => exec_step)
    (start isServer tlsEnabled peerAddress localNodeId fd impairment) rfl hinit events hfresh

end MessageEngine
