import MessageEngine.Laws.Datagram
import MessageEngine.Laws.TcpBackend.Invariant
import MessageEngine.Laws.TlsTcpBackend
import MessageEngine.Lib.Run

/-!
# Who sent a message

A message in the receive queue of a TCP server came in on a connection whose client had said `HELLO`
in the same session, and has the node of that `HELLO` as its source. The proof follows a client from
its `HELLO` to its message: the table says which node it has, and the trace says where it got it. A
message may wait in the reorder window in between; the window only holds messages that were vetted.

## What is proved

- `Step.bound`, `Slip.bound`: every registered client has introduced itself in the session it is in,
  and what is queued was sent by such a client;
- `Step.window`: so was what waits in the reorder window;
- `TcpBackend.queuedBound`, `TlsTcpBackend.queuedBound`: so it is in every run;
- `source_binding`: the four backends together.
-/

namespace MessageEngine

open Outcome Run

/-- The clients with a node are told apart by it. -/
def Registry.NodesDistinct (live : Registry) : Prop :=
  ∀ c ∈ live, ∀ c' ∈ live, c.nodeId ≠ nodeIdInvalid → c.nodeId = c'.nodeId → c.fd = c'.fd

theorem Registry.Sound.nodesDistinct {live : Registry} (h : live.Sound) : live.NodesDistinct :=
  fun c hc c' hc' hne heq => congrArg Client.fd (h.unique c hc c' hc' hne heq)

/-- In the session the connection is in, its client has said `HELLO` as `src`. -/
def Introduced (past : List BackendEffect) (fd : Int) (src : NodeId) : Prop :=
  ∃ before hello after, past = before ++ .received fd hello :: after ∧ hello.messageType = .hello ∧
    hello.sourceId = src ∧ .accepted fd ∉ after ∧ .closed fd ∉ after

/-- The message came in on the connection, from a client that had introduced itself as its source. -/
def Arrived (past : List BackendEffect) (fd : Int) (env : MessageEnvelope) : Prop :=
  ∃ before after, past = before ++ .received fd env :: after ∧ Introduced before fd env.sourceId

/-- What the effects queue is no `HELLO`, and came in from a client that had introduced itself as its
source: without reordering, on the connection that was read. -/
def QueuedBound (reordering : Bool) (past effects : List BackendEffect) : Prop :=
  ∀ before fd env after, effects = before ++ .queued fd env :: after →
    env.messageType ≠ .hello ∧ ∃ origin, Arrived (past ++ before) origin env ∧
      (reordering = false → origin = fd)

/-- The effects of a run. -/
def effectsIn (os : List ServerObservation) : List BackendEffect := os.flatMap ServerObservation.effects

theorem effectsIn_snoc (os : List ServerObservation) (o : ServerObservation) :
    effectsIn (os ++ [o]) = effectsIn os ++ o.effects := by
  simp [effectsIn]

/-- A session goes on until its connection is closed or given away. -/
theorem Introduced.append {past effects : List BackendEffect} {fd : Int} {src : NodeId}
    (h : Introduced past fd src) (haccepted : .accepted fd ∉ effects) (hclosed : .closed fd ∉ effects) :
    Introduced (past ++ effects) fd src := by
  obtain ⟨before, hello, after, rfl, htype, hsrc, ha, hc⟩ := h
  refine ⟨before, hello, after ++ effects, by simp, htype, hsrc, ?_, ?_⟩
  · rw [List.mem_append]
    exact not_or.mpr ⟨ha, haccepted⟩
  · rw [List.mem_append]
    exact not_or.mpr ⟨hc, hclosed⟩

theorem Arrived.append {past : List BackendEffect} {fd : Int} {env : MessageEnvelope}
    (h : Arrived past fd env) (effects : List BackendEffect) : Arrived (past ++ effects) fd env := by
  obtain ⟨before, after, rfl, hintro⟩ := h
  exact ⟨before, after ++ effects, by simp, hintro⟩

/-- Effects that queue nothing. -/
theorem QueuedBound.of_none {reordering : Bool} {past effects : List BackendEffect}
    (h : ∀ fd env, .queued fd env ∉ effects) : QueuedBound reordering past effects := by
  rintro before fd env after rfl
  exact absurd (List.mem_append_right _ List.mem_cons_self) (h fd env)

namespace Server

variable {v v' : Server} {event : ServerEvent} {o : ServerObservation} {past : List BackendEffect}

/-- Every registered client has introduced itself in the session it is in. -/
def Bound (past : List BackendEffect) (live : Registry) : Prop :=
  ∀ c ∈ live, c.nodeId ≠ nodeIdInvalid → Introduced past c.fd c.nodeId

/-- Clients whose sessions go on stay bound. -/
theorem Bound.append {live live' : Registry} {effects : List BackendEffect} (h : Bound past live)
    (hsub : ∀ c ∈ live', ∃ c₀ ∈ live, c₀.fd = c.fd ∧ c₀.nodeId = c.nodeId)
    (hsame : ∀ c ∈ live', .accepted c.fd ∉ effects ∧ .closed c.fd ∉ effects) :
    Bound (past ++ effects) live' := by
  intro c hc hnode
  obtain ⟨c₀, hc₀, hfd, hnode₀⟩ := hsub c hc
  have hintro := h c₀ hc₀ (hnode₀ ▸ hnode)
  rw [hfd, hnode₀] at hintro
  exact hintro.append (hsame c hc).1 (hsame c hc).2

/-- A client that may speak for a source introduced itself as it. -/
theorem Bound.introduced {live : Registry} {fd : Int} {src : NodeId} (h : Bound past live)
    (speaks : live.Speaks fd src) : Introduced past fd src := by
  obtain ⟨c, hc, hfd, hnode, hsrc⟩ := speaks
  exact hfd ▸ hsrc ▸ h c hc hnode

/-- A message that may be queued. -/
def Vetted (past : List BackendEffect) (env : MessageEnvelope) : Prop :=
  env.messageType ≠ .hello ∧ ∃ fd, Arrived past fd env

theorem Vetted.append {env : MessageEnvelope} (h : Vetted past env) (effects : List BackendEffect) :
    Vetted (past ++ effects) env := by
  obtain ⟨hdata, fd, harrived⟩ := h
  exact ⟨hdata, fd, harrived.append effects⟩

/-- What an event queues was vetted, and without reordering it is the message it read. -/
theorem inboundEffects_bound {reordering : Bool} {fd : Int} {env : MessageEnvelope}
    {queued : Option MessageEnvelope} (hintro : Introduced past fd env.sourceId)
    (hqueued : ∀ m, queued = some m → Vetted (past ++ [.received fd env]) m ∧
      (reordering = false → m = env)) :
    QueuedBound reordering past (inboundEffects fd env queued) := by
  cases queued with
  | none =>
    refine .of_none fun fd' env' hmem => ?_
    simp [inboundEffects] at hmem
  | some out =>
    obtain ⟨⟨hdata, origin, harrived⟩, hsame⟩ := hqueued out rfl
    rintro before fd' env' after heq
    have hlast : before = [.received fd env, .forwarded fd env] ∧ fd = fd' ∧ out = env' := by
      rcases before with _ | ⟨x, _ | ⟨y, _ | ⟨z, rest⟩⟩⟩
      · simp [inboundEffects] at heq
      · simp [inboundEffects] at heq
      · simp only [inboundEffects, Option.toList_some, List.map_cons, List.map_nil, List.cons_append,
          List.nil_append, List.cons.injEq] at heq
        obtain ⟨rfl, rfl, heq, -⟩ := heq
        injection heq with hfd henv
        exact ⟨rfl, hfd, henv⟩
      · simp [inboundEffects] at heq
    obtain ⟨rfl, rfl, rfl⟩ := hlast
    refine ⟨hdata, ?_⟩
    cases reordering with
    | true =>
      have hlater := harrived.append [.forwarded fd env]
      rw [List.append_assoc] at hlater
      exact ⟨origin, hlater, by intro h; cases h⟩
    | false =>
      obtain rfl := hsame rfl
      exact ⟨fd, ⟨past, [.forwarded fd out], rfl, hintro⟩, fun _ => rfl⟩

theorem Step.bound (h : Step v event o v') (hfresh : v.Fresh event) (hsound : v.live.Sound)
    (hwindow : v.inbox.impairment.WindowHolds (Vetted past)) (hbound : Bound past v.live) :
    QueuedBound v.inbox.impairment.cfg.reorderEnabled past o.effects ∧
      Bound (past ++ o.effects) v'.live := by
  have hself (c : Client) (hc : c ∈ v.live) : ∃ c₀ ∈ v.live, c₀.fd = c.fd ∧ c₀.nodeId = c.nodeId :=
    ⟨c, hc, rfl, rfl⟩
  cases h with
  | declined | absent | malformed | popped | taken =>
    exact ⟨.of_none (by simp), hbound.append hself (by simp)⟩
  | refused => exact ⟨.of_none (by simp), hbound.append hself (by simp)⟩
  | @accepted fd os nowUs opened room =>
    refine ⟨.of_none (by simp), fun c hc hnode => ?_⟩
    rcases hc with rfl | hc
    · exact absurd rfl hnode
    · have hne : fd ≠ c.fd := fun heq => hfresh ⟨c, hc, heq.symm⟩
      exact (hbound c hc hnode).append (by simpa using hne.symm) (by simp)
  | @failed fd read connected broken =>
    refine ⟨.of_none (by simp), hbound.append (fun c hc => hself c hc.1) fun c hc => ?_⟩
    have hne : c.fd ≠ fd := hc.2
    simpa using hne
  | @rejected fd read env connected arrived hello taken =>
    refine ⟨.of_none (by simp), hbound.append (fun c hc => hself c hc.1) fun c hc => ?_⟩
    have hne : c.fd ≠ fd := hc.2
    simpa using hne
  | @registered fd read env q connected arrived hello first free push =>
    refine ⟨.of_none (by simp), fun c hc hnode => ?_⟩
    rcases hc with ⟨hc, -⟩ | ⟨c₀, -, rfl, rfl⟩
    · exact (hbound c hc hnode).append (by simp) (by simp)
    · exact ⟨past, env, [.registered c₀.fd env.sourceId], rfl, hello, rfl, by simp, by simp⟩
  | @forwarded fd read env site queued inbox connected arrived data speaks inbound =>
    have hintro := hbound.introduced speaks
    have hwindow' := hwindow.mono fun m hm => Vetted.append hm [.received fd env]
    have hvetted : Vetted (past ++ [.received fd env]) env := ⟨data, fd, past, [], rfl, hintro⟩
    obtain ⟨-, -, hqueued⟩ := Inbox.applyInboundImpairment_queued hwindow' hvetted inbound
    refine ⟨inboundEffects_bound hintro hqueued, hbound.append hself fun c hc => ?_⟩
    cases queued with
    | none => simp [inboundEffects]
    | some out => simp [inboundEffects]
  | @swept nowUs fds timedOut =>
    refine ⟨.of_none (by simp), hbound.append (fun c hc => hself c hc.1) fun c hc => ⟨by simp, ?_⟩⟩
    intro hmem
    obtain ⟨fd, hfd, heq⟩ := List.mem_map.mp hmem
    injection heq with heq
    obtain ⟨c', hc', htimed, hfd'⟩ := (timedOut fd).mp hfd
    rw [hsound.keyed c' hc' c hc.1 (hfd'.trans heq)] at htimed
    exact hc.2 htimed

theorem Slip.bound {reordering : Bool} (h : Slip v event o v') (hbound : Bound past v.live) :
    QueuedBound reordering past o.effects ∧ Bound (past ++ o.effects) v'.live := by
  cases h with
  | @marked fd read env c _ _ _ _ _ _ _ _ =>
    refine ⟨.of_none (by simp), hbound.append ?_ ?_⟩
    · rintro c' ⟨c₀, ⟨hc₀, -⟩, rfl⟩
      exact ⟨c₀, hc₀, rfl, rfl⟩
    · rintro c' ⟨c₀, ⟨-, hne⟩, rfl⟩
      simpa using hne

theorem Step.window (h : Step v event o v') (hbound : Bound past v.live)
    (hwindow : v.inbox.impairment.WindowHolds (Vetted past)) :
    v'.inbox.impairment.cfg = v.inbox.impairment.cfg ∧
      v'.inbox.impairment.WindowHolds (Vetted (past ++ o.effects)) := by
  cases h with
  | @forwarded fd read env site queued inbox connected arrived data speaks inbound =>
    have hwindow' := hwindow.mono fun m hm => Vetted.append hm (inboundEffects fd env queued)
    have hvetted : Vetted (past ++ inboundEffects fd env queued) env :=
      ⟨data, fd, past, _, rfl, hbound.introduced speaks⟩
    obtain ⟨hcfg, hkept, -⟩ := Inbox.applyInboundImpairment_queued hwindow' hvetted inbound
    exact ⟨hcfg, hkept⟩
  | accepted | declined | absent | failed | malformed | rejected | registered | refused | swept | popped
  | taken =>
    exact ⟨rfl, hwindow.mono fun m hm => hm.append _⟩

theorem Slip.inbox (h : Slip v event o v') : v'.inbox = v.inbox := by
  cases h with
  | marked => rfl

end Server

/-! ## Runs -/

/-- In every run of a `TcpBackend` server. -/
theorem TcpBackend.queuedBound (recvTimeoutMs : UInt32) (impairment : ImpairmentEngine)
    (hinit : impairment.Initialised) (events : List ServerEvent)
    (hfresh : Along exec FreshAccept events (init recvTimeoutMs impairment)) :
    EachStep exec (fun past _ _ o b =>
        QueuedBound impairment.cfg.reorderEnabled (effectsIn past) o.effects ∧ b.live.NodesDistinct)
      [] events (init recvTimeoutMs impairment) := by
  refine eachStep_of_inv (fun past b => b.WellFormed ∧ Server.Bound (effectsIn past) b.live ∧
    b.inbox.impairment.cfg = impairment.cfg ∧
    b.inbox.impairment.WindowHolds (Server.Vetted (effectsIn past))) ?_ events [] _
    ⟨.init _ _, ?_, rfl, .init hinit⟩ hfresh
  · rintro past b event o b' ⟨hwf, hbound, hcfg, hwindow⟩ hfresh hrun
    obtain ⟨hwf', hrefines⟩ := hwf.exec hfresh hrun
    rw [effectsIn_snoc]
    split at hrefines
    case isTrue =>
      obtain ⟨hqueued, hbound'⟩ := Server.Slip.bound hrefines hbound
      have hinbox : b'.inbox = b.inbox := Server.Slip.inbox hrefines
      refine ⟨⟨hqueued, hwf'.shaped.sound.nodesDistinct⟩, hwf', hbound', ?_⟩
      rw [hinbox]
      exact ⟨hcfg, hwindow.mono fun m hm => hm.append _⟩
    case isFalse =>
      obtain ⟨hqueued, hbound'⟩ := Server.Step.bound hrefines hfresh.server hwf.shaped.sound hwindow hbound
      obtain ⟨hcfg', hwindow'⟩ := Server.Step.window hrefines hbound hwindow
      rw [← hcfg]
      exact ⟨⟨hqueued, hwf'.shaped.sound.nodesDistinct⟩, hwf', hbound', hcfg', hwindow'⟩
  · rw [live_init]
    exact fun _ hc => hc.elim

/-- In every run of a `TlsTcpBackend` server. -/
theorem TlsTcpBackend.queuedBound (recvTimeoutMs : UInt32) (impairment : ImpairmentEngine)
    (hinit : impairment.Initialised) (events : List ServerEvent)
    (hfresh : Along exec FreshAccept events (init recvTimeoutMs impairment)) :
    EachStep exec (fun past _ _ o b =>
        QueuedBound impairment.cfg.reorderEnabled (effectsIn past) o.effects ∧ b.live.NodesDistinct)
      [] events (init recvTimeoutMs impairment) := by
  refine eachStep_of_inv (fun past b => b.WellFormed ∧ Server.Bound (effectsIn past) b.live ∧
    b.inbox.impairment.cfg = impairment.cfg ∧
    b.inbox.impairment.WindowHolds (Server.Vetted (effectsIn past))) ?_ events [] _
    ⟨.init _ _, ?_, rfl, .init hinit⟩ hfresh
  · rintro past b event o b' ⟨hwf, hbound, hcfg, hwindow⟩ hfresh hrun
    obtain ⟨hwf', hstep⟩ := hwf.exec hfresh.server hrun
    rw [effectsIn_snoc]
    obtain ⟨hqueued, hbound'⟩ := hstep.bound hfresh.server hwf.shaped.sound hwindow hbound
    obtain ⟨hcfg', hwindow'⟩ := hstep.window hbound hwindow
    rw [← hcfg]
    exact ⟨⟨hqueued, hwf'.shaped.sound.nodesDistinct⟩, hwf', hbound', hcfg', hwindow'⟩
  · rw [live_init]
    exact fun _ hc => hc.elim

/-- Every message a backend queues has a sender that introduced itself: for a server, in every run in
which the operating system gives out no descriptor twice; for a datagram backend, in every run. -/
theorem source_binding (recvTimeoutMs : UInt32) (isServer tlsEnabled : Bool) (peerAddress : Source)
    (localNodeId : NodeId) (fd : Int) (impairment : ImpairmentEngine) (hinit : impairment.Initialised) :
    (∀ events, Along TcpBackend.exec TcpBackend.FreshAccept events (.init recvTimeoutMs impairment) →
      EachStep TcpBackend.exec (fun past _ _ o b =>
          QueuedBound impairment.cfg.reorderEnabled (effectsIn past) o.effects ∧ b.live.NodesDistinct)
        [] events (.init recvTimeoutMs impairment)) ∧
    (∀ events, Along TlsTcpBackend.exec TlsTcpBackend.FreshAccept events (.init recvTimeoutMs impairment) →
      EachStep TlsTcpBackend.exec (fun past _ _ o b =>
          QueuedBound impairment.cfg.reorderEnabled (effectsIn past) o.effects ∧ b.live.NodesDistinct)
        [] events (.init recvTimeoutMs impairment)) ∧
    (∀ events, (∀ event ∈ events, Datagrams.Fresh event) →
      EachStep UdpBackend.exec (fun past b _ effects _ => Datagrams.QueuedFromPeer
          (UdpBackend.start peerAddress fd impairment).FromPeer b.inbox.impairment.cfg.reorderEnabled
          past.flatten effects)
        [] events (.start peerAddress fd impairment)) ∧
    ∀ events, (∀ event ∈ events, Datagrams.Fresh event) →
      EachStep DtlsUdpBackend.exec (fun past b _ effects _ => Datagrams.QueuedFromPeer
          (DtlsUdpBackend.start isServer tlsEnabled peerAddress localNodeId fd impairment).FromPeer
          b.inbox.impairment.cfg.reorderEnabled past.flatten effects)
        [] events (.start isServer tlsEnabled peerAddress localNodeId fd impairment) :=
  ⟨TcpBackend.queuedBound recvTimeoutMs impairment hinit,
    TlsTcpBackend.queuedBound recvTimeoutMs impairment hinit,
    UdpBackend.queuedFromPeer peerAddress fd impairment hinit,
    DtlsUdpBackend.queuedFromPeer isServer tlsEnabled peerAddress localNodeId fd impairment hinit⟩

/-- A client says `HELLO` and sends a message. -/
def talkingRun : List ServerEvent :=
  [.accept 10 (fun _ => .timeout) 1, .receive 10 (.of (bareMessage .hello 1) 2),
    .receive 10 (.of (bareMessage .data 1) 3)]

/-- So does the peer of a datagram backend. -/
def talkingPeer (src : Source) : List DatagramEvent :=
  let arrival (read : Read) : DatagramEvent := .arrival ⟨read.frame.map (src, ·), read.nowUs⟩
  [arrival (.of (bareMessage .hello 1) 2), arrival (.of (bareMessage .data 1) 3)]

/-- The address of the peer below. -/
def loopback : Source := ⟨[49, 50, 55, 46, 48, 46, 48, 46, 49], 4000⟩

theorem source_binding_talking :
    (EachStep TcpBackend.exec (fun past _ _ o b => QueuedBound false (effectsIn past) o.effects ∧
        b.live.NodesDistinct) [] talkingRun (.init 1000 .calm) ∧
      Yields TcpBackend.exec talkingRun (.init 1000 .calm) fun os _ => (effectsIn os).length = 6) ∧
    (EachStep TlsTcpBackend.exec (fun past _ _ o b => QueuedBound false (effectsIn past) o.effects ∧
        b.live.NodesDistinct) [] talkingRun (.init 1000 .calm) ∧
      Yields TlsTcpBackend.exec talkingRun (.init 1000 .calm) fun os _ => (effectsIn os).length = 6) ∧
    (EachStep UdpBackend.exec (fun past b _ effects _ => Datagrams.QueuedFromPeer
        (UdpBackend.start loopback 3 .calm).FromPeer b.inbox.impairment.cfg.reorderEnabled
        past.flatten effects) [] (talkingPeer loopback) (.start loopback 3 .calm) ∧
      Yields UdpBackend.exec (talkingPeer loopback) (.start loopback 3 .calm) fun os _ =>
        os.flatten.length = 3) ∧
    (EachStep DtlsUdpBackend.exec (fun past b _ effects _ => Datagrams.QueuedFromPeer
        (DtlsUdpBackend.start true false loopback 9 3 .calm).FromPeer
        b.inbox.impairment.cfg.reorderEnabled past.flatten effects)
        [] (talkingPeer loopback) (.start true false loopback 9 3 .calm) ∧
      Yields DtlsUdpBackend.exec (talkingPeer loopback) (.start true false loopback 9 3 .calm) fun os _ =>
        os.flatten.length = 4) := by
  have hpeer : ∀ event ∈ talkingPeer loopback, Datagrams.Fresh event := by
    simp [talkingPeer, Datagrams.Fresh]
  obtain ⟨htcp, htls, hudp, hdtls⟩ :=
    source_binding 1000 true false loopback 9 3 .calm ImpairmentEngine.calm_initialised
  exact ⟨⟨htcp talkingRun (by decide +kernel), by decide +kernel⟩,
    ⟨htls talkingRun (by decide +kernel), by decide +kernel⟩,
    ⟨hudp (talkingPeer loopback) hpeer, by decide +kernel⟩,
    ⟨hdtls (talkingPeer loopback) hpeer, by decide +kernel⟩⟩

end MessageEngine
