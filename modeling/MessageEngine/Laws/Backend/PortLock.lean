import MessageEngine.Laws.Backend.Binding

/-!
# The port of the peer

Without DTLS a server learns the port of its peer from the first `HELLO` that comes from the configured
address. `firstHello` says which datagram that is, from the events alone: what else arrives before it
makes no difference. Port `0` stands for no port, and a `HELLO` from there greets without locking.

## What is proved

- `exec_locked`: one event, when the `HELLO` that greets is not from port `0`;
- `port_locked`: in every run the port is that of the first `HELLO`, and what is queued came from the
  configured address and from that port;
- `port_open`: after a `HELLO` from port `0` a message from another port is queued.
-/

namespace MessageEngine

open Outcome Run

namespace Datagrams

/-- The datagram carries the message. -/
def Carries (event : DatagramEvent) (src : Source) (env : MessageEnvelope) : Prop :=
  ∃ a frame, event = .arrival a ∧ a.datagram = some (src, frame) ∧ frame.message? = some env

/-- The source of the datagram, if it is a `HELLO` from the address. -/
def greeting (ip : List UInt8) (a : Attempt) : Option Source :=
  match a.datagram with
  | some (src, frame) =>
    match frame.message? with
    | some env => if src.ip = ip ∧ env.messageType = .hello then some src else none
    | none => none
  | none => none

/-- The source of the first `HELLO` from the address in the session, after one more event. -/
def heard (ip : List UInt8) (known : Option Source) : DatagramEvent → Option Source
  | .arrival a => known <|> greeting ip a
  | .popMessage => known
  | .reopen _ _ => none

/-- The source of the first `HELLO` from the address, in the session that is on after the events. -/
def firstHello (ip : List UInt8) (events : List DatagramEvent) : Option Source := events.foldl (heard ip) none

/-- No session is greeted from port `0`. -/
def GreetedFromPort (ip : List UInt8) (events : List DatagramEvent) : Prop :=
  ∀ past, past <+: events → ∀ src, firstHello ip past = some src → src.port ≠ 0

/-- The message came from the address and from the port of the first `HELLO`. -/
def SentFromPort (ip : List UInt8) (past : List DatagramEvent) (env : MessageEnvelope) : Prop :=
  ∃ hello, firstHello ip past = some hello ∧ ∃ event ∈ past, Carries event ⟨ip, hello.port⟩ env

variable {ip : List UInt8} {past : List DatagramEvent} {event : DatagramEvent} {a : Attempt} {src : Source}
  {env : MessageEnvelope} {frame : Frame}

theorem firstHello_snoc : firstHello ip (past ++ [event]) = heard ip (firstHello ip past) event := by
  rw [firstHello, List.foldl_append]
  rfl

theorem greeting_of_message (hdatagram : a.datagram = some (src, frame)) (henv : frame.message? = some env) :
    greeting ip a = if src.ip = ip ∧ env.messageType = .hello then some src else none := by
  simp only [greeting, hdatagram, henv]

theorem greeting_ip {hello : Source} (h : greeting ip a = some hello) :
    ∃ frame, a.datagram = some (hello, frame) ∧ hello.ip = ip := by
  unfold greeting at h
  split at h
  case h_2 => cases h
  case h_1 src frame hdatagram =>
    split at h
    case h_2 => cases h
    case h_1 env _ =>
      split at h
      case isFalse => cases h
      case isTrue hhello =>
        cases h
        exact ⟨frame, hdatagram, hhello.1⟩

/-- Only `close` and `init` end a session. -/
theorem firstHello_arrival_some {hello : Source} (h : firstHello ip past = some hello) :
    firstHello ip (past ++ [.arrival a]) = some hello := by
  rw [firstHello_snoc, h]
  rfl

theorem SentFromPort.arrival (h : SentFromPort ip past env) : SentFromPort ip (past ++ [.arrival a]) env := by
  obtain ⟨hello, hfirst, event, hmem, hcarries⟩ := h
  exact ⟨hello, firstHello_arrival_some hfirst, event, List.mem_append_left _ hmem, hcarries⟩

end Datagrams

namespace DtlsUdpBackend

open Datagrams

variable {b b' : DtlsUdpBackend} {ip : List UInt8} {past : List DatagramEvent} {event : DatagramEvent}
  {effects : List DatagramEffect} {a : Attempt} {src : Source} {env : MessageEnvelope}

/-- A server without DTLS knows the port of the first `HELLO`, and nothing else in the reorder window. -/
structure Locked (ip : List UInt8) (past : List DatagramEvent) (b : DtlsUdpBackend) : Prop where
  server : b.isServer = true
  plain : b.tlsEnabled = false
  address : b.peerAddress.ip = ip
  greeted : b.peer.helloReceived = (firstHello ip past).isSome
  port : b.peerSrcPort = (firstHello ip past).elim 0 Source.port
  nonzero : ∀ src, firstHello ip past = some src → src.port ≠ 0
  window : b.inbox.impairment.WindowHolds (SentFromPort ip past)

/-- What is queued came from the address and the port of the first `HELLO`. -/
def QueuedFromPort (ip : List UInt8) (past : List DatagramEvent) (event : DatagramEvent)
    (effects : List DatagramEffect) : Prop :=
  ∀ src env, .queued src env ∈ effects → ∃ hello, firstHello ip past = some hello ∧
    src = ⟨ip, hello.port⟩ ∧ ∃ u ∈ past ++ [event], Carries u ⟨ip, hello.port⟩ env

theorem QueuedFromPort.of_none (h : ∀ src env, .queued src env ∉ effects) :
    QueuedFromPort ip past event effects :=
  fun src env hmem => absurd hmem (h src env)

/-! ## The two phases -/

/-- Until a port is locked a server takes every port and notes it; then it takes that one only. -/
theorem validateSource_server {valid : Bool} (h : Locked ip past b) (hrun : b.validateSource src = .ok (valid, b')) :
    ((∃ port, b' = { b with pendingSrcPort := port }) ∧ valid = false ∧
        (firstHello ip past = none → src.ip ≠ ip)) ∨
      (valid = true ∧ src.ip = ip ∧
        ((firstHello ip past = none ∧ b' = { b with pendingSrcPort := src.port }) ∨
          ∃ hello, firstHello ip past = some hello ∧ src.port = hello.port ∧ b' = b)) := by
  obtain ⟨-, hrun⟩ := ensure_bind_eq_ok.mp hrun
  have hplain : ¬ b.tlsEnabled = true := by simp [h.plain]
  rw [if_neg hplain] at hrun
  have hport := h.port
  cases hfirst : firstHello ip past with
  | none =>
    rw [hfirst, Option.elim_none] at hport
    simp only [if_pos h.server, if_pos hport, Bool.and_true, h.address] at hrun
    cases hrun
    by_cases hip : src.ip = ip
    · exact .inr ⟨beq_iff_eq.mpr hip, hip, .inl ⟨rfl, rfl⟩⟩
    · exact .inl ⟨⟨_, rfl⟩, beq_eq_false_iff_ne.mpr hip, fun _ => hip⟩
  | some hello =>
    rw [hfirst, Option.elim_some] at hport
    have hlocked : b.peerSrcPort ≠ 0 := hport ▸ h.nonzero hello hfirst
    simp only [if_pos h.server, if_neg hlocked, h.address] at hrun
    cases hrun
    by_cases hboth : src.ip = ip ∧ src.port = hello.port
    · refine .inr ⟨?_, hboth.1, .inr ⟨hello, rfl, hboth.2, rfl⟩⟩
      simp only [Bool.and_eq_true, beq_iff_eq]
      exact ⟨hboth.1, hboth.2.trans hport.symm⟩
    · refine .inl ⟨⟨b.pendingSrcPort, rfl⟩, ?_, nofun⟩
      rw [Bool.and_eq_false_iff, beq_eq_false_iff_ne, beq_eq_false_iff_ne, hport]
      exact not_and_or.mp hboth

/-- The `HELLO` locks the port it came from. -/
theorem commitPendingSrcPort_server (hrun : b.commitPendingSrcPort = .ok b') (hserver : b.isServer = true)
    (hpending : b.pendingSrcPort ≠ 0) :
    b' = { b with peerSrcPort := b.pendingSrcPort, pendingSrcPort := 0 } := by
  obtain ⟨-, hrun⟩ := ensure_bind_eq_ok.mp hrun
  rw [if_pos ⟨hserver, hpending⟩] at hrun
  obtain ⟨-, hrun⟩ := ensure_bind_eq_ok.mp hrun
  cases hrun
  rfl

/-- A datagram that is not the first `HELLO` leaves the lock as it is. -/
theorem Locked.arrival (h : Locked ip past b) (hnone : firstHello ip past = none → greeting ip a = none)
    {port : UInt16} {trace : List DatagramEffect} :
    Locked ip (past ++ [.arrival a]) { b with pendingSrcPort := port, trace := trace } := by
  have hsame : firstHello ip (past ++ [.arrival a]) = firstHello ip past := by
    cases hfirst : firstHello ip past with
    | none =>
      rw [firstHello_snoc, hfirst]
      exact hnone hfirst
    | some hello => exact firstHello_arrival_some hfirst
  refine ⟨h.server, h.plain, h.address, ?_, ?_, ?_, h.window.mono fun _ hm => hm.arrival⟩
  · rw [hsame]
    exact h.greeted
  · rw [hsame]
    exact h.port
  · rw [hsame]
    exact h.nonzero

/-- A message from an accepted source. -/
theorem deserializeAndDispatch_locked {frame : Frame} {res : Bool} (h : Locked ip past b) (hempty : b.trace = [])
    (hdatagram : a.datagram = some (src, frame)) (hip : src.ip = ip)
    (hfrom : (firstHello ip past = none ∧ b.pendingSrcPort = src.port) ∨
      ∃ hello, firstHello ip past = some hello ∧ src.port = hello.port)
    (hport : ∀ src, firstHello ip (past ++ [.arrival a]) = some src → src.port ≠ 0)
    (hrun : b.deserializeAndDispatch src frame a.nowUs = .ok (res, b')) :
    Locked ip (past ++ [.arrival a]) b' ∧ QueuedFromPort ip past (.arrival a) b'.trace := by
  obtain ⟨-, hrun⟩ := ensure_bind_eq_ok.mp hrun
  obtain ⟨-, hrun⟩ := ensure_bind_eq_ok.mp hrun
  obtain ⟨reply, hreply, hrun⟩ := bind_eq_ok.mp hrun
  cases reply with
  | error _ =>
    cases hrun
    have hsilent : greeting ip a = none := by
      simp only [greeting, hdatagram, Frame.message?, hreply]
    exact ⟨h.arrival fun _ => hsilent, .of_none (by simp [hempty])⟩
  | ok env =>
    have henv : frame.message? = some env := Frame.message?_eq_some.mpr hreply
    have hgreeting : greeting ip a = _ := greeting_of_message hdatagram henv
    obtain ⟨⟨⟨valid, consumed⟩, b₁⟩, hverdict, hrun⟩ := bind_eq_ok.mp hrun
    simp only [note, hempty, List.nil_append] at hverdict
    have hgreeted := h.greeted
    rcases processHelloOrValidate_cases hverdict with
      ⟨hv, hagain, rfl⟩ | ⟨hv, hhello, hfirst, b₂, answer, hcommit, hanswer, rfl⟩ | ⟨hv, hdata, hpeer, hspeaks, rfl⟩
    · cases hv
      cases hrun
      refine ⟨h.arrival fun hnone => hgreeting.trans (if_neg fun hhello => ?_), .of_none (by simp)⟩
      rw [hnone, hagain hhello.2] at hgreeted
      cases hgreeted
    · have hunknown : firstHello ip past = none := by
        rw [hfirst] at hgreeted
        exact Option.not_isSome_iff_eq_none.mp (by simp [← hgreeted])
      have hknown : firstHello ip (past ++ [.arrival a]) = some src := by
        rw [firstHello_snoc, hunknown]
        exact hgreeting.trans (if_pos ⟨hip, hhello⟩)
      have hpending : b.pendingSrcPort = src.port := by
        rcases hfrom with ⟨-, hpending⟩ | ⟨hello, hsome, -⟩
        · exact hpending
        · rw [hunknown] at hsome
          cases hsome
      have hnonzero : b.pendingSrcPort ≠ 0 := hpending ▸ hport src hknown
      obtain rfl := commitPendingSrcPort_server hcommit h.server hnonzero
      cases hv
      cases hrun
      refine ⟨⟨h.server, h.plain, h.address, ?_, ?_, hport, h.window.mono fun _ hm => hm.arrival⟩,
        .of_none fun src' env' hmem => ?_⟩
      · rw [hknown]
        rfl
      · rw [hknown]
        exact hpending
      · rcases List.mem_cons.mp hmem with hmem | hmem
        · cases hmem
        · cases hanswer _ hmem
    · cases hv
      simp only [Bool.not_true, Bool.false_eq_true, if_false] at hrun
      obtain ⟨queued, inbox, hinbound, rfl⟩ := applyInboundImpairment_queued hrun
      obtain ⟨hello, hknown⟩ := Option.isSome_iff_exists.mp (hgreeted.symm.trans hpeer)
      have hsame : src = ⟨ip, hello.port⟩ := by
        rcases hfrom with ⟨hnone, -⟩ | ⟨hello', hsome, hsrc⟩
        · rw [hknown] at hnone
          cases hnone
        · rw [hknown] at hsome
          cases hsome
          exact congr (congrArg Source.mk hip) hsrc
      have hsent : SentFromPort ip (past ++ [.arrival a]) env :=
        ⟨hello, firstHello_arrival_some hknown, .arrival a, List.mem_append_right _ List.mem_cons_self,
          a, frame, rfl, hsame ▸ hdatagram, henv⟩
      have hwindow := h.window.mono fun _ hm => hm.arrival (a := a)
      obtain ⟨-, hkept, hqueued⟩ := Inbox.receiveInbound_queued hwindow hsent hinbound
      have hlock : Locked ip (past ++ [.arrival a])
          { b with pendingSrcPort := b.pendingSrcPort, trace := b.trace } :=
        h.arrival fun hnone => absurd (hknown.symm.trans hnone) (Option.some_ne_none hello)
      refine ⟨⟨h.server, h.plain, h.address, hlock.greeted, hlock.port, hport, hkept⟩, fun src' env' hmem => ?_⟩
      cases queued with
      | none => simp at hmem
      | some out =>
        obtain ⟨⟨hello', hfirst, u, hu, hcarries⟩, -⟩ := hqueued out rfl
        rw [firstHello_arrival_some hknown] at hfirst
        cases hfirst
        simp only [Option.toList_some, List.map_cons, List.map_nil, List.mem_append, List.mem_cons,
          List.not_mem_nil, or_false, reduceCtorEq, false_or, DatagramEffect.queued.injEq] at hmem
        obtain ⟨rfl, rfl⟩ := hmem
        exact ⟨hello, hknown, hsame, u, hu, hcarries⟩

/-- One event, when no session is greeted from port `0`. -/
theorem exec_locked (h : Locked ip past b) (hfresh : Fresh event)
    (hport : ∀ src, firstHello ip (past ++ [event]) = some src → src.port ≠ 0)
    (hrun : b.exec event = .ok (effects, b')) :
    Locked ip (past ++ [event]) b' ∧ QueuedFromPort ip past event effects := by
  cases event with
  | reopen fd impairment =>
    cases hrun
    have hsession : firstHello ip (past ++ [.reopen fd impairment]) = none := by
      rw [firstHello_snoc]
      rfl
    refine ⟨⟨h.server, h.plain, h.address, ?_, ?_, hport, .init hfresh⟩, .of_none (by simp [init, close])⟩
    · rw [hsession]
      rfl
    · rw [hsession]
      rfl
  | popMessage =>
    obtain ⟨⟨reply, recvQueue⟩, hpop, hend⟩ := bind_eq_ok.mp hrun
    cases hend
    have hsession : firstHello ip (past ++ [.popMessage]) = firstHello ip past := firstHello_snoc
    refine ⟨⟨h.server, h.plain, h.address, ?_, ?_, hport, h.window.mono ?_⟩, .of_none (by simp)⟩
    · rw [hsession]
      exact h.greeted
    · rw [hsession]
      exact h.port
    · rintro m ⟨hello, hfirst, u, hu, hcarries⟩
      exact ⟨hello, hsession.trans hfirst, u, List.mem_append_left _ hu, hcarries⟩
  | arrival a =>
    obtain ⟨⟨res, b₁⟩, hrecv, hend⟩ := bind_eq_ok.mp hrun
    cases hend
    obtain ⟨-, hrecv⟩ := ensure_bind_eq_ok.mp hrecv
    obtain ⟨-, hrecv⟩ := ensure_bind_eq_ok.mp hrecv
    cases hdatagram : a.datagram with
    | none =>
      simp only [hdatagram] at hrecv
      cases hrecv
      have hsilent : greeting ip a = none := by simp only [greeting, hdatagram]
      exact ⟨h.arrival fun _ => hsilent, .of_none (by simp)⟩
    | some datagram =>
      obtain ⟨src, frame⟩ := datagram
      simp only [hdatagram] at hrecv
      have hplain : ¬ b.tlsEnabled = true := by simp [h.plain]
      rw [if_neg hplain] at hrecv
      obtain ⟨⟨valid, b₂⟩, hvalid, hrecv⟩ := bind_eq_ok.mp hrecv
      have hempty : Locked ip past { b with trace := [] } :=
        ⟨h.server, h.plain, h.address, h.greeted, h.port, h.nonzero, h.window⟩
      rcases validateSource_server hempty hvalid with
        ⟨⟨port, rfl⟩, rfl, hstrange⟩ | ⟨rfl, hip, ⟨hunknown, rfl⟩ | ⟨hello, hknown, hsrc, rfl⟩⟩
      · cases hrecv
        refine ⟨h.arrival fun hnone => ?_, .of_none (by simp)⟩
        cases hgreeting : greeting ip a with
        | none => rfl
        | some hello =>
          obtain ⟨frame', hsame, hip⟩ := greeting_ip hgreeting
          rw [hdatagram] at hsame
          cases hsame
          exact absurd hip (hstrange hnone)
      · have hlocked : Locked ip past { b with trace := [], pendingSrcPort := src.port } :=
          ⟨h.server, h.plain, h.address, h.greeted, h.port, h.nonzero, h.window⟩
        exact deserializeAndDispatch_locked hlocked rfl hdatagram hip (.inl ⟨hunknown, rfl⟩) hport hrecv
      · exact deserializeAndDispatch_locked hempty rfl hdatagram hip (.inr ⟨hello, hknown, hsrc⟩) hport hrecv

/-! ## Runs -/

/-- After the step the port is that of the first `HELLO`, and what it queued came from there. -/
def KeepsPort (ip : List UInt8) (past : List (Taken DtlsUdpBackend DatagramEvent (List DatagramEffect)))
    (t : Taken DtlsUdpBackend DatagramEvent (List DatagramEffect)) : Prop :=
  t.after.peerSrcPort = (firstHello ip ((past ++ [t]).map Taken.input)).elim 0 Source.port ∧
    QueuedFromPort ip (past.map Taken.input) t.input t.output

/-- In every run of a server without DTLS whose sessions are not greeted from port `0`. -/
theorem port_locked (peerAddress : Source) (localNodeId : NodeId) (fd : Int) (impairment : ImpairmentEngine)
    (hinit : impairment.Initialised) (events : List DatagramEvent) (hfresh : ∀ event ∈ events, Fresh event)
    (hport : GreetedFromPort peerAddress.ip events) :
    Lawful (KeepsPort peerAddress.ip)
      (history exec events (start true false peerAddress localNodeId fd impairment)) := by
  have hinputs := @history_inputs _ _ _ _ exec events (start true false peerAddress localNodeId fd impairment)
  have hinv := @history_inv _ _ _ _ exec
    (fun past b => past.map Taken.input <+: events →
      Locked peerAddress.ip (past.map Taken.input) b ∧ Lawful (KeepsPort peerAddress.ip) past)
    ?_ events [] (start true false peerAddress localNodeId fd impairment) fun _ => ?_
  · obtain ⟨_, hall⟩ := hinv
    exact (hall hinputs).2
  · intro past b event effects b' ih hrun hprefix
    have hevent : event ∈ events := by
      apply hprefix.subset
      simp
    rw [List.map_append] at hprefix ⊢
    obtain ⟨hlocked, hlaw⟩ := ih ((List.prefix_append _ _).trans hprefix)
    obtain ⟨hlocked', hqueued⟩ := exec_locked hlocked (hfresh event hevent) (hport _ hprefix) hrun
    refine ⟨hlocked', hlaw.snoc ⟨?_, hqueued⟩⟩
    rw [List.map_append]
    exact hlocked'.port
  · exact ⟨⟨rfl, rfl, rfl, rfl, rfl, nofun, .init hinit⟩, .nil⟩

theorem port_locked_talking :
    Lawful (KeepsPort loopback.ip) (history exec (talkingPeer loopback) (start true false loopback 9 3 .calm)) := by
  refine port_locked loopback 9 3 .calm ImpairmentEngine.calm_initialised (talkingPeer loopback) ?_ ?_
  · simp [talkingPeer, Fresh]
  · have hports : ((talkingPeer loopback).inits.all fun past =>
        (firstHello loopback.ip past).all (·.port != 0)) = true := by decide +kernel
    intro past hpast hello hfirst
    have hone := List.all_eq_true.mp hports past ((List.mem_inits _ _).mpr hpast)
    rw [hfirst] at hone
    simpa using hone

/-- The peer says `HELLO` from port `0`, and a stranger on the same host sends a message as the peer. -/
def strangerRun : List DatagramEvent :=
  (talkingPeer ⟨loopback.ip, 0⟩).take 1 ++ (talkingPeer ⟨loopback.ip, 5000⟩).drop 1

/-- A message from port 5000 was queued. -/
def queuesFrom5000 : DatagramEffect → Bool
  | .queued src _ => src.port == 5000
  | _ => false

/-- The message of the stranger is queued. -/
theorem port_open :
    ¬ Lawful (KeepsPort loopback.ip) (history exec strangerRun (start true false loopback 9 3 .calm)) := by
  intro hlaw
  have hyields : Yields exec strangerRun (start true false loopback 9 3 .calm) fun os _ =>
      os.any (·.any queuesFrom5000) = true := by decide +kernel
  have hports : (strangerRun.inits.all fun past =>
      (firstHello loopback.ip past).all (·.port == 0)) = true := by decide +kernel
  obtain ⟨os, b', hrun, hany⟩ := hyields.exists
  obtain ⟨effects, heffects, hqueues⟩ := List.any_eq_true.mp hany
  obtain ⟨x, hx, hfrom⟩ := List.any_eq_true.mp hqueues
  rw [← history_outputs hrun] at heffects
  obtain ⟨t, ht, rfl⟩ := List.mem_map.mp heffects
  obtain ⟨past, rest, hsplit⟩ := List.append_of_mem ht
  cases x with
  | queued src env =>
    obtain ⟨hello, hfirst, hsrc, -⟩ := (hlaw past t rest hsplit).2 src env hx
    have hprefix : past.map Taken.input <+: strangerRun := by
      have hinputs := @history_inputs _ _ _ _ exec strangerRun (start true false loopback 9 3 .calm)
      rw [hsplit, List.map_append] at hinputs
      exact (List.prefix_append _ _).trans hinputs
    have hzero := List.all_eq_true.mp hports _ ((List.mem_inits _ _).mpr hprefix)
    rw [hfirst, Option.all_some, beq_iff_eq] at hzero
    rw [hsrc, hzero] at hfrom
    cases hfrom
  | opened | received | helloSent => cases hfrom

end DtlsUdpBackend

end MessageEngine
