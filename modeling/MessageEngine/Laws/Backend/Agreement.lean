import MessageEngine.Laws.TcpBackend.Invariant
import MessageEngine.Laws.TlsTcpBackend
import MessageEngine.Lib.Lockstep

/-!
# The two TCP servers agree

A `TcpBackend` and a `TlsTcpBackend` on the same events look alike as servers as long as the first
does not mark a client as greeted that was not. Both take the steps of one `Server`, and a step
follows from what the server looks like.

## What is proved

- `servers_agree`: the same connections, the same nodes and the same messages sent on, after every
  run that marks nobody else;
- `newcomer_evicted_once`: a client that was marked is evicted by one server for its first `HELLO`
  and registered by the other.
-/

namespace MessageEngine

open Outcome Run

/-- The live connections, each with its node. -/
def Registry.connections (live : Registry) : Set (Int × NodeId) := {p | ∃ c ∈ live, (c.fd, c.nodeId) = p}

/-- The messages a run has sent on to inbound processing. -/
def forwardedIn (os : List ServerObservation) : List (Int × MessageEnvelope) :=
  os.flatMap fun o => Server.forwardedBy o.effects

/-- Two servers that look alike. -/
structure Alike (b : TcpBackend) (t : TlsTcpBackend) : Prop where
  server : b.server = t.server
  tcp : b.WellFormed
  tls : t.WellFormed

theorem Alike.exec {b : TcpBackend} {t : TlsTcpBackend} {event : ServerEvent} (h : Alike b t)
    (hfresh : b.FreshAccept event) (hquiet : b.marksAnother event = false) :
    Lockstep (fun o o' => Server.forwardedBy o.effects = Server.forwardedBy o'.effects) Alike
      (TcpBackend.exec event b) (TlsTcpBackend.exec event t) := by
  have hfresh' : t.server.Fresh event := h.server ▸ hfresh.server
  rcases TcpBackend.exec_spec h.tcp.shaped h.tcp.queue event hfresh.server with
    ⟨o, b', hrun, hshaped, hqueue, hstep⟩ | ⟨⟨f, hrun⟩, hstuck⟩
  · rw [hquiet, h.server] at hstep
    rcases TlsTcpBackend.exec_spec h.tls.shaped h.tls.greets event hfresh' with
      ⟨o', t', hrun', hshaped', hstep'⟩ | ⟨-, hstuck'⟩
    · obtain ⟨hserver, -, hforwarded, -⟩ := Server.Step.deterministic hstep hstep'
      rw [hrun, hrun']
      exact .ok hforwarded ⟨hserver, ⟨hshaped, hqueue⟩, ⟨hshaped', hstep'.greets h.tls.greets⟩⟩
    · exact absurd hstuck' (Server.Step.not_stuck hstep)
  · rcases TlsTcpBackend.exec_spec h.tls.shaped h.tls.greets event hfresh' with
      ⟨o', t', hrun', -, hstep'⟩ | ⟨⟨f', hrun'⟩, -⟩
    · exact absurd (h.server ▸ hstuck) (Server.Step.not_stuck hstep')
    · rw [hrun, hrun']
      exact .error

/-- After every run in which no event marks another client, both servers have stopped, or they have
the same connections with the same nodes and have sent on the same messages. -/
theorem servers_agree (recvTimeoutMs : UInt32) (impairment : ImpairmentEngine) (events : List ServerEvent)
    (hfresh : Along TcpBackend.exec TcpBackend.FreshAccept events (.init recvTimeoutMs impairment))
    (hquiet : Along TcpBackend.exec (fun b event => b.marksAnother event = false) events
      (.init recvTimeoutMs impairment)) :
    Lockstep (fun os os' => forwardedIn os = forwardedIn os')
      (fun b t => b.live.connections = t.live.connections)
      (runAll TcpBackend.exec events (.init recvTimeoutMs impairment))
      (runAll TlsTcpBackend.exec events (.init recvTimeoutMs impairment)) := by
  have hboth := hfresh.and hquiet
  have hstart : Alike (.init recvTimeoutMs impairment) (.init recvTimeoutMs impairment) := by
    refine ⟨?_, .init recvTimeoutMs impairment, .init recvTimeoutMs impairment⟩
    unfold TcpBackend.server TlsTcpBackend.server
    rw [TcpBackend.live_init, TlsTcpBackend.live_init]
    rfl
  refine (lockstep_runAll (fun b t event h hc => h.exec hc.1 hc.2) events _ _ hstart hboth).mono ?_ ?_
  · intro os os' houts
    unfold forwardedIn
    induction houts with
    | nil => rfl
    | cons hhead _ ih => rw [List.flatMap_cons, List.flatMap_cons, hhead, ih]
  · intro b t h
    have hlive : b.live = t.live := congrArg Server.live h.server
    rw [hlive]

/-- A registered client and one that claims its node. -/
theorem servers_agree_orderly :
    Lockstep (fun os os' => forwardedIn os = forwardedIn os')
      (fun b t => b.live.connections = t.live.connections)
      (runAll TcpBackend.exec TcpBackend.orderlyRun (.init 1000 .calm))
      (runAll TlsTcpBackend.exec TcpBackend.orderlyRun (.init 1000 .calm)) :=
  servers_agree 1000 .calm TcpBackend.orderlyRun (by decide +kernel) (by decide +kernel)

/-- The client that was marked says its first `HELLO`. -/
def newcomerRun : List ServerEvent :=
  TcpBackend.impostorRun ++ [.receive 12 (.of (bareMessage .hello 2) 6)]

/-- One server evicts it, the other registers it. -/
theorem newcomer_evicted_once :
    Along TcpBackend.exec TcpBackend.FreshAccept newcomerRun (.init 1000 .calm) ∧
      ∃ os b os' t, runAll TcpBackend.exec newcomerRun (.init 1000 .calm) = .ok (os, b) ∧
        runAll TlsTcpBackend.exec newcomerRun (.init 1000 .calm) = .ok (os', t) ∧
        b.live.connections ≠ t.live.connections := by
  refine ⟨by decide +kernel, ?_⟩
  have htcp : Ends TcpBackend.exec newcomerRun (.init 1000 .calm) fun b => b.slotOf? 12 = none := by
    decide +kernel
  have htls : Ends TlsTcpBackend.exec newcomerRun (.init 1000 .calm) fun t =>
      t.clientSlotActive[2] = true ∧ t.clientNet[2] = 12 := by
    decide +kernel
  obtain ⟨os, b, hrun, hgone⟩ := htcp.exists
  obtain ⟨os', t, hrun', hactive, hfd⟩ := htls.exists
  refine ⟨os, b, os', t, hrun, hrun', fun heq => ?_⟩
  have hmem : ((12 : Int), t.clientNodeIds[2]) ∈ t.live.connections := ⟨t.row 2, ⟨2, hactive, rfl⟩, by
    rw [← hfd]
    rfl⟩
  rw [← heq] at hmem
  obtain ⟨c, hc, hpair⟩ := hmem
  exact TcpBackend.slotOf?_none hgone c hc (congrArg Prod.fst hpair)

end MessageEngine
