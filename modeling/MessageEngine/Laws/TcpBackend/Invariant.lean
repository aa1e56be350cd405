import MessageEngine.Laws.TcpBackend.Step
import MessageEngine.Lib.Run

/-!
# The client table over runs

The table of a server as the program reads it: open descriptors told apart, registered nodes told
apart, a flag for exactly the registered clients, nothing behind the last client. Every event keeps
this except one: a client that claims another's node while the client behind it has not said `HELLO`.

## What is proved

- `tableInv_along`: in a run the table is in order after every event exactly when no event marks
  another client;
- `next_client_marked`: three clients are enough.
-/

namespace MessageEngine

open Outcome Table Run

namespace TcpBackend

variable {b b' : TcpBackend} {event : ServerEvent} {o : ServerObservation}

/-- The table is in order. -/
structure TableInv (b : TcpBackend) : Prop where
  count : b.clientCount ≤ maxTcpConnections
  opened : ∀ i : Fin maxTcpConnections, i.val < b.clientCount → b.clientFds[i] ≥ 0
  fds : ∀ i j : Fin maxTcpConnections, i.val < b.clientCount → j.val < b.clientCount →
    b.clientFds[i] = b.clientFds[j] → i = j
  greeted : ∀ i : Fin maxTcpConnections, i.val < b.clientCount →
    (b.clientHelloReceived[i] = true ↔ b.clientNodeIds[i] ≠ nodeIdInvalid)
  nodes : ∀ i j : Fin maxTcpConnections, i.val < b.clientCount → j.val < b.clientCount →
    b.clientNodeIds[i] ≠ nodeIdInvalid → b.clientNodeIds[i] = b.clientNodeIds[j] → i = j
  unused : ∀ i : Fin maxTcpConnections, b.clientCount ≤ i.val →
    b.clientFds[i] = -1 ∧ b.clientNodeIds[i] = nodeIdInvalid
  counters : b.connectionsOpened - b.connectionsClosed = .ofNat b.clientCount

/-- `accept` does not answer a descriptor that is still open. -/
def FreshAccept (b : TcpBackend) : ServerEvent → Prop
  | .accept fd _ _ => b.slotOf? fd = none
  | _ => True

instance (b : TcpBackend) (event : ServerEvent) : Decidable (b.FreshAccept event) :=
  match event with
  | .accept fd _ _ => inferInstanceAs (Decidable (b.slotOf? fd = none))
  | .receive .. | .sweep _ | .popHello | .popMessage => .isTrue trivial

theorem FreshAccept.server (h : b.FreshAccept event) : b.server.Fresh event := by
  cases event with
  | accept fd os nowUs =>
    rintro ⟨c, hc, hfd⟩
    exact slotOf?_none h c hc hfd
  | receive | sweep | popHello | popMessage => trivial

/-! ## One event -/

/-- What holds of a server in every run, with or without slips. -/
structure WellFormed (b : TcpBackend) : Prop where
  shaped : Shaped b
  queue : b.helloQueue.Valid

theorem live_init (recvTimeoutMs : UInt32) (impairment : ImpairmentEngine) :
    (init recvTimeoutMs impairment).live = ∅ := by
  ext c
  constructor
  · rintro ⟨i, hi, -⟩
    exact absurd hi (Nat.not_lt_zero _)
  · exact fun hc => hc.elim

theorem WellFormed.init (recvTimeoutMs : UInt32) (impairment : ImpairmentEngine) :
    WellFormed (init recvTimeoutMs impairment) := by
  refine ⟨⟨rfl, Nat.zero_le _, ?_, ?_, ?_, by simp [TcpBackend.init]⟩, HelloQueue.Valid.init⟩
  · exact fun i j hi => absurd hi (Nat.not_lt_zero _)
  · intro i _
    simp [TcpBackend.init]
  · rw [live_init]
    exact ⟨fun _ hc => hc.elim, fun _ hc => hc.elim, fun _ hc => hc.elim⟩

/-- An event that returns is a step or, when it marks another client, a slip. -/
theorem WellFormed.exec (h : WellFormed b) (hfresh : b.FreshAccept event)
    (hrun : exec event b = .ok (o, b')) :
    WellFormed b' ∧ if b.marksAnother event then b.server.Slip event o b'.server
      else b.server.Step event o b'.server := by
  rcases exec_spec h.shaped h.queue event hfresh.server with
    ⟨o₁, b₁, hrun₁, hshaped, hqueue, hrefines⟩ | ⟨⟨f, hfail⟩, -⟩
  · cases hrun₁.symm.trans hrun
    exact ⟨⟨hshaped, hqueue⟩, hrefines⟩
  · cases hfail.symm.trans hrun

theorem not_marksAnother_of_stuck (h : Shaped b) (hstuck : b.server.Stuck event) :
    b.marksAnother event = false := by
  cases event with
  | receive fd read =>
    obtain ⟨env, harrived, hdata, hconnected, -⟩ := hstuck
    obtain ⟨i, hslot⟩ := h.connected_iff.mp hconnected
    exact not_marksAnother_of_data hslot harrived hdata
  | accept | sweep | popHello | popMessage => rfl

/-- The table is in order when its clients are told apart and exactly the registered ones have said
`HELLO`. -/
theorem WellFormed.tableInv_iff (h : WellFormed b) : TableInv b ↔ b.live.Greets := by
  constructor
  · rintro hinv c ⟨i, hi, rfl⟩
    exact hinv.greeted i hi
  · intro hgreets
    refine ⟨h.shaped.count, ?_, h.shaped.distinct, ?_, ?_, h.shaped.unused, h.shaped.counters⟩
    · exact fun i hi => h.shaped.sound.opened _ (row_mem_live hi)
    · exact fun i hi => hgreets _ (row_mem_live hi)
    · intro i j hi hj hne heq
      have hsame := h.shaped.sound.unique _ (row_mem_live hi) _ (row_mem_live hj) hne heq
      exact h.shaped.slot_eq hi hj (congrArg Client.fd hsame)

/-! ## Runs -/

/-- Without slips the table is in order after every event of a run, and a slip ends that. -/
theorem tableInv_along (recvTimeoutMs : UInt32) (impairment : ImpairmentEngine)
    (events : List ServerEvent) (hfresh : Along exec FreshAccept events (init recvTimeoutMs impairment)) :
    TableInv (init recvTimeoutMs impairment) ∧
      (EachStep exec (fun _ _ _ _ b' => TableInv b') [] events (init recvTimeoutMs impairment) ↔
        Along exec (fun b event => b.marksAnother event = false) events
          (init recvTimeoutMs impairment)) := by
  have hstart := WellFormed.init recvTimeoutMs impairment
  have hgreets : (TcpBackend.init recvTimeoutMs impairment).live.Greets := by
    rintro c ⟨i, hi, -⟩
    exact absurd hi (Nat.not_lt_zero _)
  refine ⟨hstart.tableInv_iff.mpr hgreets, ?_⟩
  refine eachStep_iff_along (fun _ b => WellFormed b ∧ b.live.Greets) ?_ ?_ events [] _ ⟨hstart, hgreets⟩
    hfresh
  · rintro past b event o b' ⟨hwf, hgreets⟩ hfresh hquiet hrun
    obtain ⟨hwf', hrefines⟩ := hwf.exec hfresh hrun
    rw [hquiet] at hrefines
    have hgreets' : b'.live.Greets := Server.Step.greets hrefines hgreets
    exact ⟨hwf'.tableInv_iff.mpr hgreets', hwf', hgreets'⟩
  · rintro past b event ⟨hwf, hgreets⟩ hfresh hmarks
    rw [Bool.not_eq_false] at hmarks
    rcases exec_spec hwf.shaped hwf.queue event hfresh.server with
      ⟨o, b', hrun, hshaped, hqueue, hrefines⟩ | ⟨-, hstuck⟩
    · rw [hmarks] at hrefines
      have hbad : ¬ b'.live.Greets := Server.Slip.not_greets hrefines hgreets
      exact ⟨o, b', hrun, fun hinv => hbad ((WellFormed.mk hshaped hqueue).tableInv_iff.mp hinv)⟩
    · rw [not_marksAnother_of_stuck hwf.shaped hstuck] at hmarks
      cases hmarks

/-- Two clients claim node 1, and the second of them has nobody behind it. -/
def orderlyRun : List ServerEvent :=
  [.accept 10 (fun _ => .timeout) 1, .accept 11 (fun _ => .timeout) 2,
    .receive 10 (.of (bareMessage .hello 1) 3), .receive 11 (.of (bareMessage .hello 1) 4)]

theorem tableInv_orderly :
    EachStep exec (fun _ _ _ _ b' => TableInv b') [] orderlyRun (init 1000 .calm) :=
  (tableInv_along 1000 .calm orderlyRun (by decide +kernel)).2.mpr (by decide +kernel)

/-- Two of three clients claim node 1, and the third is behind the second of them. -/
def impostorRun : List ServerEvent :=
  [.accept 10 (fun _ => .timeout) 1, .accept 11 (fun _ => .timeout) 2, .accept 12 (fun _ => .timeout) 3,
    .receive 10 (.of (bareMessage .hello 1) 4), .receive 11 (.of (bareMessage .hello 1) 5)]

/-- The third client is marked as greeted before it has said anything. -/
theorem next_client_marked :
    Along exec FreshAccept impostorRun (init 1000 .calm) ∧
      ∃ os b', runAll exec impostorRun (init 1000 .calm) = .ok (os, b') ∧ ¬ TableInv b' := by
  refine ⟨by decide +kernel, ?_⟩
  have hends : Ends exec impostorRun (init 1000 .calm) fun b => 1 < b.clientCount ∧
      b.clientHelloReceived[1] = true ∧ b.clientNodeIds[1] = nodeIdInvalid := by decide +kernel
  obtain ⟨os, b', hrun, hcount, hflag, hnode⟩ := hends.exists
  exact ⟨os, b', hrun, fun hinv => (hinv.greeted 1 hcount).mp hflag hnode⟩

end TcpBackend

end MessageEngine
