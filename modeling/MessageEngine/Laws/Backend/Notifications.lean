import MessageEngine.Laws.TcpBackend.Invariant
import MessageEngine.Laws.TlsTcpBackend
import MessageEngine.Lib.Run

/-!
# Reconnect notifications

Each registration is to be told once to the caller of `pop_hello_peer`, in order. The queue between
them holds seven notifications, and a server has eight clients: when seven wait, the next one is
dropped.

## What is proved

- `notifications_kept`: in both servers, what has been popped and what waits is what was registered,
  after every event, exactly when no client registers while seven notifications wait;
- `eighth_notification_lost`: eight clients that register before anybody asks.
-/

namespace MessageEngine

open Outcome Run

/-- The nodes registered in a run. -/
def registeredIn (os : List ServerObservation) : List NodeId :=
  os.flatMap fun o => Server.registeredBy o.effects

/-- The nodes `pop_hello_peer` has answered. `NODE_ID_INVALID` stands for none. -/
def poppedIn (os : List ServerObservation) : List NodeId :=
  os.flatMap fun o => (o.popped.filter (· ≠ nodeIdInvalid)).toList

/-- What was registered has been popped or waits, in order; and when there was nothing to pop, it has
all been popped. -/
def Notified (os : List ServerObservation) (o : ServerObservation) (q : HelloQueue) : Prop :=
  poppedIn (os ++ [o]) ++ q.pending = registeredIn (os ++ [o]) ∧
    (o.popped = some nodeIdInvalid → poppedIn (os ++ [o]) = registeredIn (os ++ [o]))

theorem registeredIn_snoc (os : List ServerObservation) (o : ServerObservation) :
    registeredIn (os ++ [o]) = registeredIn os ++ Server.registeredBy o.effects := by
  simp [registeredIn]

theorem poppedIn_snoc (os : List ServerObservation) (o : ServerObservation) :
    poppedIn (os ++ [o]) = poppedIn os ++ (o.popped.filter (· ≠ nodeIdInvalid)).toList := by
  simp [poppedIn]

namespace Server

variable {v v' : Server} {event : ServerEvent} {o : ServerObservation} {src : NodeId}

/-- The event is a `HELLO` that registers a client. -/
def Registers (v : Server) : ServerEvent → NodeId → Prop
  | .receive fd read, src => ∃ env, read.message? = some env ∧ env.messageType = .hello ∧
      env.sourceId = src ∧ v.live.Connected fd ∧ ¬ v.live.Greeted fd ∧ ¬ v.live.Claimed fd src
  | _, _ => False

/-- The event registers a client while seven notifications wait. -/
def Overflows (v : Server) (event : ServerEvent) : Prop :=
  (∃ src, v.Registers event src) ∧ 7 ≤ v.helloQueue.pending.length

theorem Registers.valid (h : v.Registers event src) : src ≠ nodeIdInvalid := by
  cases event with
  | receive fd read =>
    obtain ⟨env, harrived, -, rfl, -⟩ := h
    exact (Read.message?_valid harrived).2.2
  | accept | sweep | popHello | popMessage => exact h.elim

/-- A registration puts its node into the queue, if there is room. -/
theorem Step.registering (h : Step v event o v') (hq : v.helloQueue.Valid) (hreg : v.Registers event src) :
    registeredBy o.effects = [src] ∧ o.popped = none ∧
      v'.helloQueue.pending = if v.helloQueue.pending.length < 7 then v.helloQueue.pending ++ [src]
        else v.helloQueue.pending := by
  cases event with
  | receive fd read =>
    obtain ⟨env, harrived, hello, rfl, hconnected, hfirst, hfree⟩ := hreg
    obtain ⟨q, hpush, -, hpending⟩ := HelloQueue.push_spec hq env.sourceId
    obtain ⟨rfl, hpopped, -, hregistered⟩ :=
      h.deterministic (.registered hconnected harrived hello hfirst hfree hpush)
    exact ⟨hregistered, hpopped, hpending⟩
  | accept | sweep | popHello | popMessage => exact hreg.elim

/-- Any other event leaves the queue or pops its first notification. -/
theorem Step.not_registering (h : Step v event o v') (hq : v.helloQueue.Valid)
    (hnone : ∀ src, ¬ v.Registers event src) :
    registeredBy o.effects = [] ∧
      ((o.popped = none ∧ v'.helloQueue.pending = v.helloQueue.pending) ∨
        (o.popped = some nodeIdInvalid ∧ v.helloQueue.pending = [] ∧ v'.helloQueue.pending = []) ∨
        ∃ src, o.popped = some src ∧ v.helloQueue.pending = src :: v'.helloQueue.pending) := by
  cases h with
  | registered connected arrived hello first free _ =>
    exact absurd ⟨_, arrived, hello, rfl, connected, first, free⟩ (hnone _)
  | accepted | declined | absent | failed | malformed | rejected | refused | taken =>
    exact ⟨rfl, .inl ⟨rfl, rfl⟩⟩
  | forwarded => exact ⟨registeredBy_inboundEffects _ _ _, .inl ⟨rfl, rfl⟩⟩
  | swept => exact ⟨registeredBy_closed _, .inl ⟨rfl, rfl⟩⟩
  | @popped site src q pop =>
    obtain ⟨src', q', hpop, -, hcases⟩ := HelloQueue.pop_spec hq site
    cases pop.symm.trans hpop
    refine ⟨rfl, .inr ?_⟩
    rcases hcases with ⟨hempty, rfl, rfl⟩ | hfirst
    · exact .inl ⟨rfl, hempty, hempty⟩
    · exact .inr ⟨src, rfl, hfirst⟩

/-- The account of a run: what was popped and what waits is what was registered. -/
structure Account (os : List ServerObservation) (v : Server) : Prop where
  balance : poppedIn os ++ v.helloQueue.pending = registeredIn os
  valid : ∀ src ∈ registeredIn os, src ≠ nodeIdInvalid

theorem Account.init (h : v.helloQueue = .init) : Account [] v := by
  refine ⟨?_, fun _ hsrc => absurd hsrc List.not_mem_nil⟩
  rw [h, HelloQueue.pending_init]
  rfl

theorem Account.quiet {os : List ServerObservation} (h : Account os v) (hreg : registeredBy o.effects = [])
    (hpopped : o.popped = none) (hpending : v'.helloQueue.pending = v.helloQueue.pending) :
    Notified os o v'.helloQueue ∧ Account (os ++ [o]) v' := by
  have hin : registeredIn (os ++ [o]) = registeredIn os := by rw [registeredIn_snoc, hreg, List.append_nil]
  have hout : poppedIn (os ++ [o]) = poppedIn os := by
    rw [poppedIn_snoc, hpopped]
    simp
  have hbalance : poppedIn (os ++ [o]) ++ v'.helloQueue.pending = registeredIn (os ++ [o]) := by
    rw [hin, hout, hpending, h.balance]
  refine ⟨⟨hbalance, fun hnone => ?_⟩, hbalance, hin ▸ h.valid⟩
  cases hpopped.symm.trans hnone

/-- While there is room the account balances. -/
theorem Step.account {os : List ServerObservation} (h : Step v event o v') (hq : v.helloQueue.Valid)
    (hroom : ¬ v.Overflows event) (haccount : Account os v) :
    Notified os o v'.helloQueue ∧ Account (os ++ [o]) v' := by
  by_cases hreg : ∃ src, v.Registers event src
  · obtain ⟨src, hreg⟩ := hreg
    have hseven : v.helloQueue.pending.length < 7 := by
      by_contra hfull
      exact hroom ⟨⟨src, hreg⟩, by omega⟩
    obtain ⟨hregistered, hpopped, hpending⟩ := h.registering hq hreg
    rw [if_pos hseven] at hpending
    have hin : registeredIn (os ++ [o]) = registeredIn os ++ [src] := by rw [registeredIn_snoc, hregistered]
    have hout : poppedIn (os ++ [o]) = poppedIn os := by
      rw [poppedIn_snoc, hpopped]
      simp
    have hbalance : poppedIn (os ++ [o]) ++ v'.helloQueue.pending = registeredIn (os ++ [o]) := by
      rw [hin, hout, hpending, ← List.append_assoc, haccount.balance]
    refine ⟨⟨hbalance, fun hnone => ?_⟩, hbalance, ?_⟩
    · cases hpopped.symm.trans hnone
    · intro x hx
      rw [hin, List.mem_append, List.mem_singleton] at hx
      rcases hx with hx | rfl
      · exact haccount.valid x hx
      · exact hreg.valid
  · obtain ⟨hregistered, hcases⟩ := h.not_registering hq (not_exists.mp hreg)
    have hin : registeredIn (os ++ [o]) = registeredIn os := by
      rw [registeredIn_snoc, hregistered, List.append_nil]
    rcases hcases with ⟨hpopped, hpending⟩ | ⟨hpopped, hempty, hempty'⟩ | ⟨src, hpopped, hfirst⟩
    · exact haccount.quiet hregistered hpopped hpending
    · have hout : poppedIn (os ++ [o]) = registeredIn (os ++ [o]) := by
        have hbalance := haccount.balance
        rw [hempty, List.append_nil] at hbalance
        rw [poppedIn_snoc, hpopped, hin, ← hbalance]
        simp
      refine ⟨⟨by rw [hempty', List.append_nil, hout], fun _ => hout⟩,
        by rw [hempty', List.append_nil, hout], hin ▸ haccount.valid⟩
    · have hvalid : src ≠ nodeIdInvalid := by
        refine haccount.valid src ?_
        rw [← haccount.balance, hfirst]
        simp
      have hout : poppedIn (os ++ [o]) = poppedIn os ++ [src] := by
        rw [poppedIn_snoc, hpopped]
        simp [hvalid]
      have hbalance : poppedIn (os ++ [o]) ++ v'.helloQueue.pending = registeredIn (os ++ [o]) := by
        rw [hin, hout, List.append_assoc, List.singleton_append, ← hfirst, haccount.balance]
      refine ⟨⟨hbalance, fun hnone => ?_⟩, hbalance, hin ▸ haccount.valid⟩
      rw [hpopped] at hnone
      exact absurd (Option.some.inj hnone) hvalid

/-- A registration that finds no room is missing from the account. -/
theorem Step.overflow {os : List ServerObservation} (h : Step v event o v') (hq : v.helloQueue.Valid)
    (hfull : v.Overflows event) (haccount : Account os v) : ¬ Notified os o v'.helloQueue := by
  obtain ⟨⟨src, hreg⟩, hseven⟩ := hfull
  obtain ⟨hregistered, hpopped, hpending⟩ := h.registering hq hreg
  rw [if_neg (by omega)] at hpending
  rintro ⟨hbalance, -⟩
  rw [registeredIn_snoc, hregistered, poppedIn_snoc, hpopped, hpending] at hbalance
  simp only [Option.filter_none, Option.toList_none, List.append_nil, haccount.balance] at hbalance
  exact List.cons_ne_nil _ _ (List.self_eq_append_right.mp hbalance)

theorem Slip.account {os : List ServerObservation} (h : Slip v event o v') (haccount : Account os v) :
    Notified os o v'.helloQueue ∧ Account (os ++ [o]) v' := by
  cases h with
  | marked => exact haccount.quiet rfl rfl rfl

theorem Slip.not_overflows (h : Slip v event o v') : ¬ v.Overflows event := by
  cases h with
  | marked _ arrived _ _ claimed =>
    rintro ⟨⟨src, env, arrived', -, rfl, -, -, free⟩, -⟩
    cases arrived.symm.trans arrived'
    exact free claimed

theorem Stuck.not_overflows (h : v.Stuck event) : ¬ v.Overflows event := by
  cases event with
  | receive fd read =>
    obtain ⟨env, harrived, hdata, -⟩ := h
    rintro ⟨⟨src, env', harrived', hello, -⟩, -⟩
    cases harrived.symm.trans harrived'
    exact hdata hello
  | accept | sweep | popHello => exact h.elim
  | popMessage =>
    rintro ⟨⟨src, hreg⟩, -⟩
    exact hreg

theorem not_overflows_of_garbled {fd : Int} {read : Read} (h : read.message? = none) :
    ¬ v.Overflows (.receive fd read) := by
  rintro ⟨⟨src, env, harrived, -⟩, -⟩
  cases h.symm.trans harrived

theorem not_overflows_of_absent {fd : Int} {read : Read} (h : ¬ v.live.Connected fd) :
    ¬ v.Overflows (.receive fd read) := by
  rintro ⟨⟨src, env, -, -, -, hconnected, -⟩, -⟩
  exact h hconnected

theorem overflows_iff {fd : Int} {read : Read} {env : MessageEnvelope} (harrived : read.message? = some env)
    (hconnected : v.live.Connected fd) :
    v.Overflows (.receive fd read) ↔
      ((env.messageType = .hello ∧ ¬ v.live.Greeted fd) ∧ ¬ v.live.Claimed fd env.sourceId) ∧
        7 ≤ v.helloQueue.pending.length := by
  constructor
  · rintro ⟨⟨src, env', harrived', hello, rfl, -, hfirst, hfree⟩, hseven⟩
    cases harrived.symm.trans harrived'
    exact ⟨⟨⟨hello, hfirst⟩, hfree⟩, hseven⟩
  · rintro ⟨⟨⟨hello, hfirst⟩, hfree⟩, hseven⟩
    exact ⟨⟨_, env, harrived, hello, rfl, hconnected, hfirst, hfree⟩, hseven⟩

end Server

/-! ## The two servers -/

/-- The event is a `HELLO` that registers a client, while seven notifications wait. -/
def TcpBackend.overflows (b : TcpBackend) : ServerEvent → Bool
  | .receive fd read =>
    match read.message?, b.slotOf? fd with
    | some env, some i =>
      env.messageType == .hello && !b.clientHelloReceived[i] &&
        (b.liveSlot? fun j => b.clientNodeIds[j] == env.sourceId && b.clientFds[j] != fd).isNone &&
        decide (7 ≤ b.helloQueue.pending.length)
    | _, _ => false
  | _ => false

theorem TcpBackend.Shaped.overflows_iff {b : TcpBackend} (h : b.Shaped) (event : ServerEvent) :
    b.overflows event = true ↔ b.server.Overflows event := by
  cases event with
  | receive fd read =>
    cases harrived : read.message? with
    | none => simp [overflows, harrived, Server.not_overflows_of_garbled harrived]
    | some env =>
      cases hslot : b.slotOf? fd with
      | none =>
        have hgone : ¬ b.server.live.Connected fd := by
          intro hconnected
          obtain ⟨i, hi⟩ := h.connected_iff.mp hconnected
          cases hslot.symm.trans hi
        simp [overflows, harrived, hslot, Server.not_overflows_of_absent hgone]
      | some i =>
        obtain ⟨hi, hfd⟩ := slotOf?_some hslot
        have hconnected : b.server.live.Connected fd := h.connected_iff.mpr ⟨i, hslot⟩
        have hgreeted : b.live.Greeted fd ↔ b.clientHelloReceived[i] = true :=
          (show (b.row i).fd = fd from hfd) ▸ h.greeted_iff hi
        have hfree : (b.liveSlot? fun j =>
            b.clientNodeIds[j] == env.sourceId && b.clientFds[j] != fd).isNone = true ↔
            ¬ b.live.Claimed fd env.sourceId := by
          rw [← claimed_iff, Option.isNone_iff_eq_none, Option.eq_none_iff_forall_ne_some]
          exact not_exists.symm
        rw [Server.overflows_iff harrived hconnected]
        simp only [overflows, harrived, hslot, Bool.and_eq_true, beq_iff_eq, Bool.not_eq_true',
          decide_eq_true_eq, hfree, ← Bool.not_eq_true, ← hgreeted]
        rfl
  | accept | sweep | popHello | popMessage => simp [overflows, Server.Overflows, Server.Registers]

/-- The event is a `HELLO` that registers a client, while seven notifications wait. -/
def TlsTcpBackend.overflows (b : TlsTcpBackend) : ServerEvent → Bool
  | .receive fd read =>
    match read.message?, b.slotOf? fd with
    | some env, some i =>
      env.messageType == .hello && !b.clientHelloReceived[i] &&
        ((List.finRange maxTcpConnections).find? fun j =>
          j != i && b.clientSlotActive[j] && b.clientNodeIds[j] == env.sourceId).isNone &&
        decide (7 ≤ b.helloQueue.pending.length)
    | _, _ => false
  | _ => false

theorem TlsTcpBackend.Shaped.overflows_iff {b : TlsTcpBackend} (h : b.Shaped) (event : ServerEvent) :
    b.overflows event = true ↔ b.server.Overflows event := by
  cases event with
  | receive fd read =>
    cases harrived : read.message? with
    | none => simp [overflows, harrived, Server.not_overflows_of_garbled harrived]
    | some env =>
      cases hslot : b.slotOf? fd with
      | none =>
        have hgone : ¬ b.server.live.Connected fd := by
          intro hconnected
          obtain ⟨i, hi⟩ := connected_iff.mp hconnected
          cases hslot.symm.trans hi
        simp [overflows, harrived, hslot, Server.not_overflows_of_absent hgone]
      | some i =>
        obtain ⟨hi, hfd⟩ := slotOf?_some hslot
        have hrowfd : (b.row i).fd = fd := hfd
        have hconnected : b.server.live.Connected fd := connected_iff.mpr ⟨i, hslot⟩
        have hgreeted : b.live.Greeted fd ↔ b.clientHelloReceived[i] = true := hrowfd ▸ h.greeted_iff hi
        have hfree : ((List.finRange maxTcpConnections).find? fun j =>
            j != i && b.clientSlotActive[j] && b.clientNodeIds[j] == env.sourceId).isNone = true ↔
            ¬ b.live.Claimed fd env.sourceId := by
          rw [← hrowfd, ← h.claimed_iff hi, Option.isNone_iff_eq_none,
            Option.eq_none_iff_forall_ne_some]
          exact not_exists.symm
        rw [Server.overflows_iff harrived hconnected]
        simp only [overflows, harrived, hslot, Bool.and_eq_true, beq_iff_eq, Bool.not_eq_true',
          decide_eq_true_eq, hfree, ← Bool.not_eq_true, ← hgreeted]
        rfl
  | accept | sweep | popHello | popMessage => simp [overflows, Server.Overflows, Server.Registers]

/-! ## Runs -/

/-- In both servers, what has been popped and what waits is what was registered, after every event,
exactly when no client registers while seven notifications wait. -/
theorem notifications_kept (recvTimeoutMs : UInt32) (impairment : ImpairmentEngine)
    (events : List ServerEvent) :
    (Along TcpBackend.exec TcpBackend.FreshAccept events (.init recvTimeoutMs impairment) →
      (EachStep TcpBackend.exec (fun past _ _ o b => Notified past o b.helloQueue) [] events
          (.init recvTimeoutMs impairment) ↔
        Along TcpBackend.exec (fun b event => b.overflows event = false) events
          (.init recvTimeoutMs impairment))) ∧
    (Along TlsTcpBackend.exec TlsTcpBackend.FreshAccept events (.init recvTimeoutMs impairment) →
      (EachStep TlsTcpBackend.exec (fun past _ _ o b => Notified past o b.helloQueue) [] events
          (.init recvTimeoutMs impairment) ↔
        Along TlsTcpBackend.exec (fun b event => b.overflows event = false) events
          (.init recvTimeoutMs impairment))) := by
  constructor
  · intro hfresh
    refine eachStep_iff_along (fun past b => b.WellFormed ∧ Server.Account past b.server) ?_ ?_ events [] _
      ⟨.init _ _, .init rfl⟩ hfresh
    · rintro past b event o b' ⟨hwf, haccount⟩ hfresh hroom hrun
      have hroom' : ¬ b.server.Overflows event := by
        rw [← hwf.shaped.overflows_iff, hroom]
        exact Bool.false_ne_true
      obtain ⟨hwf', hrefines⟩ := hwf.exec hfresh hrun
      split at hrefines
      case isTrue =>
        obtain ⟨hlaw, haccount'⟩ := Server.Slip.account hrefines haccount
        exact ⟨hlaw, hwf', haccount'⟩
      case isFalse =>
        obtain ⟨hlaw, haccount'⟩ := Server.Step.account hrefines hwf.queue hroom' haccount
        exact ⟨hlaw, hwf', haccount'⟩
    · rintro past b event ⟨hwf, haccount⟩ hfresh hfull
      rw [Bool.not_eq_false, hwf.shaped.overflows_iff] at hfull
      rcases TcpBackend.exec_spec hwf.shaped hwf.queue event hfresh.server with
        ⟨o, b', hrun, -, -, hrefines⟩ | ⟨-, hstuck⟩
      · split at hrefines
        case isTrue => exact absurd hfull (Server.Slip.not_overflows hrefines)
        case isFalse => exact ⟨o, b', hrun, Server.Step.overflow hrefines hwf.queue hfull haccount⟩
      · exact absurd hfull (Server.Stuck.not_overflows hstuck)
  · intro hfresh
    refine eachStep_iff_along (fun past b => b.WellFormed ∧ Server.Account past b.server) ?_ ?_ events [] _
      ⟨.init _ _, .init rfl⟩ hfresh
    · rintro past b event o b' ⟨hwf, haccount⟩ hfresh hroom hrun
      have hroom' : ¬ b.server.Overflows event := by
        rw [← hwf.shaped.overflows_iff, hroom]
        exact Bool.false_ne_true
      obtain ⟨hwf', hstep⟩ := hwf.exec hfresh.server hrun
      obtain ⟨hlaw, haccount'⟩ := hstep.account hwf.shaped.queue hroom' haccount
      exact ⟨hlaw, hwf', haccount'⟩
    · rintro past b event ⟨hwf, haccount⟩ hfresh hfull
      rw [Bool.not_eq_false, hwf.shaped.overflows_iff] at hfull
      rcases TlsTcpBackend.exec_spec hwf.shaped hwf.greets event hfresh.server with
        ⟨o, b', hrun, -, hstep⟩ | ⟨-, hstuck⟩
      · exact ⟨o, b', hrun, hstep.overflow hwf.shaped.queue hfull haccount⟩
      · exact absurd hfull (Server.Stuck.not_overflows hstuck)

/-- The first clients connect, register for nodes `1`, `2` and so on, and are asked for. -/
def crowdedRun (clients : Nat) : List ServerEvent :=
  (List.range clients).map (fun (k : Nat) => .accept (10 + k) (fun _ => .timeout) 1) ++
  (List.range clients).map
    (fun (k : Nat) => .receive (10 + k) (.of (bareMessage .hello (.ofNat (k + 1))) 2)) ++
  List.replicate clients .popHello

theorem notifications_kept_of_two :
    EachStep TcpBackend.exec (fun past _ _ o b => Notified past o b.helloQueue) [] (crowdedRun 2)
        (.init 1000 .calm) ∧
      EachStep TlsTcpBackend.exec (fun past _ _ o b => Notified past o b.helloQueue) [] (crowdedRun 2)
        (.init 1000 .calm) :=
  ⟨((notifications_kept 1000 .calm (crowdedRun 2)).1 (by decide +kernel)).mpr (by decide +kernel),
    ((notifications_kept 1000 .calm (crowdedRun 2)).2 (by decide +kernel)).mpr (by decide +kernel)⟩

/-- Of eight registrations seven are told; the eighth is not, and nothing is left to tell. -/
theorem eighth_notification_lost :
    (Along TcpBackend.exec TcpBackend.FreshAccept (crowdedRun 8) (.init 1000 .calm) ∧
      Yields TcpBackend.exec (crowdedRun 8) (.init 1000 .calm) fun os b =>
        registeredIn os = [1, 2, 3, 4, 5, 6, 7, 8] ∧ poppedIn os = [1, 2, 3, 4, 5, 6, 7] ∧
          b.helloQueue.pending = []) ∧
    (Along TlsTcpBackend.exec TlsTcpBackend.FreshAccept (crowdedRun 8) (.init 1000 .calm) ∧
      Yields TlsTcpBackend.exec (crowdedRun 8) (.init 1000 .calm) fun os b =>
        registeredIn os = [1, 2, 3, 4, 5, 6, 7, 8] ∧ poppedIn os = [1, 2, 3, 4, 5, 6, 7] ∧
          b.helloQueue.pending = []) :=
  ⟨⟨by decide +kernel, by decide +kernel⟩, by decide +kernel, by decide +kernel⟩

end MessageEngine
