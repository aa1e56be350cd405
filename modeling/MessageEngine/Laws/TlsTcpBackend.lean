import MessageEngine.Core.TlsTcpBackend
import MessageEngine.Laws.Backend.Server

/-!
# TlsTcpBackend

The same server on fixed slots. A client keeps its slot, so nothing that was computed about a slot
goes stale, and every event is a step of a server.

## What is proved

- `removeClient_spec`, `acceptAndHandshake_spec`, `sweepHelloTimeouts_spec`: the client table;
- `exec_spec`: an event is a step of a server, and only the inbound impairments can stop it.
-/

namespace MessageEngine

open Outcome Table

namespace TlsTcpBackend

variable {b b' : TlsTcpBackend} {fd : Int} {src : NodeId} {i : Fin maxTcpConnections}

/-- What the arrays say of a slot. -/
def row (b : TlsTcpBackend) (i : Fin maxTcpConnections) : Client :=
  ⟨b.clientNet[i], b.clientNodeIds[i], b.clientHelloReceived[i], b.clientAcceptTs[i]⟩

/-- The clients in the active slots. -/
def live (b : TlsTcpBackend) : Registry := {c | ∃ i, b.clientSlotActive[i] = true ∧ b.row i = c}

/-- The server without its arrays. -/
def server (b : TlsTcpBackend) : Server :=
  ⟨b.live, b.helloQueue, b.inbox, b.recvTimeoutMs.toUInt64 * 1000⟩

/-- The clients are counted and told apart, and a free slot has no node. -/
structure Shaped (b : TlsTcpBackend) : Prop where
  count : b.clientCount = b.live.ncard
  distinct : ∀ i j : Fin maxTcpConnections, b.clientSlotActive[i] = true → b.clientSlotActive[j] = true →
    b.clientNet[i] = b.clientNet[j] → i = j
  unused : ∀ i : Fin maxTcpConnections, b.clientSlotActive[i] = false → b.clientNodeIds[i] = nodeIdInvalid
  sound : Registry.Sound b.live
  queue : b.helloQueue.Valid

/-- Apart from the table and the trace nothing changed. -/
structure SameRest (b b' : TlsTcpBackend) : Prop where
  recvTimeoutMs : b'.recvTimeoutMs = b.recvTimeoutMs
  inbox : b'.inbox = b.inbox
  helloQueue : b'.helloQueue = b.helloQueue

theorem SameRest.trans {b'' : TlsTcpBackend} (h : SameRest b b') (h' : SameRest b' b'') : SameRest b b'' :=
  ⟨h'.recvTimeoutMs.trans h.recvTimeoutMs, h'.inbox.trans h.inbox, h'.helloQueue.trans h.helloQueue⟩

theorem SameRest.server (h : SameRest b b') : b'.server = { b.server with live := b'.live } := by
  unfold TlsTcpBackend.server
  rw [h.helloQueue, h.inbox, h.recvTimeoutMs]

theorem row_mem_live (hi : b.clientSlotActive[i] = true) : b.row i ∈ b.live := ⟨i, hi, rfl⟩

theorem Shaped.slot_eq (h : Shaped b) {j : Fin maxTcpConnections} (hi : b.clientSlotActive[i] = true)
    (hj : b.clientSlotActive[j] = true) (heq : (b.row i).fd = (b.row j).fd) : i = j :=
  h.distinct i j hi hj heq

theorem live_subset (b : TlsTcpBackend) : b.live ⊆ b.row '' Set.univ := by
  rintro c ⟨i, -, rfl⟩
  exact ⟨i, trivial, rfl⟩

theorem live_finite (b : TlsTcpBackend) : b.live.Finite := (Set.toFinite _).subset b.live_subset

theorem ncard_live_le (b : TlsTcpBackend) : b.live.ncard ≤ maxTcpConnections :=
  calc b.live.ncard ≤ (b.row '' Set.univ).ncard := Set.ncard_le_ncard b.live_subset (Set.toFinite _)
    _ ≤ (Set.univ : Set (Fin maxTcpConnections)).ncard := Set.ncard_image_le (Set.toFinite _)
    _ = maxTcpConnections := by rw [Set.ncard_univ, Nat.card_fin]

/-- While clients are missing there is a free slot. -/
theorem Shaped.exists_free (h : Shaped b) (hroom : b.clientCount < maxTcpConnections) :
    ∃ i, firstSlot? (fun active => !active) b.clientSlotActive = some i := by
  cases hslot : firstSlot? (fun active => !active) b.clientSlotActive with
  | some i => exact ⟨i, rfl⟩
  | none =>
    have hactive (i : Fin maxTcpConnections) : b.clientSlotActive[i] = true := by
      simpa using firstSlot?_none.mp hslot i
    have hrange : b.live = Set.range b.row := by
      ext c
      constructor
      · rintro ⟨i, -, rfl⟩
        exact ⟨i, rfl⟩
      · rintro ⟨i, rfl⟩
        exact row_mem_live (hactive i)
    have hinj : Function.Injective b.row :=
      fun i j heq => h.slot_eq (hactive i) (hactive j) (congrArg Client.fd heq)
    have hcount := h.count
    rw [hrange, Set.ncard_range_of_injective hinj, Nat.card_fin] at hcount
    omega

/-! ## Taking a client out -/

/-- The client in slot `i` was taken out. -/
structure Removed (b : TlsTcpBackend) (i : Fin maxTcpConnections) (b' : TlsTcpBackend) : Prop where
  rows : ∀ j, j ≠ i → b'.row j = b.row j ∧ b'.clientSlotActive[j] = b.clientSlotActive[j]
  free : b'.clientSlotActive[i] = false
  live : b'.live = b.live.close (b.row i).fd
  shaped : Shaped b'
  rest : SameRest b b'
  trace : b'.trace = b.trace ++ [.closed (b.row i).fd]

theorem removeClient_spec (h : Shaped b) (hi : b.clientSlotActive[i] = true) :
    ∃ b', b.removeClient i = .ok b' ∧ Removed b i b' := by
  have hmem : b.row i ∈ b.live := row_mem_live hi
  have hcount : b.clientCount > 0 := by
    rw [h.count]
    exact (Set.ncard_pos b.live_finite).mpr ⟨_, hmem⟩
  have hle : b.clientCount - 1 ≤ maxTcpConnections := by
    have := b.ncard_live_le
    have := h.count
    omega
  unfold removeClient
  simp only [neverCompiledOutAssert, ensure_pos hcount, ensure_pos hle, ok_bind, pure_eq_ok]
  refine ⟨_, rfl, ?_⟩
  generalize hres : note _ _ = b'
  have hrow (j : Fin maxTcpConnections) (hne : j ≠ i) :
      b'.row j = b.row j ∧ b'.clientSlotActive[j] = b.clientSlotActive[j] := by
    rw [← hres]
    simp only [row, note, getElem_set_fin, if_neg (Ne.symm hne), and_self]
  have hfree : b'.clientSlotActive[i] = false := by
    rw [← hres]
    simp only [note, getElem_set_fin, if_pos]
  have hnode : b'.clientNodeIds[i] = nodeIdInvalid := by
    rw [← hres]
    simp only [note, getElem_set_fin, if_pos]
  have hlive : b'.live = b.live.close (b.row i).fd := by
    ext c
    constructor
    · rintro ⟨j, hj, rfl⟩
      have hne : j ≠ i := by
        rintro rfl
        cases hfree.symm.trans hj
      obtain ⟨hsame, hactive⟩ := hrow j hne
      have hj' := hactive.symm.trans hj
      rw [hsame]
      exact ⟨row_mem_live hj', fun heq => hne (h.slot_eq hj' hi heq)⟩
    · rintro ⟨⟨j, hj, rfl⟩, hother⟩
      have hne : j ≠ i := by
        rintro rfl
        exact hother rfl
      obtain ⟨hsame, hactive⟩ := hrow j hne
      exact ⟨j, hactive.trans hj, hsame⟩
  refine ⟨hrow, hfree, hlive, ?_, ⟨by rw [← hres]; rfl, by rw [← hres]; rfl, by rw [← hres]; rfl⟩,
    by rw [← hres]; rfl⟩
  refine ⟨?_, ?_, ?_, ?_, ?_⟩
  · have hone : b.live.close (b.row i).fd = b.live \ {b.row i} := by
      ext c
      constructor
      · rintro ⟨hc, hne⟩
        exact ⟨hc, fun heq => hne (by rw [heq])⟩
      · rintro ⟨hc, hne⟩
        exact ⟨hc, fun heq => hne (h.sound.keyed c hc _ hmem heq)⟩
    rw [hlive, hone, Set.ncard_sdiff_singleton_of_mem hmem, ← h.count, ← hres]
    rfl
  · intro j k hj hk heq
    have hj' : j ≠ i := by
      rintro rfl
      cases hfree.symm.trans hj
    have hk' : k ≠ i := by
      rintro rfl
      cases hfree.symm.trans hk
    obtain ⟨hsamej, hactivej⟩ := hrow j hj'
    obtain ⟨hsamek, hactivek⟩ := hrow k hk'
    have hfd : (b'.row j).fd = (b'.row k).fd := heq
    rw [hsamej, hsamek] at hfd
    exact h.slot_eq (hactivej.symm.trans hj) (hactivek.symm.trans hk) hfd
  · intro j hj
    by_cases heq : j = i
    · rw [heq]
      exact hnode
    · obtain ⟨hsame, hactive⟩ := hrow j heq
      exact (congrArg Client.nodeId hsame).trans (h.unused j (hactive.symm.trans hj))
  · rw [hlive]
    exact h.sound.close _
  · rw [← hres]
    exact h.queue

/-! ## Accepting -/

/-- Accepting adds a newcomer, or changes nothing. -/
theorem acceptAndHandshake_spec (h : Shaped b) (nowUs : UInt64) (hfresh : ¬ b.live.Connected fd) :
    ∃ b', b.acceptAndHandshake fd nowUs = .ok b' ∧ Shaped b' ∧ SameRest b b' ∧
      ((b' = b ∧ (fd < 0 ∨ maxTcpConnections ≤ b.live.ncard)) ∨
        (b.live.ncard < maxTcpConnections ∧ 0 ≤ fd ∧
          b'.live = insert (Registry.newcomer fd nowUs) b.live ∧
          b'.trace = b.trace ++ [.accepted fd])) := by
  have hcount := h.count
  unfold acceptAndHandshake
  by_cases hfull : b.clientCount ≥ maxTcpConnections
  · rw [if_pos hfull]
    exact ⟨b, rfl, h, ⟨rfl, rfl, rfl⟩, .inl ⟨rfl, .inr (hcount ▸ hfull)⟩⟩
  · rw [if_neg hfull]
    obtain ⟨slot, hslot⟩ := h.exists_free (by omega)
    have hfree : b.clientSlotActive[slot] = false := by simpa using firstSlot?_some hslot
    simp only [hslot]
    by_cases hneg : fd < 0
    · rw [if_pos hneg]
      exact ⟨b, rfl, h, ⟨rfl, rfl, rfl⟩, .inl ⟨rfl, .inl hneg⟩⟩
    · rw [if_neg hneg]
      have hbound : b.clientCount + 1 ≤ maxTcpConnections := by omega
      simp only [neverCompiledOutAssert, ensure_pos hbound, ok_bind, pure_eq_ok]
      refine ⟨_, rfl, ?_⟩
      generalize hres : note _ _ = b'
      have hnode := h.unused slot hfree
      have hnew : b'.row slot = Registry.newcomer fd nowUs := by
        rw [← hres]
        simp only [row, note, getElem_set_fin, if_pos, hnode, Registry.newcomer]
      have hactive : b'.clientSlotActive[slot] = true := by
        rw [← hres]
        simp only [note, getElem_set_fin, if_pos]
      have hrow (j : Fin maxTcpConnections) (hne : j ≠ slot) :
          b'.row j = b.row j ∧ b'.clientSlotActive[j] = b.clientSlotActive[j] := by
        rw [← hres]
        simp only [row, note, getElem_set_fin, if_neg (Ne.symm hne), and_self]
      have hlive : b'.live = insert (Registry.newcomer fd nowUs) b.live := by
        ext c
        constructor
        · rintro ⟨j, hj, rfl⟩
          by_cases heq : j = slot
          · exact .inl (heq ▸ hnew)
          · obtain ⟨hsame, hactive'⟩ := hrow j heq
            exact .inr ⟨j, hactive'.symm.trans hj, hsame.symm⟩
        · rintro (rfl | ⟨j, hj, rfl⟩)
          · exact ⟨slot, hactive, hnew⟩
          · have hne : j ≠ slot := by
              rintro rfl
              cases hfree.symm.trans hj
            obtain ⟨hsame, hactive'⟩ := hrow j hne
            exact ⟨j, hactive'.trans hj, hsame⟩
      have habsent : Registry.newcomer fd nowUs ∉ b.live := fun hmem => hfresh ⟨_, hmem, rfl⟩
      refine ⟨?_, ⟨by rw [← hres]; rfl, by rw [← hres]; rfl, by rw [← hres]; rfl⟩,
        .inr ⟨by omega, by omega, hlive, by rw [← hres]; rfl⟩⟩
      refine ⟨?_, ?_, ?_, ?_, by rw [← hres]; exact h.queue⟩
      · rw [hlive, Set.ncard_insert_of_notMem habsent b.live_finite, ← hcount, ← hres]
        rfl
      · intro j k hj hk heq
        have hfd : (b'.row j).fd = (b'.row k).fd := heq
        by_cases hj' : j = slot
        · by_cases hk' : k = slot
          · exact hj'.trans hk'.symm
          · obtain ⟨hsame, hactive'⟩ := hrow k hk'
            rw [hj', hnew, hsame] at hfd
            exact absurd ⟨b.row k, row_mem_live (hactive'.symm.trans hk), hfd.symm⟩ hfresh
        · obtain ⟨hsame, hactive'⟩ := hrow j hj'
          by_cases hk' : k = slot
          · rw [hk', hnew, hsame] at hfd
            exact absurd ⟨b.row j, row_mem_live (hactive'.symm.trans hj), hfd⟩ hfresh
          · obtain ⟨hsame', hactive''⟩ := hrow k hk'
            rw [hsame, hsame'] at hfd
            exact h.slot_eq (hactive'.symm.trans hj) (hactive''.symm.trans hk) hfd
      · intro j hj
        have hne : j ≠ slot := by
          rintro rfl
          cases hactive.symm.trans hj
        obtain ⟨hsame, hactive'⟩ := hrow j hne
        exact (congrArg Client.nodeId hsame).trans (h.unused j (hactive'.symm.trans hj))
      · rw [hlive]
        exact h.sound.insert (by omega) fun c hc heq => hfresh ⟨c, hc, heq⟩

/-! ## Sweeping -/

/-- The sweep so far: the slots below `k` have been looked at. -/
structure Sweeping (timeoutUs nowUs : UInt64) (b : TlsTcpBackend) (k : Nat) (s : TlsTcpBackend) : Prop where
  shaped : Shaped s
  rest : SameRest b s
  kept : ∀ j : Fin maxTcpConnections, j.val < k → s.clientSlotActive[j] = true →
    ¬ Registry.TimedOut timeoutUs nowUs (s.row j)
  closes : ∃ fds : List Int, s.trace = b.trace ++ fds.map .closed ∧
    Registry.Closes timeoutUs nowUs b.live fds s.live

theorem sweepRound_spec {timeoutUs nowUs : UInt64} {s : TlsTcpBackend}
    (h : Sweeping timeoutUs nowUs b i s) :
    ∃ s', sweepHelloTimeouts.round nowUs timeoutUs i s = .ok s' ∧
      Sweeping timeoutUs nowUs b (i + 1) s' := by
  unfold sweepHelloTimeouts.round
  by_cases hactive : s.clientSlotActive[i] = true
  case neg =>
    rw [if_neg fun hc => hactive hc.1]
    refine ⟨s, rfl, h.shaped, h.rest, fun j hj hj' => ?_, h.closes⟩
    by_cases heq : j = i
    · exact absurd (heq ▸ hj') hactive
    · exact h.kept j (by have := Fin.val_ne_of_ne heq; omega) hj'
  case pos =>
    by_cases htimed : Registry.TimedOut timeoutUs nowUs (s.row i)
    case neg =>
      rw [if_neg fun hc => htimed hc.2]
      refine ⟨s, rfl, h.shaped, h.rest, fun j hj hj' => ?_, h.closes⟩
      by_cases heq : j = i
      · rw [heq]
        exact htimed
      · exact h.kept j (by have := Fin.val_ne_of_ne heq; omega) hj'
    case pos =>
      obtain ⟨s', hrun, hremoved⟩ := removeClient_spec h.shaped hactive
      obtain ⟨fds, htrace, hcloses⟩ := h.closes
      have hcond : s.clientSlotActive[i] = true ∧ s.clientHelloReceived[i] = false ∧
          s.clientAcceptTs[i] ≠ 0 ∧ nowUs - s.clientAcceptTs[i] > timeoutUs := ⟨hactive, htimed⟩
      rw [if_pos hcond]
      refine ⟨s', hrun, hremoved.shaped, h.rest.trans hremoved.rest, ?_, fds ++ [(s.row i).fd], ?_, ?_⟩
      · intro j hj hj'
        have hne : j ≠ i := by
          rintro rfl
          cases hremoved.free.symm.trans hj'
        obtain ⟨hsame, hactive'⟩ := hremoved.rows j hne
        rw [hsame]
        exact h.kept j (by have := Fin.val_ne_of_ne hne; omega) (hactive'.symm.trans hj')
      · rw [hremoved.trace, htrace]
        simp
      · rw [hremoved.live]
        exact hcloses.snoc (row_mem_live hactive) htimed

theorem sweepHelloTimeouts_spec (h : Shaped b) (nowUs : UInt64) :
    ∃ (b' : TlsTcpBackend) (fds : List Int), b.sweepHelloTimeouts nowUs = .ok b' ∧ Shaped b' ∧ SameRest b b' ∧
      b'.trace = b.trace ++ fds.map .closed ∧
      b'.live = b.live.sweep (b.recvTimeoutMs.toUInt64 * 1000) nowUs ∧
      ∀ fd, fd ∈ fds ↔ ∃ c ∈ b.live,
        Registry.TimedOut (b.recvTimeoutMs.toUInt64 * 1000) nowUs c ∧ c.fd = fd := by
  have hcount : b.clientCount ≤ maxTcpConnections := h.count ▸ b.ncard_live_le
  obtain ⟨b', hloop, hswept⟩ := eachIndex_total
    (Sweeping (b.recvTimeoutMs.toUInt64 * 1000) nowUs b) b
    ⟨h, ⟨rfl, rfl, rfl⟩, fun j hj => absurd hj (Nat.not_lt_zero _), [], by simp, .nil⟩
    (fun i s hs => sweepRound_spec hs)
  obtain ⟨fds, htrace, hcloses⟩ := hswept.closes
  have hdone (c : Client) (hc : c ∈ b'.live) :
      ¬ Registry.TimedOut (b.recvTimeoutMs.toUInt64 * 1000) nowUs c := by
    obtain ⟨j, hj, rfl⟩ := hc
    exact hswept.kept j j.isLt hj
  obtain ⟨hlive, hfds⟩ := hcloses.swept h.sound hdone
  refine ⟨b', fds, ?_, hswept.shaped, hswept.rest, htrace, hlive, hfds⟩
  unfold sweepHelloTimeouts
  simp only [neverCompiledOutAssert, ensure_pos hcount, ok_bind]
  exact hloop

/-! ## Registration -/

theorem Shaped.greeted_iff (h : Shaped b) (hi : b.clientSlotActive[i] = true) :
    b.live.Greeted (b.row i).fd ↔ b.clientHelloReceived[i] = true := by
  constructor
  · rintro ⟨c, ⟨j, hj, rfl⟩, hfd, hello⟩
    rw [← h.slot_eq hj hi hfd]
    exact hello
  · exact fun hello => ⟨b.row i, row_mem_live hi, rfl, hello⟩

/-- The search of `handle_hello_frame` for another client with the node. -/
theorem Shaped.claimed_iff (h : Shaped b) (hi : b.clientSlotActive[i] = true) :
    (∃ j, ((List.finRange maxTcpConnections).find? fun j =>
      j != i && b.clientSlotActive[j] && b.clientNodeIds[j] == src) = some j) ↔
      b.live.Claimed (b.row i).fd src := by
  constructor
  · rintro ⟨j, hj⟩
    have hit := List.find?_some hj
    simp only [Bool.and_eq_true, bne_iff_ne, ne_eq, beq_iff_eq] at hit
    obtain ⟨⟨hne, hactive⟩, hnode⟩ := hit
    exact ⟨b.row j, row_mem_live hactive, hnode, fun heq => hne (h.slot_eq hactive hi heq)⟩
  · rintro ⟨c, ⟨j, hj, rfl⟩, hnode, hfd⟩
    rw [← Option.isSome_iff_exists, List.find?_isSome]
    refine ⟨j, List.mem_finRange j, ?_⟩
    have hne : j ≠ i := by
      rintro rfl
      exact hfd rfl
    simp only [Bool.and_eq_true, bne_iff_ne, ne_eq, beq_iff_eq]
    exact ⟨⟨hne, hj⟩, hnode⟩

/-- The flag that is set before an eviction is cleared by it. -/
theorem removeClient_flagged :
    removeClient { b with clientHelloReceived := b.clientHelloReceived.set i true i.isLt } i =
      b.removeClient i := by
  unfold removeClient
  simp only [Vector.set_set]

/-- What comes of a `HELLO` of the client in slot `i`. -/
inductive Greeting (b : TlsTcpBackend) (i : Fin maxTcpConnections) (src : NodeId) (b' : TlsTcpBackend) :
    Prop
  | rejected (taken : b.live.Greeted (b.row i).fd ∨ b.live.Claimed (b.row i).fd src)
      (removed : Removed b i b')
  | registered {q : HelloQueue} (first : ¬ b.live.Greeted (b.row i).fd)
      (free : ¬ b.live.Claimed (b.row i).fd src) (push : b.helloQueue.push src = .ok q)
      (done : b' = { b with
        clientNodeIds := b.clientNodeIds.set i src i.isLt
        clientHelloReceived := b.clientHelloReceived.set i true i.isLt
        helloQueue := q
        trace := b.trace ++ [.registered (b.row i).fd src] })

theorem classify_hello (h : Shaped b) (hi : b.clientSlotActive[i] = true) {env : MessageEnvelope}
    (hello : env.messageType = .hello) (hsrc : env.sourceId ≠ nodeIdInvalid) :
    ∃ res b', b.classifyInboundFrame i env = .ok (res, b') ∧ res ≠ .ok ∧ Greeting b i env.sourceId b' := by
  obtain ⟨b₁, hremove, hremoved⟩ := removeClient_spec h hi
  unfold classifyInboundFrame
  simp only [neverCompiledOutAssert, ensure_pos hi, ok_bind, hello, if_true]
  by_cases hgreeted : b.clientHelloReceived[i] = true
  · rw [if_pos hgreeted, hremove, ok_bind]
    exact ⟨_, b₁, rfl, by decide, .rejected (.inl ((h.greeted_iff hi).mpr hgreeted)) hremoved⟩
  · have hfirst : ¬ b.live.Greeted (b.row i).fd := fun hg => hgreeted ((h.greeted_iff hi).mp hg)
    rw [if_neg hgreeted]
    unfold handleHelloFrame
    simp only [neverCompiledOutAssert, ensure_pos hsrc, ok_bind]
    cases hs : (List.finRange maxTcpConnections).find? fun j =>
        j != i && b.clientSlotActive[j] && b.clientNodeIds[j] == env.sourceId with
    | some j =>
      simp only [removeClient_flagged, hremove, ok_bind, pure_eq_ok]
      exact ⟨_, b₁, rfl, by decide, .rejected (.inr ((h.claimed_iff hi).mp ⟨j, hs⟩)) hremoved⟩
    | none =>
      have hfree : ¬ b.live.Claimed (b.row i).fd env.sourceId := by
        intro hclaimed
        obtain ⟨j, hj⟩ := (h.claimed_iff hi).mpr hclaimed
        rw [hs] at hj
        cases hj
      obtain ⟨q, hpush, -⟩ := HelloQueue.push_spec h.queue env.sourceId
      simp only [hpush, ok_bind, pure_eq_ok]
      exact ⟨_, _, rfl, by decide, .registered hfirst hfree hpush rfl⟩

theorem row_registered {q : HelloQueue} {trace : List BackendEffect} (j : Fin maxTcpConnections) :
    row { b with
        clientNodeIds := b.clientNodeIds.set i src i.isLt
        clientHelloReceived := b.clientHelloReceived.set i true i.isLt
        helloQueue := q
        trace := trace } j =
      if i = j then { b.row i with nodeId := src, helloReceived := true } else b.row j := by
  simp only [row, getElem_set_fin]
  split
  case isTrue heq => subst heq; rfl
  case isFalse => rfl

theorem live_registered (h : Shaped b) (hi : b.clientSlotActive[i] = true) {q : HelloQueue}
    {trace : List BackendEffect} :
    live { b with
        clientNodeIds := b.clientNodeIds.set i src i.isLt
        clientHelloReceived := b.clientHelloReceived.set i true i.isLt
        helloQueue := q
        trace := trace } = b.live.register (b.row i).fd src := by
  ext c
  constructor
  · rintro ⟨j, hj, rfl⟩
    rw [row_registered]
    by_cases heq : i = j
    · rw [if_pos heq]
      exact .inr ⟨b.row i, row_mem_live hi, rfl, rfl⟩
    · rw [if_neg heq]
      exact .inl ⟨row_mem_live hj, fun hfd => heq (h.slot_eq hi hj hfd.symm)⟩
  · rintro (⟨⟨j, hj, rfl⟩, hne⟩ | ⟨c₀, ⟨j, hj, rfl⟩, hfd, rfl⟩)
    · refine ⟨j, hj, ?_⟩
      rw [row_registered, if_neg]
      rintro rfl
      exact hne rfl
    · have heq := h.slot_eq hj hi hfd
      subst heq
      exact ⟨j, hj, by rw [row_registered, if_pos rfl]⟩

theorem Greeting.shaped (g : Greeting b i src b') (h : Shaped b) (hi : b.clientSlotActive[i] = true) :
    Shaped b' := by
  cases g with
  | rejected _ removed => exact removed.shaped
  | registered _ free push done =>
    obtain ⟨q', hpush, hvalid, -⟩ := HelloQueue.push_spec h.queue src
    cases push.symm.trans hpush
    subst done
    refine ⟨?_, h.distinct, ?_, ?_, hvalid⟩
    · rw [live_registered h hi, h.sound.ncard_register]
      exact h.count
    · intro j hj
      have hne : i ≠ j := by
        rintro rfl
        cases hi.symm.trans hj
      rw [getElem_set_fin, if_neg hne]
      exact h.unused j hj
    · rw [live_registered h hi]
      exact h.sound.register free

/-! ## Reading -/

/-- What an event came to. -/
structure Served (b : TlsTcpBackend) (event : ServerEvent) (popped : Option NodeId) (b' : TlsTcpBackend) :
    Prop where
  shaped : Shaped b'
  refines : b.server.Step event ⟨popped, b'.trace⟩ b'.server

theorem Shaped.note (h : Shaped b) (x : BackendEffect) : Shaped (b.note x) :=
  ⟨h.count, h.distinct, h.unused, h.sound, h.queue⟩

theorem slotOf?_some (h : b.slotOf? fd = some i) :
    b.clientSlotActive[i] = true ∧ b.clientNet[i] = fd := by
  have hit := List.find?_some h
  simp only [Bool.and_eq_true, beq_iff_eq] at hit
  exact hit

theorem connected_iff : b.live.Connected fd ↔ ∃ i, b.slotOf? fd = some i := by
  constructor
  · rintro ⟨c, ⟨i, hi, rfl⟩, hfd⟩
    rw [← Option.isSome_iff_exists, slotOf?, List.find?_isSome]
    refine ⟨i, List.mem_finRange i, ?_⟩
    simp only [Bool.and_eq_true, beq_iff_eq]
    exact ⟨hi, hfd⟩
  · rintro ⟨i, hi⟩
    obtain ⟨hactive, hfd⟩ := slotOf?_some hi
    exact ⟨b.row i, row_mem_live hactive, hfd⟩

/-- Only a client that has said `HELLO` may send, and only from its node. -/
theorem Shaped.speaks_iff (h : Shaped b) (hgreets : b.live.Greets) (hi : b.clientSlotActive[i] = true) :
    b.live.Speaks (b.row i).fd src ↔
      b.clientHelloReceived[i] = true ∧ b.validateSourceId i src = true := by
  have hflag : b.clientHelloReceived[i] = true ↔ b.clientNodeIds[i] ≠ nodeIdInvalid :=
    hgreets _ (row_mem_live hi)
  unfold validateSourceId
  constructor
  · rintro ⟨c, ⟨j, hj, rfl⟩, hfd, hnode, hsrc⟩
    rw [h.slot_eq hj hi hfd] at hnode hsrc
    have hnode' : b.clientNodeIds[i] ≠ nodeIdInvalid := hnode
    simp only [if_neg hnode', beq_iff_eq]
    exact ⟨hflag.mpr hnode, hsrc.symm⟩
  · rintro ⟨hello, hvalid⟩
    simp only [if_neg (hflag.mp hello), beq_iff_eq] at hvalid
    exact ⟨b.row i, row_mem_live hi, rfl, hflag.mp hello, hvalid.symm⟩

theorem classify_data (hi : b.clientSlotActive[i] = true) {env : MessageEnvelope}
    (hdata : env.messageType ≠ .hello) :
    b.classifyInboundFrame i env =
      .ok (if b.clientHelloReceived[i] then .ok else .errInvalid, b) := by
  unfold classifyInboundFrame
  simp only [neverCompiledOutAssert, ensure_pos hi, ok_bind, if_neg hdata]
  cases b.clientHelloReceived[i] with
  | true => rfl
  | false => rfl

theorem applyInboundImpairment_ok {env : MessageEnvelope} {nowUs : UInt64}
    {queued : Option MessageEnvelope} {inbox : Inbox}
    (h : b.inbox.applyInboundImpairment .tlsApplyInboundImpairment env nowUs = .ok (queued, inbox)) :
    b.applyInboundImpairment fd env nowUs =
      .ok { b with inbox, trace := b.trace ++ queued.toList.map (.queued fd) } := by
  unfold applyInboundImpairment
  rw [h, ok_bind]
  cases queued with
  | none => simp
  | some out => rfl

theorem applyInboundImpairment_error {env : MessageEnvelope} {nowUs : UInt64} {f : Fault}
    (h : b.inbox.applyInboundImpairment .tlsApplyInboundImpairment env nowUs = .error f) :
    b.applyInboundImpairment fd env nowUs = .error f := by
  unfold applyInboundImpairment
  rw [h, error_bind]

theorem dispatch_refused (h : Shaped b) (hgreets : b.live.Greets) (hi : b.clientSlotActive[i] = true)
    {env : MessageEnvelope} (hdata : env.messageType ≠ .hello) (nowUs : UInt64)
    (hmute : ¬ b.live.Speaks (b.row i).fd env.sourceId) :
    b.dispatch i env nowUs = .ok (.errInvalid, b) := by
  unfold dispatch
  simp only [classify_data hi hdata, ok_bind]
  cases hello : b.clientHelloReceived[i] with
  | false => rfl
  | true =>
    have hvalid : b.validateSourceId i env.sourceId = false := by
      rw [← Bool.not_eq_true]
      exact fun hv => hmute ((h.speaks_iff hgreets hi).mpr ⟨hello, hv⟩)
    simp [hvalid]

theorem dispatch_forwarded (h : Shaped b) (hgreets : b.live.Greets) (hi : b.clientSlotActive[i] = true)
    {env : MessageEnvelope} (hdata : env.messageType ≠ .hello) (nowUs : UInt64)
    (hspeaks : b.live.Speaks (b.row i).fd env.sourceId) :
    b.dispatch i env nowUs =
      ((b.note (.forwarded (b.row i).fd env)).applyInboundImpairment (b.row i).fd env nowUs >>=
        fun b => .ok (.ok, b)) := by
  obtain ⟨hello, hvalid⟩ := (h.speaks_iff hgreets hi).mp hspeaks
  unfold dispatch
  simp only [classify_data hi hdata, ok_bind, hello, if_true, hvalid]
  rfl

/-- A `HELLO`, as the server without its arrays sees it. -/
theorem Greeting.served {read : Read} {env : MessageEnvelope} (h : Shaped b)
    (hi : b.clientSlotActive[i] = true) (hfd : b.clientNet[i] = fd) (harrived : read.message? = some env)
    (hello : env.messageType = .hello) (htrace : b.trace = [])
    (g : Greeting (b.note (.received fd env)) i env.sourceId b') :
    Served b (.receive fd read) none b' := by
  have hrowfd : (b.row i).fd = fd := hfd
  have hconnected : b.live.Connected fd := ⟨b.row i, row_mem_live hi, hfd⟩
  refine ⟨g.shaped (h.note _) hi, ?_⟩
  cases g with
  | rejected taken removed =>
    have htaken : b.live.Greeted fd ∨ b.live.Claimed fd env.sourceId := hrowfd ▸ taken
    have hserver : b'.server = { b.server with live := b.live.close fd } := by
      rw [removed.rest.server, removed.live, ← hrowfd]
      rfl
    have hlog : b'.trace = [.received fd env, .closed fd] := by
      rw [removed.trace]
      show b.trace ++ [.received fd env] ++ [.closed (b.row i).fd] = _
      rw [htrace, hrowfd]
      rfl
    rw [hserver, hlog]
    exact .rejected hconnected harrived hello htaken
  | @registered q first free push done =>
    have hlive : b'.live = b.live.register fd env.sourceId := by
      rw [done, live_registered (h.note _) hi, ← hrowfd]
      rfl
    have hlog : b'.trace = [.received fd env, .registered fd env.sourceId] := by
      rw [done]
      show b.trace ++ [.received fd env] ++ [.registered (b.row i).fd env.sourceId] = _
      rw [htrace, hrowfd]
      rfl
    have hserver : b'.server =
        { b.server with live := b.live.register fd env.sourceId, helloQueue := q } := by
      rw [← hlive, done]
      rfl
    rw [hserver, hlog]
    exact .registered hconnected harrived hello (hrowfd ▸ first) (hrowfd ▸ free) push

/-- A message that is not a `HELLO`, as the server without its arrays sees it. -/
theorem dispatch_served {read : Read} {env : MessageEnvelope} (h : Shaped b) (hgreets : b.live.Greets)
    (hi : b.clientSlotActive[i] = true) (hfd : b.clientNet[i] = fd) (harrived : read.message? = some env)
    (hdata : env.messageType ≠ .hello) (htrace : b.trace = []) :
    (∃ res b', (b.note (.received fd env)).dispatch i env read.nowUs = .ok (res, b') ∧
      Served b (.receive fd read) none b') ∨
    ((∃ f, (b.note (.received fd env)).dispatch i env read.nowUs = .error f) ∧
      b.server.Stuck (.receive fd read)) := by
  have hrowfd : ((b.note (.received fd env)).row i).fd = fd := hfd
  have hconnected : b.live.Connected fd := ⟨b.row i, row_mem_live hi, hfd⟩
  by_cases hspeaks : b.live.Speaks fd env.sourceId
  case neg =>
    have hmute : ¬ (b.note (.received fd env)).live.Speaks ((b.note (.received fd env)).row i).fd
        env.sourceId := hrowfd.symm ▸ hspeaks
    refine .inl ⟨_, _, dispatch_refused (h.note _) hgreets hi hdata _ hmute, h.note _, ?_⟩
    rw [show (b.note (.received fd env)).trace = [.received fd env] by simp [note, htrace]]
    exact .refused hconnected harrived hdata hspeaks
  case pos =>
    have hspeaks' : (b.note (.received fd env)).live.Speaks ((b.note (.received fd env)).row i).fd
        env.sourceId := hrowfd.symm ▸ hspeaks
    rw [dispatch_forwarded (h.note _) hgreets hi hdata _ hspeaks', hrowfd]
    cases hinbound : b.inbox.applyInboundImpairment .tlsApplyInboundImpairment env read.nowUs with
    | error f =>
      have hrun : ((b.note (.received fd env)).note (.forwarded fd env)).applyInboundImpairment fd env
          read.nowUs = .error f := applyInboundImpairment_error hinbound
      refine .inr ⟨⟨f, by rw [hrun, error_bind]⟩, env, harrived, hdata, hconnected, hspeaks, ?_⟩
      intro site r hok
      cases (Inbox.applyInboundImpairment_site .tlsApplyInboundImpairment hok).symm.trans hinbound
    | ok r =>
      obtain ⟨queued, inbox⟩ := r
      have hrun : ((b.note (.received fd env)).note (.forwarded fd env)).applyInboundImpairment fd env
          read.nowUs = .ok _ := applyInboundImpairment_ok hinbound
      rw [hrun, ok_bind]
      refine .inl ⟨_, _, rfl, ?_, ?_⟩
      · exact ⟨h.count, h.distinct, h.unused, h.sound, h.queue⟩
      · have hlog : (note (b.note (.received fd env)) (.forwarded fd env)).trace ++
            queued.toList.map (.queued fd) = Server.inboundEffects fd env queued := by
          simp [note, htrace, Server.inboundEffects]
        simp only [hlog]
        exact .forwarded hconnected harrived hdata hspeaks hinbound

/-- What comes of an attempt to read. -/
theorem recvFromClient_served (read : Read) (h : Shaped b) (hgreets : b.live.Greets)
    (hi : b.clientSlotActive[i] = true) (hfd : b.clientNet[i] = fd) (htrace : b.trace = []) :
    (∃ res b', b.recvFromClient i read = .ok (res, b') ∧ Served b (.receive fd read) none b') ∨
    ((∃ f, b.recvFromClient i read = .error f) ∧ b.server.Stuck (.receive fd read)) := by
  have hconnected : b.live.Connected fd := ⟨b.row i, row_mem_live hi, hfd⟩
  unfold recvFromClient
  cases hframe : read.frame with
  | none =>
    obtain ⟨b', hrun, hremoved⟩ := removeClient_spec h hi
    refine .inl ⟨_, b', by rw [hrun]; rfl, hremoved.shaped, ?_⟩
    rw [hremoved.rest.server, hremoved.live, hremoved.trace, htrace, show (b.row i).fd = fd from hfd]
    exact .failed hconnected hframe
  | some frame =>
    obtain ⟨reply, hreply⟩ := frame.deserialize_total
    simp only [hreply, ok_bind]
    cases reply with
    | error res =>
      have hgarbled : read.message? = none := by
        rw [Read.message?, hframe]
        simp only [Option.bind_some, Frame.message?, hreply]
      refine .inl ⟨res, b, rfl, h, ?_⟩
      rw [htrace]
      exact .malformed hconnected (by rw [hframe]; exact Option.some_ne_none _) hgarbled
    | ok env =>
      have harrived : read.message? = some env := by
        rw [Read.message?, hframe]
        simp only [Option.bind_some, Frame.message?, hreply]
      simp only [hfd]
      by_cases hello : env.messageType = .hello
      case neg => exact dispatch_served h hgreets hi hfd harrived hello htrace
      case pos =>
        obtain ⟨res, b', hrun, hnot, hgreeting⟩ := classify_hello (h.note (.received fd env)) hi hello
          (Read.message?_valid harrived).2.2
        refine .inl ⟨res, b', ?_, hgreeting.served h hi hfd harrived hello htrace⟩
        unfold dispatch
        simp only [hrun, ok_bind, ne_eq, hnot, not_false_eq_true, if_true, pure_eq_ok]

/-! ## Any event -/

/-- An event is a step of a server, or the inbound impairments stop it. -/
theorem exec_spec (h : Shaped b) (hgreets : b.live.Greets) (event : ServerEvent)
    (hfresh : b.server.Fresh event) :
    (∃ o b', exec event b = .ok (o, b') ∧ Shaped b' ∧ b.server.Step event o b'.server) ∨
    ((∃ f, exec event b = .error f) ∧ b.server.Stuck event) := by
  have hserved : (∃ popped b', run event { b with trace := [] } = .ok (popped, b') ∧
      Served { b with trace := [] } event popped b') ∨
      ((∃ f, run event { b with trace := [] } = .error f) ∧ b.server.Stuck event) := by
    have h₀ : Shaped { b with trace := [] } := ⟨h.count, h.distinct, h.unused, h.sound, h.queue⟩
    cases event with
    | accept fd os nowUs =>
      obtain ⟨b', hrun, hshaped, hrest, hcases⟩ := acceptAndHandshake_spec h₀ nowUs hfresh
      refine .inl ⟨none, b', by simp only [run, hrun, ok_bind, pure_eq_ok], hshaped, ?_⟩
      rcases hcases with ⟨rfl, hfull⟩ | ⟨hroom, hopen, hlive, htrace⟩
      · exact .declined hfull
      · rw [hrest.server, hlive, htrace]
        exact .accepted hopen hroom
    | receive fd read =>
      cases hslot : slotOf? { b with trace := [] } fd with
      | none =>
        refine .inl ⟨none, _, by simp only [run, hslot, pure_eq_ok], h₀, ?_⟩
        refine .absent fun hconnected => ?_
        obtain ⟨i, hi⟩ := connected_iff.mp hconnected
        cases hslot.symm.trans hi
      | some i =>
        obtain ⟨hi, hfd⟩ := slotOf?_some hslot
        rcases recvFromClient_served read h₀ hgreets hi hfd rfl with
          ⟨res, b', hrun, hserved⟩ | ⟨⟨f, hrun⟩, hstuck⟩
        · exact .inl ⟨none, b', by simp only [run, hslot, hrun, ok_bind, pure_eq_ok], hserved⟩
        · exact .inr ⟨⟨f, by simp only [run, hslot, hrun, error_bind]⟩, hstuck⟩
    | sweep nowUs =>
      obtain ⟨b', fds, hrun, hshaped, hrest, htrace, hlive, htimedOut⟩ := sweepHelloTimeouts_spec h₀ nowUs
      refine .inl ⟨none, b', by simp only [run, hrun, ok_bind, pure_eq_ok], hshaped, ?_⟩
      rw [hrest.server, hlive, htrace]
      exact .swept htimedOut
    | popHello =>
      obtain ⟨src, q', hpop, hvalid, -⟩ := HelloQueue.pop_spec h.queue .tlsPopHelloPeer
      refine .inl ⟨some src, { b with trace := [], helloQueue := q' }, ?_, ?_, .popped hpop⟩
      · simp only [run, popHelloPeer, hpop, ok_bind, pure_eq_ok]
      · exact ⟨h.count, h.distinct, h.unused, h.sound, hvalid⟩
    | popMessage =>
      cases hpop : b.inbox.recvQueue.pop with
      | error f =>
        refine .inr ⟨⟨f, by simp only [run, hpop, error_bind]⟩, fun r hok => ?_⟩
        cases hpop.symm.trans hok
      | ok r =>
        obtain ⟨reply, recvQueue⟩ := r
        refine .inl ⟨none, { b with trace := [], inbox := { b.inbox with recvQueue } }, ?_, ?_,
          .taken hpop⟩
        · simp only [run, hpop, ok_bind, pure_eq_ok]
        · exact ⟨h.count, h.distinct, h.unused, h.sound, h.queue⟩
  rcases hserved with ⟨popped, b', hrun, hserved⟩ | ⟨⟨f, hrun⟩, hstuck⟩
  · exact .inl ⟨_, b', by simp only [exec, hrun, ok_bind, pure_eq_ok], hserved.shaped, hserved.refines⟩
  · exact .inr ⟨⟨f, by simp only [exec, hrun, error_bind]⟩, hstuck⟩

/-! ## Runs -/

/-- `accept` does not answer a descriptor that is still open. -/
def FreshAccept (b : TlsTcpBackend) : ServerEvent → Prop
  | .accept fd _ _ => b.slotOf? fd = none
  | _ => True

instance (b : TlsTcpBackend) (event : ServerEvent) : Decidable (b.FreshAccept event) :=
  match event with
  | .accept fd _ _ => inferInstanceAs (Decidable (b.slotOf? fd = none))
  | .receive .. | .sweep _ | .popHello | .popMessage => .isTrue trivial

theorem FreshAccept.server {event : ServerEvent} (h : b.FreshAccept event) : b.server.Fresh event := by
  cases event with
  | accept fd os nowUs =>
    intro hconnected
    obtain ⟨i, hi⟩ := connected_iff.mp hconnected
    cases h.symm.trans hi
  | receive | sweep | popHello | popMessage => trivial

/-- What holds of a server in every run. -/
structure WellFormed (b : TlsTcpBackend) : Prop where
  shaped : Shaped b
  greets : b.live.Greets

theorem active_init (recvTimeoutMs : UInt32) (impairment : ImpairmentEngine) (i : Fin maxTcpConnections) :
    (init recvTimeoutMs impairment).clientSlotActive[i] = false := by
  simp [init]

theorem live_init (recvTimeoutMs : UInt32) (impairment : ImpairmentEngine) :
    (init recvTimeoutMs impairment).live = ∅ := by
  ext c
  constructor
  · rintro ⟨i, hi, -⟩
    cases (active_init _ _ i).symm.trans hi
  · exact fun hc => hc.elim

theorem WellFormed.init (recvTimeoutMs : UInt32) (impairment : ImpairmentEngine) :
    WellFormed (init recvTimeoutMs impairment) := by
  refine ⟨⟨?_, ?_, ?_, ?_, HelloQueue.Valid.init⟩, ?_⟩
  · rw [live_init, Set.ncard_empty]
    rfl
  · intro i j hi
    cases (active_init _ _ i).symm.trans hi
  · intro i _
    simp [TlsTcpBackend.init]
  · rw [live_init]
    exact ⟨fun _ hc => hc.elim, fun _ hc => hc.elim, fun _ hc => hc.elim⟩
  · rw [live_init]
    exact fun _ hc => hc.elim

/-- An event that returns is a step. -/
theorem WellFormed.exec {event : ServerEvent} {o : ServerObservation} (h : WellFormed b)
    (hfresh : b.server.Fresh event) (hrun : exec event b = .ok (o, b')) :
    WellFormed b' ∧ b.server.Step event o b'.server := by
  rcases exec_spec h.shaped h.greets event hfresh with ⟨o₁, b₁, hrun₁, hshaped, hstep⟩ | ⟨⟨f, hfail⟩, -⟩
  · cases hrun₁.symm.trans hrun
    exact ⟨⟨hshaped, hstep.greets h.greets⟩, hstep⟩
  · cases hfail.symm.trans hrun

end TlsTcpBackend

end MessageEngine
