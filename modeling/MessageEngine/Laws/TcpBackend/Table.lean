import MessageEngine.Core.TcpBackend
import MessageEngine.Laws.Backend.Registry

/-!
# The client table of TcpBackend

The four arrays are read row by row, and the rows in front of the count as a set of clients. Taking
a client out renumbers those behind it (`Removed.rows`), but as a set the others stay as they are
(`Removed.live`).

## What is proved

- `acceptClients_spec`, `removeClientFd_spec`: adding and taking out a client;
- `sweepHelloTimeouts_spec`: the sweep takes out the clients that were silent for too long, and no
  others.
-/

namespace MessageEngine

open Outcome Table

namespace TcpBackend

variable {b b' : TcpBackend} {fd : Int} {i : Fin maxTcpConnections}

/-- One row of the four arrays. -/
def row (b : TcpBackend) (i : Fin maxTcpConnections) : Client :=
  ⟨b.clientFds[i], b.clientNodeIds[i], b.clientHelloReceived[i], b.clientAcceptTs[i]⟩

/-- The clients in the table. -/
def live (b : TcpBackend) : Registry :=
  {c | ∃ i : Fin maxTcpConnections, i.val < b.clientCount ∧ b.row i = c}

/-- The table is compact, and its clients can be told apart. -/
structure Shaped (b : TcpBackend) : Prop where
  server : b.isServer = true
  count : b.clientCount ≤ maxTcpConnections
  distinct : ∀ i j : Fin maxTcpConnections, i.val < b.clientCount → j.val < b.clientCount →
    b.clientFds[i] = b.clientFds[j] → i = j
  unused : ∀ i : Fin maxTcpConnections, b.clientCount ≤ i.val →
    b.clientFds[i] = -1 ∧ b.clientNodeIds[i] = nodeIdInvalid
  sound : Registry.Sound b.live
  counters : b.connectionsOpened - b.connectionsClosed = .ofNat b.clientCount

/-- Apart from the table, its counters and the trace nothing changed. -/
structure SameRest (b b' : TcpBackend) : Prop where
  isServer : b'.isServer = b.isServer
  recvTimeoutMs : b'.recvTimeoutMs = b.recvTimeoutMs
  inbox : b'.inbox = b.inbox

theorem row_mem_live (hi : i.val < b.clientCount) : b.row i ∈ b.live := ⟨i, hi, rfl⟩

/-- Clients on one descriptor are in one slot. -/
theorem Shaped.slot_eq (h : Shaped b) {j : Fin maxTcpConnections} (hi : i.val < b.clientCount)
    (hj : j.val < b.clientCount) (heq : (b.row i).fd = (b.row j).fd) : i = j :=
  h.distinct i j hi hj heq

theorem live_congr (hcount : b'.clientCount = b.clientCount) (hrow : ∀ i, b'.row i = b.row i) :
    b'.live = b.live := by
  ext c
  simp only [live, Set.mem_ofPred_eq, hcount, hrow]

/-! ## Searches -/

theorem liveSlot?_some {p : Fin maxTcpConnections → Bool} (h : b.liveSlot? p = some i) :
    i.val < b.clientCount ∧ p i = true := by
  have hit := List.find?_some h
  simp only [Bool.and_eq_true, decide_eq_true_eq] at hit
  exact hit

theorem liveSlot?_none {p : Fin maxTcpConnections → Bool} (h : b.liveSlot? p = none)
    (hi : i.val < b.clientCount) : p i = false := by
  have hmiss := List.find?_eq_none.mp h i (List.mem_finRange i)
  simp only [Bool.and_eq_true, decide_eq_true_eq, not_and, Bool.not_eq_true] at hmiss
  exact hmiss hi

theorem slotOf?_some (h : b.slotOf? fd = some i) : i.val < b.clientCount ∧ b.clientFds[i] = fd := by
  obtain ⟨hlt, heq⟩ := liveSlot?_some h
  exact ⟨hlt, beq_iff_eq.mp heq⟩

theorem slotOf?_none (h : b.slotOf? fd = none) : ∀ c ∈ b.live, c.fd ≠ fd := by
  rintro c ⟨i, hi, rfl⟩ heq
  have hmiss := liveSlot?_none h hi
  simp only [beq_eq_false_iff_ne] at hmiss
  exact hmiss heq

/-- The search finds the slot of a live client. -/
theorem Shaped.slotOf?_eq (h : Shaped b) (hi : i.val < b.clientCount) (hfd : b.clientFds[i] = fd) :
    b.slotOf? fd = some i := by
  cases hs : b.slotOf? fd with
  | none => exact absurd hfd (slotOf?_none hs _ (row_mem_live hi))
  | some j =>
    obtain ⟨hj, hfdj⟩ := slotOf?_some hs
    rw [h.distinct i j hi hj (hfd.trans hfdj.symm)]

/-! ## Accepting -/

/-- Accepting adds a newcomer, or changes nothing: the table is full or no connection came. -/
theorem acceptClients_spec (h : Shaped b) (os : Nat → Round) (nowUs : UInt64)
    (hfresh : ∀ c ∈ b.live, c.fd ≠ fd) :
    ∃ b', b.acceptClients fd os nowUs = .ok b' ∧ Shaped b' ∧ SameRest b b' ∧
      b'.helloQueue = b.helloQueue ∧
      ((b' = b ∧ (fd < 0 ∨ b.clientCount = maxTcpConnections)) ∨
        (b.clientCount < maxTcpConnections ∧ 0 ≤ fd ∧
          b'.live = insert (Registry.newcomer fd nowUs) b.live ∧
          b'.trace = b.trace ++ [.accepted fd])) := by
  unfold acceptClients
  simp only [neverCompiledOutAssert, ensure_pos h.server, ok_bind]
  by_cases hroom : b.clientCount < maxTcpConnections
  case neg =>
    have hfull : b.clientCount = maxTcpConnections := by have := h.count; omega
    rw [dif_neg hroom]
    exact ⟨b, rfl, h, ⟨rfl, rfl, rfl⟩, rfl, .inl ⟨rfl, .inr hfull⟩⟩
  case pos =>
    rw [dif_pos hroom]
    by_cases hneg : fd < 0
    · rw [if_pos hneg]
      exact ⟨b, rfl, h, ⟨rfl, rfl, rfl⟩, rfl, .inl ⟨rfl, .inl hneg⟩⟩
    · rw [if_neg hneg]
      have hbound : b.clientCount + 1 ≤ maxTcpConnections := hroom
      simp only [ensure_pos hbound, ok_bind, pure_eq_ok]
      have hnew : b.clientNodeIds[b.clientCount] = nodeIdInvalid :=
        (h.unused ⟨b.clientCount, hroom⟩ (Nat.le_refl _)).2
      generalize hres : note _ _ = b'
      have hcount : b'.clientCount = b.clientCount + 1 := by rw [← hres]; rfl
      have hlast : b'.row ⟨b.clientCount, hroom⟩ = Registry.newcomer fd nowUs := by
        rw [← hres]
        simp [row, note, Registry.newcomer, hnew]
      have hold (i : Fin maxTcpConnections) (hi : i.val ≠ b.clientCount) : b'.row i = b.row i := by
        rw [← hres]
        simp [row, note, Vector.getElem_set_ne _ _ (Ne.symm hi)]
      have hlive : b'.live = insert (Registry.newcomer fd nowUs) b.live := by
        ext c
        constructor
        · rintro ⟨i, hi, rfl⟩
          by_cases heq : i.val = b.clientCount
          · left
            rw [← hlast]
            congr 1
            exact Fin.ext heq
          · right
            exact ⟨i, by omega, (hold i heq).symm⟩
        · rintro (rfl | ⟨i, hi, rfl⟩)
          · exact ⟨⟨b.clientCount, hroom⟩, by rw [hcount]; exact Nat.lt_succ_self _, hlast⟩
          · exact ⟨i, by omega, hold i (by omega)⟩
      refine ⟨b', rfl, ?_, ⟨by rw [← hres]; rfl, by rw [← hres]; rfl, by rw [← hres]; rfl⟩,
        by rw [← hres]; rfl, .inr ⟨hroom, by omega, hlive, by rw [← hres]; rfl⟩⟩
      refine ⟨?_, ?_, ?_, ?_, ?_, ?_⟩
      · rw [← hres]
        exact h.server
      · rw [hcount]
        exact hroom
      · intro i j hi hj heq
        have hrow : (b'.row i).fd = (b'.row j).fd := heq
        by_cases hi' : i.val = b.clientCount
        · by_cases hj' : j.val = b.clientCount
          · exact Fin.ext (hi'.trans hj'.symm)
          · rw [show i = ⟨b.clientCount, hroom⟩ from Fin.ext hi', hlast, hold j hj'] at hrow
            exact absurd hrow.symm (hfresh _ (row_mem_live (by omega)))
        · by_cases hj' : j.val = b.clientCount
          · rw [show j = ⟨b.clientCount, hroom⟩ from Fin.ext hj', hlast, hold i hi'] at hrow
            exact absurd hrow (hfresh _ (row_mem_live (by omega)))
          · rw [hold i hi', hold j hj'] at hrow
            exact h.slot_eq (by omega) (by omega) hrow
      · intro i hi
        have hne : i.val ≠ b.clientCount := by omega
        have hrow := hold i hne
        obtain ⟨hfd, hnode⟩ := h.unused i (by omega)
        exact ⟨(congrArg Client.fd hrow).trans hfd, (congrArg Client.nodeId hrow).trans hnode⟩
      · rw [hlive]
        exact h.sound.insert (by omega) hfresh
      · have hcounters := h.counters
        rw [hcount, UInt32.ofNat_add, ← hcounters, ← hres]
        show b.connectionsOpened + 1 - b.connectionsClosed = _
        rw [UInt32.sub_eq_add_neg, UInt32.sub_eq_add_neg, UInt32.add_assoc, UInt32.add_comm 1,
          ← UInt32.add_assoc]
        rfl

/-! ## Taking a client out -/

/-- The client in slot `i` was taken out. -/
structure Removed (b : TcpBackend) (i : Fin maxTcpConnections) (b' : TcpBackend) : Prop where
  count : b.clientCount = b'.clientCount + 1
  rows : ∀ j k : Fin maxTcpConnections, j.val < b'.clientCount → k.val = Compact.skip i j →
    b'.row j = b.row k
  live : b'.live = b.live.close (b.row i).fd
  shaped : Shaped b'
  rest : SameRest b b'
  helloQueue : b'.helloQueue = b.helloQueue
  trace : b'.trace = b.trace ++ [.closed (b.row i).fd]

/-- What shifting and clearing leaves in each array. -/
theorem getElem_compact {α : Type} (v : Vector α maxTcpConnections) (d : α) {count : Nat}
    (hi : i.val < count) (hcount : count ≤ maxTcpConnections) (j : Fin maxTcpConnections) :
    ((Compact.shiftLeft v i (count - 1 - i)).set (count - 1) d (by omega))[j] =
      if h : j.val + 1 < count then v.get ⟨Compact.skip i j, by have := Compact.skip_lt (i := i) h; omega⟩
      else if j.val + 1 = count then d else v[j] := by
  simp only [Table.getElem_fin, Vector.getElem_set]
  by_cases hlast : count - 1 = j.val
  · rw [if_pos hlast, dif_neg (by omega), if_pos (by omega)]
  · rw [if_neg hlast]
    by_cases hlt : j.val + 1 < count
    · rw [dif_pos hlt, Compact.getElem_shiftLeft_skip v hi hcount hlt]
    · have hout : ¬ (i.val ≤ j.val ∧ j.val < i.val + (count - 1 - i.val)) := by omega
      rw [dif_neg hlt, if_neg (by omega), Compact.getElem_shiftLeft v (by omega) j.isLt, dif_neg hout]

theorem compact_spec (h : Shaped b) (hi : i.val < b.clientCount) :
    ∃ b', b.compact i = .ok b' ∧ Removed b i (b'.note (.closed (b.row i).fd)) := by
  have hcount := h.count
  have hbound : b.clientCount - 1 < maxTcpConnections := by omega
  unfold compact
  rw [dif_pos hbound]
  refine ⟨_, rfl, ?_⟩
  generalize hres : note _ _ = b'
  have hcount' : b'.clientCount = b.clientCount - 1 := by rw [← hres]; rfl
  have hrow (j k : Fin maxTcpConnections) (hj : j.val < b'.clientCount)
      (hk : k.val = Compact.skip i j) : b'.row j = b.row k := by
    have hlt : j.val + 1 < b.clientCount := by omega
    have hkeq : k = ⟨Compact.skip i j, by have := Compact.skip_lt (i := i) hlt; omega⟩ := Fin.ext hk
    rw [← hres, row, hkeq]
    simp only [note, getElem_compact _ _ hi hcount, dif_pos hlt]
    rfl
  have hunused (j : Fin maxTcpConnections) (hj : b'.clientCount ≤ j.val) :
      (b'.row j).fd = -1 ∧ (b'.row j).nodeId = nodeIdInvalid := by
    have hlt : ¬ j.val + 1 < b.clientCount := by omega
    rw [← hres]
    simp only [row, note, getElem_compact _ _ hi hcount, dif_neg hlt]
    by_cases hlast : j.val + 1 = b.clientCount
    · rw [if_pos hlast, if_pos hlast]
      exact ⟨rfl, rfl⟩
    · rw [if_neg hlast, if_neg hlast]
      exact h.unused j (by omega)
  have hskip (j : Fin maxTcpConnections) (hj : j.val < b'.clientCount) :
      ∃ k : Fin maxTcpConnections, k.val = Compact.skip i j ∧ k.val < b.clientCount ∧ k ≠ i := by
    have hless : j.val + 1 < b.clientCount := by omega
    have hlt := Compact.skip_lt (i := i) hless
    exact ⟨⟨Compact.skip i j, by omega⟩, rfl, hlt, fun heq => Compact.skip_ne i j (congrArg Fin.val heq)⟩
  have hlive : b'.live = b.live.close (b.row i).fd := by
    ext c
    constructor
    · rintro ⟨j, hj, rfl⟩
      obtain ⟨k, hk, hlt, hne⟩ := hskip j hj
      rw [hrow j k hj hk]
      exact ⟨row_mem_live hlt, fun heq => hne (h.slot_eq hlt hi heq)⟩
    · rintro ⟨⟨k, hk, rfl⟩, hne⟩
      have hki : k.val ≠ i.val := fun heq => hne (by rw [Fin.ext heq])
      obtain ⟨j, hj, hskipj⟩ := Compact.exists_skip hi hk hki
      exact ⟨⟨j, by omega⟩, by simp only; omega, hrow ⟨j, by omega⟩ k (by simp only; omega) hskipj.symm⟩
  refine ⟨by omega, hrow, hlive, ?_, ?_, by rw [← hres]; rfl, by rw [← hres]; rfl⟩
  · refine ⟨by rw [← hres]; exact h.server, by omega, ?_, hunused, ?_, ?_⟩
    · intro j k hj hk heq
      obtain ⟨j', hj', hjlt, -⟩ := hskip j hj
      obtain ⟨k', hk', hklt, -⟩ := hskip k hk
      have hfd : (b'.row j).fd = (b'.row k).fd := heq
      rw [hrow j j' hj hj', hrow k k' hk hk'] at hfd
      have hval := congrArg Fin.val (h.slot_eq hjlt hklt hfd)
      exact Fin.ext (Compact.skip_inj (hj'.symm.trans (hval.trans hk')))
    · rw [hlive]
      exact h.sound.close _
    · have hcounters := h.counters
      rw [hcount', ← hres]
      show b.connectionsOpened - (b.connectionsClosed + 1) = _
      have hsplit : b.clientCount = b.clientCount - 1 + 1 := by omega
      rw [hsplit, UInt32.ofNat_add] at hcounters
      have hmove : b.connectionsOpened - (b.connectionsClosed + 1) =
          b.connectionsOpened - b.connectionsClosed - 1 := by
        rw [UInt32.sub_eq_add_neg, UInt32.neg_add, UInt32.sub_eq_add_neg, UInt32.sub_eq_add_neg,
          UInt32.sub_eq_add_neg, UInt32.add_assoc]
      rw [hmove, hcounters]
      exact UInt32.add_sub_cancel _ _
  · exact ⟨by rw [← hres]; rfl, by rw [← hres]; rfl, by rw [← hres]; rfl⟩

theorem removeClientFd_spec (h : Shaped b) (hi : i.val < b.clientCount) (hfd : b.clientFds[i] = fd) :
    ∃ b', b.removeClientFd fd = .ok b' ∧ Removed b i b' := by
  have hopen : fd ≥ 0 := hfd ▸ h.sound.opened _ (row_mem_live hi)
  have hfound : firstSlot? (· == fd) b.clientFds = some i := by
    refine firstSlot?_eq_some (beq_iff_eq.mpr hfd) ?_
    intro j hj
    have hfdj : b.clientFds[j] = fd := beq_iff_eq.mp hj
    by_cases hlt : j.val < b.clientCount
    · exact h.distinct j i hlt hi (hfdj.trans hfd.symm)
    · have hunused := (h.unused j (by omega)).1
      omega
  obtain ⟨b', hcompact, hremoved⟩ := compact_spec h hi
  have hcount : b'.clientCount < maxTcpConnections := by
    have hone : b.clientCount = b'.clientCount + 1 := hremoved.count
    have := h.count
    omega
  have hpos : b.clientCount > 0 := by omega
  rw [show (b.row i).fd = fd from hfd] at hremoved
  refine ⟨b'.note (.closed fd), ?_, hremoved⟩
  unfold removeClientFd
  simp only [neverCompiledOutAssert, ensure_pos hopen, ensure_pos hpos, ok_bind, hfound, hcompact,
    ensure_pos hcount, pure_eq_ok]

theorem closeAndEvictSlot_spec (h : Shaped b) (hi : i.val < b.clientCount) (hfd : b.clientFds[i] = fd) :
    ∃ b', b.closeAndEvictSlot fd = .ok b' ∧ Removed b i b' := by
  obtain ⟨b', hrun, hremoved⟩ := removeClientFd_spec h hi hfd
  have hopen : fd ≥ 0 := hfd ▸ h.sound.opened _ (row_mem_live hi)
  refine ⟨b', ?_, hremoved⟩
  unfold closeAndEvictSlot
  simp only [neverCompiledOutAssert, ensure_pos hopen, ensure_pos h.count, ok_bind, hrun,
    ensure_pos hremoved.shaped.count, pure_eq_ok]

/-! ## Sweeping -/

theorem SameRest.trans {b'' : TcpBackend} (h : SameRest b b') (h' : SameRest b' b'') : SameRest b b'' :=
  ⟨h'.isServer.trans h.isServer, h'.recvTimeoutMs.trans h.recvTimeoutMs, h'.inbox.trans h.inbox⟩

/-- What a sweep closes and what it leaves. -/
structure Swept (timeoutUs nowUs : UInt64) (b b' : TcpBackend) (fds : List Int) : Prop where
  shaped : Shaped b'
  rest : SameRest b b'
  helloQueue : b'.helloQueue = b.helloQueue
  trace : b'.trace = b.trace ++ fds.map .closed
  closes : Registry.Closes timeoutUs nowUs b.live fds b'.live
  done : ∀ c ∈ b'.live, ¬ Registry.TimedOut timeoutUs nowUs c

/-- When every slot was looked at, the sweep is over. -/
theorem Swept.nil {timeoutUs nowUs : UInt64} {i : Nat} (h : Shaped b) (hall : b.clientCount ≤ i)
    (hkept : ∀ j : Fin maxTcpConnections, j.val < i → j.val < b.clientCount →
      ¬ Registry.TimedOut timeoutUs nowUs (b.row j)) : Swept timeoutUs nowUs b b [] := by
  refine ⟨h, ⟨rfl, rfl, rfl⟩, rfl, by simp, .nil, ?_⟩
  rintro c ⟨j, hj, rfl⟩
  exact hkept j (by omega) hj

/-- A client that timed out is closed, and then the others are swept. -/
theorem Swept.cons {timeoutUs nowUs : UInt64} {b₁ : TcpBackend} {fds : List Int}
    (hi : i.val < b.clientCount) (htimed : Registry.TimedOut timeoutUs nowUs (b.row i))
    (removed : Removed b i b₁) (swept : Swept timeoutUs nowUs b₁ b' fds) :
    Swept timeoutUs nowUs b b' ((b.row i).fd :: fds) :=
  ⟨swept.shaped, removed.rest.trans swept.rest, swept.helloQueue.trans removed.helloQueue,
    by rw [swept.trace, removed.trace]; simp, .cons (row_mem_live hi) htimed (removed.live ▸ swept.closes),
    swept.done⟩

/-- The loop from slot `i` on, when the slots before it have been looked at. The rounds that are left
are as many as the slots that are. -/
theorem sweepLoop_spec (timeoutUs nowUs : UInt64) (rounds i : Nat) (h : Shaped b)
    (hrounds : b.clientCount ≤ i + rounds)
    (hkept : ∀ j : Fin maxTcpConnections, j.val < i → j.val < b.clientCount →
      ¬ Registry.TimedOut timeoutUs nowUs (b.row j)) :
    ∃ b' fds, sweepHelloTimeouts.loop nowUs timeoutUs rounds i b = .ok b' ∧
      Swept timeoutUs nowUs b b' fds := by
  induction rounds generalizing i b with
  | zero => exact ⟨b, [], rfl, .nil h (by omega) hkept⟩
  | succ rounds ih =>
    rw [sweepHelloTimeouts.loop]
    by_cases hmore : i < b.clientCount
    case neg =>
      rw [if_neg hmore]
      exact ⟨b, [], rfl, .nil h (by omega) hkept⟩
    case pos =>
      have hbound : i < maxTcpConnections := Nat.lt_of_lt_of_le hmore h.count
      rw [if_pos hmore, dif_pos hbound]
      by_cases htimed : Registry.TimedOut timeoutUs nowUs (b.row ⟨i, hbound⟩)
      · obtain ⟨b₁, hrun, hremoved⟩ := closeAndEvictSlot_spec (i := ⟨i, hbound⟩) h hmore rfl
        have hkept₁ (j : Fin maxTcpConnections) (hj : j.val < i) (hlt : j.val < b₁.clientCount) :
            ¬ Registry.TimedOut timeoutUs nowUs (b₁.row j) := by
          have hcount := hremoved.count
          rw [hremoved.rows j j hlt (by rw [Compact.skip, if_pos hj])]
          exact hkept j hj (by omega)
        have hcount := hremoved.count
        obtain ⟨b', fds, hloop, hswept⟩ := ih i hremoved.shaped (by omega) hkept₁
        refine ⟨b', _, ?_, .cons hmore htimed hremoved hswept⟩
        have hcond : b.clientHelloReceived[i] = false ∧ b.clientAcceptTs[i] ≠ 0 ∧
            nowUs - b.clientAcceptTs[i] > timeoutUs := htimed
        simp only [Table.getElem_fin] at hrun
        rw [if_pos hcond, hrun, ok_bind]
        exact hloop
      · have hkept₁ (j : Fin maxTcpConnections) (hj : j.val < i + 1) (hlt : j.val < b.clientCount) :
            ¬ Registry.TimedOut timeoutUs nowUs (b.row j) := by
          by_cases heq : j.val = i
          · rw [show j = ⟨i, hbound⟩ from Fin.ext heq]
            exact htimed
          · exact hkept j (by omega) hlt
        obtain ⟨b', fds, hloop, hswept⟩ := ih (i + 1) h (by omega) hkept₁
        refine ⟨b', fds, ?_, hswept⟩
        have hcond : ¬ (b.clientHelloReceived[i] = false ∧ b.clientAcceptTs[i] ≠ 0 ∧
            nowUs - b.clientAcceptTs[i] > timeoutUs) := htimed
        rw [if_neg hcond]
        exact hloop

theorem sweepHelloTimeouts_spec (h : Shaped b) (nowUs : UInt64) :
    ∃ b' fds, b.sweepHelloTimeouts nowUs = .ok b' ∧
      Swept (b.recvTimeoutMs.toUInt64 * 1000) nowUs b b' fds := by
  obtain ⟨b', fds, hloop, hswept⟩ := sweepLoop_spec (b.recvTimeoutMs.toUInt64 * 1000) nowUs b.clientCount
    0 h (by omega) (fun j hj => absurd hj (Nat.not_lt_zero _))
  refine ⟨b', fds, ?_, hswept⟩
  unfold sweepHelloTimeouts
  simp only [neverCompiledOutAssert, ensure_pos h.server, ensure_pos h.count, ok_bind]
  exact hloop

end TcpBackend

end MessageEngine
