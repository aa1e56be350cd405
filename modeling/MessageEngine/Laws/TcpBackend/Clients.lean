import MessageEngine.Laws.TcpBackend.Table
import MessageEngine.Laws.Backend.Inbox

/-!
# The client table of TcpBackend as a list

Taking a client out shifts those behind it, so their order stays: the rows in front of the count, read as
a list, lose one element. Unlike `Table`, this asks nothing of the rows behind the count and of the
counters, only that the descriptors in front are open and distinct.

## What is proved

- `removeClientFd_clients`: the list without the client that was closed;
- `sweeps`: the loop of the sweep, which has no counter of rounds, comes to its end;
- `sweepHelloTimeouts_filters`: what it leaves is the list without the clients that were silent for too
  long, and those are what it closed.
-/

namespace MessageEngine

open Outcome Table

namespace TcpBackend

variable {b b' : TcpBackend} {fd : Int} {nowUs timeoutUs : UInt64} {i : Nat}

/-- The clients in the table, in order. -/
def clients (b : TcpBackend) : List Client := (List.ofFn b.row).take b.clientCount

/-- The clients have open descriptors, each its own. -/
structure Listed (b : TcpBackend) : Prop where
  count : b.clientCount ≤ maxTcpConnections
  opened : ∀ c ∈ b.clients, c.fd ≥ 0
  distinct : (b.clients.map Client.fd).Nodup

/-- A server whose clients have open descriptors, each its own. -/
structure Keyed (b : TcpBackend) : Prop where
  server : b.isServer = true
  count : b.clientCount ≤ maxTcpConnections
  opened : ∀ c ∈ b.clients, c.fd ≥ 0
  distinct : (b.clients.map Client.fd).Nodup

theorem Keyed.listed (h : Keyed b) : Listed b := ⟨h.count, h.opened, h.distinct⟩

/-- The loop of `sweep_hello_timeouts` from slot `i` on, as the source has it: without a bound on its
rounds. -/
inductive Sweeps (nowUs timeoutUs : UInt64) : Nat → TcpBackend → TcpBackend → Prop where
  | done {i : Nat} {b : TcpBackend} (ended : ¬ i < b.clientCount) : Sweeps nowUs timeoutUs i b b
  | next {i : Nat} {b b' : TcpBackend} (hi : i < maxTcpConnections) (more : i < b.clientCount)
      (fresh : ¬ Registry.TimedOut timeoutUs nowUs (b.row ⟨i, hi⟩))
      (rest : Sweeps nowUs timeoutUs (i + 1) b b') : Sweeps nowUs timeoutUs i b b'
  | evict {i : Nat} {b b₁ b' : TcpBackend} (hi : i < maxTcpConnections) (more : i < b.clientCount)
      (silent : Registry.TimedOut timeoutUs nowUs (b.row ⟨i, hi⟩))
      (closed : b.closeAndEvictSlot (b.row ⟨i, hi⟩).fd = .ok b₁)
      (rest : Sweeps nowUs timeoutUs i b₁ b') : Sweeps nowUs timeoutUs i b b'

/-! ## Reading the list -/

theorem length_clients (hcount : b.clientCount ≤ maxTcpConnections) :
    b.clients.length = b.clientCount := by
  rw [clients, List.length_take, List.length_ofFn, Nat.min_eq_left hcount]

theorem getElem_clients (hi : i < b.clients.length) (hbound : i < maxTcpConnections) :
    b.clients[i] = b.row ⟨i, hbound⟩ := by
  simp only [clients, List.getElem_take, List.getElem_ofFn]

theorem row_mem_clients {j : Fin maxTcpConnections} (hj : j.val < b.clientCount)
    (hcount : b.clientCount ≤ maxTcpConnections) : b.row j ∈ b.clients := by
  have hlt : j.val < b.clients.length := (length_clients hcount).symm ▸ hj
  rw [← getElem_clients hlt j.isLt]
  exact List.getElem_mem hlt

/-- Clients on one descriptor are in one slot. -/
theorem Listed.slot_eq (h : Listed b) {j k : Fin maxTcpConnections} (hj : j.val < b.clientCount)
    (hk : k.val < b.clientCount) (heq : (b.row j).fd = (b.row k).fd) : j = k := by
  have hlen := length_clients h.count
  have hj' : j.val < (b.clients.map Client.fd).length := by rw [List.length_map, hlen]; exact hj
  have hk' : k.val < (b.clients.map Client.fd).length := by rw [List.length_map, hlen]; exact hk
  have hfds : (b.clients.map Client.fd)[j.val] = (b.clients.map Client.fd)[k.val] := by
    rw [List.getElem_map, List.getElem_map, getElem_clients _ j.isLt, getElem_clients _ k.isLt]
    exact heq
  exact Fin.ext ((h.distinct.getElem_inj_iff).mp hfds)

/-! ## Taking a client out -/

/-- The client in slot `i` was closed and taken out. -/
structure Erased (b : TcpBackend) (i : Nat) (b' : TcpBackend) : Prop where
  clients : b'.clients = b.clients.eraseIdx i
  count : b'.clientCount = b.clientCount - 1
  isServer : b'.isServer = b.isServer
  trace : ∀ hi : i < maxTcpConnections, b'.trace = b.trace ++ [.closed (b.row ⟨i, hi⟩).fd]

theorem compact_clients (hi : i < b.clientCount) (hcount : b.clientCount ≤ maxTcpConnections) :
    ∃ b', b.compact i = .ok b' ∧ b'.clients = b.clients.eraseIdx i ∧
      b'.clientCount = b.clientCount - 1 ∧ b'.isServer = b.isServer ∧ b'.trace = b.trace := by
  have hbound : b.clientCount - 1 < maxTcpConnections := by omega
  unfold compact
  rw [dif_pos hbound]
  refine ⟨_, rfl, ?_, rfl, rfl, rfl⟩
  generalize hres : TcpBackend.mk _ _ _ _ _ _ _ _ _ _ _ _ _ = b'
  have hcount' : b'.clientCount = b.clientCount - 1 := by rw [← hres]
  have hrow (j k : Fin maxTcpConnections) (hj : j.val + 1 < b.clientCount)
      (hk : k.val = Compact.skip i j) : b'.row j = b.row k := by
    have hkeq : k = ⟨Compact.skip i j, by have := Compact.skip_lt (i := i) hj; omega⟩ := Fin.ext hk
    rw [← hres, row, hkeq]
    simp only [getElem_compact (i := ⟨i, by omega⟩) _ _ hi hcount, dif_pos hj]
    rfl
  apply List.ext_getElem
  · rw [length_clients (by omega), List.length_eraseIdx_of_lt (by rw [length_clients hcount]; exact hi),
      length_clients hcount, hcount']
  · intro j hj hj'
    have hlt : j + 1 < b.clientCount := by rw [length_clients (by omega)] at hj; omega
    have hskip := Compact.skip_lt (i := i) hlt
    rw [getElem_clients hj (by omega), List.getElem_eraseIdx, hrow ⟨j, by omega⟩ ⟨Compact.skip i j, by omega⟩ hlt rfl]
    by_cases hji : j < i
    · rw [dif_pos hji, getElem_clients _ (by omega)]
      congr 2
      exact if_pos hji
    · rw [dif_neg hji, getElem_clients _ (by omega)]
      congr 2
      exact if_neg hji

/-- The search for a descriptor stops at its client, whatever the rows behind the count hold. -/
theorem Listed.firstSlot? (h : Listed b) {j : Fin maxTcpConnections} (hj : j.val < b.clientCount) :
    Table.firstSlot? (· == (b.row j).fd) b.clientFds = some j := by
  obtain ⟨k, hk⟩ := Table.firstSlot?_isSome (p := (· == (b.row j).fd)) (v := b.clientFds) (i := j)
    (beq_self_eq_true _)
  have hfd : (b.row k).fd = (b.row j).fd := by
    have hit := Table.firstSlot?_some hk
    exact beq_iff_eq.mp hit
  have hlt : ¬ j < k := by
    intro hlt
    have hmiss := Table.firstSlot?_before hk hlt
    exact absurd hmiss (by simp [row])
  have hkcount : k.val < b.clientCount := by omega
  rw [hk, h.slot_eq hkcount hj hfd]

theorem removeClientFd_clients (h : Listed b) (hbound : i < maxTcpConnections) (hi : i < b.clientCount) :
    ∃ b', b.removeClientFd (b.row ⟨i, hbound⟩).fd = .ok b' ∧ Erased b i b' := by
  have hopen : (b.row ⟨i, hbound⟩).fd ≥ 0 := h.opened _ (row_mem_clients hi h.count)
  have hpos : b.clientCount > 0 := Nat.lt_of_le_of_lt (Nat.zero_le i) hi
  obtain ⟨b', hcompact, hclients, hcount, hserver, htrace⟩ := compact_clients hi h.count
  have hless : b'.clientCount < maxTcpConnections := by
    have := h.count
    omega
  refine ⟨b'.note (.closed (b.row ⟨i, hbound⟩).fd), ?_, hclients, hcount, hserver, fun _ => ?_⟩
  · unfold removeClientFd
    simp only [neverCompiledOutAssert, ensure_pos hopen, ensure_pos hpos, ok_bind,
      h.firstSlot? (j := ⟨i, hbound⟩) hi, hcompact, ensure_pos hless, pure_eq_ok]
  · rw [note, htrace]

theorem closeAndEvictSlot_clients (h : Listed b) (hbound : i < maxTcpConnections) (hi : i < b.clientCount) :
    ∃ b', b.closeAndEvictSlot (b.row ⟨i, hbound⟩).fd = .ok b' ∧ Erased b i b' := by
  have hopen : (b.row ⟨i, hbound⟩).fd ≥ 0 := h.opened _ (row_mem_clients hi h.count)
  obtain ⟨b', hrun, herased⟩ := removeClientFd_clients h hbound hi
  have hcount' : b'.clientCount ≤ maxTcpConnections := by
    have := h.count
    have := herased.count
    omega
  refine ⟨b', ?_, herased⟩
  unfold closeAndEvictSlot
  simp only [neverCompiledOutAssert, ensure_pos hopen, ensure_pos h.count, ok_bind, hrun,
    ensure_pos hcount', pure_eq_ok]

theorem Listed.erased (h : Listed b) (herased : Erased b i b') : Listed b' where
  count := by
    have := h.count
    have := herased.count
    omega
  opened c hc := h.opened c (List.mem_of_mem_eraseIdx (herased.clients ▸ hc))
  distinct := by
    rw [herased.clients]
    exact h.distinct.sublist ((List.eraseIdx_sublist b.clients i).map Client.fd)

theorem Keyed.erased (h : Keyed b) (herased : Erased b i b') : Keyed b' :=
  have hlisted := h.listed.erased herased
  ⟨herased.isServer.trans h.server, hlisted.count, hlisted.opened, hlisted.distinct⟩

/-! ## Sweeping -/

/-- From slot `i` on, the clients that timed out are taken out, in order. The rounds that are left are
as many as the slots that are. -/
theorem sweepLoop_clients (rounds i : Nat) (h : Keyed b) (hrounds : b.clientCount ≤ i + rounds) :
    ∃ b', sweepHelloTimeouts.loop nowUs timeoutUs rounds i b = .ok b' ∧ Sweeps nowUs timeoutUs i b b' ∧
      b'.clients = b.clients.take i ++
        (b.clients.drop i).filter (fun c => ¬ Registry.TimedOut timeoutUs nowUs c) ∧
      b'.trace = b.trace ++
        ((b.clients.drop i).filter (Registry.TimedOut timeoutUs nowUs)).map (.closed ·.fd) := by
  have hlen := length_clients h.count
  induction rounds generalizing i b with
  | zero =>
    have hall : b.clients.length ≤ i := by omega
    refine ⟨b, rfl, .done (by omega), ?_, ?_⟩
    · rw [List.drop_of_length_le hall, List.take_of_length_le hall]
      exact (List.append_nil _).symm
    · rw [List.drop_of_length_le hall]
      exact (List.append_nil _).symm
  | succ rounds ih =>
    rw [sweepHelloTimeouts.loop]
    by_cases hmore : i < b.clientCount
    case neg =>
      have hall : b.clients.length ≤ i := by omega
      rw [if_neg hmore]
      refine ⟨b, rfl, .done hmore, ?_, ?_⟩
      · rw [List.drop_of_length_le hall, List.take_of_length_le hall]
        exact (List.append_nil _).symm
      · rw [List.drop_of_length_le hall]
        exact (List.append_nil _).symm
    case pos =>
      have hbound : i < maxTcpConnections := Nat.lt_of_lt_of_le hmore h.count
      have hlt : i < b.clients.length := hlen.symm ▸ hmore
      have hdrop : b.clients.drop i = b.row ⟨i, hbound⟩ :: b.clients.drop (i + 1) := by
        rw [List.drop_eq_getElem_cons hlt, getElem_clients hlt hbound]
      rw [if_pos hmore, dif_pos hbound, hdrop]
      by_cases htimed : Registry.TimedOut timeoutUs nowUs (b.row ⟨i, hbound⟩)
      · obtain ⟨b₁, hclose, herased⟩ := closeAndEvictSlot_clients h.listed hbound hmore
        have hkeyed := h.erased herased
        have hcount := herased.count
        obtain ⟨b', hloop, hsweeps, hclients, htrace⟩ :=
          ih i hkeyed (by omega) (length_clients hkeyed.count)
        have hcond : b.clientHelloReceived[i] = false ∧ b.clientAcceptTs[i] ≠ 0 ∧
            nowUs - b.clientAcceptTs[i] > timeoutUs := htimed
        have htake : b₁.clients.take i = b.clients.take i := by
          rw [herased.clients, List.eraseIdx_eq_take_drop_succ, List.take_append_of_le_length,
            List.take_take, Nat.min_self]
          rw [List.length_take]
          omega
        have hrest : b₁.clients.drop i = b.clients.drop (i + 1) := by
          have hfront : (b.clients.take i).length = i := by rw [List.length_take]; omega
          rw [herased.clients, List.eraseIdx_eq_take_drop_succ, List.drop_append_of_le_length (by omega),
            List.drop_of_length_le (by omega), List.nil_append]
        refine ⟨b', ?_, .evict hbound hmore htimed hclose hsweeps, ?_, ?_⟩
        · rw [if_pos hcond, show b.clientFds[i] = (b.row ⟨i, hbound⟩).fd from rfl, hclose, ok_bind]
          exact hloop
        · rw [hclients, htake, hrest, List.filter_cons_of_neg (by simpa using htimed)]
        · rw [htrace, herased.trace hbound, hrest, List.filter_cons_of_pos (by simpa using htimed),
            List.map_cons, List.append_assoc, List.singleton_append]
      · obtain ⟨b', hloop, hsweeps, hclients, htrace⟩ := ih (i + 1) h (by omega) hlen
        have hcond : ¬ (b.clientHelloReceived[i] = false ∧ b.clientAcceptTs[i] ≠ 0 ∧
            nowUs - b.clientAcceptTs[i] > timeoutUs) := htimed
        refine ⟨b', ?_, .next hbound hmore htimed hsweeps, ?_, ?_⟩
        · rw [if_neg hcond]
          exact hloop
        · rw [hclients, List.take_add_one, List.getElem?_eq_getElem hlt, getElem_clients hlt hbound,
            List.filter_cons_of_pos (by simpa using htimed), Option.toList_some, List.append_assoc,
            List.singleton_append]
        · rw [htrace, List.filter_cons_of_neg (by simpa using htimed)]

/-- The client has not said `HELLO` and was accepted more than the timeout ago, on a clock that does
not wrap. -/
def Silent (b : TcpBackend) (nowUs : UInt64) (c : Client) : Prop :=
  c.helloReceived = false ∧ c.acceptTs ≠ 0 ∧
    b.recvTimeoutMs.toNat * 1000 < nowUs.toNat - c.acceptTs.toNat

instance (b : TcpBackend) (nowUs : UInt64) (c : Client) : Decidable (b.Silent nowUs c) :=
  inferInstanceAs (Decidable (_ ∧ _ ∧ _))

theorem timedOut_iff_silent {c : Client} (hpast : c.acceptTs ≤ nowUs) :
    Registry.TimedOut (b.recvTimeoutMs.toUInt64 * 1000) nowUs c ↔ b.Silent nowUs c := by
  have hms := b.recvTimeoutMs.toNat_lt
  have htimeout : (b.recvTimeoutMs.toUInt64 * 1000).toNat = b.recvTimeoutMs.toNat * 1000 := by
    rw [UInt64.toNat_mul, UInt32.toNat_toUInt64]
    exact Nat.mod_eq_of_lt (by simp only [UInt64.reduceToNat]; omega)
  unfold Registry.TimedOut Silent
  rw [gt_iff_lt, UInt64.lt_iff_toNat_lt, htimeout, UInt64.toNat_sub_of_le _ _ hpast]

/-- A sweep comes to its end, closes the silent clients, each once, and leaves the others in order. -/
theorem sweepHelloTimeouts_filters (h : Keyed b) (hpast : ∀ c ∈ b.clients, c.acceptTs ≤ nowUs) :
    ∃ b', b.sweepHelloTimeouts nowUs = .ok b' ∧
      Sweeps nowUs (b.recvTimeoutMs.toUInt64 * 1000) 0 b b' ∧
      b'.trace = b.trace ++ (b.clients.filter (b.Silent nowUs)).map (.closed ·.fd) ∧
      ((b.clients.filter (b.Silent nowUs)).map Client.fd).Nodup ∧
      b'.clients = b.clients.filter (fun c => ¬ b.Silent nowUs c) := by
  obtain ⟨b', hloop, hsweeps, hclients, htrace⟩ :=
    @sweepLoop_clients b nowUs (b.recvTimeoutMs.toUInt64 * 1000) b.clientCount 0 h
      (Nat.le_add_left _ _)
  have hgone : b.clients.filter (Registry.TimedOut (b.recvTimeoutMs.toUInt64 * 1000) nowUs) =
      b.clients.filter (b.Silent nowUs) :=
    List.filter_congr fun c hc => decide_eq_decide.mpr (timedOut_iff_silent (hpast c hc))
  have hkept : b.clients.filter (fun c => ¬ Registry.TimedOut (b.recvTimeoutMs.toUInt64 * 1000) nowUs c) =
      b.clients.filter (fun c => ¬ b.Silent nowUs c) :=
    List.filter_congr fun c hc => decide_eq_decide.mpr (not_congr (timedOut_iff_silent (hpast c hc)))
  rw [List.drop_zero] at hclients htrace
  refine ⟨b', ?_, hsweeps, hgone ▸ htrace, h.distinct.sublist (List.filter_sublist.map _), ?_⟩
  · unfold sweepHelloTimeouts
    simp only [neverCompiledOutAssert, ensure_pos h.server, ensure_pos h.count, ok_bind]
    exact hloop
  · rw [hclients, hkept]
    rfl

/-- Three clients with a timeout of one millisecond. The third has said `HELLO`. -/
def waitingRoom : TcpBackend :=
  { init 1 .calm with
    clientFds := #v[10, 11, 12, -1, -1, -1, -1, -1]
    clientHelloReceived := #v[false, false, true, false, false, false, false, false]
    clientAcceptTs := #v[10, 4500, 20, 0, 0, 0, 0, 0]
    clientCount := 3 }

theorem waitingRoom_swept : ∃ b', waitingRoom.sweepHelloTimeouts 5000 = .ok b' ∧
    b'.trace = [.closed 10] ∧ b'.clients.map Client.fd = [11, 12] := by
  have keyed : Keyed waitingRoom := ⟨rfl, by decide, by decide +kernel, by decide +kernel⟩
  have hpast : ∀ c ∈ waitingRoom.clients, c.acceptTs ≤ (5000 : UInt64) := by decide +kernel
  obtain ⟨b', hrun, -, htrace, -, hclients⟩ := sweepHelloTimeouts_filters keyed hpast
  have hsilent : waitingRoom.clients.filter (waitingRoom.Silent 5000) = [⟨10, 0, false, 10⟩] := by
    decide +kernel
  have hkept : (waitingRoom.clients.filter (fun c => ¬ waitingRoom.Silent 5000 c)).map Client.fd =
      [11, 12] := by decide +kernel
  rw [hsilent] at htrace
  exact ⟨b', hrun, htrace, hclients ▸ hkept⟩

end TcpBackend

end MessageEngine
