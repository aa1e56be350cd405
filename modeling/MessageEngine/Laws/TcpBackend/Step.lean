import MessageEngine.Laws.TcpBackend.Table
import MessageEngine.Laws.Backend.Server

/-!
# One event of TcpBackend

What a server can do with a client's `HELLO` is said once (`Greeting`). One case is peculiar: when a
client claims another's node it is taken out of the table, the clients behind it move up, and then
the flag of the slot it used to have is set. That slot is the next client's now. `marksAnother` says
when this happens to a client that has not said `HELLO`.

## What is proved

- `exec_spec`: an event is a step of a server, or a slip exactly when it marks another client; the
  table stays compact and its clients told apart in both cases. Only the inbound impairments can stop
  an event.
-/

namespace MessageEngine

open Outcome Table

namespace TcpBackend

variable {b b' : TcpBackend} {fd : Int} {src : NodeId} {i : Fin maxTcpConnections}

/-- What comes of a `HELLO` of the client in slot `i`. -/
inductive Greeting (b : TcpBackend) (i : Fin maxTcpConnections) (src : NodeId) (b' : TcpBackend) : Prop
  /-- It was not the first one. -/
  | again (hello : b.clientHelloReceived[i] = true) (removed : Removed b i b')
  /-- It claims the node of another client. The flag that is set is no longer its own. -/
  | impostor {b₁ : TcpBackend} (first : b.clientHelloReceived[i] = false)
      (claimed : b.live.Claimed (b.row i).fd src) (removed : Removed b i b₁)
      (marked : b' = { b₁ with clientHelloReceived := b₁.clientHelloReceived.set i true i.isLt })
  | registered {q : HelloQueue} (first : b.clientHelloReceived[i] = false)
      (free : ¬ b.live.Claimed (b.row i).fd src) (push : b.helloQueue.push src = .ok q)
      (done : b' = { b with
        clientNodeIds := b.clientNodeIds.set i src i.isLt
        clientHelloReceived := b.clientHelloReceived.set i true i.isLt
        helloQueue := q
        trace := b.trace ++ [.registered (b.row i).fd src] })

/-- The search of `handle_hello_frame` for another client with the node. -/
theorem claimed_iff :
    (∃ j, (b.liveSlot? fun j => b.clientNodeIds[j] == src && b.clientFds[j] != fd) = some j) ↔
      b.live.Claimed fd src := by
  constructor
  · rintro ⟨j, hj⟩
    obtain ⟨hlt, hp⟩ := liveSlot?_some hj
    simp only [Bool.and_eq_true, beq_iff_eq, bne_iff_ne, ne_eq] at hp
    exact ⟨b.row j, row_mem_live hlt, hp.1, hp.2⟩
  · rintro ⟨c, ⟨j, hj, rfl⟩, hnode, hfd⟩
    cases hs : b.liveSlot? fun j => b.clientNodeIds[j] == src && b.clientFds[j] != fd with
    | some k => exact ⟨k, rfl⟩
    | none =>
      have hmiss := liveSlot?_none hs hj
      have hnode' : b.clientNodeIds[j] = src := hnode
      rw [hnode', beq_self_eq_true, Bool.true_and, bne_eq_false_iff_eq] at hmiss
      exact absurd hmiss hfd

theorem processHelloFrame_spec (h : Shaped b) (hq : b.helloQueue.Valid) (hi : i.val < b.clientCount)
    (hfd : b.clientFds[i] = fd) (hsrc : src ≠ nodeIdInvalid) :
    ∃ res b', b.processHelloFrame fd src = .ok (res, b') ∧ Greeting b i src b' := by
  have hopen : fd ≥ 0 := hfd ▸ h.sound.opened _ (row_mem_live hi)
  have hrowfd : (b.row i).fd = fd := hfd
  obtain ⟨b₁, hevict, hremoved⟩ := closeAndEvictSlot_spec h hi hfd
  unfold processHelloFrame
  simp only [neverCompiledOutAssert, ensure_pos hopen, ensure_pos hsrc, ok_bind, h.slotOf?_eq hi hfd]
  by_cases hello : b.clientHelloReceived[i] = true
  · rw [if_pos hello, hevict, ok_bind]
    exact ⟨_, b₁, rfl, .again hello hremoved⟩
  · have first : b.clientHelloReceived[i] = false := Bool.eq_false_iff.mpr hello
    rw [if_neg hello]
    unfold handleHelloFrame
    simp only [neverCompiledOutAssert, ensure_pos hopen, ensure_pos hsrc, ok_bind, h.slotOf?_eq hi hfd]
    cases hs : b.liveSlot? fun j => b.clientNodeIds[j] == src && b.clientFds[j] != fd with
    | some j =>
      have hclaimed := claimed_iff.mp ⟨j, hs⟩
      simp only [hevict, ok_bind, pure_eq_ok]
      exact ⟨_, _, rfl, .impostor first (hrowfd ▸ hclaimed) hremoved rfl⟩
    | none =>
      have hfree : ¬ b.live.Claimed fd src := by
        intro hclaimed
        obtain ⟨j, hj⟩ := claimed_iff.mpr hclaimed
        rw [hs] at hj
        cases hj
      obtain ⟨q, hpush, -⟩ := HelloQueue.push_spec hq src
      simp only [hpush, ok_bind, pure_eq_ok]
      exact ⟨_, _, rfl, .registered first (hrowfd ▸ hfree) hpush (by rw [hrowfd]; rfl)⟩

/-! ## The table after a `HELLO` -/

/-- The flags play no part in the shape of the table. -/
theorem Shaped.flags (h : Shaped b) (flags : Vector Bool maxTcpConnections) :
    Shaped { b with clientHelloReceived := flags } where
  server := h.server
  count := h.count
  distinct := h.distinct
  unused := h.unused
  counters := h.counters
  sound := by
    refine ⟨?_, ?_, ?_⟩
    · rintro c ⟨j, hj, rfl⟩
      have hmem : b.row j ∈ b.live := row_mem_live hj
      exact h.sound.opened (b.row j) hmem
    · rintro c ⟨j, hj, rfl⟩ c' ⟨k, hk, rfl⟩ heq
      rw [h.distinct j k hj hk heq]
    · rintro c ⟨j, hj, rfl⟩ c' ⟨k, hk, rfl⟩ hne heq
      have hmem : b.row j ∈ b.live := row_mem_live hj
      have hmem' : b.row k ∈ b.live := row_mem_live hk
      have hsame := h.sound.unique (b.row j) hmem (b.row k) hmem' hne heq
      rw [h.slot_eq hj hk (congrArg Client.fd hsame)]

theorem row_registered {q : HelloQueue} {trace : List BackendEffect}
    (j : Fin maxTcpConnections) :
    row { b with
        clientNodeIds := b.clientNodeIds.set i src i.isLt
        clientHelloReceived := b.clientHelloReceived.set i true i.isLt
        helloQueue := q
        trace := trace } j =
      if i = j then { b.row i with nodeId := src, helloReceived := true } else b.row j := by
  simp only [row, getElem_set_fin]
  split
  case isTrue heq => subst heq; rfl
  case isFalse => rfl

theorem live_registered (h : Shaped b) (hi : i.val < b.clientCount) {q : HelloQueue}
    {trace : List BackendEffect} :
    live { b with
        clientNodeIds := b.clientNodeIds.set i src i.isLt
        clientHelloReceived := b.clientHelloReceived.set i true i.isLt
        helloQueue := q
        trace := trace } = b.live.register (b.row i).fd src := by
  ext c
  constructor
  · rintro ⟨j, hj, rfl⟩
    rw [row_registered]
    by_cases heq : i = j
    · rw [if_pos heq]
      exact .inr ⟨b.row i, row_mem_live hi, rfl, rfl⟩
    · rw [if_neg heq]
      exact .inl ⟨row_mem_live hj, fun hfd => heq (h.slot_eq hi hj hfd.symm)⟩
  · rintro (⟨⟨j, hj, rfl⟩, hne⟩ | ⟨c₀, ⟨j, hj, rfl⟩, hfd, rfl⟩)
    · refine ⟨j, hj, ?_⟩
      rw [row_registered, if_neg]
      rintro rfl
      exact hne rfl
    · have heq := h.slot_eq hj hi hfd
      subst heq
      exact ⟨j, hj, by rw [row_registered, if_pos rfl]⟩

theorem Greeting.shaped (g : Greeting b i src b') (h : Shaped b) (hi : i.val < b.clientCount) :
    Shaped b' := by
  cases g with
  | again _ removed => exact removed.shaped
  | impostor _ _ removed marked =>
    rw [marked]
    exact removed.shaped.flags _
  | @registered q _ free _ done =>
    subst done
    refine ⟨h.server, h.count, h.distinct, ?_, ?_, h.counters⟩
    · intro j hj
      have hne : i ≠ j := by
        rintro rfl
        simp only at hj
        omega
      obtain ⟨hfd, hnode⟩ := h.unused j hj
      refine ⟨hfd, ?_⟩
      rw [getElem_set_fin, if_neg hne]
      exact hnode
    · rw [live_registered h hi]
      exact h.sound.register free

theorem Greeting.helloQueue_valid (g : Greeting b i src b') (hq : b.helloQueue.Valid) :
    b'.helloQueue.Valid := by
  cases g with
  | again _ removed =>
    rw [removed.helloQueue]
    exact hq
  | impostor _ _ removed marked =>
    rw [marked]
    show HelloQueue.Valid _
    rw [removed.helloQueue]
    exact hq
  | registered _ _ push done =>
    subst done
    obtain ⟨q', hpush, hvalid, -⟩ := HelloQueue.push_spec hq src
    cases push.symm.trans hpush
    exact hvalid

/-! ## The server -/

/-- The server without its arrays. -/
def server (b : TcpBackend) : Server :=
  ⟨b.live, b.helloQueue, b.inbox, b.recvTimeoutMs.toUInt64 * 1000⟩

/-- The event is a client's first `HELLO`, for a node that another client has, and the client in the
next slot has not said `HELLO`. -/
def marksAnother (b : TcpBackend) : ServerEvent → Bool
  | .receive fd read =>
    match read.message?, b.slotOf? fd with
    | some env, some i =>
      env.messageType == .hello && !b.clientHelloReceived[i] &&
        (b.liveSlot? fun j => b.clientNodeIds[j] == env.sourceId && b.clientFds[j] != fd).isSome &&
        if h : i.val + 1 < maxTcpConnections then
          decide (i.val + 1 < b.clientCount) && !b.clientHelloReceived[i.val + 1]
        else false
    | _, _ => false
  | _ => false

/-- What an event came to. -/
structure Served (b : TcpBackend) (event : ServerEvent) (popped : Option NodeId) (b' : TcpBackend) :
    Prop where
  shaped : Shaped b'
  queue : b'.helloQueue.Valid
  refines : if b.marksAnother event then b.server.Slip event ⟨popped, b'.trace⟩ b'.server
    else b.server.Step event ⟨popped, b'.trace⟩ b'.server

theorem Shaped.note (h : Shaped b) (x : BackendEffect) : Shaped (b.note x) :=
  ⟨h.server, h.count, h.distinct, h.unused, h.sound, h.counters⟩

theorem Shaped.connected_iff (h : Shaped b) : b.live.Connected fd ↔ ∃ i, b.slotOf? fd = some i := by
  constructor
  · rintro ⟨c, ⟨i, hi, rfl⟩, hfd⟩
    exact ⟨i, h.slotOf?_eq hi hfd⟩
  · rintro ⟨i, hi⟩
    obtain ⟨hlt, hfd⟩ := slotOf?_some hi
    exact ⟨b.row i, row_mem_live hlt, hfd⟩

theorem Removed.server (h : Removed b i b') :
    b'.server = { b.server with live := b.live.close (b.row i).fd } := by
  unfold TcpBackend.server
  rw [h.live, h.helloQueue, h.rest.inbox, h.rest.recvTimeoutMs]

theorem Shaped.greeted_iff (h : Shaped b) (hi : i.val < b.clientCount) :
    b.live.Greeted (b.row i).fd ↔ b.clientHelloReceived[i] = true := by
  constructor
  · rintro ⟨c, ⟨j, hj, rfl⟩, hfd, hello⟩
    rw [← h.slot_eq hj hi hfd]
    exact hello
  · exact fun hello => ⟨b.row i, row_mem_live hi, rfl, hello⟩

/-- The count counts the live clients. -/
theorem Shaped.ncard (h : Shaped b) : b.live.ncard = b.clientCount := by
  have hrange : b.live = Set.range fun k : Fin b.clientCount => b.row (Fin.castLE h.count k) := by
    ext c
    constructor
    · rintro ⟨i, hi, rfl⟩
      exact ⟨⟨i.val, hi⟩, rfl⟩
    · rintro ⟨k, rfl⟩
      exact row_mem_live k.isLt
  have hinj : Function.Injective fun k : Fin b.clientCount => b.row (Fin.castLE h.count k) := by
    intro k l heq
    have hslot := h.slot_eq (i := Fin.castLE h.count k) (j := Fin.castLE h.count l) k.isLt l.isLt
      (congrArg Client.fd heq)
    exact Fin.castLE_injective h.count hslot
  rw [hrange, Set.ncard_range_of_injective hinj, Nat.card_fin]

/-! ## The flag of the slot behind -/

theorem row_flagged (j : Fin maxTcpConnections) :
    row { b with clientHelloReceived := b.clientHelloReceived.set i true i.isLt } j =
      if i = j then { b.row i with helloReceived := true } else b.row j := by
  simp only [row, getElem_set_fin]
  split
  case isTrue heq => subst heq; rfl
  case isFalse => rfl

/-- Behind the last client the flag means nothing. -/
theorem live_flagged_unused (hi : b.clientCount ≤ i.val) :
    live { b with clientHelloReceived := b.clientHelloReceived.set i true i.isLt } = b.live := by
  ext c
  have hrow {j : Fin maxTcpConnections} (hj : j.val < b.clientCount) :
      row { b with clientHelloReceived := b.clientHelloReceived.set i true i.isLt } j = b.row j := by
    rw [row_flagged, if_neg]
    rintro rfl
    omega
  constructor
  · rintro ⟨j, hj, rfl⟩
    exact ⟨j, hj, (hrow hj).symm⟩
  · rintro ⟨j, hj, rfl⟩
    exact ⟨j, hj, hrow hj⟩

/-- To a client that was greeted it changes nothing. -/
theorem live_flagged_greeted (hello : b.clientHelloReceived[i] = true) :
    live { b with clientHelloReceived := b.clientHelloReceived.set i true i.isLt } = b.live := by
  refine live_congr rfl fun j => ?_
  rw [row_flagged]
  split
  case isTrue heq =>
    subst heq
    simp only [row, hello]
  case isFalse => rfl

theorem live_flagged (h : Shaped b) (hi : i.val < b.clientCount) :
    live { b with clientHelloReceived := b.clientHelloReceived.set i true i.isLt } =
      b.live.mark (b.row i).fd := by
  have hrow {j : Fin maxTcpConnections} (hj : j.val < b.clientCount) :
      row { b with clientHelloReceived := b.clientHelloReceived.set i true i.isLt } j =
        { b.row j with
          helloReceived := (b.row j).helloReceived || decide ((b.row j).fd = (b.row i).fd) } := by
    rw [row_flagged]
    split
    case isTrue heq =>
      subst heq
      simp
    case isFalse hne =>
      have hfd : (b.row j).fd ≠ (b.row i).fd := fun heq => hne (h.slot_eq hj hi heq).symm
      simp [hfd]
  ext c
  constructor
  · rintro ⟨j, hj, rfl⟩
    exact ⟨b.row j, row_mem_live hj, hrow hj⟩
  · rintro ⟨c₀, ⟨j, hj, rfl⟩, rfl⟩
    exact ⟨j, hj, hrow hj⟩

/-! ## Reading -/

/-- What marks another client, slot by slot. -/
theorem marksAnother_iff {read : Read} {env : MessageEnvelope} (hslot : b.slotOf? fd = some i)
    (harrived : read.message? = some env) :
    b.marksAnother (.receive fd read) = true ↔
      env.messageType = .hello ∧ b.clientHelloReceived[i] = false ∧ b.live.Claimed fd env.sourceId ∧
        ∃ k : Fin maxTcpConnections, k.val = i.val + 1 ∧ k.val < b.clientCount ∧
          b.clientHelloReceived[k] = false := by
  rw [← claimed_iff]
  simp only [marksAnother, harrived, hslot, Bool.and_eq_true, beq_iff_eq, Bool.not_eq_true',
    Option.isSome_iff_exists, and_assoc]
  refine and_congr_right fun _ => and_congr_right fun _ => and_congr_right fun _ => ?_
  constructor
  · intro hnext
    split at hnext
    case isTrue hlt =>
      simp only [Bool.and_eq_true, decide_eq_true_eq, Bool.not_eq_true'] at hnext
      exact ⟨⟨i.val + 1, hlt⟩, rfl, hnext.1, hnext.2⟩
    case isFalse => cases hnext
  · rintro ⟨k, hk, hlt, hflag⟩
    have hbound : i.val + 1 < maxTcpConnections := hk ▸ k.isLt
    rw [dif_pos hbound]
    have hkeq : k = ⟨i.val + 1, hbound⟩ := Fin.ext hk
    subst hkeq
    simp only [Bool.and_eq_true, decide_eq_true_eq, Bool.not_eq_true']
    exact ⟨hlt, hflag⟩

theorem not_marksAnother_of_garbled {read : Read} (h : read.message? = none) :
    b.marksAnother (.receive fd read) = false := by
  simp only [marksAnother, h]

theorem not_marksAnother_of_absent {read : Read} (h : b.slotOf? fd = none) :
    b.marksAnother (.receive fd read) = false := by
  simp only [marksAnother, h]
  cases read.message? with
  | none => rfl
  | some env => rfl

theorem not_marksAnother_of_data {read : Read} {env : MessageEnvelope} (hslot : b.slotOf? fd = some i)
    (harrived : read.message? = some env) (hdata : env.messageType ≠ .hello) :
    b.marksAnother (.receive fd read) = false := by
  rw [Bool.eq_false_iff, ne_eq, marksAnother_iff hslot harrived]
  exact fun hmarks => hdata hmarks.1

/-- A `HELLO`, as the server without its arrays sees it. -/
theorem Greeting.served {read : Read} {env : MessageEnvelope} (h : Shaped b) (hq : b.helloQueue.Valid)
    (hi : i.val < b.clientCount) (hfd : b.clientFds[i] = fd) (harrived : read.message? = some env)
    (hello : env.messageType = .hello) (htrace : b.trace = [])
    (g : Greeting (b.note (.received fd env)) i env.sourceId b') :
    Served b (.receive fd read) none b' := by
  have hslot := h.slotOf?_eq hi hfd
  have hrowfd : (b.row i).fd = fd := hfd
  have hconnected : b.live.Connected fd := h.connected_iff.mpr ⟨i, hslot⟩
  have hgreeted : b.live.Greeted fd ↔ b.clientHelloReceived[i] = true := hrowfd ▸ h.greeted_iff hi
  have hmarks := marksAnother_iff (b := b) hslot harrived
  have hshaped := g.shaped (h.note _) hi
  have hqueue := g.helloQueue_valid hq
  refine ⟨hshaped, hqueue, ?_⟩
  cases g with
  | again hello' removed =>
    have hnot : b.marksAnother (.receive fd read) = false := by
      rw [Bool.eq_false_iff, ne_eq, hmarks]
      rintro ⟨-, hflag, -⟩
      cases hflag.symm.trans hello'
    have hlog : b'.trace = [.received fd env, .closed fd] := by
      rw [removed.trace]
      show b.trace ++ [.received fd env] ++ [.closed (b.row i).fd] = _
      rw [htrace, hrowfd]
      rfl
    have hserver : b'.server = { b.server with live := b.live.close fd } := by
      rw [removed.server, ← hrowfd]
      rfl
    rw [hnot, hlog, hserver]
    exact .rejected hconnected harrived hello (.inl (hgreeted.mpr hello'))
  | @impostor b₁ first claimed removed marked =>
    have hclaimed : b.live.Claimed fd env.sourceId := hrowfd ▸ claimed
    have hfirst : ¬ b.live.Greeted fd := by
      rw [hgreeted, Bool.not_eq_true]
      exact first
    have hlog : b'.trace = [.received fd env, .closed fd] := by
      rw [marked]
      show b₁.trace = _
      rw [removed.trace]
      show b.trace ++ [.received fd env] ++ [.closed (b.row i).fd] = _
      rw [htrace, hrowfd]
      rfl
    have hcount : b.clientCount = b₁.clientCount + 1 := removed.count
    have hserver : b'.server = { b.server with live := b'.live } := by
      have hsame := removed.server
      rw [marked]
      unfold TcpBackend.server at hsame ⊢
      injection hsame with _ hqueue hinbox htimeout
      simp only
      rw [hqueue, hinbox, htimeout]
      rfl
    have hclosed : b₁.live = b.live.close fd := by
      rw [← hrowfd]
      exact removed.live
    -- The slot that is marked is free, its client was greeted, or it was not.
    by_cases hnext : i.val < b₁.clientCount
    case neg =>
      have hnot : b.marksAnother (.receive fd read) = false := by
        rw [Bool.eq_false_iff, ne_eq, hmarks]
        rintro ⟨-, -, -, k, hk, hlt, -⟩
        omega
      have hlive : b'.live = b.live.close fd := by
        rw [marked, live_flagged_unused (by omega), hclosed]
      rw [hnot, hlog, hserver, hlive]
      exact .rejected hconnected harrived hello (.inr hclaimed)
    case pos =>
      have hbound : i.val + 1 < maxTcpConnections := by have := h.count; omega
      have hbehind : b₁.row i = b.row ⟨i.val + 1, hbound⟩ :=
        removed.rows i ⟨i.val + 1, hbound⟩ hnext (by rw [Compact.skip, if_neg (Nat.lt_irrefl _)])
      cases hflag : b.clientHelloReceived.get ⟨i.val + 1, hbound⟩ with
      | true =>
        have hnot : b.marksAnother (.receive fd read) = false := by
          rw [Bool.eq_false_iff, ne_eq, hmarks]
          rintro ⟨-, -, -, k, hk, -, hsilent⟩
          have hkeq : k = ⟨i.val + 1, hbound⟩ := Fin.ext hk
          subst hkeq
          cases hflag.symm.trans hsilent
        have hgreetedNext : b₁.clientHelloReceived[i] = true :=
          (congrArg Client.helloReceived hbehind).trans hflag
        have hlive : b'.live = b.live.close fd := by
          rw [marked, live_flagged_greeted hgreetedNext, hclosed]
        rw [hnot, hlog, hserver, hlive]
        exact .rejected hconnected harrived hello (.inr hclaimed)
      | false =>
        have hyes : b.marksAnother (.receive fd read) = true :=
          hmarks.mpr ⟨hello, first, hclaimed, ⟨i.val + 1, hbound⟩, rfl, by simp only; omega, hflag⟩
        have hlive : b'.live = (b.live.close fd).mark (b.row ⟨i.val + 1, hbound⟩).fd := by
          rw [marked, live_flagged removed.shaped hnext, hclosed, hbehind]
        have hmem : b.row ⟨i.val + 1, hbound⟩ ∈ b.live := row_mem_live (by simp only; omega)
        have hother : (b.row ⟨i.val + 1, hbound⟩).fd ≠ fd := by
          rw [← hrowfd]
          intro heq
          have hsame := congrArg Fin.val (h.slot_eq (by simp only; omega) hi heq)
          simp only at hsame
          omega
        rw [hyes, hlog, hserver, hlive]
        exact .marked hconnected harrived hello hfirst hclaimed hmem hother hflag
  | @registered q first free push done =>
    have hfree : ¬ b.live.Claimed fd env.sourceId := hrowfd ▸ free
    have hfirst : ¬ b.live.Greeted fd := by
      rw [hgreeted, Bool.not_eq_true]
      exact first
    have hnot : b.marksAnother (.receive fd read) = false := by
      rw [Bool.eq_false_iff, ne_eq, hmarks]
      rintro ⟨-, -, hclaimed, -⟩
      exact hfree hclaimed
    have hlog : b'.trace = [.received fd env, .registered fd env.sourceId] := by
      rw [done]
      show b.trace ++ [.received fd env] ++ [.registered (b.row i).fd env.sourceId] = _
      rw [htrace, hrowfd]
      rfl
    have hlive : b'.live = b.live.register fd env.sourceId := by
      rw [done, live_registered (h.note _) hi, ← hrowfd]
      rfl
    have hserver : b'.server =
        { b.server with live := b.live.register fd env.sourceId, helloQueue := q } := by
      rw [← hlive, done]
      rfl
    rw [hnot, hlog, hserver]
    exact .registered hconnected harrived hello hfirst hfree push

/-- Only a registered client may send, and only from its node. -/
theorem Shaped.speaks_iff (h : Shaped b) (hi : i.val < b.clientCount) :
    b.live.Speaks (b.row i).fd src ↔ b.clientNodeIds[i] ≠ nodeIdInvalid ∧ b.clientNodeIds[i] = src := by
  constructor
  · rintro ⟨c, ⟨j, hj, rfl⟩, hfd, hnode⟩
    rw [← h.slot_eq hj hi hfd]
    exact hnode
  · exact fun hnode => ⟨b.row i, row_mem_live hi, rfl, hnode⟩

theorem isUnregisteredSlot_eq (h : Shaped b) (hi : i.val < b.clientCount) (hfd : b.clientFds[i] = fd) :
    b.isUnregisteredSlot fd = .ok (b.clientNodeIds[i] == nodeIdInvalid) := by
  have hopen : fd ≥ 0 := hfd ▸ h.sound.opened _ (row_mem_live hi)
  unfold isUnregisteredSlot
  simp only [neverCompiledOutAssert, ensure_pos hopen, ensure_pos h.count, ok_bind,
    h.slotOf?_eq hi hfd, pure_eq_ok]

theorem validateSourceId_eq (h : Shaped b) (hi : i.val < b.clientCount) (hfd : b.clientFds[i] = fd)
    (hnode : b.clientNodeIds[i] ≠ nodeIdInvalid) :
    b.validateSourceId fd src = .ok (src == b.clientNodeIds[i]) := by
  have hopen : fd ≥ 0 := hfd ▸ h.sound.opened _ (row_mem_live hi)
  unfold validateSourceId
  simp only [neverCompiledOutAssert, ensure_pos hopen, ensure_pos h.count, ok_bind,
    h.slotOf?_eq hi hfd, if_neg hnode, pure_eq_ok]

theorem lockServerNode_server (h : Shaped b) (env : MessageEnvelope) : b.lockServerNode env = b := by
  unfold lockServerNode
  simp [h.server]

theorem dispatch_refused (h : Shaped b) (hi : i.val < b.clientCount) (hfd : b.clientFds[i] = fd)
    {env : MessageEnvelope} (hdata : env.messageType ≠ .hello) (nowUs : UInt64)
    (hmute : ¬ b.live.Speaks fd env.sourceId) : b.dispatch fd env nowUs = .ok (.errInvalid, b) := by
  unfold dispatch
  rw [if_neg hdata]
  simp only [h.server, if_true, isUnregisteredSlot_eq h hi hfd, ok_bind]
  by_cases hnode : b.clientNodeIds[i] = nodeIdInvalid
  · rw [if_pos (beq_iff_eq.mpr hnode), pure_eq_ok]
  · have hsrc : (env.sourceId == b.clientNodeIds[i]) = false := by
      rw [beq_eq_false_iff_ne]
      intro heq
      exact hmute (hfd ▸ (h.speaks_iff hi).mpr ⟨hnode, heq.symm⟩)
    rw [if_neg (by simpa using hnode), validateSourceId_eq h hi hfd hnode, ok_bind, hsrc]
    rfl

theorem dispatch_forwarded (h : Shaped b) (hi : i.val < b.clientCount) (hfd : b.clientFds[i] = fd)
    {env : MessageEnvelope} (hdata : env.messageType ≠ .hello) (nowUs : UInt64)
    (hspeaks : b.live.Speaks fd env.sourceId) :
    b.dispatch fd env nowUs =
      ((b.note (.forwarded fd env)).applyInboundImpairment fd env nowUs >>= fun b => .ok (.ok, b)) := by
  obtain ⟨hnode, hsrc⟩ := (h.speaks_iff hi).mp (hfd ▸ hspeaks)
  unfold dispatch
  rw [if_neg hdata]
  simp only [h.server, if_true, isUnregisteredSlot_eq h hi hfd, ok_bind]
  rw [if_neg (by simpa using hnode), validateSourceId_eq h hi hfd hnode, ok_bind, hsrc,
    lockServerNode_server h]
  simp

theorem applyInboundImpairment_ok {env : MessageEnvelope} {nowUs : UInt64}
    {queued : Option MessageEnvelope} {inbox : Inbox}
    (h : b.inbox.applyInboundImpairment .tcpApplyInboundImpairment env nowUs = .ok (queued, inbox)) :
    b.applyInboundImpairment fd env nowUs =
      .ok { b with inbox, trace := b.trace ++ queued.toList.map (.queued fd) } := by
  unfold applyInboundImpairment
  rw [h, ok_bind]
  cases queued with
  | none => simp
  | some out => rfl

theorem applyInboundImpairment_error {env : MessageEnvelope} {nowUs : UInt64} {f : Fault}
    (h : b.inbox.applyInboundImpairment .tcpApplyInboundImpairment env nowUs = .error f) :
    b.applyInboundImpairment fd env nowUs = .error f := by
  unfold applyInboundImpairment
  rw [h, error_bind]

/-- A message that is not a `HELLO`, as the server without its arrays sees it. -/
theorem dispatch_served {read : Read} {env : MessageEnvelope} (h : Shaped b) (hq : b.helloQueue.Valid)
    (hi : i.val < b.clientCount) (hfd : b.clientFds[i] = fd) (harrived : read.message? = some env)
    (hdata : env.messageType ≠ .hello) (htrace : b.trace = []) :
    (∃ res b', (b.note (.received fd env)).dispatch fd env read.nowUs = .ok (res, b') ∧
      Served b (.receive fd read) none b') ∨
    ((∃ f, (b.note (.received fd env)).dispatch fd env read.nowUs = .error f) ∧
      b.server.Stuck (.receive fd read)) := by
  have hslot := h.slotOf?_eq hi hfd
  have hconnected : b.live.Connected fd := h.connected_iff.mpr ⟨i, hslot⟩
  have hnot := not_marksAnother_of_data (b := b) hslot harrived hdata
  by_cases hspeaks : b.live.Speaks fd env.sourceId
  case neg =>
    refine .inl ⟨_, _, dispatch_refused (h.note _) hi hfd hdata _ hspeaks, h.note _, hq, ?_⟩
    rw [hnot, show (b.note (.received fd env)).trace = [.received fd env] by simp [note, htrace]]
    exact .refused hconnected harrived hdata hspeaks
  case pos =>
    rw [dispatch_forwarded (h.note _) hi hfd hdata _ hspeaks]
    cases hinbound : b.inbox.applyInboundImpairment .tcpApplyInboundImpairment env read.nowUs with
    | error f =>
      have hrun : ((b.note (.received fd env)).note (.forwarded fd env)).applyInboundImpairment fd env
          read.nowUs = .error f := applyInboundImpairment_error hinbound
      refine .inr ⟨⟨f, by rw [hrun, error_bind]⟩, env, harrived, hdata, hconnected, hspeaks, ?_⟩
      intro site r hok
      cases (Inbox.applyInboundImpairment_site .tcpApplyInboundImpairment hok).symm.trans hinbound
    | ok r =>
      obtain ⟨queued, inbox⟩ := r
      have hrun : ((b.note (.received fd env)).note (.forwarded fd env)).applyInboundImpairment fd env
          read.nowUs = .ok _ := applyInboundImpairment_ok hinbound
      rw [hrun, ok_bind]
      refine .inl ⟨_, _, rfl, ?_, hq, ?_⟩
      · exact ⟨h.server, h.count, h.distinct, h.unused, h.sound, h.counters⟩
      · have hlog : (note (b.note (.received fd env)) (.forwarded fd env)).trace ++
            queued.toList.map (.queued fd) = Server.inboundEffects fd env queued := by
          simp [note, htrace, Server.inboundEffects]
        rw [hnot]
        simp only [hlog]
        exact .forwarded hconnected harrived hdata hspeaks hinbound

/-- What comes of an attempt to read. -/
theorem recvFromClient_served (read : Read) (h : Shaped b) (hq : b.helloQueue.Valid)
    (hi : i.val < b.clientCount) (hfd : b.clientFds[i] = fd) (htrace : b.trace = []) :
    (∃ res b', b.recvFromClient fd read = .ok (res, b') ∧ Served b (.receive fd read) none b') ∨
    ((∃ f, b.recvFromClient fd read = .error f) ∧ b.server.Stuck (.receive fd read)) := by
  have hopen : fd ≥ 0 := hfd ▸ h.sound.opened _ (row_mem_live hi)
  have hconnected : b.live.Connected fd := h.connected_iff.mpr ⟨i, h.slotOf?_eq hi hfd⟩
  unfold recvFromClient
  simp only [neverCompiledOutAssert, ensure_pos hopen, ok_bind]
  cases hframe : read.frame with
  | none =>
    obtain ⟨b', hrun, hremoved⟩ := removeClientFd_spec h hi hfd
    have hnot : b.marksAnother (.receive fd read) = false :=
      not_marksAnother_of_garbled (Read.message?_of_broken hframe)
    refine .inl ⟨_, b', by rw [hrun]; rfl, hremoved.shaped, by rw [hremoved.helloQueue]; exact hq, ?_⟩
    rw [hnot, hremoved.server, hremoved.trace, htrace, show (b.row i).fd = fd from hfd]
    exact .failed hconnected hframe
  | some frame =>
    obtain ⟨reply, hreply⟩ := frame.deserialize_total
    simp only [hreply, ok_bind]
    cases reply with
    | error res =>
      have hgarbled : read.message? = none := by
        rw [Read.message?, hframe]
        simp only [Option.bind_some, Frame.message?, hreply]
      refine .inl ⟨res, b, rfl, h, hq, ?_⟩
      rw [not_marksAnother_of_garbled hgarbled, htrace]
      exact .malformed hconnected (by rw [hframe]; exact Option.some_ne_none _) hgarbled
    | ok env =>
      have harrived : read.message? = some env := by
        rw [Read.message?, hframe]
        simp only [Option.bind_some, Frame.message?, hreply]
      by_cases hello : env.messageType = .hello
      case neg => exact dispatch_served h hq hi hfd harrived hello htrace
      case pos =>
        obtain ⟨res, b', hrun, hgreeting⟩ := processHelloFrame_spec (h.note (.received fd env)) hq hi hfd
          (Read.message?_valid harrived).2.2
        refine .inl ⟨res, b', ?_, hgreeting.served h hq hi hfd harrived hello htrace⟩
        show (b.note (.received fd env)).dispatch fd env read.nowUs = _
        unfold dispatch
        rw [if_pos hello, if_pos (h.note _).server]
        exact hrun

/-! ## Any event -/

/-- An event is a step of a server, or a slip when it marks another client; or the inbound
impairments stop it. -/
theorem exec_spec (h : Shaped b) (hq : b.helloQueue.Valid) (event : ServerEvent)
    (hfresh : b.server.Fresh event) :
    (∃ o b', exec event b = .ok (o, b') ∧ Shaped b' ∧ b'.helloQueue.Valid ∧
      if b.marksAnother event then b.server.Slip event o b'.server else b.server.Step event o b'.server) ∨
    ((∃ f, exec event b = .error f) ∧ b.server.Stuck event) := by
  have hserved : (∃ popped b', run event { b with trace := [] } = .ok (popped, b') ∧
      Served { b with trace := [] } event popped b') ∨
      ((∃ f, run event { b with trace := [] } = .error f) ∧ b.server.Stuck event) := by
    have h₀ : Shaped { b with trace := [] } :=
      ⟨h.server, h.count, h.distinct, h.unused, h.sound, h.counters⟩
    cases event with
    | accept fd os nowUs =>
      obtain ⟨b', hrun, hshaped, hrest, hqueue, hcases⟩ := acceptClients_spec h₀ os nowUs
        (fun c hc heq => hfresh ⟨c, hc, heq⟩)
      refine .inl ⟨none, b', by simp only [run, hrun, ok_bind, pure_eq_ok], hshaped,
        by rw [hqueue]; exact hq, ?_⟩
      rw [show marksAnother _ _ = false from rfl]
      rcases hcases with ⟨rfl, hfull⟩ | ⟨hroom, hopen, hlive, htrace⟩
      · refine .declined (hfull.imp_right fun heq => ?_)
        exact Nat.le_of_eq (heq.symm.trans h.ncard.symm)
      · have hserver : b'.server =
            { server { b with trace := [] } with live := insert (Registry.newcomer fd nowUs) b.live } := by
          unfold server
          rw [hlive, hqueue, hrest.inbox, hrest.recvTimeoutMs]
          rfl
        rw [hserver, htrace]
        exact .accepted hopen (h.ncard.trans_lt hroom)
    | receive fd read =>
      cases hslot : slotOf? { b with trace := [] } fd with
      | none =>
        refine .inl ⟨none, _, by simp only [run, hslot, pure_eq_ok], h₀, hq, ?_⟩
        rw [not_marksAnother_of_absent hslot]
        refine .absent fun hconnected => ?_
        obtain ⟨i, hi⟩ := h₀.connected_iff.mp hconnected
        cases hslot.symm.trans hi
      | some i =>
        obtain ⟨hi, hfd⟩ := slotOf?_some hslot
        rcases recvFromClient_served read h₀ hq hi hfd rfl with
          ⟨res, b', hrun, hserved⟩ | ⟨⟨f, hrun⟩, hstuck⟩
        · exact .inl ⟨none, b', by simp only [run, hslot, hrun, ok_bind, pure_eq_ok], hserved⟩
        · exact .inr ⟨⟨f, by simp only [run, hslot, hrun, error_bind]⟩, hstuck⟩
    | sweep nowUs =>
      obtain ⟨b', fds, hrun, hswept⟩ := sweepHelloTimeouts_spec h₀ nowUs
      refine .inl ⟨none, b', by simp only [run, hrun, ok_bind, pure_eq_ok], hswept.shaped,
        by rw [hswept.helloQueue]; exact hq, ?_⟩
      obtain ⟨hlive, htimedOut⟩ := hswept.closes.swept h.sound hswept.done
      have hserver : b'.server = { server { b with trace := [] } with
          live := b.live.sweep (b.recvTimeoutMs.toUInt64 * 1000) nowUs } := by
        unfold server
        rw [hlive, hswept.helloQueue, hswept.rest.inbox, hswept.rest.recvTimeoutMs]
        rfl
      rw [show marksAnother _ _ = false from rfl, hserver, hswept.trace]
      exact .swept htimedOut
    | popHello =>
      obtain ⟨src, q', hpop, hvalid, -⟩ := HelloQueue.pop_spec hq .tcpPopHelloPeer
      refine .inl ⟨some src, { b with trace := [], helloQueue := q' }, ?_, ?_, hvalid, ?_⟩
      · simp only [run, popHelloPeer, hpop, ok_bind, pure_eq_ok]
      · exact ⟨h.server, h.count, h.distinct, h.unused, h.sound, h.counters⟩
      · exact .popped hpop
    | popMessage =>
      cases hpop : b.inbox.recvQueue.pop with
      | error f =>
        refine .inr ⟨⟨f, by simp only [run, hpop, error_bind]⟩, fun r hok => ?_⟩
        cases hpop.symm.trans hok
      | ok r =>
        obtain ⟨reply, recvQueue⟩ := r
        refine .inl ⟨none, { b with trace := [], inbox := { b.inbox with recvQueue } }, ?_, ?_, hq,
          .taken hpop⟩
        · simp only [run, hpop, ok_bind, pure_eq_ok]
        · exact ⟨h.server, h.count, h.distinct, h.unused, h.sound, h.counters⟩
  rcases hserved with ⟨popped, b', hrun, hserved⟩ | ⟨⟨f, hrun⟩, hstuck⟩
  · exact .inl ⟨_, b', by simp only [exec, hrun, ok_bind, pure_eq_ok], hserved.shaped, hserved.queue,
      hserved.refines⟩
  · exact .inr ⟨⟨f, by simp only [exec, hrun, error_bind]⟩, hstuck⟩

end TcpBackend

end MessageEngine
