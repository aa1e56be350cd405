import MessageEngine.Laws.TcpBackend.Clients
import MessageEngine.Laws.TcpBackend.Step

/-!
# What one read does to the client table

A read closes the client it reads, or it leaves everyone where they are: no other connection is closed by
it and no client moves. Which of the two it is can be told beforehand (`Closes`): the read fails, or it
brings the second `HELLO` of the client, or one that claims the node of another.

Clients are read one after the other, and a `HELLO` that was read decides on a later one. So `Closes` looks
at the table as it is after the clients before were heard.

## What is proved

- `recvFromClient_reads`: one read, in both modes;
- `Heard.step`: the table after one more client was read and stayed.
-/

namespace MessageEngine

open Outcome Table

/-- The node a read `HELLO` claims. -/
def Read.hello? (read : Read) : Option NodeId :=
  read.message?.bind fun env => if env.messageType = .hello then some env.sourceId else none

/-- The client after a read that it survived. -/
def Client.heard (c : Client) (read : Read) : Client :=
  match read.hello? with
  | some src => { c with nodeId := src, helloReceived := true }
  | none => c

theorem Client.heard_fd (c : Client) (read : Read) : (c.heard read).fd = c.fd := by
  unfold Client.heard
  split
  · rfl
  · rfl

theorem Read.hello?_of_broken {read : Read} (h : read.frame = none) : read.hello? = none := by
  rw [hello?, message?_of_broken h]
  rfl

theorem Read.hello?_of_message {read : Read} {env : MessageEnvelope} (h : read.message? = some env) :
    read.hello? = if env.messageType = .hello then some env.sourceId else none := by
  rw [hello?, h]
  rfl

theorem Read.hello?_valid {read : Read} {src : NodeId} (h : read.hello? = some src) : src ≠ nodeIdInvalid := by
  obtain ⟨env, harrived, hsaid⟩ := Option.bind_eq_some_iff.mp h
  split at hsaid
  · cases hsaid
    exact (message?_valid harrived).2.2
  · cases hsaid

namespace TcpBackend

variable {b b' : TcpBackend} {read : Int → Read} {earlier : List Int} {fd : Int} {i : Fin maxTcpConnections}
  {res : Result}

/-- The descriptors of the clients, in the order of the table. -/
def fds (b : TcpBackend) : List Int := b.clients.map Client.fd

/-- A client of the table, after the clients on some descriptors were heard. -/
def heardFrom (read : Int → Read) (earlier : List Int) (c : Client) : Client :=
  if c.fd ∈ earlier then c.heard (read c.fd) else c

/-- Reading the client closes it, once those on `earlier` were heard: the read fails, or it is a `HELLO` to
a server, and the client has said `HELLO` before or another has the node it claims. -/
def Closes (b : TcpBackend) (read : Int → Read) (earlier : List Int) (fd : Int) : Prop :=
  (read fd).frame = none ∨
    b.isServer = true ∧ ∃ src, (read fd).hello? = some src ∧
      ((∃ c ∈ b.clients, c.fd = fd ∧ c.helloReceived = true) ∨
        ∃ c ∈ b.clients, c.fd ≠ fd ∧ (heardFrom read earlier c).nodeId = src)

theorem heardFrom_fd (c : Client) : (heardFrom read earlier c).fd = c.fd := by
  unfold heardFrom
  split
  · exact c.heard_fd _
  · rfl

theorem heardFrom_nil (c : Client) : heardFrom read [] c = c := if_neg List.not_mem_nil

theorem Listed.of_fds (h : Listed b) (hcount : b'.clientCount ≤ maxTcpConnections)
    (hsub : b'.fds.Sublist b.fds) : Listed b' where
  count := hcount
  opened c hc := by
    obtain ⟨c₀, hc₀, hfd⟩ := List.mem_map.mp (hsub.subset (List.mem_map_of_mem hc))
    exact hfd ▸ h.opened c₀ hc₀
  distinct := h.distinct.sublist hsub

theorem length_fds (hcount : b.clientCount ≤ maxTcpConnections) : b.fds.length = b.clientCount := by
  rw [fds, List.length_map, length_clients hcount]

theorem getElem_fds {k : Nat} (hk : k < b.fds.length) (hbound : k < maxTcpConnections) :
    b.fds[k] = b.clientFds[k] := by
  simp only [fds, List.getElem_map, getElem_clients _ hbound]
  rfl

/-- The descriptors stand in the first array alone. -/
theorem fds_congr (hfds : b'.clientFds = b.clientFds) (hcount : b'.clientCount = b.clientCount) :
    b'.fds = b.fds := by
  have hrow (j : Fin maxTcpConnections) : (b'.row j).fd = (b.row j).fd := by simp only [row, hfds]
  rw [fds, fds, clients, clients, hcount, List.map_take, List.map_take, List.map_ofFn, List.map_ofFn]
  congr 2
  exact funext hrow

theorem clients_congr (hcount : b'.clientCount = b.clientCount) (hrow : ∀ j, b'.row j = b.row j) :
    b'.clients = b.clients := by
  rw [clients, clients, hcount, funext hrow]

theorem Listed.slotOf? (h : Listed b) (hi : i.val < b.clientCount) :
    b.slotOf? (b.row i).fd = some i := by
  cases hs : b.slotOf? (b.row i).fd with
  | none => exact absurd rfl (slotOf?_none hs (b.row i) (row_mem_live hi))
  | some j =>
    obtain ⟨hj, hfd⟩ := slotOf?_some hs
    rw [h.slot_eq hj hi hfd]

/-! ## The two outcomes -/

/-- The client in slot `i` was closed, and those behind it moved up. -/
structure Dropped (b : TcpBackend) (i : Nat) (b' : TcpBackend) : Prop where
  fds : b'.fds = b.fds.eraseIdx i
  isServer : b'.isServer = b.isServer
  count : b'.clientCount = b.clientCount - 1

/-- Everyone stayed; in a server the client on the descriptor was heard. -/
structure Stayed (b : TcpBackend) (read : Int → Read) (fd : Int) (b' : TcpBackend) : Prop where
  fds : b'.fds = b.fds
  isServer : b'.isServer = b.isServer
  count : b'.clientCount = b.clientCount
  clients : b.isServer = true → b'.clients = b.clients.map (heardFrom read [fd])

theorem Erased.dropped {i : Nat} (h : Erased b i b') : Dropped b i b' := by
  refine ⟨?_, h.isServer, h.count⟩
  rw [TcpBackend.fds, h.clients, ← List.eraseIdx_map]
  rfl

/-- Nothing that concerns the table was touched, and nothing was heard. -/
theorem Stayed.same (hsilent : (read fd).hello? = none) (hfds : b'.clientFds = b.clientFds)
    (hserver : b'.isServer = b.isServer) (hcount : b'.clientCount = b.clientCount)
    (hrow : b.isServer = true → ∀ j, b'.row j = b.row j) : Stayed b read fd b' := by
  refine ⟨fds_congr hfds hcount, hserver, hcount, fun hmode => ?_⟩
  rw [clients_congr hcount (hrow hmode)]
  refine (List.map_id'' (fun c => ?_) b.clients).symm
  unfold heardFrom
  split
  case isTrue hmem =>
    rw [List.mem_singleton.mp hmem, Client.heard, hsilent]
  case isFalse => rfl

theorem not_closes (hread : (read fd).frame ≠ none)
    (hquiet : b.isServer = true → (read fd).hello? = none) : ¬ Closes b read earlier fd := by
  rintro (hbroken | ⟨hmode, src, hsaid, -⟩)
  · exact hread hbroken
  · rw [hquiet hmode] at hsaid
    cases hsaid

/-! ## Reading -/

theorem mem_clients {c : Client} : c ∈ b.clients ↔ c ∈ b.live := by
  simp only [clients, live, List.mem_take_iff_getElem, List.getElem_ofFn, List.length_ofFn]
  constructor
  · rintro ⟨k, hk, rfl⟩
    exact ⟨⟨k, by omega⟩, by simp only; omega, rfl⟩
  · rintro ⟨j, hj, rfl⟩
    exact ⟨j.val, by omega, rfl⟩

theorem Listed.greeted_iff (h : Listed b) (hi : i.val < b.clientCount) :
    b.live.Greeted (b.row i).fd ↔ b.clientHelloReceived[i] = true := by
  constructor
  · rintro ⟨c, ⟨j, hj, rfl⟩, hfd, hello⟩
    rw [← h.slot_eq hj hi hfd]
    exact hello
  · exact fun hello => ⟨b.row i, row_mem_live hi, rfl, hello⟩

theorem closes_hello_iff {src : NodeId} (hserver : b.isServer = true) (hsaid : (read fd).hello? = some src) :
    Closes b read [] fd ↔ b.live.Greeted fd ∨ b.live.Claimed fd src := by
  have hread : (read fd).frame ≠ none := by
    intro hbroken
    rw [Read.hello?_of_broken hbroken] at hsaid
    cases hsaid
  unfold Closes Registry.Greeted Registry.Claimed
  simp only [hread, hserver, hsaid, heardFrom_nil, mem_clients, Option.some.injEq, exists_eq_left', false_or,
    true_and, and_comm]

/-- The rows after the client was registered. -/
theorem stayed_registered {q : HelloQueue} {trace : List BackendEffect} {src : NodeId} (h : Listed b)
    (hi : i.val < b.clientCount) (hsaid : (read (b.row i).fd).hello? = some src) :
    Stayed b read (b.row i).fd { b with
        clientNodeIds := b.clientNodeIds.set i src i.isLt
        clientHelloReceived := b.clientHelloReceived.set i true i.isLt
        helloQueue := q
        trace := trace } := by
  refine ⟨fds_congr rfl rfl, rfl, rfl, fun _ => ?_⟩
  generalize hres : TcpBackend.mk _ _ _ _ _ _ _ _ _ _ _ _ _ = b'
  have hcount : b'.clientCount = b.clientCount := by rw [← hres]
  apply List.ext_getElem
  · rw [List.length_map, length_clients h.count, length_clients (hcount ▸ h.count), hcount]
  · intro k hk hk'
    rw [length_clients (hcount ▸ h.count), hcount] at hk
    have hbound : k < maxTcpConnections := Nat.lt_of_lt_of_le hk h.count
    rw [List.getElem_map, getElem_clients _ hbound, getElem_clients _ hbound, ← hres, row_registered]
    by_cases heq : i = ⟨k, hbound⟩
    · rw [if_pos heq, ← heq, heardFrom, if_pos (List.mem_singleton_self _), Client.heard, hsaid]
    · have hother : (b.row ⟨k, hbound⟩).fd ≠ (b.row i).fd := fun hfd => heq (h.slot_eq hi hk hfd.symm)
      rw [if_neg heq, heardFrom, if_neg (by simpa using hother)]

theorem processHelloFrame_reads {src : NodeId} (h : Listed b) (hi : i.val < b.clientCount)
    (hserver : b.isServer = true) (hsaid : (read (b.row i).fd).hello? = some src)
    (hrun : b.processHelloFrame (b.row i).fd src = .ok (res, b')) :
    (Closes b read [] (b.row i).fd ∧ Dropped b i b') ∨
      (¬ Closes b read [] (b.row i).fd ∧ Stayed b read (b.row i).fd b') := by
  rw [closes_hello_iff hserver hsaid, h.greeted_iff hi]
  obtain ⟨b₁, hevict, herased⟩ := closeAndEvictSlot_clients h i.isLt hi
  unfold processHelloFrame at hrun
  obtain ⟨-, hrun⟩ := ensure_bind_eq_ok.mp hrun
  obtain ⟨-, hrun⟩ := ensure_bind_eq_ok.mp hrun
  simp only [h.slotOf? hi] at hrun
  by_cases hello : b.clientHelloReceived[i] = true
  · rw [if_pos hello, hevict, ok_bind] at hrun
    cases hrun
    exact .inl ⟨.inl hello, herased.dropped⟩
  · rw [if_neg hello] at hrun
    obtain ⟨b₂, hhandle, hrun⟩ := bind_eq_ok.mp hrun
    cases hrun
    unfold handleHelloFrame at hhandle
    obtain ⟨-, hhandle⟩ := ensure_bind_eq_ok.mp hhandle
    obtain ⟨-, hhandle⟩ := ensure_bind_eq_ok.mp hhandle
    cases hs : b.liveSlot? fun j => b.clientNodeIds[j] == src && b.clientFds[j] != (b.row i).fd with
    | some j =>
      have hclaimed := claimed_iff.mp ⟨j, hs⟩
      simp only [hs, hevict] at hhandle
      cases hhandle
      refine .inl ⟨.inr hclaimed, ?_, herased.isServer, herased.count⟩
      rw [← herased.dropped.fds]
      exact fds_congr rfl rfl
    | none =>
      have hfree : ¬ b.live.Claimed (b.row i).fd src := by
        intro hclaimed
        obtain ⟨j, hj⟩ := claimed_iff.mpr hclaimed
        rw [hs] at hj
        cases hj
      simp only [hs, h.slotOf? hi] at hhandle
      obtain ⟨q, -, hhandle⟩ := bind_eq_ok.mp hhandle
      cases hhandle
      exact .inr ⟨not_or.mpr ⟨hello, hfree⟩, stayed_registered h hi hsaid⟩

theorem applyInboundImpairment_table {env : MessageEnvelope} {nowUs : UInt64}
    (hrun : b.applyInboundImpairment fd env nowUs = .ok b') :
    b'.clientFds = b.clientFds ∧ b'.isServer = b.isServer ∧ b'.clientCount = b.clientCount ∧
      ∀ j, b'.row j = b.row j := by
  unfold applyInboundImpairment at hrun
  obtain ⟨⟨queued, inbox⟩, -, hrun⟩ := bind_eq_ok.mp hrun
  cases queued with
  | none =>
    cases hrun
    exact ⟨rfl, rfl, rfl, fun _ => rfl⟩
  | some out =>
    cases hrun
    exact ⟨rfl, rfl, rfl, fun _ => rfl⟩

/-- What `dispatch` does with a message that is no `HELLO` to a server. -/
theorem dispatch_stays {env : MessageEnvelope} {nowUs : UInt64}
    (hdata : ¬ (env.messageType = .hello ∧ b.isServer = true))
    (hrun : b.dispatch fd env nowUs = .ok (res, b')) :
    b'.clientFds = b.clientFds ∧ b'.isServer = b.isServer ∧ b'.clientCount = b.clientCount ∧
      (b.isServer = true → ∀ j, b'.row j = b.row j) := by
  unfold dispatch at hrun
  by_cases hello : env.messageType = .hello
  · have hclient : ¬ b.isServer = true := fun hserver => hdata ⟨hello, hserver⟩
    rw [if_pos hello, if_neg hclient] at hrun
    cases hrun
    exact ⟨rfl, rfl, rfl, fun _ _ => rfl⟩
  · rw [if_neg hello] at hrun
    dsimp only at hrun
    rw [ite_bind] at hrun
    obtain ⟨unregistered, -, hrun⟩ := bind_eq_ok.mp hrun
    split at hrun
    case isTrue =>
      cases hrun
      exact ⟨rfl, rfl, rfl, fun _ _ => rfl⟩
    case isFalse =>
      obtain ⟨valid, -, hrun⟩ := bind_eq_ok.mp hrun
      split at hrun
      case isTrue =>
        cases hrun
        exact ⟨rfl, rfl, rfl, fun _ _ => rfl⟩
      case isFalse =>
        obtain ⟨b₁, hinbound, hrun⟩ := bind_eq_ok.mp hrun
        cases hrun
        obtain ⟨hfds, hserver, hcount, hrows⟩ := applyInboundImpairment_table hinbound
        unfold lockServerNode at hfds hserver hcount hrows
        split at hfds
        case isTrue hlock =>
          rw [if_pos hlock] at hserver hcount
          refine ⟨hfds, hserver, hcount, fun hmode => ?_⟩
          rw [hmode] at hlock
          exact absurd hlock.1 (by decide)
        case isFalse hfree =>
          rw [if_neg hfree] at hserver hcount hrows
          exact ⟨hfds, hserver, hcount, fun _ => hrows⟩

/-- A read closes the client, as could be told beforehand, or leaves the table as it is. -/
theorem recvFromClient_reads (h : Listed b) (hi : i.val < b.clientCount) (hfd : (b.row i).fd = fd)
    (hrun : b.recvFromClient fd (read fd) = .ok (res, b')) :
    (Closes b read [] fd ∧ Dropped b i b') ∨ (¬ Closes b read [] fd ∧ Stayed b read fd b') := by
  subst hfd
  unfold recvFromClient at hrun
  obtain ⟨-, hrun⟩ := ensure_bind_eq_ok.mp hrun
  cases hframe : (read (b.row i).fd).frame with
  | none =>
    obtain ⟨b₁, hremove, herased⟩ := removeClientFd_clients h i.isLt hi
    simp only [hframe] at hrun
    rw [hremove, ok_bind] at hrun
    cases hrun
    exact .inl ⟨.inl hframe, herased.dropped⟩
  | some frame =>
    have hread : (read (b.row i).fd).frame ≠ none := by rw [hframe]; exact Option.some_ne_none frame
    simp only [hframe] at hrun
    obtain ⟨reply, hreply, hrun⟩ := bind_eq_ok.mp hrun
    cases reply with
    | error error =>
      cases hrun
      have hgarbled : (read (b.row i).fd).message? = none := by
        rw [Read.message?, hframe]
        simp only [Option.bind_some, Frame.message?, hreply]
      have hsilent : (read (b.row i).fd).hello? = none := by rw [Read.hello?, hgarbled]; rfl
      exact .inr ⟨not_closes hread fun _ => hsilent, .same hsilent rfl rfl rfl fun _ _ => rfl⟩
    | ok env =>
      have harrived : (read (b.row i).fd).message? = some env := by
        rw [Read.message?, hframe]
        exact Frame.message?_eq_some.mpr hreply
      have hsaid := Read.hello?_of_message harrived
      replace hrun : (b.note (.received (b.row i).fd env)).dispatch (b.row i).fd env
          (read (b.row i).fd).nowUs = .ok (res, b') := hrun
      have hnoted : Listed (b.note (.received (b.row i).fd env)) := ⟨h.count, h.opened, h.distinct⟩
      by_cases hgreets : env.messageType = .hello ∧ b.isServer = true
      · obtain ⟨hello, hserver⟩ := hgreets
        rw [if_pos hello] at hsaid
        have hserver' : (b.note (.received (b.row i).fd env)).isServer = true := hserver
        unfold dispatch at hrun
        rw [if_pos hello, if_pos hserver'] at hrun
        rcases processHelloFrame_reads hnoted hi hserver' hsaid hrun with ⟨hcloses, hdropped⟩ | ⟨hfree, hstayed⟩
        · exact .inl ⟨hcloses, hdropped.fds, hdropped.isServer, hdropped.count⟩
        · exact .inr ⟨hfree, hstayed.fds, hstayed.isServer, hstayed.count, hstayed.clients⟩
      · obtain ⟨hfds, hserver, hcount, hrows⟩ :=
          dispatch_stays (b := b.note (.received (b.row i).fd env)) hgreets hrun
        have hquiet : b.isServer = true → (read (b.row i).fd).hello? = none := by
          intro hmode
          rw [hsaid, if_neg fun hello => hgreets ⟨hello, hmode⟩]
        refine .inr ⟨not_closes hread hquiet, fds_congr hfds hcount, hserver, hcount, fun hmode => ?_⟩
        exact (Stayed.same (hquiet hmode) hfds hserver hcount hrows).clients hmode

/-! ## Reading one after the other -/

/-- The table after the clients on some descriptors were read and all of them stayed. -/
structure Heard (read : Int → Read) (b : TcpBackend) (earlier : List Int) (b' : TcpBackend) : Prop where
  listed : Listed b'
  fds : b'.fds = b.fds
  isServer : b'.isServer = b.isServer
  clients : b.isServer = true → b'.clients = b.clients.map (heardFrom read earlier)

theorem Heard.nil (h : Listed b) : Heard read b [] b where
  listed := h
  fds := rfl
  isServer := rfl
  clients _ := (List.map_id'' heardFrom_nil b.clients).symm

/-- Whether a read closes the client can be told from the table before all the reads. -/
theorem Heard.closes_iff (h : Heard read b earlier b') (hnew : fd ∉ earlier) :
    Closes b' read [] fd ↔ Closes b read earlier fd := by
  unfold Closes
  rw [h.isServer]
  refine or_congr_right (and_congr_right fun hmode => exists_congr fun src => and_congr_right fun _ => ?_)
  simp only [h.clients hmode, List.mem_map, exists_exists_and_eq_and, heardFrom_fd, heardFrom_nil]
  refine or_congr_left (exists_congr fun c => and_congr_right fun _ => and_congr_right fun hfd => ?_)
  rw [heardFrom, if_neg (hfd ▸ hnew)]

theorem heardFrom_concat (hnew : fd ∉ earlier) (c : Client) :
    heardFrom read [fd] (heardFrom read earlier c) = heardFrom read (earlier ++ [fd]) c := by
  by_cases hmem : c.fd ∈ earlier
  · have hother : c.fd ∉ [fd] := by
      rw [List.mem_singleton]
      rintro rfl
      exact hnew hmem
    rw [heardFrom, heardFrom_fd, if_neg hother, heardFrom, heardFrom, if_pos hmem,
      if_pos (List.mem_append_left _ hmem)]
  · have hsame : heardFrom read earlier c = c := if_neg hmem
    rw [hsame, heardFrom, heardFrom]
    simp only [List.mem_append, hmem, false_or]

/-- One more client was read and stayed. -/
theorem Heard.step {b'' : TcpBackend} (h : Heard read b earlier b') (hnew : fd ∉ earlier)
    (hstayed : Stayed b' read fd b'') : Heard read b (earlier ++ [fd]) b'' where
  listed := h.listed.of_fds (hstayed.count ▸ h.listed.count) (hstayed.fds ▸ List.Sublist.refl _)
  fds := hstayed.fds.trans h.fds
  isServer := hstayed.isServer.trans h.isServer
  clients hmode := by
    rw [hstayed.clients (h.isServer.trans hmode), h.clients hmode, List.map_map]
    exact List.map_congr_left fun c _ => heardFrom_concat hnew c

end TcpBackend

end MessageEngine
