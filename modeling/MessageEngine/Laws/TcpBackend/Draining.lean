import MessageEngine.Core.TcpTransport
import MessageEngine.Laws.TcpBackend.Reading

/-!
# Draining the readable clients

`drain_readable_clients` walks the client table and the snapshot of `poll` with one index. As long as every
client stays, entry and client belong together. A client that is closed takes its row with it: those behind
it move up, the index goes on, and from there an entry decides about the client behind its own. The client
right behind the closed one is passed over, and the next readable one is not read.

## What is proved

- `drains`: the loop, read by read;
- `buildPollFds_fds`: the snapshot is the table;
- `drain_reads_iff`: every readable client is read, once, and no other, exactly when none of them but the
  last is closed by its read.
-/

namespace MessageEngine

open Outcome Table

namespace TcpTransport

open TcpBackend

variable {t t' t₁ : TcpTransport} {b : TcpBackend} {ready : Nat → Bool} {read : Int → Read} {base i j : Nat}
  {snapshot earlier new pfds : List Int} {hasListen : Bool} {fd q : Int} {turn : TcpTurn}

/-- The readable ones among the clients of a snapshot, whose first entry has the index `base`. -/
def readable (ready : Nat → Bool) (base : Nat) (clients : List Int) : List Int :=
  ((clients.zipIdx base).filter fun entry => ready entry.2).map Prod.fst

/-- The clients whose entries in the snapshot have `POLLIN` set. -/
def polledIn (pfds : List Int) (hasListen : Bool) (ready : Nat → Bool) : List Int :=
  let base := if hasListen then 1 else 0
  readable ready base (pfds.drop base)

/-- A client table: the clients in front, each on its own open descriptor, and nobody behind them. -/
structure Tabled (b : TcpBackend) : Prop extends Listed b where
  vacant : ∀ k : Fin maxTcpConnections, b.clientCount ≤ k.val →
    b.clientFds[k] = -1 ∧ b.clientNodeIds[k] = nodeIdInvalid

/-- Such is every table of a server. -/
theorem Shaped.tabled (h : Shaped b) : Tabled b where
  count := h.count
  opened c hc := h.sound.opened c (mem_clients.mp hc)
  distinct := by
    have hlen := length_fds h.count
    have hbound := h.count
    refine List.pairwise_iff_getElem.mpr fun k l hk hl hlt heq => ?_
    have hk' : k < b.fds.length := hk
    have hl' : l < b.fds.length := hl
    have hkb : k < maxTcpConnections := by omega
    have hlb : l < maxTcpConnections := by omega
    have hsame : b.clientFds[k] = b.clientFds[l] := by
      rw [← getElem_fds hk' hkb, ← getElem_fds hl' hlb]
      exact heq
    have hslot := congrArg Fin.val (h.distinct ⟨k, hkb⟩ ⟨l, hlb⟩ (by simp only; omega) (by simp only; omega) hsame)
    simp only at hslot
    omega
  vacant := h.unused

/-- The loop of `drain_readable_clients` from index `i` on, with the descriptors it reads. -/
inductive Drains (ready : Nat → Bool) (read : Int → Read) (base nfds : Nat) :
    Nat → TcpTransport → List Int → TcpTransport → Prop where
  | done {i : Nat} {t : TcpTransport} (ended : i < t.backend.clientCount → nfds ≤ base + i) :
      Drains ready read base nfds i t [] t
  | skip {i : Nat} {t t' : TcpTransport} {new : List Int} (more : i < t.backend.clientCount)
      (entry : base + i < nfds) (idle : ready (base + i) = false)
      (rest : Drains ready read base nfds (i + 1) t new t') : Drains ready read base nfds i t new t'
  | read {i : Nat} {t t₁ t' : TcpTransport} {new : List Int} (hi : i < maxTcpConnections)
      (more : i < t.backend.clientCount) (entry : base + i < nfds) (polled : ready (base + i) = true)
      (call : t.recvFromClient t.backend.clientFds[i] read = .ok t₁)
      (rest : Drains ready read base nfds (i + 1) t₁ new t') :
      Drains ready read base nfds i t (t.backend.clientFds[i] :: new) t'

/-- The rounds of the loop suffice. -/
theorem drains {nfds rounds : Nat} (hrounds : nfds ≤ base + i + rounds)
    (hrun : drainReadableClients.loop ready nfds base read rounds i t = .ok t') :
    ∃ new, Drains ready read base nfds i t new t' := by
  induction rounds generalizing i t with
  | zero =>
    cases hrun
    exact ⟨[], .done fun _ => hrounds⟩
  | succ rounds ih =>
    have hrounds' : nfds ≤ base + (i + 1) + rounds := by omega
    rw [drainReadableClients.loop] at hrun
    split at hrun
    case isFalse hcount =>
      cases hrun
      exact ⟨[], .done fun hi => absurd hi hcount⟩
    case isTrue more =>
      split at hrun
      case isTrue hend =>
        cases hrun
        exact ⟨[], .done fun _ => hend⟩
      case isFalse hentry =>
        split at hrun
        case isTrue hready =>
          split at hrun
          case isTrue hi =>
            obtain ⟨t₁, hcall, hrun⟩ := bind_eq_ok.mp hrun
            obtain ⟨new, hrest⟩ := ih hrounds' hrun
            exact ⟨_, .read hi more (Nat.lt_of_not_le hentry) hready hcall hrest⟩
          case isFalse => cases hrun
        case isFalse hidle =>
          obtain ⟨new, hrest⟩ := ih hrounds' hrun
          exact ⟨new, .skip more (Nat.lt_of_not_le hentry) (Bool.eq_false_iff.mpr hidle) hrest⟩

/-- One read within the loop. -/
theorem recvFromClient_drain (h : Listed t.backend) (hi : i < maxTcpConnections)
    (more : i < t.backend.clientCount) (hrun : t.recvFromClient t.backend.clientFds[i] read = .ok t₁) :
    t₁.reads = t.reads ++ [t.backend.clientFds[i]] ∧
      ((Closes t.backend read [] t.backend.clientFds[i] ∧ Dropped t.backend i t₁.backend) ∨
        (¬ Closes t.backend read [] t.backend.clientFds[i] ∧
          Stayed t.backend read t.backend.clientFds[i] t₁.backend)) := by
  unfold recvFromClient at hrun
  obtain ⟨-, hrun⟩ := ensure_bind_eq_ok.mp hrun
  obtain ⟨⟨res, b₁⟩, hread, hrun⟩ := bind_eq_ok.mp hrun
  cases hrun
  exact ⟨rfl, recvFromClient_reads h (i := ⟨i, hi⟩) more rfl hread⟩

theorem Dropped.listed {b' : TcpBackend} (hdropped : Dropped b i b') (h : Listed b) : Listed b' := by
  refine h.of_fds ?_ (hdropped.fds ▸ List.eraseIdx_sublist _ _)
  rw [hdropped.count]
  exact Nat.le_trans (Nat.sub_le _ _) h.count

theorem Stayed.listed {b' : TcpBackend} (hstayed : Stayed b read fd b') (h : Listed b) : Listed b' :=
  h.of_fds (hstayed.count ▸ h.count) (hstayed.fds ▸ List.Sublist.refl _)

/-- Whatever the read does, the table loses at most the client that was read. -/
theorem recvFromClient_fds (h : Listed t.backend) (hi : i < maxTcpConnections)
    (more : i < t.backend.clientCount) (hrun : t.recvFromClient t.backend.clientFds[i] read = .ok t₁) :
    Listed t₁.backend ∧ (t₁.backend.fds = t.backend.fds ∨ t₁.backend.fds = t.backend.fds.eraseIdx i) := by
  rcases (recvFromClient_drain h hi more hrun).2 with ⟨-, hdropped⟩ | ⟨-, hstayed⟩
  · exact ⟨Dropped.listed hdropped h, .inr hdropped.fds⟩
  · exact ⟨Stayed.listed hstayed h, .inl hstayed.fds⟩

theorem Drains.reads {nfds : Nat} (h : Drains ready read base nfds i t new t') (hlisted : Listed t.backend) :
    t'.reads = t.reads ++ new := by
  induction h with
  | done => exact (List.append_nil _).symm
  | skip _ _ _ _ ih => exact ih hlisted
  | read hi more _ _ call _ ih =>
    rw [ih (recvFromClient_fds hlisted hi more call).1, (recvFromClient_drain hlisted hi more call).1,
      List.append_assoc, List.singleton_append]

/-- A client that is not read is not closed. -/
theorem Drains.unread_stays {nfds : Nat} (h : Drains ready read base nfds i t new t')
    (hlisted : Listed t.backend) (hmem : q ∈ t.backend.fds) (hunread : q ∉ new) : q ∈ t'.backend.fds := by
  induction h with
  | done => exact hmem
  | skip _ _ _ _ ih => exact ih hlisted hmem hunread
  | @read i t t₁ t' new hi more _ _ call _ ih =>
    obtain ⟨hlisted', hfds⟩ := recvFromClient_fds hlisted hi more call
    rw [List.mem_cons, not_or] at hunread
    refine ih hlisted' ?_ hunread.2
    rcases hfds with hsame | hless
    · rw [hsame]
      exact hmem
    · rw [hless, List.mem_eraseIdx_iff_getElem]
      obtain ⟨k, hk, rfl⟩ := List.mem_iff_getElem.mp hmem
      refine ⟨k, hk, ?_, rfl⟩
      rintro rfl
      exact hunread.1 (getElem_fds hk hi)

/-! ## Entries and rows -/

theorem readable_cons (k : Nat) (rest : List Int) :
    readable ready k (fd :: rest) =
      if ready k then fd :: readable ready (k + 1) rest else readable ready (k + 1) rest := by
  unfold readable
  rw [List.zipIdx_cons, List.filter_cons]
  split
  · rfl
  · rfl

theorem readable_subset {k : Nat} {rest : List Int} (hmem : fd ∈ readable ready k rest) : fd ∈ rest := by
  obtain ⟨entry, hentry, rfl⟩ := List.mem_map.mp hmem
  exact List.fst_mem_of_mem_zipIdx (List.mem_filter.mp hentry).1

theorem readable_nodup {k : Nat} {rest : List Int} (hdistinct : rest.Nodup) : (readable ready k rest).Nodup := by
  have hsub : (readable ready k rest).Sublist rest := by
    have hfilter : ((rest.zipIdx k).filter fun entry => ready entry.2).Sublist (rest.zipIdx k) := List.filter_sublist
    have hfirst := hfilter.map Prod.fst
    rw [List.zipIdx_map_fst] at hfirst
    exact hfirst
  exact hsub.nodup hdistinct

theorem drop_eraseIdx {l : List Int} {m : Nat} (hle : i ≤ m) : (l.eraseIdx i).drop m = l.drop (m + 1) := by
  apply List.ext_getElem?
  intro k
  rw [List.getElem?_drop, List.getElem?_drop, List.getElem?_eraseIdx_of_ge (by omega), Nat.add_right_comm]

/-- Nobody is readable any more, so nobody is read. -/
theorem Drains.idle (h : Drains ready read base (base + snapshot.length) i t new t')
    (hnone : readable ready (base + i) (snapshot.drop i) = []) : new = [] := by
  induction h with
  | done => rfl
  | @skip i _ _ _ _ entry idle _ ih =>
    have hlt : i < snapshot.length := by omega
    rw [List.drop_eq_getElem_cons hlt, readable_cons, if_neg (by simpa using idle)] at hnone
    exact ih hnone
  | @read i _ _ _ _ _ _ entry polled _ _ _ =>
    have hlt : i < snapshot.length := by omega
    rw [List.drop_eq_getElem_cons hlt, readable_cons, if_pos polled] at hnone
    cases hnone

/-- A client whose row the index has passed is not read. -/
theorem Drains.passed {nfds : Nat} (h : Drains ready read base nfds i t new t') (hlisted : Listed t.backend)
    (hpassed : q ∉ t.backend.fds.drop i) : q ∉ new := by
  induction h with
  | done => exact List.not_mem_nil
  | @skip i t _ _ _ _ _ _ ih =>
    refine ih hlisted fun hmem => hpassed ?_
    rw [← List.drop_drop] at hmem
    exact List.mem_of_mem_drop hmem
  | @read i t t₁ _ _ hi more _ _ call _ ih =>
    obtain ⟨hlisted', hfds⟩ := recvFromClient_fds hlisted hi more call
    have hlt : i < t.backend.fds.length := (length_fds hlisted.count).symm ▸ more
    rw [List.drop_eq_getElem_cons hlt, getElem_fds hlt hi, List.mem_cons, not_or] at hpassed
    rw [List.mem_cons, not_or]
    refine ⟨hpassed.1, ih hlisted' fun hmem => hpassed.2 ?_⟩
    rcases hfds with hsame | hless
    · exact hsame ▸ hmem
    · rw [hless, drop_eraseIdx (Nat.le_succ i), ← List.drop_drop] at hmem
      exact List.mem_of_mem_drop hmem

/-- After the client in row `i` was closed the index runs one row ahead of the clients. -/
theorem Drains.missed (h : Drains ready read base (base + snapshot.length) j t new t')
    (hlisted : Listed t.backend) {all : List Int} (hpre : snapshot <+: all) (hdistinct : all.Nodup)
    (hfds : t.backend.fds = all.eraseIdx i) (hahead : i < j)
    (hnext : (readable ready (base + j) (snapshot.drop j)).head? = some q) : q ∉ new := by
  induction h with
  | @done j t ended =>
    exact List.not_mem_nil
  | @skip j t _ _ _ entry idle _ ih =>
    have hlt : j < snapshot.length := by omega
    rw [List.drop_eq_getElem_cons hlt, readable_cons, if_neg (by simpa using idle)] at hnext
    exact ih hlisted hfds (Nat.lt_succ_of_lt hahead) hnext
  | @read j t t₁ t' new hj more entry polled call rest ih =>
    have hlt : j < snapshot.length := by omega
    have hlt' : j < all.length := Nat.lt_of_lt_of_le hlt hpre.length_le
    rw [List.drop_eq_getElem_cons hlt, readable_cons, if_pos polled, List.head?_cons, Option.some.injEq,
      hpre.getElem hlt] at hnext
    have hpassed : q ∉ t.backend.fds.drop j := by
      rw [hfds, drop_eraseIdx (Nat.le_of_lt hahead)]
      intro hmem
      have htail := hdistinct.sublist (List.drop_sublist j all)
      rw [List.drop_eq_getElem_cons hlt', hnext, List.nodup_cons] at htail
      exact htail.1 hmem
    exact (Drains.read hj more entry polled call rest).passed hlisted hpassed

/-! ## All the readable clients -/

/-- The clients that were read, while none of them has been closed, and where the loop goes on. -/
structure Going (read : Int → Read) (b : TcpBackend) (snapshot earlier : List Int) (i : Nat)
    (t : TcpTransport) : Prop where
  heard : Heard read b earlier t.backend
  front : snapshot <+: b.fds
  behind : earlier ⊆ snapshot.take i

theorem Going.skip (h : Going read b snapshot earlier i t) : Going read b snapshot earlier (i + 1) t :=
  ⟨h.heard, h.front, fun _ hmem => (List.take_sublist_take_left (Nat.le_succ i)).subset (h.behind hmem)⟩

theorem Going.fresh (h : Going read b snapshot earlier i t) (hlt : i < snapshot.length) : snapshot[i] ∉ earlier := by
  intro hmem
  have hdistinct : snapshot.Nodup := by
    refine h.front.sublist.nodup ?_
    rw [← h.heard.fds]
    exact h.heard.listed.distinct
  obtain ⟨k, hk, hget⟩ := List.mem_take_iff_getElem.mp (h.behind hmem)
  have hki := (hdistinct.getElem_inj_iff).mp hget
  omega

theorem Going.stayed (h : Going read b snapshot earlier i t) (hlt : i < snapshot.length)
    (hstayed : Stayed t.backend read snapshot[i] t₁.backend) :
    Going read b snapshot (earlier ++ [snapshot[i]]) (i + 1) t₁ where
  heard := h.heard.step (h.fresh hlt) hstayed
  front := h.front
  behind := by
    rw [List.take_add_one, List.getElem?_eq_getElem hlt]
    exact List.append_subset.mpr ⟨fun fd hmem => List.mem_append_left _ (h.behind hmem),
      fun fd hmem => List.mem_append_right _ hmem⟩

/-- As long as none but the last is closed by its read, all the readable clients are read. -/
theorem Drains.reads_all (h : Drains ready read base (base + snapshot.length) i t new t')
    (hgoing : Going read b snapshot earlier i t)
    (hstay : ∀ before fd after, readable ready (base + i) (snapshot.drop i) = before ++ fd :: after →
      after ≠ [] → ¬ Closes b read (earlier ++ before) fd) :
    new = readable ready (base + i) (snapshot.drop i) := by
  induction h generalizing earlier with
  | @done i t ended =>
    have hlen : snapshot.length ≤ t.backend.clientCount := by
      rw [← length_fds hgoing.heard.listed.count, hgoing.heard.fds]
      exact hgoing.front.length_le
    have hall : snapshot.length ≤ i := by omega
    rw [List.drop_of_length_le hall]
    rfl
  | @skip i t t' new more entry idle _ ih =>
    have hlt : i < snapshot.length := by omega
    rw [List.drop_eq_getElem_cons hlt, readable_cons, if_neg (by simpa using idle)] at hstay ⊢
    exact ih hgoing.skip hstay
  | @read i t t₁ t' new hi more entry polled call rest ih =>
    have hlt : i < snapshot.length := by omega
    have hlt' : i < t.backend.fds.length := (length_fds hgoing.heard.listed.count).symm ▸ more
    have hfront : snapshot <+: t.backend.fds := hgoing.heard.fds ▸ hgoing.front
    have hfd : t.backend.clientFds[i] = snapshot[i] := by rw [hfront.getElem hlt, getElem_fds hlt' hi]
    rw [List.drop_eq_getElem_cons hlt, readable_cons, if_pos polled] at hstay ⊢
    rw [hfd]
    congr 1
    cases hrest : readable ready (base + i + 1) (snapshot.drop (i + 1)) with
    | nil => exact rest.idle hrest
    | cons next after =>
      have hkept := hstay [] snapshot[i] _ rfl (hrest ▸ List.cons_ne_nil next after)
      rw [List.append_nil] at hkept
      rcases (recvFromClient_drain hgoing.heard.listed hi more call).2 with ⟨hcloses, -⟩ | ⟨-, hstayed⟩
      · rw [hfd, hgoing.heard.closes_iff (hgoing.fresh hlt)] at hcloses
        exact absurd hcloses hkept
      · rw [← hrest]
        refine ih (hgoing.stayed hlt (hfd ▸ hstayed)) fun before fd after hsplit hafter => ?_
        rw [List.append_assoc]
        exact hstay (snapshot[i] :: before) fd after (by rw [Nat.add_assoc, hsplit]; rfl) hafter

/-- When one of them is closed, and it is not the last, a readable client is missed. -/
theorem Drains.reads_less (h : Drains ready read base (base + snapshot.length) i t new t')
    (hgoing : Going read b snapshot earlier i t) {before after : List Int}
    (hsplit : readable ready (base + i) (snapshot.drop i) = before ++ fd :: after) (hafter : after ≠ [])
    (hcloses : Closes b read (earlier ++ before) fd) :
    ∃ q ∈ readable ready (base + i) (snapshot.drop i), q ∉ new := by
  induction h generalizing earlier before with
  | @done i t ended =>
    have hlen : snapshot.length ≤ t.backend.clientCount := by
      rw [← length_fds hgoing.heard.listed.count, hgoing.heard.fds]
      exact hgoing.front.length_le
    have hall : snapshot.length ≤ i := by omega
    rw [List.drop_of_length_le hall] at hsplit
    exact absurd hsplit.symm (List.append_ne_nil_of_right_ne_nil before (List.cons_ne_nil fd after))
  | @skip i t t' new more entry idle _ ih =>
    have hlt : i < snapshot.length := by omega
    rw [List.drop_eq_getElem_cons hlt, readable_cons, if_neg (by simpa using idle)] at hsplit ⊢
    exact ih hgoing.skip hsplit hcloses
  | @read i t t₁ t' new hi more entry polled call rest ih =>
    have hlisted := hgoing.heard.listed
    have hlt : i < snapshot.length := by omega
    have hlt' : i < t.backend.fds.length := (length_fds hlisted.count).symm ▸ more
    have hfront : snapshot <+: t.backend.fds := hgoing.heard.fds ▸ hgoing.front
    have hfd : t.backend.clientFds[i] = snapshot[i] := by rw [hfront.getElem hlt, getElem_fds hlt' hi]
    have hother : ∀ q ∈ snapshot.drop (i + 1), q ≠ t.backend.clientFds[i] := by
      have htail := (hfront.sublist.nodup hlisted.distinct).sublist (List.drop_sublist i snapshot)
      rw [List.drop_eq_getElem_cons hlt, List.nodup_cons] at htail
      rintro q hq rfl
      exact htail.1 (hfd ▸ hq)
    rw [List.drop_eq_getElem_cons hlt, readable_cons, if_pos polled] at hsplit ⊢
    have hmore : readable ready (base + i + 1) (snapshot.drop (i + 1)) ≠ [] := by
      intro hnone
      rw [hnone] at hsplit
      cases before with
      | nil => exact hafter (List.cons.inj hsplit).2.symm
      | cons c before =>
        exact List.append_ne_nil_of_right_ne_nil before (List.cons_ne_nil fd after) (List.cons.inj hsplit).2.symm
    -- It is enough to find one among those behind.
    suffices hfound : ∃ q ∈ readable ready (base + i + 1) (snapshot.drop (i + 1)), q ∉ new by
      obtain ⟨q, hq, hunread⟩ := hfound
      refine ⟨q, List.mem_cons_of_mem _ hq, ?_⟩
      rw [List.mem_cons, not_or]
      exact ⟨hother q (readable_subset hq), hunread⟩
    rcases (recvFromClient_drain hlisted hi more call).2 with ⟨-, hdropped⟩ | ⟨hkept, hstayed⟩
    · obtain ⟨q, after', hnext⟩ := List.exists_cons_of_ne_nil hmore
      refine ⟨q, hnext ▸ List.mem_cons_self, ?_⟩
      exact rest.missed (Dropped.listed hdropped hlisted) hfront hlisted.distinct hdropped.fds
        (Nat.lt_succ_self i) (congrArg List.head? hnext)
    · rw [hfd, hgoing.heard.closes_iff (hgoing.fresh hlt)] at hkept
      cases before with
      | nil =>
        rw [(List.cons.inj hsplit).1, ← List.append_nil earlier] at hkept
        exact absurd hcloses hkept
      | cons c before =>
        obtain ⟨hhead, htail⟩ := List.cons.inj hsplit
        rw [Nat.add_assoc] at htail
        refine ih (hgoing.stayed hlt (hfd ▸ hstayed)) htail ?_
        rw [List.append_assoc, hhead]
        exact hcloses

/-! ## The snapshot -/

/-- What `build_poll_fds` collects is the table, behind the listening socket. -/
theorem buildPollFds_fds {cap : Nat} (h : Tabled t.backend)
    (hrun : t.buildPollFds cap = .ok (pfds, hasListen)) :
    pfds = (if hasListen then [t.listenFd] else []) ++ t.backend.fds ∧
      pfds.drop (if hasListen then 1 else 0) = t.backend.fds := by
  unfold buildPollFds at hrun
  obtain ⟨collected, hloop, hrun⟩ := bind_eq_ok.mp hrun
  obtain ⟨-, hrun⟩ := ensure_bind_eq_ok.mp hrun
  have hpair := Except.ok.inj hrun
  obtain rfl := (Prod.mk.inj hpair).1
  rw [(Prod.mk.inj hpair).2] at hloop
  have hlen := length_fds h.count
  have hcollected : collected =
      (if hasListen then [t.listenFd] else []) ++ t.backend.fds.take maxTcpConnections := by
    refine eachIndex_inv (I := fun k pfds => pfds = (if hasListen then [t.listenFd] else []) ++ t.backend.fds.take k)
      hloop (List.append_nil _).symm fun k pfds pfds' hinv hround => ?_
    unfold buildPollFds.round at hround
    by_cases hlive : k.val < t.backend.clientCount
    · have hk : k.val < t.backend.fds.length := hlen.symm ▸ hlive
      have hopen : t.backend.clientFds[k] ≥ 0 := h.opened _ (row_mem_clients hlive h.count)
      rw [if_pos hopen] at hround
      obtain ⟨-, hround⟩ := ensure_bind_eq_ok.mp hround
      cases hround
      rw [hinv, List.take_add_one, List.getElem?_eq_getElem hk, getElem_fds hk k.isLt, List.append_assoc]
      rfl
    · have hclosed : ¬ t.backend.clientFds[k] ≥ 0 := by
        rw [(h.vacant k (Nat.le_of_not_lt hlive)).1]
        decide
      rw [if_neg hclosed] at hround
      cases hround
      rw [hinv, List.take_of_length_le (by omega), List.take_of_length_le (by omega)]
  rw [List.take_of_length_le (hlen.symm ▸ h.count)] at hcollected
  refine ⟨hcollected, ?_⟩
  rw [hcollected]
  cases hasListen with
  | true => rfl
  | false => rfl

/-! ## Accepting between polling and draining -/

/-- At most one newcomer, behind the others, on the new descriptor. -/
theorem acceptClients_clients {b' : TcpBackend} {os : Nat → Round} {nowUs : UInt64} (h : Tabled b)
    (hfresh : fd ∉ b.fds) (hrun : b.acceptClients fd os nowUs = .ok b') :
    Listed b' ∧ b'.isServer = b.isServer ∧ (b'.clients = b.clients ∨
      b'.clients = b.clients ++ [Registry.newcomer fd nowUs]) := by
  unfold TcpBackend.acceptClients at hrun
  obtain ⟨-, hrun⟩ := ensure_bind_eq_ok.mp hrun
  split at hrun
  case isFalse =>
    cases hrun
    exact ⟨h.toListed, rfl, .inl rfl⟩
  case isTrue hroom =>
    split at hrun
    case isTrue =>
      cases hrun
      exact ⟨h.toListed, rfl, .inl rfl⟩
    case isFalse hopen =>
      obtain ⟨hcount', hrun⟩ := ensure_bind_eq_ok.mp hrun
      have hres := Except.ok.inj hrun
      have hnew : b.clientNodeIds[b.clientCount] = nodeIdInvalid :=
        (h.vacant ⟨b.clientCount, hroom⟩ (Nat.le_refl _)).2
      have hcount : b'.clientCount = b.clientCount + 1 := by rw [← hres]; rfl
      have hlast : b'.row ⟨b.clientCount, hroom⟩ = Registry.newcomer fd nowUs := by
        rw [← hres]
        simp [row, note, Registry.newcomer, hnew]
      have hold (k : Fin maxTcpConnections) (hk : k.val ≠ b.clientCount) : b'.row k = b.row k := by
        rw [← hres]
        simp [row, note, Vector.getElem_set_ne _ _ (Ne.symm hk)]
      have hclients : b'.clients = b.clients ++ [Registry.newcomer fd nowUs] := by
        apply List.ext_getElem
        · rw [List.length_append, length_clients h.count, length_clients (hcount ▸ hcount'), hcount]
          rfl
        · intro k hk hk'
          rw [length_clients (hcount ▸ hcount'), hcount] at hk
          have hbound : k < maxTcpConnections := Nat.lt_of_lt_of_le hk hcount'
          rw [getElem_clients _ hbound, List.getElem_append]
          split
          case isTrue hlt =>
            rw [length_clients h.count] at hlt
            rw [getElem_clients _ hbound, hold ⟨k, hbound⟩ (Nat.ne_of_lt hlt)]
          case isFalse hge =>
            rw [length_clients h.count] at hge
            have hk : k = b.clientCount := by omega
            subst hk
            rw [hlast, List.getElem_singleton]
      refine ⟨⟨hcount ▸ hcount', ?_, ?_⟩, ?_, .inr hclients⟩
      · intro c hc
        rw [hclients] at hc
        rcases List.mem_append.mp hc with hold | hnew
        · exact h.opened c hold
        · rw [List.mem_singleton.mp hnew]
          exact Int.not_lt.mp hopen
      · rw [hclients, List.map_append]
        refine h.distinct.append (List.nodup_singleton _) ?_
        intro q hq hq'
        rw [List.map_singleton, List.mem_singleton] at hq'
        have hsame : q = fd := hq'
        exact hfresh (hsame ▸ hq)
      · rw [← hres]
        rfl

/-- The newcomer has no say in which reads close a client. -/
theorem closes_newcomer {b' : TcpBackend} {nowUs : UInt64} (hserver : b'.isServer = b.isServer)
    (hclients : b'.clients = b.clients ∨ b'.clients = b.clients ++ [Registry.newcomer q nowUs])
    (hold : fd ∈ b.fds) (hbefore : earlier ⊆ b.fds) (hfresh : q ∉ b.fds) :
    Closes b' read earlier fd ↔ Closes b read earlier fd := by
  rcases hclients with hsame | hmore
  · unfold Closes
    rw [hserver, hsame]
  · unfold Closes
    rw [hserver, hmore]
    refine or_congr_right (and_congr_right fun _ => exists_congr fun src => and_congr_right fun hsaid => ?_)
    have hunheard : heardFrom read earlier (Registry.newcomer q nowUs) = Registry.newcomer q nowUs :=
      if_neg fun hmem => hfresh (hbefore hmem)
    have hanonymous : (Registry.newcomer q nowUs).nodeId ≠ src := (Read.hello?_valid hsaid).symm
    have hother : (Registry.newcomer q nowUs).fd ≠ fd := by
      rintro rfl
      exact hfresh hold
    simp only [List.mem_append, List.mem_singleton, or_and_right, exists_or, exists_eq_left, hunheard, hanonymous,
      hother, false_and, and_false, or_false]

/-! ## The claim of the loop -/

/-- Whatever is polled, accepted and read: every client whose entry is readable is read, once, and nobody
else, if and only if reading the readable clients in order closes none of them but the last. A client that
is not read is not closed either. -/
theorem drain_reads_iff (h : Tabled t.backend)
    (hbuild : t.buildPollFds (maxTcpConnections + 1) = .ok (pfds, hasListen))
    (hfresh : turn.acceptedFd ∉ t.backend.fds)
    (hrun : t.acceptAndDrain turn pfds hasListen ready = .ok t') :
    ∃ new, t'.reads = t.reads ++ new ∧
      (∀ fd ∈ t.backend.fds, fd ∉ new → fd ∈ t'.backend.fds) ∧
      ((∀ fd, new.count fd = if fd ∈ polledIn pfds hasListen ready then 1 else 0) ↔
        ∀ before fd after, polledIn pfds hasListen ready = before ++ fd :: after → after ≠ [] →
          ¬ Closes t.backend turn.read before fd) := by
  obtain ⟨hpfds, hclients⟩ := buildPollFds_fds h hbuild
  unfold acceptAndDrain at hrun
  dsimp only at hrun
  rw [ite_bind] at hrun
  obtain ⟨t₁, haccept, hrun⟩ := bind_eq_ok.mp hrun
  have hlen : pfds.length = (if hasListen then 1 else 0) + t.backend.fds.length := by
    rw [hpfds, List.length_append]
    split
    · rfl
    · rfl
  unfold drainReadableClients at hrun
  obtain ⟨-, hrun⟩ := ensure_bind_eq_ok.mp hrun
  obtain ⟨new, hdrains⟩ := drains (Nat.le_add_left _ _) hrun
  rw [hlen] at hdrains
  -- The table of the drain is that of the snapshot, with at most one newcomer behind it.
  have htable : Listed t₁.backend ∧ t₁.backend.isServer = t.backend.isServer ∧ t₁.reads = t.reads ∧
      (t₁.backend.clients = t.backend.clients ∨
        t₁.backend.clients = t.backend.clients ++ [Registry.newcomer turn.acceptedFd turn.acceptUs]) := by
    split at haccept
    case isTrue =>
      obtain ⟨-, haccept⟩ := ensure_bind_eq_ok.mp haccept
      obtain ⟨backend, hnew, hdone⟩ := bind_eq_ok.mp haccept
      cases hdone
      obtain ⟨hlisted, hserver, hcases⟩ := acceptClients_clients h hfresh hnew
      exact ⟨hlisted, hserver, rfl, hcases⟩
    case isFalse =>
      cases haccept
      exact ⟨h.toListed, rfl, rfl, .inl rfl⟩
  obtain ⟨hlisted, hserver, hreads, hcases⟩ := htable
  have hfront : t.backend.fds <+: t₁.backend.fds := by
    unfold TcpBackend.fds
    rcases hcases with hsame | hmore
    · rw [hsame]
    · rw [hmore, List.map_append]
      exact List.prefix_append _ _
  have hgoing : Going turn.read t₁.backend t.backend.fds [] 0 t₁ :=
    ⟨.nil hlisted, hfront, List.nil_subset _⟩
  have hpolled : polledIn pfds hasListen ready =
      readable ready ((if hasListen then 1 else 0) + 0) (t.backend.fds.drop 0) := by
    unfold polledIn
    dsimp only
    rw [hclients]
    rfl
  refine ⟨new, by rw [hdrains.reads hlisted, hreads], fun fd hfd hunread => ?_, ?_⟩
  · exact hdrains.unread_stays hlisted (hfront.subset hfd) hunread
  have hcloses {before : List Int} {fd : Int} {after : List Int}
      (hsplit : polledIn pfds hasListen ready = before ++ fd :: after) :
      Closes t₁.backend turn.read before fd ↔ Closes t.backend turn.read before fd := by
    have hsub : before ++ fd :: after ⊆ t.backend.fds := by
      rw [← hsplit, hpolled]
      exact fun q hq => readable_subset hq
    refine closes_newcomer hserver hcases (hsub ?_) (fun q hq => hsub ?_) hfresh
    · exact List.mem_append_right _ List.mem_cons_self
    · exact List.mem_append_left _ hq
  constructor
  · intro hexact before fd after hsplit hafter hclosed
    obtain ⟨q, hq, hunread⟩ := hdrains.reads_less hgoing (hpolled.symm.trans hsplit) hafter
      ((hcloses hsplit).mpr hclosed)
    have hcount := hexact q
    rw [hpolled, if_pos hq, List.count_eq_zero.mpr hunread] at hcount
    cases hcount
  · intro hstay fd
    have hall := hdrains.reads_all hgoing fun before fd after hsplit hafter hclosed =>
      hstay before fd after (hpolled.trans hsplit) hafter ((hcloses (hpolled.trans hsplit)).mp hclosed)
    rw [← hpolled] at hall
    have hdistinct : new.Nodup := by
      rw [hall, hpolled]
      exact readable_nodup h.distinct
    rw [hall] at hdistinct ⊢
    rw [hdistinct.count]

/-! ### Two rounds of polling -/

/-- A server with the three clients `10`, `11` and `12`. -/
def lobby : TcpTransport where
  backend := waitingRoom
  listenFd := 3
  isOpen := true
  localNodeId := nodeIdInvalid
  reads := []

/-- The entries that are readable, and the clients that cannot be read. No connection comes in, and what
the others send is no message. -/
def lobbyTurn (entries : List Nat) (broken : List Int) : TcpTurn where
  sweepUs := 0
  ready := some (· ∈ entries)
  acceptedFd := -1
  os := fun _ => .timeout
  acceptUs := 0
  read fd := ⟨if fd ∈ broken then none else some ⟨[], by decide⟩, 1⟩
  flushUs := 1

theorem lobby_tabled : Tabled waitingRoom :=
  ⟨⟨by decide, by decide +kernel, by decide +kernel⟩, by decide +kernel⟩

/-- Nobody is closed, and the two readable clients are read. -/
theorem lobby_read : ∃ t',
    lobby.acceptAndDrain (lobbyTurn [1, 3] []) [3, 10, 11, 12] true (· ∈ [1, 3]) = .ok t' ∧
      ∀ fd, t'.reads.count fd = if fd ∈ [10, 12] then 1 else 0 := by
  have hrun : Succeeds (lobby.acceptAndDrain (lobbyTurn [1, 3] []) [3, 10, 11, 12] true (· ∈ [1, 3]))
      fun _ => True := by decide +kernel
  obtain ⟨t', hrun, -⟩ := hrun.exists
  have hbuild : lobby.buildPollFds (maxTcpConnections + 1) = .ok ([3, 10, 11, 12], true) := by decide +kernel
  obtain ⟨new, hreads, -, hiff⟩ := drain_reads_iff (t := lobby) lobby_tabled hbuild (by decide +kernel) hrun
  refine ⟨t', hrun, ?_⟩
  rw [hreads]
  refine hiff.mpr fun before fd after _ _ => ?_
  have hread : (lobbyTurn [1, 3] []).read fd = ⟨some ⟨[], by decide⟩, 1⟩ := rfl
  have hquiet : ((lobbyTurn [1, 3] []).read fd).hello? = none := by
    rw [hread]
    decide +kernel
  exact not_closes (by rw [hread]; exact Option.some_ne_none _) fun _ => hquiet

/-- Client `10` has hung up and is closed. Client `11`, which is readable, is passed over; client `12`,
which has nothing to say, is read in its place and closed. -/
theorem neighbour_read : ∃ pfds t', lobby.buildPollFds (maxTcpConnections + 1) = .ok (pfds, true) ∧
    lobby.acceptAndDrain (lobbyTurn [1, 2] [10, 12]) pfds true (· ∈ [1, 2]) = .ok t' ∧
    polledIn pfds true (· ∈ [1, 2]) = [10, 11] ∧ t'.reads = [10, 12] ∧ t'.backend.fds = [11] := by
  have hrun : Succeeds (lobby.acceptAndDrain (lobbyTurn [1, 2] [10, 12]) [3, 10, 11, 12] true (· ∈ [1, 2]))
      fun t' => t'.reads = [10, 12] ∧ t'.backend.fds = [11] := by decide +kernel
  obtain ⟨t', hrun, hreads⟩ := hrun.exists
  exact ⟨[3, 10, 11, 12], t', by decide +kernel, hrun, by decide, hreads⟩

end TcpTransport

end MessageEngine
