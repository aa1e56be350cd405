import MessageEngine.Core.OrderingBuffer

/-!
# Laws of the ordering gate

Two views say all there is to say about the gate: `cursor?`, the sequence number a tracked source
is expected to send next, and `Held`, the messages that wait in a hold. The invariant keeps both
unambiguous (one entry for a source, one hold for a sequence number) and ties them together: a
message is held only for a tracked source. `Q` is any property of the messages that were handed in.

The last point is why the gate cannot fail. A source that is not tracked yet may have to push
another one out, and there are more entries than holds, so some entry holds nothing.

## What is proved

Each operation never fails on a gate in order, keeps it in order, and does to the two views
exactly what its specification says: `ingest_spec`, `tryReleaseNext_spec`, `resetPeer_spec` and
`sweepExpiredHolds_spec`.
-/

namespace MessageEngine

open Outcome Table

namespace OrderingBuffer

/-! ## Sequence numbers -/

/-- The sequence number after `seq`; zero is skipped. -/
def nextSeq (seq : UInt32) : UInt32 := if seq + 1 = 0 then 1 else seq + 1

/-- The last sequence number before the wrap. -/
abbrev lastSeq : UInt32 := 0xFFFFFFFF

theorem add_one_eq_zero {seq : UInt32} : seq + 1 = 0 ↔ seq = lastSeq := by
  constructor
  · intro h
    have : seq = 0 - 1 := by rw [← h]; simp
    rw [this]
    rfl
  · rintro rfl
    rfl

theorem nextSeq_ne_zero (seq : UInt32) : nextSeq seq ≠ 0 := by
  unfold nextSeq
  split
  case isTrue _ => decide
  case isFalse h => exact h

theorem nextSeq_of_ne {seq : UInt32} (h : seq ≠ lastSeq) : nextSeq seq = seq + 1 :=
  if_neg fun hz => h (add_one_eq_zero.mp hz)

theorem lt_nextSeq_iff {seq x : UInt32} (h : seq ≠ lastSeq) : x < nextSeq seq ↔ x ≤ seq := by
  have hlt : seq.toNat < 4294967295 := by
    have hle : seq.toNat < 4294967296 := seq.toNat_lt
    have hne : seq.toNat ≠ 4294967295 := fun heq => h (UInt32.toNat_inj.mp heq)
    omega
  have hadd : (seq + 1).toNat = seq.toNat + 1 := by
    rw [UInt32.toNat_add]
    exact Nat.mod_eq_of_lt (by change seq.toNat + 1 < 4294967296; omega)
  rw [nextSeq_of_ne h, UInt32.lt_iff_toNat_lt, UInt32.le_iff_toNat_le, hadd]
  exact Nat.lt_succ_iff

theorem seqNextGuarded_eq {seq : UInt32} (h : seq ≠ 0) : seqNextGuarded seq = .ok (nextSeq seq) := by
  have heq : (if seq < 0xFFFFFFFF then seq + 1 else 1) = nextSeq seq := by
    unfold nextSeq
    by_cases hlast : seq = lastSeq
    · rw [hlast]
      rfl
    · have hne : seq + 1 ≠ 0 := fun hz => hlast (add_one_eq_zero.mp hz)
      have hle : seq ≤ lastSeq := UInt32.le_iff_toNat_le.mpr (Nat.lt_succ_iff.mp seq.toNat_lt)
      rw [if_neg hne, if_pos (UInt32.lt_of_le_of_ne hle hlast)]
  refine ensure_bind_eq_ok.mpr ⟨h, ?_⟩
  simp only [heq]
  exact ensure_bind_eq_ok.mpr ⟨nextSeq_ne_zero seq, rfl⟩

/-! ## The two views and the invariant -/

/-- The entry of a tracked source. -/
def PeerState.isFor (p : PeerState) (src : NodeId) : Prop := p.active = true ∧ p.src = src

/-- The message waits in a hold. -/
def Held (b : OrderingBuffer) (env : MessageEnvelope) : Prop :=
  ∃ i : Fin orderingHoldCount, b.hold[i].active = true ∧ b.hold[i].env = env

/-- The sequence number expected next from `src`, if it is tracked. -/
def cursor? (b : OrderingBuffer) (src : NodeId) : Option UInt32 :=
  (firstSlot? (fun p => p.active && p.src == src) b.peers).map fun i => b.peers[i].nextExpectedSeq

structure Inv (Q : MessageEnvelope → Prop) (b : OrderingBuffer) : Prop where
  peerSource : ∀ i : Fin orderingPeerCount, b.peers[i].active = true → b.peers[i].src ≠ 0
  peerCursor : ∀ i : Fin orderingPeerCount, b.peers[i].active = true → b.peers[i].nextExpectedSeq ≠ 0
  peerDistinct : ∀ i j : Fin orderingPeerCount, b.peers[i].active = true →
    b.peers[j].isFor b.peers[i].src → j = i
  tracked : ∀ env, Held b env → ∃ i : Fin orderingPeerCount, b.peers[i].isFor env.sourceId
  holdSeq : ∀ env, Held b env → env.sequenceNum ≠ 0
  holdDistinct : ∀ i j : Fin orderingHoldCount, b.hold[i].active = true → b.hold[j].active = true →
    b.hold[j].env.sourceId = b.hold[i].env.sourceId →
    b.hold[j].env.sequenceNum = b.hold[i].env.sequenceNum → j = i
  holdOk : ∀ env, Held b env → Q env

variable {Q : MessageEnvelope → Prop} {b b' : OrderingBuffer} {src : NodeId}

theorem not_held_init (env : MessageEnvelope) : ¬ Held init env := by
  rintro ⟨i, h, -⟩
  simp [init] at h

theorem inv_init : Inv Q init := by
  have inactive (i : Fin orderingPeerCount) : init.peers[i].active ≠ true := by simp [init]
  refine ⟨?_, ?_, ?_, ?_, ?_, ?_, ?_⟩
  · exact fun i h => absurd h (inactive i)
  · exact fun i h => absurd h (inactive i)
  · exact fun i j h => absurd h (inactive i)
  · exact fun env h => absurd h (not_held_init env)
  · exact fun env h => absurd h (not_held_init env)
  · exact fun i j h => absurd ⟨i, h, rfl⟩ (not_held_init _)
  · exact fun env h => absurd h (not_held_init env)

theorem Inv.mono {R : MessageEnvelope → Prop} (inv : Inv Q b) (h : ∀ env, Q env → R env) :
    Inv R b :=
  ⟨inv.peerSource, inv.peerCursor, inv.peerDistinct, inv.tracked, inv.holdSeq, inv.holdDistinct,
    fun env henv => h env (inv.holdOk env henv)⟩

/-- The search for a source hits its entry. -/
theorem peer_found (inv : Inv Q b) {i : Fin orderingPeerCount} (h : b.peers[i].isFor src) :
    firstSlot? (fun p => p.active && p.src == src) b.peers = some i := by
  obtain ⟨hactive, hsrc⟩ := h
  apply firstSlot?_eq_some
  · rw [hactive, hsrc]
    simp
  · intro j hj
    simp only [Bool.and_eq_true, beq_iff_eq] at hj
    exact inv.peerDistinct i j hactive ⟨hj.1, hj.2.trans hsrc.symm⟩

theorem peer_missing (h : ∀ i : Fin orderingPeerCount, ¬ b.peers[i].isFor src) :
    firstSlot? (fun p => p.active && p.src == src) b.peers = none := by
  rw [firstSlot?_none]
  intro i
  have := h i
  simp only [PeerState.isFor] at this
  simpa using this

theorem cursor?_eq_some (inv : Inv Q b) {i : Fin orderingPeerCount} (h : b.peers[i].isFor src) :
    b.cursor? src = some b.peers[i].nextExpectedSeq := by
  rw [cursor?, peer_found inv h]
  rfl

theorem cursor?_eq_none (h : ∀ i : Fin orderingPeerCount, ¬ b.peers[i].isFor src) :
    b.cursor? src = none := by
  rw [cursor?, peer_missing h]
  rfl

/-- A cursor belongs to an entry. -/
theorem peer_of_cursor? {c : UInt32} (h : b.cursor? src = some c) :
    ∃ i : Fin orderingPeerCount, b.peers[i].isFor src ∧ b.peers[i].nextExpectedSeq = c := by
  obtain ⟨i, hi, hc⟩ := Option.map_eq_some_iff.mp h
  have hit := firstSlot?_some hi
  simp only [Bool.and_eq_true, beq_iff_eq] at hit
  exact ⟨i, hit, hc⟩

theorem no_peer_of_cursor? (h : b.cursor? src = none) (i : Fin orderingPeerCount) :
    ¬ b.peers[i].isFor src := by
  rintro ⟨hactive, hsrc⟩
  have := firstSlot?_none.mp (Option.map_eq_none_iff.mp h) i
  rw [hactive, hsrc] at this
  simp at this

theorem cursor?_init : init.cursor? src = none := by
  refine cursor?_eq_none fun i hi => ?_
  have hfree : init.peers[i].active = false := by simp [init]
  rw [hi.1] at hfree
  cases hfree

theorem Inv.cursor_ne_zero (inv : Inv Q b) {c : UInt32} (h : b.cursor? src = some c) : c ≠ 0 := by
  obtain ⟨i, hi, rfl⟩ := peer_of_cursor? h
  exact inv.peerCursor i hi.1

/-- A held message's source has a cursor. -/
theorem Inv.heldCursor (inv : Inv Q b) {env : MessageEnvelope} (h : Held b env) :
    ∃ c, b.cursor? env.sourceId = some c := by
  obtain ⟨i, hi⟩ := inv.tracked env h
  exact ⟨_, cursor?_eq_some inv hi⟩

/-- Sources that are all in a small set fit into the table, so a new one finds a free entry. -/
theorem not_full (inv : Inv Q b) {S : Finset NodeId} (hcard : S.card ≤ orderingPeerCount)
    (tracked : ∀ s c, b.cursor? s = some c → s ∈ S) (hsrc : src ∈ S) (hnew : b.cursor? src = none) :
    ¬ ∀ i : Fin orderingPeerCount, b.peers[i].active = true := by
  intro full
  have hmem (i : Fin orderingPeerCount) : b.peers[i].src ∈ S.erase src := by
    refine Finset.mem_erase.mpr ⟨fun hs => ?_, tracked _ _ (cursor?_eq_some inv ⟨full i, rfl⟩)⟩
    exact no_peer_of_cursor? hnew i ⟨full i, hs⟩
  have hfew : (S.erase src).card < (Finset.univ : Finset (Fin orderingPeerCount)).card := by
    rw [Finset.card_erase_of_mem hsrc, Finset.card_univ, Fintype.card_fin]
    have hpos : 0 < S.card := Finset.card_pos.mpr ⟨src, hsrc⟩
    omega
  obtain ⟨i, -, j, -, hne, heq⟩ :=
    Finset.exists_ne_map_eq_of_card_lt_of_maps_to hfew fun i _ => hmem i
  exact hne (inv.peerDistinct j i (full j) ⟨full i, heq⟩)

/-! ## Writing one entry -/

/-- An entry written over with the same source: only its cursor moves. -/
theorem Inv.touch (inv : Inv Q b) {i : Fin orderingPeerCount} (active : b.peers[i].active = true)
    {p : PeerState} (same : p.isFor b.peers[i].src) (hc : p.nextExpectedSeq ≠ 0) (lruCounter : UInt32) :
    Inv Q { b with peers := b.peers.set i p i.isLt, lruCounter } ∧
    ∀ s, cursor? { b with peers := b.peers.set i p i.isLt, lruCounter } s =
      if s = b.peers[i].src then some p.nextExpectedSeq else b.cursor? s := by
  have hget (j : Fin orderingPeerCount) : (b.peers.set i p i.isLt)[j] = if i = j then p else b.peers[j] :=
    getElem_set_fin _ _ _ _
  have hfor (j : Fin orderingPeerCount) (s : NodeId) :
      (b.peers.set i p i.isLt)[j].isFor s ↔ b.peers[j].isFor s := by
    rw [hget]
    split
    case isTrue h =>
      subst h
      simp only [PeerState.isFor, active, same.1, same.2]
    case isFalse _ => exact Iff.rfl
  have hinv : Inv Q { b with peers := b.peers.set i p i.isLt, lruCounter } := by
    refine ⟨?_, ?_, ?_, ?_, inv.holdSeq, inv.holdDistinct, inv.holdOk⟩
    · intro j hj
      have hj' := (hfor j _).mp ⟨hj, rfl⟩
      rw [← hj'.2]
      exact inv.peerSource j hj'.1
    · intro j hj
      rw [hget] at hj ⊢
      split
      case isTrue _ => exact hc
      case isFalse h => exact inv.peerCursor j (by rwa [if_neg h] at hj)
    · intro j k hj hk
      have hj' := (hfor j _).mp ⟨hj, rfl⟩
      refine inv.peerDistinct j k hj'.1 ?_
      rw [hj'.2]
      exact (hfor k _).mp hk
    · intro env henv
      obtain ⟨j, hj⟩ := inv.tracked env henv
      exact ⟨j, (hfor j _).mpr hj⟩
  refine ⟨hinv, fun s => ?_⟩
  split
  case isTrue h =>
    subst h
    have hi : (b.peers.set i p i.isLt)[i] = p := by rw [hget, if_pos rfl]
    have := cursor?_eq_some hinv (i := i) ((hfor i _).mpr ⟨active, rfl⟩)
    rw [this]
    exact congrArg some (congrArg PeerState.nextExpectedSeq hi)
  case isFalse h =>
    cases hcur : b.cursor? s with
    | none => exact cursor?_eq_none fun j hj => no_peer_of_cursor? hcur j ((hfor j s).mp hj)
    | some c =>
      obtain ⟨j, hj, rfl⟩ := peer_of_cursor? hcur
      have hne : i ≠ j := by
        rintro rfl
        exact h hj.2.symm
      have := cursor?_eq_some hinv (i := j) ((hfor j s).mpr hj)
      rw [this]
      exact congrArg some (congrArg PeerState.nextExpectedSeq (by rw [hget, if_neg hne]))

/-- A new source entered into a slot whose source, if it has one, holds nothing. -/
theorem Inv.enter (inv : Inv Q b) (hsrc : src ≠ 0) (new : b.cursor? src = none)
    {i : Fin orderingPeerCount}
    (idle : ∀ env, Held b env → ¬ b.peers[i].isFor env.sourceId) :
    Inv Q (b.enterPeer i src) ∧ (b.enterPeer i src).cursor? src = some 1 ∧
    (b.enterPeer i src).peers[i].isFor src ∧
    ∀ s, s ≠ src → (b.enterPeer i src).cursor? s = b.cursor? s ∨
      ((b.enterPeer i src).cursor? s = none ∧ b.peers[i].isFor s) := by
  have hget (j : Fin orderingPeerCount) : (b.enterPeer i src).peers[j] =
      if i = j then ⟨src, 1, true, b.lruCounter + 1⟩ else b.peers[j] := getElem_set_fin _ _ _ _
  have hi : (b.enterPeer i src).peers[i] = ⟨src, 1, true, b.lruCounter + 1⟩ := by
    rw [hget, if_pos rfl]
  have hother {j : Fin orderingPeerCount} (h : i ≠ j) : (b.enterPeer i src).peers[j] = b.peers[j] := by
    rw [hget, if_neg h]
  have hinv : Inv Q (b.enterPeer i src) := by
    refine ⟨?_, ?_, ?_, ?_, inv.holdSeq, inv.holdDistinct, inv.holdOk⟩
    · intro j hj
      rw [hget] at hj ⊢
      split
      case isTrue _ => exact hsrc
      case isFalse h => exact inv.peerSource j (by rwa [if_neg h] at hj)
    · intro j hj
      rw [hget] at hj ⊢
      split
      case isTrue _ => exact (by decide : (1 : UInt32) ≠ 0)
      case isFalse h => exact inv.peerCursor j (by rwa [if_neg h] at hj)
    · intro j k hj hk
      by_cases hij : i = j
      · subst hij
        rw [hi] at hk
        by_contra hne
        rw [hother (fun h => hne h.symm)] at hk
        exact no_peer_of_cursor? new k hk
      · rw [hother hij] at hj hk
        by_cases hik : i = k
        · subst hik
          rw [hi] at hk
          exact absurd ⟨hj, hk.2.symm⟩ (no_peer_of_cursor? new j)
        · rw [hother hik] at hk
          exact inv.peerDistinct j k hj hk
    · intro env henv
      obtain ⟨j, hj⟩ := inv.tracked env henv
      have hij : i ≠ j := by
        rintro rfl
        exact idle env henv hj
      exact ⟨j, by rw [hother hij]; exact hj⟩
  have hfor : (b.enterPeer i src).peers[i].isFor src := by
    rw [hi]
    exact ⟨rfl, rfl⟩
  refine ⟨hinv, ?_, hfor, fun s hs => ?_⟩
  · rw [cursor?_eq_some hinv hfor, hi]
  · cases hcur : b.cursor? s with
    | none =>
      refine .inl (cursor?_eq_none fun j hj => ?_)
      by_cases hij : i = j
      · subst hij
        rw [hi] at hj
        exact hs hj.2.symm
      · rw [hother hij] at hj
        exact no_peer_of_cursor? hcur j hj
    | some c =>
      obtain ⟨j, hj, rfl⟩ := peer_of_cursor? hcur
      by_cases hij : i = j
      · subst hij
        refine .inr ⟨cursor?_eq_none fun k hk => ?_, hj⟩
        by_cases hik : i = k
        · subst hik
          rw [hi] at hk
          exact hs hk.2.symm
        · rw [hother hik] at hk
          exact hik (inv.peerDistinct i k hj.1 ⟨hk.1, hk.2.trans hj.2.symm⟩).symm
      · refine .inl ?_
        rw [cursor?_eq_some hinv (i := j) (by rw [hother hij]; exact hj), hother hij]

/-! ## Finding or making the entry of a source -/

theorem findPeer_eq (b : OrderingBuffer) (hsrc : src ≠ 0) :
    b.findPeer src = .ok (firstSlot? (fun p => p.active && p.src == src) b.peers) :=
  ensure_bind_eq_ok.mpr ⟨hsrc, rfl⟩

/-- The number of holds of a source. -/
def holdCount (b : OrderingBuffer) (src : NodeId) : Nat :=
  b.hold.countP fun h => h.active && h.env.sourceId == src

theorem countHoldsForPeer_eq (b : OrderingBuffer) (hsrc : src ≠ 0) :
    b.countHoldsForPeer src = .ok (b.holdCount src) :=
  ensure_bind_eq_ok.mpr ⟨hsrc, ensure_bind_eq_ok.mpr ⟨Vector.countP_le_size, rfl⟩⟩

theorem holdCount_eq_zero :
    b.holdCount src = 0 ↔ ∀ env, Held b env → env.sourceId ≠ src := by
  unfold holdCount
  rw [countP_eq_zero]
  constructor
  · rintro h env ⟨i, hactive, rfl⟩ hs
    have := h i
    rw [hactive, hs] at this
    simp at this
  · intro h i
    rw [Bool.and_eq_false_iff]
    by_cases hactive : b.hold[i].active = true
    · exact .inr (beq_false_of_ne (h _ ⟨i, hactive, rfl⟩))
    · exact .inl (Bool.eq_false_iff.mpr hactive)

/-- The entry a new source takes over when the table is full: the first one that holds nothing. -/
def victim? (b : OrderingBuffer) : Option (Fin orderingPeerCount) :=
  firstSlot? (fun p => p.active && b.holdCount p.src == 0) b.peers

theorem scan_eq (inv : Inv Q b) (is : List (Fin orderingPeerCount)) :
    evictPeerNoHolds.scan b is =
      .ok (is.find? fun i => b.peers[i].active && b.holdCount b.peers[i].src == 0) := by
  induction is with
  | nil => rfl
  | cons i is ih =>
    rw [evictPeerNoHolds.scan, List.find?_cons]
    cases hactive : b.peers[i].active with
    | false => exact ih
    | true =>
      rw [countHoldsForPeer_eq b (inv.peerSource i hactive), ok_bind]
      by_cases hzero : b.holdCount b.peers[i].src = 0
      · rw [if_pos hzero, hzero]
        rfl
      · rw [if_neg hzero, beq_false_of_ne hzero]
        exact ih

/-- A full table has an entry to give up: there are fewer holds than entries. -/
theorem exists_victim (inv : Inv Q b) (full : ∀ i : Fin orderingPeerCount, b.peers[i].active = true) :
    ∃ i, b.victim? = some i ∧ b.holdCount b.peers[i].src = 0 := by
  obtain ⟨i, hi⟩ := exists_unused (fun i : Fin orderingPeerCount => b.peers[i].src)
    (fun i j hij => inv.peerDistinct j i (full j) ⟨full i, hij⟩)
    (fun j : Fin orderingHoldCount => b.hold[j].env.sourceId) (by decide)
  have hidle : b.holdCount b.peers[i].src = 0 := by
    rw [holdCount_eq_zero]
    rintro env ⟨j, -, rfl⟩
    exact hi j
  obtain ⟨j, hj⟩ := firstSlot?_isSome (p := fun p => p.active && b.holdCount p.src == 0) (v := b.peers)
    (i := i) (by rw [full i, hidle]; rfl)
  refine ⟨j, hj, ?_⟩
  have hit := firstSlot?_some hj
  rw [Bool.and_eq_true, beq_iff_eq] at hit
  exact hit.2

theorem evictLruPeer_spec (inv : Inv Q b) {i : Fin orderingPeerCount} (hvictim : b.victim? = some i) :
    b.evictLruPeer =
      .ok (i, { b with peers := b.peers.set i { b.peers[i] with active := false } i.isLt }) := by
  have hscan : evictPeerNoHolds.scan b (List.finRange orderingPeerCount) = .ok (some i) := by
    rw [scan_eq inv]
    exact congrArg Except.ok hvictim
  simp only [evictLruPeer, evictPeerNoHolds, hscan, ok_bind, pure_eq_ok]

/-- The sequence number the next message of `src` should have; a source not seen yet starts at
one. -/
def expected (b : OrderingBuffer) (src : NodeId) : UInt32 := (b.cursor? src).getD 1

/-- The cursor of `src` is now `c`. The other sources keep theirs, but one that holds nothing may
have lost its entry to a new source that found the table full. -/
structure Moved (b : OrderingBuffer) (src : NodeId) (c : UInt32) (b' : OrderingBuffer) : Prop where
  own : b'.cursor? src = some c
  others : ∀ s, s ≠ src → b'.cursor? s = b.cursor? s ∨
    (b'.cursor? s = none ∧ b.holdCount s = 0 ∧ b.cursor? src = none ∧
      (∀ i : Fin orderingPeerCount, b.peers[i].active = true) ∧
      ∃ i, b.victim? = some i ∧ b.peers[i].src = s)

/-- A source that is not tracked yet takes the place of the victim when the table is full. -/
theorem getOrCreatePeer_full (inv : Inv Q b) (hsrc : src ≠ 0) (new : b.cursor? src = none)
    (full : ∀ i : Fin orderingPeerCount, b.peers[i].active = true) {i : Fin orderingPeerCount}
    (hvictim : b.victim? = some i) : b.getOrCreatePeer src = .ok (i, b.enterPeer i src) := by
  have hmiss : firstSlot? (fun p => p.active && p.src == src) b.peers = none :=
    peer_missing (no_peer_of_cursor? new)
  have hfree : firstSlot? (fun p => !p.active) b.peers = none := by
    rw [firstSlot?_none]
    intro j
    rw [full j]
    rfl
  -- Writing the slot twice is writing it once.
  have htwice : OrderingBuffer.enterPeer
      { b with peers := b.peers.set i { b.peers[i] with active := false } i.isLt } i src =
      b.enterPeer i src := by
    simp only [enterPeer, Vector.set_set]
  simp only [getOrCreatePeer, findPeer_eq b hsrc, hmiss, hfree, evictLruPeer_spec inv hvictim, ok_bind,
    pure_eq_ok, htwice]

theorem getOrCreatePeer_spec (inv : Inv Q b) (hsrc : src ≠ 0) :
    ∃ (i : Fin orderingPeerCount) (b' : OrderingBuffer), b.getOrCreatePeer src = .ok (i, b') ∧
      Inv Q b' ∧ b'.hold = b.hold ∧ b'.peers[i].isFor src ∧ Moved b src (b.expected src) b' := by
  cases hcur : b.cursor? src with
  | some c =>
    obtain ⟨i, hi, hc⟩ := peer_of_cursor? hcur
    have htouch := inv.touch hi.1 (p := { b.peers[i] with lruStamp := b.lruCounter + 1 })
      ⟨hi.1, rfl⟩ (inv.peerCursor i hi.1) (b.lruCounter + 1)
    refine ⟨i, _, ?_, htouch.1, rfl, ?_, ?_, ?_⟩
    · simp only [getOrCreatePeer, findPeer_eq b hsrc, peer_found inv hi, ok_bind, pure_eq_ok]
    · rw [getElem_set_fin, if_pos rfl]
      exact hi
    · rw [htouch.2, if_pos hi.2.symm, expected, hcur]
      exact congrArg some hc
    · intro s hs
      refine .inl ?_
      rw [htouch.2, if_neg (fun h => hs (h.trans hi.2))]
  | none =>
    have hmiss : firstSlot? (fun p => p.active && p.src == src) b.peers = none :=
      peer_missing (no_peer_of_cursor? hcur)
    have hexp : b.expected src = 1 := by rw [expected, hcur]; rfl
    cases hfree : firstSlot? (fun p => !p.active) b.peers with
    | some i =>
      have hinactive : ¬ b.peers[i].active = true := by simpa using firstSlot?_some hfree
      obtain ⟨hinv, hown, hfor, hothers⟩ := inv.enter hsrc hcur (i := i)
        (fun env _ h => hinactive h.1)
      refine ⟨i, b.enterPeer i src, ?_, hinv, rfl, hfor, by rw [hexp]; exact hown, ?_⟩
      · simp only [getOrCreatePeer, findPeer_eq b hsrc, hmiss, hfree, ok_bind, pure_eq_ok]
      · intro s hs
        rcases hothers s hs with h | ⟨-, h⟩
        · exact .inl h
        · exact absurd h.1 hinactive
    | none =>
      have full (i : Fin orderingPeerCount) : b.peers[i].active = true := by
        simpa using firstSlot?_none.mp hfree i
      obtain ⟨i, hvictim, hidle⟩ := exists_victim inv full
      obtain ⟨hinv, hown, hfor, hothers⟩ := inv.enter hsrc hcur (i := i)
        (fun env henv h => holdCount_eq_zero.mp hidle env henv h.2.symm)
      refine ⟨i, b.enterPeer i src, getOrCreatePeer_full inv hsrc hcur full hvictim, hinv, rfl, hfor,
        by rw [hexp]; exact hown, ?_⟩
      intro s hs
      rcases hothers s hs with h | ⟨h, hfor'⟩
      · exact .inl h
      · refine .inr ⟨h, ?_, hcur, full, i, hvictim, hfor'.2⟩
        rw [← hfor'.2]
        exact hidle

theorem advanceNextExpected_spec (inv : Inv Q b) {i : Fin orderingPeerCount}
    (hi : b.peers[i].isFor src) :
    ∃ b', b.advanceNextExpected i = .ok b' ∧ Inv Q b' ∧ b'.hold = b.hold ∧
      ∀ s, b'.cursor? s = if s = src then some (nextSeq b.peers[i].nextExpectedSeq) else b.cursor? s := by
  obtain ⟨hactive, rfl⟩ := hi
  have htouch := inv.touch hactive
    (p := { b.peers[i] with nextExpectedSeq := nextSeq b.peers[i].nextExpectedSeq })
    ⟨hactive, rfl⟩ (nextSeq_ne_zero _) b.lruCounter
  exact ⟨_, ensure_bind_eq_ok.mpr ⟨hactive, rfl⟩, htouch.1, rfl, htouch.2⟩

/-! ## Writing holds -/

/-- Holds may be freed, as long as no hold changes its message. -/
theorem Inv.shrink (inv : Inv Q b) {hold : Vector HoldSlot orderingHoldCount}
    (h : ∀ i : Fin orderingHoldCount, hold[i].active = true →
      b.hold[i].active = true ∧ hold[i].env = b.hold[i].env) :
    Inv Q { b with hold } ∧ ∀ env, Held { b with hold } env → Held b env := by
  have hsub (env : MessageEnvelope) : Held { b with hold } env → Held b env := by
    rintro ⟨i, hactive, rfl⟩
    exact ⟨i, (h i hactive).1, (h i hactive).2.symm⟩
  refine ⟨⟨inv.peerSource, inv.peerCursor, inv.peerDistinct, ?_, ?_, ?_, ?_⟩, hsub⟩
  · exact fun env henv => inv.tracked env (hsub env henv)
  · exact fun env henv => inv.holdSeq env (hsub env henv)
  · intro i j hi hj hsrc hseq
    obtain ⟨hi', hei⟩ := h i hi
    obtain ⟨hj', hej⟩ := h j hj
    change hold[j].env.sourceId = hold[i].env.sourceId at hsrc
    change hold[j].env.sequenceNum = hold[i].env.sequenceNum at hseq
    rw [hei, hej] at hsrc hseq
    exact inv.holdDistinct i j hi' hj' hsrc hseq
  · exact fun env henv => inv.holdOk env (hsub env henv)

/-- Freeing a hold removes its message and no other. -/
theorem Inv.free (inv : Inv Q b) {i : Fin orderingHoldCount} (active : b.hold[i].active = true) :
    Inv Q { b with hold := b.hold.set i { b.hold[i] with active := false } i.isLt } ∧
    ∀ env, Held { b with hold := b.hold.set i { b.hold[i] with active := false } i.isLt } env ↔
      Held b env ∧ env ≠ b.hold[i].env := by
  have hget (j : Fin orderingHoldCount) : (b.hold.set i { b.hold[i] with active := false } i.isLt)[j] =
      if i = j then { b.hold[i] with active := false } else b.hold[j] := getElem_set_fin _ _ _ _
  have hother (j : Fin orderingHoldCount)
      (hj : (b.hold.set i { b.hold[i] with active := false } i.isLt)[j].active = true) :
      i ≠ j ∧ b.hold[j].active = true ∧
        (b.hold.set i { b.hold[i] with active := false } i.isLt)[j].env = b.hold[j].env := by
    rw [hget] at hj ⊢
    split at hj
    case isTrue _ => cases hj
    case isFalse hne =>
      rw [if_neg hne]
      exact ⟨hne, hj, rfl⟩
  refine ⟨(inv.shrink fun j hj => (hother j hj).2).1, fun env => ⟨?_, ?_⟩⟩
  · rintro ⟨j, hj, rfl⟩
    obtain ⟨hne, hactive, henv⟩ := hother j hj
    change Held b (b.hold.set i { b.hold[i] with active := false } i.isLt)[j].env ∧
      (b.hold.set i { b.hold[i] with active := false } i.isLt)[j].env ≠ b.hold[i].env
    rw [henv]
    refine ⟨⟨j, hactive, rfl⟩, fun heq => hne ?_⟩
    exact (inv.holdDistinct i j active hactive (by rw [heq]) (by rw [heq])).symm
  · rintro ⟨⟨j, hj, rfl⟩, hne⟩
    have hij : i ≠ j := by
      rintro rfl
      exact hne rfl
    refine ⟨j, ?_, ?_⟩
    · change (b.hold.set i { b.hold[i] with active := false } i.isLt)[j].active = true
      rw [hget, if_neg hij]
      exact hj
    · change (b.hold.set i { b.hold[i] with active := false } i.isLt)[j].env = b.hold[j].env
      rw [hget, if_neg hij]

/-- A message stored in a free hold, its sequence number not being held yet. -/
theorem Inv.store (inv : Inv Q b) {i : Fin orderingHoldCount} (free : b.hold[i].active = false)
    {msg : MessageEnvelope} (htracked : ∃ j : Fin orderingPeerCount, b.peers[j].isFor msg.sourceId)
    (hseq : msg.sequenceNum ≠ 0) (hq : Q msg)
    (new : ∀ env, Held b env → env.sourceId = msg.sourceId → env.sequenceNum ≠ msg.sequenceNum) :
    Inv Q { b with hold := b.hold.set i ⟨msg, true⟩ i.isLt } ∧
    ∀ env, Held { b with hold := b.hold.set i ⟨msg, true⟩ i.isLt } env ↔ Held b env ∨ env = msg := by
  have hget (j : Fin orderingHoldCount) : (b.hold.set i ⟨msg, true⟩ i.isLt)[j] =
      if i = j then ⟨msg, true⟩ else b.hold[j] := getElem_set_fin _ _ _ _
  have hheld (env : MessageEnvelope) :
      Held { b with hold := b.hold.set i ⟨msg, true⟩ i.isLt } env ↔ Held b env ∨ env = msg := by
    constructor
    · rintro ⟨j, hactive, henv⟩
      change (b.hold.set i ⟨msg, true⟩ i.isLt)[j].active = true at hactive
      change (b.hold.set i ⟨msg, true⟩ i.isLt)[j].env = env at henv
      rw [hget] at hactive henv
      split at henv
      case isTrue _ => exact .inr henv.symm
      case isFalse hne =>
        rw [if_neg hne] at hactive
        exact .inl ⟨j, hactive, henv⟩
    · rintro (⟨j, hactive, henv⟩ | rfl)
      · have hne : i ≠ j := by
          rintro rfl
          rw [free] at hactive
          cases hactive
        refine ⟨j, ?_, ?_⟩
        · change (b.hold.set i ⟨msg, true⟩ i.isLt)[j].active = true
          rw [hget, if_neg hne]
          exact hactive
        · change (b.hold.set i ⟨msg, true⟩ i.isLt)[j].env = env
          rw [hget, if_neg hne]
          exact henv
      · refine ⟨i, ?_, ?_⟩
        · change (b.hold.set i ⟨env, true⟩ i.isLt)[i].active = true
          rw [hget, if_pos rfl]
        · change (b.hold.set i ⟨env, true⟩ i.isLt)[i].env = env
          rw [hget, if_pos rfl]
  have hall {R : MessageEnvelope → Prop} (hold : ∀ env, Held b env → R env) (hmsg : R msg)
      (env : MessageEnvelope) (henv : Held { b with hold := b.hold.set i ⟨msg, true⟩ i.isLt } env) : R env := by
    rcases (hheld env).mp henv with h | rfl
    · exact hold env h
    · exact hmsg
  refine ⟨⟨inv.peerSource, inv.peerCursor, inv.peerDistinct, hall inv.tracked htracked,
    hall inv.holdSeq hseq, ?_, hall inv.holdOk hq⟩, hheld⟩
  intro j k hj hk hsrc hnum
  change (b.hold.set i ⟨msg, true⟩ i.isLt)[j].active = true at hj
  change (b.hold.set i ⟨msg, true⟩ i.isLt)[k].active = true at hk
  change (b.hold.set i ⟨msg, true⟩ i.isLt)[k].env.sourceId = (b.hold.set i ⟨msg, true⟩ i.isLt)[j].env.sourceId at hsrc
  change (b.hold.set i ⟨msg, true⟩ i.isLt)[k].env.sequenceNum =
    (b.hold.set i ⟨msg, true⟩ i.isLt)[j].env.sequenceNum at hnum
  rw [hget] at hj hk
  rw [hget, hget] at hsrc hnum
  by_cases hij : i = j
  · by_cases hik : i = k
    · exact hik.symm.trans hij
    · rw [if_neg hik] at hk hsrc hnum
      rw [if_pos hij] at hsrc hnum
      exact absurd hnum (new _ ⟨k, hk, rfl⟩ hsrc)
  · rw [if_neg hij] at hj hsrc hnum
    by_cases hik : i = k
    · rw [if_pos hik] at hsrc hnum
      exact absurd hnum.symm (new _ ⟨j, hj, rfl⟩ hsrc.symm)
    · rw [if_neg hik] at hk hsrc hnum
      exact inv.holdDistinct j k hj hk hsrc hnum

/-! ## A message comes in -/

/-- The gate has a use for the message: it passes it on, or has a hold for it. -/
def Admits (b : OrderingBuffer) (msg : MessageEnvelope) : Prop :=
  msg.sequenceNum = 0 ∨ msg.sequenceNum = b.expected msg.sourceId ∨
    (b.expected msg.sourceId < msg.sequenceNum ∧
      (∀ i : Fin orderingHoldCount, b.hold[i].active = true → b.hold[i].env.sourceId = msg.sourceId →
        b.hold[i].env.sequenceNum ≠ msg.sequenceNum) ∧
      b.holdCount msg.sourceId < kHoldPerPeerMax ∧
      ∃ i : Fin orderingHoldCount, b.hold[i].active = false)

instance (b : OrderingBuffer) (msg : MessageEnvelope) : Decidable (b.Admits msg) :=
  inferInstanceAs (Decidable (_ ∨ _ ∨ _))

/-- The message comes a second time: it is behind the cursor, or its sequence number is held. -/
def Repeats (b : OrderingBuffer) (msg : MessageEnvelope) : Prop :=
  msg.sequenceNum < b.expected msg.sourceId ∨
    ∃ env, Held b env ∧ env.sourceId = msg.sourceId ∧ env.sequenceNum = msg.sequenceNum

/-- The message is new and ahead of the cursor, but its source has its share of the holds, or all are
taken. -/
def OutOfRoom (b : OrderingBuffer) (msg : MessageEnvelope) : Prop :=
  b.expected msg.sourceId < msg.sequenceNum ∧
    (∀ env, Held b env → env.sourceId = msg.sourceId → env.sequenceNum ≠ msg.sequenceNum) ∧
    (kHoldPerPeerMax ≤ b.holdCount msg.sourceId ∨ ∀ i : Fin orderingHoldCount, b.hold[i].active = true)

/-- Everything `ingest` can do with a data message. -/
inductive Ingested (b : OrderingBuffer) (msg : MessageEnvelope) : Reply → OrderingBuffer → Prop where
  /-- A message without a sequence number passes. -/
  | unordered (zero : msg.sequenceNum = 0) : Ingested b msg (.ok msg) b
  /-- The expected message passes and moves the cursor. -/
  | delivered {b' : OrderingBuffer} (seq : msg.sequenceNum ≠ 0)
      (next : msg.sequenceNum = b.expected msg.sourceId)
      (moved : Moved b msg.sourceId (nextSeq msg.sequenceNum) b') (holds : b'.hold = b.hold) :
      Ingested b msg (.ok msg) b'
  /-- A message ahead of the cursor is stored. -/
  | stored {b' : OrderingBuffer} (seq : msg.sequenceNum ≠ 0)
      (ahead : b.expected msg.sourceId < msg.sequenceNum)
      (new : ∀ env, Held b env → env.sourceId = msg.sourceId → env.sequenceNum ≠ msg.sequenceNum)
      (room : b.holdCount msg.sourceId < kHoldPerPeerMax)
      (moved : Moved b msg.sourceId (b.expected msg.sourceId) b')
      (held : ∀ env, Held b' env ↔ Held b env ∨ env = msg) : Ingested b msg (.error .errAgain) b'
  /-- The message is dropped: too old, already held, or no room. -/
  | refused {b' : OrderingBuffer} {r : Result} (seq : msg.sequenceNum ≠ 0)
      (result : (r = .errAgain ∧ b.Repeats msg) ∨ (r = .errFull ∧ b.OutOfRoom msg)) (why : ¬ b.Admits msg)
      (moved : Moved b msg.sourceId (b.expected msg.sourceId) b') (holds : b'.hold = b.hold) :
      Ingested b msg (.error r) b'

theorem held_congr (h : b'.hold = b.hold) (env : MessageEnvelope) : Held b' env ↔ Held b env := by
  unfold Held
  rw [h]

theorem findHeld_eq (b : OrderingBuffer) (hsrc : src ≠ 0) (seq : UInt32) :
    b.findHeld src seq = .ok (firstSlot?
      (fun h => h.active && (h.env.sourceId == src && h.env.sequenceNum == seq)) b.hold) :=
  ensure_bind_eq_ok.mpr ⟨hsrc, rfl⟩

/-- The search for a held sequence number misses exactly when it is not held. -/
theorem findHeld_none {seq : UInt32} :
    firstSlot? (fun h => h.active && (h.env.sourceId == src && h.env.sequenceNum == seq)) b.hold = none ↔
      ∀ i : Fin orderingHoldCount, b.hold[i].active = true → b.hold[i].env.sourceId = src →
        b.hold[i].env.sequenceNum ≠ seq := by
  rw [firstSlot?_none]
  constructor
  · intro h i hactive hs hseq
    have := h i
    rw [hactive, hs, hseq] at this
    simp at this
  · intro h i
    by_contra hne
    simp only [Bool.not_eq_false, Bool.and_eq_true, beq_iff_eq] at hne
    exact h i hne.1 hne.2.1 hne.2.2

private theorem not_admits_of_lt {msg : MessageEnvelope} (seq : msg.sequenceNum ≠ 0)
    (h : msg.sequenceNum < b.expected msg.sourceId) : ¬ b.Admits msg := by
  rintro (hz | heq | ⟨hlt, -⟩)
  · exact seq hz
  · exact UInt32.ne_of_lt h heq
  · exact UInt32.lt_asymm h hlt

/-- What is left of `ingest` for a message ahead of the cursor. -/
private theorem ingest_ahead {b₁ : OrderingBuffer} {msg : MessageEnvelope} (inv : Inv Q b₁)
    (holds : b₁.hold = b.hold) {i : Fin orderingPeerCount} (hi : b₁.peers[i].isFor msg.sourceId)
    (moved : Moved b msg.sourceId (b.expected msg.sourceId) b₁) (hsrc : msg.sourceId ≠ 0)
    (seq : msg.sequenceNum ≠ 0) (ahead : b.expected msg.sourceId < msg.sequenceNum) (hq : Q msg) :
    ∃ reply b', (do
        let existingHold ← b₁.findHeld msg.sourceId msg.sequenceNum
        match existingHold with
        | some _ => pure (.error .errAgain, b₁)
        | none =>
          let held ← b₁.countHoldsForPeer msg.sourceId
          if held ≥ kHoldPerPeerMax then
            pure (.error .errFull, b₁)
          else
            match b₁.findFreeHold with
            | none => pure (.error .errFull, b₁)
            | some i => pure (.error .errAgain, { b₁ with hold := b₁.hold.set i ⟨msg, true⟩ i.isLt })
        : Checked (Reply × OrderingBuffer)) = .ok (reply, b') ∧
      Ingested b msg reply b' ∧ Inv Q b' := by
  have hnot (h : (∀ i : Fin orderingHoldCount, b.hold[i].active = true →
        b.hold[i].env.sourceId = msg.sourceId → b.hold[i].env.sequenceNum ≠ msg.sequenceNum) →
      b.holdCount msg.sourceId < kHoldPerPeerMax →
      ¬ ∃ i : Fin orderingHoldCount, b.hold[i].active = false) : ¬ b.Admits msg := by
    rintro (hz | heq | ⟨-, h₁, h₂, h₃⟩)
    · exact seq hz
    · exact UInt32.ne_of_lt ahead heq.symm
    · exact h h₁ h₂ h₃
  have hcount : b₁.holdCount msg.sourceId = b.holdCount msg.sourceId := by rw [holdCount, holds, holdCount]
  rw [findHeld_eq b₁ hsrc, ok_bind]
  cases hexisting : firstSlot? (fun h => h.active &&
      (h.env.sourceId == msg.sourceId && h.env.sequenceNum == msg.sequenceNum)) b₁.hold with
  | some j =>
    have hit := firstSlot?_some hexisting
    simp only [Bool.and_eq_true, beq_iff_eq] at hit
    have hrepeats : b.Repeats msg := .inr ⟨_, (held_congr holds _).mp ⟨j, hit.1, rfl⟩, hit.2⟩
    refine ⟨_, _, rfl, .refused seq (.inl ⟨rfl, hrepeats⟩) (hnot fun hnone => ?_) moved holds, inv⟩
    rw [holds] at hexisting
    rw [findHeld_none.mpr hnone] at hexisting
    cases hexisting
  | none =>
    have hnew := findHeld_none.mp hexisting
    have hother (env : MessageEnvelope) (henv : Held b₁ env) :
        env.sourceId = msg.sourceId → env.sequenceNum ≠ msg.sequenceNum := by
      obtain ⟨k, hk, rfl⟩ := henv
      exact hnew k hk
    have hother₀ (env : MessageEnvelope) (henv : Held b env) := hother env ((held_congr holds env).mpr henv)
    dsimp only
    rw [countHoldsForPeer_eq b₁ hsrc, ok_bind]
    split
    case isTrue hmax =>
      rw [hcount] at hmax
      refine ⟨_, _, rfl, .refused seq (.inr ⟨rfl, ahead, hother₀, .inl hmax⟩) (hnot fun _ hlt => ?_) moved
        holds, inv⟩
      exact absurd hlt (Nat.not_lt.mpr hmax)
    case isFalse hroom =>
      cases hfree : b₁.findFreeHold with
      | none =>
        have hall (j : Fin orderingHoldCount) : b.hold[j].active = true := by
          have htaken := firstSlot?_none.mp hfree j
          rw [holds] at htaken
          simpa using htaken
        refine ⟨_, _, rfl, .refused seq (.inr ⟨rfl, ahead, hother₀, .inr hall⟩) (hnot fun _ _ => ?_) moved
          holds, inv⟩
        rintro ⟨j, hj⟩
        rw [hall j] at hj
        cases hj
      | some j =>
        have hj : b₁.hold[j].active = false := by simpa using firstSlot?_some hfree
        obtain ⟨hinv, hheld⟩ := inv.store hj ⟨i, hi⟩ seq hq hother
        refine ⟨_, _, rfl, .stored seq ahead hother₀
          (by rw [← hcount]; exact Nat.not_le.mp hroom) ⟨moved.own, moved.others⟩ fun env => ?_, hinv⟩
        rw [hheld env, held_congr holds]

/-- `ingest` of a data message with a source never fails. -/
theorem ingest_spec (inv : Inv Q b) {msg : MessageEnvelope} {nowUs : UInt64} (hnow : nowUs > 0)
    (hdata : ¬ envelopeIsControl msg) (hsrc : msg.sourceId ≠ 0) (hq : Q msg) :
    ∃ reply b', b.ingest msg nowUs = .ok (reply, b') ∧ Ingested b msg reply b' ∧ Inv Q b' := by
  unfold ingest
  simp only [ensure_pos hnow, ok_bind, if_neg hdata]
  by_cases hzero : msg.sequenceNum = 0
  · exact ⟨_, _, by rw [if_pos hzero]; rfl, .unordered hzero, inv⟩
  · rw [if_neg hzero]
    obtain ⟨i, b₁, hget, hinv, holds, hi, hmoved⟩ := getOrCreatePeer_spec inv hsrc
    have hexp : b₁.peers[i].nextExpectedSeq = b.expected msg.sourceId := by
      have := cursor?_eq_some hinv hi
      rw [hmoved.own] at this
      exact (Option.some.inj this).symm
    simp only [hget, ok_bind, hexp]
    by_cases hlt : msg.sequenceNum < b.expected msg.sourceId
    · rw [if_pos hlt]
      exact ⟨_, _, rfl, .refused hzero (.inl ⟨rfl, .inl hlt⟩) (not_admits_of_lt hzero hlt) hmoved holds, hinv⟩
    · rw [if_neg hlt]
      by_cases heq : msg.sequenceNum = b.expected msg.sourceId
      · obtain ⟨b', hadv, hinv', holds', hcur⟩ := advanceNextExpected_spec hinv hi
        rw [if_pos heq, hadv]
        refine ⟨_, b', rfl, .delivered hzero heq ⟨?_, ?_⟩ (holds'.trans holds), hinv'⟩
        · rw [hcur, if_pos rfl, hexp, heq]
        · intro s hs
          rw [hcur, if_neg hs]
          exact hmoved.others s hs
      · rw [if_neg heq]
        have ahead : b.expected msg.sourceId < msg.sequenceNum :=
          UInt32.lt_of_le_of_ne (UInt32.not_lt.mp hlt) (Ne.symm heq)
        exact ingest_ahead hinv holds hi hmoved hsrc hzero ahead hq

/-- `ingest` passes the message itself, or answers one of two results. -/
theorem Ingested.reply {msg : MessageEnvelope} {reply : Reply} (h : Ingested b msg reply b') :
    reply = .ok msg ∨ ∃ r, reply = .error r ∧ (r = .errAgain ∨ r = .errFull) := by
  cases h with
  | unordered _ => exact .inl rfl
  | delivered _ _ _ _ => exact .inl rfl
  | stored _ _ _ _ _ _ => exact .inr ⟨_, rfl, .inl rfl⟩
  | refused _ result _ _ _ => exact .inr ⟨_, rfl, result.imp And.left And.left⟩

/-! ## A hold is released -/

/-- Everything `tryReleaseNext` can do. -/
inductive Released (b : OrderingBuffer) (src : NodeId) :
    Option MessageEnvelope → OrderingBuffer → Prop where
  /-- No message of the source waits at its cursor. -/
  | nothing (empty : ∀ env, Held b env → env.sourceId = src → b.cursor? src ≠ some env.sequenceNum) :
      Released b src none b
  /-- The message at the cursor leaves its hold and the cursor moves on. -/
  | next {env : MessageEnvelope} {b' : OrderingBuffer} (held : Held b env) (source : env.sourceId = src)
      (atCursor : b.cursor? src = some env.sequenceNum)
      (cursors : ∀ s, b'.cursor? s = if s = src then some (nextSeq env.sequenceNum) else b.cursor? s)
      (rest : ∀ x, Held b' x ↔ Held b x ∧ x ≠ env) : Released b src (some env) b'

theorem tryReleaseNext_spec (inv : Inv Q b) (hsrc : src ≠ 0) :
    ∃ out b', b.tryReleaseNext src = .ok (out, b') ∧ Released b src out b' ∧ Inv Q b' := by
  unfold tryReleaseNext
  simp only [ensure_pos hsrc, ok_bind, findPeer_eq b hsrc]
  cases hcur : b.cursor? src with
  | none =>
    rw [peer_missing (no_peer_of_cursor? hcur)]
    refine ⟨none, b, rfl, .nothing fun env _ _ h => ?_, inv⟩
    rw [hcur] at h
    cases h
  | some c =>
    obtain ⟨p, hp, rfl⟩ := peer_of_cursor? hcur
    rw [peer_found inv hp]
    simp only [findHeld_eq b hsrc, ok_bind]
    cases hheld : firstSlot? (fun h => h.active && (h.env.sourceId == src &&
        h.env.sequenceNum == b.peers[p].nextExpectedSeq)) b.hold with
    | none =>
      refine ⟨none, b, rfl, .nothing ?_, inv⟩
      rintro env ⟨i, hactive, rfl⟩ hs h
      rw [hcur] at h
      exact findHeld_none.mp hheld i hactive hs (Option.some.inj h).symm
    | some i =>
      have hit := firstSlot?_some hheld
      simp only [Bool.and_eq_true, beq_iff_eq] at hit
      obtain ⟨hactive, hs, hseq⟩ := hit
      obtain ⟨hinv₁, hfree⟩ := inv.free hactive
      obtain ⟨b', hadv, hinv', holds', hcur'⟩ := advanceNextExpected_spec hinv₁ hp
      refine ⟨some b.hold[i].env, b', ?_, ?_, hinv'⟩
      · dsimp only
        rw [hadv]
        rfl
      refine .next ⟨i, hactive, rfl⟩ hs (by rw [hcur, hseq]) ?_ fun x => ?_
      · intro s
        rw [hcur', hseq]
        rfl
      · rw [held_congr holds', hfree]

/-! ## A source starts over -/

/-- The gate without the holds whose message satisfies `gone`. -/
def withoutHolds (b : OrderingBuffer) (gone : MessageEnvelope → Prop) [DecidablePred gone] :
    OrderingBuffer :=
  { b with
    hold := b.hold.map fun h => if h.active ∧ gone h.env then { h with active := false } else h }

theorem Inv.withoutHolds (inv : Inv Q b) (gone : MessageEnvelope → Prop) [DecidablePred gone] :
    Inv Q (b.withoutHolds gone) ∧
    (∀ env, Held (b.withoutHolds gone) env ↔ Held b env ∧ ¬ gone env) ∧
    ∀ i : Fin orderingHoldCount, (b.withoutHolds gone).hold[i].env = b.hold[i].env ∧
      ((b.withoutHolds gone).hold[i].active = true → b.hold[i].active = true) := by
  have hget (i : Fin orderingHoldCount) : (b.withoutHolds gone).hold[i] =
      if b.hold[i].active ∧ gone b.hold[i].env then { b.hold[i] with active := false }
      else b.hold[i] := by
    simp only [OrderingBuffer.withoutHolds, Table.getElem_fin, Vector.getElem_map]
  have henv (i : Fin orderingHoldCount) : (b.withoutHolds gone).hold[i].env = b.hold[i].env := by
    rw [hget]
    split
    · rfl
    · rfl
  have hactive (i : Fin orderingHoldCount) : (b.withoutHolds gone).hold[i].active = true ↔
      b.hold[i].active = true ∧ ¬ gone b.hold[i].env := by
    rw [hget]
    by_cases h : b.hold[i].active = true ∧ gone b.hold[i].env
    · rw [if_pos h]
      exact ⟨fun hf => Bool.noConfusion hf, fun hc => absurd h.2 hc.2⟩
    · rw [if_neg h]
      exact ⟨fun ha => ⟨ha, fun hd => h ⟨ha, hd⟩⟩, fun hc => hc.1⟩
  refine ⟨(inv.shrink fun i hi => ⟨((hactive i).mp hi).1, henv i⟩).1, fun env => ⟨?_, ?_⟩,
    fun i => ⟨henv i, fun hi => ((hactive i).mp hi).1⟩⟩
  · rintro ⟨i, hi, rfl⟩
    obtain ⟨ha, hd⟩ := (hactive i).mp hi
    rw [← henv i] at hd
    exact ⟨⟨i, ha, (henv i).symm⟩, hd⟩
  · rintro ⟨⟨i, hi, rfl⟩, hd⟩
    exact ⟨i, (hactive i).mpr ⟨hi, hd⟩, henv i⟩

/-- A reset drops what the source holds and puts its cursor back to the start. -/
theorem resetPeer_spec (inv : Inv Q b) (hsrc : src ≠ 0) :
    ∃ b', b.resetPeer src = .ok b' ∧ Inv Q b' ∧
      (∀ env, Held b' env ↔ Held b env ∧ env.sourceId ≠ src) ∧
      ∀ s, b'.cursor? s = if s = src then (b.cursor? src).map fun _ => 1 else b.cursor? s := by
  unfold resetPeer
  simp only [ensure_pos hsrc, ok_bind, findPeer_eq b hsrc]
  cases hcur : b.cursor? src with
  | none =>
    rw [peer_missing (no_peer_of_cursor? hcur)]
    refine ⟨b, rfl, inv, fun env => ⟨fun h => ⟨h, ?_⟩, And.left⟩, fun s => ?_⟩
    · rintro rfl
      obtain ⟨i, hi⟩ := inv.tracked env h
      exact no_peer_of_cursor? hcur i hi
    · split
      case isTrue h => rw [h, hcur]; rfl
      case isFalse _ => rfl
  | some c =>
    obtain ⟨p, hp, rfl⟩ := peer_of_cursor? hcur
    rw [peer_found inv hp]
    obtain ⟨hinv, hheld, -⟩ := inv.withoutHolds fun env => env.sourceId = src
    have htouch := hinv.touch hp.1 (p := { b.peers[p] with nextExpectedSeq := 1 })
      ⟨hp.1, rfl⟩ (show (1 : UInt32) ≠ 0 by decide) b.lruCounter
    refine ⟨_, rfl, htouch.1, hheld, fun s => (htouch.2 s).trans ?_⟩
    change (if s = b.peers[p].src then some 1 else b.cursor? s) = _
    rw [hp.2]
    rfl

/-! ## Expired holds are swept -/

/-- The message has expired at `nowUs`. -/
abbrev ExpiredAt (nowUs : UInt64) (env : MessageEnvelope) : Prop :=
  timestampExpired env.expiryTimeUs nowUs = true

/-- The cursor of `src` after skipping to `upTo`. -/
def skipTo (c upTo : UInt32) : UInt32 := if c < upTo then upTo else c

theorem le_skipTo_left (c upTo : UInt32) : c ≤ skipTo c upTo := by
  unfold skipTo
  split
  case isTrue h => exact UInt32.le_of_lt h
  case isFalse _ => exact UInt32.le_refl c

theorem le_skipTo_right (c upTo : UInt32) : upTo ≤ skipTo c upTo := by
  unfold skipTo
  split
  case isTrue _ => exact UInt32.le_refl upTo
  case isFalse h => exact UInt32.not_lt.mp h

theorem skipTo_eq (c upTo : UInt32) : skipTo c upTo = c ∨ skipTo c upTo = upTo := by
  unfold skipTo
  split
  case isTrue _ => exact .inr rfl
  case isFalse _ => exact .inl rfl

/-- Skipping forward drops exactly the holds of the source that the cursor passes. -/
theorem advanceSequence_spec (inv : Inv Q b) {c upTo : UInt32} (hcur : b.cursor? src = some c)
    (hup : upTo ≠ 0) :
    ∃ b', b.advanceSequence src upTo = .ok b' ∧ Inv Q b' ∧
      (∀ env, Held b' env ↔ Held b env ∧ ¬ (c < upTo ∧ env.sourceId = src ∧ env.sequenceNum < upTo)) ∧
      (∀ s, b'.cursor? s = if s = src then some (skipTo c upTo) else b.cursor? s) ∧
      ∀ i : Fin orderingHoldCount, b'.hold[i].env = b.hold[i].env ∧
        (b'.hold[i].active = true → b.hold[i].active = true) := by
  obtain ⟨p, hp, rfl⟩ := peer_of_cursor? hcur
  have hsrc : src ≠ 0 := by
    rw [← hp.2]
    exact inv.peerSource p hp.1
  unfold advanceSequence
  simp only [ensure_pos hsrc, ok_bind, findPeer_eq b hsrc, peer_found inv hp]
  by_cases hlt : b.peers[p].nextExpectedSeq < upTo
  · obtain ⟨hinv, hheld, henv⟩ := inv.withoutHolds fun env => env.sourceId = src ∧ env.sequenceNum < upTo
    have htouch := hinv.touch hp.1 (p := { b.peers[p] with nextExpectedSeq := upTo })
      ⟨hp.1, rfl⟩ hup b.lruCounter
    have hgt : upTo > b.peers[p].nextExpectedSeq := hlt
    simp only [if_pos hgt]
    refine ⟨_, ensure_bind_eq_ok.mpr ⟨?_, rfl⟩, htouch.1, fun env => ?_, fun s => ?_, henv⟩
    · rw [getElem_set_fin, if_pos rfl]
      exact UInt32.le_refl upTo
    · refine (hheld env).trans (and_congr_right fun _ => not_congr ?_)
      exact ⟨fun h => ⟨hlt, h⟩, And.right⟩
    · refine (htouch.2 s).trans ?_
      change (if s = b.peers[p].src then some upTo else b.cursor? s) = _
      rw [hp.2, skipTo, if_pos hlt]
  · have hnot : ¬ upTo > b.peers[p].nextExpectedSeq := hlt
    simp only [if_neg hnot]
    refine ⟨b, ensure_bind_eq_ok.mpr ⟨UInt32.not_lt.mp hlt, rfl⟩, inv, fun env => ?_, fun s => ?_,
      fun _ => ⟨rfl, id⟩⟩
    · exact ⟨fun h => ⟨h, fun hc => hlt hc.1⟩, And.left⟩
    · rw [skipTo, if_neg hlt]
      split
      case isTrue h => rw [h, hcur]
      case isFalse _ => rfl

/-- Freeing a hold whose message was just skipped: the skip may have freed it already. -/
private theorem free_after_skip (inv : Inv Q b) {i : Fin orderingHoldCount}
    (active : b.hold[i].active = true) {b₁ : OrderingBuffer} (inv₁ : Inv Q b₁)
    (sub : ∀ j : Fin orderingHoldCount, b₁.hold[j].env = b.hold[j].env ∧
      (b₁.hold[j].active = true → b.hold[j].active = true)) :
    Inv Q { b₁ with hold := b₁.hold.set i { b₁.hold[i] with active := false } i.isLt } ∧
    ∀ env, Held { b₁ with hold := b₁.hold.set i { b₁.hold[i] with active := false } i.isLt } env ↔
      Held b₁ env ∧ env ≠ b.hold[i].env := by
  cases hi : b₁.hold[i].active with
  | true =>
    rw [← (sub i).1]
    exact inv₁.free hi
  | false =>
    have hsame : b₁.hold.set i { b₁.hold[i] with active := false } i.isLt = b₁.hold := by
      have hslot : ({ b₁.hold[i] with active := false } : HoldSlot) = b₁.hold[i] := by rw [← hi]
      rw [hslot]
      exact Vector.set_getElem_self i.isLt
    rw [hsame]
    refine ⟨inv₁, fun env => ⟨fun h => ⟨h, ?_⟩, And.left⟩⟩
    obtain ⟨j, hj, rfl⟩ := h
    rw [(sub j).1]
    intro heq
    have hji := inv.holdDistinct i j active ((sub j).2 hj) (by rw [heq]) (by rw [heq])
    rw [hji, hi] at hj
    cases hj

/-- The round of an expired hold: it is copied out, the cursor skips past it, and the holds the
cursor passed go with it. -/
theorem sweepHold_expired {s : Sweep} (inv : Inv Q s.buffer) {nowUs : UInt64} (outCap : Nat)
    {i : Fin orderingHoldCount} (active : s.buffer.hold[i].active = true)
    (expired : ExpiredAt nowUs s.buffer.hold[i].env) {c : UInt32}
    (hcur : s.buffer.cursor? s.buffer.hold[i].env.sourceId = some c) :
    ∃ b', sweepHold nowUs outCap i s = .ok
        ⟨b', if s.freed < outCap then s.out ++ [s.buffer.hold[i].env] else s.out, s.freed + 1⟩ ∧
      Inv Q b' ∧ b'.hold[i].active = false ∧
      (∀ j : Fin orderingHoldCount, b'.hold[j].active = true →
        s.buffer.hold[j].active = true ∧ b'.hold[j].env = s.buffer.hold[j].env) ∧
      (∀ x, Held b' x ↔ Held s.buffer x ∧ x ≠ s.buffer.hold[i].env ∧
        ¬ (c < nextSeq s.buffer.hold[i].env.sequenceNum ∧
          x.sourceId = s.buffer.hold[i].env.sourceId ∧
          x.sequenceNum < nextSeq s.buffer.hold[i].env.sequenceNum)) ∧
      ∀ t, b'.cursor? t = if t = s.buffer.hold[i].env.sourceId then
        some (skipTo c (nextSeq s.buffer.hold[i].env.sequenceNum)) else s.buffer.cursor? t := by
  have hheld : Held s.buffer s.buffer.hold[i].env := ⟨i, active, rfl⟩
  obtain ⟨b₁, hadv, hinv₁, hheld₁, hcur₁, hsub⟩ := advanceSequence_spec inv hcur (nextSeq_ne_zero _)
  obtain ⟨hinv', hheld'⟩ := free_after_skip inv active hinv₁ hsub
  refine ⟨_, ?_, hinv', ?_, ?_, ?_, hcur₁⟩
  · unfold sweepHold
    rw [if_pos ⟨active, expired⟩]
    simp only [seqNextGuarded_eq (inv.holdSeq _ hheld), ok_bind, hadv, pure_eq_ok]
  · rw [getElem_set_fin, if_pos rfl]
  · intro j hj
    rw [getElem_set_fin] at hj ⊢
    split at hj
    case isTrue _ => cases hj
    case isFalse hne =>
      rw [if_neg hne]
      exact ⟨(hsub j).2 hj, (hsub j).1⟩
  · intro x
    rw [hheld', hheld₁]
    constructor
    · rintro ⟨⟨h₁, h₂⟩, h₃⟩
      exact ⟨h₁, h₃, h₂⟩
    · rintro ⟨h₁, h₃, h₂⟩
      exact ⟨⟨h₁, h₂⟩, h₃⟩

/-- The sweep after `k` rounds, against the gate it started from. -/
structure Sweeping (Q : MessageEnvelope → Prop) (b : OrderingBuffer) (nowUs : UInt64) (k : Nat)
    (s : Sweep) : Prop where
  inv : Inv Q s.buffer
  /-- Nothing new is held. -/
  kept : ∀ x, Held s.buffer x → Held b x
  /-- The holds seen so far have not expired. -/
  clear : ∀ j : Fin orderingHoldCount, (j : Nat) < k → s.buffer.hold[j].active = true →
    ¬ ExpiredAt nowUs s.buffer.hold[j].env
  /-- A message that is gone had expired, or an expired one of its source came after it. -/
  lost : ∀ x, Held b x → Held s.buffer x ∨ ∃ y, Held b y ∧ ExpiredAt nowUs y ∧
    y.sourceId = x.sourceId ∧ (x = y ∨ x.sequenceNum < nextSeq y.sequenceNum)
  /-- Cursors only move forward, to just after an expired message. -/
  cursors : ∀ src c, b.cursor? src = some c → ∃ c', s.buffer.cursor? src = some c' ∧ c ≤ c' ∧
    (c' = c ∨ ∃ y, Held b y ∧ ExpiredAt nowUs y ∧ y.sourceId = src ∧ c' = nextSeq y.sequenceNum)
  untracked : ∀ src, b.cursor? src = none → s.buffer.cursor? src = none
  /-- An expired message that is gone is behind the cursor. -/
  behind : ∀ y, Held b y → ExpiredAt nowUs y → Held s.buffer y ∨
    ∃ c, s.buffer.cursor? y.sourceId = some c ∧ nextSeq y.sequenceNum ≤ c
  /-- A hold that was not behind its cursor still is not. -/
  ordered : (∀ x c, Held b x → b.cursor? x.sourceId = some c → c ≤ x.sequenceNum) →
    ∀ x c, Held s.buffer x → s.buffer.cursor? x.sourceId = some c → c ≤ x.sequenceNum
  count : s.out.length = s.freed
  bound : s.freed ≤ k

theorem Sweeping.start (inv : Inv Q b) (nowUs : UInt64) : Sweeping Q b nowUs 0 ⟨b, [], 0⟩ where
  inv := inv
  kept := fun _ h => h
  clear := fun _ hj => absurd hj (Nat.not_lt_zero _)
  lost := fun _ h => .inl h
  cursors := fun _ c h => ⟨c, h, UInt32.le_refl c, .inl rfl⟩
  untracked := fun _ h => h
  behind := fun _ h _ => .inl h
  ordered := fun h => h
  count := rfl
  bound := Nat.le_refl 0

/-- Behind the new cursor: a passed message's successor is not beyond it. -/
theorem nextSeq_le_of_lt {x c : UInt32} (h : x < c) : nextSeq x ≤ c := by
  have hne : x ≠ lastSeq := by
    rintro rfl
    exact absurd (UInt32.lt_iff_toNat_lt.mp h) (Nat.not_lt.mpr (Nat.lt_succ_iff.mp c.toNat_lt))
  exact UInt32.not_lt.mp fun hlt => absurd h (UInt32.not_lt.mpr ((lt_nextSeq_iff hne).mp hlt))

theorem Sweeping.round {nowUs : UInt64} {i : Fin orderingHoldCount} {s : Sweep}
    (w : Sweeping Q b nowUs i s) :
    ∃ s', sweepHold nowUs orderingHoldCount i s = .ok s' ∧ Sweeping Q b nowUs (i + 1) s' := by
  by_cases hexp : s.buffer.hold[i].active = true ∧ ExpiredAt nowUs s.buffer.hold[i].env
  case neg =>
    refine ⟨s, if_neg hexp, { w with clear := ?_, bound := Nat.le_succ_of_le w.bound }⟩
    intro j hj hactive
    rcases Nat.lt_succ_iff_lt_or_eq.mp hj with hlt | heq
    · exact w.clear j hlt hactive
    · rw [Fin.ext heq] at hactive ⊢
      exact fun h => hexp ⟨hactive, h⟩
  case pos =>
    obtain ⟨hactive, hexpired⟩ := hexp
    have hheldEnv : Held s.buffer s.buffer.hold[i].env := ⟨i, hactive, rfl⟩
    obtain ⟨c, hcur⟩ := w.inv.heldCursor hheldEnv
    obtain ⟨b', hrun, hinv, hfree, hslots, hheld, hcurs⟩ :=
      sweepHold_expired w.inv orderingHoldCount hactive hexpired hcur
    have hroom : s.freed < orderingHoldCount := Nat.lt_of_le_of_lt w.bound i.isLt
    rw [if_pos hroom] at hrun
    have hback := w.kept _ hheldEnv
    have hmono (src : NodeId) (c₀ : UInt32) (h : s.buffer.cursor? src = some c₀) :
        ∃ c', b'.cursor? src = some c' ∧ c₀ ≤ c' := by
      rw [hcurs]
      split
      case isTrue heq =>
        rw [heq, hcur] at h
        cases h
        exact ⟨_, rfl, le_skipTo_left _ _⟩
      case isFalse _ => exact ⟨c₀, h, UInt32.le_refl _⟩
    -- What leaves in this round is the expired message or one the cursor passed.
    have hleft (x : MessageEnvelope) (hin : Held s.buffer x) (hout : ¬ Held b' x) :
        x = s.buffer.hold[i].env ∨ (x.sourceId = s.buffer.hold[i].env.sourceId ∧
          x.sequenceNum < nextSeq s.buffer.hold[i].env.sequenceNum) := by
      by_contra hno
      refine hout ((hheld x).mpr ⟨hin, fun h => hno (.inl h), fun h => hno (.inr h.2)⟩)
    refine ⟨_, hrun, ?_⟩
    constructor
    case inv => exact hinv
    case kept => exact fun x hx => w.kept x ((hheld x).mp hx).1
    case clear =>
      intro j hj hjactive
      rcases Nat.lt_succ_iff_lt_or_eq.mp hj with hlt | heq
      · obtain ⟨hs, henv⟩ := hslots j hjactive
        change ¬ ExpiredAt nowUs b'.hold[j].env
        rw [henv]
        exact w.clear j hlt hs
      · rw [Fin.ext heq, hfree] at hjactive
        cases hjactive
    case lost =>
      intro x hx
      rcases w.lost x hx with hin | hgone
      · by_cases hstill : Held b' x
        · exact .inl hstill
        · refine .inr ⟨_, hback, hexpired, ?_⟩
          rcases hleft x hin hstill with heq | ⟨hsrc, hlt⟩
          · exact ⟨by rw [heq], .inl heq⟩
          · exact ⟨hsrc.symm, .inr hlt⟩
      · exact .inr hgone
    case cursors =>
      intro src c₀ h₀
      obtain ⟨c₁, h₁, hle, hwhy⟩ := w.cursors src c₀ h₀
      rw [hcurs]
      split
      case isTrue heq =>
        rw [heq, hcur] at h₁
        cases h₁
        refine ⟨_, rfl, UInt32.le_trans hle (le_skipTo_left _ _), ?_⟩
        rcases skipTo_eq c (nextSeq s.buffer.hold[i].env.sequenceNum) with hk | hk
        · rw [hk]
          exact hwhy
        · exact .inr ⟨_, hback, hexpired, heq.symm, hk⟩
      case isFalse _ => exact ⟨c₁, h₁, hle, hwhy⟩
    case untracked =>
      intro src h
      have h₁ := w.untracked src h
      rw [hcurs, if_neg ?_]
      · exact h₁
      · rintro rfl
        rw [hcur] at h₁
        cases h₁
    case behind =>
      intro y hy hyexp
      rcases w.behind y hy hyexp with hin | ⟨c₁, h₁, hle⟩
      · by_cases hstill : Held b' y
        · exact .inl hstill
        · refine .inr ?_
          rcases hleft y hin hstill with heq | ⟨hsrc, hlt⟩
          · rw [heq, hcurs, if_pos rfl]
            exact ⟨_, rfl, le_skipTo_right _ _⟩
          · rw [hcurs, if_pos hsrc]
            exact ⟨_, rfl, nextSeq_le_of_lt (UInt32.lt_of_lt_of_le hlt (le_skipTo_right _ _))⟩
      · obtain ⟨c', hc', hle'⟩ := hmono _ _ h₁
        exact .inr ⟨c', hc', UInt32.le_trans hle hle'⟩
    case ordered =>
      intro hstart x c₀ hx hc₀
      have hprev := w.ordered hstart x
      obtain ⟨hin, hne, hpass⟩ := (hheld x).mp hx
      rw [hcurs] at hc₀
      split at hc₀
      case isTrue heq =>
        cases hc₀
        rw [heq] at hprev
        unfold skipTo
        split
        case isTrue hlt => exact UInt32.not_lt.mp fun hx' => hpass ⟨hlt, heq, hx'⟩
        case isFalse _ => exact hprev c hin hcur
      case isFalse _ => exact hprev c₀ hin hc₀
    case count =>
      rw [List.length_append, List.length_singleton, w.count]
    case bound => exact Nat.succ_le_succ w.bound

/-- The whole sweep. -/
theorem sweepExpiredHolds_spec (inv : Inv Q b) {nowUs : UInt64} (hnow : nowUs > 0) :
    ∃ s, b.sweepExpiredHolds nowUs orderingHoldCount = .ok s ∧
      Sweeping Q b nowUs orderingHoldCount s := by
  obtain ⟨s, hrun, hs⟩ := eachIndex_total (Sweeping Q b nowUs) ⟨b, [], 0⟩ (.start inv nowUs)
    (fun i _ w => w.round)
  exact ⟨s, ensure_bind_eq_ok.mpr ⟨hnow, bind_eq_ok.mpr ⟨s, hrun,
    ensure_bind_eq_ok.mpr ⟨hs.bound, rfl⟩⟩⟩, hs⟩

/-- After a sweep nothing that is held has expired. -/
theorem Sweeping.unexpired {nowUs : UInt64} {s : Sweep} (w : Sweeping Q b nowUs orderingHoldCount s)
    {x : MessageEnvelope} (h : Held s.buffer x) : ¬ ExpiredAt nowUs x := by
  obtain ⟨i, hactive, rfl⟩ := h
  exact w.clear i i.isLt hactive

end OrderingBuffer

end MessageEngine
