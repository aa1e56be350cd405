import MessageEngine.Laws.Ordering.Calls
import MessageEngine.Lib.Gate

/-!
# The gate as one lane per source

A caller hands a message to the gate and then takes out what has become due, until nothing is. What this
does to a source is what it does to the lane of that source: its cursor and the messages it has waiting.

A message touches the lane of its own source, and no other, with one exception. A source that is not
tracked yet may take over the entry of another one, whose lane then starts from the beginning
(`TakesEntry`).

## What is proved

- `drain_spec`: the caller's loop ends, and drains the lane.
- `present_spec`: handing in a message is an arrival at the lane of its source, unless there is no room.
-/

namespace MessageEngine

open Outcome Table Gate

namespace OrderingBuffer

/-- A message handed to the gate, and the time. -/
structure Incoming where
  msg : MessageEnvelope
  nowUs : UInt64

/-- An ordered message that the gate accepts. -/
def Incoming.WellFormed (a : Incoming) : Prop :=
  a.nowUs > 0 ∧ ¬ envelopeIsControl a.msg ∧ a.msg.sequenceNum ≠ 0 ∧ a.msg.sourceId ≠ 0

instance : DecidablePred Incoming.WellFormed := fun _ => inferInstanceAs (Decidable (_ ∧ _))

/-- What the gate answered, and what came out of the holds after it. -/
structure Presented where
  reply : Reply
  released : List MessageEnvelope

/-- All that came out, in order. -/
def Presented.out (o : Presented) : List MessageEnvelope :=
  match o.reply with
  | .ok env => env :: o.released
  | .error _ => o.released

/-- The gate had no room for the message. -/
def Presented.Full (o : Presented) : Prop := o.reply = .error .errFull

instance (o : Presented) : Decidable o.Full :=
  match o with
  | ⟨.ok _, _⟩ => .isFalse fun h => nomatch h
  | ⟨.error r, _⟩ => decidable_of_iff (r = .errFull) ⟨congrArg Except.error, Except.error.inj⟩

/-- The caller's loop: take out what is due until nothing is. -/
def drain (src : NodeId) : Nat → OrderingBuffer → Checked (List MessageEnvelope × OrderingBuffer)
  | 0, b => pure ([], b)
  | n + 1, b => do
    let (out, b) ← b.tryReleaseNext src
    match out with
    | none => pure ([], b)
    | some env => do
      let (rest, b) ← drain src n b
      pure (env :: rest, b)

/-- The caller hands in a message and drains its source: after every message when it is `eager`, else
after those that passed. -/
def present (eager : Bool) (a : Incoming) (b : OrderingBuffer) : Checked (Presented × OrderingBuffer) := do
  let (reply, b) ← b.ingest a.msg a.nowUs
  if eager || reply.isOk then
    let (released, b) ← drain a.msg.sourceId (orderingHoldCount + 1) b
    pure (⟨reply, released⟩, b)
  else
    pure (⟨reply, []⟩, b)

/-! ## The lane of a source -/

/-- The number of a message, as the lane counts. -/
def num (env : MessageEnvelope) : ℕ := env.sequenceNum.toNat

/-- The number after `c`; zero is skipped. -/
def nextNum (c : ℕ) : ℕ := if c + 1 = 4294967296 then 1 else c + 1

/-- The source's cursor and what it has waiting. -/
def lane (b : OrderingBuffer) (src : NodeId) : Lane MessageEnvelope := ⟨(b.expected src).toNat, b.heldOf src⟩

/-- The message is of a source that is not tracked, the table is full, and the entry it gets is that
of `src`. -/
def TakesEntry (b : OrderingBuffer) (msg : MessageEnvelope) (src : NodeId) : Prop :=
  b.cursor? msg.sourceId = none ∧ (∀ i : Fin orderingPeerCount, b.peers[i].active = true) ∧
    (b.victim?.map fun i => b.peers[i].src) = some src

instance (b : OrderingBuffer) (msg : MessageEnvelope) (src : NodeId) : Decidable (b.TakesEntry msg src) :=
  @instDecidableAnd _ _ inferInstance
    (@instDecidableAnd _ _ (@Nat.decidableForallFin _ _ fun _ => inferInstance) inferInstance)

variable {Q : MessageEnvelope → Prop} {b b' : OrderingBuffer} {src s : NodeId} {c : UInt32}

theorem toNat_nextSeq (seq : UInt32) : (nextSeq seq).toNat = nextNum seq.toNat := by
  unfold nextSeq nextNum
  by_cases hlast : seq = lastSeq
  · rw [hlast]
    rfl
  · have hne : seq + 1 ≠ 0 := fun hz => hlast (add_one_eq_zero.mp hz)
    have hlt : seq.toNat < 4294967295 := by
      have hle : seq.toNat < 4294967296 := seq.toNat_lt
      have hne : seq.toNat ≠ 4294967295 := fun heq => hlast (UInt32.toNat_inj.mp heq)
      omega
    rw [if_neg hne, if_neg (by omega), UInt32.toNat_add]
    exact Nat.mod_eq_of_lt (by change seq.toNat + 1 < 4294967296; omega)

theorem expected_of_cursor? (h : b.cursor? src = some c) : b.expected src = c := by
  rw [expected, h]
  rfl

theorem heldOf_congr (h : b'.hold = b.hold) (src : NodeId) : b'.heldOf src = b.heldOf src := by
  ext env
  exact and_congr_left fun _ => held_congr h env

/-- The numbers of what a source has waiting are different. -/
theorem Inv.injOn_num (inv : Inv Q b) (src : NodeId) : Set.InjOn num (b.heldOf src) := by
  rintro x ⟨⟨i, hi, rfl⟩, hx⟩ y ⟨⟨j, hj, rfl⟩, hy⟩ hnum
  have hseq := UInt32.toNat_inj.mp hnum
  rw [inv.holdDistinct j i hj hi (hx.trans hy.symm) hseq]

/-- The lanes of the other sources stay, but one of them may lose its entry. -/
theorem Moved.lane_other {msg : MessageEnvelope} (moved : Moved b msg.sourceId c b') (hs : s ≠ msg.sourceId)
    (hheld : b'.heldOf s = b.heldOf s) :
    b'.lane s = b.lane s ∨ (b.TakesEntry msg s ∧ b'.lane s = ⟨1, ∅⟩) := by
  rcases moved.others s hs with hsame | ⟨hlost, hidle, hnew, hfull, i, hvictim, hsrc⟩
  · left
    rw [lane, lane, hheld, expected, expected, hsame]
  · refine .inr ⟨⟨hnew, hfull, ?_⟩, ?_⟩
    · rw [hvictim, ← hsrc]
      rfl
    · have hnone : b.heldOf s = ∅ :=
        Set.eq_empty_iff_forall_notMem.mpr fun env h => holdCount_eq_zero.mp hidle env h.1 h.2
      rw [lane, hheld, hnone, expected, hlost]
      rfl

/-! ## Draining a source -/

/-- A release takes what is due out of the lane of its source, and leaves the other lanes alone. -/
theorem Released.lane {env : MessageEnvelope} (h : Released b src (some env) b') :
    env ∈ b.heldOf src ∧ num env = (b.lane src).cursor ∧
      b'.lane src = ⟨nextNum (b.lane src).cursor, b.heldOf src \ {env}⟩ ∧
      (∀ s, s ≠ src → b'.lane s = b.lane s) ∧ ∀ s, b.cursor? s = none → b'.cursor? s = none := by
  cases h with
  | next held source atCursor cursors rest =>
    have hexp := expected_of_cursor? atCursor
    refine ⟨⟨held, source⟩, ?_, ?_, fun s hs => ?_, fun s hnone => ?_⟩
    · rw [OrderingBuffer.lane, hexp]
      rfl
    · have hcur : b'.expected src = nextSeq env.sequenceNum := by
        rw [expected, cursors, if_pos rfl]
        rfl
      have hheld : b'.heldOf src = b.heldOf src \ {env} := by
        ext x
        constructor
        · exact fun hx => ⟨⟨((rest x).mp hx.1).1, hx.2⟩, ((rest x).mp hx.1).2⟩
        · exact fun hx => ⟨(rest x).mpr ⟨hx.1.1, hx.2⟩, hx.1.2⟩
      rw [OrderingBuffer.lane, OrderingBuffer.lane, hcur, hheld, hexp, toNat_nextSeq]
    · have hcur : b'.expected s = b.expected s := by
        rw [expected, expected, cursors, if_neg hs]
      have hheld : b'.heldOf s = b.heldOf s := by
        ext x
        constructor
        · exact fun hx => ⟨((rest x).mp hx.1).1, hx.2⟩
        · refine fun hx => ⟨(rest x).mpr ⟨hx.1, ?_⟩, hx.2⟩
          rintro rfl
          exact hs (hx.2.symm.trans source)
      rw [OrderingBuffer.lane, OrderingBuffer.lane, hcur, hheld]
    · rw [cursors, if_neg]
      · exact hnone
      · rintro rfl
        rw [atCursor] at hnone
        cases hnone

/-- With more rounds than the source has messages waiting, the loop ends by itself. -/
theorem drain_spec (inv : Inv Q b) (hsrc : src ≠ 0) {n : Nat} (hn : b.holdCount src < n) :
    ∃ out b', drain src n b = .ok (out, b') ∧ Inv Q b' ∧
      Drains nextNum num (b.lane src) out (b'.lane src) ∧ (∀ s, s ≠ src → b'.lane s = b.lane s) ∧
      ∀ s, b.cursor? s = none → b'.cursor? s = none := by
  induction n generalizing b with
  | zero => exact absurd hn (Nat.not_lt_zero _)
  | succ n ih =>
    obtain ⟨out, b₁, hrelease, released, hinv⟩ := tryReleaseNext_spec inv hsrc
    cases out with
    | none =>
      refine ⟨[], b₁, ?_, hinv, ?_⟩
      · simp only [drain, hrelease, ok_bind, pure_eq_ok]
      · cases released with
        | nothing empty =>
          refine ⟨.done fun env henv hdue => ?_, fun _ _ => rfl, fun _ h => h⟩
          obtain ⟨c, hcur⟩ := inv.heldCursor henv.1
          rw [henv.2] at hcur
          have hseq : env.sequenceNum = c := by
            rw [← expected_of_cursor? hcur]
            exact UInt32.toNat_inj.mp hdue
          exact empty env henv.1 henv.2 (by rw [hcur, hseq])
    | some env =>
      obtain ⟨hmem, hdue, hlane, hothers, huntracked⟩ := released.lane
      have hheld : b₁.heldOf src = b.heldOf src \ {env} := congrArg Lane.held hlane
      have hless : b₁.holdCount src < n := by
        have hcard := Set.ncard_sdiff_singleton_lt_of_mem hmem heldOf_finite
        rw [← hheld, ← holdCount_eq_ncard hinv, ← holdCount_eq_ncard inv] at hcard
        omega
      obtain ⟨rest, b', hdrain, hinv', hdrains, hothers', huntracked'⟩ := ih hinv hless
      refine ⟨env :: rest, b', ?_, hinv', .more hmem hdue (hlane ▸ hdrains), fun s hs => ?_,
        fun s h => huntracked' s (huntracked s h)⟩
      · simp only [drain, hrelease, hdrain, ok_bind, pure_eq_ok]
      · rw [hothers' s hs, hothers s hs]

theorem holdCount_le (b : OrderingBuffer) (src : NodeId) : b.holdCount src ≤ orderingHoldCount :=
  Vector.countP_le_size

/-- A source that has no more waiting keeps within its share. -/
theorem quota_of_subset (inv : Inv Q b) (inv' : Inv Q b') (hsub : b'.heldOf src ⊆ b.heldOf src)
    (quota : b.holdCount src ≤ kHoldPerPeerMax) : b'.holdCount src ≤ kHoldPerPeerMax := by
  rw [holdCount_eq_ncard inv] at quota
  rw [holdCount_eq_ncard inv']
  exact Nat.le_trans (Set.ncard_le_ncard hsub heldOf_finite) quota

/-- Draining a source keeps all within their shares. -/
theorem quota_of_drains (inv : Inv Q b) (inv' : Inv Q b') {out : List MessageEnvelope}
    (drains : Drains nextNum num (b.lane src) out (b'.lane src)) (others : ∀ s, s ≠ src → b'.lane s = b.lane s)
    (quota : ∀ s, b.holdCount s ≤ kHoldPerPeerMax) (s : NodeId) : b'.holdCount s ≤ kHoldPerPeerMax := by
  refine quota_of_subset inv inv' ?_ (quota s)
  by_cases hs : s = src
  · rw [hs]
    exact drains.held_subset
  · exact (congrArg Lane.held (others s hs)).subset

/-- When nothing is due, the loop does nothing. -/
theorem drain_settled (inv : Inv Q b) (hsrc : src ≠ 0) (settled : (b.lane src).Settled num) :
    ∃ b', drain src (orderingHoldCount + 1) b = .ok ([], b') ∧ Inv Q b' ∧ (∀ s, b'.lane s = b.lane s) ∧
      ∀ s, b.cursor? s = none → b'.cursor? s = none := by
  obtain ⟨out, b', hdrain, hinv, hdrains, hothers, huntracked⟩ :=
    drain_spec inv hsrc (Nat.lt_succ_of_le (b.holdCount_le src))
  obtain ⟨rfl, hsame⟩ := hdrains.unique (inv.injOn_num src) (.done settled)
  refine ⟨b', hdrain, hinv, fun s => ?_, huntracked⟩
  by_cases hs : s = src
  · rw [hs, hsame]
  · exact hothers s hs

/-! ## A message is handed in -/

/-- The answer that goes with what came out. -/
def Presented.ofOut : List MessageEnvelope → Presented
  | [] => ⟨.error .errAgain, []⟩
  | env :: released => ⟨.ok env, released⟩

@[simp] theorem Presented.out_ofOut (out : List MessageEnvelope) : (Presented.ofOut out).out = out := by
  cases out with
  | nil => rfl
  | cons env released => rfl

/-- The gate is in order and nothing is due of the sources a caller drains. -/
structure Ready (Q : MessageEnvelope → Prop) (drained : NodeId → Prop) (b : OrderingBuffer) : Prop where
  inv : Inv Q b
  quota : ∀ src, b.holdCount src ≤ kHoldPerPeerMax
  settled : ∀ src, drained src → (b.lane src).Settled num

theorem lane_init (src : NodeId) : init.lane src = ⟨1, ∅⟩ := by
  have hnone : init.heldOf src = ∅ :=
    Set.eq_empty_iff_forall_notMem.mpr fun env h => not_held_init env h.1
  rw [lane, hnone, expected, cursor?_init]
  rfl

theorem ready_init {drained : NodeId → Prop} : Ready Q drained init := by
  refine ⟨inv_init, sound_init.quota, fun src _ => ?_⟩
  rw [lane_init]
  exact fun y hy => absurd hy (Set.notMem_empty y)

/-- What handing in a message does to the lanes: there is no room for it and nothing happens, or it
arrives at the lane of its source. -/
structure Presents (b : OrderingBuffer) (msg : MessageEnvelope) (o : Presented) (b' : OrderingBuffer) : Prop where
  own : (o = ⟨.error .errFull, []⟩ ∧ b.OutOfRoom msg ∧ b'.lane msg.sourceId = b.lane msg.sourceId) ∨
    ∃ out, o = .ofOut out ∧ Arrives nextNum num (b.lane msg.sourceId) msg out (b'.lane msg.sourceId)
  others : ∀ s, s ≠ msg.sourceId →
    b'.lane s = b.lane s ∨ (b.TakesEntry msg s ∧ b'.lane s = ⟨1, ∅⟩)
  untracked : ∀ s, s ≠ msg.sourceId → b.cursor? s = none → b'.cursor? s = none

theorem Presents.settled {msg : MessageEnvelope} {o : Presented} (h : Presents b msg o b')
    (settled : (b.lane s).Settled num) : (b'.lane s).Settled num := by
  by_cases hs : s = msg.sourceId
  · subst hs
    rcases h.own with ⟨-, -, hsame⟩ | ⟨out, -, arrives⟩
    · rw [hsame]
      exact settled
    · exact arrives.settled settled
  · rcases h.others s hs with hsame | ⟨-, hfresh⟩
    · rw [hsame]
      exact settled
    · rw [hfresh]
      exact fun y hy => absurd hy (Set.notMem_empty y)

/-- What `ingest` alone does to the lanes. -/
theorem Ingested.presents {msg : MessageEnvelope} {reply : Reply} (hseq : msg.sequenceNum ≠ 0)
    (h : Ingested b msg reply b') :
    (reply = .ok msg ∧ num msg = (b.lane msg.sourceId).cursor ∧
        b'.lane msg.sourceId = ⟨nextNum (b.lane msg.sourceId).cursor, b.heldOf msg.sourceId⟩ ∧
        ∀ s, s ≠ msg.sourceId → b'.lane s = b.lane s ∨ (b.TakesEntry msg s ∧ b'.lane s = ⟨1, ∅⟩)) ∨
      ∃ r, reply = .error r ∧ Presents b msg ⟨.error r, []⟩ b' := by
  have huntracked (s : NodeId) (hs : s ≠ msg.sourceId) := h.untracked fun _ => hs
  cases h with
  | unordered zero => exact absurd zero hseq
  | delivered _ next moved holds =>
    refine .inl ⟨rfl, ?_, ?_, fun s hs => moved.lane_other hs (heldOf_congr holds s)⟩
    · rw [lane, ← next]
      rfl
    · rw [lane, lane, heldOf_congr holds, expected_of_cursor? moved.own, ← next, toNat_nextSeq]
  | stored _ ahead new room moved held =>
    have hheld (s : NodeId) (hs : s ≠ msg.sourceId) : b'.heldOf s = b.heldOf s := by
      ext x
      refine and_congr_left fun hx => (held x).trans (or_iff_left ?_)
      rintro rfl
      exact hs hx.symm
    have hown : b'.lane msg.sourceId =
        ⟨(b.lane msg.sourceId).cursor, insert msg (b.heldOf msg.sourceId)⟩ := by
      have hinsert : b'.heldOf msg.sourceId = insert msg (b.heldOf msg.sourceId) := by
        ext x
        constructor
        · rintro ⟨hx, hsrc⟩
          rcases (held x).mp hx with hx | rfl
          · exact .inr ⟨hx, hsrc⟩
          · exact .inl rfl
        · rintro (rfl | hx)
          · exact ⟨(held x).mpr (.inr rfl), rfl⟩
          · exact ⟨(held x).mpr (.inl hx.1), hx.2⟩
      rw [lane, lane, hinsert, expected_of_cursor? moved.own]
    refine .inr ⟨.errAgain, rfl, .inr ⟨[], rfl, ?_⟩, fun s hs => moved.lane_other hs (hheld s hs),
      huntracked⟩
    rw [hown]
    refine .waits (UInt32.lt_iff_toNat_lt.mp ahead) fun y hy hsame => ?_
    exact new y hy.1 hy.2 (UInt32.toNat_inj.mp hsame)
  | @refused _ r _ result why moved holds =>
    have hown : b'.lane msg.sourceId = b.lane msg.sourceId := by
      rw [lane, lane, heldOf_congr holds, expected_of_cursor? moved.own]
    refine .inr ⟨r, rfl, ?_, fun s hs => moved.lane_other hs (heldOf_congr holds s), huntracked⟩
    rcases result with ⟨rfl, hrepeats⟩ | ⟨rfl, hroom⟩
    · refine .inr ⟨[], rfl, ?_⟩
      rw [hown]
      refine .repeats (fun hdue => why (.inr (.inl (UInt32.toNat_inj.mp hdue)))) ?_
      rcases hrepeats with hlt | ⟨env, henv, hsrc, hsame⟩
      · exact .inl (UInt32.lt_iff_toNat_lt.mp hlt)
      · exact .inr ⟨env, ⟨henv, hsrc⟩, congrArg UInt32.toNat hsame⟩
    · exact .inl ⟨rfl, hroom, hown⟩

/-- Handing in a message is an arrival at the lane of its source, unless there is no room. -/
theorem present_spec (eager : Bool) {drained : NodeId → Prop} (ready : Ready Q drained b) {a : Incoming}
    (h : a.WellFormed) (hdrained : drained a.msg.sourceId) (hq : Q a.msg) :
    ∃ o b', present eager a b = .ok (o, b') ∧ Presents b a.msg o b' ∧ Ready Q drained b' := by
  obtain ⟨hnow, hdata, hseq, hsrc⟩ := h
  obtain ⟨reply, b₁, hin, ingested, hinv⟩ := ingest_spec ready.inv hnow hdata hsrc hq
  have hsound : Sound b := ⟨ready.inv.mono fun _ _ => trivial, ready.quota⟩
  have hquota := (ingested.sound hsound (hinv.mono fun _ _ => trivial)).quota
  rcases ingested.presents hseq with ⟨rfl, hdue, hown, hothers⟩ | ⟨r, rfl, presents⟩
  · obtain ⟨out, b', hdrain, hinv', hdrains, hrest, huntracked⟩ :=
      drain_spec hinv hsrc (Nat.lt_succ_of_le (b₁.holdCount_le a.msg.sourceId))
    have hpresents : Presents b a.msg ⟨.ok a.msg, out⟩ b' := by
      refine ⟨.inr ⟨a.msg :: out, rfl, .passes hdue (hown ▸ hdrains)⟩, fun s hs => ?_,
        fun s hs h => huntracked s (ingested.untracked (fun _ => hs) h)⟩
      rw [hrest s hs]
      exact hothers s hs
    refine ⟨_, b', ?_, hpresents, hinv', quota_of_drains hinv hinv' hdrains hrest hquota,
      fun s hs => hpresents.settled (ready.settled s hs)⟩
    simp only [present, hin, ok_bind, Except.isOk, Except.toBool, Bool.or_true, if_true, hdrain, pure_eq_ok]
  · have hsettled (s : NodeId) (hs : drained s) := presents.settled (ready.settled s hs)
    cases eager with
    | false =>
      refine ⟨_, b₁, ?_, presents, hinv, hquota, hsettled⟩
      simp only [present, hin, ok_bind, Except.isOk, Except.toBool, Bool.or_self, Bool.false_eq_true, if_false,
        pure_eq_ok]
    | true =>
      obtain ⟨b', hdrain, hinv', hsame, huntracked⟩ := drain_settled hinv hsrc (hsettled _ hdrained)
      have hpresents : Presents b a.msg ⟨.error r, []⟩ b' := by
        refine ⟨?_, fun s hs => ?_, fun s hs h => huntracked s (presents.untracked s hs h)⟩
        · rw [hsame]
          exact presents.own
        · rw [hsame]
          exact presents.others s hs
      have hsub (s : NodeId) : b'.heldOf s ⊆ b₁.heldOf s := (congrArg Lane.held (hsame s)).subset
      refine ⟨_, b', ?_, hpresents, hinv', fun s => quota_of_subset hinv hinv' (hsub s) (hquota s),
        fun s hs => hpresents.settled (ready.settled s hs)⟩
      simp only [present, hin, ok_bind, Bool.true_or, if_true, hdrain, pure_eq_ok]

/-- A caller that hands in one ordered message after the other gets an answer to each. -/
theorem present_run (eager : Bool) {drained : NodeId → Prop} (ready : Ready (fun _ => True) drained b)
    {arrivals : List Incoming} (wellFormed : ∀ a ∈ arrivals, a.WellFormed)
    (hdrained : ∀ a ∈ arrivals, drained a.msg.sourceId) :
    ∃ outs b', Run.runAll (present eager) arrivals b = .ok (outs, b') := by
  induction arrivals generalizing b with
  | nil => exact ⟨[], b, rfl⟩
  | cons a arrivals ih =>
    obtain ⟨o, b₁, hpresent, -, hready⟩ :=
      present_spec eager ready (wellFormed a List.mem_cons_self) (hdrained a List.mem_cons_self) trivial
    obtain ⟨outs, b', hrun⟩ := ih hready (fun c hc => wellFormed c (List.mem_cons_of_mem a hc))
      fun c hc => hdrained c (List.mem_cons_of_mem a hc)
    exact ⟨o :: outs, b', bind_eq_ok.mpr ⟨_, hpresent, bind_eq_ok.mpr ⟨_, hrun, rfl⟩⟩⟩

end OrderingBuffer

end MessageEngine
