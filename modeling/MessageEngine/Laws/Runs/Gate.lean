import MessageEngine.Laws.Runs.Order

/-!
# The ordering gate over whole runs

The gate is meant to keep flowing: nothing it holds is behind its source's cursor, and a message at
the cursor is held only while an earlier message of its source is staged, because then the next
`receive` releases it.

Three things can stop the flow. A sweep may move a cursor past expired messages onto one that has
not expired, which nobody then releases. A message may be staged over one of another source, whose
followers are then released by nobody. And a copy of a message that waits at the cursor may pass
the gate in its place, which leaves the held one behind the cursor.

## What is proved

- `gate_flows`: in a run in which none of the three happens, and no sequence number wraps, the gate
  keeps flowing;
- `gate_stalls`: a sweep can stop the flow.
-/

namespace MessageEngine

open Outcome Table OrderingBuffer

namespace OrderingBuffer

/-- A sweep at `nowUs` moves a cursor past expired messages onto one that has not expired, and
nothing of that source is staged. -/
def Stalls (b : OrderingBuffer) (staged : Option MessageEnvelope) (nowUs : UInt64) : Prop :=
  ∃ i j : Fin orderingHoldCount,
    b.hold[i].active = true ∧ ExpiredAt nowUs b.hold[i].env ∧
    b.hold[j].active = true ∧ ¬ ExpiredAt nowUs b.hold[j].env ∧
    b.hold[j].env.sourceId = b.hold[i].env.sourceId ∧
    b.hold[j].env.sequenceNum = nextSeq b.hold[i].env.sequenceNum ∧
    (∀ k : Fin orderingHoldCount, b.hold[k].active = true → ExpiredAt nowUs b.hold[k].env →
      b.hold[k].env.sourceId = b.hold[i].env.sourceId →
      b.hold[k].env.sequenceNum ≤ b.hold[i].env.sequenceNum) ∧
    ∀ env ∈ staged, env.sourceId ≠ b.hold[i].env.sourceId

instance (b : OrderingBuffer) (staged : Option MessageEnvelope) (nowUs : UInt64) :
    Decidable (b.Stalls staged nowUs) :=
  inferInstanceAs (Decidable (∃ _ _, _))

/-- The message at the cursor of its source, held in slot `i`. -/
def AtCursor (b : OrderingBuffer) (i : Fin orderingHoldCount) : Prop :=
  b.hold[i].active = true ∧ b.cursor? b.hold[i].env.sourceId = some b.hold[i].env.sequenceNum

instance (b : OrderingBuffer) (i : Fin orderingHoldCount) : Decidable (b.AtCursor i) :=
  inferInstanceAs (Decidable (_ ∧ _))

/-- Nothing is behind its cursor, and what is at its cursor is waited for. -/
structure Flowing (b : OrderingBuffer) (staged : Option MessageEnvelope) : Prop where
  ordered : ∀ x c, Held b x → b.cursor? x.sourceId = some c → c ≤ x.sequenceNum
  waited : ∀ x, Held b x → b.cursor? x.sourceId = some x.sequenceNum →
    ∃ env ∈ staged, env.sourceId = x.sourceId

variable {Q : MessageEnvelope → Prop} {b b' : OrderingBuffer} {src : NodeId} {nowUs : UInt64}
  {staged out : Option MessageEnvelope} {s : Sweep}

/-- A sequence number of a source is held at most once. -/
def Distinct (b : OrderingBuffer) : Prop :=
  ∀ x y, Held b x → Held b y → x.sourceId = y.sourceId → x.sequenceNum = y.sequenceNum → x = y

theorem Inv.distinct (inv : Inv Q b) : Distinct b := by
  rintro x y ⟨i, hi, rfl⟩ ⟨j, hj, rfl⟩ hsource hseq
  rw [inv.holdDistinct j i hj hi hsource hseq]

/-- With nothing held there is nothing to wait for. -/
theorem flowing_init (staged : Option MessageEnvelope) : Flowing init staged where
  ordered := fun x _ hx => absurd hx (not_held_init x)
  waited := fun x hx => absurd hx (not_held_init x)

/-- A sweep that does not stall keeps the gate flowing. -/
theorem Flowing.swept (h : Flowing b staged) (inv : Inv Q b)
    (hlast : ∀ x, Held b x → x.sequenceNum ≠ lastSeq) (w : Sweeping Q b nowUs orderingHoldCount s)
    (hno : ¬ b.Stalls staged nowUs) : Flowing s.buffer staged where
  ordered := w.ordered h.ordered
  waited := by
    intro x hx hcur
    have hx' := w.kept x hx
    obtain ⟨c, hc⟩ := inv.heldCursor hx'
    obtain ⟨c', hc', -, hmove⟩ := w.cursors x.sourceId c hc
    rw [hcur] at hc'
    cases hc'
    rcases hmove with heq | ⟨y, hy, hexp, hsource, hnext⟩
    · exact h.waited x hx' (hc.trans (congrArg some heq.symm))
    -- The cursor came to `x` from an expired message, the last one of its source.
    by_contra hnone
    have hfresh := w.unexpired hx
    obtain ⟨j, hj, rfl⟩ := hx'
    obtain ⟨i, hi, rfl⟩ := hy
    refine hno ⟨i, j, hi, hexp, hj, hfresh, hsource.symm, hnext, ?_, ?_⟩
    · intro k hk hkexp hks
      rcases w.behind b.hold[k].env ⟨k, hk, rfl⟩ hkexp with hheld | ⟨c, hc, hle⟩
      · exact absurd hkexp (w.unexpired hheld)
      · rw [hks, hsource, hcur] at hc
        cases hc
        rw [hnext] at hle
        have hlt := UInt32.lt_of_lt_of_le (lt_nextSeq (hlast _ ⟨k, hk, rfl⟩)) hle
        exact (lt_nextSeq_iff (hlast _ ⟨i, hi, rfl⟩)).mp hlt
    · intro env henv heq
      exact hnone ⟨env, henv, heq.trans hsource⟩

/-- Releasing from a gate in which nothing is behind its cursor, and only `src` and what will be
staged may have a message at it. -/
theorem Flowing.release (distinct : Distinct b)
    (ordered : ∀ x c, Held b x → b.cursor? x.sourceId = some c → c ≤ x.sequenceNum)
    (release : Released b src out b')
    (others : ∀ x, Held b x → x.sourceId ≠ src → b.cursor? x.sourceId = some x.sequenceNum →
      ∃ env ∈ out.or staged, env.sourceId = x.sourceId) : Flowing b' (out.or staged) := by
  cases release with
  | nothing empty =>
    refine ⟨ordered, fun x hx hcur => others x hx (fun hs => ?_) hcur⟩
    exact empty x hx hs (hs ▸ hcur)
  | @next env _ held source atCursor cursors rest =>
    refine ⟨fun x c hx hc => ?_, fun x hx hcur => ?_⟩
    · obtain ⟨hx', hne⟩ := (rest x).mp hx
      rw [cursors x.sourceId] at hc
      split at hc
      case isTrue hs =>
        cases hc
        have hle : env.sequenceNum ≤ x.sequenceNum := ordered x _ hx' (hs ▸ atCursor)
        have hdiff : x.sequenceNum ≠ env.sequenceNum :=
          fun heq => hne (distinct x env hx' held (hs.trans source.symm) heq)
        exact nextSeq_le_of_lt (UInt32.lt_of_le_of_ne hle hdiff.symm)
      case isFalse _ => exact ordered x c hx' hc
    · obtain ⟨hx', -⟩ := (rest x).mp hx
      rw [cursors x.sourceId] at hcur
      split at hcur
      case isTrue hs => exact ⟨env, rfl, source.trans hs.symm⟩
      case isFalse hs => exact others x hx' hs hcur

/-- A message that is kept or dropped does not touch what flows. -/
theorem Flowing.kept (h : Flowing b staged) (inv : Inv Q b) {msg : MessageEnvelope} {res : Result}
    (ingested : Ingested b msg (.error res) b') : Flowing b' staged := by
  -- The cursors of what was held stay; that of the message itself is below its number.
  have hcursor {c : UInt32} (moved : Moved b msg.sourceId (b.expected msg.sourceId) b')
      {x : MessageEnvelope} (hx : Held b x) (hc : b'.cursor? x.sourceId = some c) :
      b.cursor? x.sourceId = some c := by
    by_cases hs : x.sourceId = msg.sourceId
    · obtain ⟨c₀, hc₀⟩ := inv.heldCursor hx
      rw [hs, moved.own, expected, ← hs, hc₀] at hc
      exact hc₀.trans hc
    · rcases moved.others x.sourceId hs with hsame | ⟨hnone, -⟩
      · rwa [hsame] at hc
      · rw [hnone] at hc
        cases hc
  cases ingested with
  | stored seq ahead new room moved held =>
    refine ⟨fun x c hx hc => ?_, fun x hx hc => ?_⟩
    · rcases (held x).mp hx with hx | rfl
      · exact h.ordered x c hx (hcursor moved hx hc)
      · rw [moved.own] at hc
        cases hc
        exact UInt32.le_of_lt ahead
    · rcases (held x).mp hx with hx | rfl
      · exact h.waited x hx (hcursor moved hx hc)
      · rw [moved.own] at hc
        exact absurd (Option.some.inj hc) (UInt32.ne_of_lt ahead)
  | refused seq result why moved holds =>
    refine ⟨fun x c hx hc => ?_, fun x hx hc => ?_⟩
    · have hx' := (held_congr holds x).mp hx
      exact h.ordered x c hx' (hcursor moved hx' hc)
    · have hx' := (held_congr holds x).mp hx
      exact h.waited x hx' (hcursor moved hx' hc)

/-- A message that passes leaves nothing behind the cursor, unless a copy of it was held there. The
other sources wait as before. -/
theorem Flowing.passed (h : Flowing b staged) (inv : Inv Q b) {msg : MessageEnvelope}
    (hcopy : msg.sequenceNum ≠ 0 → ∀ x, Held b x → x.sourceId = msg.sourceId →
      x.sequenceNum ≠ msg.sequenceNum)
    (ingested : Ingested b msg (.ok msg) b') :
    (∀ x c, Held b' x → b'.cursor? x.sourceId = some c → c ≤ x.sequenceNum) ∧
      ∀ x, Held b' x → x.sourceId ≠ msg.sourceId → b'.cursor? x.sourceId = some x.sequenceNum →
        b.cursor? x.sourceId = some x.sequenceNum := by
  cases ingested with
  | unordered zero => exact ⟨h.ordered, fun _ _ _ hc => hc⟩
  | delivered seq next moved holds =>
    have hother {x : MessageEnvelope} (hs : x.sourceId ≠ msg.sourceId) {c : UInt32}
        (hc : b'.cursor? x.sourceId = some c) : b.cursor? x.sourceId = some c := by
      rcases moved.others x.sourceId hs with hsame | ⟨hnone, -⟩
      · rwa [hsame] at hc
      · rw [hnone] at hc
        cases hc
    refine ⟨fun x c hx hc => ?_, fun x _ hs hc => hother hs hc⟩
    have hx' := (held_congr holds x).mp hx
    by_cases hs : x.sourceId = msg.sourceId
    · obtain ⟨c₀, hc₀⟩ := inv.heldCursor hx'
      have hle := h.ordered x c₀ hx' hc₀
      rw [hs] at hc hc₀
      rw [moved.own] at hc
      cases hc
      rw [expected, hc₀] at next
      cases next
      exact nextSeq_le_of_lt (UInt32.lt_of_le_of_ne hle (hcopy seq x hx' hs).symm)
    · exact h.ordered x c hx' (hother hs hc)

/-- A reset takes away what it stops waiting for. -/
theorem Flowing.reset (h : Flowing b staged) (held : ∀ env, Held b' env ↔ Held b env ∧ env.sourceId ≠ src)
    (cursors : ∀ s, b'.cursor? s = if s = src then (b.cursor? src).map fun _ => 1 else b.cursor? s) :
    Flowing b' (staged.filter fun env => env.sourceId != src) where
  ordered := by
    intro x c hx hc
    obtain ⟨hx', hs⟩ := (held x).mp hx
    rw [cursors, if_neg hs] at hc
    exact h.ordered x c hx' hc
  waited := by
    intro x hx hc
    obtain ⟨hx', hs⟩ := (held x).mp hx
    rw [cursors, if_neg hs] at hc
    obtain ⟨env, henv, hsource⟩ := h.waited x hx' hc
    refine ⟨env, Option.mem_filter_iff.mpr ⟨henv, ?_⟩, hsource⟩
    simpa [hsource] using hs

end OrderingBuffer

namespace DeliveryEngine

/-- No active hold of a tracked source is behind its cursor, and none is at its cursor unless a
message of that source is staged. -/
def GateLaw (_ : List Observation) (_ : DeliveryEngine) (_ : Input) (_ : Observation)
    (e' : DeliveryEngine) : Prop :=
  ∀ (p : Fin orderingPeerCount) (i : Fin orderingHoldCount), e'.ordering.peers[p].active = true →
    e'.ordering.hold[i].active = true →
    e'.ordering.hold[i].env.sourceId = e'.ordering.peers[p].src →
    ¬ e'.ordering.hold[i].env.sequenceNum < e'.ordering.peers[p].nextExpectedSeq ∧
    (e'.ordering.hold[i].env.sequenceNum = e'.ordering.peers[p].nextExpectedSeq →
      e'.heldPendingValid = true ∧ e'.heldPending.sourceId = e'.ordering.peers[p].src)

instance (past : List Observation) (e : DeliveryEngine) (i : Input) (o : Observation)
    (e' : DeliveryEngine) : Decidable (GateLaw past e i o e') :=
  inferInstanceAs (Decidable (∀ _ _, _))

/-- The message that passes the gate has one staged over another source's, and the message after
that one waits at its cursor. -/
def Receiving.Strands (r : Receiving) : Prop :=
  ∃ env ∈ r.data?, r.gate.Unblocks env ∧ ∃ staged ∈ r.opened.staged, staged.sourceId ≠ env.sourceId ∧
    ∃ i : Fin orderingHoldCount, r.gate.AtCursor i ∧ r.gate.hold[i].env.sourceId = staged.sourceId

/-- The message that passes the gate is a copy of one that waits at the cursor. -/
def Receiving.Shadows (r : Receiving) : Prop :=
  ∃ env ∈ r.data?, env.sequenceNum ≠ 0 ∧ env.sequenceNum = r.gate.expected env.sourceId ∧
    ∃ i : Fin orderingHoldCount, r.gate.hold[i].active = true ∧
      r.gate.hold[i].env.sourceId = env.sourceId ∧ r.gate.hold[i].env.sequenceNum = env.sequenceNum

instance (r : Receiving) : Decidable r.Strands := inferInstanceAs (Decidable (∃ _ ∈ _, _))

instance (r : Receiving) : Decidable r.Shadows := inferInstanceAs (Decidable (∃ _ ∈ _, _))

/-- The time of a `sweep_ack_timeouts` that the guard accepts. -/
def sweepTime? (e : DeliveryEngine) (i : Input) : Option UInt64 :=
  match i.call with
  | .sweepAckTimeouts nowUs => if e.Stale nowUs then none else some nowUs
  | _ => none

/-- The call does not stop the flow: no sweep stalls, no message is stranded, none is shadowed. -/
def KeepsFlowing (e : DeliveryEngine) (i : Input) : Prop :=
  (∀ nowUs ∈ sweepTime? e i, ¬ e.ordering.Stalls e.staged? nowUs) ∧
  ∀ r ∈ receiving? e i, r.data?.isSome = true →
    ¬ r.opened.ordering.Stalls r.opened.staged r.nowUs ∧ ¬ r.Strands ∧ ¬ r.Shadows

-- The times are looked up in the call; instance search would try every one there is.
instance (e : DeliveryEngine) (i : Input) : Decidable (KeepsFlowing e i) :=
  @instDecidableAnd _ _ (Option.decidableForallMem _) (Option.decidableForallMem _)

variable {P : MessageEnvelope → Prop} {e e' : DeliveryEngine} {i : Input} {r : Receiving} {reply : Reply}
  {d d' : Delivery} {env : MessageEnvelope} {src : NodeId}

/-- The staged message goes and the next one of its source comes. -/
theorem flowing_released {b b' : OrderingBuffer} {out : Option MessageEnvelope} (distinct : Distinct b)
    (h : Flowing b (some env)) (release : Released b env.sourceId out b') : Flowing b' out := by
  have hnext : Flowing b' (out.or none) := by
    refine .release distinct h.ordered release fun x hx hs hcur => ?_
    obtain ⟨y, hy, hsource⟩ := h.waited x hx hcur
    cases hy
    exact absurd hsource.symm hs
  rwa [Option.or_none] at hnext

theorem flowing_opened (inv : Inv P r.engine) (asks : r.asks)
    (h : Flowing r.engine.ordering r.engine.staged?) :
    Flowing r.opened.ordering r.opened.staged ∧ r.opened.ordering.Inv (Accepted P) := by
  rcases Receiving.opened_spec inv asks with
    ⟨-, hopened⟩ | ⟨env, out, ordering, hstaged, -, -, hrel, hord, hopened⟩
  · rw [hopened]
    exact ⟨h, inv.ordering⟩
  · rw [hopened]
    rw [hstaged] at h
    exact ⟨flowing_released inv.ordering.distinct h hrel, hord⟩

theorem flowing_answered (hp : ∀ env, P env → Unwrapped env) (inv : Inv P r.engine)
    (hkeeps : r.data?.isSome = true →
      ¬ r.opened.ordering.Stalls r.opened.staged r.nowUs ∧ ¬ r.Strands ∧ ¬ r.Shadows)
    (h : Flowing r.engine.ordering r.engine.staged?) (answered : r.Answered P reply d') :
    Flowing d'.ordering d'.staged := by
  cases answered with
  | @returned env out ordering res staged accepted fresh release =>
    rw [staged] at h
    exact flowing_released inv.ordering.distinct h release
  | idle asks none noData _ => exact (flowing_opened inv asks h).1
  | duplicate asks none retry known => exact (flowing_opened inv asks h).1
  | kept asks data accepted through gate =>
    obtain ⟨hopened, hord⟩ := flowing_opened inv asks h
    obtain ⟨hstalls, -, -⟩ := hkeeps (by rw [data]; rfl)
    have hswept := hopened.swept hord (fun _ => held_ne_last hp hord) gate.sweeping hstalls
    exact hswept.kept gate.sweeping.inv gate.ingested
  | @passed env dedup s res gateAfter ordering out asks data accepted through gate release =>
    obtain ⟨hopened, hord⟩ := flowing_opened inv asks h
    obtain ⟨hstalls, hstrands, hshadows⟩ := hkeeps (by rw [data]; rfl)
    have hswept := hopened.swept hord (fun _ => held_ne_last hp hord) gate.sweeping hstalls
    rw [Receiving.Strands, Receiving.gate_eq gate.swept] at hstrands
    rw [Receiving.Shadows, Receiving.gate_eq gate.swept] at hshadows
    have hcopy (hseq : env.sequenceNum ≠ 0) (x : MessageEnvelope) (hx : Held s.buffer x)
        (hs : x.sourceId = env.sourceId) : x.sequenceNum ≠ env.sequenceNum := by
      intro heq
      obtain ⟨i, hi, rfl⟩ := hx
      rcases gate.ingested.passes with hzero | hnext
      · exact hseq hzero
      · exact hshadows ⟨env, data, hseq, hnext, i, hi, hs, heq⟩
    obtain ⟨hordered, hothers⟩ := hswept.passed gate.sweeping.inv hcopy gate.ingested
    have hheld := gate.ingested.held_passed
    have hdistinct : Distinct gateAfter := fun x y hx hy =>
      gate.sweeping.inv.distinct x y ((hheld x).mp hx) ((hheld y).mp hy)
    refine .release hdistinct hordered release fun x hx hs hcur => ?_
    have hx' := (hheld x).mp hx
    have hcur' := hothers x hx hs hcur
    obtain ⟨y, hy, hsource⟩ := hswept.waited x hx' hcur'
    cases out with
    | none => exact ⟨y, hy, hsource⟩
    | some next =>
      obtain ⟨i, hi, rfl⟩ := hx'
      have hne : y.sourceId ≠ env.sourceId := fun heq => hs (hsource.symm.trans heq)
      exact absurd ⟨env, data, gate.ingested.unblocks release, y, hy, hne, i, ⟨hi, hcur'⟩, hsource.symm⟩
        hstrands

theorem flowing_reset (inv : d.ordering.Inv (Accepted P)) (h : Flowing d.ordering d.staged)
    (reset : IsReset src d d') : d'.ordering.Inv (Accepted P) ∧ Flowing d'.ordering d'.staged := by
  obtain ⟨b', hrun, hinv, hheld, hcursor⟩ := resetPeer_spec inv reset.source
  obtain rfl : b' = d'.ordering := by
    rw [reset.ordering] at hrun
    exact (Except.ok.inj hrun).symm
  rw [reset.staged]
  exact ⟨hinv, h.reset hheld hcursor⟩

theorem flowing_delivered {answer : Answer} (hp : ∀ env, P env → Unwrapped env) (inv : Inv P e)
    (h : Flowing e.ordering e.staged?) (hkeeps : KeepsFlowing e i)
    (delivered : Delivered P e i answer d') : Flowing d'.ordering d'.staged := by
  cases delivered with
  | outbound notReceive notReceived outward => exact h
  | rejected => exact h
  | @swept nowUs n s call fresh swept sweeping =>
    have htime : sweepTime? e i = some nowUs := by
      rw [sweepTime?, call]
      exact if_neg fresh
    exact h.swept inv.ordering (fun _ => held_ne_last hp inv.ordering) sweeping
      (hkeeps.1 nowUs htime)
  | reset call reset => exact (flowing_reset (d := { e.delivery with trace := [] }) inv.ordering h reset).2
  | @received r reply _ receiving hinv resets answered =>
    have hdrained := resets.keep (R := fun d => d.ordering.Inv (Accepted P) ∧
      Flowing d.ordering d.staged) ⟨inv.ordering, h⟩
      fun src _ d d' hreset hd => flowing_reset hd.1 hd.2 hreset
    exact flowing_answered hp hinv (hkeeps.2 r receiving) hdrained.2 answered

/-! ## The law -/

theorem gateLaw_of_flowing (inv : Inv P e') (h : Flowing e'.ordering e'.staged?)
    (past : List Observation) (e : DeliveryEngine) (i : Input) (o : Observation) :
    GateLaw past e i o e' := by
  intro p j hp hj hsource
  have hheld : Held e'.ordering e'.ordering.hold[j].env := ⟨j, hj, rfl⟩
  have hcursor := cursor?_eq_some inv.ordering ⟨hp, rfl⟩
  rw [← hsource] at hcursor
  refine ⟨UInt32.not_lt.mpr (h.ordered _ _ hheld hcursor), fun heq => ?_⟩
  rw [← heq] at hcursor
  obtain ⟨env, henv, hs⟩ := h.waited _ hheld hcursor
  obtain ⟨hvalid, rfl, -, -⟩ := inv.accepted_staged henv
  exact ⟨hvalid, hs.trans hsource⟩

theorem headerProperty_unwrapped : HeaderProperty Unwrapped where
  stable := fun _ _ _ _ _ _ h => h

/-- When no sequence number wraps, the gate keeps flowing in every run in which no call stops the
flow. -/
theorem gate_flows (cfg : ChannelConfig) (localId : NodeId) (entropy : UInt64) (inputs : List Input)
    (hlocal : localId ≠ nodeIdInvalid) (hframes : ∀ i ∈ inputs, Delivers Unwrapped i.transport)
    (hkeeps : Run.Along exec KeepsFlowing inputs (init cfg localId entropy)) :
    Run.EachStep exec GateLaw [] inputs (init cfg localId entropy) := by
  refine Run.eachStep_of_inv (fun _ e => Inv Unwrapped e ∧ Flowing e.ordering e.staged?) ?_ inputs [] _
    ?_ (hkeeps.and_inputs hframes)
  · rintro past e i o e' ⟨inv, h⟩ ⟨hstep, hdelivers⟩ hexec
    obtain ⟨hinv, hdelivered, -⟩ := exec_delivered headerProperty_unwrapped inv hdelivers hexec
    have hflow := flowing_delivered (fun _ => id) inv h hstep hdelivered
    exact ⟨gateLaw_of_flowing hinv hflow past e i o, hinv, hflow⟩
  · exact ⟨inv_init cfg entropy hlocal, flowing_init _⟩

/-! ## A run that stalls -/

/-- Messages 2 and 3 of node 2 wait for message 1. Message 2 expires and is swept, which puts the
cursor on message 3. -/
def stallingRun : List Input :=
  [receiveOf 1 (plainData 2 2 10), receiveOf 2 (plainData 2 3 0),
   ⟨.sweepAckTimeouts 20, silent⟩]

theorem unwrapped_plainData {source : NodeId} {seq : UInt32} {expiryTimeUs : UInt64} :
    Unwrapped (plainData source seq expiryTimeUs) ↔ (seq ≠ 0 → seq ≠ lastSeq) :=
  ⟨fun h => h rfl, fun h _ => h⟩

theorem gate_stalls : (∀ i ∈ stallingRun, Delivers Unwrapped i.transport) ∧
    ¬ Run.EachStep exec GateLaw [] stallingRun (init orderedConfig 1 7) := by
  refine ⟨?_, by decide +kernel⟩
  simp [stallingRun, unwrapped_plainData, lastSeq]

/-- The same arrivals, with a message that expires after the gap is filled. -/
def flowingRun : List Input :=
  [receiveOf 1 (plainData 2 2 10), receiveOf 2 (plainData 2 3 0), receiveOf 3 (plainData 2 1 0),
   ⟨.sweepAckTimeouts 20, silent⟩, receiveNothing 21, receiveNothing 22]

theorem gate_flows_filled :
    Run.Along exec KeepsFlowing flowingRun (init orderedConfig 1 7) ∧
      Run.EachStep exec GateLaw [] flowingRun (init orderedConfig 1 7) := by
  have hkeeps : Run.Along exec KeepsFlowing flowingRun (init orderedConfig 1 7) := by decide +kernel
  refine ⟨hkeeps, gate_flows orderedConfig 1 7 flowingRun (by decide) ?_ hkeeps⟩
  simp [flowingRun, unwrapped_plainData, lastSeq]

end DeliveryEngine

end MessageEngine
