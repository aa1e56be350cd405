import MessageEngine.Laws.Runs.Staging
import Mathlib.Combinatorics.Pigeonhole

/-!
# In-order delivery over whole runs

The numbered messages of one source are returned in increasing order, from one reset of the source
to the next. The gate's cursor keeps ahead of everything that was returned, and what is staged lies
between the two.

One path returns a message of a source while an earlier one of it is staged: a staged message
expires, the next one of its source is staged, and the transport hands up the message that the
gate expects after that one. The staged message is then returned late.

## What is proved

- `in_order`: in a run without such a call, and in which no source loses its entry in the gate and no
  sequence number wraps, every source's messages are returned in order;
- `overtaken`: a run with such a call returns them out of order.
-/

namespace MessageEngine

open Outcome Table OrderingBuffer

/-- The effect is a reset of `src`. -/
def Effect.resets (src : NodeId) : Effect → Bool
  | .reset s => s == src
  | _ => false

namespace OrderingBuffer

/-- No source loses its cursor, and no cursor goes back. -/
def Onward (b b' : OrderingBuffer) : Prop :=
  ∀ s c, b.cursor? s = some c → ∃ c', b'.cursor? s = some c' ∧ c ≤ c'

variable {Q : MessageEnvelope → Prop} {b b' b₁ b₂ : OrderingBuffer} {src : NodeId}

theorem Onward.refl (b : OrderingBuffer) : Onward b b := fun _ c h => ⟨c, h, UInt32.le_refl c⟩

theorem Onward.trans (h : Onward b b₁) (h' : Onward b₁ b₂) : Onward b b₂ := by
  intro s c hc
  obtain ⟨c₁, hc₁, hle⟩ := h s c hc
  obtain ⟨c₂, hc₂, hle'⟩ := h' s c₁ hc₁
  exact ⟨c₂, hc₂, UInt32.le_trans hle hle'⟩

theorem lt_nextSeq {seq : UInt32} (h : seq ≠ lastSeq) : seq < nextSeq seq :=
  (lt_nextSeq_iff h).mpr (UInt32.le_refl seq)

theorem Sweeping.onward {nowUs : UInt64} {k : Nat} {s : Sweep} (w : Sweeping Q b nowUs k s) :
    Onward b s.buffer := by
  intro src c hc
  obtain ⟨c', hc', hle, -⟩ := w.cursors src c hc
  exact ⟨c', hc', hle⟩

theorem Released.onward {out : Option MessageEnvelope} (h : Released b src out b')
    (hlast : ∀ env ∈ out, env.sequenceNum ≠ lastSeq) : Onward b b' := by
  cases h with
  | nothing _ => exact .refl b
  | next held source atCursor cursors rest =>
    intro s c hc
    rw [cursors s]
    split
    case isTrue hs =>
      rw [hs, atCursor] at hc
      cases hc
      exact ⟨_, rfl, UInt32.le_of_lt (lt_nextSeq (hlast _ rfl))⟩
    case isFalse _ => exact ⟨c, hc, UInt32.le_refl c⟩

/-- Which sources are tracked does not change by a release or a sweep. -/
theorem Released.tracked {out : Option MessageEnvelope} (h : Released b src out b') {s : NodeId}
    {c : UInt32} (hc : b'.cursor? s = some c) : b.cursor? s ≠ none := by
  cases h with
  | nothing _ =>
    rw [hc]
    exact Option.some_ne_none c
  | next held source atCursor cursors rest =>
    rw [cursors s] at hc
    split at hc
    case isTrue hs =>
      rw [hs, atCursor]
      exact Option.some_ne_none _
    case isFalse _ =>
      rw [hc]
      exact Option.some_ne_none c

end OrderingBuffer

namespace DeliveryEngine

/-- The numbered data message that a call returns. -/
def Answer.ordered? : Answer → Option MessageEnvelope
  | .received (.ok env) => if envelopeIsData env ∧ env.sequenceNum ≠ 0 then some env else none
  | _ => none

/-- The sequence numbers of `src`, and that of the message just returned if it is its. -/
def pushSeq (src : NodeId) (seqs : List UInt32) (got : Option MessageEnvelope) : List UInt32 :=
  seqs ++ (got.filter fun env => env.sourceId == src).toList.map (·.sequenceNum)

/-- The sequence numbers of `src` that were returned since its last reset, in order. A reset during
a `receive` comes before what it returns. -/
def deliveredSince (past : List Observation) (src : NodeId) : List UInt32 :=
  past.foldl (fun seqs o =>
    pushSeq src (if o.effects.any (Effect.resets src) then [] else seqs) o.answer.ordered?) []

/-- Every source's messages have been returned in order. -/
def InOrderLaw (past : List Observation) (_ : DeliveryEngine) (_ : Input) (o : Observation)
    (_ : DeliveryEngine) : Prop :=
  ∀ src, (deliveredSince (past ++ [o]) src).Pairwise (· < ·)

/-- A numbered message does not have the last number, after which the count starts again. -/
def Unwrapped (env : MessageEnvelope) : Prop :=
  envelopeIsData env → env.sequenceNum ≠ 0 → env.sequenceNum ≠ lastSeq

/-- Numbered messages come from the sources in `S`, and their numbers do not wrap. -/
def OrderedFrom (S : Finset NodeId) (env : MessageEnvelope) : Prop :=
  envelopeIsData env → env.sequenceNum ≠ 0 → env.sourceId ∈ S ∧ env.sequenceNum ≠ lastSeq

theorem headerProperty_orderedFrom (S : Finset NodeId) : HeaderProperty (OrderedFrom S) where
  stable := fun _ _ _ _ _ _ h => h

theorem unwrapped_orderedFrom {S : Finset NodeId} (env : MessageEnvelope) (h : OrderedFrom S env) :
    Unwrapped env :=
  fun hdata hseq => (h hdata hseq).2

/-- The call returns a message while an earlier one of its source is staged. -/
def Receiving.Overtakes (r : Receiving) : Prop :=
  ∃ env ∈ r.data?, env.sequenceNum ≠ 0 ∧ env.sequenceNum = r.gate.expected env.sourceId ∧
    ∃ staged ∈ r.opened.staged, staged.sourceId = env.sourceId

instance (r : Receiving) : Decidable r.Overtakes := inferInstanceAs (Decidable (∃ _ ∈ _, _))

/-- The call does not overtake a staged message. -/
def WaitsForStaged (e : DeliveryEngine) (i : Input) : Prop := ∀ r ∈ receiving? e i, ¬ r.Overtakes

instance (e : DeliveryEngine) (i : Input) : Decidable (WaitsForStaged e i) :=
  inferInstanceAs (Decidable (∀ _ ∈ _, _))

/-! ## The invariant -/

/-- The message comes after all that was returned of its source, and before the cursor. -/
structure AwaitsTurn (seqs : NodeId → List UInt32) (b : OrderingBuffer) (env : MessageEnvelope) : Prop where
  behind : ∃ c, b.cursor? env.sourceId = some c ∧ env.sequenceNum < c
  after : ∀ q ∈ seqs env.sourceId, q < env.sequenceNum

/-- The returned sequence numbers, the staged message and the cursors are in order. -/
structure InOrder (S : Finset NodeId) (seqs : NodeId → List UInt32) (b : OrderingBuffer)
    (staged : Option MessageEnvelope) : Prop where
  tracked : ∀ s c, b.cursor? s = some c → s ∈ S
  increasing : ∀ s, (seqs s).Pairwise (· < ·)
  behind : ∀ s, ∀ q ∈ seqs s, ∃ c, b.cursor? s = some c ∧ q < c
  staged : ∀ env ∈ staged, AwaitsTurn seqs b env

variable {S : Finset NodeId} {seqs : NodeId → List UInt32} {b b' : OrderingBuffer} {src : NodeId}
  {staged out : Option MessageEnvelope} {env : MessageEnvelope}

theorem AwaitsTurn.onward (h : AwaitsTurn seqs b env) (onward : Onward b b') : AwaitsTurn seqs b' env := by
  obtain ⟨c, hc, hlt⟩ := h.behind
  obtain ⟨c', hc', hle⟩ := onward _ c hc
  exact ⟨⟨c', hc', UInt32.lt_of_lt_of_le hlt hle⟩, h.after⟩

/-- Moving cursors forward keeps everything in order. -/
theorem InOrder.onward (h : InOrder S seqs b staged) (onward : Onward b b')
    (tracked : ∀ s c, b'.cursor? s = some c → s ∈ S) : InOrder S seqs b' staged where
  tracked := tracked
  increasing := h.increasing
  behind := by
    intro s q hq
    obtain ⟨c, hc, hlt⟩ := h.behind s q hq
    obtain ⟨c', hc', hle⟩ := onward s c hc
    exact ⟨c', hc', UInt32.lt_of_lt_of_le hlt hle⟩
  staged := fun env henv => (h.staged env henv).onward onward

/-- The slot is emptied. -/
theorem InOrder.unstage (h : InOrder S seqs b staged) : InOrder S seqs b none :=
  { h with staged := fun _ henv => nomatch henv }

theorem InOrder.tracked_of_ne_none (h : InOrder S seqs b staged) {s : NodeId}
    (hs : b.cursor? s ≠ none) : s ∈ S := by
  obtain ⟨c, hc⟩ := Option.ne_none_iff_exists'.mp hs
  exact h.tracked s c hc

/-- What is released goes into the slot; if nothing is, the slot keeps what it has. -/
theorem InOrder.release (h : InOrder S seqs b staged) (release : Released b src out b')
    (hlast : ∀ env ∈ out, env.sequenceNum ≠ lastSeq) : InOrder S seqs b' (out.or staged) := by
  have hnext := h.onward (release.onward hlast)
    fun s c hc => h.tracked_of_ne_none (release.tracked hc)
  cases release with
  | nothing _ => exact hnext
  | @next env _ held source atCursor cursors rest =>
    refine { hnext with staged := fun x hx => ?_ }
    cases hx
    refine ⟨⟨nextSeq env.sequenceNum, ?_, lt_nextSeq (hlast env rfl)⟩, fun q hq => ?_⟩
    · rw [cursors, if_pos source]
    · obtain ⟨c, hc, hlt⟩ := h.behind env.sourceId q hq
      rw [source, atCursor] at hc
      cases hc
      exact hlt

/-- A message is returned that comes after all that was returned of its source. -/
theorem InOrder.push (h : InOrder S seqs b staged) (haccepted : AwaitsTurn seqs b env)
    (hstaged : ∀ x ∈ staged, x.sourceId ≠ env.sourceId) :
    InOrder S (fun s => pushSeq s (seqs s) (some env)) b staged := by
  have hother {s : NodeId} (hs : env.sourceId ≠ s) : pushSeq s (seqs s) (some env) = seqs s := by
    simp [pushSeq, Option.filter, hs]
  have hown : pushSeq env.sourceId (seqs env.sourceId) (some env) =
      seqs env.sourceId ++ [env.sequenceNum] := by
    simp [pushSeq, Option.filter]
  refine ⟨h.tracked, fun s => ?_, fun s q hq => ?_, fun x hx => ?_⟩
  · by_cases hs : env.sourceId = s
    · subst hs
      rw [hown, List.pairwise_append]
      refine ⟨h.increasing _, List.pairwise_singleton _ _, fun q hq x hx => ?_⟩
      cases List.mem_singleton.mp hx
      exact haccepted.after q hq
    · rw [hother hs]
      exact h.increasing s
  · by_cases hs : env.sourceId = s
    · subst hs
      rw [hown] at hq
      rcases List.mem_append.mp hq with hq | hq
      · exact h.behind _ q hq
      · cases List.mem_singleton.mp hq
        exact haccepted.behind
    · rw [hother hs] at hq
      exact h.behind s q hq
  · have hx' := h.staged x hx
    refine ⟨hx'.behind, fun q hq => hx'.after q ?_⟩
    rwa [hother (hstaged x hx).symm] at hq

/-- A message that is not counted changes nothing. -/
theorem InOrder.skip (h : InOrder S seqs b staged) :
    InOrder S (fun s => pushSeq s (seqs s) none) b staged := by
  have hsame : (fun s => pushSeq s (seqs s) none) = seqs := by
    funext s
    simp [pushSeq]
  rw [hsame]
  exact h

/-! ## The gate -/

variable {nowUs : UInt64} {s : Sweep} {reply : Reply} {r : Receiving} {d d' : Delivery}

theorem InOrder.moved {Q : MessageEnvelope → Prop} (h : InOrder S seqs b staged) (inv : b.Inv Q)
    (hcard : S.card ≤ orderingPeerCount) (hsrc : src ∈ S) {c : UInt32} (moved : Moved b src c b')
    (hle : b.expected src ≤ c) : InOrder S seqs b' staged := by
  have hkeeps {s : NodeId} (hs : s ≠ src) : b'.cursor? s = b.cursor? s := by
    rcases moved.others s hs with hsame | ⟨-, -, hnew, hfull, -⟩
    · exact hsame
    · exact absurd hfull (not_full inv hcard h.tracked hsrc hnew)
  refine h.onward (fun s c₀ hc₀ => ?_) (fun s c₀ hc₀ => ?_)
  · by_cases hs : s = src
    · subst hs
      refine ⟨c, moved.own, ?_⟩
      rw [expected, hc₀] at hle
      exact hle
    · exact ⟨c₀, (hkeeps hs).trans hc₀, UInt32.le_refl c₀⟩
  · by_cases hs : s = src
    · rw [hs]
      exact hsrc
    · rw [hkeeps hs] at hc₀
      exact h.tracked s c₀ hc₀

theorem InOrder.swept {Q : MessageEnvelope → Prop} (h : InOrder S seqs b staged)
    (w : Sweeping Q b nowUs orderingHoldCount s) : InOrder S seqs s.buffer staged := by
  refine h.onward w.onward fun src c hc => h.tracked_of_ne_none fun hnone => ?_
  rw [w.untracked src hnone] at hc
  cases hc

/-- What was returned of a source is below the number expected next. -/
theorem InOrder.lt_expected (h : InOrder S seqs b staged) {q : UInt32} (hq : q ∈ seqs src) :
    q < b.expected src := by
  obtain ⟨c, hc, hlt⟩ := h.behind src q hq
  rw [expected, hc]
  exact hlt

/-- What the gate holds has a number, and that is not the last one. -/
theorem held_ne_last {P : MessageEnvelope → Prop} (hp : ∀ env, P env → Unwrapped env)
    (inv : b.Inv (Accepted P)) (held : Held b env) : env.sequenceNum ≠ lastSeq := by
  have haccepted := inv.holdOk _ held
  exact hp env haccepted.prop haccepted.data (inv.holdSeq _ held)

theorem released_ne_last (hheld : ∀ x, Held b x → x.sequenceNum ≠ lastSeq)
    (release : Released b src out b') : ∀ env ∈ out, env.sequenceNum ≠ lastSeq := by
  intro env henv
  cases release with
  | nothing _ => cases henv
  | next held source atCursor cursors rest =>
    cases henv
    exact hheld _ held

/-! ## One call -/

theorem inOrder_opened (inv : Inv (OrderedFrom S) r.engine) (asks : r.asks)
    (h : InOrder S seqs r.engine.ordering r.engine.staged?) :
    InOrder S seqs r.opened.ordering r.opened.staged ∧
      r.opened.ordering.Inv (Accepted (OrderedFrom S)) := by
  rcases Receiving.opened_spec inv asks with
    ⟨-, hopened⟩ | ⟨env, out, ordering, hstaged, -, -, hrel, hord, hopened⟩
  · rw [hopened]
    exact ⟨h, inv.ordering⟩
  · rw [hopened]
    refine ⟨?_, hord⟩
    have hnext := h.unstage.release hrel (released_ne_last (fun _ => held_ne_last unwrapped_orderedFrom inv.ordering) hrel)
    rwa [Option.or_none] at hnext

/-- A message that the gate passed is returned in order. -/
theorem InOrder.passed {Q : MessageEnvelope → Prop} (h : InOrder S seqs b staged) (inv : b.Inv Q)
    (hcard : S.card ≤ orderingPeerCount) (hdata : envelopeIsData env) (hfrom : OrderedFrom S env)
    (hstaged : env.sequenceNum ≠ 0 → env.sequenceNum = b.expected env.sourceId →
      ∀ x ∈ staged, x.sourceId ≠ env.sourceId)
    (ingested : Ingested b env (.ok env) b') :
    InOrder S (fun s => pushSeq s (seqs s) (Answer.received (.ok env)).ordered?) b' staged := by
  cases ingested with
  | unordered zero =>
    rw [Answer.ordered?, if_neg (fun hd => hd.2 zero)]
    exact h.skip
  | delivered seq next moved holds =>
    obtain ⟨hsource, hlast⟩ := hfrom hdata seq
    have hlt := lt_nextSeq hlast
    have hmoved := h.moved inv hcard hsource moved (by rw [← next]; exact UInt32.le_of_lt hlt)
    rw [Answer.ordered?, if_pos ⟨hdata, seq⟩]
    refine hmoved.push ⟨⟨_, moved.own, hlt⟩, fun q hq => ?_⟩ (hstaged seq next)
    rw [next]
    exact h.lt_expected hq

/-- A message that the gate kept or dropped leaves everything in order. -/
theorem InOrder.kept {Q : MessageEnvelope → Prop} (h : InOrder S seqs b staged) (inv : b.Inv Q)
    (hcard : S.card ≤ orderingPeerCount) (hdata : envelopeIsData env) (hfrom : OrderedFrom S env)
    {res : Result} (ingested : Ingested b env (.error res) b') : InOrder S seqs b' staged := by
  cases ingested with
  | stored seq ahead new room moved held => exact h.moved inv hcard (hfrom hdata seq).1 moved (UInt32.le_refl _)
  | refused seq result why moved holds =>
    exact h.moved inv hcard (hfrom hdata seq).1 moved (UInt32.le_refl _)

theorem inOrder_answered (hcard : S.card ≤ orderingPeerCount) (inv : Inv (OrderedFrom S) r.engine)
    (hwaits : ¬ r.Overtakes) (h : InOrder S seqs r.engine.ordering r.engine.staged?)
    (answered : r.Answered (OrderedFrom S) reply d') :
    InOrder S (fun s => pushSeq s (seqs s) (Answer.received reply).ordered?) d'.ordering d'.staged := by
  cases answered with
  | @returned env out ordering res staged accepted fresh release =>
    have hseq := (inv.accepted_staged staged).2.2.2
    rw [Answer.ordered?, if_pos ⟨accepted.data, hseq⟩]
    have hpushed := h.unstage.push (h.staged env staged) fun x hx => nomatch hx
    have hnext := hpushed.release release (released_ne_last (fun _ => held_ne_last unwrapped_orderedFrom inv.ordering) release)
    rwa [Option.or_none] at hnext
  | @idle reply late asks none noData _ =>
    have hnone : (Answer.received reply).ordered? = Option.none := by
      cases reply with
      | error res => rfl
      | ok env => exact if_neg (fun hd => noData env rfl hd.1)
    rw [hnone]
    exact (inOrder_opened inv asks h).1.skip
  | duplicate asks none retry known => exact (inOrder_opened inv asks h).1.skip
  | kept asks data accepted through gate =>
    have hswept := (inOrder_opened inv asks h).1.swept gate.sweeping
    exact (hswept.kept gate.sweeping.inv hcard accepted.data accepted.prop gate.ingested).skip
  | @passed env dedup s res gateAfter ordering out asks data accepted through gate release =>
    have hswept := (inOrder_opened inv asks h).1.swept gate.sweeping
    have hpassed := hswept.passed gate.sweeping.inv hcard accepted.data accepted.prop (by
      intro hseq hnext x hx hsame
      rw [← Receiving.gate_eq gate.swept] at hnext
      exact hwaits ⟨env, data, hseq, hnext, x, hx, hsame⟩) gate.ingested
    exact hpassed.release release (released_ne_last
      (fun x hx => held_ne_last unwrapped_orderedFrom gate.sweeping.inv ((gate.ingested.held_passed x).mp hx)) release)

/-! ## Resets -/

/-- What counts of the run so far, when the call has left `trace` behind. -/
def since (past : List Observation) (trace : List Effect) (src : NodeId) : List UInt32 :=
  if trace.any (Effect.resets src) then [] else deliveredSince past src

theorem IsReset.any_resets (reset : IsReset src d d') (s : NodeId) :
    d'.trace.any (Effect.resets s) = (d.trace.any (Effect.resets s) || decide (s = src)) := by
  have hdiscards : ∀ held : Option MessageEnvelope,
      (held.toList.map Effect.heldDiscarded).any (Effect.resets s) = false := by
    intro held
    cases held with
    | none => rfl
    | some env => rfl
  rw [reset.trace, List.any_append, List.any_append, hdiscards]
  simp [Effect.resets, beq_eq_decide, eq_comm]

/-- Nothing is reset after the drain. -/
theorem any_resets_answered {P : MessageEnvelope → Prop} (inv : Inv P r.engine)
    (answered : r.Answered P reply d') (s : NodeId) :
    d'.trace.any (Effect.resets s) = r.engine.trace.any (Effect.resets s) := by
  have hopened (asks : r.asks) :
      r.opened.trace.any (Effect.resets s) = r.engine.trace.any (Effect.resets s) := by
    rcases Receiving.opened_spec inv asks with ⟨-, hopened⟩ | ⟨env, out, _, -, -, -, -, -, hopened⟩
    · rw [hopened]
      rfl
    · rw [hopened]
      cases out <;> simp [Effect.resets]
  have hacks (env : MessageEnvelope) (res : Result) :
      (ackEffects r.engine.localId env r.nowUs res).any (Effect.resets s) = false := by
    unfold ackEffects
    split <;> simp [Effect.resets]
  cases answered with
  | @returned env out ordering res staged accepted fresh release =>
    cases out <;> simp [Effect.resets, hacks]
  | idle asks none noData _ => simp [Effect.resets, hopened asks]
  | duplicate asks none retry known => simp [Effect.resets, hopened asks]
  | kept asks data accepted through gate => simp [Effect.resets, hopened asks]
  | @passed env dedup s res gateAfter ordering out asks data accepted through gate release =>
    cases out <;> simp [Effect.resets, hopened asks, hacks]

/-- A reset of a source starts its count again. -/
theorem inOrder_reset {past : List Observation} (inv : d.ordering.Inv (Accepted (OrderedFrom S)))
    (h : InOrder S (since past d.trace) d.ordering d.staged) (reset : IsReset src d d') :
    d'.ordering.Inv (Accepted (OrderedFrom S)) ∧
      InOrder S (since past d'.trace) d'.ordering d'.staged := by
  obtain ⟨b', hrun, hinv, hheld, hcursor⟩ := resetPeer_spec inv reset.source
  obtain rfl : b' = d'.ordering := by
    rw [reset.ordering] at hrun
    exact (Except.ok.inj hrun).symm
  have hsince (s : NodeId) : since past d'.trace s = if s = src then [] else since past d.trace s := by
    rw [since, reset.any_resets s, since]
    by_cases hs : s = src
    · rw [if_pos hs, if_pos (by simp [hs])]
    · rw [if_neg hs, decide_eq_false hs, Bool.or_false]
  refine ⟨hinv, ?_, fun s => ?_, fun s q hq => ?_, fun x hx => ?_⟩
  · intro s c hc
    rw [hcursor s] at hc
    split at hc
    case isTrue hs =>
      rw [hs]
      obtain ⟨c₀, hc₀, -⟩ := Option.map_eq_some_iff.mp hc
      exact h.tracked src c₀ hc₀
    case isFalse _ => exact h.tracked s c hc
  · rw [hsince]
    split
    · exact List.Pairwise.nil
    · exact h.increasing s
  · rw [hsince] at hq
    split at hq
    case isTrue _ => cases hq
    case isFalse hs =>
      rw [hcursor s, if_neg hs]
      exact h.behind s q hq
  · rw [reset.staged] at hx
    obtain ⟨hstaged, hs⟩ := Option.mem_filter_iff.mp hx
    have hne : x.sourceId ≠ src := by simpa using hs
    have hx' := h.staged x hstaged
    refine ⟨?_, fun q hq => hx'.after q ?_⟩
    · rw [hcursor, if_neg hne]
      exact hx'.behind
    · rwa [hsince, if_neg hne] at hq

/-! ## The law -/

variable {e e' : DeliveryEngine} {i : Input}

theorem deliveredSince_append (past : List Observation) (o : Observation) (src : NodeId) :
    deliveredSince (past ++ [o]) src = pushSeq src (since past o.effects src) o.answer.ordered? := by
  simp [deliveredSince, since]

/-- The invariant of the runs. -/
def RunInOrder (S : Finset NodeId) (past : List Observation) (e : DeliveryEngine) : Prop :=
  Inv (OrderedFrom S) e ∧ InOrder S (deliveredSince past) e.ordering e.staged?

/-- A call that resets and returns nothing of `src`. -/
theorem since_of_outward {past : List Observation} {effects : List Effect}
    (houtward : ∀ x ∈ effects, x.outward = true) : since past effects = deliveredSince past := by
  funext src
  have hnone : effects.any (Effect.resets src) = false := by
    refine List.any_eq_false.mpr fun x hx => ?_
    have := houtward x hx
    cases x with
    | reset s => cases this
    | sent _ _ => exact Bool.false_ne_true
    | expired _ => exact Bool.false_ne_true
    | released _ => exact Bool.false_ne_true
    | heldReturned _ => exact Bool.false_ne_true
    | heldExpired _ => exact Bool.false_ne_true
    | heldDiscarded _ => exact Bool.false_ne_true
  rw [since, hnone, if_neg Bool.false_ne_true]

theorem inOrder_delivered {past : List Observation} {answer : Answer} (hcard : S.card ≤ orderingPeerCount)
    (h : RunInOrder S past e) (hwaits : WaitsForStaged e i)
    (delivered : Delivered (OrderedFrom S) e i answer d') :
    InOrder S (fun s => pushSeq s (since past d'.trace s) answer.ordered?) d'.ordering d'.staged := by
  obtain ⟨inv, hin⟩ := h
  cases delivered with
  | @outbound _ effects notReceive notReceived outward =>
    have hnone : answer.ordered? = none := by
      cases answer with
      | received reply => exact absurd rfl (notReceived reply)
      | sent _ _ => rfl
      | counted _ => rfl
      | done => rfl
      | event _ => rfl
      | events _ => rfl
    rw [hnone]
    change InOrder S (fun s => pushSeq s (since past effects s) none) e.ordering e.staged?
    rw [since_of_outward outward]
    exact hin.skip
  | rejected => exact hin.skip
  | @swept nowUs n s call fresh swept sweeping =>
    change InOrder S (fun s' => pushSeq s' (since past (s.out.map .expired) s') none) s.buffer e.staged?
    rw [since_of_outward (outward_expired s.out)]
    exact (hin.swept sweeping).skip
  | @reset src _ call reset =>
    have hstart : InOrder S (since past []) e.ordering e.staged? := by
      rw [since_of_outward (by simp)]
      exact hin
    exact (inOrder_reset (d := { e.delivery with trace := [] }) inv.ordering hstart reset).2.skip
  | @received r reply _ receiving hinv resets answered =>
    have hstart : InOrder S (since past []) e.ordering e.staged? := by
      rw [since_of_outward (by simp)]
      exact hin
    have hdrained := resets.keep (R := fun d => d.ordering.Inv (Accepted (OrderedFrom S)) ∧
      InOrder S (since past d.trace) d.ordering d.staged) ⟨inv.ordering, hstart⟩
      fun src _ d d' hreset hd => inOrder_reset hd.1 hd.2 hreset
    have hsame : since past d'.trace = since past r.engine.delivery.trace := by
      funext s
      rw [since, any_resets_answered hinv answered s]
      rfl
    rw [hsame]
    exact inOrder_answered hcard hinv (hwaits r receiving) hdrained.2 answered

/-- The numbered messages of at most as many sources as the gate can track are returned in order
between two resets, in every run in which no call returns a message past an earlier one that is
staged. -/
theorem in_order (cfg : ChannelConfig) (localId : NodeId) (entropy : UInt64) (inputs : List Input)
    (S : Finset NodeId) (hlocal : localId ≠ nodeIdInvalid) (hcard : S.card ≤ orderingPeerCount)
    (hfrom : ∀ i ∈ inputs, Delivers (OrderedFrom S) i.transport)
    (hwaits : Run.Along exec WaitsForStaged inputs (init cfg localId entropy)) :
    Run.EachStep exec InOrderLaw [] inputs (init cfg localId entropy) := by
  refine Run.eachStep_of_inv (RunInOrder S) ?_ inputs [] _ ?_ (hwaits.and_inputs hfrom)
  · rintro past e i o e' hrun ⟨hstep, hframes⟩ hexec
    obtain ⟨hinv, hdelivered, heffects⟩ :=
      exec_delivered (headerProperty_orderedFrom S) hrun.1 hframes hexec
    have hin := inOrder_delivered hcard hrun hstep hdelivered
    have hseqs : (fun s => pushSeq s (since past e'.delivery.trace s) o.answer.ordered?) =
        deliveredSince (past ++ [o]) := by
      funext s
      rw [deliveredSince_append, heffects]
      rfl
    rw [hseqs] at hin
    exact ⟨hin.increasing, hinv, hin⟩
  · refine ⟨inv_init cfg entropy hlocal, ?_, fun _ => List.Pairwise.nil, ?_, ?_⟩
    · intro s c hc
      exact absurd (cursor?_init.symm.trans hc) (Option.some_ne_none c).symm
    · intro s q hq
      cases hq
    · intro env henv
      cases henv

/-! ## A run out of order -/

theorem orderedFrom_plainData {source : NodeId} {seq : UInt32} {expiryTimeUs : UInt64} :
    OrderedFrom S (plainData source seq expiryTimeUs) ↔
      (seq ≠ 0 → source ∈ S ∧ seq ≠ lastSeq) :=
  ⟨fun h => h rfl, fun h _ => h⟩

/-- Message 2 of node 2 is staged and expires; message 3 is staged, and message 4 comes in and is
returned first. -/
def overtakingRun : List Input :=
  [receiveOf 1 (plainData 2 2 10), receiveOf 2 (plainData 2 3 0), receiveOf 3 (plainData 2 1 0),
   receiveOf 20 (plainData 2 4 0), receiveNothing 21]

theorem overtaken : (∀ i ∈ overtakingRun, Delivers (OrderedFrom {2}) i.transport) ∧
    ¬ Run.EachStep exec InOrderLaw [] overtakingRun (init orderedConfig 1 7) := by
  constructor
  · simp [overtakingRun, orderedFrom_plainData, lastSeq]
  · intro h
    have hnode := h.mono (fun past _ _ o _ => (deliveredSince (past ++ [o]) 2).Pairwise (· < ·))
      fun _ _ _ _ _ hlaw => hlaw 2
    revert hnode
    decide +kernel

/-- The same arrivals, with message 3 asked for before message 4 comes in. -/
def punctualRun : List Input :=
  [receiveOf 1 (plainData 2 2 10), receiveOf 2 (plainData 2 3 0), receiveOf 3 (plainData 2 1 0),
   receiveNothing 20, receiveOf 21 (plainData 2 4 0), receiveOf 22 (plainData 2 4 0)]

theorem in_order_punctual :
    Run.Along exec WaitsForStaged punctualRun (init orderedConfig 1 7) ∧
      Run.EachStep exec InOrderLaw [] punctualRun (init orderedConfig 1 7) := by
  have hwaits : Run.Along exec WaitsForStaged punctualRun (init orderedConfig 1 7) := by decide +kernel
  refine ⟨hwaits, in_order orderedConfig 1 7 punctualRun {2} (by decide) (by decide) ?_ hwaits⟩
  simp [punctualRun, orderedFrom_plainData, lastSeq]

end DeliveryEngine

end MessageEngine
