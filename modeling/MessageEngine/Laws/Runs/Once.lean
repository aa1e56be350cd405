import MessageEngine.Laws.Runs.Custody

/-!
# At most once

A `RELIABLE_RETRY` message is retransmitted until it is acknowledged, and is to be returned once.
Two things see to that. Only one copy of a message gets past the duplicate filter while the filter
remembers it; and that copy is returned at most once, however it travels: it is in one hold or in
the staging slot, and leaves both when it is returned.

The filter remembers a message until as many others as it has entries were recorded after it,
provided the times of the calls rise.

## What is proved

- `atMost_answered`: a `receive` returns no more copies than came in or were kept;
- `delivered_at_most_once`: the property of whole runs.
-/

namespace MessageEngine

open Outcome Table OrderingBuffer

namespace OrderingBuffer

variable {q : MessageEnvelope → Prop} {b b' : OrderingBuffer} {n : Nat} {src : NodeId}
  {staged out : Option MessageEnvelope} {env : MessageEnvelope}

/-- At most `n` of the held and staged messages satisfy `q`, for `n` zero or one. -/
def AtMost (q : MessageEnvelope → Prop) : Nat → OrderingBuffer → Option MessageEnvelope → Prop
  | 0, b, staged => (∀ x, Held b x → ¬ q x) ∧ ∀ x ∈ staged, ¬ q x
  | _ + 1, b, staged => (∀ x y, Held b x → q x → Held b y → q y → x = y) ∧
      ∀ x ∈ staged, q x → ∀ y, Held b y → ¬ q y

/-- Fewer messages are held and staged. -/
theorem AtMost.of_subset {staged' : Option MessageEnvelope} (h : AtMost q n b staged)
    (hheld : ∀ x, Held b' x → Held b x) (hstaged : ∀ x ∈ staged', x ∈ staged) :
    AtMost q n b' staged' := by
  cases n with
  | zero => exact ⟨fun x hx => h.1 x (hheld x hx), fun x hx => h.2 x (hstaged x hx)⟩
  | succ n =>
    exact ⟨fun x y hx hqx hy => h.1 x y (hheld x hx) hqx (hheld y hy),
      fun x hx hqx y hy => h.2 x (hstaged x hx) hqx y (hheld y hy)⟩

/-- A release moves a message from its hold to the slot. -/
theorem AtMost.release (h : AtMost q n b staged) (release : Released b src out b') :
    AtMost q n b' (out.or staged) := by
  cases release with
  | nothing _ => exact h
  | @next env _ held _ _ _ rest =>
    cases n with
    | zero =>
      refine ⟨fun x hx => h.1 x ((rest x).mp hx).1, fun x hx => ?_⟩
      cases hx
      exact h.1 env held
    | succ n =>
      refine ⟨fun x y hx hqx hy => h.1 x y ((rest x).mp hx).1 hqx ((rest y).mp hy).1, ?_⟩
      intro x hx hqx y hy hqy
      cases hx
      obtain ⟨hy, hne⟩ := (rest y).mp hy
      exact hne (h.1 y env hy hqy held hqx)

/-- A message that does not satisfy `q` is stored. -/
theorem AtMost.store (h : AtMost q n b staged) (henv : ¬ q env)
    (hheld : ∀ x, Held b' x → Held b x ∨ x = env) : AtMost q n b' staged := by
  have hold (x : MessageEnvelope) (hx : Held b' x) (hqx : q x) : Held b x := by
    rcases hheld x hx with hx | rfl
    · exact hx
    · exact absurd hqx henv
  cases n with
  | zero => exact ⟨fun x hx hqx => h.1 x (hold x hx hqx) hqx, h.2⟩
  | succ n =>
    exact ⟨fun x y hx hqx hy hqy => h.1 x y (hold x hx hqx) hqx (hold y hy hqy) hqy,
      fun x hx hqx y hy hqy => h.2 x hx hqx y (hold y hy hqy) hqy⟩

/-- The only message that satisfies `q` is stored. -/
theorem AtMost.store_first (h : AtMost q 0 b staged)
    (hheld : ∀ x, Held b' x → Held b x ∨ x = env) : AtMost q 1 b' staged := by
  have honly (x : MessageEnvelope) (hx : Held b' x) (hqx : q x) : x = env := by
    rcases hheld x hx with hx | rfl
    · exact absurd hqx (h.1 x hx)
    · rfl
  refine ⟨fun x y hx hqx hy hqy => (honly x hx hqx).trans (honly y hy hqy).symm, ?_⟩
  exact fun x hx hqx => absurd hqx (h.2 x hx)

/-- The staged message is the only one. -/
theorem AtMost.take (h : AtMost q n b (some env)) (henv : q env) : n ≠ 0 ∧ AtMost q 0 b none := by
  cases n with
  | zero => exact absurd henv (h.2 env rfl)
  | succ n => exact ⟨Nat.succ_ne_zero n, fun x hx => h.2 env rfl henv x hx, by simp⟩

theorem AtMost.succ (h : AtMost q 0 b staged) : AtMost q n b staged := by
  cases n with
  | zero => exact h
  | succ n => exact ⟨fun x _ hx hqx => absurd hqx (h.1 x hx), fun x hx hqx => absurd hqx (h.2 x hx)⟩

end OrderingBuffer

namespace DeliveryEngine

variable {P q : MessageEnvelope → Prop} {e e' : DeliveryEngine} {i : Input} {r : Receiving}
  {reply : Reply} {d d' : Delivery} {n : Nat} {env : MessageEnvelope}

/-- Opening the slot to the transport adds no copy. -/
theorem atMost_opened (inv : Inv P r.engine) (asks : r.asks)
    (h : AtMost q n r.engine.ordering r.engine.staged?) : AtMost q n r.opened.ordering r.opened.staged := by
  rcases Receiving.opened_spec inv asks with
    ⟨-, hopened⟩ | ⟨env, out, ordering, hstaged, -, -, hrel, -, hopened⟩
  · rw [hopened]
    exact h
  · rw [hopened]
    have hnone : AtMost q n r.engine.ordering none := h.of_subset (fun _ hx => hx) (by simp)
    have hnext := hnone.release hrel
    rwa [Option.or_none] at hnext

theorem atMost_reset {src : NodeId} (hord : d.ordering.Inv (Accepted P)) (h : AtMost q n d.ordering d.staged)
    (reset : IsReset src d d') : d'.ordering.Inv (Accepted P) ∧ AtMost q n d'.ordering d'.staged := by
  obtain ⟨b', hrun, hinv, hheld, -⟩ := resetPeer_spec hord reset.source
  obtain rfl : b' = d'.ordering := by
    rw [reset.ordering] at hrun
    exact (Except.ok.inj hrun).symm
  refine ⟨hinv, h.of_subset (fun x hx => ((hheld x).mp hx).1) fun x hx => ?_⟩
  rw [reset.staged] at hx
  exact (Option.mem_filter_iff.mp hx).1

theorem data?_of_not_asks (h : ¬ r.asks) : r.data? = none := by
  refine Receiving.data?_of_no_arrival ?_
  rw [Receiving.arrival?, Receiving.frame?, if_neg h]
  rfl

/-- How many of the messages, none or one, satisfy `q`. -/
def tally (q : MessageEnvelope → Prop) [DecidablePred q] (env? : Option MessageEnvelope) : Nat :=
  if ∃ env ∈ env?, q env then 1 else 0

section

variable [DecidablePred q]

@[simp] theorem tally_none : tally q none = 0 := if_neg (by simp)

@[simp] theorem tally_some : tally q (some env) = if q env then 1 else 0 := by
  simp [tally]

theorem tally_eq_zero {env? : Option MessageEnvelope} (h : ∀ env ∈ env?, ¬ q env) : tally q env? = 0 := by
  refine if_neg ?_
  rintro ⟨env, henv, hq⟩
  exact h env henv hq

/-- A `receive` returns no more copies than were kept before it, came in with it and are no longer
kept after it. -/
theorem atMost_answered (inv : Inv P r.engine) (h : AtMost q n r.engine.ordering r.engine.staged?)
    (hdata : ∀ env, q env → envelopeIsData env) (hfirst : ∀ env ∈ r.data?, q env → n = 0)
    (answered : r.Answered P reply d') :
    ∃ m, AtMost q m d'.ordering d'.staged ∧ m + tally q reply.toOption ≤ n + tally q r.data? := by
  cases answered with
  | @returned env out ordering res staged accepted fresh release =>
    rw [staged] at h
    change ∃ m, AtMost q m ordering out ∧ m + tally q (some env) ≤ _
    rw [tally_some]
    split
    case isTrue hq =>
      -- The staged copy is the only one, so none is left.
      obtain ⟨hn, hnone⟩ := h.take hq
      have hnext := hnone.release release
      rw [Option.or_none] at hnext
      exact ⟨0, hnext, by omega⟩
    case isFalse _ =>
      have hnone : AtMost q n r.engine.ordering none := h.of_subset (fun _ hx => hx) (by simp)
      have hnext := hnone.release release
      rw [Option.or_none] at hnext
      exact ⟨n, hnext, by omega⟩
  | @idle reply late asks none noData _ =>
    have hzero : tally q reply.toOption = 0 := by
      refine tally_eq_zero fun env henv hq => ?_
      cases reply with
      | error _ => cases henv
      | ok x =>
        cases henv
        exact noData env rfl (hdata env hq)
    exact ⟨n, atMost_opened inv asks h, by omega⟩
  | duplicate asks none retry known => exact ⟨n, atMost_opened inv asks h, by simp [Except.toOption]⟩
  | @kept env dedup s res ordering asks data accepted through gate =>
    have hswept : AtMost q n s.buffer r.opened.staged :=
      (atMost_opened inv asks h).of_subset gate.sweeping.kept (fun _ hx => hx)
    have hheld (x : MessageEnvelope) (hx : Held ordering x) : Held s.buffer x ∨ x = env := by
      cases gate.ingested with
      | stored _ _ _ _ _ held => exact (held x).mp hx
      | refused _ _ _ _ holds => exact .inl ((held_congr holds x).mp hx)
    rw [data, tally_some]
    split
    case isTrue hq =>
      obtain rfl := hfirst env data hq
      exact ⟨1, hswept.store_first hheld, by simp [Except.toOption]⟩
    case isFalse hq => exact ⟨n, hswept.store hq hheld, by simp [Except.toOption]⟩
  | @passed env dedup s res gateAfter ordering out asks data accepted through gate release =>
    have hswept : AtMost q n s.buffer r.opened.staged :=
      (atMost_opened inv asks h).of_subset gate.sweeping.kept (fun _ hx => hx)
    have hgate : AtMost q n gateAfter r.opened.staged :=
      hswept.of_subset (fun x hx => (gate.ingested.held_passed x).mp hx) (fun _ hx => hx)
    refine ⟨n, hgate.release release, ?_⟩
    rw [data]
    rfl

/-- The message that the answer returns. -/
def Answer.returned? : Answer → Option MessageEnvelope
  | .received (.ok env) => some env
  | _ => none

/-- The data message that the call lets past the duplicate filter. -/
def admitted? (e : DeliveryEngine) (i : Input) : Option MessageEnvelope :=
  (receiving? e i).bind Receiving.data?

theorem returned?_received : (Answer.received reply).returned? = reply.toOption := by
  cases reply with
  | ok env => rfl
  | error _ => rfl

theorem returned?_of_not_received {answer : Answer} (h : ∀ reply, answer ≠ .received reply) :
    answer.returned? = none := by
  cases answer with
  | received reply => exact absurd rfl (h reply)
  | sent _ _ => rfl
  | counted _ => rfl
  | done => rfl
  | event _ => rfl
  | events _ => rfl

theorem atMost_delivered {answer : Answer} (inv : Inv P e) (h : AtMost q n e.ordering e.staged?)
    (hdata : ∀ env, q env → envelopeIsData env) (hfirst : ∀ env ∈ admitted? e i, q env → n = 0)
    (delivered : Delivered P e i answer d') :
    ∃ m, AtMost q m d'.ordering d'.staged ∧
      m + tally q answer.returned? ≤ n + tally q (admitted? e i) := by
  cases delivered with
  | outbound _ notReceived _ =>
    rw [returned?_of_not_received notReceived]
    exact ⟨n, h, by simp⟩
  | rejected => exact ⟨n, h, by simp [Answer.returned?]⟩
  | @swept nowUs k s call fresh swept sweeping =>
    exact ⟨n, h.of_subset sweeping.kept (fun _ hx => hx), by simp [Answer.returned?]⟩
  | @reset src _ call reset =>
    have hreset := atMost_reset (d := { e.delivery with trace := [] }) inv.ordering h reset
    exact ⟨n, hreset.2, by simp [Answer.returned?]⟩
  | @received r reply _ receiving hinv resets answered =>
    have hdrained := resets.keep
      (R := fun x => x.ordering.Inv (Accepted P) ∧ AtMost q n x.ordering x.staged)
      ⟨inv.ordering, h⟩ (fun _ _ _ _ hreset hx => atMost_reset hx.1 hx.2 hreset)
    have hadmitted : admitted? e i = r.data? := by rw [admitted?, receiving]; rfl
    rw [hadmitted] at hfirst ⊢
    rw [returned?_received]
    exact atMost_answered hinv hdrained.2 hdata hfirst answered

end

/-! ## What the filter records -/

/-- The time of a `receive`. -/
def Input.receiveTime? (i : Input) : Option UInt64 :=
  match i.call with
  | .receive _ nowUs => some nowUs
  | _ => none

theorem dedup_answered (answered : r.Answered P reply d') :
    (∀ env ∈ r.data?, LetThrough r.engine.dedup env r.nowUs d'.dedup) ∧
      (r.data? = none → d'.dedup = r.engine.dedup) := by
  have hnone (hdata : r.data? = none) (hdedup : d'.dedup = r.engine.dedup) :
      (∀ env ∈ r.data?, LetThrough r.engine.dedup env r.nowUs d'.dedup) ∧
        (r.data? = none → d'.dedup = r.engine.dedup) :=
    ⟨fun env henv => absurd (hdata.symm.trans henv) (by simp), fun _ => hdedup⟩
  have hsome {env : MessageEnvelope} (hdata : r.data? = some env)
      (through : LetThrough r.opened.dedup env r.nowUs d'.dedup) :
      (∀ env ∈ r.data?, LetThrough r.engine.dedup env r.nowUs d'.dedup) ∧
        (r.data? = none → d'.dedup = r.engine.dedup) := by
    rw [Receiving.opened_dedup] at through
    refine ⟨fun x hx => ?_, fun h => ?_⟩
    · cases hdata.symm.trans hx
      exact through
    · cases hdata.symm.trans h
  cases answered with
  | returned staged accepted fresh release =>
    exact hnone (data?_of_not_asks fun h => fresh (h _ staged)) rfl
  | idle asks none noData _ => exact hnone none r.opened_dedup
  | duplicate asks none retry known => exact hnone none r.opened_dedup
  | kept asks data accepted through gate => exact hsome data through
  | passed asks data accepted through gate release => exact hsome data through

/-- A call records what it lets past the filter, at its time, and nothing else. -/
theorem dedup_delivered {answer : Answer} (delivered : Delivered P e i answer d') :
    (∀ env ∈ admitted? e i, ∃ nowUs, i.receiveTime? = some nowUs ∧
      LetThrough e.dedup env nowUs d'.dedup) ∧
    (admitted? e i = none → d'.dedup = e.dedup) := by
  have hother (h : ∀ timeoutMs nowUs, i.call ≠ .receive timeoutMs nowUs) (hdedup : d'.dedup = e.dedup) :
      (∀ env ∈ admitted? e i, ∃ nowUs, i.receiveTime? = some nowUs ∧
        LetThrough e.dedup env nowUs d'.dedup) ∧ (admitted? e i = none → d'.dedup = e.dedup) := by
    refine ⟨fun env henv => ?_, fun _ => hdedup⟩
    obtain ⟨r, hr, -⟩ := Option.bind_eq_some_iff.mp henv
    exact absurd (receiving?_eq_some hr).1 (h _ _)
  cases delivered with
  | outbound notReceive _ _ => exact hother notReceive rfl
  | rejected none =>
    refine ⟨fun env henv => ?_, fun _ => rfl⟩
    rw [admitted?, none] at henv
    cases henv
  | swept call _ _ _ => exact hother (by rw [call]; simp) rfl
  | reset call reset => exact hother (by rw [call]; simp) reset.dedup
  | @received r reply _ receiving hinv resets answered =>
    have hadmitted : admitted? e i = r.data? := by rw [admitted?, receiving]; rfl
    have hsame : r.engine.dedup = e.dedup :=
      resets.keep (R := fun x => x.dedup = e.dedup) rfl
        fun _ _ _ _ hreset hx => hreset.dedup.trans hx
    have htime : i.receiveTime? = some r.nowUs := by
      rw [Input.receiveTime?, (receiving?_eq_some receiving).1]
    obtain ⟨hthrough, hnone⟩ := dedup_answered answered
    rw [hadmitted, ← hsame]
    exact ⟨fun env henv => ⟨r.nowUs, htime, hthrough env henv⟩, hnone⟩

/-! ## The run -/

/-- A call that returned, with the engine before and after it. -/
abbrev Step := Run.Taken DeliveryEngine Input Observation

/-- The `RELIABLE_RETRY` data message of that name. -/
structure Named (p : NodeId × UInt64) (env : MessageEnvelope) : Prop where
  data : envelopeIsData env
  retried : Retried p.1 p.2 env

instance (p : NodeId × UInt64) : DecidablePred (Named p) := fun env =>
  decidable_of_iff (envelopeIsData env ∧ env.reliabilityClass = .reliableRetry ∧
      env.sourceId = p.1 ∧ env.messageId = p.2)
    ⟨fun h => ⟨h.1, h.2.1, h.2.2.1, h.2.2.2⟩,
      fun h => ⟨h.data, h.retried.retry, h.retried.source, h.retried.id⟩⟩

/-- A complete message of that name arrives. -/
def Arrives (p : NodeId × UInt64) (t : Step) : Prop :=
  ∃ r ∈ receiving? t.before t.input, ∃ env ∈ r.arrival?, Named p env

/-- The call returns the message of that name. -/
def Returns (p : NodeId × UInt64) (t : Step) : Prop :=
  ∃ env ∈ t.output.answer.returned?, Named p env

/-- The message of that name gets past the duplicate filter. -/
def Admits (p : NodeId × UInt64) (t : Step) : Prop :=
  ∃ env ∈ admitted? t.before t.input, Named p env

instance (p : NodeId × UInt64) : DecidablePred (Arrives p) := fun t =>
  inferInstanceAs (Decidable (∃ r ∈ receiving? t.before t.input, ∃ env ∈ r.arrival?, _))

instance (p : NodeId × UInt64) : DecidablePred (Returns p) := fun t =>
  inferInstanceAs (Decidable (∃ env ∈ t.output.answer.returned?, _))

instance (p : NodeId × UInt64) : DecidablePred (Admits p) := fun t =>
  inferInstanceAs (Decidable (∃ env ∈ admitted? t.before t.input, _))

/-- The duplicate filter records the pair. -/
def Recorded (t : Step) (p : NodeId × UInt64) : Prop :=
  ¬ t.before.dedup.Knows p.1 p.2 ∧ t.after.dedup.Knows p.1 p.2

/-- Fewer other pairs are recorded than the window has entries. -/
def FewRecorded (p : NodeId × UInt64) (steps : List Step) : Prop :=
  ∃ others : List (NodeId × UInt64), others.length < dedupWindowSize ∧
    ∀ t ∈ steps, ∀ q, Recorded t q → q ≠ p → q ∈ others

/-- Few other pairs are recorded between the first and the last arrival. -/
def FewBetween (p : NodeId × UInt64) (steps : List Step) : Prop :=
  ∀ before first between last after, steps = before ++ first :: (between ++ last :: after) →
    (∀ t ∈ before, ¬ Arrives p t) → Arrives p first → Arrives p last → (∀ t ∈ after, ¬ Arrives p t) →
    FewRecorded p between

/-- Few other pairs are recorded between any two arrivals. -/
def Spaced (p : NodeId × UInt64) (steps : List Step) : Prop :=
  ∀ before first between last after, steps = before ++ first :: (between ++ last :: after) →
    Arrives p first → Arrives p last → FewRecorded p between

/-- The times of the `receive` calls. -/
def receiveTimes (steps : List Step) : List UInt64 := steps.filterMap fun t => t.input.receiveTime?

variable {p : NodeId × UInt64} {past steps : List Step} {t : Step}

theorem receiveTimes_append (past : List Step) (t : Step) :
    receiveTimes (past ++ [t]) = receiveTimes past ++ t.input.receiveTime?.toList := by
  unfold receiveTimes
  rw [List.filterMap_append]
  cases h : t.input.receiveTime? with
  | none => simp [h]
  | some nowUs => simp [h]

theorem FewRecorded.of_subset {steps' : List Step} (h : FewRecorded p steps') (hsub : steps ⊆ steps') :
    FewRecorded p steps := by
  obtain ⟨others, hlen, hall⟩ := h
  exact ⟨others, hlen, fun t ht => hall t (hsub ht)⟩

theorem Spaced.prefix (h : Spaced p (past ++ [t])) : Spaced p past := by
  rintro before first between last after rfl
  exact h before first between last (after ++ [t]) (by simp)

/-- A list splits at the first element that satisfies a test. -/
private theorem exists_first {α : Type} (test : α → Prop) [DecidablePred test] {xs : List α}
    (h : ∃ x ∈ xs, test x) : ∃ as x bs, xs = as ++ x :: bs ∧ test x ∧ ∀ a ∈ as, ¬ test a := by
  obtain ⟨x, hx⟩ : ∃ x, xs.find? (fun a => decide (test a)) = some x := by
    rw [← Option.isSome_iff_exists, List.find?_isSome]
    simpa using h
  obtain ⟨htest, as, bs, hxs, has⟩ := List.find?_eq_some_iff_append.mp hx
  exact ⟨as, x, bs, hxs, by simpa using htest, by simpa using has⟩

/-- Any two arrivals are between the first and the last. -/
theorem FewBetween.spaced (h : FewBetween p steps) : Spaced p steps := by
  rintro before first between last after rfl hfirst hlast
  have hbefore : ∃ s ∈ before ++ [first], Arrives p s := ⟨first, by simp, hfirst⟩
  have hafter : ∃ s ∈ (last :: after).reverse, Arrives p s := ⟨last, by simp, hlast⟩
  obtain ⟨a, x, c, hax, hx, ha⟩ := exists_first (Arrives p) hbefore
  obtain ⟨b', y, d', hyb, hy, hb⟩ := exists_first (Arrives p) hafter
  have hlist : last :: after = d'.reverse ++ y :: b'.reverse := by
    have := congrArg List.reverse hyb
    simpa using this
  have hglued : before ++ first :: (between ++ last :: after) =
      a ++ x :: (c ++ between ++ d'.reverse ++ y :: b'.reverse) := by
    calc before ++ first :: (between ++ last :: after)
        = (before ++ [first]) ++ (between ++ (last :: after)) := by simp
      _ = _ := by rw [hax, hlist]; simp
  refine (h a x _ y _ hglued ha hx hy fun s hs => hb s (List.mem_reverse.mp hs)).of_subset ?_
  intro s hs
  simp [hs]

/-- What gets past the filter has arrived. -/
theorem Admits.arrives (h : Admits p t) : Arrives p t := by
  obtain ⟨env, henv, hnamed⟩ := h
  obtain ⟨r, hr, hdata⟩ := Option.bind_eq_some_iff.mp henv
  exact ⟨r, hr, env, (Option.mem_filter_iff.mp hdata).1, hnamed⟩

/-- Every entry of the window has the time of a `receive`. -/
def Stamped (f : DuplicateFilter) (times : List UInt64) : Prop :=
  ∀ i : Fin dedupWindowSize, f.window[i].valid = true → f.window[i].recordedUs ∈ times

/-- At most one message of that name got past the filter, and the filter still knows it if it
should. -/
def Filtered (p : NodeId × UInt64) (past : List Step) (f : DuplicateFilter) : Prop :=
  (∀ t ∈ past, ¬ Admits p t) ∨
  ∃ before first since, past = before ++ first :: since ∧ Admits p first ∧
    (∀ t ∈ before ++ since, ¬ Admits p t) ∧
    (FewRecorded p since → ∃ time, f.Tracks p time fun q => ∃ t ∈ since, Recorded t q)

theorem Filtered.count_le {f : DuplicateFilter} (h : Filtered p past f) :
    past.countP (fun t => Admits p t) ≤ 1 := by
  rcases h with hnone | ⟨before, first, since, rfl, -, hrest, -⟩
  · have hzero : past.countP (fun t => Admits p t) = 0 := by
      rw [List.countP_eq_zero]
      simpa using hnone
    omega
  · have hzero (xs : List Step) (hxs : ∀ t ∈ xs, ¬ Admits p t) :
        xs.countP (fun t => Admits p t) = 0 := by
      rw [List.countP_eq_zero]
      simpa using hxs
    rw [List.countP_append, List.countP_cons,
      hzero before fun t ht => hrest t (List.mem_append_left _ ht),
      hzero since fun t ht => hrest t (List.mem_append_right _ ht)]
    split
    · omega
    · omega

/-- What the filter does in one step: nothing, or it records one new pair. -/
inductive Filters (t : Step) : Prop where
  | nothing (same : t.after.dedup = t.before.dedup) (plain : ∀ p, ¬ Admits p t)
  | records {env : MessageEnvelope} {nowUs : UInt64} (time : t.input.receiveTime? = some nowUs)
      (new : ¬ t.before.dedup.Knows env.sourceId env.messageId)
      (record : t.before.dedup.record env.sourceId env.messageId nowUs = .ok t.after.dedup)
      (recorded : ∀ q, Recorded t q ↔ q = (env.sourceId, env.messageId))
      (admits : ∀ p, Admits p t → p = (env.sourceId, env.messageId))

theorem filters_of_delivered {o : Observation} (tidy : e.dedup.Tidy)
    (delivered : Delivered P e i o.answer e'.delivery) : Filters ⟨e, i, o, e'⟩ := by
  obtain ⟨hsome, hnone⟩ := dedup_delivered delivered
  cases hadmitted : admitted? e i with
  | none =>
    refine .nothing (hnone hadmitted) fun p => ?_
    rintro ⟨env, henv, -⟩
    cases hadmitted.symm.trans henv
  | some env =>
    obtain ⟨nowUs, htime, through⟩ := hsome env hadmitted
    have hadmits (p : NodeId × UInt64) (h : Admits p ⟨e, i, o, e'⟩) : Named p env := by
      obtain ⟨x, hx, hnamed⟩ := h
      cases hadmitted.symm.trans hx
      exact hnamed
    by_cases hretry : env.reliabilityClass = .reliableRetry
    · have hnew := through.new hretry
      have hrecord := through.record hretry
      refine .records htime hnew hrecord (fun q => ⟨fun hq => ?_, ?_⟩) fun p hp => ?_
      · rcases through.window q.1 q.2 hq.2 with hknown | ⟨-, hsrc, hid⟩
        · exact absurd hknown hq.1
        · exact Prod.ext hsrc hid
      · rintro rfl
        obtain ⟨-, w, -, hwindow⟩ := tidy.record hnew hrecord
        refine ⟨hnew, DuplicateFilter.knows_iff_pair.mpr ⟨w, ?_⟩⟩
        change e'.dedup.window[w].valid = true ∧ _
        rw [show e'.dedup.window = _ from hwindow, getElem_set_fin, if_pos rfl]
        exact ⟨rfl, rfl⟩
      · obtain ⟨-, -, hsrc, hid⟩ := hadmits p hp
        exact Prod.ext hsrc.symm hid.symm
    · refine .nothing (through.same hretry) fun p hp => ?_
      exact hretry (hadmits p hp).retried.retry

/-- A message gets past the filter only once. -/
theorem Filtered.fresh (h : Filtered p past t.before.dedup) (spaced : Spaced p (past ++ [t]))
    (filters : Filters t) (hadmits : Admits p t) : ∀ s ∈ past, ¬ Admits p s := by
  rcases h with hnone | ⟨before, first, since, rfl, hfirst, -, htracks⟩
  · exact hnone
  · have hfew : FewRecorded p since :=
      spaced before first since t [] (by simp) hfirst.arrives hadmits.arrives
    obtain ⟨time, tracks⟩ := htracks hfew
    cases filters with
    | nothing _ plain => exact absurd hadmits (plain p)
    | records _ new _ _ admits =>
      have hknows := tracks.knows
      rw [admits p hadmits] at hknows
      exact absurd hknows new

theorem Filtered.step (tidy : t.before.dedup.Tidy) (h : Filtered p past t.before.dedup)
    (spaced : Spaced p (past ++ [t])) (filters : Filters t)
    (holder : ∀ nowUs ∈ t.input.receiveTime?, ∀ i : Fin dedupWindowSize,
      t.before.dedup.window[i].valid = true → t.before.dedup.window[i].recordedUs < nowUs) :
    Filtered p (past ++ [t]) t.after.dedup := by
  by_cases hadmits : Admits p t
  · have hnone := h.fresh spaced filters hadmits
    refine .inr ⟨past, t, [], rfl, hadmits, by simpa using hnone, fun _ => ?_⟩
    cases filters with
    | nothing _ plain => exact absurd hadmits (plain p)
    | @records env nowUs time new record _ admits =>
      rw [admits p hadmits]
      exact ⟨nowUs, (tidy.track new record (holder nowUs time)).congr (by simp)⟩
  · rcases h with hnone | ⟨before, first, since, rfl, hfirst, hrest, htracks⟩
    · refine .inl fun s hs => ?_
      rcases List.mem_append.mp hs with hs | hs
      · exact hnone s hs
      · rw [List.mem_singleton.mp hs]
        exact hadmits
    · refine .inr ⟨before, first, since ++ [t], by simp, hfirst, fun s hs => ?_, fun hfew => ?_⟩
      · rw [← List.append_assoc, List.mem_append, List.mem_singleton] at hs
        rcases hs with hs | rfl
        · exact hrest s hs
        · exact hadmits
      · obtain ⟨time, tracks⟩ := htracks (hfew.of_subset (List.subset_append_left _ _))
        refine ⟨time, ?_⟩
        cases filters with
        | nothing same _ =>
          rw [same]
          refine tracks.congr fun q => ?_
          have hnot : ¬ Recorded t q := by
            rintro ⟨hnot, hknows⟩
            rw [same] at hknows
            exact hnot hknows
          simp [hnot]
        | @records env nowUs htime new record recorded admits =>
          obtain ⟨others, hlen, hothers⟩ := hfew
          refine (tracks.record tidy new record (holder nowUs htime) hlen fun q hq => ?_).congr fun q => ?_
          · rcases hq with ⟨s, hs, hrec⟩ | rfl
            · exact hothers s (List.mem_append_left _ hs) q hrec (tracks.ne tidy ⟨s, hs, hrec⟩)
            · refine hothers t (List.mem_append_right _ (List.mem_singleton.mpr rfl)) _
                ((recorded _).mpr rfl) ?_
              rintro rfl
              exact new tracks.knows
          · rw [← recorded q]
            simp only [List.mem_append, List.mem_singleton, or_and_right, exists_or, exists_eq_left]

theorem Stamped.step {times : List UInt64} (tidy : t.before.dedup.Tidy)
    (h : Stamped t.before.dedup times) (filters : Filters t) :
    t.after.dedup.Tidy ∧ Stamped t.after.dedup (times ++ t.input.receiveTime?.toList) := by
  cases filters with
  | nothing same _ =>
    rw [same]
    exact ⟨tidy, fun i hi => List.mem_append_left _ (h i hi)⟩
  | @records env nowUs time new record _ _ =>
    obtain ⟨htidy, w, -, hwindow⟩ := tidy.record new record
    refine ⟨htidy, fun i hi => ?_⟩
    rw [hwindow, getElem_set_fin] at hi ⊢
    split
    case isTrue _ =>
      rw [time]
      simp
    case isFalse hne =>
      rw [if_neg hne] at hi
      exact List.mem_append_left _ (h i hi)

/-! ## The law -/

/-- What is known of a run: the window is in order, one message of the name at most got past it, and
what got past was returned, or is kept. -/
structure OnceInv (p : NodeId × UInt64) (past : List Step) (e : DeliveryEngine) : Prop where
  inv : Inv (fun _ => True) e
  tidy : e.dedup.Tidy
  stamped : Stamped e.dedup (receiveTimes past)
  filtered : Filtered p past e.dedup
  copies : ∃ n, AtMost (Named p) n e.ordering e.staged? ∧
    past.countP (fun t => Returns p t) + n ≤ past.countP (fun t => Admits p t)

theorem OnceInv.step {o : Observation} (h : OnceInv p past e) (hexec : exec i e = .ok (o, e'))
    (hrising : (receiveTimes (past ++ [⟨e, i, o, e'⟩])).Pairwise (· < ·))
    (spaced : Spaced p (past ++ [⟨e, i, o, e'⟩])) : OnceInv p (past ++ [⟨e, i, o, e'⟩]) e' := by
  obtain ⟨hinv, delivered, -⟩ :=
    exec_delivered headerProperty_true h.inv (fun _ _ _ => trivial) hexec
  have filters := filters_of_delivered h.tidy delivered
  have htimes := receiveTimes_append past ⟨e, i, o, e'⟩
  obtain ⟨htidy, hstamped⟩ := h.stamped.step (t := ⟨e, i, o, e'⟩) h.tidy filters
  have holder : ∀ nowUs ∈ i.receiveTime?, ∀ k : Fin dedupWindowSize,
      e.dedup.window[k].valid = true → e.dedup.window[k].recordedUs < nowUs := by
    intro nowUs hnow k hk
    rw [htimes, List.pairwise_append] at hrising
    refine hrising.2.2 _ (h.stamped k hk) nowUs ?_
    rw [hnow]
    simp
  refine ⟨hinv, htidy, htimes ▸ hstamped, h.filtered.step (t := ⟨e, i, o, e'⟩) h.tidy spaced filters holder, ?_⟩
  obtain ⟨n, hn, hle⟩ := h.copies
  have hfirst : ∀ env ∈ admitted? e i, Named p env → n = 0 := by
    intro env henv hnamed
    have hnone := h.filtered.fresh (t := ⟨e, i, o, e'⟩) spaced filters ⟨env, henv, hnamed⟩
    have hzero : past.countP (fun t => Admits p t) = 0 := by
      rw [List.countP_eq_zero]
      simpa using hnone
    omega
  obtain ⟨m, hm, hmn⟩ := atMost_delivered h.inv hn (fun _ hnamed => hnamed.data) hfirst delivered
  refine ⟨m, hm, ?_⟩
  rw [List.countP_append, List.countP_append, List.countP_singleton, List.countP_singleton]
  have hreturns : tally (Named p) o.answer.returned? =
      if decide (Returns p ⟨e, i, o, e'⟩) = true then 1 else 0 := by
    simp [tally, Returns]
  have hadmits : tally (Named p) (admitted? e i) =
      if decide (Admits p ⟨e, i, o, e'⟩) = true then 1 else 0 := by
    simp [tally, Admits]
  rw [hreturns, hadmits] at hmn
  omega

/-- In a run whose `receive` calls come at rising times, a `RELIABLE_RETRY` message is returned at
most once, provided the filter records fewer other pairs than it has entries between its first and
its last arrival. -/
theorem delivered_at_most_once (cfg : ChannelConfig) (localId : NodeId) (entropy : UInt64)
    (inputs : List Input) (src : NodeId) (msgId : UInt64) (hlocal : localId ≠ nodeIdInvalid)
    (hrising : (inputs.filterMap Input.receiveTime?).Pairwise (· < ·))
    (hfew : FewBetween (src, msgId) (Run.history exec inputs (init cfg localId entropy))) :
    (Run.history exec inputs (init cfg localId entropy)).countP
      (fun t => Returns (src, msgId) t) ≤ 1 := by
  obtain ⟨last, hlast⟩ := Run.history_inv
    (I := fun past e => (receiveTimes past).Pairwise (· < ·) → Spaced (src, msgId) past →
      OnceInv (src, msgId) past e) (by
      intro past e i o e' h hexec hrise hspaced
      have hbefore : (receiveTimes past).Pairwise (· < ·) := by
        rw [receiveTimes_append] at hrise
        exact (List.pairwise_append.mp hrise).1
      exact (h hbefore hspaced.prefix).step hexec hrise hspaced)
    inputs [] (init cfg localId entropy) (by
      intro _ _
      refine ⟨inv_init cfg entropy hlocal, DuplicateFilter.tidy_init, ?_, .inl (by simp), 0, ?_⟩
      · intro k hk
        exact absurd ((DuplicateFilter.tidy_init.filled k).mp hk) (Nat.not_lt_zero _)
      · refine ⟨⟨?_, by simp [staged?, init]⟩, by simp⟩
        rintro x ⟨k, hk, -⟩
        simp [init, OrderingBuffer.init] at hk)
  rw [List.nil_append] at hlast
  have hsteps : receiveTimes (Run.history exec inputs (init cfg localId entropy)) <+:
      inputs.filterMap Input.receiveTime? := by
    have hinputs : (Run.history exec inputs (init cfg localId entropy)).map Run.Taken.input <+: inputs :=
      Run.history_inputs inputs _
    have hprefix := hinputs.filterMap Input.receiveTime?
    rwa [List.filterMap_map] at hprefix
  have hinv := hlast (hrising.sublist hsteps.sublist) hfew.spaced
  obtain ⟨n, -, hle⟩ := hinv.copies
  have hcount := hinv.filtered.count_le
  omega

/-- A message and its retransmission. -/
def repeatingRun : List Input := [receiveOf 1 (retryData 2 1 0), receiveOf 2 (retryData 2 1 0)]

theorem delivered_at_most_once_repeated :
    (repeatingRun.filterMap Input.receiveTime?).Pairwise (· < ·) ∧
    FewBetween (2, 1) (Run.history exec repeatingRun (init orderedConfig 1 7)) ∧
    (Run.history exec repeatingRun (init orderedConfig 1 7)).countP (fun t => Returns (2, 1) t) ≤ 1 := by
  have hrising : (repeatingRun.filterMap Input.receiveTime?).Pairwise (· < ·) := by decide
  have hfew : FewBetween (2, 1) (Run.history exec repeatingRun (init orderedConfig 1 7)) := by
    have hlen : (Run.history exec repeatingRun (init orderedConfig 1 7)).length = 2 := by decide +kernel
    intro before first between last after hsplit _ _ _ _
    have hbetween : between = [] := by
      rw [hsplit] at hlen
      simp only [List.length_append, List.length_cons] at hlen
      exact List.eq_nil_of_length_eq_zero (by omega)
    exact ⟨[], by decide, by simp [hbetween]⟩
  exact ⟨hrising, hfew, delivered_at_most_once orderedConfig 1 7 repeatingRun 2 1 (by decide) hrising hfew⟩

end DeliveryEngine

end MessageEngine
