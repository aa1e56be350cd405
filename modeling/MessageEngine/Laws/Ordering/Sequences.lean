import MessageEngine.Laws.Ordering.Lanes
import MessageEngine.Laws.Ordering.Sweep

/-!
# Numbered messages in any order

A sender numbers its messages one after the other, and the number after the largest is one again. The
messages arrive in any order, and the caller drains their source. What comes out of the gate is then read
off the positions of the messages in the order they were sent.

The gate compares plain numbers, the sender wraps them. So the messages come out in order as long as none
arrives from the other side of a wrap: the number of the one that is due and the number that arrives must
belong to one turn of the circle (`epochAt`).

## What is proved

- `order_complete`: the messages `1..n` of any sources that fit into the table come out complete and in
  order, and nothing is left in the holds.
- `sequence_delivered`: so do `k` messages from any cursor on, and after the sweep of one of them those
  that were sent later, unless an arrival crosses a wrap.
- `wrapped_message_lost`: the message after the wrap comes first, and never comes out.
-/

namespace MessageEngine

open Outcome Table Gate

namespace OrderingBuffer

variable {Q : MessageEnvelope → Prop} {b b' : OrderingBuffer} {src : NodeId}

/-! ## The circle of numbers -/

/-- The number at position `p`, counted from the number `c`. -/
def seqAt (c p : ℕ) : ℕ := (c - 1 + p) % 4294967295 + 1

/-- How often the numbers have wrapped at position `p`. -/
def epochAt (c p : ℕ) : ℕ := (c - 1 + p) / 4294967295

theorem nextNum_seqAt (c p : ℕ) : nextNum (seqAt c p) = seqAt c (p + 1) := by
  unfold nextNum seqAt
  split <;> omega

theorem seqAt_zero {c : ℕ} (h : c ≠ 0) (hlt : c < 4294967296) : seqAt c 0 = c := by
  unfold seqAt
  omega

theorem epochAt_mono (c : ℕ) : Monotone (epochAt c) :=
  fun _ _ h => Nat.div_le_div_right (Nat.add_le_add_left h _)

theorem seqAt_grows (c p q : ℕ) (h : epochAt c p = epochAt c q) (hlt : p < q) : seqAt c p < seqAt c q := by
  unfold epochAt at h
  unfold seqAt
  omega

/-- The number at position `p` is what the sender's counter holds after `p` messages. -/
theorem toNat_iterate_nextSeq {c : UInt32} (h : c ≠ 0) (p : ℕ) : (nextSeq^[p] c).toNat = seqAt c.toNat p := by
  induction p with
  | zero =>
    have hne : c.toNat ≠ 0 := fun hz => h (UInt32.toNat_inj.mp hz)
    exact (seqAt_zero hne c.toNat_lt).symm
  | succ p ih => rw [Function.iterate_succ_apply', toNat_nextSeq, ih, nextNum_seqAt]

theorem numbering_of {c k : ℕ} {message : ℕ → MessageEnvelope} (h : ∀ p < k, num (message p) = seqAt c p) :
    Numbering nextNum num message (seqAt c) (epochAt c) k :=
  ⟨h, nextNum_seqAt c, epochAt_mono c, seqAt_grows c⟩

/-! ## One source -/

/-- All that came out of the gate. -/
def delivered (outs : List Presented) : List MessageEnvelope := outs.flatMap Presented.out

/-- The `k` messages of a source, numbered from `c` on as the sender's counter runs. -/
def Sends (src : NodeId) (c : UInt32) (k : ℕ) (message : ℕ → MessageEnvelope) : Prop :=
  ∀ p < k, ¬ envelopeIsControl (message p) ∧ (message p).sourceId = src ∧
    (message p).sequenceNum = nextSeq^[p] c

/-- The messages at the given positions arrive. -/
def arrivalsOf (message : ℕ → MessageEnvelope) (time : ℕ → UInt64) (order : List ℕ) : List Incoming :=
  order.map fun p => ⟨message p, time p⟩

section OneSource

variable {c : UInt32} {k : ℕ} {message : ℕ → MessageEnvelope} {time : ℕ → UInt64}

theorem Sends.numbering (h : Sends src c k message) (hc : c ≠ 0) :
    Numbering nextNum num message (seqAt c.toNat) (epochAt c.toNat) k := by
  refine numbering_of fun p hp => ?_
  rw [num, (h p hp).2.2, toNat_iterate_nextSeq hc]

theorem iterate_nextSeq_ne_zero (hc : c ≠ 0) (p : ℕ) : nextSeq^[p] c ≠ 0 := by
  cases p with
  | zero => exact hc
  | succ p =>
    rw [Function.iterate_succ_apply']
    exact nextSeq_ne_zero _

theorem Sends.wellFormed (h : Sends src c k message) (hc : c ≠ 0) (hsrc : src ≠ 0) (htime : ∀ p, time p > 0)
    {p : ℕ} (hp : p < k) : Incoming.WellFormed ⟨message p, time p⟩ := by
  obtain ⟨hdata, hfrom, hseq⟩ := h p hp
  refine ⟨htime p, hdata, ?_, by rw [hfrom]; exact hsrc⟩
  rw [hseq]
  exact iterate_nextSeq_ne_zero hc p

/-- The messages come out as they become due. -/
theorem Sends.run (h : Sends src c k message) (hc : c ≠ 0) (hsrc : src ≠ 0) (htime : ∀ p, time p > 0)
    (eager : Bool) {order : List ℕ} (hk : ∀ p ∈ order, p < k) {arrived : Set ℕ} {d : ℕ}
    (same : SameEpoch (epochAt c.toNat) arrived order) (ready : Ready (fun _ => True) (fun s => s = src) b)
    (progress : Progress message (seqAt c.toNat) (epochAt c.toNat) k arrived d (b.lane src))
    {outs : List Presented} (run : Run.runAll (present eager) (arrivalsOf message time order) b = .ok (outs, b'))
    (room : ∀ o ∈ outs, ¬ o.Full) :
    ∃ d', d ≤ d' ∧
      Progress message (seqAt c.toNat) (epochAt c.toNat) k (arrived ∪ {p | p ∈ order}) d' (b'.lane src) ∧
      delivered outs = stretch message d d' ∧ Ready (fun _ => True) (fun s => s = src) b' := by
  induction order generalizing b arrived d outs with
  | nil =>
    cases run
    refine ⟨d, Nat.le_refl d, ?_, (stretch_self d).symm, ready⟩
    have hnone : arrived ∪ {p | p ∈ ([] : List ℕ)} = arrived := by simp
    rw [hnone]
    exact progress
  | cons p order ih =>
    obtain ⟨⟨o, b₁⟩, hpresent, run⟩ := bind_eq_ok.mp run
    obtain ⟨⟨outs', b₂⟩, hrun, run⟩ := bind_eq_ok.mp run
    cases run
    have hp := hk p List.mem_cons_self
    have hfrom : (message p).sourceId = src := (h p hp).2.1
    obtain ⟨o', b₁', hpresent', presents, ready₁⟩ :=
      present_spec eager ready (h.wellFormed hc hsrc htime hp) hfrom trivial
    rw [hpresent] at hpresent'
    cases hpresent'
    rcases presents.own with ⟨rfl, -, -⟩ | ⟨out, rfl, arrives⟩
    · exact absurd rfl (room _ List.mem_cons_self)
    have harrives : Arrives nextNum num (b.lane src) (message p) out (b₁.lane src) := hfrom ▸ arrives
    have hepoch := same.1 d progress.below progress.due
    obtain ⟨d₁, hle, progress₁, rfl⟩ := progress.arrives (h.numbering hc) hp hepoch harrives
    obtain ⟨d', hle', progress', hout, ready'⟩ := ih (fun q hq => hk q (List.mem_cons_of_mem p hq)) same.2
      ready₁ progress₁ hrun fun o ho => room o (List.mem_cons_of_mem _ ho)
    refine ⟨d', Nat.le_trans hle hle', ?_, ?_, ready'⟩
    · have hset : insert p arrived ∪ {q | q ∈ order} = arrived ∪ {q | q ∈ p :: order} := by
        ext q
        constructor
        · rintro ((rfl | hq) | hq)
          · exact .inr List.mem_cons_self
          · exact .inl hq
          · exact .inr (List.mem_cons_of_mem p hq)
        · rintro (hq | hq)
          · exact .inl (.inr hq)
          · rcases List.mem_cons.mp hq with rfl | hq
            · exact .inl (.inl rfl)
            · exact .inr hq
      rw [← hset]
      exact progress'
    · rw [delivered, List.flatMap_cons, Presented.out_ofOut, ← delivered, hout]
      exact stretch_append hle hle'

/-- The lane of a source with nothing waiting, before any of its next messages arrives. -/
theorem progress_start (hc : c ≠ 0) (hcur : b.cursor? src = some c) (hidle : b.holdCount src = 0) :
    Progress message (seqAt c.toNat) (epochAt c.toNat) k ∅ 0 (b.lane src) := by
  have hne : c.toNat ≠ 0 := fun hz => hc (UInt32.toNat_inj.mp hz)
  have hnone : b.heldOf src = ∅ :=
    Set.eq_empty_iff_forall_notMem.mpr fun env h => holdCount_eq_zero.mp hidle env h.1 h.2
  refine ⟨⟨?_, ?_, fun q hq => absurd hq (Nat.not_lt_zero q), fun q hq => absurd hq (Set.notMem_empty q),
    fun q hq => absurd hq (Set.notMem_empty q)⟩, Set.notMem_empty 0⟩
  · rw [lane, expected_of_cursor? hcur, seqAt_zero hne c.toNat_lt]
  · change b.heldOf src = _
    rw [hnone]
    exact (Set.eq_empty_iff_forall_notMem.mpr fun x hx => by
      obtain ⟨q, hq, -⟩ := hx
      exact Set.notMem_empty q hq).symm

/-- Of what a source has waiting, one message has expired: the sweep moves the cursor just past it, and
what was sent later stays. -/
theorem sweep_one (inv : Inv Q b) {now : UInt64} (hnow : now > 0) {x : MessageEnvelope} (hx : x ∈ b.heldOf src)
    (hexp : ExpiredAt now x) (hone : ∀ y ∈ b.heldOf src, ExpiredAt now y → y = x)
    (hahead : ∀ y ∈ b.heldOf src, b.expected src < y.sequenceNum) (hlast : x.sequenceNum ≠ lastSeq) :
    ∃ s, b.sweepExpiredHolds now orderingHoldCount = .ok s ∧ Inv Q s.buffer ∧ (∀ y, Held s.buffer y → Held b y) ∧
      s.buffer.cursor? src = some (nextSeq x.sequenceNum) ∧
      ∀ y, y ∈ s.buffer.heldOf src ↔ y ∈ b.heldOf src ∧ x.sequenceNum < y.sequenceNum := by
  obtain ⟨s, hsweep, w⟩ := sweepExpiredHolds_spec inv hnow
  obtain ⟨s', hsweep', audit⟩ := sweep_audited inv hnow (Nat.le_refl _)
  rw [hsweep] at hsweep'
  cases hsweep'
  obtain ⟨c₀, hc₀⟩ := inv.heldCursor hx.1
  rw [hx.2] at hc₀
  have hexpected := expected_of_cursor? hc₀
  have hlt : x.sequenceNum < nextSeq x.sequenceNum := (lt_nextSeq_iff hlast).mpr (UInt32.le_refl _)
  have hskip : c₀ < nextSeq x.sequenceNum := UInt32.lt_trans (hexpected ▸ hahead x hx) hlt
  have hcur : s.buffer.cursor? src = some (nextSeq x.sequenceNum) := by
    obtain ⟨c₁, hc₁, -, hwhy⟩ := w.cursors src c₀ hc₀
    rcases hwhy with rfl | ⟨y, hy, hyexp, hysrc, rfl⟩
    · rcases w.behind x hx.1 hexp with hstill | ⟨c₂, hc₂, hle⟩
      · exact absurd hexp (w.unexpired hstill)
      · rw [hx.2, hc₁] at hc₂
        cases hc₂
        exact absurd hskip (UInt32.not_lt.mpr hle)
    · rw [hc₁, hone y ⟨hy, hysrc⟩ hyexp]
  refine ⟨s, hsweep, w.inv, w.kept, hcur, fun y => ⟨fun hy => ?_, fun ⟨hy, hlater⟩ => ?_⟩⟩
  · have hby : y ∈ b.heldOf src := ⟨w.kept y hy.1, hy.2⟩
    refine ⟨hby, ?_⟩
    by_cases hylast : y.sequenceNum = lastSeq
    · rw [hylast]
      exact UInt32.lt_of_le_of_ne (UInt32.le_iff_toNat_le.mpr (Nat.lt_succ_iff.mp x.sequenceNum.toNat_lt)) hlast
    · -- The cursor did not move past a hold that is still there.
      obtain ⟨j, hj, rfl⟩ := hy.1
      obtain ⟨hbj, henv⟩ := audit.kept j hj
      have hsrc : b.hold[j].env.sourceId = src := by
        rw [← henv]
        exact hy.2
      rw [henv] at hby hylast ⊢
      have hnext : b.expected b.hold[j].env.sourceId < nextSeq b.hold[j].env.sequenceNum := by
        rw [hsrc]
        exact UInt32.lt_trans (hahead _ hby) ((lt_nextSeq_iff hylast).mpr (UInt32.le_refl _))
      have hpast := audit.ahead j hj hnext
      rw [hsrc, expected_of_cursor? hcur] at hpast
      exact UInt32.lt_of_lt_of_le hlt ((lt_nextSeq_iff hylast).mp hpast)
  · rcases w.lost y hy.1 with hstill | ⟨z, hz, hzexp, hzsrc, hwhy⟩
    · exact ⟨hstill, hy.2⟩
    · rw [hone z ⟨hz, hzsrc.trans hy.2⟩ hzexp] at hwhy
      rcases hwhy with rfl | hbefore
      · exact absurd hlater (UInt32.lt_irrefl _)
      · exact absurd hlater (UInt32.not_lt.mpr ((lt_nextSeq_iff hlast).mp hbefore))

/-- After the sweep of the message at position `p` the lane is past it. -/
theorem Sends.swept (h : Sends src c k message) (hc : c ≠ 0) {arrived : Set ℕ} {d p : ℕ} (hp : p < k)
    (progress : Progress message (seqAt c.toNat) (epochAt c.toNat) k arrived d (b.lane src)) (hd : d ≤ p)
    (hmem : p ∈ arrived) (hcur : b'.cursor? src = some (nextSeq (message p).sequenceNum))
    (hheld : ∀ y, y ∈ b'.heldOf src ↔ y ∈ b.heldOf src ∧ (message p).sequenceNum < y.sequenceNum) :
    Reached message (seqAt c.toNat) (epochAt c.toNat) k (arrived ∪ {q | q ≤ p}) (p + 1) (b'.lane src) := by
  have n := h.numbering hc
  have hnum (q : ℕ) (hq : q < k) : (message q).sequenceNum.toNat = seqAt c.toNat q := n.numbered q hq
  have hepoch := progress.near p hmem hd
  refine ⟨?_, ?_, fun q hq => .inr (Nat.lt_succ_iff.mp hq), fun q hq hle => ?_, fun q hq => ?_⟩
  · rw [lane, expected_of_cursor? hcur, toNat_nextSeq, hnum p hp, nextNum_seqAt]
  · have hearly : b.heldOf src = early message arrived d := progress.held
    ext y
    change y ∈ b'.heldOf src ↔ _
    rw [hheld y, hearly]
    constructor
    · rintro ⟨⟨q, hq, hdq, rfl⟩, hlt⟩
      rw [UInt32.lt_iff_toNat_lt, hnum p hp, hnum q (progress.sent q hq)] at hlt
      have hsame := hepoch.trans (progress.near q hq hdq).symm
      exact ⟨q, .inl hq, n.lt_of_seq_lt hsame hlt, rfl⟩
    · rintro ⟨q, hq | hq, hlt, rfl⟩
      · have hdq : d ≤ q := Nat.le_trans hd (Nat.le_of_succ_le hlt)
        refine ⟨⟨q, hq, hdq, rfl⟩, ?_⟩
        rw [UInt32.lt_iff_toNat_lt, hnum p hp, hnum q (progress.sent q hq)]
        exact n.grows p q (hepoch.trans (progress.near q hq hdq).symm) hlt
      · exact absurd hlt (Nat.not_lt.mpr hq)
  · rcases hq with hq | hq
    · have hnear := progress.near q hq (Nat.le_trans hd (Nat.le_of_succ_le hle))
      exact (n.between (hepoch.trans hnear.symm) (Nat.le_succ p) hle).symm
    · exact absurd hle (Nat.not_le.mpr (Nat.lt_succ_of_le hq))
  · rcases hq with hq | hq
    · exact progress.sent q hq
    · exact Nat.lt_of_le_of_lt hq hp

end OneSource

/-! ## From any cursor on -/

/-- Every order of the messages is answered, and they come out once each and in order. -/
def DeliversAll (eager : Bool) (b : OrderingBuffer) (k : ℕ) (message : ℕ → MessageEnvelope)
    (time : ℕ → UInt64) (order : List ℕ) : Prop :=
  ∃ outs b', Run.runAll (present eager) (arrivalsOf message time order) b = .ok (outs, b') ∧
    ((∀ o ∈ outs, ¬ o.Full) → delivered outs = stretch message 0 k)

/-- Some of the messages have arrived, and of those that wait one has expired. It is the message at some
position; the sweep moves the cursor past it, and the rest of the order brings out all later ones, unless
an arrival crosses a wrap. -/
def DeliversLater (eager : Bool) (b : OrderingBuffer) (src : NodeId) (c k : ℕ) (message : ℕ → MessageEnvelope)
    (time : ℕ → UInt64) (before after : List ℕ) (now : UInt64) : Prop :=
  ∀ outs b₁, Run.runAll (present eager) (arrivalsOf message time before) b = .ok (outs, b₁) →
    (∀ o ∈ outs, ¬ o.Full) → ∀ x ∈ b₁.heldOf src, x.sequenceNum ≠ lastSeq → ExpiredAt now x →
    (∀ y ∈ b₁.heldOf src, ExpiredAt now y → y = x) →
    ∃ p ∈ before, message p = x ∧ ∃ s, b₁.sweepExpiredHolds now orderingHoldCount = .ok s ∧
      s.buffer.cursor? src = some (nextSeq x.sequenceNum) ∧
      (SameEpoch (epochAt c) ({q | q ∈ before} ∪ {q | q ≤ p}) after →
        ∃ released b₂ outs' b₃, drain src (orderingHoldCount + 1) s.buffer = .ok (released, b₂) ∧
          Run.runAll (present eager) (arrivalsOf message time after) b₂ = .ok (outs', b₃) ∧
          ((∀ o ∈ outs', ¬ o.Full) → released ++ delivered outs' = stretch message (p + 1) k))

section FromCursor

variable {c : UInt32} {k : ℕ} {message : ℕ → MessageEnvelope} {time : ℕ → UInt64} {order : List ℕ}

theorem Sends.arrivals (h : Sends src c k message) (hc : c ≠ 0) (hsrc : src ≠ 0) (htime : ∀ p, time p > 0)
    (hk : ∀ p ∈ order, p < k) :
    ∀ a ∈ arrivalsOf message time order, a.WellFormed ∧ a.msg.sourceId = src := by
  intro a ha
  obtain ⟨p, hp, rfl⟩ := List.mem_map.mp ha
  exact ⟨h.wellFormed hc hsrc htime (hk p hp), (h p (hk p hp)).2.1⟩

theorem Sends.deliversAll (h : Sends src c k message) (hc : c ≠ 0) (hsrc : src ≠ 0) (htime : ∀ p, time p > 0)
    (eager : Bool) (perm : order.Perm (List.range k)) (same : SameEpoch (epochAt c.toNat) ∅ order)
    (ready : Ready (fun _ => True) (fun s => s = src) b)
    (start : Progress message (seqAt c.toNat) (epochAt c.toNat) k ∅ 0 (b.lane src)) :
    DeliversAll eager b k message time order := by
  have hk (p : ℕ) (hp : p ∈ order) : p < k := List.mem_range.mp (perm.mem_iff.mp hp)
  have harrivals := h.arrivals hc hsrc htime hk
  obtain ⟨outs, b', hrun⟩ :=
    present_run eager ready (fun a ha => (harrivals a ha).1) fun a ha => (harrivals a ha).2
  refine ⟨outs, b', hrun, fun room => ?_⟩
  obtain ⟨d', -, progress, hout, -⟩ := h.run hc hsrc htime eager hk same ready start hrun room
  obtain ⟨rfl, -⟩ := progress.complete fun q hq => .inr (perm.mem_iff.mpr (List.mem_range.mpr hq))
  exact hout

theorem Sends.deliversLater (h : Sends src c k message) (hc : c ≠ 0) (hsrc : src ≠ 0)
    (htime : ∀ p, time p > 0) (eager : Bool) {before after : List ℕ} (perm : (before ++ after).Perm (List.range k))
    (same : SameEpoch (epochAt c.toNat) ∅ before) {now : UInt64} (hnow : now > 0)
    (ready : Ready (fun _ => True) (fun s => s = src) b)
    (start : Progress message (seqAt c.toNat) (epochAt c.toNat) k ∅ 0 (b.lane src)) :
    DeliversLater eager b src c.toNat k message time before after now := by
  intro outs b₁ hrun room x hx hlast hexp hone
  have hk (p : ℕ) (hp : p ∈ before ++ after) : p < k := List.mem_range.mp (perm.mem_iff.mp hp)
  have hbefore (p : ℕ) (hp : p ∈ before) : p < k := hk p (List.mem_append_left after hp)
  have hafter (p : ℕ) (hp : p ∈ after) : p < k := hk p (List.mem_append_right before hp)
  obtain ⟨d, -, progress, -, ready₁⟩ := h.run hc hsrc htime eager hbefore same ready start hrun room
  rw [Set.empty_union] at progress
  have n := h.numbering hc
  have hearly : b₁.heldOf src = early message {q | q ∈ before} d := progress.held
  have hahead (y : MessageEnvelope) (hy : y ∈ b₁.heldOf src) : b₁.expected src < y.sequenceNum := by
    rw [hearly] at hy
    obtain ⟨q, hq, hdq, rfl⟩ := hy
    have hcursor : (b₁.expected src).toNat = seqAt c.toNat d := progress.cursor
    have hne : d ≠ q := fun heq => progress.due (heq ▸ hq)
    rw [UInt32.lt_iff_toNat_lt, hcursor]
    change _ < num (message q)
    rw [n.numbered q (hbefore q hq)]
    exact n.grows d q (progress.near q hq hdq).symm (Nat.lt_of_le_of_ne hdq hne)
  obtain ⟨s, hsweep, hinv, hkept, hcur, hheld⟩ := sweep_one ready₁.inv hnow hx hexp hone hahead hlast
  rw [hearly] at hx
  obtain ⟨p, hp, hdp, rfl⟩ := hx
  refine ⟨p, hp, rfl, s, hsweep, hcur, fun sameAfter => ?_⟩
  have hreached := h.swept hc (hbefore p hp) progress hdp hp hcur hheld
  obtain ⟨released, b₂, hdrain, hinv₂, hdrains, hothers, -⟩ :=
    drain_spec hinv hsrc (Nat.lt_succ_of_le (s.buffer.holdCount_le src))
  obtain ⟨d₂, hle₂, progress₂, rfl⟩ := hreached.drains n hdrains
  have hquota (t : NodeId) : s.buffer.holdCount t ≤ kHoldPerPeerMax :=
    Nat.le_trans (holdCount_le_of_held ready₁.inv hinv hkept) (ready₁.quota t)
  have ready₂ : Ready (fun _ => True) (fun s => s = src) b₂ :=
    ⟨hinv₂, quota_of_drains hinv hinv₂ hdrains hothers hquota, fun t ht => ht ▸ hdrains.settled⟩
  have harrivals := h.arrivals hc hsrc htime hafter
  obtain ⟨outs', b₃, hrun'⟩ :=
    present_run eager ready₂ (fun a ha => (harrivals a ha).1) fun a ha => (harrivals a ha).2
  refine ⟨_, b₂, outs', b₃, hdrain, hrun', fun room' => ?_⟩
  obtain ⟨d₃, hle₃, progress₃, hout, -⟩ :=
    h.run hc hsrc htime eager hafter sameAfter ready₂ progress₂ hrun' room'
  obtain ⟨rfl, -⟩ := progress₃.complete fun q hq => by
    rcases List.mem_append.mp (perm.mem_iff.mpr (List.mem_range.mpr hq)) with hq | hq
    · exact .inl (.inl hq)
    · exact .inr hq
  rw [hout]
  exact stretch_append hle₂ hle₃

end FromCursor

/-- From a cursor with nothing waiting, in every state a run reaches: the next `k` messages come out once
each and in order, and when one that waits expires those sent after it still do, unless an arrival crosses
a wrap or the message swept has the last number. -/
theorem sequence_delivered (eager : Bool) {calls : List Call} {answers : List Answer}
    (reached : Run.runAll step calls init = .ok (answers, b)) {c : UInt32} (hcur : b.cursor? src = some c)
    (hidle : b.holdCount src = 0) {k : ℕ} {message : ℕ → MessageEnvelope} (sends : Sends src c k message)
    {time : ℕ → UInt64} (htime : ∀ p, time p > 0) {order : List ℕ} (perm : order.Perm (List.range k)) :
    (SameEpoch (epochAt c.toNat) ∅ order → DeliversAll eager b k message time order) ∧
      ∀ before after now, order = before ++ after → now > 0 → SameEpoch (epochAt c.toNat) ∅ before →
        DeliversLater eager b src c.toNat k message time before after now := by
  have sound := reached_sound reached
  have hc := sound.inv.cursor_ne_zero hcur
  have hsrc : src ≠ 0 := by
    obtain ⟨i, hi, -⟩ := peer_of_cursor? hcur
    rw [← hi.2]
    exact sound.inv.peerSource i hi.1
  have start : Progress message (seqAt c.toNat) (epochAt c.toNat) k ∅ 0 (b.lane src) :=
    progress_start hc hcur hidle
  have ready : Ready (fun _ => True) (fun s => s = src) b := by
    refine ⟨sound.inv, sound.quota, fun s hs y hy => ?_⟩
    rw [hs] at hy
    exact absurd hy.2 (holdCount_eq_zero.mp hidle y hy.1)
  refine ⟨fun same => sends.deliversAll hc hsrc htime eager perm same ready start, ?_⟩
  rintro before after now rfl hnow same
  exact sends.deliversLater hc hsrc htime eager perm same hnow ready start

/-! ## Many sources, each from the start -/

section ManySources

variable {sources : Finset NodeId} {n : ℕ} {sent : NodeId → ℕ → MessageEnvelope}

/-- Message `k` of source `s` is `sent s k`. -/
def SentBy (sources : Finset NodeId) (n : ℕ) (sent : NodeId → ℕ → MessageEnvelope) : Prop :=
  ∀ s ∈ sources, ∀ k, 1 ≤ k → k ≤ n →
    ¬ envelopeIsControl (sent s k) ∧ (sent s k).sourceId = s ∧ (sent s k).sequenceNum.toNat = k

/-- One of these messages arrives. -/
def ArrivesFrom (sources : Finset NodeId) (n : ℕ) (sent : NodeId → ℕ → MessageEnvelope) (a : Incoming) : Prop :=
  a.nowUs > 0 ∧ ∃ s ∈ sources, ∃ k, 1 ≤ k ∧ k ≤ n ∧ a.msg = sent s k

theorem SentBy.numbering (h : SentBy sources n sent) (hn : n < 4294967295) {s : NodeId} (hs : s ∈ sources) :
    Numbering nextNum num (fun p => sent s (p + 1)) (seqAt 1) (epochAt 1) n := by
  refine numbering_of fun p hp => ?_
  rw [num, (h s hs (p + 1) (Nat.le_add_left 1 p) hp).2.2, seqAt]
  omega

/-- The gate while the messages arrive: of every source, some positions have arrived, and those without a
gap have left. -/
structure Gathering (sources : Finset NodeId) (n : ℕ) (sent : NodeId → ℕ → MessageEnvelope)
    (arrived : NodeId → Set ℕ) (d : NodeId → ℕ) (b : OrderingBuffer) : Prop where
  ready : Ready (fun env => env.sourceId ∈ sources) (fun _ => True) b
  tracked : ∀ s c, b.cursor? s = some c → s ∈ sources
  progress : ∀ s ∈ sources,
    Progress (fun p => sent s (p + 1)) (seqAt 1) (epochAt 1) n (arrived s) (d s) (b.lane s)

/-- What comes out of a lane is of its source. -/
theorem SentBy.filter_stretch (h : SentBy sources n sent) {s t : NodeId} (hs : s ∈ sources) {d d' : ℕ}
    (hd : d' ≤ n) : (stretch (fun p => sent s (p + 1)) d d').filter (fun env => env.sourceId == t) =
      if s = t then stretch (fun p => sent s (p + 1)) d d' else [] := by
  have hsrc (env : MessageEnvelope) (henv : env ∈ stretch (fun p => sent s (p + 1)) d d') : env.sourceId = s := by
    obtain ⟨p, hp, rfl⟩ := List.mem_map.mp henv
    rw [List.mem_range'_1] at hp
    exact (h s hs (p + 1) (Nat.le_add_left 1 p) (by omega)).2.1
  split
  case isTrue hst =>
    rw [List.filter_eq_self]
    intro env henv
    rw [hsrc env henv, hst, beq_self_eq_true]
  case isFalse hst =>
    rw [List.filter_eq_nil_iff]
    intro env henv hb
    exact hst ((hsrc env henv).symm.trans (beq_iff_eq.mp hb))

variable {arrived : NodeId → Set ℕ} {d : NodeId → ℕ}

/-- One message arrives. No other source loses its entry: they all fit into the table. -/
theorem Gathering.arrives (h : Gathering sources n sent arrived d b) (hsent : SentBy sources n sent)
    (hn : n < 4294967295) (hcard : sources.card ≤ orderingPeerCount) (hzero : 0 ∉ sources) (eager : Bool)
    {now : UInt64} (hnow : now > 0) {s : NodeId} (hs : s ∈ sources) {p : ℕ} (hp : p < n) :
    ∃ o b', present eager ⟨sent s (p + 1), now⟩ b = .ok (o, b') ∧ (¬ o.Full → ∃ d₁, d s ≤ d₁ ∧
      Gathering sources n sent (Function.update arrived s (insert p (arrived s))) (Function.update d s d₁) b' ∧
      o.out = stretch (fun p => sent s (p + 1)) (d s) d₁) := by
  obtain ⟨hdata, hfrom, hnum⟩ := hsent s hs (p + 1) (Nat.le_add_left 1 p) hp
  have hwell : Incoming.WellFormed ⟨sent s (p + 1), now⟩ := by
    refine ⟨hnow, hdata, fun hz => ?_, fun hz => hzero ?_⟩
    · rw [hz] at hnum
      cases hnum
    · rw [← hz, hfrom]
      exact hs
  have hq : (sent s (p + 1)).sourceId ∈ sources := hfrom.symm ▸ hs
  obtain ⟨o, b', hpresent, presents, ready⟩ := present_spec eager h.ready hwell trivial hq
  refine ⟨o, b', hpresent, fun room => ?_⟩
  have hkeeps (t : NodeId) (ht : t ≠ s) : b'.lane t = b.lane t := by
    rcases presents.others t (by rw [hfrom]; exact ht) with hsame | ⟨⟨hnew, hfull, -⟩, -⟩
    · exact hsame
    · exact absurd hfull (not_full h.ready.inv hcard h.tracked hq hnew)
  rcases presents.own with ⟨rfl, -, -⟩ | ⟨out, rfl, arrives⟩
  · exact absurd rfl room
  have harrives : Arrives nextNum num (b.lane s) (sent s (p + 1)) out (b'.lane s) := by
    rw [hfrom] at arrives
    exact arrives
  have hprogress := h.progress s hs
  have hepoch : epochAt 1 p = epochAt 1 (d s) := by
    have hle := hprogress.le
    unfold epochAt
    omega
  have hnumbering := hsent.numbering hn hs
  obtain ⟨d₁, hle, hnext, rfl⟩ := hprogress.arrives hnumbering hp hepoch harrives
  refine ⟨d₁, hle, ⟨ready, fun t c hc => ?_, fun t ht => ?_⟩, Presented.out_ofOut _⟩
  · by_cases hts : t = s
    · rw [hts]
      exact hs
    · cases hcur : b.cursor? t with
      | none =>
        rw [presents.untracked t (by rw [hfrom]; exact hts) hcur] at hc
        cases hc
      | some c₀ => exact h.tracked t c₀ hcur
  · by_cases hts : t = s
    · subst hts
      rw [Function.update_self, Function.update_self]
      exact hnext
    · rw [Function.update_of_ne hts, Function.update_of_ne hts, hkeeps t hts]
      exact h.progress t ht

/-- All of them arrive. -/
theorem Gathering.run (h : Gathering sources n sent arrived d b) (hsent : SentBy sources n sent)
    (hn : n < 4294967295) (hcard : sources.card ≤ orderingPeerCount) (hzero : 0 ∉ sources) (eager : Bool)
    {arrivals : List Incoming} (harrive : ∀ a ∈ arrivals, ArrivesFrom sources n sent a) {outs : List Presented}
    (run : Run.runAll (present eager) arrivals b = .ok (outs, b')) (room : ∀ o ∈ outs, ¬ o.Full) :
    ∃ arrived' d', Gathering sources n sent arrived' d' b' ∧
      (∀ s ∈ sources, ∀ p < n, p ∈ arrived s ∨ (∃ a ∈ arrivals, a.msg = sent s (p + 1)) → p ∈ arrived' s) ∧
      ∀ s ∈ sources, d s ≤ d' s ∧ (delivered outs).filter (fun env => env.sourceId == s) =
        stretch (fun p => sent s (p + 1)) (d s) (d' s) := by
  induction arrivals generalizing b arrived d outs with
  | nil =>
    cases run
    refine ⟨arrived, d, h, fun s hs p hp hor => ?_, fun s hs => ⟨Nat.le_refl _, (stretch_self _).symm⟩⟩
    rcases hor with hmem | ⟨a, ha, -⟩
    · exact hmem
    · exact absurd ha List.not_mem_nil
  | cons a arrivals ih =>
    obtain ⟨⟨o, b₁⟩, hpresent, run⟩ := bind_eq_ok.mp run
    obtain ⟨⟨outs', b₂⟩, hrun, run⟩ := bind_eq_ok.mp run
    cases run
    obtain ⟨hnow, s₀, hs₀, k, hk, hkn, hmsg⟩ := harrive a List.mem_cons_self
    obtain ⟨p₀, rfl⟩ : ∃ p, k = p + 1 := ⟨k - 1, by omega⟩
    obtain ⟨msg, now⟩ := a
    obtain rfl : msg = sent s₀ (p₀ + 1) := hmsg
    obtain ⟨o', b₁', hpresent', hstep⟩ := h.arrives hsent hn hcard hzero eager hnow hs₀ hkn
    rw [hpresent] at hpresent'
    cases hpresent'
    obtain ⟨d₁, hle, hgather, hout⟩ := hstep (room o List.mem_cons_self)
    obtain ⟨arrived', d', hgather', hmem, hrest⟩ := ih hgather
      (fun c hc => harrive c (List.mem_cons_of_mem _ hc)) hrun fun c hc => room c (List.mem_cons_of_mem _ hc)
    refine ⟨arrived', d', hgather', fun s hs p hp hor => hmem s hs p hp ?_, fun s hs => ?_⟩
    · by_cases hss : s = s₀
      · subst hss
        rw [Function.update_self]
        rcases hor with hold | ⟨a, ha, hsame⟩
        · exact .inl (.inr hold)
        · rcases List.mem_cons.mp ha with rfl | ha
          · have hnum := (hsent s hs (p + 1) (Nat.le_add_left 1 p) hp).2.2
            have hsame : sent s (p₀ + 1) = sent s (p + 1) := hsame
            rw [← hsame, (hsent s hs (p₀ + 1) (Nat.le_add_left 1 p₀) hkn).2.2] at hnum
            exact .inl (.inl (Nat.succ_injective hnum).symm)
          · exact .inr ⟨a, ha, hsame⟩
      · rw [Function.update_of_ne hss]
        rcases hor with hold | ⟨a, ha, hsame⟩
        · exact .inl hold
        · rcases List.mem_cons.mp ha with rfl | ha
          · have hsame : sent s₀ (p₀ + 1) = sent s (p + 1) := hsame
            have hfrom := (hsent s hs (p + 1) (Nat.le_add_left 1 p) hp).2.1
            rw [← hsame, (hsent s₀ hs₀ (p₀ + 1) (Nat.le_add_left 1 p₀) hkn).2.1] at hfrom
            exact absurd hfrom.symm hss
          · exact .inr ⟨a, ha, hsame⟩
    · obtain ⟨hle', hfilter⟩ := hrest s hs
      have hbound : d₁ ≤ n := by
        have hprogress := (hgather.progress s₀ hs₀).le
        rwa [Function.update_self] at hprogress
      rw [delivered, List.flatMap_cons, List.filter_append, ← delivered, hfilter, hout,
        hsent.filter_stretch hs₀ hbound]
      by_cases hss : s = s₀
      · subst hss
        rw [if_pos rfl, Function.update_self] at *
        exact ⟨Nat.le_trans hle hle', stretch_append hle hle'⟩
      · rw [if_neg (Ne.symm hss), List.nil_append, Function.update_of_ne hss]
        rw [Function.update_of_ne hss] at hle'
        exact ⟨hle', rfl⟩

/-- Nothing has arrived. -/
theorem gathering_init (sources : Finset NodeId) (n : ℕ) (sent : NodeId → ℕ → MessageEnvelope) :
    Gathering sources n sent (fun _ => ∅) (fun _ => 0) init := by
  refine ⟨ready_init, fun s c hc => ?_, fun s _ => ?_⟩
  · rw [cursor?_init] at hc
    cases hc
  · rw [lane_init]
    refine ⟨⟨rfl, ?_, fun q hq => absurd hq (Nat.not_lt_zero q), fun q hq => absurd hq (Set.notMem_empty q),
      fun q hq => absurd hq (Set.notMem_empty q)⟩, Set.notMem_empty 0⟩
    exact (Set.eq_empty_iff_forall_notMem.mpr fun x hx => by
      obtain ⟨q, hq, -⟩ := hx
      exact Set.notMem_empty q hq).symm

/-- The messages `1..n` of at most as many sources as the table holds arrive in any order and any number of
times. If there is always room for them, each source's messages come out once each and in order, and in
the end nothing waits. -/
theorem order_complete (eager : Bool) {n : ℕ} (hn : n < 4294967295) {sources : Finset NodeId}
    (hcard : sources.card ≤ orderingPeerCount) (hzero : 0 ∉ sources) {sent : NodeId → ℕ → MessageEnvelope}
    (hsent : SentBy sources n sent) {arrivals : List Incoming}
    (harrive : ∀ a ∈ arrivals, ArrivesFrom sources n sent a)
    (hall : ∀ s ∈ sources, ∀ k, 1 ≤ k → k ≤ n → ∃ a ∈ arrivals, a.msg = sent s k) :
    ∃ outs b, Run.runAll (present eager) arrivals init = .ok (outs, b) ∧ ((∀ o ∈ outs, ¬ o.Full) →
      (∀ s ∈ sources, (delivered outs).filter (fun env => env.sourceId == s) =
        (List.range' 1 n).map (sent s)) ∧ ∀ i : Fin orderingHoldCount, b.hold[i].active = false) := by
  have hwell (a : Incoming) (ha : a ∈ arrivals) : a.WellFormed := by
    obtain ⟨hnow, s, hs, k, hk, hkn, hmsg⟩ := harrive a ha
    obtain ⟨hdata, hfrom, hnum⟩ := hsent s hs k hk hkn
    rw [← hmsg] at hdata hfrom hnum
    refine ⟨hnow, hdata, fun hz => ?_, fun hz => hzero ?_⟩
    · rw [hz] at hnum
      exact absurd hnum (Nat.ne_of_lt hk)
    · rw [← hz, hfrom]
      exact hs
  have hready : Ready (fun _ => True) (fun _ => True) init := ready_init
  obtain ⟨outs, b, hrun⟩ := present_run eager hready hwell fun _ _ => trivial
  refine ⟨outs, b, hrun, fun room => ?_⟩
  obtain ⟨arrived, d, hgather, hmem, hout⟩ :=
    (gathering_init sources n sent).run hsent hn hcard hzero eager harrive hrun room
  have hdone (s : NodeId) (hs : s ∈ sources) : d s = n ∧ (b.lane s).held = ∅ :=
    (hgather.progress s hs).complete fun q hq => hmem s hs q hq (.inr (hall s hs (q + 1) (Nat.le_add_left 1 q) hq))
  refine ⟨fun s hs => ?_, fun i => ?_⟩
  · rw [(hout s hs).2, (hdone s hs).1, stretch, Nat.sub_zero, List.range'_eq_map_range, List.range'_eq_map_range,
      List.map_map, List.map_map]
    refine List.map_congr_left fun p _ => ?_
    change sent s (0 + p + 1) = sent s (1 + p)
    rw [Nat.zero_add, Nat.add_comm]
  · by_contra hactive
    have hheld : Held b b.hold[i].env := ⟨i, (Bool.not_eq_false _).mp hactive, rfl⟩
    have hs : b.hold[i].env.sourceId ∈ sources := hgather.ready.inv.holdOk _ hheld
    have hnone : b.heldOf b.hold[i].env.sourceId = ∅ := (hdone _ hs).2
    have hmem : b.hold[i].env ∈ b.heldOf b.hold[i].env.sourceId := ⟨hheld, rfl⟩
    rw [hnone] at hmem
    exact Set.notMem_empty _ hmem

end ManySources

/-- Message `k` of a source. -/
def numbered (s : NodeId) (k : ℕ) : MessageEnvelope := { heldMessage (UInt32.ofNat k) 0 with sourceId := s }

/-- Two messages of two sources, the second of source seven first and twice. -/
def mixed : List Incoming := [⟨numbered 7 2, 60⟩, ⟨numbered 5 1, 61⟩, ⟨numbered 7 2, 62⟩, ⟨numbered 5 2, 63⟩,
  ⟨numbered 7 1, 64⟩]

theorem order_complete_mixed :
    ∃ outs b, Run.runAll (present false) mixed init = .ok (outs, b) ∧ ((∀ o ∈ outs, ¬ o.Full) →
      (∀ s ∈ ({5, 7} : Finset NodeId), (delivered outs).filter (fun env => env.sourceId == s) =
        (List.range' 1 2).map (numbered s)) ∧ ∀ i : Fin orderingHoldCount, b.hold[i].active = false) := by
  refine order_complete false (by decide) (by decide) (by decide) (fun s hs k hk hkn => ?_) (fun a ha => ?_)
    fun s hs k hk hkn => ?_
  · have hdata : (numbered s k).messageType = .data := rfl
    refine ⟨fun hcontrol => ?_, rfl, ?_⟩
    · rw [envelopeIsControl, hdata] at hcontrol
      exact absurd hcontrol (by decide)
    have hlt : k < 4294967296 := Nat.lt_of_le_of_lt hkn (by decide)
    exact UInt32.toNat_ofNat_of_lt hlt
  · simp only [mixed, List.mem_cons, List.not_mem_nil, or_false] at ha
    rcases ha with rfl | rfl | rfl | rfl | rfl
    · exact ⟨by decide, 7, by decide, 2, by decide, by decide, rfl⟩
    · exact ⟨by decide, 5, by decide, 1, by decide, by decide, rfl⟩
    · exact ⟨by decide, 7, by decide, 2, by decide, by decide, rfl⟩
    · exact ⟨by decide, 5, by decide, 2, by decide, by decide, rfl⟩
    · exact ⟨by decide, 7, by decide, 1, by decide, by decide, rfl⟩
  · have hk' : k = 1 ∨ k = 2 := by omega
    rw [Finset.mem_insert, Finset.mem_singleton] at hs
    rcases hs with rfl | rfl <;> rcases hk' with rfl | rfl
    · exact ⟨_, .tail _ (.head _), rfl⟩
    · exact ⟨_, .tail _ (.tail _ (.tail _ (.head _))), rfl⟩
    · exact ⟨_, .tail _ (.tail _ (.tail _ (.tail _ (.head _)))), rfl⟩
    · exact ⟨_, .head _, rfl⟩

/-- Source five is about to send its last number. -/
def beforeWrap : List Call := [.ingest (heldMessage 1 0) 50, .advanceSequence 5 lastSeq]

/-- What it sends from there on, across the wrap; the third message expires. -/
def following (p : ℕ) : MessageEnvelope := heldMessage (nextSeq^[p] lastSeq) (if p = 2 then 100 else 0)

/-- Behind the last number, the positions are in one epoch. -/
theorem sameEpoch_following {arrived : Set ℕ} {order : List ℕ} (first : 0 ∈ arrived) (sent : ∀ q ∈ arrived, q < 4)
    (hk : ∀ q ∈ order, 1 ≤ q ∧ q < 4) : SameEpoch (epochAt lastSeq.toNat) arrived order := by
  refine sameEpoch_of_const (k := 4) (e := 1) (a := 1) (fun q hq hle => ?_) (fun q hq => ?_) sent hk
  · rw [show lastSeq.toNat = 4294967295 from rfl, epochAt]
    omega
  · rw [Nat.lt_one_iff.mp hq]
    exact first

/-- The first message arrives when it is due. -/
theorem sameEpoch_first {order : List ℕ} (rest : SameEpoch (epochAt lastSeq.toNat) {0} order) :
    SameEpoch (epochAt lastSeq.toNat) ∅ (0 :: order) := by
  refine ⟨fun d hbelow _ => ?_, by rwa [insert_empty_eq]⟩
  cases d with
  | zero => rfl
  | succ d => exact absurd (hbelow 0 (Nat.succ_pos d)) (Set.notMem_empty 0)

/-- The third message comes before the second, which is the first after the wrap. Once it has expired, the
second comes too late and the fourth is the next to come out. -/
theorem sequence_delivered_wrapping :
    ∃ answers b, Run.runAll step beforeWrap init = .ok (answers, b) ∧
      DeliversAll true b 4 following (fun _ => 60) [0, 2, 1, 3] ∧
      ∃ outs b₁ s released b₂ outs' b₃,
        Run.runAll (present true) (arrivalsOf following (fun _ => 60) [0, 2]) b = .ok (outs, b₁) ∧
        b₁.sweepExpiredHolds 200 orderingHoldCount = .ok s ∧
        drain 5 (orderingHoldCount + 1) s.buffer = .ok (released, b₂) ∧
        Run.runAll (present true) (arrivalsOf following (fun _ => 60) [1, 3]) b₂ = .ok (outs', b₃) ∧
        released ++ delivered outs' = [following 3] := by
  have hends : Run.Ends step beforeWrap init fun b => b.cursor? 5 = some lastSeq ∧ b.holdCount 5 = 0 ∧
      Run.Yields (present true) (arrivalsOf following (fun _ => 60) [0, 2]) b fun outs b₁ =>
        outs.all (fun o => !decide o.Full) ∧ (∀ i : Fin orderingHoldCount, b₁.hold[i].active = true ↔ i = 0) ∧
        (b₁.hold[(0 : Fin orderingHoldCount)].env.sourceId = 5 ∧
          b₁.hold[(0 : Fin orderingHoldCount)].env.sequenceNum ≠ lastSeq ∧
          ExpiredAt 200 b₁.hold[(0 : Fin orderingHoldCount)].env) ∧
        Succeeds (b₁.sweepExpiredHolds 200 orderingHoldCount) fun s =>
          Succeeds (drain 5 (orderingHoldCount + 1) s.buffer) fun r =>
            Run.Yields (present true) (arrivalsOf following (fun _ => 60) [1, 3]) r.2 fun outs' _ =>
              outs'.all (fun o => !decide o.Full) := by decide +kernel
  obtain ⟨answers, b, hrun, hcur, hidle, hyields⟩ := hends.exists
  obtain ⟨outs, b₁, hbefore, hroom, honly, ⟨hsrc, hlast, hexp⟩, hsucceeds⟩ := hyields.exists
  have sends : Sends 5 lastSeq 4 following := fun p hp => by
    have hall : ∀ p < 4, ¬ envelopeIsControl (following p) ∧ (following p).sourceId = 5 ∧
        (following p).sequenceNum = nextSeq^[p] lastSeq := by decide
    exact hall p hp
  obtain ⟨hwhole, hlater⟩ := sequence_delivered true hrun hcur hidle sends
    (fun _ => by decide : ∀ _ : ℕ, (60 : UInt64) > 0) (by decide : [0, 2, 1, 3].Perm (List.range 4))
  have hheld : b₁.hold[(0 : Fin orderingHoldCount)].env ∈ b₁.heldOf 5 := ⟨⟨0, (honly 0).mpr rfl, rfl⟩, hsrc⟩
  have hnot (o : Presented) (ho : o ∈ outs) : ¬ o.Full := by simpa using List.all_eq_true.mp hroom o ho
  have hone (y : MessageEnvelope) (hy : y ∈ b₁.heldOf 5) : y = b₁.hold[(0 : Fin orderingHoldCount)].env := by
    obtain ⟨⟨i, hi, rfl⟩, -⟩ := hy
    rw [(honly i).mp hi]
  obtain ⟨p, hp, hmsg, s, hsweep, -, hrest⟩ := hlater [0, 2] [1, 3] 200 rfl (by decide)
    (sameEpoch_first (sameEpoch_following rfl (by simp) (by simp))) outs b₁ hbefore hnot _ hheld hlast hexp
    fun y hy _ => hone y hy
  have hswept : p = 2 := by
    rcases List.mem_pair.mp hp with rfl | rfl
    · exact absurd (congrArg MessageEnvelope.sequenceNum hmsg).symm hlast
    · rfl
  subst hswept
  obtain ⟨released, b₂, outs', b₃, hdrain, hafter, hout⟩ :=
    hrest (sameEpoch_following (.inl List.mem_cons_self) (by simp; omega) (by simp))
  obtain ⟨s', hsweep', hsucceeds⟩ := hsucceeds.exists
  cases hsweep.symm.trans hsweep'
  obtain ⟨⟨released', b₂'⟩, hdrain', hyields'⟩ := hsucceeds.exists
  cases hdrain.symm.trans hdrain'
  obtain ⟨outs'', b₃', hafter', hroom'⟩ := hyields'.exists
  cases hafter.symm.trans hafter'
  refine ⟨answers, b, hrun, hwhole (sameEpoch_first (sameEpoch_following rfl (by simp) (by simp))),
    outs, b₁, s, released, b₂, outs', b₃, hbefore, hsweep, hdrain, hafter, hout fun o ho => ?_⟩
  simpa using List.all_eq_true.mp hroom' o ho

/-- The messages around the wrap. -/
def aroundWrap (p : ℕ) : MessageEnvelope := heldMessage (if p = 0 then lastSeq else 1) 0

/-- The message after the wrap comes first, is taken for an old one, and never comes out. -/
theorem wrapped_message_lost :
    ∃ answers b, Run.runAll step beforeWrap init = .ok (answers, b) ∧ b.cursor? 5 = some lastSeq ∧
      b.holdCount 5 = 0 ∧ Sends 5 lastSeq 2 aroundWrap ∧
      ¬ DeliversAll true b 2 aroundWrap (fun _ => 60) [1, 0] := by
  have hends : Run.Ends step beforeWrap init fun b => b.cursor? 5 = some lastSeq ∧ b.holdCount 5 = 0 ∧
      Run.Yields (present true) (arrivalsOf aroundWrap (fun _ => 60) [1, 0]) b fun outs _ =>
        outs.all (fun o => !decide o.Full) ∧ (delivered outs).length = 1 := by decide +kernel
  obtain ⟨answers, b, hrun, hcur, hidle, hyields⟩ := hends.exists
  obtain ⟨outs, b', hpresent, hroom, hlost⟩ := hyields.exists
  refine ⟨answers, b, hrun, hcur, hidle, fun p hp => ?_, fun hall => ?_⟩
  · have hsent : ∀ p < 2, ¬ envelopeIsControl (aroundWrap p) ∧ (aroundWrap p).sourceId = 5 ∧
        (aroundWrap p).sequenceNum = nextSeq^[p] lastSeq := by decide
    exact hsent p hp
  · obtain ⟨outs', b'', hpresent', hout⟩ := hall
    rw [hpresent] at hpresent'
    cases hpresent'
    have hdelivered := hout fun o ho => by simpa using List.all_eq_true.mp hroom o ho
    have hlength := congrArg List.length hdelivered
    rw [hlost, stretch, List.length_map, List.length_range'] at hlength
    exact absurd hlength (by decide)

end OrderingBuffer

end MessageEngine
