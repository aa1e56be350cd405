import MessageEngine.Laws.Impairment.Conservation

/-!
# How long a message waits

A message that is sent out is due after the fixed latency and a jitter, its copy 100 us later. The first sum
saturates where the clock ends; the 100 us of the copy are added without, and a copy drawn within the last
100 us of the clock is due long before its message.

## What is proved

- `delay_respected_iff`: neither the message nor its copy leaves the buffer before the least delay, and no
  sum wraps, exactly when no such copy is drawn;
- `late_copy_collected_early`: a copy that leaves before its message was due.
-/

namespace MessageEngine

open Outcome Table

namespace ImpairmentEngine

variable {e e' : ImpairmentEngine} {env : MessageEnvelope} {nowUs : UInt64} {i j : Fin impairDelayBufSize}

/-! ## One slot over a run -/

/-- What one call does to the slots in use: a message leaves only in a collection, when it is due. -/
structure Moves (e : ImpairmentEngine) (call : Call) (e' : ImpairmentEngine) : Prop where
  counted : e'.Counted
  cfg : e'.cfg = e.cfg
  kept : ∀ i : Fin impairDelayBufSize, e.delayBuf[i].active = true →
    e'.delayBuf[i] = e.delayBuf[i] ∨ (e'.delayBuf[i].active = false ∧
      ∃ laterUs bufCap, call = .collectDeliverable laterUs bufCap ∧ e.delayBuf[i].releaseUs ≤ laterUs)

theorem SameDelays.moves {call : Call} (same : SameDelays e e') (counted : e.Counted) : Moves e call e' := by
  refine ⟨same.counted counted, same.cfg, fun i _ => .inl ?_⟩
  rw [same.buf]

theorem put_slot {releaseUs : UInt64} (i j : Fin impairDelayBufSize) :
    (e.put i env releaseUs).delayBuf[j] = if i = j then ⟨env, releaseUs, true⟩ else e.delayBuf[j] :=
  getElem_set_fin e.delayBuf i j _

theorem put_slot_of_active {releaseUs : UInt64} (free : e.delayBuf[i].active = false)
    (active : e.delayBuf[j].active = true) : (e.put i env releaseUs).delayBuf[j] = e.delayBuf[j] := by
  rw [put_slot, if_neg]
  intro hij
  rw [hij, active] at free
  cases free

theorem Outbound.moves {res : Result} {call : Call} (h : Outbound e env nowUs res e') (counted : e.Counted) :
    Moves e call e' := by
  cases h with
  | refused same why => exact same.moves counted
  | @queued i releaseUs _ due free single same =>
    have hfree := freeSlot?_inactive free
    refine ⟨same.counted (counted.put hfree), same.cfg, fun k active => .inl ?_⟩
    rw [same.buf]
    exact put_slot_of_active hfree active
  | @duplicated i j releaseUs jitterUs _ due free next copies delay same =>
    have hfree := freeSlot?_inactive free
    have hnext := freeSlot?_inactive next
    refine ⟨same.counted ((counted.put hfree).put hnext), same.cfg, fun k active => .inl ?_⟩
    rw [same.buf]
    have hkept : (e.put i env releaseUs).delayBuf[k] = e.delayBuf[k] := put_slot_of_active hfree active
    have hactive : (e.put i env releaseUs).delayBuf[k].active = true := by
      rw [hkept]
      exact active
    exact (put_slot_of_active hnext hactive).trans hkept

/-- Every call moves messages so. -/
theorem step_moves {call : Call} {a : Answer} (counted : e.Counted) (h : step call e = .ok (a, e')) :
    Moves e call e' := by
  cases call with
  | processOutbound inEnv nowUs =>
    obtain ⟨⟨res, e₁⟩, hcall, h⟩ := bind_eq_ok.mp h
    cases h
    exact (processOutbound_spec counted hcall).moves counted
  | collectDeliverable nowUs bufCap =>
    obtain ⟨⟨out, e₁⟩, hcall, h⟩ := bind_eq_ok.mp h
    cases h
    have hcap : bufCap > 0 := (ensure_bind_eq_ok.mp hcall).1
    obtain ⟨out', e₂, hspec, collects⟩ := collectDeliverable_spec counted nowUs hcap
    rw [hcall] at hspec
    cases hspec
    refine ⟨collects.counted, collects.cfg, fun i _ => ?_⟩
    have hslot := collects.slots i
    by_cases htaken : i ∈ e.taken nowUs bufCap impairDelayBufSize
    · rw [if_pos htaken] at hslot
      refine .inr ⟨?_, nowUs, bufCap, rfl, (mem_taken htaken).2.2⟩
      exact congrArg DelayEntry.active hslot
    · rw [if_neg htaken] at hslot
      exact .inl hslot
  | processInbound inEnv nowUs bufCap =>
    obtain ⟨⟨⟨res, out⟩, e₁⟩, hcall, h⟩ := bind_eq_ok.mp h
    cases h
    exact (processInbound_delays hcall).moves counted
  | isPartitionActive nowUs =>
    obtain ⟨⟨active, e₁⟩, hcall, h⟩ := bind_eq_ok.mp h
    cases h
    obtain ⟨⟨_, _, _, rfl⟩, -⟩ := isPartitionActive_frame hcall
    exact SameDelays.moves ⟨rfl, rfl, rfl, rfl⟩ counted

/-- In every state the engine reaches the counter counts, and the configuration is the one it was given. -/
theorem reaches_counted {cfg : ImpairmentConfig} {entropy : UInt64} {start : ImpairmentEngine}
    (hinit : init cfg entropy = .ok start) {calls : List Call} {answers : List Answer}
    (run : Run.runAll step calls start = .ok (answers, e)) : e.Counted ∧ e.cfg = cfg := by
  obtain ⟨hcounted, -, -, hcfg⟩ := delays_init hinit
  refine Run.runAll_inv (I := fun e => e.Counted ∧ e.cfg = cfg) (fun call _ e₁ a e₂ h hstep => ?_) ⟨hcounted, hcfg⟩ run
  have hmoves := step_moves h.1 hstep
  exact ⟨hmoves.counted, hmoves.cfg.trans h.2⟩

/-- The slot holds `s` as long as it is in use. -/
def Holds (i : Fin impairDelayBufSize) (s : DelayEntry) (past : List Taken) (e : ImpairmentEngine) : Prop :=
  e.Counted ∧ ((∀ t ∈ past, t.after.delayBuf[i].active = true) → e.delayBuf[i] = s)

theorem Holds.step {s : DelayEntry} {past : List Taken} {call : Call} {a : Answer} (active : s.active = true)
    (h : Holds i s past e) (hcall : ImpairmentEngine.step call e = .ok (a, e')) :
    Holds i s (past ++ [⟨e, call, a, e'⟩]) e' := by
  have hmoves := step_moves h.1 hcall
  refine ⟨hmoves.counted, fun hall => ?_⟩
  have hsame := h.2 fun t ht => hall t (List.mem_append_left _ ht)
  have hafter : e'.delayBuf[i].active = true := hall _ List.mem_concat_self
  have hbefore : e.delayBuf[i].active = true := by
    rw [hsame]
    exact active
  rcases hmoves.kept i hbefore with heq | ⟨hleft, -⟩
  · exact heq.trans hsame
  · rw [hafter] at hleft
    cases hleft

/-- A slot that was in use all along holds what it held. -/
theorem slot_kept {calls : List Call} {answers : List Answer} (counted : e.Counted)
    (active : e.delayBuf[i].active = true) (run : Run.runAll step calls e = .ok (answers, e'))
    (waits : ∀ t ∈ Run.history step calls e, t.after.delayBuf[i].active = true) :
    e'.Counted ∧ e'.delayBuf[i] = e.delayBuf[i] := by
  have hstart : Holds i e.delayBuf[i] [] e := ⟨counted, fun _ => rfl⟩
  have hlast := Run.runAll_history (fun call _ past c a c' h hcall => h.step active hcall) hstart run
  exact ⟨hlast.1, hlast.2 waits⟩

/-! ## The delay of a message and of its copy -/

/-- The earliest time at which a message sent now may be collected. -/
def earliest (e : ImpairmentEngine) (nowUs : UInt64) : ℕ :=
  releaseTime nowUs.toNat (e.cfg.fixedLatencyMs.toNat + minJitterMs e.cfg)

/-- The call put a message into the slot. -/
def Filled (e e' : ImpairmentEngine) (i : Fin impairDelayBufSize) : Prop :=
  e.delayBuf[i].active = false ∧ e'.delayBuf[i].active = true

/-- The release time is the sum it is meant to be, of a message or of a copy. -/
def Unwrapped (e : ImpairmentEngine) (nowUs releaseUs : UInt64) : Prop :=
  ∃ ms, minJitterMs e.cfg ≤ ms ∧ ms ≤ maxJitterMs e.cfg ∧
    (releaseUs.toNat = releaseTime nowUs.toNat (e.cfg.fixedLatencyMs.toNat + ms) ∨
      releaseUs.toNat = releaseTime nowUs.toNat (e.cfg.fixedLatencyMs.toNat + ms) + 100)

/-- The delay of a message accepted now is respected, whatever is called afterwards. -/
structure Respected (e : ImpairmentEngine) (env : MessageEnvelope) (nowUs : UInt64) (e' : ImpairmentEngine) :
    Prop where
  accepted : ∃ i, Filled e e' i
  sums : ∀ i, Filled e e' i → e'.delayBuf[i].env = env ∧ e.Unwrapped nowUs e'.delayBuf[i].releaseUs
  waits : ∀ i, Filled e e' i → ∀ (calls : List Call) (answers : List Answer) (e₁ : ImpairmentEngine),
    Run.runAll step calls e' = .ok (answers, e₁) →
    (∀ t ∈ Run.history step calls e', t.after.delayBuf[i].active = true) →
    ∀ (call : Call) (a : Answer) (e₂ : ImpairmentEngine), step call e₁ = .ok (a, e₂) →
      e₂.delayBuf[i].active = false →
      e₁.delayBuf[i].env = env ∧
        ∃ laterUs bufCap, call = .collectDeliverable laterUs bufCap ∧ e.earliest nowUs ≤ laterUs.toNat

/-- A copy of a message sent now is drawn, and the 100 us that are added to its release time run past the
end of the clock. -/
def CopyWraps (e : ImpairmentEngine) (nowUs : UInt64) : Prop :=
  ∃ jitterUs, e.Copies nowUs jitterUs ∧
    18446744073709551616 ≤ nowUs.toNat + 1000 * e.cfg.fixedLatencyMs.toNat + jitterUs.toNat + 100

theorem Unwrapped.earliest_le {releaseUs : UInt64} (h : e.Unwrapped nowUs releaseUs) :
    e.earliest nowUs ≤ releaseUs.toNat := by
  obtain ⟨ms, hmin, -, hrelease⟩ := h
  rw [earliest]
  unfold releaseTime at hrelease ⊢
  omega

/-- When the sums do not wrap, every slot the call filled waits long enough. -/
theorem Respected.of_sums (counted : e'.Counted) (accepted : ∃ i, Filled e e' i)
    (sums : ∀ i, Filled e e' i → e'.delayBuf[i].env = env ∧ e.Unwrapped nowUs e'.delayBuf[i].releaseUs) :
    Respected e env nowUs e' := by
  refine ⟨accepted, sums, fun i filled calls answers e₁ run waits call a e₂ hstep hleft => ?_⟩
  obtain ⟨henv, hrelease⟩ := sums i filled
  obtain ⟨hcounted, hslot⟩ := slot_kept counted filled.2 run waits
  have hactive : e₁.delayBuf[i].active = true := by
    rw [hslot]
    exact filled.2
  rcases (step_moves hcounted hstep).kept i hactive with heq | ⟨-, laterUs, bufCap, hcall, hdue⟩
  · rw [heq, hactive] at hleft
    cases hleft
  · rw [hslot] at hdue ⊢
    exact ⟨henv, laterUs, bufCap, hcall, hrelease.earliest_le.trans (UInt64.le_iff_toNat_le.mp hdue)⟩

/-- The slot a call put its message into is filled. -/
theorem filled_put {releaseUs : UInt64} (free : e.freeSlot? = some i) : Filled e (e.put i env releaseUs) i := by
  refine ⟨freeSlot?_inactive free, ?_⟩
  rw [put_slot, if_pos rfl]

/-- No other slot is filled. -/
theorem filled_of_put {releaseUs : UInt64} (filled : Filled e (e.put i env releaseUs) j) : j = i := by
  by_contra hne
  obtain ⟨hbefore, hafter⟩ := filled
  rw [put_slot, if_neg (Ne.symm hne), hbefore] at hafter
  cases hafter

theorem DueAt.unwrapped {releaseUs : UInt64} (hon : e.cfg.enabled = true) (due : e.DueAt nowUs releaseUs) :
    e.Unwrapped nowUs releaseUs := by
  rw [DueAt, if_pos hon] at due
  obtain ⟨ms, hmin, hmax, hrelease⟩ := due
  exact ⟨ms, hmin, hmax, .inl hrelease⟩

/-- The jitter of a copy is the one drawn. -/
theorem Copies.jitter_eq {jitterUs jitterUs' : UInt64} (h : e.Copies nowUs jitterUs)
    (h' : e.Copies nowUs jitterUs') : jitterUs = jitterUs' := by
  have heq := h.2.1.symm.trans h'.2.1
  exact congrArg Prod.snd (Except.ok.inj heq)

theorem Copies.jitter_lt {jitterUs : UInt64} (h : e.Copies nowUs jitterUs) :
    jitterUs.toNat < 1000 * 4294967296 := by
  obtain ⟨-, h, -⟩ := h
  obtain ⟨⟨_, e₁⟩, -, h⟩ := bind_eq_ok.mp h
  obtain ⟨⟨_, e₂⟩, -, h⟩ := bind_eq_ok.mp h
  obtain ⟨⟨jitter, e₃⟩, hjitter, h⟩ := bind_eq_ok.mp h
  obtain ⟨⟨_, _⟩, -, h⟩ := bind_eq_ok.mp h
  obtain rfl : jitter = jitterUs := congrArg Prod.snd (Except.ok.inj h)
  obtain ⟨-, ms, hms, hlt, -⟩ := computeJitterUs_spec hjitter
  omega

/-- Without a copy the delay is respected. -/
theorem respected_put {releaseUs : UInt64} (counted : e.Counted) (hon : e.cfg.enabled = true)
    (due : e.DueAt nowUs releaseUs) (free : e.freeSlot? = some i) (same : SameDelays (e.put i env releaseUs) e') :
    Respected e env nowUs e' := by
  have hcounted := same.counted (counted.put (freeSlot?_inactive free))
  refine .of_sums hcounted ⟨i, ?_⟩ fun j filled => ?_
  · rw [Filled, same.buf]
    exact filled_put free
  · rw [Filled, same.buf] at filled
    obtain rfl := filled_of_put filled
    rw [same.buf, put_slot, if_pos rfl]
    exact ⟨rfl, due.unwrapped hon⟩

variable {releaseUs jitterUs : UInt64}

/-- After a copy the slot of the copy holds the later release time. -/
theorem filled_copy (free : e.freeSlot? = some i) (next : (e.put i env releaseUs).freeSlot? = some j)
    (same : SameDelays ((e.put i env releaseUs).put j env (releaseUs + 100)).injected e') :
    i ≠ j ∧ (∀ k, Filled e e' k ↔ k = i ∨ k = j) ∧ e'.delayBuf[i] = ⟨env, releaseUs, true⟩ ∧
      e'.delayBuf[j] = ⟨env, releaseUs + 100, true⟩ := by
  have hne : i ≠ j := by
    intro heq
    have hnext := freeSlot?_inactive next
    rw [put_slot, if_pos heq] at hnext
    cases hnext
  have hslot (k : Fin impairDelayBufSize) : e'.delayBuf[k] =
      if j = k then ⟨env, releaseUs + 100, true⟩ else if i = k then ⟨env, releaseUs, true⟩ else e.delayBuf[k] := by
    rw [same.buf]
    change ((e.put i env releaseUs).put j env (releaseUs + 100)).delayBuf[k] = _
    rw [put_slot, put_slot]
  have hi : e'.delayBuf[i] = ⟨env, releaseUs, true⟩ := by
    rw [hslot, if_neg (Ne.symm hne), if_pos rfl]
  have hj : e'.delayBuf[j] = ⟨env, releaseUs + 100, true⟩ := by
    rw [hslot, if_pos rfl]
  refine ⟨hne, fun k => ⟨fun filled => ?_, fun hk => ?_⟩, hi, hj⟩
  · by_contra hnone
    rw [not_or] at hnone
    obtain ⟨hbefore, hafter⟩ := filled
    rw [hslot, if_neg (Ne.symm hnone.2), if_neg (Ne.symm hnone.1), hbefore] at hafter
    cases hafter
  · rcases hk with rfl | rfl
    · exact ⟨freeSlot?_inactive free, congrArg DelayEntry.active hi⟩
    · have hnext := freeSlot?_inactive next
      rw [put_slot, if_neg hne] at hnext
      exact ⟨hnext, congrArg DelayEntry.active hj⟩

/-- With a copy the delay is respected when the 100 us fit. -/
theorem respected_copy (counted : e.Counted) (hon : e.cfg.enabled = true) (due : e.DueAt nowUs releaseUs)
    (free : e.freeSlot? = some i) (next : (e.put i env releaseUs).freeSlot? = some j)
    (fits : releaseUs.toNat + 100 < 18446744073709551616)
    (same : SameDelays ((e.put i env releaseUs).put j env (releaseUs + 100)).injected e') :
    Respected e env nowUs e' := by
  have hcounted : e'.Counted :=
    same.counted ((counted.put (freeSlot?_inactive free)).put (freeSlot?_inactive next))
  obtain ⟨-, hfilled, hi, hj⟩ := filled_copy free next same
  refine .of_sums hcounted ⟨i, (hfilled i).mpr (.inl rfl)⟩ fun k filled => ?_
  rcases (hfilled k).mp filled with rfl | rfl
  · rw [hi]
    exact ⟨rfl, due.unwrapped hon⟩
  · rw [hj]
    rw [DueAt, if_pos hon] at due
    obtain ⟨ms, hmin, hmax, hrelease⟩ := due
    refine ⟨rfl, ms, hmin, hmax, .inr ?_⟩
    rw [UInt64.toNat_add, ← hrelease]
    exact Nat.mod_eq_of_lt fits

/-- With a copy the delay is not respected when they do not. -/
theorem not_respected_copy (free : e.freeSlot? = some i) (next : (e.put i env releaseUs).freeSlot? = some j)
    (wraps : 18446744073709551616 ≤ nowUs.toNat + 1000 * e.cfg.fixedLatencyMs.toNat + jitterUs.toNat + 100)
    (delay : releaseUs.toNat = min 18446744073709551615
      (nowUs.toNat + 1000 * e.cfg.fixedLatencyMs.toNat + jitterUs.toNat))
    (hjitter : jitterUs.toNat < 1000 * 4294967296)
    (same : SameDelays ((e.put i env releaseUs).put j env (releaseUs + 100)).injected e') :
    ¬ Respected e env nowUs e' := by
  intro respected
  obtain ⟨-, hfilled, -, hj⟩ := filled_copy free next same
  obtain ⟨-, ms, -, -, hsum⟩ := respected.sums j ((hfilled j).mpr (.inr rfl))
  have hlatency : e.cfg.fixedLatencyMs.toNat < 4294967296 := e.cfg.fixedLatencyMs.toNat_lt
  have hcopy : (releaseUs + 100).toNat = (releaseUs.toNat + 100) % 18446744073709551616 := UInt64.toNat_add _ _
  rw [hj] at hsum
  unfold releaseTime at hsum
  dsimp only at hsum
  omega

/-- In every state the engine reaches, the delay of a message it accepts is respected, by the message and by
its copy, exactly when no copy is drawn whose release time runs past the end of the clock. -/
theorem delay_respected_iff {cfg : ImpairmentConfig} {entropy : UInt64} {start : ImpairmentEngine}
    (hinit : init cfg entropy = .ok start) (hon : cfg.enabled = true) {calls : List Call} {answers : List Answer}
    (run : Run.runAll step calls start = .ok (answers, e))
    (accepted : step (.processOutbound env nowUs) e = .ok (.outbound .ok, e')) :
    Respected e env nowUs e' ↔ ¬ e.CopyWraps nowUs := by
  obtain ⟨hcounted, hcfg⟩ := reaches_counted hinit run
  have hon : e.cfg.enabled = true := by
    rw [hcfg]
    exact hon
  obtain ⟨⟨res, e₁⟩, hcall, h⟩ := bind_eq_ok.mp accepted
  cases h
  cases processOutbound_spec hcounted hcall with
  | refused _ why =>
    rcases why with h | ⟨h, -⟩
    · cases h
    · cases h
  | queued due free single same =>
    refine iff_of_true (respected_put hcounted hon due free same) ?_
    rintro ⟨jitterUs, copies, -⟩
    exact single jitterUs copies
  | @duplicated i j releaseUs jitterUs _ due free next copies delay same =>
    constructor
    · rintro respected ⟨jitterUs', hcopies, wraps⟩
      obtain rfl := copies.2.jitter_eq hcopies
      refine not_respected_copy free next wraps delay ?_ same respected
      exact copies.2.jitter_lt
    · intro hfits
      refine respected_copy hcounted hon due free next ?_ same
      by_contra hlate
      exact hfits ⟨jitterUs, copies.2, by omega⟩

theorem delay_respected_iff_doubling :
    ∃ start e', init doubling 0 = .ok start ∧
      step (.processOutbound (someMessage 0) 1000) start = .ok (.outbound .ok, e') ∧
      Respected start (someMessage 0) 1000 e' := by
  have hsucceeds : Succeeds (init doubling 0) fun start =>
      Succeeds (start.processOutbound (someMessage 0) 1000) fun r => r.1 = .ok := by decide +kernel
  obtain ⟨start, hinit, hsend⟩ := hsucceeds.exists
  obtain ⟨⟨res, e'⟩, hsend, hres⟩ := hsend.exists
  obtain rfl : res = .ok := hres
  have accepted : step (.processOutbound (someMessage 0) 1000) start = .ok (.outbound .ok, e') := by
    rw [step, hsend]
    rfl
  have hnone : Run.runAll step [] start = .ok ([], start) := rfl
  refine ⟨start, e', hinit, accepted, (delay_respected_iff hinit rfl hnone accepted).mpr ?_⟩
  rintro ⟨jitterUs, copies, wraps⟩
  have hcfg : start.cfg = doubling := (delays_init hinit).2.2.2
  have hlt := copies.jitter_lt
  have hnow : (1000 : UInt64).toNat = 1000 := rfl
  have hlatency : start.cfg.fixedLatencyMs.toNat = 1 := by
    rw [hcfg]
    rfl
  omega

/-- 1050 us before the end of the clock. -/
def lateUs : UInt64 := 18446744073709550566

/-- The copy of a message that takes a millisecond is collected in the instant the message is sent. -/
theorem late_copy_collected_early :
    ∃ start sent out e, init doubling 0 = .ok start ∧
      start.processOutbound (someMessage 0) lateUs = .ok (.ok, sent) ∧
      sent.collectDeliverable lateUs 4 = .ok (out, e) ∧ out.length = 1 ∧
      lateUs.toNat < releaseTime lateUs.toNat (doubling.fixedLatencyMs.toNat + minJitterMs doubling) := by
  have hsucceeds : Succeeds (init doubling 0) fun start =>
      Succeeds (start.processOutbound (someMessage 0) lateUs) fun r => r.1 = .ok ∧
        Succeeds (r.2.collectDeliverable lateUs 4) fun r' => r'.1.length = 1 := by decide +kernel
  obtain ⟨start, hinit, hsend⟩ := hsucceeds.exists
  obtain ⟨⟨res, sent⟩, hsend, hres, hcollect⟩ := hsend.exists
  obtain ⟨⟨out, e⟩, hcollect, hone⟩ := hcollect.exists
  obtain rfl : res = .ok := hres
  exact ⟨start, sent, out, e, hinit, hsend, hcollect, hone, by decide⟩

end ImpairmentEngine

end MessageEngine
