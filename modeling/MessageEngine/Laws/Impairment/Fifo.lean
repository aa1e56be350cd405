import MessageEngine.Laws.Impairment.Latency
import Mathlib.Data.List.Sort

/-!
# The order of a fixed latency

With nothing but a fixed latency, messages are due in the order they were sent. The delay buffer is no
queue: a message goes into the first free slot, and a collection takes the due slots from the first to the
last. A message sent into a slot that a collection has freed overtakes the ones in the slots above, when it is
collected together with them.

## What is proved

- `fixed_latency_fifo`: when at every collection the due slots come in the order in which they were filled,
  the messages come out in the order they were sent;
- `reused_slot_overtakes`: three messages of which the third comes out before the second.
-/

namespace MessageEngine

open Outcome Table

namespace ImpairmentEngine

variable {e e' : ImpairmentEngine} {env : MessageEnvelope} {nowUs : UInt64} {cfg : ImpairmentConfig}
  {i : Fin impairDelayBufSize} {past : List Taken} {t : Taken}

/-- Nothing but a latency. -/
structure FixedLatency (cfg : ImpairmentConfig) : Prop where
  enabled : cfg.enabled = true
  lossless : cfg.lossProbability ≤ 0
  single : cfg.duplicationProbability ≤ 0
  steady : cfg.jitterMeanMs = 0
  whole : cfg.partitionEnabled = false

def Call.timeUs : Call → UInt64
  | .processOutbound _ nowUs | .collectDeliverable nowUs _ | .processInbound _ nowUs _ | .isPartitionActive nowUs =>
    nowUs

/-- A message is sent, or all that are due are collected. -/
def Call.SendsOrCollects : Call → Prop
  | .processOutbound _ _ => True
  | .collectDeliverable _ bufCap => impairDelayBufSize ≤ bufCap
  | .processInbound _ _ _ | .isPartitionActive _ => False

/-- The message the call sent. -/
def sentIn (t : Taken) : Option MessageEnvelope :=
  match t.input with
  | .processOutbound inEnv _ => some inEnv
  | _ => none

/-- Messages are sent and collected as time goes on, and none is refused. -/
structure Orderly (past : List Taken) : Prop where
  only : ∀ t ∈ past, t.input.SendsOrCollects
  sorted : past.Pairwise fun t t' => t.input.timeUs ≤ t'.input.timeUs
  room : ∀ t ∈ past, t.output ≠ .outbound .errFull

/-- The slots the call filled. -/
def filledIn (t : Taken) : List (Fin impairDelayBufSize) :=
  (List.finRange impairDelayBufSize).filter fun i => !t.before.delayBuf[i].active && t.after.delayBuf[i].active

/-- The slots in use, in the order in which they were filled. -/
def order (past : List Taken) : List (Fin impairDelayBufSize) :=
  past.foldl (fun slots t => slots.filter (fun i => t.after.delayBuf[i].active) ++ filledIn t) []

/-- At a collection the due slots, in the order in which they were filled, go up. -/
def InOrder (past : List Taken) (t : Taken) : Prop :=
  match t.input with
  | .collectDeliverable nowUs _ =>
    ((order past).filter fun i => isDue nowUs t.before.delayBuf[i]).Pairwise (· < ·)
  | _ => True

theorem order_snoc : order (past ++ [t]) =
    (order past).filter (fun i => t.after.delayBuf[i].active) ++ filledIn t := by
  rw [order, List.foldl_append]
  rfl

theorem Orderly.init (h : Orderly (past ++ [t])) : Orderly past :=
  ⟨fun t' ht => h.only t' (List.mem_append_left _ ht), (List.pairwise_append.mp h.sorted).1,
    fun t' ht => h.room t' (List.mem_append_left _ ht)⟩

/-- What is sorted by an order that a property respects begins with the elements that have it. -/
theorem filter_append_filter_of_sorted {α : Type} {r : α → α → Prop} {p : α → Bool} {l : List α}
    (sorted : l.Pairwise r) (down : ∀ a b, r a b → p b = true → p a = true) :
    l.filter p ++ l.filter (fun a => !p a) = l := by
  induction l with
  | nil => rfl
  | cons a l ih =>
    obtain ⟨hhead, htail⟩ := List.pairwise_cons.mp sorted
    cases ha : p a with
    | true =>
      rw [List.filter_cons_of_pos ha, List.filter_cons_of_neg (by rw [ha]; exact Bool.false_ne_true),
        List.cons_append, ih htail]
    | false =>
      have hnone : l.filter p = [] := by
        rw [List.filter_eq_nil_iff]
        intro b hb hpb
        rw [down a b (hhead b hb) hpb] at ha
        cases ha
      have hnone' : (a :: l).filter p = [] := by
        rw [List.filter_cons_of_neg (by rw [ha]; exact Bool.false_ne_true), hnone]
      have hrest := ih htail
      rw [hnone, List.nil_append] at hrest
      rw [hnone', List.nil_append, List.filter_cons_of_pos (by rw [ha]; rfl), hrest]

/-- The engine after the calls in `past`: the messages that wait are the last ones sent, in the order of the
slots' filling, and they are due in that order. -/
structure Fifo (cfg : ImpairmentConfig) (past : List Taken) (e : ImpairmentEngine) : Prop where
  counted : e.Counted
  same : e.cfg = cfg
  slots : ∀ i, i ∈ order past ↔ e.delayBuf[i].active = true
  nodup : (order past).Nodup
  sorted : (order past).Pairwise fun i j => e.delayBuf[i].releaseUs ≤ e.delayBuf[j].releaseUs
  sent : ∀ i ∈ order past, ∃ t ∈ past,
    e.delayBuf[i].releaseUs.toNat = releaseTime t.input.timeUs.toNat cfg.fixedLatencyMs.toNat
  conserved : past.flatMap collectedIn ++ (order past).map (fun i => e.delayBuf[i].env) = past.filterMap sentIn

/-- With nothing but a latency a message is due after it. -/
theorem FixedLatency.due {releaseUs : UInt64} (fixed : FixedLatency e.cfg) (due : e.DueAt nowUs releaseUs) :
    releaseUs.toNat = releaseTime nowUs.toNat e.cfg.fixedLatencyMs.toNat := by
  rw [DueAt, if_pos fixed.enabled] at due
  obtain ⟨ms, -, hmax, hrelease⟩ := due
  rw [maxJitterMs, if_pos fixed.steady] at hmax
  obtain rfl := Nat.le_zero.mp hmax
  exact hrelease

/-- The one slot that a message was put into. -/
theorem filledIn_put {call : Call} {a : Answer} {releaseUs : UInt64} (free : e.freeSlot? = some i)
    (same : SameDelays (e.put i env releaseUs) e') : filledIn ⟨e, call, a, e'⟩ = [i] := by
  have hmem (j : Fin impairDelayBufSize) : j ∈ filledIn ⟨e, call, a, e'⟩ ↔ j ∈ [i] := by
    rw [filledIn, List.mem_filter, Bool.and_eq_true, Bool.not_eq_true', same.buf, List.mem_singleton]
    refine ⟨fun h => filled_of_put h.2, ?_⟩
    rintro rfl
    exact ⟨List.mem_finRange j, filled_put free⟩
  have hnodup : (filledIn ⟨e, call, a, e'⟩).Nodup := (List.nodup_finRange _).filter _
  exact List.perm_singleton.mp ((List.perm_ext_iff_of_nodup hnodup (List.nodup_singleton i)).mpr hmem)

/-- A message is sent. -/
theorem Fifo.send {res : Result} {releaseUs : UInt64} (h : Fifo cfg past e)
    (orderly : Orderly (past ++ [⟨e, .processOutbound env nowUs, .outbound res, e'⟩]))
    (release : releaseUs.toNat = releaseTime nowUs.toNat cfg.fixedLatencyMs.toNat) (free : e.freeSlot? = some i)
    (same : SameDelays (e.put i env releaseUs) e') :
    Fifo cfg (past ++ [⟨e, .processOutbound env nowUs, .outbound res, e'⟩]) e' := by
  have hfree := freeSlot?_inactive free
  have hkept (j : Fin impairDelayBufSize) (hj : j ∈ order past) : e'.delayBuf[j] = e.delayBuf[j] := by
    rw [same.buf]
    exact put_slot_of_active hfree ((h.slots j).mp hj)
  have hslot : e'.delayBuf[i] = ⟨env, releaseUs, true⟩ := by
    rw [same.buf, put_slot, if_pos rfl]
  have hnew : i ∉ order past := by
    rw [h.slots i, hfree]
    exact Bool.false_ne_true
  have horder : order (past ++ [⟨e, .processOutbound env nowUs, .outbound res, e'⟩]) = order past ++ [i] := by
    rw [order_snoc, filledIn_put free same, List.filter_eq_self.mpr]
    intro j hj
    rw [hkept j hj]
    exact (h.slots j).mp hj
  refine ⟨same.counted (h.counted.put hfree), same.cfg.trans h.same, fun j => ?_, ?_, ?_, fun j hj => ?_, ?_⟩
  · rw [horder, List.mem_append, List.mem_singleton]
    by_cases hij : j = i
    · rw [hij, hslot]
      exact iff_of_true (.inr rfl) rfl
    · rw [same.buf, put_slot, if_neg (Ne.symm hij), or_iff_left hij]
      exact h.slots j
  · rw [horder]
    rw [← List.concat_eq_append]
    exact h.nodup.concat hnew
  · rw [horder, List.pairwise_append]
    refine ⟨h.sorted.imp_of_mem fun {j k} hj hk hle => ?_, List.pairwise_singleton _ _, fun j hj k hk => ?_⟩
    · rw [hkept j hj, hkept k hk]
      exact hle
    · obtain rfl := List.mem_singleton.mp hk
      obtain ⟨t, ht, hsent⟩ := h.sent j hj
      have hlater := (List.pairwise_append.mp orderly.sorted).2.2 t ht _ (List.mem_singleton_self _)
      have hlater := UInt64.le_iff_toNat_le.mp hlater
      change t.input.timeUs.toNat ≤ nowUs.toNat at hlater
      rw [hkept j hj, hslot, UInt64.le_iff_toNat_le, hsent, release]
      unfold releaseTime
      omega
  · rw [horder, List.mem_append, List.mem_singleton] at hj
    rcases hj with hj | rfl
    · obtain ⟨t, ht, hsent⟩ := h.sent j hj
      rw [hkept j hj]
      exact ⟨t, List.mem_append_left _ ht, hsent⟩
    · rw [hslot]
      exact ⟨_, List.mem_concat_self, release⟩
  · have hmap : (order past).map (fun j => e'.delayBuf[j].env) = (order past).map fun j => e.delayBuf[j].env :=
      List.map_congr_left fun j hj => by rw [hkept j hj]
    have hcollected : collectedIn ⟨e, .processOutbound env nowUs, .outbound res, e'⟩ = [] := rfl
    rw [horder, List.map_append, hmap, List.flatMap_append, List.flatMap_singleton, hcollected, List.append_nil,
      ← List.append_assoc, h.conserved, List.filterMap_append, List.map_singleton, hslot]
    rfl

section Collecting

variable {bufCap : Nat} {out : List MessageEnvelope}

/-- With room for all of them the due slots are emptied, and no other. -/
theorem Collects.slot (collects : Collects e nowUs bufCap impairDelayBufSize (out, e'))
    (hcap : impairDelayBufSize ≤ bufCap) (j : Fin impairDelayBufSize) : e'.delayBuf[j] =
      if isDue nowUs e.delayBuf[j] = true then { e.delayBuf[j] with active := false } else e.delayBuf[j] := by
  have hmem : j ∈ e.taken nowUs bufCap impairDelayBufSize ↔ isDue nowUs e.delayBuf[j] = true := mem_picks_all hcap
  rw [← if_congr hmem rfl rfl]
  exact collects.slots j

theorem Collects.active (collects : Collects e nowUs bufCap impairDelayBufSize (out, e'))
    (hcap : impairDelayBufSize ≤ bufCap) (j : Fin impairDelayBufSize) :
    e'.delayBuf[j].active = (e.delayBuf[j].active && !isDue nowUs e.delayBuf[j]) := by
  rw [collects.slot hcap]
  split
  case isTrue hj => rw [hj, Bool.not_true, Bool.and_false]
  case isFalse hj => rw [Bool.not_eq_true _ |>.mp hj, Bool.not_false, Bool.and_true]

/-- The slots that are not due are left in use, in their order. -/
theorem order_collect (h : Fifo cfg past e) (collects : Collects e nowUs bufCap impairDelayBufSize (out, e'))
    (hcap : impairDelayBufSize ≤ bufCap) :
    order (past ++ [⟨e, .collectDeliverable nowUs bufCap, .collected out, e'⟩]) =
      (order past).filter fun i => !isDue nowUs e.delayBuf[i] := by
  have hnone : filledIn ⟨e, .collectDeliverable nowUs bufCap, .collected out, e'⟩ = [] := by
    rw [filledIn, List.filter_eq_nil_iff]
    intro j _
    rw [collects.active hcap]
    cases e.delayBuf[j].active
    · exact Bool.false_ne_true
    · exact Bool.false_ne_true
  rw [order_snoc, hnone, List.append_nil]
  refine List.filter_congr fun j hj => ?_
  rw [collects.active hcap, (h.slots j).mp hj, Bool.true_and]

/-- The slots that are due come first in the order. -/
theorem Fifo.due_first (h : Fifo cfg past e) (nowUs : UInt64) :
    (order past).filter (fun i => isDue nowUs e.delayBuf[i]) ++
      (order past).filter (fun i => !isDue nowUs e.delayBuf[i]) = order past := by
  refine filter_append_filter_of_sorted (List.Pairwise.and_mem.mp h.sorted) ?_
  rintro j k ⟨hj, -, hle⟩ hk
  rw [isDue, Bool.and_eq_true, decide_eq_true_iff] at hk ⊢
  exact ⟨(h.slots j).mp hj, UInt64.le_trans hle hk.2⟩

/-- All that is due is collected. -/
theorem Fifo.collect (h : Fifo cfg past e)
    (hcap : impairDelayBufSize ≤ bufCap) (inOrder : InOrder past ⟨e, .collectDeliverable nowUs bufCap, .collected out, e'⟩)
    (collects : Collects e nowUs bufCap impairDelayBufSize (out, e')) :
    Fifo cfg (past ++ [⟨e, .collectDeliverable nowUs bufCap, .collected out, e'⟩]) e' := by
  have htaken : e.taken nowUs bufCap impairDelayBufSize = (order past).filter fun i => isDue nowUs e.delayBuf[i] := by
    apply List.Pairwise.eq_of_mem_iff picks_sorted inOrder
    intro j
    change j ∈ e.taken nowUs bufCap impairDelayBufSize ↔ j ∈ (order past).filter fun i => isDue nowUs e.delayBuf[i]
    rw [List.mem_filter, h.slots j]
    refine (mem_picks_all hcap).trans ⟨fun hdue => ⟨?_, hdue⟩, fun h => h.2⟩
    rw [isDue, Bool.and_eq_true] at hdue
    exact hdue.1
  have horder := order_collect h collects hcap
  have hstays (j : Fin impairDelayBufSize) (hj : j ∈ (order past).filter fun i => !isDue nowUs e.delayBuf[i]) :
      j ∈ order past ∧ e'.delayBuf[j] = e.delayBuf[j] := by
    obtain ⟨hmem, hj⟩ := List.mem_filter.mp hj
    refine ⟨hmem, ?_⟩
    rw [collects.slot hcap, if_neg]
    intro hdue
    rw [hdue] at hj
    cases hj
  refine ⟨collects.counted, collects.cfg.trans h.same, fun j => ?_, ?_, ?_, fun j hj => ?_, ?_⟩
  · rw [horder, List.mem_filter, collects.active hcap, Bool.and_eq_true, h.slots j]
  · rw [horder]
    exact h.nodup.filter _
  · rw [horder]
    refine (h.sorted.filter _).imp_of_mem fun {j k} hj hk hle => ?_
    rw [(hstays j hj).2, (hstays k hk).2]
    exact hle
  · rw [horder] at hj
    obtain ⟨hmem, hsame⟩ := hstays j hj
    obtain ⟨t, ht, hsent⟩ := h.sent j hmem
    rw [hsame]
    exact ⟨t, List.mem_append_left _ ht, hsent⟩
  · have hout : out = ((order past).filter fun i => isDue nowUs e.delayBuf[i]).map fun i => e.delayBuf[i].env := by
      rw [← htaken]
      exact collects.out
    have hrest : ((order past).filter fun i => !isDue nowUs e.delayBuf[i]).map (fun i => e'.delayBuf[i].env) =
        ((order past).filter fun i => !isDue nowUs e.delayBuf[i]).map fun i => e.delayBuf[i].env :=
      List.map_congr_left fun j hj => by rw [(hstays j hj).2]
    have hcollected : collectedIn ⟨e, .collectDeliverable nowUs bufCap, .collected out, e'⟩ = out := rfl
    have hsent : (past ++ [(⟨e, .collectDeliverable nowUs bufCap, .collected out, e'⟩ : Taken)]).filterMap sentIn =
        past.filterMap sentIn := by
      rw [List.filterMap_append]
      exact List.append_nil _
    rw [hsent, horder, hrest, List.flatMap_append, List.flatMap_singleton, hcollected, hout, List.append_assoc,
      ← List.map_append, h.due_first, h.conserved]

end Collecting

/-- One more call keeps the order. -/
theorem Fifo.step {call : Call} {a : Answer} (h : Fifo cfg past e) (fixed : FixedLatency cfg)
    (orderly : Orderly (past ++ [⟨e, call, a, e'⟩])) (inOrder : InOrder past ⟨e, call, a, e'⟩)
    (hstep : ImpairmentEngine.step call e = .ok (a, e')) : Fifo cfg (past ++ [⟨e, call, a, e'⟩]) e' := by
  have only := orderly.only _ List.mem_concat_self
  have room := orderly.room _ List.mem_concat_self
  rw [← h.same] at fixed
  cases call with
  | processInbound | isPartitionActive => exact only.elim
  | collectDeliverable nowUs bufCap =>
    have hcap : impairDelayBufSize ≤ bufCap := only
    obtain ⟨out, e₁, hcall, collects⟩ := collectDeliverable_spec h.counted nowUs (Nat.lt_of_lt_of_le (by decide) hcap)
    rw [ImpairmentEngine.step, hcall] at hstep
    cases hstep
    exact h.collect hcap inOrder collects
  | processOutbound inEnv nowUs =>
    obtain ⟨⟨res, e₁⟩, hcall, hstep⟩ := bind_eq_ok.mp hstep
    cases hstep
    cases processOutbound_spec h.counted hcall with
    | refused same why =>
      rcases why with rfl | ⟨-, -, hpartition | hloss⟩
      · exact absurd rfl room
      · rw [fixed.whole] at hpartition
        cases hpartition
      · exact absurd fixed.lossless hloss
    | queued due free single same =>
      have hdue := fixed.due due
      rw [h.same] at hdue
      exact h.send orderly hdue free same
    | duplicated due free next copies delay same => exact absurd copies.1 (not_lt_of_ge fixed.single)

/-- In every run that sends messages and collects all that are due, with nothing but a latency and no message
refused: when at every collection the due slots come in the order in which they were filled, what came out
is a prefix of what was sent. -/
theorem fixed_latency_fifo {entropy : UInt64} {start : ImpairmentEngine} (hinit : init cfg entropy = .ok start)
    (fixed : FixedLatency cfg) (calls : List Call) (orderly : Orderly (Run.history step calls start))
    (inOrder : Run.Lawful InOrder (Run.history step calls start)) :
    (Run.history step calls start).flatMap collectedIn <+: (Run.history step calls start).filterMap sentIn := by
  obtain ⟨hcounted, -, -, hcfg⟩ := delays_init hinit
  have hempty (i : Fin impairDelayBufSize) : start.delayBuf[i].active = false := by
    obtain ⟨-, -, seed, rfl⟩ := init_spec hinit
    exact congrArg DelayEntry.active (Vector.getElem_replicate i.isLt)
  have hstart : Fifo cfg [] start := by
    refine ⟨hcounted, hcfg, fun i => ?_, .nil, .nil, fun i hi => ?_, rfl⟩
    · rw [hempty]
      exact iff_of_false List.not_mem_nil Bool.false_ne_true
    · exact absurd hi List.not_mem_nil
  obtain ⟨e, hlast⟩ := Run.history_inv
    (I := fun past e => Orderly past → Run.Lawful InOrder past → Fifo cfg past e)
    (fun past e call a e' h hstep orderly inOrder =>
      (h orderly.init inOrder.init).step fixed orderly inOrder.last hstep) calls [] start fun _ _ => hstart
  rw [List.nil_append] at hlast
  have hfifo := hlast orderly inOrder
  rw [← hfifo.conserved]
  exact List.prefix_append _ _

/-- A latency of a millisecond. -/
def lagging : ImpairmentConfig :=
  { impairmentConfigDefault with enabled := true, fixedLatencyMs := 1, prngSeed := 1 }

theorem fixedLatency_lagging : FixedLatency lagging :=
  ⟨rfl, le_refl 0, le_refl 0, rfl, rfl⟩

/-- Two messages are sent, one after the other, and are due together when the buffer is collected. -/
def together : List Call :=
  [.processOutbound (someMessage 0) 0, .processOutbound (someMessage 1) 500, .collectDeliverable 2000 32]

theorem fixed_latency_fifo_lagging :
    ∃ start, init lagging 0 = .ok start ∧
      ((Run.history step together start).flatMap collectedIn).map MessageEnvelope.payloadLength = [0, 1] ∧
      (Run.history step together start).flatMap collectedIn <+: (Run.history step together start).filterMap sentIn := by
  have hsucceeds : Succeeds (init lagging 0) fun start =>
      Succeeds (start.processOutbound (someMessage 0) 0) fun r₁ => r₁.1 = .ok ∧
        Succeeds (r₁.2.processOutbound (someMessage 1) 500) fun r₂ => r₂.1 = .ok ∧
          Succeeds (r₂.2.collectDeliverable 2000 32) fun r₃ => r₃.1.map MessageEnvelope.payloadLength = [0, 1] ∧
            ((order [⟨start, .processOutbound (someMessage 0) 0, .outbound .ok, r₁.2⟩,
                ⟨r₁.2, .processOutbound (someMessage 1) 500, .outbound .ok, r₂.2⟩]).filter fun i =>
              isDue 2000 r₂.2.delayBuf[i]).Pairwise (· < ·) := by decide +kernel
  obtain ⟨start, hinit, hsend⟩ := hsucceeds.exists
  obtain ⟨⟨res₁, e₁⟩, hcall₁, rfl, hnext⟩ := hsend.exists
  obtain ⟨⟨res₂, e₂⟩, hcall₂, rfl, hnext⟩ := hnext.exists
  obtain ⟨⟨out, e₃⟩, hcall₃, hlengths, hpairs⟩ := hnext.exists
  have hstep₁ : step (.processOutbound (someMessage 0) 0) start = .ok (.outbound .ok, e₁) := by
    rw [step, hcall₁]
    rfl
  have hstep₂ : step (.processOutbound (someMessage 1) 500) e₁ = .ok (.outbound .ok, e₂) := by
    rw [step, hcall₂]
    rfl
  have hstep₃ : step (.collectDeliverable 2000 32) e₂ = .ok (.collected out, e₃) := by
    rw [step, hcall₃]
    rfl
  have hhistory : Run.history step together start =
      [⟨start, .processOutbound (someMessage 0) 0, .outbound .ok, e₁⟩,
        ⟨e₁, .processOutbound (someMessage 1) 500, .outbound .ok, e₂⟩,
        ⟨e₂, .collectDeliverable 2000 32, .collected out, e₃⟩] := by
    rw [together, Run.history_cons_ok hstep₁, Run.history_cons_ok hstep₂, Run.history_cons_ok hstep₃, Run.history_nil]
  refine ⟨start, hinit, ?_, fixed_latency_fifo hinit fixedLatency_lagging together ?_ ?_⟩
  · rw [hhistory]
    show (out ++ []).map MessageEnvelope.payloadLength = [0, 1]
    rw [List.append_nil, hlengths]
  · rw [hhistory]
    exact ⟨by simp [Call.SendsOrCollects, impairDelayBufSize], by simp [Call.timeUs], by simp⟩
  · rw [hhistory]
    exact ((Run.Lawful.nil.snoc trivial).snoc trivial).snoc hpairs

/-- The slot of the first message is free when the third is sent. -/
def overtaking : List Call :=
  [.processOutbound (someMessage 0) 0, .processOutbound (someMessage 1) 500, .collectDeliverable 1000 32,
    .processOutbound (someMessage 2) 1100, .collectDeliverable 2100 32]

/-- The third message is collected before the second. -/
theorem reused_slot_overtakes :
    ∃ start, init lagging 0 = .ok start ∧ FixedLatency lagging ∧ Orderly (Run.history step overtaking start) ∧
      ¬ (Run.history step overtaking start).flatMap collectedIn <+:
        (Run.history step overtaking start).filterMap sentIn := by
  have hsucceeds : Succeeds (init lagging 0) fun start =>
      Succeeds (start.processOutbound (someMessage 0) 0) fun r₁ => r₁.1 = .ok ∧
        Succeeds (r₁.2.processOutbound (someMessage 1) 500) fun r₂ => r₂.1 = .ok ∧
          Succeeds (r₂.2.collectDeliverable 1000 32) fun r₃ =>
            Succeeds (r₃.2.processOutbound (someMessage 2) 1100) fun r₄ => r₄.1 = .ok ∧
              Succeeds (r₄.2.collectDeliverable 2100 32) fun r₅ =>
                (r₃.1 ++ r₅.1).map MessageEnvelope.payloadLength = [0, 2, 1] := by decide +kernel
  obtain ⟨start, hinit, hsend⟩ := hsucceeds.exists
  obtain ⟨⟨res₁, e₁⟩, hcall₁, rfl, hnext⟩ := hsend.exists
  obtain ⟨⟨res₂, e₂⟩, hcall₂, rfl, hnext⟩ := hnext.exists
  obtain ⟨⟨out₃, e₃⟩, hcall₃, hnext⟩ := hnext.exists
  obtain ⟨⟨res₄, e₄⟩, hcall₄, rfl, hnext⟩ := hnext.exists
  obtain ⟨⟨out₅, e₅⟩, hcall₅, hlengths⟩ := hnext.exists
  have hstep₁ : step (.processOutbound (someMessage 0) 0) start = .ok (.outbound .ok, e₁) := by
    rw [step, hcall₁]
    rfl
  have hstep₂ : step (.processOutbound (someMessage 1) 500) e₁ = .ok (.outbound .ok, e₂) := by
    rw [step, hcall₂]
    rfl
  have hstep₃ : step (.collectDeliverable 1000 32) e₂ = .ok (.collected out₃, e₃) := by
    rw [step, hcall₃]
    rfl
  have hstep₄ : step (.processOutbound (someMessage 2) 1100) e₃ = .ok (.outbound .ok, e₄) := by
    rw [step, hcall₄]
    rfl
  have hstep₅ : step (.collectDeliverable 2100 32) e₄ = .ok (.collected out₅, e₅) := by
    rw [step, hcall₅]
    rfl
  refine ⟨start, hinit, fixedLatency_lagging, ?_, fun hprefix => ?_⟩
  · rw [overtaking, Run.history_cons_ok hstep₁, Run.history_cons_ok hstep₂, Run.history_cons_ok hstep₃,
      Run.history_cons_ok hstep₄, Run.history_cons_ok hstep₅, Run.history_nil]
    exact ⟨by simp [Call.SendsOrCollects, impairDelayBufSize], by simp [Call.timeUs], by simp⟩
  · rw [overtaking, Run.history_cons_ok hstep₁, Run.history_cons_ok hstep₂, Run.history_cons_ok hstep₃,
      Run.history_cons_ok hstep₄, Run.history_cons_ok hstep₅, Run.history_nil] at hprefix
    have hprefix : out₃ ++ (out₅ ++ []) <+: [someMessage 0, someMessage 1, someMessage 2] := hprefix
    have hmap := hprefix.map MessageEnvelope.payloadLength
    rw [List.append_nil, hlengths] at hmap
    exact absurd hmap (by decide)

end ImpairmentEngine

end MessageEngine
