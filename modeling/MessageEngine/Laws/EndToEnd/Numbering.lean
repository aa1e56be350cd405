import MessageEngine.Laws.Outbound.Renumbering
import MessageEngine.Laws.EndToEnd.Outgoing

/-!
# How an engine numbers what it is given

On an ordered channel the messages to one destination get the numbers 1, 2, 3, … in the order in which they
are given to `send`. A destination that finds no entry in the table gets no numbers at all. A reset starts the
numbers of a destination over, which is harmless while none was drawn.

## What is proved

- `draw_of_ne`, `draw_self`, `draw_restart_of_ne`: what the operations on the table do to the next number of
  one destination;
- `Counts.step`: one call, and the messages of one destination stay numbered in order;
- `Limited.step`: one call, and no number is past the calls that were made.
-/

namespace MessageEngine

open Outcome Table

namespace DeliveryEngine

variable {v : Vector SeqState ackTrackerCapacity} {dst other : NodeId} {e e' : DeliveryEngine} {i : Input}

/-! ## The table -/

/-- A slot changed that is not, and was not, the entry of `dst`. -/
theorem draw_set {k : Fin ackTrackerCapacity} {s : SeqState} (before : SeqState.isFor v[k] dst = false)
    (after : SeqState.isFor s dst = false) :
    firstSlot? (fun s => s.active && s.dst == dst) (v.set k s k.isLt) =
      firstSlot? (fun s => s.active && s.dst == dst) v := by
  apply firstSlot?_congr
  intro j
  rw [getElem_set_fin]
  split
  case isTrue heq =>
    rw [← heq]
    exact after.trans before.symm
  case isFalse _ => rfl

theorem isFor_of_ne {s : SeqState} (hne : other ≠ dst) (h : SeqState.isFor s other = true) :
    SeqState.isFor s dst = false := by
  obtain ⟨-, rfl⟩ := isFor_iff.mp h
  simp [SeqState.isFor, hne]

/-- A slot that keeps its destination, one other than `dst`. -/
theorem draw_renumber {k : Fin ackTrackerCapacity} {nextSeq : UInt32} (hne : other ≠ dst)
    (hk : SeqState.isFor v[k] other = true) :
    (draw (v.set k { v[k] with nextSeq } k.isLt) dst).1 = (draw v dst).1 := by
  have hactive : v[k].active = true := (isFor_iff.mp hk).1
  have hfree : firstSlot? (fun s => !s.active) (v.set k { v[k] with nextSeq } k.isLt) =
      firstSlot? (fun s => !s.active) v := by
    apply firstSlot?_congr
    intro j
    rw [getElem_set_fin]
    split
    case isTrue heq => rw [← heq]
    case isFalse _ => rfl
  have hfound := draw_set (s := { v[k] with nextSeq }) (isFor_of_ne hne hk) (isFor_of_ne hne hk)
  unfold draw
  rw [hfound, hfree]
  cases hentry : firstSlot? (fun s => s.active && s.dst == dst) v with
  | some j =>
    have hj := firstSlot?_some hentry
    have hjk : k ≠ j := by
      rintro rfl
      exact absurd hj (Bool.eq_false_iff.mp (isFor_of_ne hne hk))
    dsimp only
    rw [getElem_set_fin, if_neg hjk]
  | none =>
    dsimp only
    cases firstSlot? (fun s => !s.active) v with
    | some j => rfl
    | none => rfl

theorem draw_restart_of_ne (hne : other ≠ dst) : (draw (restart v other) dst).1 = (draw v dst).1 := by
  unfold restart
  cases hentry : firstSlot? (fun s => s.active && s.dst == other) v with
  | some k => exact draw_renumber hne (firstSlot?_some hentry)
  | none => rfl

/-- A draw for another destination, which may take the last free slot. -/
theorem draw_of_ne (v : Vector SeqState ackTrackerCapacity) (hne : other ≠ dst) :
    (draw (draw v other).2 dst).1 = (draw v dst).1 ∨
      ((draw v dst).1 = 1 ∧ (draw (draw v other).2 dst).1 = 0) := by
  cases hentry : firstSlot? (fun s => s.active && s.dst == other) v with
  | some k =>
    have hdraw : (draw v other).2 = v.set k { v[k] with
        nextSeq := if v[k].nextSeq + 1 = 0 then 1 else v[k].nextSeq + 1 } k.isLt := by
      rw [draw, hentry]
    rw [hdraw]
    exact .inl (draw_renumber hne (firstSlot?_some hentry))
  | none =>
    cases hfree : firstSlot? (fun s => !s.active) v with
    | none =>
      have hdraw : (draw v other).2 = v := by rw [draw, hentry, hfree]
      rw [hdraw]
      exact .inl rfl
    | some k =>
      have hdraw : (draw v other).2 = v.set k ⟨other, 2, true⟩ k.isLt := by rw [draw, hentry, hfree]
      have hinactive : v[k].active = false := by simpa using firstSlot?_some hfree
      have hbefore : SeqState.isFor v[k] dst = false := by rw [SeqState.isFor, hinactive, Bool.false_and]
      have hafter : SeqState.isFor ⟨other, 2, true⟩ dst = false := by simp [SeqState.isFor, hne]
      have hfound := draw_set hbefore hafter
      rw [hdraw]
      unfold draw
      rw [hfound, hfree]
      cases hmine : firstSlot? (fun s => s.active && s.dst == dst) v with
      | some j =>
        have hj := firstSlot?_some hmine
        have hjk : k ≠ j := by
          rintro rfl
          rw [hinactive] at hj
          cases hj
        dsimp only
        rw [getElem_set_fin, if_neg hjk]
        exact .inl rfl
      | none =>
        dsimp only
        cases firstSlot? (fun s => !s.active) (v.set k ⟨other, 2, true⟩ k.isLt) with
        | some j => exact .inl rfl
        | none => exact .inr ⟨rfl, rfl⟩

/-- Two draws in a row give a number and the next one, or none at all. -/
theorem draw_self (v : Vector SeqState ackTrackerCapacity) (dst : NodeId) :
    (draw (draw v dst).2 dst).1 = (if (draw v dst).1 + 1 = 0 then 1 else (draw v dst).1 + 1) ∨
      ((draw v dst).1 = 0 ∧ (draw (draw v dst).2 dst).1 = 0) := by
  cases hentry : firstSlot? (fun s => s.active && s.dst == dst) v with
  | some k =>
    have hdraw : draw v dst = (v[k].nextSeq, v.set k { v[k] with
        nextSeq := if v[k].nextSeq + 1 = 0 then 1 else v[k].nextSeq + 1 } k.isLt) := by
      rw [draw, hentry]
    have hagain : firstSlot? (fun s => s.active && s.dst == dst) (v.set k { v[k] with
        nextSeq := if v[k].nextSeq + 1 = 0 then 1 else v[k].nextSeq + 1 } k.isLt) = some k := by
      rw [← hentry]
      apply firstSlot?_congr
      intro j
      rw [getElem_set_fin]
      split
      case isTrue heq => rw [← heq]
      case isFalse _ => rfl
    rw [hdraw]
    left
    rw [draw, hagain]
    dsimp only
    rw [getElem_set_fin, if_pos rfl]
  | none =>
    cases hfree : firstSlot? (fun s => !s.active) v with
    | none =>
      have hdraw : draw v dst = (0, v) := by rw [draw, hentry, hfree]
      rw [hdraw]
      exact .inr ⟨rfl, by rw [hdraw]⟩
    | some k =>
      have hdraw : draw v dst = (1, v.set k ⟨dst, 2, true⟩ k.isLt) := by rw [draw, hentry, hfree]
      have hagain : firstSlot? (fun s => s.active && s.dst == dst) (v.set k ⟨dst, 2, true⟩ k.isLt) = some k := by
        refine firstSlot?_eq_some ?_ fun j hj => ?_
        · rw [getElem_set_fin, if_pos rfl]
          simp
        · by_contra hjk
          have hmiss := firstSlot?_none.mp hentry j
          rw [getElem_set_fin, if_neg (Ne.symm hjk)] at hj
          rw [hmiss] at hj
          cases hj
      rw [hdraw]
      left
      rw [draw, hagain]
      dsimp only
      rw [getElem_set_fin, if_pos rfl]
      rfl

/-- A restart leaves the first number as it is. -/
theorem draw_restart_self (h : (draw v dst).1 = 1 ∨ (draw v dst).1 = 0) :
    (draw (restart v dst) dst).1 = 1 ∨ (draw (restart v dst) dst).1 = 0 := by
  unfold restart
  cases hentry : firstSlot? (fun s => s.active && s.dst == dst) v with
  | none => exact h
  | some k =>
    have hagain : firstSlot? (fun s => s.active && s.dst == dst) (v.set k { v[k] with nextSeq := 1 } k.isLt) =
        some k := by
      rw [← hentry]
      apply firstSlot?_congr
      intro j
      rw [getElem_set_fin]
      split
      case isTrue heq => rw [← heq]
      case isFalse _ => rfl
    left
    dsimp only
    rw [draw, hagain]
    dsimp only
    rw [getElem_set_fin, if_pos rfl]

/-! ## The messages of one destination -/

/-- A numbered data message to `dst`. -/
def NumberedTo (dst : NodeId) (m : MessageEnvelope) : Prop :=
  envelopeIsData m ∧ m.sequenceNum ≠ 0 ∧ m.destinationId = dst

instance (dst : NodeId) : DecidablePred (NumberedTo dst) := fun m =>
  inferInstanceAs (Decidable (envelopeIsData m ∧ m.sequenceNum ≠ 0 ∧ m.destinationId = dst))

/-- The numbered messages to `dst`, in the order in which they were given. -/
def numbered (dst : NodeId) (past : List (Run.Taken DeliveryEngine Input Observation)) : List MessageEnvelope :=
  (offered past).filter fun m => NumberedTo dst m

/-- The call leaves it to the engine to number the data message that it gives. -/
def LeavesNumbers (i : Input) : Prop :=
  ∀ env nowUs, i.call = .send env nowUs → envelopeIsData env → env.sequenceNum = 0

instance (i : Input) : Decidable (LeavesNumbers i) :=
  match h : i.call with
  | .send env nowUs =>
    decidable_of_iff (envelopeIsData env → env.sequenceNum = 0)
      ⟨fun hzero _ _ heq => by
        cases h.symm.trans heq
        exact hzero, fun hleaves => hleaves env nowUs h⟩
  | .receive .. | .pumpRetries _ | .sweepAckTimeouts _ | .pollEvent | .drainEvents _ | .resetPeerOrdering _ =>
    .isTrue fun _ _ heq => by cases h.symm.trans heq

/-- The destinations whose numbers the call starts over. -/
def restarted (e : DeliveryEngine) (i : Input) : List NodeId :=
  match i.call with
  | .receive _ nowUs => if e.Stale nowUs then [] else reconnects orderingPeerCount i.transport
  | .resetPeerOrdering src => [src]
  | _ => []

/-- The first `n` numbers. -/
def firstNumbers (n : Nat) : List UInt32 := (List.range n).map fun k => UInt32.ofNat (k + 1)

variable {past : List (Run.Taken DeliveryEngine Input Observation)}

/-- The messages to `dst` have the first numbers, and the next one follows them. -/
structure Counts (dst : NodeId) (past : List (Run.Taken DeliveryEngine Input Observation)) (e : DeliveryEngine) :
    Prop where
  numbers : (numbered dst past).map MessageEnvelope.sequenceNum = firstNumbers (numbered dst past).length
  next : (draw e.seqState dst).1 = UInt32.ofNat ((numbered dst past).length + 1) ∨
    (numbered dst past = [] ∧ (draw e.seqState dst).1 = 0)

theorem firstNumbers_succ (n : Nat) : firstNumbers (n + 1) = firstNumbers n ++ [UInt32.ofNat (n + 1)] := by
  rw [firstNumbers, List.range_succ, List.map_append]
  rfl

theorem toNat_ofNat_of_lt {n : Nat} (h : n < 2 ^ 32) : (UInt32.ofNat n).toNat = n :=
  UInt32.toNat_ofNat_of_lt' h

/-- Fewer than all numbers come in rising order. -/
theorem firstNumbers_rising {n : Nat} (h : n < 2 ^ 32) : (firstNumbers n).Pairwise (· < ·) := by
  rw [firstNumbers, List.pairwise_map]
  refine List.Pairwise.imp_of_mem ?_ List.pairwise_lt_range
  intro j k hj hk hlt
  rw [List.mem_range] at hj hk
  rw [UInt32.lt_iff_toNat_lt, toNat_ofNat_of_lt (by omega), toNat_ofNat_of_lt (by omega)]
  omega

theorem Counts.rising (h : Counts dst past e) (hfew : (numbered dst past).length < 2 ^ 32) :
    (numbered dst past).Pairwise fun m m' => m.sequenceNum < m'.sequenceNum := by
  have hnumbers := firstNumbers_rising hfew
  rw [← h.numbers, List.pairwise_map] at hnumbers
  exact hnumbers

theorem counts_init (cfg : ChannelConfig) (localId : NodeId) (entropy : UInt64) (dst : NodeId) :
    Counts dst [] (init cfg localId entropy) := by
  refine ⟨rfl, .inl ?_⟩
  have hinactive (k : Fin ackTrackerCapacity) : (init cfg localId entropy).seqState[k].active = false := by
    simp [init]
  have hnone : firstSlot? (fun s => s.active && s.dst == dst) (init cfg localId entropy).seqState = none := by
    rw [firstSlot?_none]
    intro k
    rw [hinactive k]
    rfl
  obtain ⟨k, hk⟩ : ∃ k, firstSlot? (fun s => !s.active) (init cfg localId entropy).seqState = some k := by
    apply firstSlot?_isSome (i := ⟨0, by decide⟩)
    rw [hinactive]
    rfl
  rw [draw, hnone, hk]
  rfl

theorem numbered_append (dst : NodeId) (past : List (Run.Taken DeliveryEngine Input Observation))
    (t : Run.Taken DeliveryEngine Input Observation) :
    numbered dst (past ++ [t]) = numbered dst past ++
      ((offer? t.before t.input).filter fun m => NumberedTo dst m).toList := by
  rw [numbered, offered_append, List.filter_append, numbered]
  cases h : offer? t.before t.input with
  | none => rfl
  | some m =>
    by_cases hm : NumberedTo dst m
    · simp [hm, Option.filter]
    · simp [hm, Option.filter]

theorem numbered_length_le : (numbered dst past).length ≤ past.length :=
  (List.length_filter_le _ _).trans (offered_length_le past)

/-- A call that gives no numbered message to `dst`, and moves the next number at most while none was drawn. -/
theorem Counts.unchanged {o : Observation} (h : Counts dst past e)
    (hnone : ∀ m ∈ offer? e i, ¬ NumberedTo dst m)
    (hnext : (draw e'.seqState dst).1 = (draw e.seqState dst).1 ∨
      (numbered dst past = [] ∧ ((draw e'.seqState dst).1 = 1 ∨ (draw e'.seqState dst).1 = 0))) :
    Counts dst (past ++ [⟨e, i, o, e'⟩]) e' := by
  have hsame : numbered dst (past ++ [⟨e, i, o, e'⟩]) = numbered dst past := by
    rw [numbered_append]
    cases hoffer : offer? e i with
    | none => simp
    | some m => simp [hnone m hoffer]
  refine ⟨by rw [hsame, h.numbers], ?_⟩
  rw [hsame]
  rcases hnext with hnext | ⟨hempty, hone | hzero⟩
  · rw [hnext]
    exact h.next
  · left
    rw [hone, hempty]
    rfl
  · exact .inr ⟨hempty, hzero⟩

/-- The next number is 1 or 0 only while none was drawn. -/
theorem Counts.first (h : Counts dst past e) (hempty : numbered dst past = []) :
    (draw e.seqState dst).1 = 1 ∨ (draw e.seqState dst).1 = 0 := by
  rcases h.next with hnext | ⟨-, hzero⟩
  · left
    rw [hnext, hempty]
    rfl
  · exact .inr hzero

theorem Counts.restarts (srcs : List NodeId) (hkeeps : dst ∈ srcs → numbered dst past = []) :
    ∀ {v : Vector SeqState ackTrackerCapacity},
      (numbered dst past = [] → (draw v dst).1 = 1 ∨ (draw v dst).1 = 0) →
      (draw (srcs.foldl restart v) dst).1 = (draw v dst).1 ∨
        (numbered dst past = [] ∧
          ((draw (srcs.foldl restart v) dst).1 = 1 ∨ (draw (srcs.foldl restart v) dst).1 = 0)) := by
  induction srcs with
  | nil =>
    intro v _
    exact .inl rfl
  | cons src rest ih =>
    intro v hfirst
    rw [List.foldl_cons]
    by_cases hsrc : src = dst
    · subst hsrc
      have hempty := hkeeps List.mem_cons_self
      have hnow := draw_restart_self (hfirst hempty)
      rcases ih (fun _ => hempty) (fun _ => hnow) with hsame | hrest
      · right
        rw [hsame]
        exact ⟨hempty, hnow⟩
      · exact .inr hrest
    · have hsame := draw_restart_of_ne (v := v) hsrc
      rw [← hsame]
      apply ih (fun hmem => hkeeps (List.mem_cons_of_mem src hmem))
      intro hempty
      rw [hsame]
      exact hfirst hempty

/-- A number that is drawn at all is the next one. -/
theorem Counts.next_of_ne_zero (h : Counts dst past e) (hne : (draw e.seqState dst).1 ≠ 0) :
    (draw e.seqState dst).1 = UInt32.ofNat ((numbered dst past).length + 1) := by
  rcases h.next with hnext | ⟨-, hzero⟩
  · exact hnext
  · exact absurd hzero hne

/-- While the next number is 1 or 0, none was drawn. -/
theorem Counts.empty (h : Counts dst past e) (hfew : (numbered dst past).length + 1 < 2 ^ 32)
    (hfirst : (draw e.seqState dst).1 = 1 ∨ (draw e.seqState dst).1 = 0) : numbered dst past = [] := by
  rcases h.next with hnext | ⟨hempty, -⟩
  · have hvalue := congrArg UInt32.toNat hnext
    rw [toNat_ofNat_of_lt hfew] at hvalue
    have hone : (1 : UInt32).toNat = 1 := rfl
    have hzero : (0 : UInt32).toNat = 0 := rfl
    apply List.eq_nil_of_length_eq_zero
    rcases hfirst with hfirst | hfirst
    · rw [hfirst, hone] at hvalue
      omega
    · rw [hfirst, hzero] at hvalue
      omega
  · exact hempty

/-- A message to `dst` that gets a number. -/
theorem Counts.number {o : Observation} {m : MessageEnvelope} (h : Counts dst past e)
    (hfew : (numbered dst past).length + 2 < 2 ^ 32) (hoffer : offer? e i = some m) (hm : NumberedTo dst m)
    (hseq : m.sequenceNum = (draw e.seqState dst).1) (hstate : e'.seqState = (draw e.seqState dst).2) :
    Counts dst (past ++ [⟨e, i, o, e'⟩]) e' := by
  have hne : (draw e.seqState dst).1 ≠ 0 := by
    rw [← hseq]
    exact hm.2.1
  have hcount := h.next_of_ne_zero hne
  have hmore : numbered dst (past ++ [⟨e, i, o, e'⟩]) = numbered dst past ++ [m] := by
    rw [numbered_append, hoffer]
    simp [hm]
  constructor
  · rw [hmore, List.map_append, h.numbers, List.length_append, List.length_singleton, firstNumbers_succ,
      List.map_singleton, hseq, hcount]
  · left
    rw [hstate, hmore, List.length_append, List.length_singleton]
    rcases draw_self e.seqState dst with hnext | ⟨hnone, -⟩
    · have hsucc : UInt32.ofNat ((numbered dst past).length + 1) + 1 =
          UInt32.ofNat ((numbered dst past).length + 1 + 1) := by
        rw [UInt32.ofNat_add ((numbered dst past).length + 1) 1]
        rfl
      have hpositive : UInt32.ofNat ((numbered dst past).length + 1 + 1) ≠ 0 := by
        intro heq
        have hvalue := congrArg UInt32.toNat heq
        rw [toNat_ofNat_of_lt (by omega)] at hvalue
        exact absurd hvalue (Nat.succ_ne_zero _)
      rw [hnext, hcount, hsucc, if_neg hpositive]
    · exact absurd hnone hne

/-- A `send` that the guard lets through. -/
theorem Counts.send {env : MessageEnvelope} {nowUs : UInt64} {o : Observation} (h : Counts dst past e)
    (hfew : (numbered dst past).length + 2 < 2 ^ 32) (leaves : envelopeIsData env → env.sequenceNum = 0)
    (hoffer : offer? e i = some (e.filledIn env nowUs)) (hstate : e'.seqState = (e.drawn env).2) :
    Counts dst (past ++ [⟨e, i, o, e'⟩]) e' := by
  by_cases hneeds : NeedsSequence e.cfg env
  · have hdrawn : e.drawn env = draw e.seqState env.destinationId := if_pos hneeds
    have hseq : (e.filledIn env nowUs).sequenceNum = (draw e.seqState env.destinationId).1 :=
      congrArg Prod.fst hdrawn
    rw [hdrawn] at hstate
    by_cases hdst : env.destinationId = dst
    · rw [hdst] at hseq hstate
      by_cases hzero : (draw e.seqState dst).1 = 0
      · -- There is no entry left for the destination: the message goes out without a number.
        apply h.unchanged
        · intro m hm hnumbered
          cases hoffer.symm.trans hm
          exact hnumbered.2.1 (hseq.trans hzero)
        · rw [hstate]
          rcases draw_self e.seqState dst with hnext | ⟨-, hnone⟩
          · rw [hzero] at hnext
            exact .inr ⟨h.empty (by omega) (.inr hzero), .inl hnext⟩
          · exact .inl (hnone.trans hzero.symm)
      · refine h.number hfew hoffer ⟨hneeds.1, ?_, hdst⟩ hseq hstate
        rw [hseq]
        exact hzero
    · apply h.unchanged
      · intro m hm hnumbered
        cases hoffer.symm.trans hm
        exact hdst hnumbered.2.2
      · rw [hstate]
        rcases draw_of_ne e.seqState hdst with hsame | ⟨hone, hzero⟩
        · exact .inl hsame
        · exact .inr ⟨h.empty (by omega) (.inl hone), .inr hzero⟩
  · have hdrawn : e.drawn env = (env.sequenceNum, e.seqState) := if_neg hneeds
    apply h.unchanged
    · intro m hm hnumbered
      cases hoffer.symm.trans hm
      apply hnumbered.2.1
      show (e.drawn env).1 = 0
      rw [hdrawn]
      exact leaves hnumbered.1
    · rw [hstate, hdrawn]
      exact .inl rfl

theorem offer?_of_not_send (h : ∀ env nowUs, i.call ≠ .send env nowUs) : offer? e i = none := by
  unfold offer?
  split
  case h_1 env nowUs hcall => exact absurd hcall (h env nowUs)
  case h_2 _ => rfl

/-- A call that gives no message starts over the numbers of some destinations, or leaves the table alone. -/
theorem renumbered_of_not_send (h : ∀ env nowUs, i.call ≠ .send env nowUs) :
    e.renumbered i = (restarted e i).foldl restart e.seqState := by
  unfold renumbered restarted
  cases hcall : i.call with
  | send env nowUs => exact absurd hcall (h env nowUs)
  | receive timeoutMs nowUs =>
    dsimp only
    split
    · rfl
    · rfl
  | resetPeerOrdering src => rfl
  | pumpRetries nowUs => rfl
  | sweepAckTimeouts nowUs => rfl
  | pollEvent => rfl
  | drainEvents bufCap => rfl

/-- One call. -/
theorem Counts.step {o : Observation} (h : Counts dst past e) (inv : Inv (fun _ => True) e)
    (hfew : past.length + 1 < 2 ^ 32 - 1) (leaves : LeavesNumbers i)
    (hkeeps : dst ∈ restarted e i → numbered dst past = []) (hexec : exec i e = .ok (o, e')) :
    Counts dst (past ++ [⟨e, i, o, e'⟩]) e' := by
  have hseq := exec_seqState inv hexec
  have hshort : (numbered dst past).length ≤ past.length := numbered_length_le
  by_cases hsend : ∃ env nowUs, i.call = .send env nowUs
  · obtain ⟨env, nowUs, hcall⟩ := hsend
    rw [renumbered, hcall] at hseq
    have hoffer : offer? e i = if e.Stale nowUs then none else some (e.filledIn env nowUs) := by
      rw [offer?, hcall]
    dsimp only at hseq
    by_cases hstale : e.Stale nowUs
    · rw [if_pos hstale] at hseq hoffer
      apply h.unchanged
      · intro m hm
        cases hoffer.symm.trans hm
      · rw [hseq]
        exact .inl rfl
    · rw [if_neg hstale] at hseq hoffer
      exact h.send (by omega) (leaves env nowUs hcall) hoffer hseq
  · have hother : ∀ env nowUs, i.call ≠ .send env nowUs := fun env nowUs hcall => hsend ⟨env, nowUs, hcall⟩
    apply h.unchanged
    · intro m hm
      cases (offer?_of_not_send hother).symm.trans hm
    · rw [hseq, renumbered_of_not_send hother]
      exact Counts.restarts _ hkeeps h.first

/-- A message that gets its number from the engine is for one destination: the call would have stopped. -/
theorem offer_named {o : Observation} {m : MessageEnvelope} (leaves : LeavesNumbers i)
    (hexec : exec i e = .ok (o, e')) (hm : m ∈ offer? e i) (hdata : envelopeIsData m) (hseq : m.sequenceNum ≠ 0) :
    m.destinationId ≠ nodeIdInvalid := by
  unfold offer? at hm
  split at hm
  case h_2 _ => cases hm
  case h_1 env nowUs hcall =>
    split at hm
    case isTrue _ => cases hm
    case isFalse hfresh =>
      cases hm
      have hunset := leaves env nowUs hcall hdata
      have hneeds : NeedsSequence e.cfg env := by
        by_contra hnot
        apply hseq
        show (e.drawn env).1 = 0
        rw [drawn, if_neg hnot]
        exact hunset
      obtain ⟨⟨answer, e₁⟩, hrun, -⟩ := bind_eq_ok.mp hexec
      rw [hcall] at hrun
      obtain ⟨⟨⟨res, out⟩, e₂⟩, hsend, -⟩ := bind_eq_ok.mp hrun
      obtain ⟨-, hsend⟩ := ensure_bind_eq_ok.mp hsend
      rw [if_neg (show ¬ ((e.attach i.transport).lastNowUs > 0 ∧ nowUs < (e.attach i.transport).lastNowUs) from hfresh)]
        at hsend
      obtain ⟨⟨out₁, e₃⟩, hprepare, -⟩ := bind_eq_ok.mp hsend
      obtain ⟨⟨messageId, idGen⟩, -, hprepare⟩ := bind_eq_ok.mp hprepare
      dsimp only at hprepare
      split at hprepare
      case isFalse hnot => exact absurd hneeds hnot
      case isTrue _ =>
        obtain ⟨⟨seq, e₄⟩, hnext, -⟩ := bind_eq_ok.mp hprepare
        exact (ensure_bind_eq_ok.mp hnext).1

/-! ## How far the numbers go -/

/-- No entry is past `n`. -/
def UpTo (n : Nat) (v : Vector SeqState ackTrackerCapacity) : Prop :=
  ∀ k : Fin ackTrackerCapacity, v[k].nextSeq.toNat ≤ n

theorem UpTo.mono {n n' : Nat} (h : UpTo n v) (hle : n ≤ n') : UpTo n' v := fun k => (h k).trans hle

theorem UpTo.set {n : Nat} {s : SeqState} (h : UpTo n v) (k : Fin ackTrackerCapacity) (hs : s.nextSeq.toNat ≤ n) :
    UpTo n (v.set k s k.isLt) := by
  intro j
  rw [getElem_set_fin]
  split
  case isTrue _ => exact hs
  case isFalse _ => exact h j

theorem UpTo.restart {n : Nat} (h : UpTo n v) (hn : 0 < n) (src : NodeId) : UpTo n (restart v src) := by
  unfold DeliveryEngine.restart
  split
  case h_1 k _ => exact h.set k hn
  case h_2 _ => exact h

theorem UpTo.restarts {n : Nat} (hn : 0 < n) (srcs : List NodeId) :
    ∀ {v : Vector SeqState ackTrackerCapacity}, UpTo n v → UpTo n (srcs.foldl DeliveryEngine.restart v) := by
  induction srcs with
  | nil =>
    intro v h
    exact h
  | cons src rest ih =>
    intro v h
    exact ih (h.restart hn src)

theorem toNat_succ_le (seq : UInt32) : (if seq + 1 = 0 then 1 else seq + 1).toNat ≤ seq.toNat + 1 := by
  split
  case isTrue _ => exact Nat.le_add_left 1 _
  case isFalse _ =>
    rw [UInt32.toNat_add]
    exact Nat.mod_le _ _

/-- A draw gives out no number past the entries, and moves them by one at most. -/
theorem UpTo.draw {n : Nat} (h : UpTo n v) (hn : 0 < n) (dst : NodeId) :
    (draw v dst).1.toNat ≤ n ∧ UpTo (n + 1) (draw v dst).2 := by
  have hmore := h.mono (Nat.le_succ n)
  unfold DeliveryEngine.draw
  split
  case h_1 k _ => exact ⟨h k, hmore.set k ((toNat_succ_le _).trans (Nat.succ_le_succ (h k)))⟩
  case h_2 _ =>
    split
    case h_1 k _ => exact ⟨hn, hmore.set k (Nat.succ_le_succ hn)⟩
    case h_2 _ => exact ⟨Nat.zero_le n, hmore⟩

/-- The numbers that were given out, and the next ones, are no more than the calls. -/
structure Limited (past : List (Run.Taken DeliveryEngine Input Observation)) (e : DeliveryEngine) : Prop where
  numbers : ∀ m ∈ offered past, envelopeIsData m → m.sequenceNum.toNat ≤ past.length
  next : UpTo (past.length + 1) e.seqState

theorem limited_init (cfg : ChannelConfig) (localId : NodeId) (entropy : UInt64) :
    Limited [] (init cfg localId entropy) := by
  refine ⟨fun m hm => ?_, fun k => ?_⟩
  · cases hm
  · simp [init]

/-- One call. -/
theorem Limited.step {o : Observation} (h : Limited past e) (inv : Inv (fun _ => True) e) (leaves : LeavesNumbers i)
    (hexec : exec i e = .ok (o, e')) : Limited (past ++ [⟨e, i, o, e'⟩]) e' := by
  have hpos : 0 < past.length + 1 := Nat.succ_pos _
  have hboth : (∀ m ∈ offer? e i, envelopeIsData m → m.sequenceNum.toNat ≤ past.length + 1) ∧
      UpTo (past.length + 1 + 1) (e.renumbered i) := by
    by_cases hsend : ∃ env nowUs, i.call = .send env nowUs
    · obtain ⟨env, nowUs, hcall⟩ := hsend
      rw [renumbered, offer?, hcall]
      dsimp only
      have hdrawn : (envelopeIsData env → (e.drawn env).1.toNat ≤ past.length + 1) ∧
          UpTo (past.length + 1 + 1) (e.drawn env).2 := by
        unfold drawn
        split
        case isTrue _ =>
          have hdraw := h.next.draw hpos env.destinationId
          exact ⟨fun _ => hdraw.1, hdraw.2⟩
        case isFalse _ =>
          refine ⟨fun hdata => ?_, h.next.mono (Nat.le_succ _)⟩
          rw [leaves env nowUs hcall hdata]
          exact Nat.zero_le _
      split
      case isTrue _ => exact ⟨(fun m hm => by cases hm), h.next.mono (Nat.le_succ _)⟩
      case isFalse _ =>
        refine ⟨fun m hm hdata => ?_, hdrawn.2⟩
        cases hm
        exact hdrawn.1 hdata
    · have hother : ∀ env nowUs, i.call ≠ .send env nowUs := fun env nowUs hcall => hsend ⟨env, nowUs, hcall⟩
      rw [offer?_of_not_send hother, renumbered_of_not_send hother]
      exact ⟨(fun m hm => by cases hm), (UpTo.restarts hpos _ h.next).mono (Nat.le_succ _)⟩
  refine ⟨fun m hm hdata => ?_, ?_⟩
  · rw [List.length_append]
    rw [offered_append] at hm
    rcases List.mem_append.mp hm with hbefore | hnow
    · exact (h.numbers m hbefore hdata).trans (Nat.le_add_right _ _)
    · exact hboth.1 m (Option.mem_toList.mp hnow) hdata
  · rw [exec_seqState inv hexec, List.length_append]
    exact hboth.2

end DeliveryEngine

end MessageEngine
