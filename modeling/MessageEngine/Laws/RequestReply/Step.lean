import MessageEngine.Laws.RequestReply.Desk

/-!
# One call

Everything a call that returns can do to the open requests, as one case list (`Turn`): a request is
opened or refused, a call that pumps lets the open requests hear what arrived, `receive_response`
closes the one whose response it returns, a sweep closes those that have expired, and the other
calls leave them alone. The laws about runs split over this list and never look at the code again.

## What is proved

- `exec_turn`: every call that returns is one of the cases, keeps the two queues tidy and the count
  of the open requests right, and does to the delivery engine nothing but calls of it.
-/

namespace MessageEngine

open Outcome Table

namespace RequestReplyEngine

variable {r r' : RequestReplyEngine} {nowUs : UInt64}

/-- The counter is the number of the slots in use. -/
def Counted (r : RequestReplyEngine) : Prop := r.pendingCount = r.pending.countP (·.active)

/-- The open requests once they have heard what arrived. -/
def heard (d : Desk) (envs : List MessageEnvelope) : Fin maxPendingRequests → Option Waiting :=
  (envs.foldl Desk.sort d).waiting

/-- A request that a sweep at `nowUs` closes. -/
def Waiting.Overdue (w : Waiting) (nowUs : UInt64) : Prop := w.expiresUs ≠ 0 ∧ nowUs ≥ w.expiresUs

instance (w : Waiting) (nowUs : UInt64) : Decidable (w.Overdue nowUs) :=
  inferInstanceAs (Decidable (_ ∧ _))

/-- Everything a call can do to the open requests. -/
inductive Turn (r : RequestReplyEngine) : Call → Observation → RequestReplyEngine → Prop where
  /-- A request is sent and waits in a slot that was free. -/
  | opened {destination : NodeId} {appPayload : Array UInt8} {appPayloadLen : UInt32}
      {timeoutUs nowUs : UInt64} {slot : Fin maxPendingRequests} {r' : RequestReplyEngine}
      (free : r.desk.waiting slot = none) (nonzero : r.cidGen ≠ 0)
      (waiting : r'.desk.waiting = Function.update r.desk.waiting slot
        (some ⟨r.cidGen, requestExpiry timeoutUs nowUs, none⟩))
      (cidGen : r'.cidGen = nextCid r.cidGen) :
      Turn r (.sendRequest destination appPayload appPayloadLen timeoutUs nowUs)
        ⟨.requested (.ok r.cidGen), []⟩ r'
  /-- A request could not be sent; its id may be used up. -/
  | refused {destination : NodeId} {appPayload : Array UInt8} {appPayloadLen : UInt32}
      {timeoutUs nowUs : UInt64} {res : Result} {r' : RequestReplyEngine}
      (waiting : r'.desk.waiting = r.desk.waiting)
      (cidGen : r'.cidGen = r.cidGen ∨ r'.cidGen = nextCid r.cidGen) :
      Turn r (.sendRequest destination appPayload appPayloadLen timeoutUs nowUs)
        ⟨.requested (.error res), []⟩ r'
  /-- A response is returned and its request closed. -/
  | collected {cid nowUs : UInt64} {bufCap : UInt32} {envs : List MessageEnvelope}
      {slot : Fin maxPendingRequests} {w : Waiting} {bytes : List UInt8} {r' : RequestReplyEngine}
      (found : (envs.foldl Desk.sort r.desk).slot? cid = some slot)
      (open_ : heard r.desk envs slot = some w) (response : w.response = some bytes)
      (waiting : r'.desk.waiting = Function.update (heard r.desk envs) slot none)
      (cidGen : r'.cidGen = r.cidGen) :
      Turn r (.receiveResponse cid bufCap nowUs) ⟨.response (.ok (bytes.take bufCap.toNat)), envs⟩ r'
  /-- A call that pumps and returns no response. -/
  | pumped {call : Call} {o : Observation} {r' : RequestReplyEngine}
      (notCollected : ∀ bytes, o.answer ≠ .response (.ok bytes))
      (notOpened : ∀ cid, o.answer ≠ .requested (.ok cid))
      (waiting : r'.desk.waiting = heard r.desk o.arrivals) (cidGen : r'.cidGen = r.cidGen) :
      Turn r call o r'
  /-- A sweep closes the requests that are overdue. -/
  | swept {nowUs : UInt64} {freed : Nat} {r' : RequestReplyEngine}
      (waiting : ∀ i, r'.desk.waiting i = (r.desk.waiting i).filter fun w => ¬ w.Overdue nowUs)
      (cidGen : r'.cidGen = r.cidGen) :
      Turn r (.sweepTimeouts nowUs) ⟨.swept freed, []⟩ r'

/-! ## Counting -/

theorem waiting?_isSome (p : PendingRequest) : (waiting? p).isSome = p.active := by
  unfold waiting?
  cases p.active with
  | true => rfl
  | false => rfl

theorem waiting?_of_inactive {p : PendingRequest} (h : p.active = false) : waiting? p = none := by
  rw [← Option.not_isSome_iff_eq_none, waiting?_isSome, h]
  exact Bool.false_ne_true

theorem active_iff {i : Fin maxPendingRequests} :
    r.pending[i].active = true ↔ ∃ w, r.desk.waiting i = some w := by
  rw [← waiting?_isSome, Option.isSome_iff_exists]
  rfl

/-- The count sees only which slots are open. -/
theorem countP_active_congr (h : ∀ i, (r'.desk.waiting i).isSome = (r.desk.waiting i).isSome) :
    r'.pending.countP (·.active) = r.pending.countP (·.active) := by
  have hactive : ∀ i : Fin maxPendingRequests, r'.pending[i].active = r.pending[i].active := by
    intro i
    rw [← waiting?_isSome, ← waiting?_isSome]
    exact h i
  have hmap : r'.pending.map (·.active) = r.pending.map (·.active) := by
    apply Vector.ext
    intro i hi
    rw [Vector.getElem_map, Vector.getElem_map]
    exact hactive ⟨i, hi⟩
  have hcount (v : Vector PendingRequest maxPendingRequests) :
      v.countP (·.active) = (v.map (·.active)).countP id := by
    rw [Vector.countP_map]
    rfl
  rw [hcount, hcount, hmap]

/-- Sorting opens and closes no request. -/
theorem sort_ids (d : Desk) (env : MessageEnvelope) (i : Fin maxPendingRequests) :
    ((d.sort env).waiting i).map (·.correlationId) = (d.waiting i).map (·.correlationId) := by
  unfold Desk.sort
  split
  · rfl
  split
  · rw [Desk.pass_waiting]
  · rw [Desk.hear_waiting]
    split
    · rw [Option.map_map]
      rfl
    · rfl
  · rw [Desk.ask_waiting]

theorem heard_isSome (d : Desk) (envs : List MessageEnvelope) (i : Fin maxPendingRequests) :
    (heard d envs i).isSome = (d.waiting i).isSome := by
  unfold heard
  induction envs generalizing d with
  | nil => rfl
  | cons env envs ih =>
    have hids := congrArg Option.isSome (sort_ids d env i)
    rw [Option.isSome_map, Option.isSome_map] at hids
    rw [List.foldl_cons, ih, hids]

theorem Counted.of_desk (counted : Counted r) (hcount : r'.pendingCount = r.pendingCount)
    (h : ∀ i, (r'.desk.waiting i).isSome = (r.desk.waiting i).isSome) : Counted r' := by
  rw [Counted, hcount, counted, countP_active_congr h]

/-! ## Closing a request -/

theorem freePending_waiting (r : RequestReplyEngine) (idx : Fin maxPendingRequests) :
    (r.freePending idx).desk.waiting = Function.update r.desk.waiting idx none := by
  funext j
  simp only [freePending, desk, Function.update_apply, getElem_set_fin]
  by_cases hj : idx = j
  · rw [if_pos hj, if_pos hj.symm]
    rfl
  · rw [if_neg hj, if_neg (fun h => hj h.symm)]

theorem Counted.freePending {idx : Fin maxPendingRequests} (counted : Counted r)
    (hactive : r.pending[idx].active = true) : Counted (r.freePending idx) := by
  have hset := countP_set_add (·.active) r.pending idx
    { r.pending[idx] with active := false, stashReady := false }
  rw [if_pos hactive, if_neg Bool.false_ne_true] at hset
  have hcount : r.pendingCount = _ := counted.trans hset.symm
  have hpos : r.pendingCount > 0 := hcount ▸ Nat.succ_pos _
  change (if r.pendingCount > 0 then r.pendingCount - 1 else r.pendingCount) = _
  rw [if_pos hpos, hcount]
  rfl

theorem Tidy.freePending (tidy : Tidy r) (idx : Fin maxPendingRequests) : Tidy (r.freePending idx) :=
  { tidy with }

/-! ## The calls -/

/-- What every call that returns keeps. -/
structure Kept (r r' : RequestReplyEngine) : Prop where
  tidy : Tidy r'
  counted : Counted r → Counted r'
  serves : Serves r.engine r'.engine

/-- A call that only pumps. -/
theorem pumpInbound_kept (tidy : Tidy r) (h : r.pumpInbound nowUs = .ok r') :
    ∃ envs, r'.arrivals = r.arrivals ++ envs ∧ envs = handedUp nowUs maxStashSize r.engine r.links ∧
      r'.desk = envs.foldl Desk.sort r.desk ∧ r'.cidGen = r.cidGen ∧ Kept r r' := by
  obtain ⟨envs, harrivals, hdesk, htidy, hapart, hserves, henvs⟩ := pumpInbound_sorted tidy h
  refine ⟨envs, harrivals, henvs, hdesk, hapart.cidGen, htidy, fun counted => ?_, hserves⟩
  refine counted.of_desk hapart.pendingCount fun i => ?_
  rw [hdesk]
  exact heard_isSome r.desk envs i

theorem sendToEngine_eq {env : MessageEnvelope} {res : Result}
    (h : r.sendToEngine env nowUs = .ok (res, r')) :
    ∃ engine links, r' = { r with engine, links } ∧ Serves r.engine engine := by
  obtain ⟨⟨⟨res', sent⟩, engine⟩, hsend, heq⟩ := bind_eq_ok.mp h
  cases heq
  have hcall : DeliveryEngine.run (.send env nowUs) (r.engine.attach r.nextLink) = _ :=
    bind_eq_ok.mpr ⟨_, hsend, rfl⟩
  exact ⟨engine, _, rfl, .call hcall⟩

theorem sendResponse_eq {destination : NodeId} {cid : UInt64} {appPayload : Array UInt8}
    {appPayloadLen : UInt32} {res : Result}
    (h : r.sendResponse destination cid appPayload appPayloadLen nowUs = .ok (res, r')) :
    ∃ engine links, r' = { r with engine, links } ∧ Serves r.engine engine := by
  obtain ⟨⟨wireLen, wireBuf⟩, -, h⟩ := bind_eq_ok.mp h
  dsimp only at h
  split at h
  · cases h
    exact ⟨r.engine, r.links, rfl, .refl⟩
  · obtain ⟨env, -, h⟩ := bind_eq_ok.mp h
    exact sendToEngine_eq h

theorem findFreePending_some {slot : Fin maxPendingRequests} (h : r.findFreePending = some slot) :
    r.pending[slot].active = false := by
  have hit := firstSlot?_some h
  rw [Bool.not_eq_true'] at hit
  exact hit

/-- A request is refused, or it waits in a slot that was free. -/
theorem sendRequest_turn {destination : NodeId} {appPayload : Array UInt8} {appPayloadLen : UInt32}
    {timeoutUs : UInt64} {res : Except Result UInt64} (tidy : Tidy r) (harrivals : r.arrivals = [])
    (h : r.sendRequest destination appPayload appPayloadLen timeoutUs nowUs = .ok (res, r')) :
    Turn r (.sendRequest destination appPayload appPayloadLen timeoutUs nowUs)
      ⟨.requested res, r'.arrivals⟩ r' ∧ Kept r r' ∧ r'.arrivals = [] := by
  unfold sendRequest at h
  cases hfree : r.findFreePending with
  | none =>
    rw [hfree] at h
    cases h
    rw [harrivals]
    exact ⟨.refused rfl (.inl rfl), ⟨tidy, id, .refl⟩, rfl⟩
  | some slot =>
    have hinactive := findFreePending_some hfree
    rw [hfree] at h
    obtain ⟨⟨wireLen, wireBuf⟩, -, h⟩ := bind_eq_ok.mp h
    dsimp only at h
    split at h
    case isTrue _ =>
      cases h
      rw [show ({ r with cidGen := nextCid r.cidGen } : RequestReplyEngine).arrivals = [] from harrivals]
      exact ⟨.refused rfl (.inr rfl), ⟨{ tidy with }, id, .refl⟩, rfl⟩
    case isFalse _ =>
    obtain ⟨env, -, h⟩ := bind_eq_ok.mp h
    obtain ⟨⟨sent, r₁⟩, hsend, h⟩ := bind_eq_ok.mp h
    obtain ⟨engine, links, rfl, hserves⟩ := sendToEngine_eq hsend
    dsimp only at h
    split at h
    case isTrue _ =>
      cases h
      rw [show ({ r with cidGen := nextCid r.cidGen, engine, links } : RequestReplyEngine).arrivals = []
        from harrivals]
      exact ⟨.refused rfl (.inr rfl), ⟨{ tidy with }, id, hserves⟩, rfl⟩
    case isFalse _ =>
    obtain ⟨hcid, h⟩ := ensure_bind_eq_ok.mp h
    cases h
    refine ⟨?_, ⟨{ tidy with }, fun counted => ?_, hserves⟩, harrivals⟩
    · change Turn r _ ⟨_, r.arrivals⟩ _
      rw [harrivals]
      have hfree : r.desk.waiting slot = none := waiting?_of_inactive hinactive
      refine .opened hfree hcid ?_ rfl
      funext j
      simp only [desk, Function.update_apply, getElem_set_fin]
      by_cases hj : slot = j
      · rw [if_pos hj, if_pos hj.symm]
        rfl
      · rw [if_neg hj, if_neg (fun h => hj h.symm)]
    · have hset := countP_set_add (·.active) r.pending slot
        { r.pending[slot] with
          correlationId := r.cidGen, expiresUs := requestExpiry timeoutUs nowUs, active := true
          stashLen := 0, stashReady := false }
      rw [if_neg (by rw [hinactive]; exact Bool.false_ne_true), if_pos rfl] at hset
      change r.pendingCount + 1 = _
      rw [counted]
      exact hset.symm

/-! ## The calls that pump -/

theorem stashSlot_zero (head : Fin maxStashSize) : stashSlot head 0 = head :=
  Fin.ext (Nat.mod_eq_of_lt head.isLt)

theorem stashSlot_succ (head : Fin maxStashSize) (k : Nat) :
    stashSlot head (k + 1) = stashSlot (stashSlot head 1) k := by
  apply Fin.ext
  simp only [stashSlot, Circular.slot, Nat.mod_add_mod]
  congr 1
  omega

/-- Reading the oldest request keeps the queue tidy. -/
theorem Tidy.popRequest (tidy : Tidy r) {request : StashedRequest}
    (hinactive : request.active = false) :
    Tidy { r with
      requestStash := r.requestStash.set r.stashHead request r.stashHead.isLt
      stashHead := stashSlot r.stashHead 1
      stashCount := r.stashCount - 1 } := by
  have hcount := tidy.stashCount
  refine ⟨Nat.le_trans (Nat.sub_le _ 1) hcount, fun j => ?_, tidy.nonRrCount⟩
  simp only [getElem_set_fin]
  by_cases hj : r.stashHead = j
  · rw [if_pos hj, hinactive]
    refine ⟨fun h => absurd h Bool.false_ne_true, ?_⟩
    rintro ⟨k, hk, hslot⟩
    have hhead : stashSlot r.stashHead 0 = stashSlot r.stashHead (k + 1) := by
      rw [stashSlot_zero, stashSlot_succ, hslot, hj]
    exact absurd hhead (Circular.slot_ne (Nat.succ_pos k) (by omega))
  · rw [if_neg hj, tidy.active j]
    constructor
    · rintro ⟨k, hk, hslot⟩
      cases k with
      | zero => exact absurd ((stashSlot_zero r.stashHead).symm.trans hslot) hj
      | succ k => exact ⟨k, by omega, (stashSlot_succ r.stashHead k).symm.trans hslot⟩
    · rintro ⟨k, hk, hslot⟩
      exact ⟨k + 1, by omega, (stashSlot_succ r.stashHead k).trans hslot⟩

theorem receiveRequest_turn {bufCap : UInt32} {res : Except Result (List UInt8 × NodeId × UInt64)}
    (tidy : Tidy r) (harrivals : r.arrivals = [])
    (h : r.receiveRequest bufCap nowUs = .ok (res, r')) :
    Turn r (.receiveRequest bufCap nowUs) ⟨.request res, r'.arrivals⟩ r' ∧ Kept r r' ∧
      r'.arrivals = handedUp nowUs maxStashSize r.engine r.links := by
  obtain ⟨r₁, hpump, h⟩ := bind_eq_ok.mp h
  obtain ⟨envs, harrived, henvs, hdesk, hcid, hkept⟩ := pumpInbound_kept tidy hpump
  rw [harrivals, List.nil_append] at harrived
  have hwaiting : r₁.desk.waiting = heard r.desk r₁.arrivals := by
    rw [hdesk, harrived]
    rfl
  split at h
  case isTrue _ =>
    cases h
    exact ⟨.pumped (by simp) (by simp) hwaiting hcid, hkept, harrived.trans henvs⟩
  case isFalse _ =>
    obtain ⟨bytes, -, h⟩ := bind_eq_ok.mp h
    obtain ⟨-, h⟩ := ensure_bind_eq_ok.mp h
    obtain ⟨-, h⟩ := ensure_bind_eq_ok.mp h
    cases h
    exact ⟨.pumped (by simp) (by simp) hwaiting hcid,
      ⟨hkept.tidy.popRequest rfl, hkept.counted, hkept.serves⟩, harrived.trans henvs⟩

theorem receiveNonRr_turn {reply : Reply} (tidy : Tidy r) (harrivals : r.arrivals = [])
    (h : r.receiveNonRr nowUs = .ok (reply, r')) :
    Turn r (.receiveNonRr nowUs) ⟨.nonRr reply, r'.arrivals⟩ r' ∧ Kept r r' ∧
      r'.arrivals = handedUp nowUs maxStashSize r.engine r.links := by
  obtain ⟨-, h⟩ := ensure_bind_eq_ok.mp h
  obtain ⟨r₁, hpump, h⟩ := bind_eq_ok.mp h
  obtain ⟨envs, harrived, henvs, hdesk, hcid, hkept⟩ := pumpInbound_kept tidy hpump
  rw [harrivals, List.nil_append] at harrived
  have hwaiting : r₁.desk.waiting = heard r.desk r₁.arrivals := by
    rw [hdesk, harrived]
    rfl
  split at h
  case isTrue _ =>
    cases h
    exact ⟨.pumped (by simp) (by simp) hwaiting hcid, hkept, harrived.trans henvs⟩
  case isFalse _ =>
    obtain ⟨hcount, h⟩ := ensure_bind_eq_ok.mp h
    cases h
    exact ⟨.pumped (by simp) (by simp) hwaiting hcid,
      ⟨⟨hkept.tidy.stashCount, hkept.tidy.active, Nat.le_of_lt hcount⟩, hkept.counted, hkept.serves⟩,
      harrived.trans henvs⟩

theorem copyOut_eq_ok {n len : Nat} {src : Vector UInt8 n} {bytes : List UInt8}
    (h : copyOut src len = .ok bytes) : bytes = src.toList.take len := by
  unfold copyOut at h
  split at h
  case isTrue _ =>
    cases h
    rfl
  case isFalse _ => cases h

/-- The first bytes of the first bytes. -/
theorem take_take_cap (bytes : List UInt8) (len cap : UInt32) :
    bytes.take (if len > cap then cap else len).toNat = (bytes.take len.toNat).take cap.toNat := by
  rw [List.take_take]
  split
  case isTrue hgt => rw [Nat.min_eq_left (Nat.le_of_lt (UInt32.lt_iff_toNat_lt.mp hgt))]
  case isFalse hle => rw [Nat.min_eq_right (UInt32.le_iff_toNat_le.mp (UInt32.not_lt.mp hle))]

theorem waiting?_of_ready {p : PendingRequest} (hactive : p.active = true) (hready : p.stashReady = true) :
    waiting? p = some ⟨p.correlationId, p.expiresUs,
      some (p.stashPayload.toList.take p.stashLen.toNat)⟩ := by
  rw [waiting?, if_pos hactive, if_pos hready]

theorem receiveResponse_turn {cid : UInt64} {bufCap : UInt32} {res : Except Result (List UInt8)}
    (tidy : Tidy r) (harrivals : r.arrivals = [])
    (h : r.receiveResponse cid bufCap nowUs = .ok (res, r')) :
    Turn r (.receiveResponse cid bufCap nowUs) ⟨.response res, r'.arrivals⟩ r' ∧
      Kept r r' ∧ r'.arrivals = handedUp nowUs maxStashSize r.engine r.links := by
  obtain ⟨r₁, hpump, h⟩ := bind_eq_ok.mp h
  obtain ⟨envs, harrived, henvs, hdesk, hcid, hkept⟩ := pumpInbound_kept tidy hpump
  rw [harrivals, List.nil_append] at harrived
  have hwaiting : r₁.desk.waiting = heard r.desk r₁.arrivals := by
    rw [hdesk, harrived]
    rfl
  obtain ⟨slot, hfind, h⟩ := bind_eq_ok.mp h
  obtain ⟨-, hfound⟩ := ensure_bind_eq_ok.mp hfind
  cases slot with
  | none =>
    cases h
    exact ⟨.pumped (by simp) (by simp) hwaiting hcid, hkept, harrived.trans henvs⟩
  | some idx =>
    dsimp only at h
    split at h
    case isTrue _ =>
      cases h
      exact ⟨.pumped (by simp) (by simp) hwaiting hcid, hkept, harrived.trans henvs⟩
    case isFalse hready =>
      obtain ⟨bytes, hcopy, h⟩ := bind_eq_ok.mp h
      cases h
      have hslot : firstSlot? (fun p => p.active && p.correlationId == cid) r₁.pending = some idx :=
        Except.ok.inj hfound
      have hactive : r₁.pending[idx].active = true := by
        have hit := firstSlot?_some hslot
        rw [Bool.and_eq_true] at hit
        exact hit.1
      have hready' : r₁.pending[idx].stashReady = true := by
        rw [← Bool.not_eq_false]
        exact hready
      refine ⟨?_, ⟨hkept.tidy.freePending idx,
        fun counted => (hkept.counted counted).freePending hactive, hkept.serves⟩, harrived.trans henvs⟩
      have hheard : heard r.desk envs idx = waiting? r₁.pending[idx] := by
        rw [heard, ← hdesk]
        rfl
      have hopen := hheard.trans (waiting?_of_ready hactive hready')
      rw [copyOut_eq_ok hcopy, take_take_cap]
      change Turn r _ ⟨_, r₁.arrivals⟩ _
      rw [harrived]
      have hfound : (envs.foldl Desk.sort r.desk).slot? cid = some idx := by
        rw [← hdesk, slot?_desk, hslot]
      refine .collected hfound hopen rfl ?_ hcid
      rw [freePending_waiting, hwaiting, harrived]

/-! ## The sweep -/

/-- The sweep so far: the slots below `k` are swept and nothing else is touched. -/
structure SweptTo (r : RequestReplyEngine) (nowUs : UInt64) (k : Nat) (s : RequestReplyEngine × Nat) :
    Prop where
  below : ∀ i : Fin maxPendingRequests, (i : Nat) < k →
    s.1.desk.waiting i = (r.desk.waiting i).filter fun w => ¬ w.Overdue nowUs
  above : ∀ i : Fin maxPendingRequests, k ≤ i → s.1.desk.waiting i = r.desk.waiting i
  cidGen : s.1.cidGen = r.cidGen
  arrivals : s.1.arrivals = r.arrivals
  engine : s.1.engine = r.engine
  tidy : Tidy s.1
  counted : Counted r → Counted s.1

theorem waiting?_overdue {p : PendingRequest} (hexpires : p.expiresUs ≠ 0) (hnow : nowUs ≥ p.expiresUs) :
    ((waiting? p).filter fun w => ¬ w.Overdue nowUs) = none := by
  unfold waiting?
  split
  · simp [Waiting.Overdue, hexpires, hnow]
  · rfl

theorem round_swept {i : Fin maxPendingRequests} {s s' : RequestReplyEngine × Nat}
    (inv : SweptTo r nowUs i s) (h : sweepTimeouts.round nowUs i s = .ok s') :
    SweptTo r nowUs (i + 1) s' := by
  have hhere : s.1.desk.waiting i = r.desk.waiting i := inv.above i (Nat.le_refl _)
  unfold sweepTimeouts.round at h
  split at h
  case isTrue hdue =>
    cases h
    obtain ⟨hactive, hexpires, hnow⟩ := hdue
    refine ⟨fun j hj => ?_, fun j hj => ?_, inv.cidGen, inv.arrivals, inv.engine,
      inv.tidy.freePending i, fun counted => (inv.counted counted).freePending hactive⟩
    · rw [freePending_waiting, Function.update_apply]
      split
      case isTrue heq =>
        rw [heq, ← hhere]
        exact (waiting?_overdue hexpires hnow).symm
      case isFalse hne =>
        have hlt : (j : Nat) < i := by
          have := Fin.val_ne_of_ne hne
          omega
        exact inv.below j hlt
    · have hne : j ≠ i := by
        intro heq
        rw [heq] at hj
        omega
      rw [freePending_waiting, Function.update_of_ne hne]
      exact inv.above j (by omega)
  case isFalse hkeep =>
    cases h
    refine { inv with below := fun j hj => ?_, above := fun j hj => inv.above j (by omega) }
    rcases Nat.lt_succ_iff_lt_or_eq.mp hj with hlt | heq
    · exact inv.below j hlt
    · have hji : j = i := Fin.ext heq
      rw [hji, hhere]
      cases hopen : r.desk.waiting i with
      | none => rfl
      | some w =>
        rw [Option.filter_some_pos]
        refine decide_eq_true fun hover => hkeep ?_
        rw [← hhere] at hopen
        have hactive : s.1.pending[i].active = true := active_iff.mpr ⟨w, hopen⟩
        have hw : s.1.desk.waiting i = some _ := if_pos hactive
        cases hopen.symm.trans hw
        exact ⟨hactive, hover⟩

theorem sweepTimeouts_turn {freed : Nat} (tidy : Tidy r) (harrivals : r.arrivals = [])
    (h : r.sweepTimeouts nowUs = .ok (freed, r')) :
    Turn r (.sweepTimeouts nowUs) ⟨.swept freed, r'.arrivals⟩ r' ∧ Kept r r' ∧ r'.arrivals = [] := by
  obtain ⟨-, h⟩ := ensure_bind_eq_ok.mp h
  obtain ⟨⟨r₁, n⟩, hloop, h⟩ := bind_eq_ok.mp h
  obtain ⟨-, h⟩ := ensure_bind_eq_ok.mp h
  obtain ⟨-, h⟩ := ensure_bind_eq_ok.mp h
  cases h
  have hstart : SweptTo r nowUs 0 (r, 0) :=
    ⟨fun i hi => absurd hi (Nat.not_lt_zero i), fun i _ => rfl, rfl, rfl, rfl, tidy, id⟩
  have hswept : SweptTo r nowUs maxPendingRequests _ :=
    eachIndex_inv hloop hstart fun i s s' => round_swept
  refine ⟨?_, ⟨hswept.tidy, hswept.counted, ?_⟩, hswept.arrivals.trans harrivals⟩
  · rw [hswept.arrivals, harrivals]
    exact .swept (fun i => hswept.below i i.isLt) hswept.cidGen
  · rw [hswept.engine]
    exact .refl

/-! ## The step -/

/-- What the delivery engine hands up during a call: only the calls that pump ask it. -/
def arriving (call : Call) (engine : DeliveryEngine) (links : List Transport) : List MessageEnvelope :=
  match call with
  | .receiveRequest _ nowUs => handedUp nowUs maxStashSize engine links
  | .receiveResponse _ _ nowUs => handedUp nowUs maxStashSize engine links
  | .receiveNonRr nowUs => handedUp nowUs maxStashSize engine links
  | _ => []

theorem run_turn {call : Call} {answer : Answer} (tidy : Tidy r) (harrivals : r.arrivals = [])
    (h : run call r = .ok (answer, r')) :
    Turn r call ⟨answer, r'.arrivals⟩ r' ∧ Kept r r' ∧ r'.arrivals = arriving call r.engine r.links := by
  cases call with
  | sendRequest destination appPayload appPayloadLen timeoutUs nowUs =>
    obtain ⟨⟨res, r₁⟩, hrun, heq⟩ := bind_eq_ok.mp h
    cases heq
    exact sendRequest_turn tidy harrivals hrun
  | receiveRequest bufCap nowUs =>
    obtain ⟨⟨res, r₁⟩, hrun, heq⟩ := bind_eq_ok.mp h
    cases heq
    exact receiveRequest_turn tidy harrivals hrun
  | sendResponse destination correlationId appPayload appPayloadLen nowUs =>
    obtain ⟨⟨res, r₁⟩, hrun, heq⟩ := bind_eq_ok.mp h
    cases heq
    obtain ⟨engine, links, rfl, hserves⟩ := sendResponse_eq hrun
    refine ⟨.pumped (by simp) (by simp) ?_ rfl, ⟨{ tidy with }, id, hserves⟩, harrivals⟩
    change r.desk.waiting = heard r.desk r.arrivals
    rw [harrivals]
    rfl
  | receiveResponse correlationId bufCap nowUs =>
    obtain ⟨⟨res, r₁⟩, hrun, heq⟩ := bind_eq_ok.mp h
    cases heq
    exact receiveResponse_turn tidy harrivals hrun
  | receiveNonRr nowUs =>
    obtain ⟨⟨reply, r₁⟩, hrun, heq⟩ := bind_eq_ok.mp h
    cases heq
    exact receiveNonRr_turn tidy harrivals hrun
  | sweepTimeouts nowUs =>
    obtain ⟨⟨freed, r₁⟩, hrun, heq⟩ := bind_eq_ok.mp h
    cases heq
    exact sweepTimeouts_turn tidy harrivals hrun
  | engine call =>
    obtain ⟨⟨answer', engine⟩, hrun, heq⟩ := bind_eq_ok.mp h
    cases heq
    refine ⟨.pumped (by simp) (by simp) ?_ rfl, ⟨{ tidy with }, id, .call hrun⟩, harrivals⟩
    change r.desk.waiting = heard r.desk r.arrivals
    rw [harrivals]
    rfl

/-- The links and the record of a call are not what a turn looks at. -/
theorem Turn.of_fresh {call : Call} {o : Observation} {links : List Transport}
    (h : Turn { r with links, arrivals := [] } call o r') : Turn r call o r' := by
  cases h with
  | opened free nonzero waiting cidGen => exact .opened free nonzero waiting cidGen
  | refused waiting cidGen => exact .refused waiting cidGen
  | collected found open_ response waiting cidGen => exact .collected found open_ response waiting cidGen
  | pumped notCollected notOpened waiting cidGen => exact .pumped notCollected notOpened waiting cidGen
  | swept waiting cidGen => exact .swept waiting cidGen

/-- Everything a call that returns does. -/
theorem exec_turn {i : Input} {o : Observation} (tidy : Tidy r) (h : exec i r = .ok (o, r')) :
    Turn r i.call o r' ∧ Kept r r' ∧ o.arrivals = arriving i.call r.engine i.links := by
  obtain ⟨⟨answer, r₁⟩, hrun, heq⟩ := bind_eq_ok.mp h
  cases heq
  have htidy : Tidy { r with links := i.links, arrivals := [] } := { tidy with }
  obtain ⟨hturn, hkept, harrived⟩ := run_turn htidy rfl hrun
  exact ⟨hturn.of_fresh, ⟨hkept.tidy, hkept.counted, hkept.serves⟩, harrived⟩

end RequestReplyEngine

end MessageEngine
