import Mathlib.Data.List.DropRight
import MessageEngine.Laws.RequestReply.Inbound

/-!
# Requests and their responses

Over every run, a response reaches the request it answers and no other. The invariant is a ledger of
the history: an open request has heard the first response that was dispatched while it was open, it
has not been collected, and no id above the counter has ever been seen. Reusing a slot therefore
brings in a fresh id, and nothing that was stashed for the last occupant is seen again.

## What is proved

- `response_correlation`: ids are distinct and non-zero, the counter is exact, each id is collected
  at most once, and what is collected is the first response dispatched while the request was open;
- `response_source`: whose response that is, and when it is the one of the node that was asked.
-/

namespace MessageEngine

open Outcome Table

namespace RequestReplyEngine

variable {r r' : RequestReplyEngine} {d : Desk} {env : MessageEnvelope}

/-! ## Hearing -/

/-- The envelope carries a response with this id. -/
def Answers (cid : UInt64) (env : MessageEnvelope) : Prop :=
  envelopeIsData env ∧ header? env = some (.response, cid)

instance (cid : UInt64) (env : MessageEnvelope) : Decidable (Answers cid env) :=
  inferInstanceAs (Decidable (_ ∧ _))

/-- No two open requests have the same id. -/
def Desk.Distinct (d : Desk) : Prop :=
  ∀ i j w v, d.waiting i = some w → d.waiting j = some v → w.correlationId = v.correlationId → i = j

theorem slot?_some {cid : UInt64} {i : Fin maxPendingRequests} (h : d.slot? cid = some i) :
    ∃ w, d.waiting i = some w ∧ w.correlationId = cid := by
  have hit := List.find?_some h
  change (d.waiting i).any (·.correlationId == cid) = true at hit
  cases hw : d.waiting i with
  | none =>
    rw [hw] at hit
    cases hit
  | some w =>
    rw [hw] at hit
    exact ⟨w, rfl, beq_iff_eq.mp hit⟩

theorem slot?_eq_some (distinct : d.Distinct) {i : Fin maxPendingRequests} {w : Waiting}
    (h : d.waiting i = some w) : d.slot? w.correlationId = some i := by
  cases hslot : d.slot? w.correlationId with
  | none =>
    have hmiss := List.find?_eq_none.mp hslot i (List.mem_finRange i)
    rw [h] at hmiss
    exact absurd (beq_self_eq_true _) hmiss
  | some j =>
    obtain ⟨v, hv, hid⟩ := slot?_some hslot
    rw [distinct i j w v h hv hid.symm]

/-- Sorting does not change which slot waits for an id. -/
theorem sort_slot? (d : Desk) (env : MessageEnvelope) (cid : UInt64) :
    (d.sort env).slot? cid = d.slot? cid := by
  unfold Desk.slot?
  congr 1
  funext i
  have hids := congrArg (Option.any (· == cid)) (sort_ids d env i)
  rw [Option.any_map, Option.any_map] at hids
  exact hids

theorem sort_slots? (d : Desk) (envs : List MessageEnvelope) (cid : UInt64) :
    (envs.foldl Desk.sort d).slot? cid = d.slot? cid := by
  induction envs generalizing d with
  | nil => rfl
  | cons env envs ih => rw [List.foldl_cons, ih, sort_slot?]

/-- What one envelope does to one open request: the slot that waits for the id hears it. -/
theorem sort_waiting (d : Desk) (env : MessageEnvelope) (i : Fin maxPendingRequests) :
    (d.sort env).waiting i = (d.waiting i).map fun w =>
      if Answers w.correlationId env ∧ d.slot? w.correlationId = some i then w.heard (appBytes env)
      else w := by
  have hsame (hnot : ∀ w : Waiting, ¬ Answers w.correlationId env) : d.waiting i = (d.waiting i).map fun w =>
      if Answers w.correlationId env ∧ d.slot? w.correlationId = some i then w.heard (appBytes env)
      else w := by
    simp [hnot]
  by_cases hdata : envelopeIsData env
  case neg =>
    rw [Desk.sort, if_pos hdata]
    exact hsame fun w hans => hdata hans.1
  rw [Desk.sort_data hdata]
  cases hheader : header? env with
  | none =>
    rw [Desk.pass_waiting]
    refine hsame fun w hans => ?_
    cases hheader.symm.trans hans.2
  | some header =>
    obtain ⟨kind, cid⟩ := header
    cases kind with
    | request =>
      rw [Desk.ask_waiting]
      refine hsame fun w hans => ?_
      cases hheader.symm.trans hans.2
    | response =>
      have hanswers (w : Waiting) : Answers w.correlationId env ↔ cid = w.correlationId := by
        rw [Answers, hheader]
        simp [hdata]
      rw [Desk.hear_waiting]
      cases hw : d.waiting i with
      | none => simp
      | some w =>
        simp only [Option.map_some, hanswers]
        by_cases hcid : cid = w.correlationId
        · rw [← hcid]
          split
          case isTrue h => rw [if_pos ⟨rfl, h⟩]
          case isFalse h => rw [if_neg (fun hand => h hand.2)]
        · rw [if_neg (fun hand : cid = w.correlationId ∧ _ => hcid hand.1), if_neg]
          intro hslot
          obtain ⟨v, hv, hid⟩ := slot?_some hslot
          cases hw.symm.trans hv
          exact hcid hid.symm

/-- The request after these envelopes: the first response is kept. -/
def Waiting.after (w : Waiting) (envs : List MessageEnvelope) : Waiting :=
  { w with response := w.response.or ((envs.find? fun env => Answers w.correlationId env).map appBytes) }

/-- What a pump does to one open request. -/
theorem heard_eq (d : Desk) (envs : List MessageEnvelope) (i : Fin maxPendingRequests) :
    heard d envs i = (d.waiting i).map fun w =>
      if d.slot? w.correlationId = some i then w.after envs else w := by
  unfold heard
  induction envs generalizing d with
  | nil =>
    rw [List.foldl_nil]
    simp [Waiting.after]
  | cons env envs ih =>
    rw [List.foldl_cons, ih, sort_waiting, Option.map_map]
    congr 1
    funext w
    simp only [sort_slot?, Function.comp_apply]
    by_cases hslot : d.slot? w.correlationId = some i
    · by_cases hans : Answers w.correlationId env
      · simp [Waiting.after, Waiting.heard, hans, hslot]
      · simp [Waiting.after, hans, hslot]
    · simp [hslot]

/-! ## Histories -/

/-- A call that was made, with the states around it. -/
abbrev Made := Run.Taken RequestReplyEngine Input Observation

/-- The call asks for a request to be sent. -/
def isRequest (call : Call) : Bool :=
  match call with
  | .sendRequest .. => true
  | _ => false

/-- A request with this id waits for its response. -/
def Open (r : RequestReplyEngine) (cid : UInt64) : Prop :=
  ∃ i : Fin maxPendingRequests, r.pending[i].active = true ∧ r.pending[i].correlationId = cid

instance (r : RequestReplyEngine) (cid : UInt64) : Decidable (Open r cid) :=
  inferInstanceAs (Decidable (∃ _, _))

/-- The responses with this id that were dispatched during the call while the request was open. Only
the end of a call opens or closes a request. -/
def responsesTo (cid : UInt64) (t : Made) : List MessageEnvelope :=
  if Open t.before cid then t.output.arrivals.filter fun env => Answers cid env else []

/-- The room and the bytes of a `receive_response` for this id that returned `OK`. -/
def collected? (cid : UInt64) (t : Made) : Option (UInt32 × List UInt8) :=
  match t.input.call, t.output.answer with
  | .receiveResponse correlationId bufCap _, .response (.ok bytes) =>
    if correlationId = cid then some (bufCap, bytes) else none
  | _, _ => none

/-- The calls that collected this id. -/
def collections (cid : UInt64) (past : List Made) : List Made :=
  past.filter fun t => (collected? cid t).isSome

/-- All responses with this id that were dispatched while the request was open, in order. -/
def responses (cid : UInt64) (past : List Made) : List MessageEnvelope := past.flatMap (responsesTo cid)

/-- The id a call of `send_request` returned, and the node it asked. -/
def issued? (t : Made) : Option (UInt64 × NodeId) :=
  match t.input.call, t.output.answer with
  | .sendRequest destination .., .requested (.ok cid) => some (cid, destination)
  | _, _ => none

/-- All ids returned so far, with the nodes that were asked. -/
def issued (past : List Made) : List (UInt64 × NodeId) := past.filterMap issued?

/-! ## Ids -/

/-- The counter once `n` ids have been drawn. -/
def cidAfter (n : Nat) : UInt64 := if n = 2 ^ 64 - 1 then 1 else .ofNat (n + 1)

theorem toNat_cidAfter {n : Nat} (h : n + 1 < 2 ^ 64) : (cidAfter n).toNat = n + 1 := by
  rw [cidAfter, if_neg (by omega), UInt64.toNat_ofNat', Nat.mod_eq_of_lt h]

theorem nextCid_cidAfter {n : Nat} (h : n + 1 < 2 ^ 64) : nextCid (cidAfter n) = cidAfter (n + 1) := by
  have hval := toNat_cidAfter h
  unfold nextCid
  by_cases hlast : n + 1 = 2 ^ 64 - 1
  · have hmax : cidAfter n = 0xFFFFFFFFFFFFFFFF := UInt64.toNat_inj.mp (hval.trans hlast)
    rw [if_pos hmax, cidAfter, if_pos hlast]
  · have hnot : ¬ cidAfter n = 0xFFFFFFFFFFFFFFFF := by
      intro hmax
      rw [hmax] at hval
      exact hlast hval.symm
    rw [if_neg hnot]
    apply UInt64.toNat_inj.mp
    rw [UInt64.toNat_add, hval, toNat_cidAfter (by omega)]
    exact Nat.mod_eq_of_lt (by simp; omega)

/-! ## The ledger -/

/-- What the past says about the open requests, and the ids that were drawn. -/
structure Ledger (past : List Made) (n : Nat) (r : RequestReplyEngine) : Prop where
  tidy : Tidy r
  counted : Counted r
  drawn : r.cidGen = cidAfter n
  distinct : r.desk.Distinct
  bounded : ∀ i w, r.desk.waiting i = some w → 1 ≤ w.correlationId.toNat ∧ w.correlationId.toNat ≤ n
  heard : ∀ i w, r.desk.waiting i = some w →
    w.response = (responses w.correlationId past).head?.map appBytes
  waiting : ∀ i w, r.desk.waiting i = some w → collections w.correlationId past = []
  fresh : ∀ cid : UInt64, n < cid.toNat → responses cid past = [] ∧ collections cid past = []
  once : ∀ cid, (collections cid past).length ≤ 1
  issuedBelow : ∀ p ∈ issued past, p.1.toNat ≤ n
  issuedOnce : ((issued past).map Prod.fst).Nodup

theorem open_iff {cid : UInt64} :
    Open r cid ↔ ∃ i w, r.desk.waiting i = some w ∧ w.correlationId = cid := by
  constructor
  · rintro ⟨i, hactive, hcid⟩
    exact ⟨i, _, if_pos hactive, hcid⟩
  · rintro ⟨i, w, hw, hcid⟩
    have hactive : r.pending[i].active = true := active_iff.mpr ⟨w, hw⟩
    have hview : r.desk.waiting i = some _ := if_pos hactive
    cases hw.symm.trans hview
    exact ⟨i, hactive, hcid⟩

variable {past : List Made} {n : Nat} {cid : UInt64}

theorem responses_concat (past : List Made) (t : Made) :
    responses cid (past ++ [t]) = responses cid past ++ responsesTo cid t := by
  simp [responses]

theorem collections_concat (past : List Made) (t : Made) :
    collections cid (past ++ [t]) = collections cid past ++ collections cid [t] :=
  List.filter_append ..

theorem issued_of_none {t : Made} (h : issued? t = none) : issued (past ++ [t]) = issued past := by
  simp [issued, h]

theorem collections_of_none {t : Made} (h : collected? cid t = none) :
    collections cid (past ++ [t]) = collections cid past := by
  rw [collections_concat, collections, collections]
  simp [h]

theorem ledger_init (engine : DeliveryEngine) : Ledger [] 0 (init engine) := by
  have hnone : ∀ i, (init engine).desk.waiting i = none := by
    intro i
    apply waiting?_of_inactive
    simp [init]
  have hno : ∀ i w, (init engine).desk.waiting i ≠ some w := by
    intro i w hw
    cases (hnone i).symm.trans hw
  refine ⟨tidy_init engine, ?_, rfl, fun i j w v hw => absurd hw (hno i w), fun i w hw => absurd hw (hno i w),
    fun i w hw => absurd hw (hno i w), fun i w hw => absurd hw (hno i w), fun cid _ => ⟨rfl, rfl⟩,
    fun cid => Nat.zero_le 1, fun p hp => absurd hp List.not_mem_nil, List.nodup_nil⟩
  rw [Counted, eq_comm, countP_eq_zero.mpr]
  · rfl
  · intro i
    simp [init]

/-- A call that hears nothing and collects nothing adds nothing to the past. -/
theorem Ledger.skip {t : Made} (ledger : Ledger past n r) (hquiet : t.output.arrivals = [])
    (hnone : ∀ cid, collected? cid t = none) (hbelow : ∀ p ∈ issued (past ++ [t]), p.1.toNat ≤ n)
    (honce : ((issued (past ++ [t])).map Prod.fst).Nodup) : Ledger (past ++ [t]) n r := by
  have hresponses : ∀ cid, responses cid (past ++ [t]) = responses cid past := by
    intro cid
    rw [responses_concat, responsesTo, hquiet, List.filter_nil, ite_self, List.append_nil]
  have hcollections : ∀ cid, collections cid (past ++ [t]) = collections cid past :=
    fun cid => collections_of_none (hnone cid)
  refine { ledger with
    heard := ?_, waiting := ?_, fresh := ?_, once := ?_, issuedBelow := hbelow, issuedOnce := honce }
  · intro i w hw
    rw [hresponses]
    exact ledger.heard i w hw
  · intro i w hw
    rw [hcollections]
    exact ledger.waiting i w hw
  · intro cid hcid
    rw [hresponses, hcollections]
    exact ledger.fresh cid hcid
  · intro cid
    rw [hcollections]
    exact ledger.once cid

/-- A call after which every open request was open before and has heard what arrived. What the call
collects was open and is not any more. -/
theorem Ledger.hears {i : Input} {o : Observation} (ledger : Ledger past n r) (kept : Kept r r')
    (hcid : r'.cidGen = r.cidGen)
    (table : ∀ j w', r'.desk.waiting j = some w' →
      ∃ w, r.desk.waiting j = some w ∧ w' = w.after o.arrivals)
    (spared : ∀ j w', r'.desk.waiting j = some w' → collected? w'.correlationId ⟨r, i, o, r'⟩ = none)
    (wasOpen : ∀ cid, (collected? cid ⟨r, i, o, r'⟩).isSome → Open r cid)
    (hissue : issued? ⟨r, i, o, r'⟩ = none) : Ledger (past ++ [⟨r, i, o, r'⟩]) n r' := by
  have hsame : issued (past ++ [⟨r, i, o, r'⟩]) = issued past := issued_of_none hissue
  refine ⟨kept.tidy, kept.counted ledger.counted, hcid.trans ledger.drawn, ?_, ?_, ?_, ?_, ?_, ?_,
    hsame ▸ ledger.issuedBelow, hsame ▸ ledger.issuedOnce⟩
  · intro j k w' v' hw' hv' heq
    obtain ⟨w, hw, rfl⟩ := table j w' hw'
    obtain ⟨v, hv, rfl⟩ := table k v' hv'
    exact ledger.distinct j k w v hw hv heq
  · intro j w' hw'
    obtain ⟨w, hw, rfl⟩ := table j w' hw'
    exact ledger.bounded j w hw
  · intro j w' hw'
    obtain ⟨w, hw, rfl⟩ := table j w' hw'
    have hopen : Open r w.correlationId := open_iff.mpr ⟨j, w, hw, rfl⟩
    change w.response.or _ = (responses w.correlationId _).head?.map appBytes
    rw [responses_concat, responsesTo, if_pos hopen, List.head?_append, List.head?_filter, Option.map_or,
      ledger.heard j w hw]
  · intro j w' hw'
    obtain ⟨w, hw, heq⟩ := table j w' hw'
    rw [collections_of_none (spared j w' hw'), heq]
    exact ledger.waiting j w hw
  · intro cid hlt
    have hclosed : ¬ Open r cid := by
      intro hopen
      obtain ⟨j, w, hw, rfl⟩ := open_iff.mp hopen
      have := (ledger.bounded j w hw).2
      omega
    have hnone : collected? cid ⟨r, i, o, r'⟩ = none := by
      rw [← Option.not_isSome_iff_eq_none]
      exact fun hsome => hclosed (wasOpen cid hsome)
    rw [responses_concat, responsesTo, if_neg hclosed, List.append_nil, collections_of_none hnone]
    exact ledger.fresh cid hlt
  · intro cid
    by_cases hsome : (collected? cid ⟨r, i, o, r'⟩).isSome
    · obtain ⟨j, w, hw, rfl⟩ := open_iff.mp (wasOpen cid hsome)
      rw [collections_concat, ledger.waiting j w hw, List.nil_append]
      exact List.length_filter_le ..
    · rw [collections_of_none (Option.not_isSome_iff_eq_none.mp hsome)]
      exact ledger.once cid

/-- The next id is drawn. -/
theorem Ledger.draw (ledger : Ledger past n r) (hfew : n + 1 < 2 ^ 64) (kept : Kept r r')
    (hwaiting : r'.desk.waiting = r.desk.waiting) (hcid : r'.cidGen = nextCid r.cidGen) :
    Ledger past (n + 1) r' where
  tidy := kept.tidy
  counted := kept.counted ledger.counted
  drawn := by rw [hcid, ledger.drawn, nextCid_cidAfter hfew]
  distinct := by
    unfold Desk.Distinct
    rw [hwaiting]
    exact ledger.distinct
  bounded := by
    intro i w hw
    rw [hwaiting] at hw
    exact ⟨(ledger.bounded i w hw).1, Nat.le_succ_of_le (ledger.bounded i w hw).2⟩
  heard := by
    intro i w hw
    rw [hwaiting] at hw
    exact ledger.heard i w hw
  waiting := by
    intro i w hw
    rw [hwaiting] at hw
    exact ledger.waiting i w hw
  fresh := fun cid hlt => ledger.fresh cid (Nat.lt_of_succ_lt hlt)
  once := ledger.once
  issuedBelow := fun p hp => Nat.le_succ_of_le (ledger.issuedBelow p hp)
  issuedOnce := ledger.issuedOnce

/-- The next id is drawn and a request waits with it. -/
theorem Ledger.opens {slot : Fin maxPendingRequests} {expiresUs : UInt64} (ledger : Ledger past n r)
    (hfew : n + 1 < 2 ^ 64) (kept : Kept r r')
    (hwaiting : r'.desk.waiting =
      Function.update r.desk.waiting slot (some ⟨r.cidGen, expiresUs, none⟩))
    (hcid : r'.cidGen = nextCid r.cidGen) : Ledger past (n + 1) r' := by
  have hnew : r.cidGen.toNat = n + 1 := by rw [ledger.drawn, toNat_cidAfter hfew]
  obtain ⟨hsilent, huncollected⟩ := ledger.fresh r.cidGen (by omega)
  -- An open request is the new one or an old one with a smaller id.
  have hcases : ∀ i w, r'.desk.waiting i = some w →
      (i = slot ∧ w = ⟨r.cidGen, expiresUs, none⟩) ∨ (i ≠ slot ∧ r.desk.waiting i = some w) := by
    intro i w hw
    rw [hwaiting] at hw
    by_cases hi : i = slot
    · rw [hi, Function.update_self] at hw
      cases hw
      exact .inl ⟨hi, rfl⟩
    · rw [Function.update_of_ne hi] at hw
      exact .inr ⟨hi, hw⟩
  refine ⟨kept.tidy, kept.counted ledger.counted, ?_, ?_, ?_, ?_, ?_, ?_, ledger.once,
    fun p hp => Nat.le_succ_of_le (ledger.issuedBelow p hp), ledger.issuedOnce⟩
  · rw [hcid, ledger.drawn, nextCid_cidAfter hfew]
  · intro i j w v hw hv heq
    rcases hcases i w hw with ⟨rfl, rfl⟩ | ⟨-, hw⟩
    · rcases hcases j v hv with ⟨rfl, -⟩ | ⟨-, hv⟩
      · rfl
      · have hle := (ledger.bounded j v hv).2
        rw [← heq] at hle
        change r.cidGen.toNat ≤ n at hle
        omega
    · rcases hcases j v hv with ⟨rfl, rfl⟩ | ⟨-, hv⟩
      · have hle := (ledger.bounded i w hw).2
        rw [heq] at hle
        change r.cidGen.toNat ≤ n at hle
        omega
      · exact ledger.distinct i j w v hw hv heq
  · intro i w hw
    rcases hcases i w hw with ⟨-, rfl⟩ | ⟨-, hw⟩
    · exact ⟨hnew ▸ Nat.succ_pos n, Nat.le_of_eq hnew⟩
    · exact ⟨(ledger.bounded i w hw).1, Nat.le_succ_of_le (ledger.bounded i w hw).2⟩
  · intro i w hw
    rcases hcases i w hw with ⟨-, rfl⟩ | ⟨-, hw⟩
    · rw [hsilent]
      rfl
    · exact ledger.heard i w hw
  · intro i w hw
    rcases hcases i w hw with ⟨-, rfl⟩ | ⟨-, hw⟩
    · exact huncollected
    · exact ledger.waiting i w hw
  · exact fun cid hlt => ledger.fresh cid (Nat.lt_of_succ_lt hlt)

/-- What is collected is the first response dispatched while the request was open. -/
def CollectsFirst (past : List Made) (t : Made) : Prop :=
  ∀ cid bufCap bytes, collected? cid t = some (bufCap, bytes) →
    ∃ env, (responses cid (past ++ [t])).head? = some env ∧ bytes = (appBytes env).take bufCap.toNat

theorem CollectsFirst.of_none {t : Made} (h : ∀ cid, collected? cid t = none) : CollectsFirst past t := by
  intro cid bufCap bytes hsome
  cases (h cid).symm.trans hsome

theorem Waiting.after_nil (w : Waiting) : w.after [] = w := by
  simp [Waiting.after]

/-- An open request after a pump was open before it. -/
theorem heard_cases (distinct : d.Distinct) {envs : List MessageEnvelope} {j : Fin maxPendingRequests}
    {w' : Waiting} (h : heard d envs j = some w') :
    ∃ w, d.waiting j = some w ∧ w' = w.after envs := by
  rw [heard_eq] at h
  obtain ⟨w, hw, heq⟩ := Option.map_eq_some_iff.mp h
  rw [if_pos (slot?_eq_some distinct hw)] at heq
  exact ⟨w, hw, heq.symm⟩

/-- Every call keeps the ledger, and collects what it should. -/
theorem ledger_step {i : Input} {o : Observation} (ledger : Ledger past n r)
    (hfew : isRequest i.call = true → n + 1 < 2 ^ 64) (h : exec i r = .ok (o, r')) :
    CollectsFirst past ⟨r, i, o, r'⟩ ∧
      ∃ n', n' ≤ n + (if isRequest i.call then 1 else 0) ∧ Ledger (past ++ [⟨r, i, o, r'⟩]) n' r' := by
  obtain ⟨hturn, hkept, -⟩ := exec_turn ledger.tidy h
  obtain ⟨call, links⟩ := i
  cases hturn with
  | opened free nonzero waiting cidGen =>
    have hnew : r.cidGen.toNat = n + 1 := by rw [ledger.drawn, toNat_cidAfter (hfew rfl)]
    refine ⟨.of_none fun _ => rfl, n + 1, Nat.le_refl _, ?_⟩
    refine (ledger.opens (hfew rfl) hkept waiting cidGen).skip rfl (fun _ => rfl) ?_ ?_
    · intro p hp
      rw [issued, List.filterMap_append] at hp
      rcases List.mem_append.mp hp with hp | hp
      · exact Nat.le_succ_of_le (ledger.issuedBelow p hp)
      · rw [List.mem_singleton.mp hp]
        exact Nat.le_of_eq hnew
    · rw [issued, List.filterMap_append, List.map_append]
      refine List.nodup_append.mpr ⟨ledger.issuedOnce, List.nodup_singleton _, ?_⟩
      rintro a ha b hb rfl
      obtain ⟨p, hp, rfl⟩ := List.mem_map.mp ha
      have hle := ledger.issuedBelow p hp
      have hfst : p.1 = r.cidGen := List.mem_singleton.mp hb
      rw [hfst, hnew] at hle
      omega
  | refused waiting cidGen =>
    refine ⟨.of_none fun _ => rfl, ?_⟩
    rcases cidGen with hsame | hnext
    · refine ⟨n, Nat.le_succ n,
        ledger.hears hkept hsame (fun j w' hw' => ?_) (fun _ _ _ => rfl) ?_ rfl⟩
      · rw [waiting] at hw'
        exact ⟨w', hw', w'.after_nil.symm⟩
      · intro cid hcollected
        cases hcollected
    · have hdraw := ledger.draw (hfew rfl) hkept waiting hnext
      refine ⟨n + 1, Nat.le_refl _, hdraw.skip rfl (fun _ => rfl) ?_ ?_⟩
      · rw [issued_of_none rfl]
        exact hdraw.issuedBelow
      · rw [issued_of_none rfl]
        exact hdraw.issuedOnce
  | @collected cid nowUs bufCap envs slot w bytes _ found open_ response waiting cidGen =>
    obtain ⟨v, hv, rfl⟩ := heard_cases ledger.distinct open_
    have hcid : v.correlationId = cid := by
      obtain ⟨w', hw', hid⟩ := slot?_some found
      cases open_.symm.trans hw'
      exact hid
    have hopen : Open r cid := open_iff.mpr ⟨slot, v, hv, hcid⟩
    have hcollected : ∀ c, collected? c ⟨r, ⟨.receiveResponse cid bufCap nowUs, links⟩,
        ⟨.response (.ok (bytes.take bufCap.toNat)), envs⟩, r'⟩ =
          if cid = c then some (bufCap, bytes.take bufCap.toNat) else none := fun _ => rfl
    refine ⟨fun c cap got hgot => ?_, n, Nat.le_refl _, ?_⟩
    · rw [hcollected] at hgot
      split at hgot
      case isFalse _ => cases hgot
      case isTrue heq =>
        cases hgot
        rw [← heq, responses_concat, responsesTo, if_pos hopen, List.head?_append, List.head?_filter]
        have hresponse : v.response.or _ = some bytes := response
        rw [ledger.heard slot v hv, hcid, ← Option.map_or] at hresponse
        obtain ⟨env, henv, hbytes⟩ := Option.map_eq_some_iff.mp hresponse
        exact ⟨env, henv, by rw [hbytes]⟩
    · refine ledger.hears hkept cidGen (fun j w' hw' => ?_) (fun j w' hw' => ?_)
        (fun c hsome => ?_) rfl
      · rw [waiting] at hw'
        by_cases hj : j = slot
        · rw [hj, Function.update_self] at hw'
          cases hw'
        · rw [Function.update_of_ne hj] at hw'
          exact heard_cases ledger.distinct hw'
      · rw [waiting] at hw'
        rw [hcollected, if_neg]
        intro heq
        by_cases hj : j = slot
        · rw [hj, Function.update_self] at hw'
          cases hw'
        · rw [Function.update_of_ne hj] at hw'
          obtain ⟨u, hu, rfl⟩ := heard_cases ledger.distinct hw'
          exact hj (ledger.distinct j slot u v hu hv (heq.symm.trans hcid.symm))
      · rw [hcollected] at hsome
        split at hsome
        case isTrue heq => exact heq ▸ hopen
        case isFalse _ => cases hsome
  | pumped notCollected notOpened waiting cidGen =>
    have hnone : ∀ cid, collected? cid ⟨r, ⟨call, links⟩, o, r'⟩ = none := by
      intro cid
      unfold collected?
      split
      case h_1 _ hanswer => exact absurd hanswer (notCollected _)
      case h_2 _ => rfl
    have hissue : issued? ⟨r, ⟨call, links⟩, o, r'⟩ = none := by
      unfold issued?
      split
      case h_1 _ hanswer => exact absurd hanswer (notOpened _)
      case h_2 _ => rfl
    refine ⟨.of_none hnone, n, Nat.le_add_right n _, ?_⟩
    refine ledger.hears hkept cidGen (fun j w' hw' => ?_) (fun _ _ _ => hnone _) ?_ hissue
    · rw [waiting] at hw'
      exact heard_cases ledger.distinct hw'
    · intro cid hcollected
      rw [hnone] at hcollected
      cases hcollected
  | swept waiting cidGen =>
    refine ⟨.of_none fun _ => rfl, n, Nat.le_refl _, ?_⟩
    refine ledger.hears hkept cidGen (fun j w' hw' => ?_) (fun _ _ _ => rfl) ?_ rfl
    · rw [waiting] at hw'
      exact ⟨w', (Option.filter_eq_some_iff.mp hw').1, w'.after_nil.symm⟩
    · intro cid hcollected
      cases hcollected

/-! ## Whole runs -/

/-- The ids in use are distinct and not zero, and the counter is exact. -/
structure Orderly (r : RequestReplyEngine) : Prop where
  distinct : ∀ i j : Fin maxPendingRequests, r.pending[i].active = true → r.pending[j].active = true →
    r.pending[i].correlationId = r.pending[j].correlationId → i = j
  nonzero : ∀ i : Fin maxPendingRequests, r.pending[i].active = true → r.pending[i].correlationId ≠ 0
  count : r.pendingCount = r.pending.countP (·.active)

theorem Ledger.orderly (ledger : Ledger past n r) : Orderly r where
  distinct := fun i j hi hj heq => ledger.distinct i j _ _ (if_pos hi) (if_pos hj) heq
  nonzero := by
    intro i hi hzero
    have hpos : 1 ≤ r.pending[i].correlationId.toNat := (ledger.bounded i _ (if_pos hi)).1
    rw [hzero] at hpos
    exact absurd hpos (by decide)
  count := ledger.counted

/-- The number of requests the application asked for. -/
def requests (past : List Made) : Nat := past.countP fun t => isRequest t.input.call

theorem requests_concat (past : List Made) (t : Made) :
    requests (past ++ [t]) = requests past + if isRequest t.input.call then 1 else 0 := by
  simp [requests, List.countP_append, List.countP_singleton]

/-- The ledger, as long as the ids last. -/
def Ledgered (past : List Made) (r : RequestReplyEngine) : Prop :=
  requests past < 2 ^ 64 → ∃ n, n ≤ requests past ∧ Ledger past n r

theorem ledgered_step {i : Input} {o : Observation} (h : Ledgered past r) (hexec : exec i r = .ok (o, r')) :
    (requests (past ++ [⟨r, i, o, r'⟩]) < 2 ^ 64 →
      Orderly r ∧ Orderly r' ∧ CollectsFirst past ⟨r, i, o, r'⟩) ∧
    Ledgered (past ++ [⟨r, i, o, r'⟩]) r' := by
  have hstep (hfew : requests (past ++ [⟨r, i, o, r'⟩]) < 2 ^ 64) :
      (∃ n, n ≤ requests past ∧ Ledger past n r) ∧ CollectsFirst past ⟨r, i, o, r'⟩ ∧
      ∃ n, n ≤ requests (past ++ [⟨r, i, o, r'⟩]) ∧ Ledger (past ++ [⟨r, i, o, r'⟩]) n r' := by
    rw [requests_concat] at hfew ⊢
    obtain ⟨n, hn, ledger⟩ := h (by omega)
    have hroom : isRequest i.call = true → n + 1 < 2 ^ 64 := by
      intro hrequest
      rw [if_pos hrequest] at hfew
      omega
    obtain ⟨hfirst, n', hn', ledger'⟩ := ledger_step ledger hroom hexec
    exact ⟨⟨n, hn, ledger⟩, hfirst, n', Nat.le_trans hn' (Nat.add_le_add_right hn _), ledger'⟩
  constructor
  · intro hfew
    obtain ⟨⟨n, -, ledger⟩, hfirst, n', -, ledger'⟩ := hstep hfew
    exact ⟨ledger.orderly, ledger'.orderly, hfirst⟩
  · intro hfew
    exact (hstep hfew).2.2

theorem requests_history_le (engine : DeliveryEngine) (inputs : List Input) :
    requests (Run.history exec inputs (init engine)) ≤ inputs.countP fun i => isRequest i.call := by
  have hinputs : (Run.history exec inputs (init engine)).map Run.Taken.input <+: inputs :=
    Run.history_inputs inputs (init engine)
  have hle := hinputs.sublist.countP_le (p := fun i => isRequest i.call)
  rw [List.countP_map] at hle
  exact hle

/-- The ledger of a whole run. -/
theorem ledger_history (engine : DeliveryEngine) (inputs : List Input)
    (hfew : (inputs.countP fun i => isRequest i.call) < 2 ^ 64) :
    ∃ n r, Ledger (Run.history exec inputs (init engine)) n r := by
  obtain ⟨last, hlast⟩ := Run.history_inv (I := Ledgered)
    (fun past r i o r' h hexec => (ledgered_step h hexec).2) inputs [] (init engine)
    (fun _ => ⟨0, Nat.le_refl 0, ledger_init engine⟩)
  rw [List.nil_append] at hlast
  obtain ⟨n, -, ledger⟩ := hlast (Nat.lt_of_le_of_lt (requests_history_le engine inputs) hfew)
  exact ⟨n, last, ledger⟩

/-- Below `2 ^ 64` requests an id is returned to one caller only, so the node asked is one node. -/
theorem issued_distinct (engine : DeliveryEngine) (inputs : List Input)
    (hfew : (inputs.countP fun i => isRequest i.call) < 2 ^ 64) :
    ((issued (Run.history exec inputs (init engine))).map Prod.fst).Nodup := by
  obtain ⟨n, r, ledger⟩ := ledger_history engine inputs hfew
  exact ledger.issuedOnce

/-- Over every run with fewer requests than ids: the ids in use are distinct and not zero and the
counter is exact; each id is collected at most once; and what is collected are the first bytes of the
first response that was dispatched while the request was open. -/
theorem response_correlation (engine : DeliveryEngine) (inputs : List Input)
    (hfew : (inputs.countP fun i => isRequest i.call) < 2 ^ 64) :
    (∀ t ∈ Run.history exec inputs (init engine), Orderly t.before ∧ Orderly t.after) ∧
    (∀ cid, (collections cid (Run.history exec inputs (init engine))).length ≤ 1) ∧
    ∀ past t rest, Run.history exec inputs (init engine) = past ++ t :: rest → CollectsFirst past t := by
  have hle := requests_history_le engine inputs
  have hstart : Ledgered [] (init engine) := fun _ => ⟨0, Nat.le_refl 0, ledger_init engine⟩
  have hlaw : ∀ past t rest, Run.history exec inputs (init engine) = past ++ t :: rest →
      Orderly t.before ∧ Orderly t.after ∧ CollectsFirst past t := by
    intro past t rest hsplit
    have hprefix : requests (past ++ [t]) ≤ requests (Run.history exec inputs (init engine)) := by
      rw [hsplit]
      exact List.Sublist.countP_le (List.Sublist.append_left (List.Sublist.cons_cons t (List.nil_sublist rest)) past)
    exact Run.history_split
      (L := fun past t => requests (past ++ [t]) < 2 ^ 64 →
        Orderly t.before ∧ Orderly t.after ∧ CollectsFirst past t)
      (fun past r i o r' h hexec => ledgered_step h hexec) hstart hsplit (by omega)
  refine ⟨fun t ht => ?_, fun cid => ?_, fun past t rest hsplit => (hlaw past t rest hsplit).2.2⟩
  · obtain ⟨past, rest, hsplit⟩ := List.append_of_mem ht
    obtain ⟨hbefore, hafter, -⟩ := hlaw past t rest hsplit
    exact ⟨hbefore, hafter⟩
  · obtain ⟨n, r, ledger⟩ := ledger_history engine inputs hfew
    exact ledger.once cid

/-- Node 1 asks node 2, and the answer of `source` arrives when it looks for it. -/
def answeredRun (source : NodeId) : List Input :=
  askingRun ++ [⟨.receiveResponse 1 10 2, [delivering (responseFrame source 1 9)]⟩]

theorem response_correlation_answered :
    ((answeredRun 2).countP fun i => isRequest i.call) < 2 ^ 64 ∧
    (collections 1 (Run.history exec (answeredRun 2)
      (init (.init DeliveryEngine.orderedConfig 1 7)))).length = 1 ∧
    ∀ past t rest, Run.history exec (answeredRun 2) (init (.init DeliveryEngine.orderedConfig 1 7)) =
      past ++ t :: rest → CollectsFirst past t := by
  have hfew : ((answeredRun 2).countP fun i => isRequest i.call) < 2 ^ 64 := by decide +kernel
  refine ⟨hfew, by decide +kernel, ?_⟩
  exact (response_correlation (.init DeliveryEngine.orderedConfig 1 7) (answeredRun 2) hfew).2.2

/-! ## Whose response it is -/

/-- A request with this id has heard no response yet. -/
def Awaiting (r : RequestReplyEngine) (cid : UInt64) : Prop :=
  ∃ i : Fin maxPendingRequests, r.pending[i].active = true ∧ r.pending[i].correlationId = cid ∧
    r.pending[i].stashReady = false

/-- The responses with this id that the slot heard since its request was sent, in order. -/
def slotResponses (cid : UInt64) (slot : Fin maxPendingRequests) (past : List Made) : List MessageEnvelope :=
  (past.rtakeWhile fun t => t.before.pending[slot].active).flatMap fun t =>
    if t.before.desk.slot? cid = some slot then t.output.arrivals.filter fun env => Answers cid env else []

/-- What is collected is the first response that the slot of the request heard, and it came from the node
that was asked. -/
def FromAsked (past : List Made) (t : Made) : Prop :=
  ∀ cid bufCap bytes, collected? cid t = some (bufCap, bytes) →
    ∃ slot env, t.before.desk.slot? cid = some slot ∧
      (slotResponses cid slot (past ++ [t])).head? = some env ∧
      bytes = (appBytes env).take bufCap.toNat ∧ (cid, env.sourceId) ∈ issued past

/-- The first response that arrives for a request that has heard none is sent by the node asked. -/
def AskedAnswersFirst (past : List Made) (t : Made) : Prop :=
  ∀ cid env, Awaiting t.before cid →
    (arriving t.input.call t.before.engine t.input.links).find? (fun env => Answers cid env) = some env →
    (cid, env.sourceId) ∈ issued past

/-- What an open request holds is the first response that its slot heard, and that came from the node that
was asked. -/
structure Sourced (past : List Made) (r : RequestReplyEngine) : Prop where
  tidy : Tidy r
  heard : ∀ i w, r.desk.waiting i = some w →
    w.response = (slotResponses w.correlationId i past).head?.map appBytes
  source : ∀ i w env, r.desk.waiting i = some w →
    (slotResponses w.correlationId i past).head? = some env → (w.correlationId, env.sourceId) ∈ issued past

theorem mem_issued_concat {t : Made} {p : UInt64 × NodeId} (h : p ∈ issued past) : p ∈ issued (past ++ [t]) := by
  rw [issued, List.filterMap_append]
  exact List.mem_append_left _ h

theorem awaiting_of_none {i : Fin maxPendingRequests} {w : Waiting} (hw : r.desk.waiting i = some w)
    (hnone : w.response = none) : Awaiting r w.correlationId := by
  have hactive : r.pending[i].active = true := active_iff.mpr ⟨w, hw⟩
  have hview : r.desk.waiting i = some _ := if_pos hactive
  cases hw.symm.trans hview
  refine ⟨i, hactive, rfl, ?_⟩
  cases hready : r.pending[i].stashReady with
  | false => rfl
  | true =>
    dsimp only at hnone
    rw [if_pos hready] at hnone
    cases hnone

variable {slot : Fin maxPendingRequests} {w : Waiting}

/-- A slot whose request waited before the call also hears what the call brings it. -/
theorem slotResponses_waiting {t : Made} (hw : t.before.desk.waiting slot = some w) :
    slotResponses cid slot (past ++ [t]) = slotResponses cid slot past ++
      if t.before.desk.slot? cid = some slot then t.output.arrivals.filter fun env => Answers cid env else [] := by
  have hactive : t.before.pending[slot].active = true := active_iff.mpr ⟨w, hw⟩
  rw [slotResponses, List.rtakeWhile_concat, if_pos hactive, List.flatMap_append, List.flatMap_singleton]
  rfl

/-- A slot that was free before the call has heard nothing. -/
theorem slotResponses_free {t : Made} (hfree : t.before.desk.waiting slot = none) :
    slotResponses cid slot (past ++ [t]) = [] := by
  have hactive : ¬ t.before.pending[slot].active = true := by
    intro h
    obtain ⟨w, hw⟩ := active_iff.mp h
    cases hfree.symm.trans hw
  rw [slotResponses, List.rtakeWhile_concat, if_neg hactive, List.flatMap_nil]

/-- A request that waited before the call, once it has heard what arrived: what it holds is the first
response that its slot heard, from the node asked if what arrived is. -/
theorem Sourced.heard_step {i : Input} {o : Observation} (sourced : Sourced past r)
    (harrived : o.arrivals = arriving i.call r.engine i.links)
    (honest : AskedAnswersFirst past ⟨r, i, o, r'⟩) {w' : Waiting}
    (hw' : RequestReplyEngine.heard r.desk o.arrivals slot = some w') :
    w'.response = (slotResponses w'.correlationId slot (past ++ [⟨r, i, o, r'⟩])).head?.map appBytes ∧
    ∀ env, (slotResponses w'.correlationId slot (past ++ [⟨r, i, o, r'⟩])).head? = some env →
      (w'.correlationId, env.sourceId) ∈ issued past := by
  rw [heard_eq] at hw'
  obtain ⟨w, hw, rfl⟩ := Option.map_eq_some_iff.mp hw'
  by_cases hslot : r.desk.slot? w.correlationId = some slot
  case neg =>
    rw [if_neg hslot, slotResponses_waiting hw, if_neg hslot, List.append_nil]
    exact ⟨sourced.heard slot w hw, fun env => sourced.source slot w env hw⟩
  rw [if_pos hslot]
  change w.response.or _ = Option.map appBytes (slotResponses w.correlationId slot _).head? ∧
    ∀ env, (slotResponses w.correlationId slot _).head? = some env → (w.correlationId, env.sourceId) ∈ _
  rw [slotResponses_waiting hw, if_pos hslot, List.head?_append, List.head?_filter, Option.map_or,
    sourced.heard slot w hw]
  refine ⟨rfl, fun env henv => ?_⟩
  cases hprior : (slotResponses w.correlationId slot past).head? with
  | some prior =>
    rw [hprior] at henv
    exact sourced.source slot w env hw (hprior.trans henv)
  | none =>
    rw [hprior] at henv
    have hnone : w.response = none := by
      rw [sourced.heard slot w hw, hprior]
      rfl
    exact honest w.correlationId env (awaiting_of_none hw hnone) (harrived ▸ henv)

/-- A call that brings nothing leaves what a waiting request holds. -/
theorem Sourced.silent_step {i : Input} {o : Observation} (sourced : Sourced past r) (hquiet : o.arrivals = [])
    (hw : r.desk.waiting slot = some w) :
    w.response = (slotResponses w.correlationId slot (past ++ [⟨r, i, o, r'⟩])).head?.map appBytes ∧
    ∀ env, (slotResponses w.correlationId slot (past ++ [⟨r, i, o, r'⟩])).head? = some env →
      (w.correlationId, env.sourceId) ∈ issued past := by
  rw [slotResponses_waiting hw, hquiet, List.filter_nil, ite_self, List.append_nil]
  exact ⟨sourced.heard slot w hw, fun env => sourced.source slot w env hw⟩

/-- The sources are kept when every open request is new, or holds what its slot heard first. -/
theorem Sourced.of_slots {t : Made} (tidy : Tidy t.after)
    (slots : ∀ i w, t.after.desk.waiting i = some w →
      (t.before.desk.waiting i = none ∧ w.response = none) ∨
      (w.response = (slotResponses w.correlationId i (past ++ [t])).head?.map appBytes ∧
        ∀ env, (slotResponses w.correlationId i (past ++ [t])).head? = some env →
          (w.correlationId, env.sourceId) ∈ issued past)) : Sourced (past ++ [t]) t.after := by
  refine ⟨tidy, fun i w hw => ?_, fun i w env hw henv => ?_⟩
  · rcases slots i w hw with ⟨hfree, hnone⟩ | ⟨hheard, -⟩
    · rw [slotResponses_free hfree, hnone]
      rfl
    · exact hheard
  · rcases slots i w hw with ⟨hfree, -⟩ | ⟨-, hsource⟩
    · rw [slotResponses_free hfree] at henv
      cases henv
    · exact mem_issued_concat (hsource env henv)

/-- Every call keeps the sources, and collects from the node that was asked. -/
theorem sourced_step {i : Input} {o : Observation} (sourced : Sourced past r)
    (honest : AskedAnswersFirst past ⟨r, i, o, r'⟩) (h : exec i r = .ok (o, r')) :
    FromAsked past ⟨r, i, o, r'⟩ ∧ Sourced (past ++ [⟨r, i, o, r'⟩]) r' := by
  obtain ⟨hturn, hkept, harrived⟩ := exec_turn sourced.tidy h
  obtain ⟨call, links⟩ := i
  cases hturn with
  | opened free nonzero waiting cidGen =>
    refine ⟨fun cid cap bytes hgot => (by cases hgot), .of_slots hkept.tidy fun j w hw => ?_⟩
    dsimp only at hw
    rw [waiting, Function.update_apply] at hw
    split at hw
    case isTrue heq =>
      cases hw
      exact .inl ⟨heq ▸ free, rfl⟩
    case isFalse _ => exact .inr (sourced.silent_step rfl hw)
  | refused waiting cidGen =>
    refine ⟨fun cid cap bytes hgot => (by cases hgot), .of_slots hkept.tidy fun j w hw => .inr ?_⟩
    dsimp only at hw
    rw [waiting] at hw
    exact sourced.silent_step rfl hw
  | @collected cid nowUs bufCap envs slot w bytes _ found open_ response waiting cidGen =>
    refine ⟨fun c cap got hgot => ?_, .of_slots hkept.tidy fun j w' hw' => .inr ?_⟩
    · have hcid : w.correlationId = cid := by
        obtain ⟨v, hv, hid⟩ := slot?_some found
        cases open_.symm.trans hv
        exact hid
      unfold collected? at hgot
      dsimp only at hgot
      split at hgot
      case isFalse _ => cases hgot
      case isTrue heq =>
        cases hgot
        obtain ⟨hheard, hsource⟩ := sourced.heard_step harrived honest open_
        rw [response] at hheard
        obtain ⟨env, henv, hbytes⟩ := Option.map_eq_some_iff.mp hheard.symm
        have hslot : r.desk.slot? cid = some slot := by rw [← found, sort_slots?]
        rw [hcid] at henv hsource
        rw [← heq]
        exact ⟨slot, env, hslot, henv, by rw [hbytes], hsource env henv⟩
    · dsimp only at hw'
      rw [waiting, Function.update_apply] at hw'
      split at hw'
      case isTrue _ => cases hw'
      case isFalse _ => exact sourced.heard_step harrived honest hw'
  | pumped notCollected notOpened waiting cidGen =>
    refine ⟨fun cid cap bytes hgot => ?_, .of_slots hkept.tidy fun j w hw => .inr ?_⟩
    · unfold collected? at hgot
      split at hgot
      case h_1 _ hanswer => exact absurd hanswer (notCollected _)
      case h_2 _ => cases hgot
    · dsimp only at hw
      rw [waiting] at hw
      exact sourced.heard_step harrived honest hw
  | swept waiting cidGen =>
    refine ⟨fun cid cap bytes hgot => (by cases hgot), .of_slots hkept.tidy fun j w hw => .inr ?_⟩
    dsimp only at hw
    rw [waiting] at hw
    exact sourced.silent_step rfl (Option.filter_eq_some_iff.mp hw).1

/-- At every step of the past, the first response to arrive for an unanswered request was sent by the
node asked. -/
def Honest (past : List Made) : Prop := ∀ p t q, past = p ++ t :: q → AskedAnswersFirst p t

theorem Honest.of_append {rest : List Made} (h : Honest (past ++ rest)) : Honest past := by
  intro p t q hsplit
  refine h p t (q ++ rest) ?_
  rw [hsplit, List.append_assoc, List.cons_append]

/-- In every run in which the first response to arrive for an unanswered request is sent by the node
that was asked, every response that is collected, the first that the slot of its request heard, came from
the node that was asked. -/
theorem response_source (engine : DeliveryEngine) (inputs : List Input)
    (honest : Honest (Run.history exec inputs (init engine))) :
    ∀ past t rest, Run.history exec inputs (init engine) = past ++ t :: rest → FromAsked past t := by
  intro past t rest hsplit
  have hstart : Honest [] → Sourced [] (init engine) := by
    have hfree (i w) : (init engine).desk.waiting i ≠ some w := by
      have hnone : (init engine).desk.waiting i = none := by
        apply waiting?_of_inactive
        simp [init]
      intro hw
      cases hnone.symm.trans hw
    exact fun _ => ⟨tidy_init engine, fun i w hw => absurd hw (hfree i w), fun i w _ hw => absurd hw (hfree i w)⟩
  have hstep : Honest (past ++ [t]) → FromAsked past t := by
    refine Run.history_split (I := fun past r => Honest past → Sourced past r)
      (L := fun past t => Honest (past ++ [t]) → FromAsked past t) ?_ hstart hsplit
    intro past r i o r' hsourced hexec
    have hturn (h : Honest (past ++ [⟨r, i, o, r'⟩])) :=
      sourced_step (hsourced h.of_append) (h past _ [] rfl) hexec
    exact ⟨fun h => (hturn h).1, fun h => (hturn h).2⟩
  rw [hsplit, ← List.singleton_append, ← List.append_assoc] at honest
  exact hstep honest.of_append

/-- The history of that run. -/
def answeredHistory (source : NodeId) : List Made :=
  Run.history exec (answeredRun source) (init (.init DeliveryEngine.orderedConfig 1 7))

/-- Node 2 was asked, node 3 answers with the id, and its byte is returned. -/
theorem forged_response_collected :
    ¬ ∀ past t rest, Run.history exec (answeredRun 3) (init (.init DeliveryEngine.orderedConfig 1 7)) =
      past ++ t :: rest → FromAsked past t := by
  intro h
  change ∀ past t rest, answeredHistory 3 = past ++ t :: rest → FromAsked past t at h
  have hlen : (answeredHistory 3).length = 2 := by decide +kernel
  have hgot : (answeredHistory 3)[1]?.bind (collected? 1) = some (10, [9]) := by decide +kernel
  have hsources : ∀ slot, ∀ env ∈ slotResponses 1 slot (answeredHistory 3), env.sourceId = 3 := by
    decide +kernel
  have hissued : (1, 3) ∉ issued ((answeredHistory 3).take 1) := by decide +kernel
  obtain ⟨a, b, hab⟩ := List.length_eq_two.mp hlen
  rw [hab] at hgot hsources hissued
  obtain ⟨slot, env, -, hhead, -, hasked⟩ := h [a] b [] hab 1 10 [9] hgot
  rw [hsources slot env (List.mem_of_mem_head? hhead)] at hasked
  exact hissued hasked

theorem response_source_answered :
    Honest (answeredHistory 2) ∧
    ∀ past t rest, answeredHistory 2 = past ++ t :: rest → FromAsked past t := by
  have hlen : (answeredHistory 2).length = 2 := by decide +kernel
  have hissued : (1, 2) ∈ issued ((answeredHistory 2).take 1) := by decide +kernel
  have hfirst : ∀ t ∈ (answeredHistory 2)[0]?, arriving t.input.call t.before.engine t.input.links = [] := by
    decide +kernel
  have hsecond : ∀ t ∈ (answeredHistory 2)[1]?,
      ∀ env ∈ arriving t.input.call t.before.engine t.input.links,
        header? env = some (.response, 1) ∧ env.sourceId = 2 := by
    decide +kernel
  obtain ⟨a, b, hab⟩ := List.length_eq_two.mp hlen
  have honest : Honest (answeredHistory 2) := by
    rw [hab] at hissued hfirst hsecond ⊢
    intro p t q hsplit cid env hawaiting hfind
    rcases p with _ | ⟨first, _ | ⟨second, p⟩⟩
    · obtain ⟨rfl, -⟩ := List.cons.inj hsplit
      rw [hfirst a rfl] at hfind
      cases hfind
    · obtain ⟨rfl, hrest⟩ := List.cons.inj hsplit
      obtain ⟨rfl, -⟩ := List.cons.inj hrest
      obtain ⟨hheader, hsource⟩ := hsecond b rfl env (List.mem_of_find?_eq_some hfind)
      have hanswers : Answers cid env := by simpa using List.find?_some hfind
      cases hheader.symm.trans hanswers.2
      rw [hsource]
      exact hissued
    · have hlong := congrArg List.length hsplit
      simp at hlong
  exact ⟨honest, response_source (.init DeliveryEngine.orderedConfig 1 7) (answeredRun 2) honest⟩

end RequestReplyEngine

end MessageEngine
