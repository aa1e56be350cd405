import MessageEngine.Laws.RequestReply.Inbound

/-!
# The two queues

Requests of other nodes and messages without a header wait in two circular queues, the first with an active
flag in every slot. A receive call fills both with whatever its pump is handed, while there is room, and takes
one entry from the front of its own.

`Queues` says what a call does to the two lists of the desk once its pump has sorted. The laws about runs add
up what the calls admitted and what they returned.

## What is proved

- `exec_queues`: every call that returns takes the oldest entry of its queue, or nothing;
- `stashes_fifo`: over every run what was admitted is what was returned, in order, and what still waits; the
  active slots are the ones between head and tail, and the assertion that the next one is free holds.
-/

namespace MessageEngine

open Outcome Table

namespace RequestReplyEngine

variable {r r' : RequestReplyEngine} {nowUs : UInt64}

/-! ## What a pump admits -/

namespace Desk

/-- The request that the envelope adds to the queue. -/
def asksOf (d : Desk) (env : MessageEnvelope) : List Ask :=
  if ¬ envelopeIsData env then []
  else match header? env with
    | some (.request, cid) => if d.asks.length < maxStashSize then [⟨cid, env.sourceId, appBytes env⟩] else []
    | _ => []

/-- The message without a header that the envelope adds to the queue. -/
def passesOf (d : Desk) (env : MessageEnvelope) : List MessageEnvelope :=
  if ¬ envelopeIsData env then []
  else match header? env with
    | none => if d.passing.length < maxStashSize then [env] else []
    | some _ => []

/-- The requests admitted while the envelopes are sorted. -/
def admittedAsks (d : Desk) : List MessageEnvelope → List Ask
  | [] => []
  | env :: envs => d.asksOf env ++ (d.sort env).admittedAsks envs

/-- The messages without a header admitted while the envelopes are sorted. -/
def admittedPassing (d : Desk) : List MessageEnvelope → List MessageEnvelope
  | [] => []
  | env :: envs => d.passesOf env ++ (d.sort env).admittedPassing envs

/-- Sorting an envelope adds what it admits at the end of the queues. -/
theorem sort_queues (d : Desk) (env : MessageEnvelope) :
    (d.sort env).asks = d.asks ++ d.asksOf env ∧ (d.sort env).passing = d.passing ++ d.passesOf env := by
  unfold asksOf passesOf sort
  split
  · exact ⟨(List.append_nil _).symm, (List.append_nil _).symm⟩
  cases header? env with
  | none =>
    dsimp only
    unfold pass
    split
    · exact ⟨(List.append_nil _).symm, rfl⟩
    · exact ⟨(List.append_nil _).symm, (List.append_nil _).symm⟩
  | some header =>
    obtain ⟨kind, cid⟩ := header
    cases kind with
    | response =>
      dsimp only
      unfold hear
      split
      · exact ⟨(List.append_nil _).symm, (List.append_nil _).symm⟩
      · exact ⟨(List.append_nil _).symm, (List.append_nil _).symm⟩
    | request =>
      dsimp only
      unfold ask
      split
      · exact ⟨rfl, (List.append_nil _).symm⟩
      · exact ⟨(List.append_nil _).symm, (List.append_nil _).symm⟩

theorem foldl_queues (d : Desk) (envs : List MessageEnvelope) :
    (envs.foldl sort d).asks = d.asks ++ d.admittedAsks envs ∧
      (envs.foldl sort d).passing = d.passing ++ d.admittedPassing envs := by
  induction envs generalizing d with
  | nil => exact ⟨(List.append_nil _).symm, (List.append_nil _).symm⟩
  | cons env envs ih =>
    obtain ⟨hasks, hpassing⟩ := d.sort_queues env
    obtain ⟨ihAsks, ihPassing⟩ := ih (d.sort env)
    rw [List.foldl_cons, ihAsks, ihPassing, hasks, hpassing, List.append_assoc, List.append_assoc]
    exact ⟨rfl, rfl⟩

end Desk

/-! ## What a call takes -/

/-- What a call does to the queues `d` that it finds when its pump has sorted. -/
inductive Queues (d : Desk) : Call → Answer → Desk → Prop where
  /-- The oldest request is returned, as much of it as the caller has room for. -/
  | asked {bufCap : UInt32} {nowUs : UInt64} {a : Ask} {d' : Desk} (oldest : d.asks = a :: d'.asks)
      (passing : d'.passing = d.passing) :
      Queues d (.receiveRequest bufCap nowUs) (.request (.ok (a.bytes.take bufCap.toNat, a.src, a.correlationId))) d'
  /-- The oldest message without a header is returned. -/
  | passed {nowUs : UInt64} {env : MessageEnvelope} {d' : Desk} (oldest : d.passing = env :: d'.passing)
      (asks : d'.asks = d.asks) : Queues d (.receiveNonRr nowUs) (.nonRr (.ok env)) d'
  /-- A receive call finds its queue empty. -/
  | dry {call : Call} {answer : Answer} {d' : Desk}
      (empty : (∃ bufCap nowUs, call = .receiveRequest bufCap nowUs ∧ answer = .request (.error .errEmpty) ∧
          d.asks = []) ∨
        (∃ nowUs, call = .receiveNonRr nowUs ∧ answer = .nonRr (.error .errEmpty) ∧ d.passing = []))
      (asks : d'.asks = d.asks) (passing : d'.passing = d.passing) : Queues d call answer d'
  /-- Any other call. -/
  | other {call : Call} {answer : Answer} {d' : Desk}
      (notAsked : ∀ res, answer ≠ .request res) (notPassed : ∀ reply, answer ≠ .nonRr reply)
      (asks : d'.asks = d.asks) (passing : d'.passing = d.passing) : Queues d call answer d'

/-- The oldest of a queue, and the queue without it. -/
theorem window_pop_front {α : Type} {buf : Vector α maxStashSize} {head : Fin maxStashSize} {count : Nat}
    (hsome : ¬ count = 0) : Circular.window maxStashSize_pos buf head count =
      buf[head] :: Circular.window maxStashSize_pos buf (stashSlot head 1) (count - 1) := by
  obtain ⟨k, rfl⟩ := Nat.exists_eq_succ_of_ne_zero hsome
  have hpop : Circular.window maxStashSize_pos buf head (k + 1) = _ := Circular.window_pop buf head k
  have hzero : Circular.slot maxStashSize_pos head 0 = head := stashSlot_zero head
  rw [hzero] at hpop
  exact hpop

theorem receiveRequest_queues {bufCap : UInt32} {res : Except Result (List UInt8 × NodeId × UInt64)} (tidy : Tidy r)
    (harrivals : r.arrivals = []) (h : r.receiveRequest bufCap nowUs = .ok (res, r')) :
    Queues (r'.arrivals.foldl Desk.sort r.desk) (.receiveRequest bufCap nowUs) (.request res) r'.desk := by
  obtain ⟨r₁, hpump, h⟩ := bind_eq_ok.mp h
  obtain ⟨envs, harrived, hdesk, htidy, -⟩ := pumpInbound_sorted tidy hpump
  rw [harrivals, List.nil_append] at harrived
  rw [← harrived] at hdesk
  dsimp only at h
  split at h
  case isTrue hzero =>
    cases h
    rw [← hdesk]
    refine .dry (.inl ⟨bufCap, nowUs, rfl, rfl, ?_⟩) rfl rfl
    rw [desk, hzero]
    rfl
  case isFalse hsome =>
    obtain ⟨bytes, hcopy, h⟩ := bind_eq_ok.mp h
    obtain ⟨-, h⟩ := ensure_bind_eq_ok.mp h
    obtain ⟨-, h⟩ := ensure_bind_eq_ok.mp h
    cases h
    have hbytes := copyOut_eq_ok hcopy
    rw [take_take_cap] at hbytes
    rw [hbytes, ← hdesk]
    refine Queues.asked (a := asked r₁.requestStash[r₁.stashHead]) ?_ rfl
    have hkept : Circular.window maxStashSize_pos (r₁.requestStash.set r₁.stashHead
        { r₁.requestStash[r₁.stashHead] with active := false } r₁.stashHead.isLt) (stashSlot r₁.stashHead 1)
        (r₁.stashCount - 1) = Circular.window maxStashSize_pos r₁.requestStash (stashSlot r₁.stashHead 1)
        (r₁.stashCount - 1) := by
      apply Circular.window_set_of_ne
      intro k hk heq
      have hcount := htidy.stashCount
      have hhead : stashSlot r₁.stashHead 0 = stashSlot r₁.stashHead (k + 1) := by
        rw [stashSlot_zero, stashSlot_succ]
        exact heq.symm
      exact Circular.slot_ne (Nat.succ_pos k) (by omega) hhead
    change (Circular.window maxStashSize_pos r₁.requestStash r₁.stashHead r₁.stashCount).map asked = _ :: List.map asked _
    rw [hkept, window_pop_front hsome, List.map_cons]

theorem receiveNonRr_queues {reply : Reply} (tidy : Tidy r) (harrivals : r.arrivals = [])
    (h : r.receiveNonRr nowUs = .ok (reply, r')) :
    Queues (r'.arrivals.foldl Desk.sort r.desk) (.receiveNonRr nowUs) (.nonRr reply) r'.desk := by
  obtain ⟨-, h⟩ := ensure_bind_eq_ok.mp h
  obtain ⟨r₁, hpump, h⟩ := bind_eq_ok.mp h
  obtain ⟨envs, harrived, hdesk, -⟩ := pumpInbound_sorted tidy hpump
  rw [harrivals, List.nil_append] at harrived
  rw [← harrived] at hdesk
  dsimp only at h
  split at h
  case isTrue hzero =>
    cases h
    rw [← hdesk]
    refine .dry (.inr ⟨nowUs, rfl, rfl, ?_⟩) rfl rfl
    rw [desk, hzero]
    rfl
  case isFalse hsome =>
    obtain ⟨-, h⟩ := ensure_bind_eq_ok.mp h
    cases h
    rw [← hdesk]
    exact .passed (window_pop_front hsome) rfl

/-- A call that changes neither queue. -/
theorem Queues.of_same {d : Desk} {call : Call} {answer : Answer} (harrivals : r'.arrivals = [])
    (notAsked : ∀ res, answer ≠ .request res) (notPassed : ∀ reply, answer ≠ .nonRr reply)
    (asks : r'.desk.asks = d.asks) (passing : r'.desk.passing = d.passing) :
    Queues (r'.arrivals.foldl Desk.sort d) call answer r'.desk := by
  rw [harrivals]
  exact .other notAsked notPassed asks passing

theorem sendRequest_frame {destination : NodeId} {appPayload : Array UInt8} {appPayloadLen : UInt32}
    {timeoutUs : UInt64} {res : Except Result UInt64}
    (h : r.sendRequest destination appPayload appPayloadLen timeoutUs nowUs = .ok (res, r')) :
    ∃ cidGen pending pendingCount engine links, r' = { r with cidGen, pending, pendingCount, engine, links } := by
  unfold sendRequest at h
  split at h
  · cases h
    exact ⟨_, _, _, _, _, rfl⟩
  · obtain ⟨⟨wireLen, wireBuf⟩, -, h⟩ := bind_eq_ok.mp h
    dsimp only at h
    split at h
    · cases h
      exact ⟨_, _, _, _, _, rfl⟩
    · obtain ⟨env, -, h⟩ := bind_eq_ok.mp h
      obtain ⟨⟨sent, r₁⟩, hsend, h⟩ := bind_eq_ok.mp h
      obtain ⟨engine, links, rfl, -⟩ := sendToEngine_eq hsend
      dsimp only at h
      split at h
      · cases h
        exact ⟨_, _, _, _, _, rfl⟩
      · obtain ⟨-, h⟩ := ensure_bind_eq_ok.mp h
        cases h
        exact ⟨_, _, _, _, _, rfl⟩

theorem sweepTimeouts_frame {freed : Nat} (h : r.sweepTimeouts nowUs = .ok (freed, r')) :
    ∃ pending pendingCount, r' = { r with pending, pendingCount } := by
  obtain ⟨-, h⟩ := ensure_bind_eq_ok.mp h
  obtain ⟨⟨r₁, n⟩, hloop, h⟩ := bind_eq_ok.mp h
  obtain ⟨-, h⟩ := ensure_bind_eq_ok.mp h
  obtain ⟨-, h⟩ := ensure_bind_eq_ok.mp h
  cases h
  refine eachIndex_inv (I := fun _ s => ∃ pending pendingCount, s.1 = { r with pending, pendingCount }) hloop
    ⟨_, _, rfl⟩ fun i s s' hs hround => ?_
  obtain ⟨pending, pendingCount, hs⟩ := hs
  unfold sweepTimeouts.round at hround
  split at hround
  · cases hround
    rw [hs]
    exact ⟨_, _, rfl⟩
  · cases hround
    exact ⟨pending, pendingCount, hs⟩

theorem receiveResponse_queues {cid : UInt64} {bufCap : UInt32} {res : Except Result (List UInt8)} (tidy : Tidy r)
    (harrivals : r.arrivals = []) (h : r.receiveResponse cid bufCap nowUs = .ok (res, r')) :
    Queues (r'.arrivals.foldl Desk.sort r.desk) (.receiveResponse cid bufCap nowUs) (.response res) r'.desk := by
  obtain ⟨r₁, hpump, h⟩ := bind_eq_ok.mp h
  obtain ⟨envs, harrived, hdesk, -⟩ := pumpInbound_sorted tidy hpump
  rw [harrivals, List.nil_append] at harrived
  rw [← harrived] at hdesk
  obtain ⟨slot, -, h⟩ := bind_eq_ok.mp h
  cases slot with
  | none =>
    cases h
    rw [← hdesk]
    exact .other (by simp) (by simp) rfl rfl
  | some idx =>
    dsimp only at h
    split at h
    case isTrue _ =>
      cases h
      rw [← hdesk]
      exact .other (by simp) (by simp) rfl rfl
    case isFalse _ =>
      obtain ⟨bytes, -, h⟩ := bind_eq_ok.mp h
      cases h
      change Queues (r₁.arrivals.foldl Desk.sort r.desk) _ _ _
      rw [← hdesk]
      exact .other (by simp) (by simp) rfl rfl

theorem run_queues {call : Call} {answer : Answer} (tidy : Tidy r) (harrivals : r.arrivals = [])
    (h : run call r = .ok (answer, r')) : Queues (r'.arrivals.foldl Desk.sort r.desk) call answer r'.desk := by
  cases call with
  | sendRequest destination appPayload appPayloadLen timeoutUs nowUs =>
    obtain ⟨⟨res, r₁⟩, hrun, heq⟩ := bind_eq_ok.mp h
    cases heq
    obtain ⟨_, _, _, _, _, rfl⟩ := sendRequest_frame hrun
    exact .of_same harrivals (by simp) (by simp) rfl rfl
  | receiveRequest bufCap nowUs =>
    obtain ⟨⟨res, r₁⟩, hrun, heq⟩ := bind_eq_ok.mp h
    cases heq
    exact receiveRequest_queues tidy harrivals hrun
  | sendResponse destination correlationId appPayload appPayloadLen nowUs =>
    obtain ⟨⟨res, r₁⟩, hrun, heq⟩ := bind_eq_ok.mp h
    cases heq
    obtain ⟨_, _, rfl, -⟩ := sendResponse_eq hrun
    exact .of_same harrivals (by simp) (by simp) rfl rfl
  | receiveResponse correlationId bufCap nowUs =>
    obtain ⟨⟨res, r₁⟩, hrun, heq⟩ := bind_eq_ok.mp h
    cases heq
    exact receiveResponse_queues tidy harrivals hrun
  | receiveNonRr nowUs =>
    obtain ⟨⟨reply, r₁⟩, hrun, heq⟩ := bind_eq_ok.mp h
    cases heq
    exact receiveNonRr_queues tidy harrivals hrun
  | sweepTimeouts nowUs =>
    obtain ⟨⟨freed, r₁⟩, hrun, heq⟩ := bind_eq_ok.mp h
    cases heq
    obtain ⟨_, _, rfl⟩ := sweepTimeouts_frame hrun
    exact .of_same harrivals (by simp) (by simp) rfl rfl
  | engine call =>
    obtain ⟨⟨answer', engine⟩, hrun, heq⟩ := bind_eq_ok.mp h
    cases heq
    exact .of_same harrivals (by simp) (by simp) rfl rfl

/-- What a call that returns does to the queues. -/
theorem exec_queues {i : Input} {o : Observation} (tidy : Tidy r) (h : exec i r = .ok (o, r')) :
    Queues (o.arrivals.foldl Desk.sort r.desk) i.call o.answer r'.desk := by
  obtain ⟨⟨answer, r₁⟩, hrun, heq⟩ := bind_eq_ok.mp h
  cases heq
  have htidy : Tidy { r with links := i.links, arrivals := [] } := { tidy with }
  have hqueues := run_queues htidy rfl hrun
  exact hqueues

/-! ## Runs -/

/-- One call of the run, with the engine before and after it. -/
abbrev Taken := Run.Taken RequestReplyEngine Input Observation

/-- The requests the call admitted. -/
def admittedAsksIn (t : Taken) : List Ask := t.before.desk.admittedAsks t.output.arrivals

/-- The messages without a header the call admitted. -/
def admittedPassingIn (t : Taken) : List MessageEnvelope := t.before.desk.admittedPassing t.output.arrivals

/-- The request the call returned, with the room of the caller's buffer. -/
def returnedAsksIn (t : Taken) : List (UInt32 × List UInt8 × NodeId × UInt64) :=
  match t.input.call, t.output.answer with
  | .receiveRequest bufCap _, .request (.ok res) => [(bufCap, res)]
  | _, _ => []

/-- The message without a header the call returned. -/
def returnedPassingIn (t : Taken) : List MessageEnvelope :=
  match t.output.answer with
  | .nonRr (.ok env) => [env]
  | _ => []

/-- The request is returned with its own source and id and the first of its bytes. -/
def Returns (a : Ask) (res : UInt32 × List UInt8 × NodeId × UInt64) : Prop :=
  res.2 = (a.bytes.take res.1.toNat, a.src, a.correlationId)

/-- The two queues after the calls in `past`. -/
structure Stashes (past : List Taken) (r : RequestReplyEngine) : Prop where
  tidy : Tidy r
  asks : ∃ read, past.flatMap admittedAsksIn = read ++ r.desk.asks ∧
    List.Forall₂ Returns read (past.flatMap returnedAsksIn)
  passing : past.flatMap admittedPassingIn = past.flatMap returnedPassingIn ++ r.desk.passing
  takes : ∀ t ∈ past,
    Queues (t.output.arrivals.foldl Desk.sort t.before.desk) t.input.call t.output.answer t.after.desk

/-- What a call takes from the front of the queues is what it returns. -/
theorem Queues.taken {d : Desk} {i : Input} {o : Observation} (h : Queues d i.call o.answer r'.desk) :
    (∃ taken, d.asks = taken ++ r'.desk.asks ∧ List.Forall₂ Returns taken (returnedAsksIn ⟨r, i, o, r'⟩)) ∧
      d.passing = returnedPassingIn ⟨r, i, o, r'⟩ ++ r'.desk.passing := by
  obtain ⟨call, links⟩ := i
  obtain ⟨answer, arrivals⟩ := o
  cases h with
  | @asked bufCap nowUs a _ oldest passing => exact ⟨⟨[a], oldest, .cons rfl .nil⟩, passing.symm⟩
  | @passed nowUs env _ oldest asks => exact ⟨⟨[], asks.symm, .nil⟩, oldest⟩
  | dry empty asks passing =>
    rcases empty with ⟨bufCap, nowUs, hcall, hanswer, -⟩ | ⟨nowUs, hcall, hanswer, -⟩
    · dsimp only at hcall hanswer
      rw [hcall, hanswer]
      exact ⟨⟨[], asks.symm, .nil⟩, passing.symm⟩
    · dsimp only at hcall hanswer
      rw [hcall, hanswer]
      exact ⟨⟨[], asks.symm, .nil⟩, passing.symm⟩
  | other notAsked notPassed asks passing =>
    have hasks : returnedAsksIn ⟨r, ⟨call, links⟩, ⟨answer, arrivals⟩, r'⟩ = [] := by
      unfold returnedAsksIn
      split
      case h_1 heq => exact absurd heq (notAsked _)
      case h_2 => rfl
    have hpassing : returnedPassingIn ⟨r, ⟨call, links⟩, ⟨answer, arrivals⟩, r'⟩ = [] := by
      unfold returnedPassingIn
      split
      case h_1 heq => exact absurd heq (notPassed _)
      case h_2 => rfl
    rw [hasks, hpassing]
    exact ⟨⟨[], asks.symm, .nil⟩, passing.symm⟩

/-- One more call keeps the account of the queues. -/
theorem Stashes.step {past : List Taken} {i : Input} {o : Observation} (h : Stashes past r)
    (hexec : exec i r = .ok (o, r')) : Stashes (past ++ [⟨r, i, o, r'⟩]) r' := by
  obtain ⟨-, hkept, -⟩ := exec_turn h.tidy hexec
  have hqueues := exec_queues h.tidy hexec
  obtain ⟨⟨taken, htaken, hreturns⟩, hpassed⟩ := hqueues.taken (r := r)
  obtain ⟨hasks, hpassing⟩ := r.desk.foldl_queues o.arrivals
  obtain ⟨read, hadmitted, hreturned⟩ := h.asks
  refine ⟨hkept.tidy, ⟨read ++ taken, ?_, ?_⟩, ?_, fun t ht => ?_⟩
  · rw [List.flatMap_append, List.flatMap_singleton, hadmitted, List.append_assoc, List.append_assoc, ← htaken, hasks]
    rfl
  · rw [List.flatMap_append, List.flatMap_singleton]
    exact List.rel_append hreturned hreturns
  · rw [List.flatMap_append, List.flatMap_append, List.flatMap_singleton, List.flatMap_singleton, h.passing,
      List.append_assoc, List.append_assoc, ← hpassed, hpassing]
    rfl
  · rcases List.mem_append.mp ht with ht | ht
    · exact h.takes t ht
    · obtain rfl := List.mem_singleton.mp ht
      exact hqueues

/-- A pump stops in the delivery engine, or in the parser. -/
theorem pumpInbound_stops (tidy : Tidy r) (inv : r.engine.Inv fun _ => True) {fault : Fault}
    (h : r.pumpInbound nowUs = .error fault) : fault ≠ .assertion .rrHandleInboundRequest := by
  by_cases hnone : ∀ env ∈ handedUp nowUs maxStashSize r.engine r.links, ¬ EmptyData env
  · rintro rfl
    have hown : Site.rrHandleInboundRequest ∈ ownSites := by decide
    exact loop_stops_outside tidy inv hnone h hown
  · push Not at hnone
    obtain ⟨env, hmem, hempty⟩ := hnone
    rw [pumpInbound, loop_stops_inside tidy hmem hempty] at h
    cases h
    decide

/-- In every state the engine reaches by calls of any kind: the active slots of the request stash are the
ones between head and tail, and no pump runs into the assertion that the next one is free; the requests that
were admitted are those that were returned, in the order of their arrival, each with its own source, id and
first bytes, and those that wait; and so are the messages without a header; and a receive call comes back empty
only when its queue is. -/
theorem stashes_fifo (cfg : ChannelConfig) (localId : NodeId) (entropy : UInt64) (hlocal : localId ≠ nodeIdInvalid)
    {inputs : List Input} {os : List Observation}
    (run : Run.runAll exec inputs (init (.init cfg localId entropy)) = .ok (os, r)) :
    Stashes (Run.history exec inputs (init (.init cfg localId entropy))) r ∧
      ∀ links nowUs fault, pumpInbound { r with links, arrivals := [] } nowUs = .error fault →
        fault ≠ .assertion .rrHandleInboundRequest := by
  have hinv : (DeliveryEngine.init cfg localId entropy).Inv fun _ => True := DeliveryEngine.inv_init cfg entropy hlocal
  have hstart : Stashes [] (init (.init cfg localId entropy)) :=
    ⟨tidy_init _, ⟨[], rfl, .nil⟩, rfl, fun _ h => absurd h List.not_mem_nil⟩
  have hlast := Run.runAll_history (fun i _ past r o r' h hexec => h.step hexec) hstart run
  obtain ⟨-, hlastInv⟩ := reachable_tidy hinv run
  refine ⟨hlast, fun links nowUs fault hpump => ?_⟩
  have htidy : Tidy { r with links, arrivals := [] } := { hlast.tidy with }
  exact pumpInbound_stops htidy hlastInv hpump

/-- A request to node 1 with one byte for the application. -/
def requestFrame (source : NodeId) (cid byte : UInt8) : MessageEnvelope :=
  { DeliveryEngine.plainData source 0 0 with
    payloadLength := 13
    payload := Bytes.blit envelopeInit.payload 0 [0, 0, 0, 0, 0, 0, 0, 0, cid, 0, 0, 0, byte]
      responseFrame_fits }

/-- A message to node 1 that is too short for a header. -/
def shortData (source : NodeId) : MessageEnvelope :=
  { DeliveryEngine.plainData source 0 0 with payloadLength := 2 }

/-- Nodes 2 and 3 ask, and send messages without a header in between: all come in one pump. Both queues are
then read in turn, once more often than there is something to read. -/
def askedRun : List Input :=
  [⟨.receiveRequest 8 2, [delivering (requestFrame 2 1 9), delivering (shortData 3), delivering (requestFrame 3 1 8),
      delivering (requestFrame 2 2 7), delivering (shortData 2)]⟩,
    ⟨.receiveNonRr 3, []⟩, ⟨.receiveRequest 8 4, []⟩, ⟨.receiveRequest 0 5, []⟩, ⟨.receiveNonRr 6, []⟩,
    ⟨.receiveRequest 8 7, []⟩]

theorem stashes_fifo_asked :
    ∃ os r, Run.runAll exec askedRun (init (.init DeliveryEngine.orderedConfig 1 7)) = .ok (os, r) ∧
      ((Run.history exec askedRun (init (.init DeliveryEngine.orderedConfig 1 7))).flatMap returnedAsksIn).length = 3 ∧
      ((Run.history exec askedRun (init (.init DeliveryEngine.orderedConfig 1 7))).flatMap returnedPassingIn).length = 2 ∧
      Stashes (Run.history exec askedRun (init (.init DeliveryEngine.orderedConfig 1 7))) r := by
  have hends : Run.Ends exec askedRun (init (.init DeliveryEngine.orderedConfig 1 7)) fun _ => True := by
    decide +kernel
  obtain ⟨os, r, hrun, -⟩ := hends.exists
  exact ⟨os, r, hrun, by decide +kernel, by decide +kernel,
    (stashes_fifo DeliveryEngine.orderedConfig 1 7 (by decide) hrun).1⟩

end RequestReplyEngine

end MessageEngine
