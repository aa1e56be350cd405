import MessageEngine.Laws.LocalSim.Ledger
import MessageEngine.Lib.Lockstep

/-!
# Two linked harnesses without impairments

With the master switch off, no reordering and no partitions, two linked harnesses are two queues, one for
each direction, of at most `MSG_RING_CAPACITY` messages. What is sent goes to the end of the queue of the other
side, and is refused when that is full; what is returned is the oldest message.

The master switch alone does not do it: the window and the partitions of the receiving side look at flags of
their own.

## What is proved

- `sendMessage_plain`, `receiveMessage_plain`: one call;
- `harness_refines_queues`: the pair and the queues give the same answers to every run of calls.
-/

namespace MessageEngine

open Outcome Table

/-- Nothing of the configuration has an effect. -/
def PassThrough (cfg : ImpairmentConfig) : Prop :=
  cfg.enabled = false ∧ cfg.partitionEnabled = false ∧ (cfg.reorderEnabled = false ∨ cfg.reorderWindowSize = 0)

instance (cfg : ImpairmentConfig) : Decidable (PassThrough cfg) := inferInstanceAs (Decidable (_ ∧ _ ∧ _))

namespace ImpairmentEngine

variable {e : ImpairmentEngine} {env : MessageEnvelope} {nowUs : UInt64}

/-- A message comes in as it is. -/
theorem processInbound_plain (plain : PassThrough e.cfg) (valid : envelopeValid env) :
    e.processInbound env nowUs 1 = .ok ((.ok, some env), e) := by
  obtain ⟨hoff, -, hreorder⟩ := plain
  have hwindow : (!e.cfg.reorderEnabled) = true ∨ e.cfg.reorderWindowSize = 0 := by
    rcases hreorder with hflag | hsize
    · left
      rw [hflag]
      rfl
    · exact .inr hsize
  unfold processInbound
  simp only [neverCompiledOutAssert, ensure_pos valid, ensure_pos (Nat.succ_pos 0), ok_bind, hoff, Bool.false_eq_true,
    if_false, pure_eq_ok, if_pos hwindow, ensure_pos (Nat.le_refl 1)]

theorem isPartitionActive_plain (plain : PassThrough e.cfg) : e.isPartitionActive nowUs = .ok (false, e) := by
  unfold isPartitionActive
  rw [plain.2.1]
  rfl

end ImpairmentEngine

namespace LocalSimHarness

variable {h peer : LocalSimHarness} {env : MessageEnvelope}

/-- The harness is open and linked, and is nothing but its queue. -/
structure Plain (h : LocalSimHarness) : Prop where
  sane : h.Sane
  plain : PassThrough h.inbox.impairment.cfg
  opened : h.isOpen = true
  linked : h.linked = true
  waiting : h.inbox.impairment.waiting = []

/-- The queue with a message at its end, unless it is full. -/
def pushed (queue : List MessageEnvelope) (env : MessageEnvelope) : Result × List MessageEnvelope :=
  if queue.length < msgRingCapacity then (.ok, queue ++ [env]) else (.errFull, queue)

theorem push_pushed (bounded : h.inbox.recvQueue.Bounded) (env : MessageEnvelope) :
    ∃ recvQueue, h.inbox.recvQueue.push env = .ok ((pushed h.inbox.recvQueue.queued env).1, recvQueue) ∧
      recvQueue.Bounded ∧ recvQueue.queued = (pushed h.inbox.recvQueue.queued env).2 := by
  obtain ⟨res, recvQueue, hpush, hbounded, hcases⟩ := RingBuffer.push_spec bounded env
  rcases hcases with ⟨rfl, hqueue, hroom⟩ | ⟨rfl, rfl, hfull⟩
  · rw [pushed, if_pos hroom]
    exact ⟨recvQueue, hpush, hbounded, hqueue⟩
  · rw [pushed, if_neg (Nat.not_lt.mpr (Nat.le_of_eq hfull.symm))]
    exact ⟨_, hpush, hbounded, rfl⟩

/-- The result of a push, as `deliver_from_peer` reports it. -/
theorem pushed_reported (queue : List MessageEnvelope) (env : MessageEnvelope) :
    (if (pushed queue env).1 = .ok then .ok else .errFull : Result) = (pushed queue env).1 := by
  unfold pushed
  split
  · rfl
  · rfl

theorem deliverFromPeer_plain (plain : h.Plain) (valid : envelopeValid env) (nowUs : UInt64) :
    ∃ recvQueue, h.deliverFromPeer env nowUs = .ok ((pushed h.inbox.recvQueue.queued env).1,
        { h with inbox := { h.inbox with recvQueue } }) ∧
      recvQueue.Bounded ∧ recvQueue.queued = (pushed h.inbox.recvQueue.queued env).2 := by
  obtain ⟨recvQueue, hpush, hbounded, hqueue⟩ := push_pushed plain.sane.bounded env
  refine ⟨recvQueue, ?_, hbounded, hqueue⟩
  unfold deliverFromPeer
  simp only [neverCompiledOutAssert, ensure_pos plain.opened, ensure_pos valid, ok_bind,
    ImpairmentEngine.isPartitionActive_plain plain.plain, Bool.false_eq_true, if_false,
    ImpairmentEngine.processInbound_plain plain.plain valid, ne_eq, not_true_eq_false, hpush, pushed_reported,
    pure_eq_ok]

/-- The message goes to the end of the queue of the other side, unless that is full. -/
theorem sendMessage_plain (plain : h.Plain) (there : peer.Plain) (valid : envelopeValid env) (nowUs : UInt64) :
    ∃ h' peer', h.sendMessage peer env nowUs = .ok ((pushed peer.inbox.recvQueue.queued env).1, h', peer') ∧
      h'.Plain ∧ peer'.Plain ∧ h'.inbox.recvQueue = h.inbox.recvQueue ∧
      peer'.inbox.recvQueue.queued = (pushed peer.inbox.recvQueue.queued env).2 := by
  obtain ⟨i₁, i₂, hout, hcollect, hcounted, hwaiting, hkept⟩ :=
    ImpairmentEngine.outbound_off plain.plain.1 plain.sane.counted plain.waiting valid nowUs
  obtain ⟨recvQueue, hdeliver, hbounded, hqueue⟩ := deliverFromPeer_plain there valid nowUs
  have hplain : PassThrough i₂.cfg := by
    rw [hkept.cfg]
    exact plain.plain
  refine ⟨{ h with inbox := { h.inbox with impairment := i₂ } }, { peer with inbox := { peer.inbox with recvQueue } },
    ?_, ⟨⟨hcounted, hkept.windowed plain.sane.windowed, plain.sane.bounded⟩, hplain, plain.opened, plain.linked,
      hwaiting⟩,
    ⟨⟨there.sane.counted, there.sane.windowed, hbounded⟩, there.plain, there.opened, there.linked, there.waiting⟩,
    rfl, hqueue⟩
  have hcurrent : isCurrent env env = true := by simp [isCurrent]
  have hflush : flushOutboundBatch peer env [env] nowUs = .ok ((pushed peer.inbox.recvQueue.queued env).1,
      { peer with inbox := { peer.inbox with recvQueue } }) := by
    have hone : [env].length ≤ impairDelayBufSize := by
      show 1 ≤ 32
      decide
    unfold flushOutboundBatch
    simp only [neverCompiledOutAssert, ensure_pos hone, ok_bind, List.foldlM_cons, List.foldlM_nil,
      flushOutboundBatch.round, hdeliver, hcurrent, and_true]
    unfold pushed
    by_cases hroom : peer.inbox.recvQueue.queued.length < msgRingCapacity
    · simp [hroom]
    · simp [hroom]
  unfold sendMessage
  simp only [neverCompiledOutAssert, ensure_pos plain.opened, ensure_pos plain.linked, ensure_pos valid, ok_bind, hout,
    hcollect, hflush, reduceCtorEq, if_false, ne_eq, not_true_eq_false, pure_eq_ok]

/-- A test puts the message at the end of the queue, if it is valid. -/
theorem inject_plain (plain : h.Plain) (env : MessageEnvelope) :
    ∃ res h', h.inject env = .ok (res, h') ∧ h'.Plain ∧
      (res, h'.inbox.recvQueue.queued) =
        if envelopeValid env then pushed h.inbox.recvQueue.queued env
        else (.errInvalid, h.inbox.recvQueue.queued) := by
  unfold inject
  simp only [neverCompiledOutAssert, ensure_pos plain.opened, ok_bind]
  by_cases valid : envelopeValid env
  · obtain ⟨recvQueue, hpush, hbounded, hqueue⟩ := push_pushed plain.sane.bounded env
    have hres : (pushed h.inbox.recvQueue.queued env).1 = .ok ∨ (pushed h.inbox.recvQueue.queued env).1 = .errFull := by
      unfold pushed
      split
      · exact .inl rfl
      · exact .inr rfl
    simp only [valid, not_true_eq_false, if_false, if_true, hpush, ok_bind, ensure_pos hres]
    refine ⟨_, _, rfl, ⟨⟨plain.sane.counted, plain.sane.windowed, hbounded⟩, plain.plain, plain.opened, plain.linked,
      plain.waiting⟩, Prod.ext rfl hqueue⟩
  · simp only [valid, not_false_eq_true, if_true, if_false]
    exact ⟨_, _, rfl, plain, rfl⟩

/-- What a harness answers to `receive_message`, and its queue after it. -/
def popped : List MessageEnvelope → Reply × List MessageEnvelope
  | [] => (.error .errTimeout, [])
  | env :: rest => (.ok env, rest)

theorem pop_nothing (bounded : h.inbox.recvQueue.Bounded) (empty : h.inbox.recvQueue.queued = []) :
    h.inbox.recvQueue.pop = .ok (.error .errEmpty, h.inbox.recvQueue) := by
  obtain ⟨reply, recvQueue, hpop, -, hcases⟩ := RingBuffer.pop_spec bounded
  rcases hcases with ⟨rfl, rfl, -⟩ | ⟨env, -, hqueue⟩
  · exact hpop
  · rw [empty] at hqueue
    cases hqueue

/-- Nothing comes while `receive_message` sleeps. -/
theorem receiveRounds_plain (bounded : h.inbox.recvQueue.Bounded) (empty : h.inbox.recvQueue.queued = []) (left : Nat) :
    receiveMessage.rounds left h = .ok (.error .errTimeout, h) := by
  induction left with
  | zero => rfl
  | succ left ih =>
    rw [receiveMessage.rounds, pop_nothing bounded empty, ok_bind]
    exact ih

/-- The oldest message of the queue, if there is one. -/
theorem receiveMessage_plain (plain : h.Plain) (timeoutMs : UInt32) :
    ∃ reply h', h.receiveMessage timeoutMs = .ok (reply, h') ∧ h'.Plain ∧
      (reply, h'.inbox.recvQueue.queued) = popped h.inbox.recvQueue.queued := by
  unfold receiveMessage
  simp only [neverCompiledOutAssert, ensure_pos plain.opened, ok_bind]
  obtain ⟨reply, recvQueue, hpop, hbounded, hcases⟩ := RingBuffer.pop_spec plain.sane.bounded
  rw [hpop, ok_bind]
  rcases hcases with ⟨rfl, rfl, hempty⟩ | ⟨env, rfl, hqueue⟩
  · rw [hempty]
    dsimp only
    split
    · exact ⟨_, _, rfl, plain, by rw [hempty]; rfl⟩
    · rw [receiveRounds_plain plain.sane.bounded hempty]
      exact ⟨_, _, rfl, plain, by rw [hempty]; rfl⟩
  · rw [hqueue]
    exact ⟨_, _, rfl, ⟨⟨plain.sane.counted, plain.sane.windowed, hbounded⟩, plain.plain, plain.opened, plain.linked,
      plain.waiting⟩, rfl⟩

end LocalSimHarness

namespace LocalSimPair

open LocalSimHarness

variable {p p' : LocalSimPair}

/-! ## The pair and the queues -/

/-- The same call on one queue for each side, of what is on the way to it. -/
def queueStep (call : Call) (q : Side → List MessageEnvelope) :
    Checked (Answer × (Side → List MessageEnvelope)) := do
  match call with
  | .send side envelope _ =>
    neverCompiledOutAssert .localSimSendMessage (envelopeValid envelope)
    let (res, queue) := pushed (q side.other) envelope
    pure (.result res, Function.update q side.other queue)
  | .inject side envelope =>
    let (res, queue) := if envelopeValid envelope then pushed (q side) envelope else (.errInvalid, q side)
    pure (.result res, Function.update q side queue)
  | .receive side _ =>
    let (reply, queue) := popped (q side)
    pure (.reply reply, Function.update q side queue)

/-- The pair stands for the queues. -/
structure StandsFor (p : LocalSimPair) (q : Side → List MessageEnvelope) : Prop where
  plain : ∀ t, (p.get t).Plain
  queue : ∀ t, (p.get t).inbox.recvQueue.queued = q t

variable {q : Side → List MessageEnvelope}

/-- One side changed, and its queue with it. -/
theorem StandsFor.set {side : Side} {h : LocalSimHarness} (stands : StandsFor p q) (plain : h.Plain) :
    StandsFor (p.set side h) (Function.update q side h.inbox.recvQueue.queued) := by
  constructor
  · intro t
    rw [get_set]
    split
    · exact plain
    · exact stands.plain t
  · intro t
    rw [get_set]
    by_cases ht : side = t
    · subst ht
      rw [if_pos rfl, Function.update_self]
    · rw [if_neg ht, Function.update_of_ne (Ne.symm ht)]
      exact stands.queue t

/-- One call gives the same answer on both. -/
theorem step_refines (stands : StandsFor p q) (call : Call) :
    Run.Lockstep (· = ·) StandsFor (exec call p) (queueStep call q) := by
  cases call with
  | send side envelope nowUs =>
    by_cases valid : envelopeValid envelope
    · obtain ⟨h', peer', hsend, hplain, hthere, hsame, hqueue⟩ :=
        sendMessage_plain (stands.plain side) (stands.plain side.other) valid nowUs
      have hrun : exec (.send side envelope nowUs) p =
          .ok (.result (pushed (q side.other) envelope).1, (p.set side h').set side.other peer') := by
        rw [exec, hsend, stands.queue side.other]
        rfl
      have hspec : queueStep (.send side envelope nowUs) q =
          .ok (.result (pushed (q side.other) envelope).1,
            Function.update q side.other (pushed (q side.other) envelope).2) := by
        simp only [queueStep, neverCompiledOutAssert, ensure_pos valid, ok_bind]
        rfl
      have hleft : StandsFor (p.set side h') _ := stands.set hplain
      have hhere : StandsFor ((p.set side h').set side.other peer') _ := hleft.set hthere
      rw [hsame, stands.queue side, Function.update_eq_self, hqueue, stands.queue side.other] at hhere
      rw [hrun, hspec]
      exact .ok rfl hhere
    · have hrun : exec (.send side envelope nowUs) p = .error (.assertion .localSimSendMessage) := by
        simp only [exec, sendMessage, neverCompiledOutAssert, ensure_pos (stands.plain side).opened,
          ensure_pos (stands.plain side).linked, ensure_neg valid, ok_bind, error_bind]
      have hspec : queueStep (.send side envelope nowUs) q = .error (.assertion .localSimSendMessage) := by
        simp only [queueStep, neverCompiledOutAssert, ensure_neg valid, error_bind]
      rw [hrun, hspec]
      exact .error
  | inject side envelope =>
    obtain ⟨res, h', hinject, hplain, hqueue⟩ := inject_plain (stands.plain side) envelope
    have hrun : exec (.inject side envelope) p = .ok (.result res, p.set side h') := by
      rw [exec, hinject]
      rfl
    rw [stands.queue side] at hqueue
    have hspec : queueStep (.inject side envelope) q =
        .ok (.result res, Function.update q side h'.inbox.recvQueue.queued) := by
      rw [queueStep, ← hqueue]
      rfl
    rw [hrun, hspec]
    exact .ok rfl (stands.set hplain)
  | receive side timeoutMs =>
    obtain ⟨reply, h', hreceive, hplain, hqueue⟩ := receiveMessage_plain (stands.plain side) timeoutMs
    have hrun : exec (.receive side timeoutMs) p = .ok (.reply reply, p.set side h') := by
      rw [exec, hreceive]
      rfl
    rw [stands.queue side] at hqueue
    have hspec : queueStep (.receive side timeoutMs) q =
        .ok (.reply reply, Function.update q side h'.inbox.recvQueue.queued) := by
      rw [queueStep, ← hqueue]
      rfl
    rw [hrun, hspec]
    exact .ok rfl (stands.set hplain)

theorem standsFor_init {channel : Side → Option ImpairmentConfig} {entropy : Side → UInt64}
    (hplain : ∀ t, PassThrough ((channel t).getD impairmentConfigDefault)) (hinit : init channel entropy = .ok p) :
    StandsFor p fun _ => [] := by
  obtain ⟨left, hleft, hinit⟩ := bind_eq_ok.mp hinit
  obtain ⟨right, hright, hinit⟩ := bind_eq_ok.mp hinit
  cases hinit
  have hside {t : Side} {h : LocalSimHarness} (hrun : LocalSimHarness.init (channel t) (entropy t) = .ok h) :
      h.link.Plain ∧ h.link.inbox.recvQueue.queued = [] := by
    obtain ⟨hsane, harrived, hleaving, hcfg⟩ := init_sane hrun
    obtain ⟨i, -, hdone⟩ := bind_eq_ok.mp hrun
    cases hdone
    refine ⟨⟨⟨hsane.counted, hsane.windowed, hsane.bounded⟩, ?_, rfl, rfl, hleaving⟩, RingBuffer.queued_init⟩
    show PassThrough i.cfg
    rw [show i.cfg = (channel t).getD impairmentConfigDefault from hcfg]
    exact hplain t
  constructor
  · intro t
    cases t with
    | left => exact (hside hleft).1
    | right => exact (hside hright).1
  · intro t
    cases t with
    | left => exact (hside hleft).2
    | right => exact (hside hright).2

/-- What is sent is valid. -/
def Call.SendsValid : Call → Prop
  | .send _ envelope _ => envelopeValid envelope
  | _ => True

theorem queueStep_total {call : Call} (valid : call.SendsValid) (q : Side → List MessageEnvelope) :
    ∃ answer q', queueStep call q = .ok (answer, q') := by
  cases call with
  | send side envelope nowUs =>
    have hvalid : envelopeValid envelope := valid
    simp only [queueStep, neverCompiledOutAssert, ensure_pos hvalid, ok_bind]
    exact ⟨_, _, rfl⟩
  | inject side envelope => exact ⟨_, _, rfl⟩
  | receive side timeoutMs => exact ⟨_, _, rfl⟩

theorem queues_total {calls : List Call} (hvalid : ∀ call ∈ calls, call.SendsValid)
    (q : Side → List MessageEnvelope) : ∃ answers q', Run.runAll queueStep calls q = .ok (answers, q') := by
  induction calls generalizing q with
  | nil => exact ⟨[], q, rfl⟩
  | cons call rest ih =>
    obtain ⟨answer, q₁, hstep⟩ := queueStep_total (hvalid call List.mem_cons_self) q
    obtain ⟨answers, q', hrun⟩ := ih (fun call hcall => hvalid call (List.mem_cons_of_mem _ hcall)) q₁
    refine ⟨answer :: answers, q', ?_⟩
    simp only [Run.runAll, hstep, hrun, ok_bind, pure_eq_ok]

/-- Without impairments every run of calls on two linked harnesses is the run of these calls on two queues. -/
theorem harness_refines_queues {channel : Side → Option ImpairmentConfig} {entropy : Side → UInt64}
    (hplain : ∀ t, PassThrough ((channel t).getD impairmentConfigDefault)) (hinit : init channel entropy = .ok p)
    {calls : List Call} (hvalid : ∀ call ∈ calls, call.SendsValid) :
    ∃ answers p' q', Run.runAll exec calls p = .ok (answers, p') ∧
      Run.runAll queueStep calls (fun _ => []) = .ok (answers, q') ∧
      ∀ t, (p'.get t).inbox.recvQueue.queued = q' t := by
  have hlockstep := Run.lockstep_runAll
    (fun p q call (stands : StandsFor p q) (_ : True) => step_refines stands call) calls p (fun _ => [])
    (standsFor_init hplain hinit) (Run.Along.of_forall (fun _ _ => trivial) calls p)
  obtain ⟨answers, q', hqueues⟩ := queues_total hvalid fun _ => []
  rw [hqueues] at hlockstep
  generalize hpair : Run.runAll exec calls p = run at hlockstep
  cases hlockstep with
  | ok outputs states =>
    rw [List.forall₂_eq_eq_eq] at outputs
    subst outputs
    exact ⟨_, _, q', rfl, hqueues, states.queue⟩

/-- Everything is lost, doubled and delayed, but the master switch is off. -/
def switchedOff : ImpairmentConfig :=
  { impairmentConfigDefault with
    fixedLatencyMs := 5, lossProbability := 1, duplicationProbability := 1, reorderWindowSize := 3, prngSeed := 7 }

def crossingCalls : List Call :=
  [.send .left (ImpairmentEngine.someMessage 1) 10, .send .right (ImpairmentEngine.someMessage 2) 20,
   .receive .right 0, .receive .right 5, .receive .left 0]

theorem harness_refines_queues_crossing : ∃ p answers p' q', init (fun _ => some switchedOff) (fun _ => 0) = .ok p ∧
    Run.runAll exec crossingCalls p = .ok (answers, p') ∧
      Run.runAll queueStep crossingCalls (fun _ => []) = .ok (answers, q') ∧
      ∀ t, (p'.get t).inbox.recvQueue.queued = q' t := by
  have hinit : Succeeds (init (fun _ => some switchedOff) fun _ => 0) fun _ => True := by decide +kernel
  obtain ⟨p, hinit, -⟩ := hinit.exists
  have hvalid : ∀ call ∈ crossingCalls, call.SendsValid := by
    intro call hcall
    simp only [crossingCalls, List.mem_cons, List.not_mem_nil, or_false] at hcall
    rcases hcall with rfl | rfl | rfl | rfl | rfl
    · show envelopeValid _
      decide
    · show envelopeValid _
      decide
    · trivial
    · trivial
    · trivial
  obtain ⟨answers, p', q', hrun⟩ := harness_refines_queues (fun _ => by decide) hinit hvalid
  exact ⟨p, answers, p', q', hinit, hrun⟩

end LocalSimPair

end MessageEngine
