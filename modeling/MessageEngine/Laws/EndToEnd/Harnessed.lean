import MessageEngine.Laws.EndToEnd.Streams
import MessageEngine.Laws.LocalSim.Ledger

/-!
# Two engines over linked harnesses

Two engines, each with one of two linked harnesses for its transport. Nothing is assumed of the network here:
the frames of a call go into the harness, which answers each of them, and what a call polls is what the harness
hands up. The impairments of both sides are any, and so is what their generators draw.

## What is proved

- `Poll.sent`: what a harness hands up was sent on the other side;
- `Runs.known`: in every run the harnesses are an honest network;
- `Runs.play`: a run can be played, one call after the other;
- `harnessed_faithful`: what an engine returns in the name of the other was given to that one to send;
- `harnessed_in_step`: what it returns of the other's numbered messages is a part of them, in the same order.
-/

namespace MessageEngine

open Outcome Network

/-- Two engines, and the harnesses between them. -/
structure HarnessedEngines where
  engine : Side → DeliveryEngine
  wires : LocalSimPair

namespace HarnessedEngines

/-! ## One call -/

/-- The call gets as far as the transport: a `receive` whose clock is accepted and that has no staged message to
return. -/
def Looks (e : DeliveryEngine) : DeliveryEngine.Call → Prop
  | .receive _ nowUs => ¬ (e.lastNowUs > 0 ∧ nowUs < e.lastNowUs) ∧
      ¬ (e.heldPendingValid = true ∧ timestampExpired e.heldPending.expiryTimeUs nowUs = false)
  | _ => False

/-- What the transport hands up during a call, with the calls on the harness. -/
inductive Poll (side : Side) (e : DeliveryEngine) (call : DeliveryEngine.Call) (p : LocalSimPair) :
    Reply → List LocalSimPair.Made → LocalSimPair → Prop where
  | made {timeoutMs : UInt32} {nowUs : UInt64} {reply : Reply} {p' : LocalSimPair}
    (receives : call = .receive timeoutMs nowUs) (looks : Looks e call)
    (polls : LocalSimPair.exec (.receive side timeoutMs) p = .ok (.reply reply, p')) :
    Poll side e call p reply [⟨p, .receive side timeoutMs, .reply reply, p'⟩] p'
  | none (idle : ¬ Looks e call) : Poll side e call p (.error .errTimeout) [] p

/-- The frames of a call go to the harness one after the other, and it answers each. -/
inductive Puts (side : Side) : List Effect → LocalSimPair → List LocalSimPair.Made → LocalSimPair → Prop where
  | nil {p : LocalSimPair} : Puts side [] p [] p
  | frame {env : MessageEnvelope} {res : Result} {nowUs : UInt64} {effects : List Effect}
    {wire : List LocalSimPair.Made} {p p₁ p' : LocalSimPair}
    (sends : LocalSimPair.exec (.send side env nowUs) p = .ok (.result res, p₁)) (rest : Puts side effects p₁ wire p') :
    Puts side (.sent env res :: effects) p (⟨p, .send side env nowUs, .result res, p₁⟩ :: wire) p'
  | other {x : Effect} {effects : List Effect} {wire : List LocalSimPair.Made}
    {p p' : LocalSimPair} (quiet : ∀ env res, x ≠ .sent env res) (rest : Puts side effects p wire p') :
    Puts side (x :: effects) p wire p'

/-- The runs from engines and harnesses that were just initialised: the calls on the engines, and those on the
harnesses that they led to. -/
inductive Runs (cfg : Side → ChannelConfig) (localId : Side → NodeId) (entropy : Side → UInt64) (p : LocalSimPair) :
    List (Made Side) → List LocalSimPair.Made → HarnessedEngines → Prop where
  | start : Runs cfg localId entropy p [] [] ⟨Network.init cfg localId entropy, p⟩
  | call {past : List (Made Side)} {wire polled put : List LocalSimPair.Made} {s : HarnessedEngines} {side : Side}
    {call : DeliveryEngine.Call} {reply : Reply} {results : List Result} {o : DeliveryEngine.Observation}
    {after : Side → DeliveryEngine} {p₁ p₂ : LocalSimPair} (before : Runs cfg localId entropy p past wire s)
    (poll : Poll side (s.engine side) call s.wires reply polled p₁)
    (runs : Network.exec ⟨side, call, [], fun _ => reply, results⟩ s.engine = .ok (o, after))
    (puts : Puts side o.effects p₁ put p₂) :
    Runs cfg localId entropy p (past ++ [⟨s.engine, ⟨side, call, [], fun _ => reply, results⟩, o, after⟩])
      (wire ++ polled ++ put) ⟨after, p₂⟩

/-! ## The harnesses during a call -/

variable {side t : Side} {e : DeliveryEngine} {call : DeliveryEngine.Call} {p p' : LocalSimPair} {reply : Reply}
  {wire polled put : List LocalSimPair.Made} {effects : List Effect} {x frame : MessageEnvelope}
  {chan : Side → ImpairmentConfig}

theorem sentTo_append (t : Side) (wire more : List LocalSimPair.Made) :
    LocalSimPair.sentTo t (wire ++ more) = LocalSimPair.sentTo t wire ++ LocalSimPair.sentTo t more :=
  List.filterMap_append

theorem injectedAt_append (t : Side) (wire more : List LocalSimPair.Made) :
    LocalSimPair.injectedAt t (wire ++ more) = LocalSimPair.injectedAt t wire ++ LocalSimPair.injectedAt t more :=
  List.filterMap_append

theorem Poll.ledger (h : Poll side e call p reply polled p') (ledger : LocalSimPair.Ledger chan wire p) :
    LocalSimPair.Ledger chan (wire ++ polled) p' := by
  cases h with
  | made _ _ polls => exact ledger.step polls
  | none _ =>
    rw [List.append_nil]
    exact ledger

/-- A poll sends nothing. -/
theorem Poll.quiet (h : Poll side e call p reply polled p') (t : Side) :
    LocalSimPair.sentTo t polled = [] ∧ LocalSimPair.injectedAt t polled = [] := by
  cases h with
  | made _ _ _ => exact ⟨rfl, rfl⟩
  | none _ => exact ⟨rfl, rfl⟩

/-- What a harness hands up was sent on the other side. -/
theorem Poll.sent (h : Poll side e call p (.ok frame) polled p') (ledger : LocalSimPair.Ledger chan wire p)
    (clean : LocalSimPair.injectedAt side wire = []) : frame ∈ LocalSimPair.sentTo side wire := by
  have hquiet := h.quiet side
  have hbooked := (h.ledger ledger).account side frame
  rw [sentTo_append, injectedAt_append, hquiet.1, hquiet.2, clean, List.append_nil, List.append_nil,
    List.count_nil, Nat.add_zero] at hbooked
  have hreturned : 0 < (LocalSimPair.returnedAt side (wire ++ polled)).count frame := by
    apply List.count_pos_iff.mpr
    cases h with
    | made _ _ polls =>
      refine List.mem_filterMap.mpr ⟨_, List.mem_append_right wire (List.mem_singleton_self _), ?_⟩
      exact if_pos rfl
  have hsent : 0 < (LocalSimPair.sentTo side wire).count frame := by
    apply Nat.pos_of_ne_zero
    intro hzero
    rw [hzero, Nat.mul_zero] at hbooked
    omega
  exact List.count_pos_iff.mp hsent

theorem Puts.ledger (h : Puts side effects p put p') (ledger : LocalSimPair.Ledger chan wire p) :
    LocalSimPair.Ledger chan (wire ++ put) p' := by
  induction h generalizing wire with
  | nil =>
    rw [List.append_nil]
    exact ledger
  | frame sends _ ih =>
    rw [List.append_cons]
    exact ih (ledger.step sends)
  | other _ _ ih => exact ih ledger

/-- What the harness was given are the frames of the call. -/
theorem Puts.sent (h : Puts side effects p put p') (hx : x ∈ LocalSimPair.sentTo t put) :
    side.other = t ∧ ∃ res, Effect.sent x res ∈ effects := by
  induction h with
  | nil => cases hx
  | @frame env res nowUs effects wire p p₁ p' sends rest ih =>
    have hsplit : LocalSimPair.sentTo t (⟨p, .send side env nowUs, .result res, p₁⟩ :: wire) =
        (if side.other = t then some env else none).toList ++ LocalSimPair.sentTo t wire := by
      unfold LocalSimPair.sentTo
      rw [List.filterMap_cons]
      unfold LocalSimPair.sent?
      dsimp only
      by_cases ht : side.other = t
      · simp [ht]
      · simp [ht]
    rw [hsplit] at hx
    rcases List.mem_append.mp hx with hhere | hlater
    · by_cases ht : side.other = t
      · rw [if_pos ht, Option.toList_some, List.mem_singleton] at hhere
        subst hhere
        exact ⟨ht, res, List.mem_cons_self⟩
      · rw [if_neg ht] at hhere
        cases hhere
    · obtain ⟨ht, res', hmem⟩ := ih hlater
      exact ⟨ht, res', List.mem_cons_of_mem _ hmem⟩
  | other _ _ ih =>
    obtain ⟨ht, res, hmem⟩ := ih hx
    exact ⟨ht, res, List.mem_cons_of_mem _ hmem⟩

theorem Puts.clean (h : Puts side effects p put p') (t : Side) : LocalSimPair.injectedAt t put = [] := by
  induction h with
  | nil => rfl
  | frame _ _ ih => exact ih
  | other _ _ ih => exact ih

/-! ## Runs -/

variable {cfg : Side → ChannelConfig} {localId : Side → NodeId} {entropy : Side → UInt64} {past : List (Made Side)}
  {s : HarnessedEngines}

/-- What is known of the engines and the harnesses together. -/
structure Known (localId : Side → NodeId) (entropy : Side → UInt64) (chan : Side → ImpairmentConfig)
    (past : List (Made Side)) (wire : List LocalSimPair.Made) (s : HarnessedEngines) : Prop where
  sound : Sound localId entropy past s.engine
  ledger : LocalSimPair.Ledger chan wire s.wires
  sent : ∀ t x, x ∈ LocalSimPair.sentTo t wire → OnWire t.other past x
  clean : ∀ t, LocalSimPair.injectedAt t wire = []

theorem onWire_append {a : Side} (made : Made Side) (h : OnWire a past x) : OnWire a (past ++ [made]) x := by
  obtain ⟨m, hm, res, hsent⟩ := h
  refine ⟨m, ?_, res, hsent⟩
  rw [stepsOf_append]
  exact List.mem_append_left _ hm

/-- A frame bears the name of the node that put it on the wire. -/
theorem Known.source (h : Known localId entropy chan past wire s) {a : Side} (hx : OnWire a past x) :
    x.sourceId = localId a := by
  rcases h.sound.wire a x hx with ⟨data, nowUs, rfl⟩ | ⟨m, hm, hframe⟩
  · rfl
  · have hm := ((h.sound.remembers a).valid m hm).1
    cases hframe with
    | whole fits same => rw [same.1, hm]
    | piece large below piece => rw [piece.fields, hm]

/-- A frame that is polled was put on the wire by the other node, and bears its name. -/
theorem Known.arrived (h : Known localId entropy chan past wire s)
    (poll : Poll side (s.engine side) call s.wires (.ok frame) polled p') :
    OnWire side.other past frame ∧ frame.sourceId = localId side.other := by
  have hon := h.sent side frame (poll.sent h.ledger (h.clean side))
  exact ⟨hon, h.source hon⟩

/-- The harnesses are an honest network. -/
theorem Known.authentic (h : Known localId entropy chan past wire s) (hdistinct : localId side ≠ localId side.other)
    (poll : Poll side (s.engine side) call s.wires reply polled p') {results : List Result}
    {o : DeliveryEngine.Observation} {after : Side → DeliveryEngine} :
    Authentic localId past ⟨s.engine, ⟨side, call, [], fun _ => reply, results⟩, o, after⟩ := by
  intro timeoutMs frame harrived a hsource
  have hreply : reply = .ok frame := harrived
  subst hreply
  obtain ⟨hon, hname⟩ := h.arrived poll
  have ha : a = side.other := by
    apply LocalSimPair.eq_other
    intro heq
    rw [← heq, hname] at hsource
    exact hdistinct hsource.symm
  rw [ha]
  exact ⟨frame, hon, rfl, rfl⟩

/-- One call on one engine, with what it leads to on the harnesses. -/
theorem Known.step {results : List Result} {o : DeliveryEngine.Observation} {after : Side → DeliveryEngine}
    {p₁ p₂ : LocalSimPair} (h : Known localId entropy chan past wire s)
    (hfew : past.length ≤ Counter.period) (hdistinct : localId side ≠ localId side.other)
    (poll : Poll side (s.engine side) call s.wires reply polled p₁)
    (runs : Network.exec ⟨side, call, [], fun _ => reply, results⟩ s.engine = .ok (o, after))
    (puts : Puts side o.effects p₁ put p₂) :
    Known localId entropy chan (past ++ [⟨s.engine, ⟨side, call, [], fun _ => reply, results⟩, o, after⟩])
      (wire ++ polled ++ put) ⟨after, p₂⟩ := by
  refine ⟨(h.sound.step hfew (h.authentic hdistinct poll) runs).2, puts.ledger (poll.ledger h.ledger),
    fun t x hx => ?_, fun t => ?_⟩
  · rw [sentTo_append, sentTo_append, (poll.quiet t).1, List.append_nil] at hx
    rcases List.mem_append.mp hx with hbefore | hnow
    · exact onWire_append _ (h.sent t x hbefore)
    · obtain ⟨rfl, res, heffect⟩ := puts.sent hnow
      rw [LocalSimPair.other_other]
      refine ⟨⟨s.engine side, ⟨call, [], fun _ => reply, results⟩, o, after side⟩, ?_, res, heffect⟩
      rw [stepsOf_append, if_pos rfl]
      exact List.mem_append_right _ (List.mem_singleton_self _)
  · rw [injectedAt_append, injectedAt_append, h.clean t, (poll.quiet t).2, puts.clean t]
    rfl

/-- In every run the harnesses are an honest network. -/
theorem Runs.known {channel : Side → Option ImpairmentConfig} {draws : Side → UInt64}
    (runs : Runs cfg localId entropy p past wire s) (hinit : LocalSimPair.init channel draws = .ok p)
    (hlocal : ∀ a, localId a ≠ nodeIdInvalid) (hdistinct : localId .left ≠ localId .right)
    (hfew : past.length ≤ Counter.period) :
    Known localId entropy (fun t => (channel t).getD impairmentConfigDefault) past wire s ∧
      Run.Lawful (Authentic localId) past := by
  have hsides : ∀ side : Side, localId side ≠ localId side.other := by
    intro side
    cases side with
    | left => exact hdistinct
    | right => exact hdistinct.symm
  induction runs with
  | start =>
    refine ⟨⟨sound_init cfg localId entropy hlocal, LocalSimPair.ledger_init hinit, fun t x hx => ?_, fun t => rfl⟩,
      .nil⟩
    cases hx
  | call _ poll runs puts ih =>
    rw [List.length_append] at hfew
    obtain ⟨hknown, hlaw⟩ := ih (by omega)
    exact ⟨hknown.step (by omega) (hsides _) poll runs puts, hlaw.snoc (hknown.authentic (hsides _) poll)⟩

/-- Over harnesses with any impairments: what an engine returns in the name of the other was given to that one
to send. -/
theorem harnessed_faithful {channel : Side → Option ImpairmentConfig} {draws : Side → UInt64}
    (runs : Runs cfg localId entropy p past wire s) (hinit : LocalSimPair.init channel draws = .ok p)
    (hlocal : ∀ a, localId a ≠ nodeIdInvalid) (hdistinct : localId .left ≠ localId .right)
    (hfew : past.length ≤ Counter.period) : Run.Lawful (Faithful localId) past := by
  induction runs with
  | start => exact .nil
  | call before poll runs puts ih =>
    have hall := (before.call poll runs puts).known hinit hlocal hdistinct hfew
    rw [List.length_append] at hfew
    have hknown := (before.known hinit hlocal hdistinct (by omega)).1
    exact (ih (by omega)).snoc (hknown.sound.step (by omega) hall.2.last runs).1

/-! ## Numbered messages -/

/-- What is asked of the application at both ends of a stream from `a` to the other side: it leaves the numbering
to the engine and does not start it over once numbers were drawn, and the receiver lets the staged message go
first. -/
structure Disciplined (localId : Side → NodeId) (a : Side) (past : List (Made Side)) (m : Made Side) : Prop where
  leaves : m.input.node = a → DeliveryEngine.LeavesNumbers m.input.input
  keeps : m.input.node = a → localId a.other ∈ DeliveryEngine.restarted (m.before a) m.input.input →
    DeliveryEngine.numbered (localId a.other) (stepsOf a past) = []
  waits : m.input.node = a.other → DeliveryEngine.WaitsForStaged (m.before a.other) m.input.input

/-- A call on either engine. -/
theorem limited_call {a : Side} {engine after : Side → DeliveryEngine} {ev : Event Side}
    {o : DeliveryEngine.Observation} (h : DeliveryEngine.Limited (stepsOf a past) (engine a))
    (inv : DeliveryEngine.Inv (fun _ => True) (engine a))
    (leaves : ev.node = a → DeliveryEngine.LeavesNumbers ev.input)
    (hexec : Network.exec ev engine = .ok (o, after)) :
    DeliveryEngine.Limited (stepsOf a (past ++ [⟨engine, ev, o, after⟩])) (after a) := by
  obtain ⟨e, hcall, rfl⟩ := exec_eq_ok.mp hexec
  rw [stepsOf_append]
  by_cases hnode : ev.node = a
  · subst hnode
    dsimp only
    rw [if_pos rfl, Function.update_self]
    exact h.step inv (leaves rfl) hcall
  · rw [if_neg hnode, List.append_nil, Function.update_of_ne (Ne.symm hnode)]
    exact h

/-- While there are fewer calls than numbers, no frame bears the last one. -/
theorem Known.number (h : Known localId entropy chan past wire s) {a : Side}
    (limited : DeliveryEngine.Limited (stepsOf a past) (s.engine a)) (hfew : past.length < 2 ^ 32 - 1)
    (hx : OnWire a past x) (hdata : envelopeIsData x) : x.sequenceNum ≠ OrderingBuffer.lastSeq := by
  rcases h.sound.wire a x hx with ⟨data, nowUs, rfl⟩ | ⟨m, hm, hframe⟩
  · cases hdata
  · have hsame : x.sequenceNum = m.sequenceNum ∧ envelopeIsData m := by
      cases hframe with
      | whole fits same =>
        rw [same.1] at hdata ⊢
        exact ⟨rfl, hdata⟩
      | piece large below piece =>
        rw [piece.fields] at hdata ⊢
        exact ⟨rfl, hdata⟩
    intro hlast
    have hle := limited.numbers m hm hsame.2
    rw [← hsame.1, hlast] at hle
    have hvalue : OrderingBuffer.lastSeq.toNat = 2 ^ 32 - 1 := rfl
    have hshort := stepsOf_length_le a past
    omega

/-- The receiver hears from the sender alone. -/
theorem Known.orderly (h : Known localId entropy chan past wire s) {a : Side}
    (limited : DeliveryEngine.Limited (stepsOf a past) (s.engine a)) (hfew : past.length < 2 ^ 32 - 1)
    (poll : Poll side (s.engine side) call s.wires reply polled p') {results : List Result}
    {o : DeliveryEngine.Observation} {after : Side → DeliveryEngine}
    (disciplined : Disciplined localId a past ⟨s.engine, ⟨side, call, [], fun _ => reply, results⟩, o, after⟩) :
    Orderly localId {localId a} a a.other past ⟨s.engine, ⟨side, call, [], fun _ => reply, results⟩, o, after⟩ := by
  refine ⟨disciplined.leaves, disciplined.keeps, fun hnode => ?_, disciplined.waits⟩
  intro timeoutMs frame harrived hdata _
  have hreply : reply = .ok frame := harrived
  have hside : side = a.other := hnode
  subst hreply hside
  obtain ⟨hon, hname⟩ := h.arrived poll
  rw [LocalSimPair.other_other] at hon hname
  refine ⟨?_, h.number limited hfew hon hdata⟩
  rw [hname]
  exact Finset.mem_singleton_self _

theorem Runs.streaming {channel : Side → Option ImpairmentConfig} {draws : Side → UInt64} {a : Side}
    (runs : Runs cfg localId entropy p past wire s) (hinit : LocalSimPair.init channel draws = .ok p)
    (hlocal : ∀ a, localId a ≠ nodeIdInvalid) (hdistinct : localId .left ≠ localId .right)
    (hfew : past.length < 2 ^ 32 - 1) (disciplined : Run.Lawful (Disciplined localId a) past) :
    Streaming localId entropy {localId a} a a.other past s.engine ∧
      DeliveryEngine.Limited (stepsOf a past) (s.engine a) ∧ Run.Lawful (InStep localId a a.other) past := by
  induction runs with
  | start =>
    exact ⟨streaming_init cfg localId entropy {localId a} a a.other hlocal, DeliveryEngine.limited_init _ _ _, .nil⟩
  | call before poll runs puts ih =>
    have hperiod : ∀ n, n < 2 ^ 32 - 1 → n ≤ Counter.period := by
      intro n hn
      unfold Counter.period
      omega
    have hlaw := ((before.call poll runs puts).known hinit hlocal hdistinct (hperiod _ hfew)).2
    rw [List.length_append, List.length_singleton] at hfew
    have hknown := (before.known hinit hlocal hdistinct (hperiod _ (by omega))).1
    obtain ⟨hstreaming, hlimited, hsteps⟩ := ih (by omega) disciplined.init
    have hnext := hstreaming.step (by rw [Finset.card_singleton]; decide) hfew hlaw.last
      (hknown.orderly hlimited (by omega) poll disciplined.last) runs
    refine ⟨hnext, limited_call hlimited (hknown.sound.inv a) disciplined.last.leaves runs, hsteps.snoc (hnext.law ?_)⟩
    rw [List.length_append, List.length_singleton]
    omega

/-- Over harnesses with any impairments: what an engine returns of the numbered messages of the other is a part
of what that one was given for it, in the same order. -/
theorem harnessed_in_step {channel : Side → Option ImpairmentConfig} {draws : Side → UInt64} {a : Side}
    (runs : Runs cfg localId entropy p past wire s) (hinit : LocalSimPair.init channel draws = .ok p)
    (hlocal : ∀ a, localId a ≠ nodeIdInvalid) (hdistinct : localId .left ≠ localId .right)
    (hfew : past.length < 2 ^ 32 - 1) (disciplined : Run.Lawful (Disciplined localId a) past) :
    Run.Lawful (InStep localId a a.other) past :=
  (runs.streaming hinit hlocal hdistinct hfew disciplined).2.2

/-! ## Runs that can be played -/

instance (e : DeliveryEngine) (call : DeliveryEngine.Call) : Decidable (Looks e call) :=
  match call with
  | .receive .. => inferInstanceAs (Decidable (_ ∧ _))
  | .send .. | .pumpRetries _ | .sweepAckTimeouts _ | .pollEvent | .drainEvents _ | .resetPeerOrdering _ =>
    .isFalse id

/-- What the harness hands up during a call. -/
def handed (side : Side) (e : DeliveryEngine) (call : DeliveryEngine.Call) (p : LocalSimPair) :
    Option (Reply × LocalSimPair) :=
  match call with
  | .receive timeoutMs nowUs =>
    if Looks e (.receive timeoutMs nowUs) then
      match LocalSimPair.exec (.receive side timeoutMs) p with
      | .ok (.reply reply, p') => some (reply, p')
      | _ => none
    else
      some (.error .errTimeout, p)
  | _ => some (.error .errTimeout, p)

/-- The frames of a call go to the harness at this time, which answers as the engine was told. -/
def carry (side : Side) (nowUs : UInt64) : List Effect → LocalSimPair → Option LocalSimPair
  | [], p => some p
  | .sent env res :: effects, p =>
    match LocalSimPair.exec (.send side env nowUs) p with
    | .ok (.result answer, p') => if answer = res then carry side nowUs effects p' else none
    | _ => none
  | _ :: effects, p => carry side nowUs effects p

/-- A call on an engine, and the time at its harness. -/
structure Play where
  side : Side
  call : DeliveryEngine.Call
  wireUs : UInt64

/-- The calls one after the other, as long as the harness takes every frame. -/
def play : List Play → HarnessedEngines → List (Made Side) → Option (List (Made Side))
  | [], _, past => some past
  | t :: turns, s, past =>
    match handed t.side (s.engine t.side) t.call s.wires with
    | none => none
    | some (reply, p₁) =>
      match Network.exec ⟨t.side, t.call, [], fun _ => reply, []⟩ s.engine with
      | .error _ => none
      | .ok (o, after) =>
        match carry t.side t.wireUs o.effects p₁ with
        | none => none
        | some p₂ =>
          play turns ⟨after, p₂⟩ (past ++ [⟨s.engine, ⟨t.side, t.call, [], fun _ => reply, []⟩, o, after⟩])

theorem handed_poll {side : Side} {e : DeliveryEngine} {call : DeliveryEngine.Call} {p p' : LocalSimPair}
    {reply : Reply} (h : handed side e call p = some (reply, p')) : ∃ wire, Poll side e call p reply wire p' := by
  unfold handed at h
  split at h
  case h_1 timeoutMs nowUs =>
    split at h
    case isTrue hlooks =>
      split at h
      case h_1 hexec =>
        cases h
        exact ⟨_, .made rfl hlooks hexec⟩
      case h_2 => cases h
    case isFalse hidle =>
      cases h
      exact ⟨[], .none hidle⟩
  case h_2 hother =>
    cases h
    refine ⟨[], .none fun hlooks => ?_⟩
    cases call with
    | receive timeoutMs nowUs => exact hother timeoutMs nowUs rfl
    | _ => exact hlooks

theorem carry_puts {side : Side} {nowUs : UInt64} {effects : List Effect} {p p' : LocalSimPair}
    (h : carry side nowUs effects p = some p') : ∃ wire, Puts side effects p wire p' := by
  induction effects generalizing p with
  | nil =>
    cases h
    exact ⟨[], .nil⟩
  | cons x effects ih =>
    unfold carry at h
    split at h
    case h_1 hnil => cases hnil
    case h_2 env res effects' hcons =>
      cases hcons
      split at h
      case h_1 hexec =>
        split at h
        case isTrue hsame =>
          cases hsame
          obtain ⟨wire, hrest⟩ := ih h
          exact ⟨_, .frame hexec hrest⟩
        case isFalse => cases h
      case h_2 => cases h
    case h_3 y effects' hquiet hcons =>
      cases hcons
      obtain ⟨wire, hrest⟩ := ih h
      exact ⟨wire, .other (fun env res heq => hquiet env res heq) hrest⟩

/-- What is played is a run. -/
theorem Runs.play {turns : List Play} (runs : Runs cfg localId entropy p past wire s) {all : List (Made Side)}
    (h : HarnessedEngines.play turns s past = some all) : ∃ wire last, Runs cfg localId entropy p all wire last := by
  induction turns generalizing past wire s with
  | nil =>
    cases h
    exact ⟨wire, s, runs⟩
  | cons t turns ih =>
    unfold HarnessedEngines.play at h
    split at h
    case h_1 => cases h
    case h_2 reply p₁ hhanded =>
      split at h
      case h_1 => cases h
      case h_2 o after hexec =>
        split at h
        case h_1 => cases h
        case h_2 p₂ hcarry =>
          obtain ⟨polled, hpoll⟩ := handed_poll hhanded
          obtain ⟨put, hputs⟩ := carry_puts hcarry
          exact ih (runs.call hpoll hexec hputs) h

/-! ## An exchange -/

def sideIds : Side → NodeId
  | .left => 2
  | .right => 1

theorem sideIds_valid (a : Side) : sideIds a ≠ nodeIdInvalid := by
  cases a with
  | left => decide
  | right => decide

/-- Every message is doubled and takes a millisecond, and two wait to be mixed. -/
def mixing : ImpairmentConfig :=
  { ImpairmentEngine.doubling with reorderEnabled := true, reorderWindowSize := 2 }

/-- The left node sends four messages, and the right one looks four times for one. -/
def crossing : List Play :=
  ([10, 2000, 4000, 6000].map fun nowUs => ⟨.left, .send (DeliveryEngine.plainData 0 0 0) nowUs, nowUs⟩) ++
    [7000, 7001, 7002, 7003].map fun nowUs => ⟨.right, .receive 0 nowUs, nowUs⟩

/-- A call that leaves the numbers to the engine and lets the staged message go first. -/
def Mild (m : Made Side) : Prop :=
  DeliveryEngine.LeavesNumbers m.input.input ∧ DeliveryEngine.restarted (m.before .left) m.input.input = [] ∧
    DeliveryEngine.WaitsForStaged (m.before .right) m.input.input

instance (m : Made Side) : Decidable (Mild m) := inferInstanceAs (Decidable (_ ∧ _ ∧ _))

theorem disciplined_of_mild (hmild : ∀ m ∈ past, Mild m) : Run.Lawful (Disciplined sideIds .left) past := by
  intro before m after hsplit
  obtain ⟨hleaves, hkeeps, hwaits⟩ := hmild m (by simp [hsplit])
  refine ⟨fun _ => hleaves, fun _ hmem => ?_, fun _ => hwaits⟩
  rw [hkeeps] at hmem
  cases hmem

/-- Two of the messages arrive, each twice, and each is returned once. -/
theorem runs_crossing : ∃ p past wire s,
    LocalSimPair.init (fun _ => some mixing) (fun _ => 7) = .ok p ∧
    Runs (fun _ => DeliveryEngine.orderedConfig) sideIds (fun _ => 7) p past wire s ∧ past.length = 8 ∧
    (DeliveryEngine.returnedSince 2 (stepsOf .right past)).map MessageEnvelope.sequenceNum = [1, 2] ∧
    Run.Lawful (Disciplined sideIds .left) past := by
  have hplayed : Succeeds (LocalSimPair.init (fun _ => some mixing) fun _ => 7) fun p =>
      ∃ past ∈ play crossing ⟨Network.init (fun _ => DeliveryEngine.orderedConfig) sideIds fun _ => 7, p⟩ [],
        past.length = 8 ∧
        (DeliveryEngine.returnedSince 2 (stepsOf .right past)).map MessageEnvelope.sequenceNum = [1, 2] ∧
        ∀ m ∈ past, Mild m := by decide +kernel
  obtain ⟨p, hinit, past, hplay, hlength, hreturned, hmild⟩ := hplayed.exists
  obtain ⟨wire, s, hruns⟩ := Runs.start.play hplay
  exact ⟨p, past, wire, s, hinit, hruns, hlength, hreturned, disciplined_of_mild hmild⟩

theorem harnessed_faithful_crossing : ∃ p past wire s,
    LocalSimPair.init (fun _ => some mixing) (fun _ => 7) = .ok p ∧
    Runs (fun _ => DeliveryEngine.orderedConfig) sideIds (fun _ => 7) p past wire s ∧
    (DeliveryEngine.returnedSince 2 (stepsOf .right past)).map MessageEnvelope.sequenceNum = [1, 2] ∧
    past.length ≤ Counter.period ∧ Run.Lawful (Faithful sideIds) past := by
  obtain ⟨p, past, wire, s, hinit, hruns, hlength, hreturned, -⟩ := runs_crossing
  have hfew : past.length ≤ Counter.period := by
    rw [hlength]
    unfold Counter.period
    omega
  exact ⟨p, past, wire, s, hinit, hruns, hreturned, hfew,
    harnessed_faithful hruns hinit sideIds_valid (by decide) hfew⟩

theorem harnessed_in_step_crossing : ∃ p past wire s,
    LocalSimPair.init (fun _ => some mixing) (fun _ => 7) = .ok p ∧
    Runs (fun _ => DeliveryEngine.orderedConfig) sideIds (fun _ => 7) p past wire s ∧
    (DeliveryEngine.returnedSince 2 (stepsOf .right past)).map MessageEnvelope.sequenceNum = [1, 2] ∧
    past.length < 2 ^ 32 - 1 ∧ Run.Lawful (Disciplined sideIds .left) past ∧
      Run.Lawful (InStep sideIds .left .right) past := by
  obtain ⟨p, past, wire, s, hinit, hruns, hlength, hreturned, hdisciplined⟩ := runs_crossing
  have hfew : past.length < 2 ^ 32 - 1 := by
    rw [hlength]
    omega
  exact ⟨p, past, wire, s, hinit, hruns, hreturned, hfew, hdisciplined,
    harnessed_in_step hruns hinit sideIds_valid (by decide) hfew hdisciplined⟩

end HarnessedEngines

end MessageEngine
