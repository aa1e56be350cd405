import MessageEngine.Laws.EndToEnd.Incoming

/-!
# Engines on a network

Any number of nodes, each with its engine, and a network between them that may lose, duplicate, delay and
reorder what it is given, and hand anything at all to an engine that does not bear the name of one of these
nodes. What it hands up in the name of a node, that node has put on the wire. The calls on the engines come in
any order.

## What is proved

- `Sound.step`: one call on one engine keeps what the others know;
- `end_to_end`: in every run, whatever an engine returns in the name of a node is a message that was given to
  that node to send, with every byte as it was.
-/

namespace MessageEngine

open Outcome Table DeliveryEngine

/-- What the network made of a frame: the bytes behind the payload do not travel. -/
def Carried (x frame : MessageEnvelope) : Prop :=
  frame = { x with payload := frame.payload } ∧
    frame.payload.toList.take x.payloadLength.toNat = x.payload.toList.take x.payloadLength.toNat

namespace Network

variable {ι : Type}

/-- A call on the engine of one node. -/
structure Event (ι : Type) where
  node : ι
  input : Input

/-- The engines after the call. -/
def exec [DecidableEq ι] (ev : Event ι) (s : ι → DeliveryEngine) : Checked (Observation × (ι → DeliveryEngine)) := do
  let (o, e) ← DeliveryEngine.exec ev.input (s ev.node)
  pure (o, Function.update s ev.node e)

/-- Every node with an engine of its own. -/
def init (cfg : ι → ChannelConfig) (localId : ι → NodeId) (entropy : ι → UInt64) : ι → DeliveryEngine :=
  fun a => DeliveryEngine.init (cfg a) (localId a) (entropy a)

/-- One call that was made. -/
abbrev Made (ι : Type) := Run.Taken (ι → DeliveryEngine) (Event ι) Observation

variable [DecidableEq ι]

/-- The calls on one of the engines. -/
def stepsOf (a : ι) (past : List (Made ι)) : List (Run.Taken DeliveryEngine Input Observation) :=
  past.filterMap fun t =>
    if t.input.node = a then some ⟨t.before a, t.input.input, t.output, t.after a⟩ else none

/-- The messages that were given to a node to send. -/
def given (a : ι) (past : List (Made ι)) : List MessageEnvelope := offered (stepsOf a past)

/-- A frame that a node put on the wire. -/
def OnWire (a : ι) (past : List (Made ι)) (x : MessageEnvelope) : Prop :=
  ∃ t ∈ stepsOf a past, ∃ res, Effect.sent x res ∈ t.output.effects

/-- What the network hands to the engine in the name of a node, that node has put on the wire. -/
def Authentic (localId : ι → NodeId) (past : List (Made ι)) (t : Made ι) : Prop :=
  ∀ timeoutMs frame, t.input.input.transport.inbound timeoutMs = .ok frame →
    ∀ a, frame.sourceId = localId a → ∃ x, OnWire a past x ∧ Carried x frame

/-- What an engine returns in the name of a node was given to that node to send. -/
def Faithful (localId : ι → NodeId) (past : List (Made ι)) (t : Made ι) : Prop :=
  ∀ env ∈ t.output.answer.returned?, envelopeIsData env → ∀ a, env.sourceId = localId a →
    ∃ m ∈ given a past, Restored m env

theorem stepsOf_append (a : ι) (past : List (Made ι)) (t : Made ι) :
    stepsOf a (past ++ [t]) = stepsOf a past ++
      if t.input.node = a then [⟨t.before a, t.input.input, t.output, t.after a⟩] else [] := by
  rw [stepsOf, List.filterMap_append]
  congr 1
  by_cases h : t.input.node = a
  · rw [if_pos h]
    simp [h]
  · rw [if_neg h]
    simp [h]

theorem stepsOf_length_le (a : ι) (past : List (Made ι)) : (stepsOf a past).length ≤ past.length :=
  List.length_filterMap_le _ _

theorem exec_eq_ok {ev : Event ι} {s s' : ι → DeliveryEngine} {o : Observation} :
    exec ev s = .ok (o, s') ↔
      ∃ e, DeliveryEngine.exec ev.input (s ev.node) = .ok (o, e) ∧ s' = Function.update s ev.node e := by
  unfold exec
  rw [bind_eq_ok]
  constructor
  · intro h
    obtain ⟨⟨o', e⟩, hexec, hdone⟩ := h
    cases hdone
    exact ⟨e, hexec, rfl⟩
  · intro h
    obtain ⟨e, hexec, rfl⟩ := h
    exact ⟨(o, e), hexec, rfl⟩

/-! ## Frames on the way -/

/-- A piece that is carried is the same piece. -/
theorem isPiece_carried {m x frame : MessageEnvelope} {k : Fin fragMaxCount} (piece : IsPiece m k x)
    (carried : Carried x frame) : IsPiece m k frame := by
  obtain ⟨hfields, hbytes⟩ := carried
  refine ⟨?_, fun j hj => ?_⟩
  · rw [hfields, piece.fields]
  · rw [← piece.bytes j hj]
    have hlen : j < x.payloadLength.toNat := by
      rw [piece.length]
      exact hj
    have hsame := congrArg (fun l => l.getD j 0) hbytes
    simp only [List.getD_eq_getElem?_getD, List.getElem?_take_of_lt hlen] at hsame
    rw [List.getD_eq_getElem?_getD, List.getD_eq_getElem?_getD]
    exact hsame

/-- A message that is carried is the same message. -/
theorem frameOf_carried {m x frame : MessageEnvelope} (h : FrameOf m x) (carried : Carried x frame) :
    FrameOf m frame := by
  cases h with
  | whole fits same =>
    obtain ⟨hfields, hbytes⟩ := carried
    refine .whole fits ⟨?_, ?_⟩
    · rw [hfields, same.1]
    · have hlen : x.payloadLength = m.payloadLength := by rw [same.1]
      rw [hlen] at hbytes
      exact hbytes.trans same.2
  | piece large below piece => exact .piece large below (isPiece_carried piece carried)

theorem ack_carried {localId : NodeId} {x frame : MessageEnvelope} (h : AckOf localId x) (carried : Carried x frame) :
    frame.fragmentCount.toNat ≤ 1 ∧ ¬ envelopeIsData frame := by
  obtain ⟨data, nowUs, rfl⟩ := h
  rw [carried.1]
  refine ⟨Nat.zero_le 1, fun hdata => ?_⟩
  cases hdata

/-! ## One call -/

variable {localId : ι → NodeId} {entropy : ι → UInt64} {past : List (Made ι)} {s s' : ι → DeliveryEngine} {a b : ι}
  {t : Made ι}

/-- What all engines know together. -/
structure Sound (localId : ι → NodeId) (entropy : ι → UInt64) (past : List (Made ι)) (s : ι → DeliveryEngine) :
    Prop where
  inv : ∀ a, Inv (fun _ => True) (s a)
  remembers : ∀ a, Remembers (localId a) (idSeed (entropy a) (localId a)) (stepsOf a past) (s a)
  wire : ∀ a x, OnWire a past x → AckOf (localId a) x ∨ ∃ m ∈ given a past, FrameOf m x
  incoming : ∀ a b, Incoming (localId a) (· ∈ given a past) (s b)

theorem sound_init (cfg : ι → ChannelConfig) (localId : ι → NodeId) (entropy : ι → UInt64)
    (hlocal : ∀ a, localId a ≠ nodeIdInvalid) : Sound localId entropy [] (init cfg localId entropy) := by
  refine ⟨fun a => inv_init (cfg a) (entropy a) (hlocal a), fun a => remembers_init (cfg a) (localId a) (entropy a),
    fun a x hx => ?_, fun a b => incoming_init (cfg b) (localId b) (entropy b)⟩
  obtain ⟨t, ht, -⟩ := hx
  cases ht

/-- What a node gave to its engine stays given. -/
theorem given_append (a : ι) (past : List (Made ι)) (t : Made ι) : ∀ m ∈ given a past, m ∈ given a (past ++ [t]) := by
  intro m hm
  unfold given at hm ⊢
  rw [stepsOf_append, offered, List.filterMap_append]
  exact List.mem_append_left _ hm

/-- The messages of a node, as the others know them. -/
theorem Sound.messages (h : Sound localId entropy past s) (hfew : past.length ≤ Counter.period) (a : ι) :
    Messages (localId a) (· ∈ given a past) := by
  have hdistinct := (h.remembers a).distinct (idSeed_ne_zero (entropy a) (localId a))
    ((offered_length_le _).trans ((stepsOf_length_le a past).trans hfew))
  refine ⟨fun m hm => ((h.remembers a).valid m hm).1, fun m hm => ((h.remembers a).valid m hm).2.2.1, ?_⟩
  intro m m' hm hm' heq
  exact List.inj_on_of_nodup_map hdistinct hm hm' heq

/-- What the network hands up is honest about every node. -/
theorem Sound.honest (h : Sound localId entropy past s) (authentic : Authentic localId past t) (a : ι) :
    HonestCall (localId a) (· ∈ given a past) t.input.input := by
  intro timeoutMs frame harrived hsource
  obtain ⟨x, hx, hcarried⟩ := authentic timeoutMs frame harrived a hsource
  rcases h.wire a x hx with hack | ⟨m, hm, hframe⟩
  · exact .inr (ack_carried hack hcarried)
  · exact .inl ⟨m, hm, frameOf_carried hframe hcarried⟩

/-- One call on one engine. -/
theorem Sound.step {ev : Event ι} {o : Observation} (h : Sound localId entropy past s)
    (hfew : past.length ≤ Counter.period) (authentic : Authentic localId past ⟨s, ev, o, s'⟩)
    (hexec : exec ev s = .ok (o, s')) :
    Faithful localId past ⟨s, ev, o, s'⟩ ∧ Sound localId entropy (past ++ [⟨s, ev, o, s'⟩]) s' := by
  obtain ⟨e, hcall, rfl⟩ := exec_eq_ok.mp hexec
  have hincoming (a : ι) := (h.incoming a ev.node).exec (h.messages hfew a) (h.inv ev.node)
    (h.honest authentic a) hcall
  refine ⟨fun env henv hdata a hsource => (hincoming a).2 env henv hsource hdata, fun a => ?_, fun a => ?_,
    fun a x hx => ?_, fun a b => ?_⟩
  · by_cases hnode : ev.node = a
    · subst hnode
      rw [Function.update_self]
      exact (exec_delivered headerProperty_true (h.inv ev.node) (fun _ _ _ => trivial) hcall).1
    · rw [Function.update_of_ne (Ne.symm hnode)]
      exact h.inv a
  · rw [stepsOf_append]
    by_cases hnode : ev.node = a
    · subst hnode
      dsimp only
      rw [if_pos rfl, Function.update_self]
      exact ((h.remembers ev.node).step hcall).2
    · rw [if_neg hnode, List.append_nil, Function.update_of_ne (Ne.symm hnode)]
      exact h.remembers a
  · obtain ⟨t, ht, res, hsent⟩ := hx
    rw [stepsOf_append] at ht
    rcases List.mem_append.mp ht with hbefore | hnow
    · rcases h.wire a x ⟨t, hbefore, res, hsent⟩ with hack | ⟨m, hm, hframe⟩
      · exact .inl hack
      · exact .inr ⟨m, given_append a past _ m hm, hframe⟩
    · by_cases hnode : ev.node = a
      · subst hnode
        dsimp only at hnow
        rw [if_pos rfl, List.mem_singleton] at hnow
        subst hnow
        have hsays := ((h.remembers ev.node).step hcall).1 x res hsent
        unfold given
        rw [stepsOf_append]
        dsimp only
        rw [if_pos rfl, Function.update_self]
        exact hsays
      · dsimp only at hnow
        rw [if_neg hnode] at hnow
        cases hnow
  · by_cases hnode : ev.node = b
    · subst hnode
      rw [Function.update_self]
      exact (hincoming a).1.mono (given_append a past _)
    · rw [Function.update_of_ne (Ne.symm hnode)]
      exact (h.incoming a b).mono (given_append a past _)

/-! ## Every run -/

/-- In every run, whatever the network does to the frames, what an engine returns in the name of a node is a
message that was given to that node to send. -/
theorem end_to_end (cfg : ι → ChannelConfig) (localId : ι → NodeId) (entropy : ι → UInt64) (events : List (Event ι))
    (hlocal : ∀ a, localId a ≠ nodeIdInvalid) (hfew : events.length ≤ Counter.period)
    (authentic : Run.Lawful (Authentic localId) (Run.history exec events (init cfg localId entropy))) :
    Run.Lawful (Faithful localId) (Run.history exec events (init cfg localId entropy)) := by
  have hsteps : (Run.history exec events (init cfg localId entropy)).length ≤ events.length :=
    Run.history_length_le events _
  obtain ⟨last, hlast⟩ := Run.history_inv
    (I := fun past s => past.length ≤ Counter.period → Run.Lawful (Authentic localId) past →
      Sound localId entropy past s ∧ Run.Lawful (Faithful localId) past) (by
      intro past s ev o s' h hexec hfew hauthentic
      have hshort : past.length ≤ Counter.period := by
        rw [List.length_append] at hfew
        omega
      obtain ⟨hsound, hlaw⟩ := h hshort hauthentic.init
      obtain ⟨hfaithful, hnext⟩ := hsound.step hshort hauthentic.last hexec
      exact ⟨hnext, hlaw.snoc hfaithful⟩)
    events [] (init cfg localId entropy) fun _ _ => ⟨sound_init cfg localId entropy hlocal, .nil⟩
  rw [List.nil_append] at hlast
  exact (hlast (hsteps.trans hfew) authentic).2

/-- Two nodes. The second sends a message to the first, which is handed its frame. -/
def twoNodes (b : Bool) : NodeId := if b then 1 else 2

def sentFrame : MessageEnvelope := (DeliveryEngine.init orderedConfig 2 7).filledIn (plainData 0 0 0) 1

def exchange : List (Event Bool) :=
  [⟨false, .send (plainData 0 0 0) 1, silent⟩, ⟨true, receiveOf 1 sentFrame⟩]

theorem authentic_exchange : Run.Lawful (Authentic twoNodes)
    (Run.history exec exchange (init (fun _ => orderedConfig) twoNodes fun _ => 7)) := by
  have hruns : Run.Yields exec exchange (init (fun _ => orderedConfig) twoNodes fun _ => 7)
      fun os _ => (os.head?.map Observation.effects).getD [] = [.sent sentFrame .ok] := by
    unfold Run.Yields
    exact rfl
  obtain ⟨os, s', hrun, hsent⟩ := hruns.exists
  obtain ⟨⟨o₁, s₁⟩, hfirst, hrun⟩ := bind_eq_ok.mp hrun
  obtain ⟨⟨os₁, s₂⟩, hrest, hdone⟩ := bind_eq_ok.mp hrun
  obtain ⟨⟨o₂, s₃⟩, hsecond, -⟩ := bind_eq_ok.mp hrest
  cases hdone
  rw [exchange, Run.history_cons_ok hfirst, Run.history_cons_ok hsecond, Run.history_nil]
  show Run.Lawful (Authentic twoNodes) (([] ++ [_]) ++ [_])
  refine (Run.Lawful.nil.snoc ?_).snoc ?_
  · intro timeoutMs frame harrived
    cases harrived
  · intro timeoutMs frame harrived a hsource
    cases harrived
    have hnode : a = false := by
      revert hsource
      revert a
      decide
    subst hnode
    refine ⟨sentFrame, ⟨_, List.mem_singleton.mpr rfl, .ok, ?_⟩, rfl, rfl⟩
    have heffects : o₁.effects = [.sent sentFrame .ok] := hsent
    rw [heffects]
    exact List.mem_singleton.mpr rfl

theorem end_to_end_exchange :
    exchange.length ≤ Counter.period ∧
    Run.Lawful (Authentic twoNodes) (Run.history exec exchange (init (fun _ => orderedConfig) twoNodes fun _ => 7)) ∧
    Run.Lawful (Faithful twoNodes) (Run.history exec exchange (init (fun _ => orderedConfig) twoNodes fun _ => 7)) := by
  have hfew : exchange.length ≤ Counter.period := by
    show 2 ≤ 2 ^ 64 - 1
    omega
  exact ⟨hfew, authentic_exchange,
    end_to_end (fun _ => orderedConfig) twoNodes (fun _ => 7) exchange (by decide) hfew authentic_exchange⟩

end Network

end MessageEngine
