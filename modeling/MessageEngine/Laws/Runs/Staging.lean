import MessageEngine.Laws.DeliveryEngine.Arrival
import MessageEngine.Lib.Slot

/-!
# The staging slot over whole runs

All sources share one staging slot. The slot is meant to lose nothing: what `try_release_next` hands
over is later returned, dropped as expired and counted, discarded by a reset of its own source, or
still there.

A call can break this in one way. A staged message that expired is dropped and the next message of
its source staged, and the call then goes on to the transport. If the message that comes from there
passes the gate and frees a hold of its own source, that hold is written over the staged message.

## What is proved

- `staging_law`: in a run without such a call the slot loses nothing;
- `staged_message_lost`: a run with such a call loses a message.
-/

namespace MessageEngine

open Outcome Table OrderingBuffer

namespace OrderingBuffer

/-- The message passes the gate. -/
def Passes (b : OrderingBuffer) (msg : MessageEnvelope) : Prop :=
  msg.sequenceNum = 0 ∨ msg.sequenceNum = b.expected msg.sourceId

/-- The message passes the gate, and the one expected after it is waiting in a hold. -/
def Unblocks (b : OrderingBuffer) (msg : MessageEnvelope) : Prop :=
  b.Passes msg ∧ ∃ i : Fin orderingHoldCount, b.hold[i].active = true ∧
    b.hold[i].env.sourceId = msg.sourceId ∧ b.hold[i].env.sequenceNum =
      if msg.sequenceNum = 0 then b.expected msg.sourceId else nextSeq msg.sequenceNum

instance (b : OrderingBuffer) (msg : MessageEnvelope) : Decidable (b.Passes msg) :=
  inferInstanceAs (Decidable (_ ∨ _))

instance (b : OrderingBuffer) (msg : MessageEnvelope) : Decidable (b.Unblocks msg) :=
  inferInstanceAs (Decidable (_ ∧ ∃ _, _))

theorem Ingested.passes {b b' : OrderingBuffer} {msg : MessageEnvelope}
    (h : Ingested b msg (.ok msg) b') : b.Passes msg := by
  cases h with
  | unordered zero => exact .inl zero
  | delivered _ next _ _ => exact .inr next

/-- A message that passes does not change what is held. -/
theorem Ingested.held_passed {b b' : OrderingBuffer} {msg : MessageEnvelope}
    (h : Ingested b msg (.ok msg) b') (x : MessageEnvelope) : Held b' x ↔ Held b x := by
  cases h with
  | unordered _ => exact Iff.rfl
  | delivered _ _ _ holds => exact held_congr holds x

/-- Only a message that unblocks a hold has one released after it. -/
theorem Ingested.unblocks {b b₁ b₂ : OrderingBuffer} {msg env : MessageEnvelope}
    (h : Ingested b msg (.ok msg) b₁) (release : Released b₁ msg.sourceId (some env) b₂) :
    b.Unblocks msg := by
  refine ⟨h.passes, ?_⟩
  cases release with
  | next held source atCursor cursors rest =>
    cases h with
    | unordered zero =>
      obtain ⟨i, hactive, rfl⟩ := held
      refine ⟨i, hactive, source, ?_⟩
      rw [if_pos zero, expected, atCursor]
      rfl
    | delivered seq next moved holds =>
      obtain ⟨i, hactive, rfl⟩ := (held_congr holds env).mp held
      refine ⟨i, hactive, source, ?_⟩
      rw [moved.own] at atCursor
      rw [if_neg seq]
      exact (Option.some.inj atCursor).symm

end OrderingBuffer

/-- What the effect does to the staging slot. -/
def Effect.slotMove? : Effect → Option (Slot.Move MessageEnvelope)
  | .released env => some (.put env)
  | .heldReturned env => some (.take env)
  | .heldExpired env => some (.take env)
  | .heldDiscarded env => some (.take env)
  | _ => none

def slotMoves (effects : List Effect) : List (Slot.Move MessageEnvelope) :=
  effects.filterMap Effect.slotMove?

theorem slotMoves_append (xs ys : List Effect) :
    slotMoves (xs ++ ys) = slotMoves xs ++ slotMoves ys := List.filterMap_append

namespace DeliveryEngine

/-- The effects of a run, in order. -/
def effectsOf (past : List Observation) : List Effect := past.flatMap Observation.effects

/-- What the staging slot owes its messages, after a call that did `o`. -/
structure StagingLaw (past : List Observation) (e : DeliveryEngine) (_ : Input) (o : Observation)
    (e' : DeliveryEngine) : Prop where
  /-- The slot was filled only when empty, in all of the run. -/
  replay : Slot.Replays none (slotMoves (effectsOf (past ++ [o]))) e'.staged?
  /-- Every message handed over has left the slot, once, or is still staged. -/
  accounted : Slot.puts (slotMoves (effectsOf (past ++ [o]))) =
    Slot.takes (slotMoves (effectsOf (past ++ [o]))) ++ e'.staged?.toList
  /-- A message that left to be returned was staged before the call and is its answer. -/
  returned : ∀ env, .heldReturned env ∈ o.effects →
    e.staged? = some env ∧ o.answer = .received (.ok env)
  /-- Every drop is counted. -/
  counted : e'.stats.msgsDroppedExpired =
    e.stats.msgsDroppedExpired + UInt32.ofNat (expiries o.effects)
  /-- Only a reset of its source discards a message. -/
  discarded : ∀ env, .heldDiscarded env ∈ o.effects → .reset env.sourceId ∈ o.effects

/-- The call writes over a staged message. -/
def Receiving.Overwrites (r : Receiving) : Prop :=
  r.opened.staged.isSome = true ∧ ∃ env ∈ r.data?, r.gate.Unblocks env

instance (r : Receiving) : Decidable r.Overwrites := inferInstanceAs (Decidable (_ ∧ ∃ _ ∈ _, _))

/-- The call does not write over a staged message. -/
def KeepsStaged (e : DeliveryEngine) (i : Input) : Prop := ∀ r ∈ receiving? e i, ¬ r.Overwrites

instance (e : DeliveryEngine) (i : Input) : Decidable (KeepsStaged e i) :=
  inferInstanceAs (Decidable (∀ _ ∈ _, _))

/-- A sound step of the slot, and what it leaves in the trace. -/
structure Moves (d d' : Delivery) (effects : List Effect) : Prop where
  trace : d'.trace = d.trace ++ effects
  replay : Slot.Replays d.staged (slotMoves effects) d'.staged
  counted : d'.dropped = d.dropped + UInt32.ofNat (expiries effects)
  discarded : ∀ env, .heldDiscarded env ∈ effects → .reset env.sourceId ∈ effects

variable {P : MessageEnvelope → Prop} {e e' : DeliveryEngine} {i : Input} {d d₁ d₂ d' : Delivery}
  {xs ys : List Effect}

theorem Moves.trans (h : Moves d d₁ xs) (h' : Moves d₁ d₂ ys) : Moves d d₂ (xs ++ ys) where
  trace := by rw [h'.trace, h.trace, List.append_assoc]
  replay := by
    rw [slotMoves_append]
    exact h.replay.append h'.replay
  counted := by rw [h'.counted, h.counted, expiries_append, UInt32.ofNat_add, UInt32.add_assoc]
  discarded := by
    intro env henv
    rcases List.mem_append.mp henv with hx | hy
    · exact List.mem_append_left _ (h.discarded env hx)
    · exact List.mem_append_right _ (h'.discarded env hy)

theorem slotMoves_outward {xs : List Effect} (houtward : ∀ x ∈ xs, x.outward = true) : slotMoves xs = [] := by
  refine List.filterMap_eq_nil_iff.mpr fun x hx => ?_
  have := houtward x hx
  cases x with
  | sent env r => rfl
  | expired env => rfl
  | released env => cases this
  | heldReturned env => cases this
  | heldExpired env => cases this
  | heldDiscarded env => cases this
  | reset src => cases this

/-- Effects that do not touch the slot. -/
theorem Moves.outward (houtward : ∀ x ∈ xs, x.outward = true) (hstaged : d'.staged = d.staged)
    (hdropped : d'.dropped = d.dropped + UInt32.ofNat (expiries xs)) (htrace : d'.trace = d.trace ++ xs) :
    Moves d d' xs where
  trace := htrace
  replay := by
    rw [slotMoves_outward houtward]
    exact hstaged
  counted := hdropped
  discarded := by
    intro env henv
    exact absurd (houtward _ henv) (by simp [Effect.outward])

/-! ## The moves of one call -/

theorem outward_expired (envs : List MessageEnvelope) : ∀ x ∈ envs.map Effect.expired, x.outward = true := by
  intro x hx
  obtain ⟨env, -, rfl⟩ := List.mem_map.mp hx
  rfl

theorem expiries_expired (envs : List MessageEnvelope) :
    expiries (envs.map Effect.expired) = envs.length := by
  rw [expiries, List.countP_map]
  exact List.countP_eq_length.mpr fun _ _ => rfl

theorem outward_ackEffects (localId : NodeId) (env : MessageEnvelope) (nowUs : UInt64) (r : Result) :
    ∀ x ∈ ackEffects localId env nowUs r, x.outward = true := by
  unfold ackEffects
  split
  · simp [Effect.outward]
  · simp

theorem expiries_ackEffects (localId : NodeId) (env : MessageEnvelope) (nowUs : UInt64) (r : Result) :
    expiries (ackEffects localId env nowUs r) = 0 := by
  unfold ackEffects
  split
  · simp [expiries, Effect.isExpiry]
  · simp [expiries]

/-- Staging what was released into an empty slot. -/
theorem slotMoves_released (out : Option MessageEnvelope) :
    Slot.Replays none (slotMoves (out.toList.map .released)) out := by
  cases out with
  | none => rfl
  | some env => exact ⟨rfl, rfl⟩

theorem expiries_released (out : Option MessageEnvelope) :
    expiries (out.toList.map Effect.released) = 0 := by
  cases out with
  | none => rfl
  | some env => rfl

theorem moves_reset {src : NodeId} (h : IsReset src d d') :
    ∃ effects, Moves d d' effects ∧ ∀ env, .heldReturned env ∉ effects := by
  refine ⟨_, ⟨h.trace, ?_, ?_, ?_⟩, ?_⟩
  · rw [h.staged]
    cases d.staged with
    | none => rfl
    | some env =>
      by_cases hs : env.sourceId = src
      · rw [Option.filter_some_pos (by simpa using hs), Option.filter_some_neg (by simpa using hs)]
        exact ⟨rfl, rfl⟩
      · rw [Option.filter_some_neg (by simpa using hs), Option.filter_some_pos (by simpa using hs)]
        rfl
  · have hzero : expiries ((d.staged.filter fun env => env.sourceId == src).toList.map
        Effect.heldDiscarded ++ [.reset src]) = 0 := by
      cases d.staged.filter fun env => env.sourceId == src with
      | none => rfl
      | some env => rfl
    rw [h.dropped, hzero]
    exact (UInt32.add_zero _).symm
  · intro env henv
    rcases List.mem_append.mp henv with hx | hx
    · obtain ⟨y, hy, heq⟩ := List.mem_map.mp hx
      cases heq
      have hsource := (Option.mem_filter_iff.mp (Option.mem_toList.mp hy)).2
      rw [beq_iff_eq.mp hsource]
      exact List.mem_append_right _ List.mem_cons_self
    · cases List.mem_singleton.mp hx
  · intro env henv
    rcases List.mem_append.mp henv with hx | hx
    · obtain ⟨y, -, heq⟩ := List.mem_map.mp hx
      cases heq
    · cases List.mem_singleton.mp hx

/-- A drain discards, and leaves what it does not discard. -/
theorem moves_resets {srcs : List NodeId} (h : Resets srcs d d') :
    ∃ effects, Moves d d' effects ∧ (∀ env, .heldReturned env ∉ effects) ∧
      ∀ env, d'.staged = some env → d.staged = some env := by
  refine h.keep (R := fun x => ∃ effects, Moves d x effects ∧ (∀ env, .heldReturned env ∉ effects) ∧
    ∀ env, x.staged = some env → d.staged = some env) ?_ ?_
  · exact ⟨[], .outward (by simp) rfl (UInt32.add_zero _).symm (List.append_nil _).symm, by simp,
      fun _ => id⟩
  · rintro src - d₁ d₂ hreset ⟨xs, hmoves, hnone, hback⟩
    obtain ⟨ys, hmoves', hnone'⟩ := moves_reset hreset
    refine ⟨xs ++ ys, hmoves.trans hmoves', ?_, ?_⟩
    · intro env henv
      rcases List.mem_append.mp henv with hx | hy
      · exact hnone env hx
      · exact hnone' env hy
    · intro env henv
      rw [hreset.staged] at henv
      exact hback env (Option.mem_filter_iff.mp henv).1

/-- A staged message that expired makes room for the next one. -/
theorem moves_opened {r : Receiving} (inv : Inv P r.engine) (asks : r.asks) :
    ∃ effects, Moves r.engine.delivery r.opened effects ∧ ∀ env, .heldReturned env ∉ effects := by
  rcases Receiving.opened_spec inv asks with
    ⟨-, hopened⟩ | ⟨env, out, ordering, hstaged, -, -, -, -, hopened⟩
  · rw [hopened]
    exact ⟨[], .outward (by simp) rfl (UInt32.add_zero _).symm (List.append_nil _).symm, by simp⟩
  · rw [hopened]
    refine ⟨_, ⟨rfl, ?_, ?_, ?_⟩, ?_⟩
    · rw [slotMoves_append]
      change Slot.Replays r.engine.staged? _ out
      rw [hstaged]
      exact ⟨rfl, slotMoves_released out⟩
    · rw [expiries_append, expiries_released]
      rfl
    · cases out <;> simp
    · cases out <;> simp

/-- The messages the gate released come out of a slot that was free, unless the call overwrites. -/
theorem moves_passed {r : Receiving} {env : MessageEnvelope} {s : Sweep} {res : Result}
    {gateAfter ordering : OrderingBuffer} {out : Option MessageEnvelope} {dedup : DuplicateFilter}
    (hkeeps : ¬ r.Overwrites) (data : r.data? = some env)
    (gate : Gated P r.opened.ordering env r.nowUs s (.ok env) gateAfter)
    (release : Released gateAfter env.sourceId out ordering) :
    Moves r.opened ⟨dedup, ordering, out.or r.opened.staged,
      r.opened.dropped + UInt32.ofNat s.out.length,
      r.opened.trace ++ (s.out.map .expired ++ out.toList.map .released ++
        ackEffects r.engine.localId env r.nowUs res)⟩
      (s.out.map .expired ++ out.toList.map .released ++ ackEffects r.engine.localId env r.nowUs res) := by
  refine ⟨rfl, ?_, ?_, by simp⟩
  · rw [slotMoves_append, slotMoves_append, slotMoves_outward (outward_expired s.out),
      slotMoves_outward (outward_ackEffects _ _ _ _), List.append_nil, List.nil_append]
    cases out with
    | none => exact Option.none_or
    | some next =>
      have hempty : r.opened.staged = none := by
        by_contra hsome
        refine hkeeps ⟨Option.isSome_iff_ne_none.mpr hsome, env, data, ?_⟩
        rw [Receiving.gate_eq gate.swept]
        exact gate.ingested.unblocks release
      exact ⟨hempty, rfl⟩
  · rw [expiries_append, expiries_append, expiries_expired, expiries_released, expiries_ackEffects]
    rfl

/-- What follows the drop of an expired staged message, if there was one. -/
theorem Moves.afterOpened {r : Receiving} (inv : Inv P r.engine) (asks : r.asks)
    (h : Moves r.opened d' xs) (hnone : ∀ env, .heldReturned env ∉ xs) :
    ∃ effects, Moves r.engine.delivery d' effects ∧ ∀ env, .heldReturned env ∉ effects := by
  obtain ⟨ys, hopened, hnone'⟩ := moves_opened inv asks
  refine ⟨ys ++ xs, hopened.trans h, fun env henv => ?_⟩
  rcases List.mem_append.mp henv with hy | hx
  · exact hnone' env hy
  · exact hnone env hx

/-- The moves of a `receive`, from the engine it found. -/
theorem moves_answered {r : Receiving} {reply : Reply} (inv : Inv P r.engine) (hkeeps : ¬ r.Overwrites)
    (h : r.Answered P reply d') :
    ∃ effects, Moves r.engine.delivery d' effects ∧
      ∀ env, .heldReturned env ∈ effects → r.engine.staged? = some env ∧ reply = .ok env := by
  -- Only the first case returns a staged message; the others start by asking the transport.
  suffices hasked : r.asks → (∃ xs, Moves r.opened d' xs ∧ ∀ env, .heldReturned env ∉ xs) →
      ∃ effects, Moves r.engine.delivery d' effects ∧
        ∀ env, .heldReturned env ∈ effects → r.engine.staged? = some env ∧ reply = .ok env by
    cases h with
    | @returned env out ordering res staged accepted fresh release =>
      refine ⟨_, ⟨rfl, ?_, ?_, by simp⟩, ?_⟩
      · rw [slotMoves_append, slotMoves_append, slotMoves_outward (outward_ackEffects _ _ _ _),
          List.append_nil]
        change Slot.Replays r.engine.staged? _ out
        rw [staged]
        exact ⟨rfl, slotMoves_released out⟩
      · rw [expiries_append, expiries_append, expiries_released, expiries_ackEffects]
        exact (UInt32.add_zero _).symm
      · intro x hx
        obtain rfl : x = env := by simpa using hx
        exact ⟨staged, rfl⟩
    | @idle _ late asks none noData _ =>
      refine hasked asks ⟨_, .outward (outward_expired late) rfl ?_ rfl, by simp⟩
      rw [expiries_expired]
    | duplicate asks none retry known =>
      exact hasked asks ⟨_, .outward (by simp [Effect.outward]) rfl (UInt32.add_zero _).symm rfl,
        by simp⟩
    | @kept env dedup s res ordering asks data accepted through gate =>
      refine hasked asks ⟨_, .outward (outward_expired s.out) rfl ?_ rfl, by simp⟩
      rw [expiries_expired]
    | passed asks data accepted through gate release =>
      exact hasked asks ⟨_, moves_passed hkeeps data gate release, by simp⟩
  rintro asks ⟨xs, hmoves, hnone⟩
  obtain ⟨effects, hall, hnone'⟩ := hmoves.afterOpened inv asks hnone
  exact ⟨effects, hall, fun env henv => absurd henv (hnone' env)⟩

/-- The moves of any call. -/
theorem moves_delivered {answer : Answer} (hkeeps : KeepsStaged e i) (h : Delivered P e i answer d') :
    ∃ effects, Moves { e.delivery with trace := [] } d' effects ∧
      ∀ env, .heldReturned env ∈ effects → e.staged? = some env ∧ answer = .received (.ok env) := by
  cases h with
  | @outbound _ effects notReceive notReceived outward =>
    refine ⟨effects, .outward outward rfl rfl rfl, fun env henv => ?_⟩
    exact absurd (outward _ henv) (by simp [Effect.outward])
  | rejected => exact ⟨[], .outward (by simp) rfl (UInt32.add_zero _).symm rfl, by simp⟩
  | @swept nowUs n s call fresh swept sweeping =>
    refine ⟨_, .outward (outward_expired s.out) rfl ?_ rfl, by simp⟩
    rw [expiries_expired]
    rfl
  | reset call reset =>
    obtain ⟨effects, hmoves, hnone⟩ := moves_reset reset
    exact ⟨effects, hmoves, fun env henv => absurd henv (hnone env)⟩
  | @received r reply _ receiving inv resets answered =>
    obtain ⟨xs, hdrain, hnone, hback⟩ := moves_resets resets
    obtain ⟨ys, hmoves, hreturned⟩ := moves_answered inv (hkeeps r receiving) answered
    refine ⟨xs ++ ys, hdrain.trans hmoves, fun env henv => ?_⟩
    rcases List.mem_append.mp henv with hx | hy
    · exact absurd hx (hnone env)
    · obtain ⟨hstaged, rfl⟩ := hreturned env hy
      exact ⟨hback env hstaged, rfl⟩

/-! ## The law -/

theorem effectsOf_append (past : List Observation) (o : Observation) :
    effectsOf (past ++ [o]) = effectsOf past ++ o.effects := by
  simp [effectsOf]

/-- In a run in which no call writes over a staged message, the staging slot loses nothing. -/
theorem staging_law (cfg : ChannelConfig) (localId : NodeId) (entropy : UInt64) (inputs : List Input)
    (hlocal : localId ≠ nodeIdInvalid)
    (hkeeps : Run.Along exec KeepsStaged inputs (init cfg localId entropy)) :
    Run.EachStep exec StagingLaw [] inputs (init cfg localId entropy) := by
  refine Run.eachStep_of_inv (fun past e => Inv (fun _ => True) e ∧
    Slot.Replays none (slotMoves (effectsOf past)) e.staged?) ?_ inputs [] _ ?_ hkeeps
  · rintro past e i o e' ⟨inv, hreplay⟩ hstep hrun
    obtain ⟨hinv, hdelivered, heffects⟩ :=
      exec_delivered headerProperty_true inv (fun _ _ _ => trivial) hrun
    obtain ⟨effects, hmoves, hreturned⟩ := moves_delivered hstep hdelivered
    obtain rfl : o.effects = effects := heffects.trans hmoves.trace
    have hall : Slot.Replays none (slotMoves (effectsOf (past ++ [o]))) e'.staged? := by
      rw [effectsOf_append, slotMoves_append]
      exact hreplay.append hmoves.replay
    exact ⟨⟨hall, hall.puts_eq, hreturned, hmoves.counted, hmoves.discarded⟩, hinv, hall⟩
  · exact ⟨inv_init cfg entropy hlocal, rfl⟩

/-! ## A run that loses a message -/

/-- A data message to node 1 that asks for no acknowledgement. -/
def plainData (source : NodeId) (seq : UInt32) (expiryTimeUs : UInt64) : MessageEnvelope :=
  { envelopeInit with
    messageId := seq.toUInt64, expiryTimeUs, sourceId := source, destinationId := 1, sequenceNum := seq
    messageType := .data, fragmentCount := 1 }

/-- A `receive` to which the transport hands up a frame. -/
def receiveOf (nowUs : UInt64) (frame : MessageEnvelope) : Input :=
  ⟨.receive 0 nowUs, ⟨[], fun _ => .ok frame, []⟩⟩

/-- A transport that has nothing to hand up. -/
def silent : Transport := ⟨[], fun _ => .error .errTimeout, []⟩

def receiveNothing (nowUs : UInt64) : Input := ⟨.receive 0 nowUs, silent⟩

@[simp] theorem delivers_receiveOf {nowUs : UInt64} {frame : MessageEnvelope} :
    Delivers P (receiveOf nowUs frame).transport ↔ P frame := by
  refine ⟨fun h => h 0 frame rfl, fun h timeoutMs x hx => ?_⟩
  cases hx
  exact h

@[simp] theorem delivers_silent : Delivers P silent := fun _ _ hx => nomatch hx

@[simp] theorem delivers_receiveNothing {nowUs : UInt64} : Delivers P (receiveNothing nowUs).transport :=
  delivers_silent

def orderedConfig : ChannelConfig := ⟨.ordered, 1000, 3, 100⟩

/-- Messages 2 and 3 of node 2 and message 2 of node 3 wait. Message 1 of node 2 stages its message 2,
which expires; its message 3 is staged, and written over when message 1 of node 3 comes in. -/
def overwritingRun : List Input :=
  [receiveOf 1 (plainData 2 2 10), receiveOf 2 (plainData 2 3 0), receiveOf 3 (plainData 3 2 0),
   receiveOf 4 (plainData 2 1 0), receiveOf 20 (plainData 3 1 0)]

theorem staged_message_lost :
    ¬ Run.EachStep exec StagingLaw [] overwritingRun (init orderedConfig 1 7) := by
  intro h
  have hcount := h.mono (fun past _ _ o e' =>
    (Slot.puts (slotMoves (effectsOf (past ++ [o])))).length =
      (Slot.takes (slotMoves (effectsOf (past ++ [o])))).length + e'.staged?.toList.length) (by
    intro past e i o e' hlaw
    rw [hlaw.accounted, List.length_append])
  revert hcount
  decide +kernel

/-- The same arrivals, with the staged message asked for before the last one. -/
def patientRun : List Input :=
  [receiveOf 1 (plainData 2 2 10), receiveOf 2 (plainData 2 3 0), receiveOf 3 (plainData 3 2 0),
   receiveOf 4 (plainData 2 1 0), receiveNothing 20, receiveNothing 21, receiveOf 22 (plainData 3 1 0)]

theorem staging_law_patient :
    Run.Along exec KeepsStaged patientRun (init orderedConfig 1 7) ∧
      Run.EachStep exec StagingLaw [] patientRun (init orderedConfig 1 7) := by
  have hkeeps : Run.Along exec KeepsStaged patientRun (init orderedConfig 1 7) := by decide +kernel
  exact ⟨hkeeps, staging_law orderedConfig 1 7 patientRun (by decide) hkeeps⟩

end DeliveryEngine

end MessageEngine
