import MessageEngine.Laws.Runs.Gate

/-!
# An acknowledgement means custody

The sender of a `RELIABLE_RETRY` message stops retransmitting when it is acknowledged, so an
acknowledgement should mean that the message has been returned or is kept for that: in a hold, or
in the staging slot.

The duplicate filter records a message before the ordering gate has decided on it, and never
forgets one because it was lost. A message that is lost after it was recorded is therefore
acknowledged as a duplicate when it is retransmitted. It can be lost in five ways: the gate refuses
it, it expires in the gate or behind a message that does, it expires in the staging slot, it is
written over there, or its source is reset.

## What is proved

- `ack_means_custody`: in a run in which no such message is lost, every acknowledgement means
  custody;
- `lost_message_acknowledged`: a message that the gate refused is acknowledged.
-/

namespace MessageEngine

open Outcome Table OrderingBuffer

/-- The message is the `RELIABLE_RETRY` message of that name. -/
structure Retried (src : NodeId) (msgId : UInt64) (env : MessageEnvelope) : Prop where
  retry : env.reliabilityClass = .reliableRetry
  source : env.sourceId = src
  id : env.messageId = msgId

/-- The messages that the effects acknowledge: frames sent by `receive` are acknowledgements, and
go to the source of the message. -/
def acksIn (effects : List Effect) : List (NodeId × UInt64) :=
  effects.filterMap fun x =>
    match x with
    | .sent ack _ => some (ack.destinationId, ack.messageId)
    | _ => none

theorem acksIn_append (xs ys : List Effect) : acksIn (xs ++ ys) = acksIn xs ++ acksIn ys :=
  List.filterMap_append

namespace OrderingBuffer

/-- A sweep at `nowUs` drops a `RELIABLE_RETRY` message: one that expired, or one behind a message
of its source that did. -/
def DropsRetry (b : OrderingBuffer) (nowUs : UInt64) : Prop :=
  ∃ i : Fin orderingHoldCount, b.hold[i].active = true ∧
    b.hold[i].env.reliabilityClass = .reliableRetry ∧
    (ExpiredAt nowUs b.hold[i].env ∨ ∃ j : Fin orderingHoldCount, b.hold[j].active = true ∧
      ExpiredAt nowUs b.hold[j].env ∧ b.hold[j].env.sourceId = b.hold[i].env.sourceId ∧
      b.hold[i].env.sequenceNum < nextSeq b.hold[j].env.sequenceNum)

instance (b : OrderingBuffer) (nowUs : UInt64) : Decidable (b.DropsRetry nowUs) :=
  inferInstanceAs (Decidable (∃ _, _))

variable {Q : MessageEnvelope → Prop} {b b' : OrderingBuffer} {src : NodeId} {nowUs : UInt64}
  {msgId : UInt64} {staged out : Option MessageEnvelope} {s : Sweep} {env : MessageEnvelope}

/-- A sweep that drops none of them keeps them all. -/
theorem Sweeping.held_retried (w : Sweeping Q b nowUs orderingHoldCount s) (hno : ¬ b.DropsRetry nowUs)
    (hx : Held b env) (hretry : env.reliabilityClass = .reliableRetry) : Held s.buffer env := by
  rcases w.lost env hx with hkept | ⟨y, ⟨j, hj, rfl⟩, hexp, hsource, hbehind⟩
  · exact hkept
  · obtain ⟨i, hi, rfl⟩ := hx
    rcases hbehind with heq | hlt
    · rw [← heq] at hexp
      exact absurd ⟨i, hi, hretry, .inl hexp⟩ hno
    · exact absurd ⟨i, hi, hretry, .inr ⟨j, hj, hexp, hsource, hlt⟩⟩ hno

/-- The message is held or staged. -/
def Keeps (b : OrderingBuffer) (staged : Option MessageEnvelope) (src : NodeId) (msgId : UInt64) : Prop :=
  (∃ env, Held b env ∧ Retried src msgId env) ∨ ∃ env ∈ staged, Retried src msgId env

/-- A release moves a message from its hold to the slot; what was in the slot must not matter. -/
theorem Keeps.release (h : Keeps b staged src msgId) {source : NodeId}
    (release : Released b source out b')
    (hslot : out ≠ none → ∀ env ∈ staged, env.reliabilityClass ≠ .reliableRetry) :
    Keeps b' (out.or staged) src msgId := by
  cases release with
  | nothing _ => exact h
  | @next env _ held _ atCursor cursors rest =>
    rcases h with ⟨x, hx, hretried⟩ | ⟨x, hx, hretried⟩
    · by_cases heq : x = env
      · exact .inr ⟨env, rfl, heq ▸ hretried⟩
      · exact .inl ⟨x, (rest x).mpr ⟨hx, heq⟩, hretried⟩
    · exact absurd hretried.retry (hslot (Option.some_ne_none env) x hx)

end OrderingBuffer

namespace DeliveryEngine

/-- The call returned the message of that name. -/
def Answer.Returns (src : NodeId) (msgId : UInt64) : Answer → Prop
  | .received (.ok env) => envelopeIsData env ∧ env.sourceId = src ∧ env.messageId = msgId
  | _ => False

instance (src : NodeId) (msgId : UInt64) : DecidablePred (Answer.Returns src msgId) := fun answer =>
  match answer with
  | .received (.ok _) => inferInstanceAs (Decidable (_ ∧ _ ∧ _))
  | .received (.error _) => .isFalse id
  | .sent _ _ => .isFalse id
  | .counted _ => .isFalse id
  | .done => .isFalse id
  | .event _ => .isFalse id
  | .events _ => .isFalse id

/-- The message of that name was returned, is in an active hold, or is staged. -/
def InCustody (past : List Observation) (e : DeliveryEngine) (src : NodeId) (msgId : UInt64) : Prop :=
  (∃ o ∈ past, o.answer.Returns src msgId) ∨
  (∃ i : Fin orderingHoldCount, e.ordering.hold[i].active = true ∧
    e.ordering.hold[i].env.sourceId = src ∧ e.ordering.hold[i].env.messageId = msgId) ∨
  (e.heldPendingValid = true ∧ e.heldPending.sourceId = src ∧ e.heldPending.messageId = msgId)

instance (past : List Observation) (e : DeliveryEngine) (src : NodeId) (msgId : UInt64) :
    Decidable (InCustody past e src msgId) :=
  inferInstanceAs (Decidable (_ ∨ _ ∨ _))

def Call.isReceive : Call → Bool
  | .receive _ _ => true
  | _ => false

/-- Every message that a `receive` acknowledges is in custody after it. -/
def CustodyLaw (past : List Observation) (_ : DeliveryEngine) (i : Input) (o : Observation)
    (e' : DeliveryEngine) : Prop :=
  i.call.isReceive = true → ∀ ack ∈ acksIn o.effects, InCustody (past ++ [o]) e' ack.1 ack.2

instance (past : List Observation) (e : DeliveryEngine) (i : Input) (o : Observation)
    (e' : DeliveryEngine) : Decidable (CustodyLaw past e i o e') :=
  have : Decidable (∀ ack ∈ acksIn o.effects, InCustody (past ++ [o]) e' ack.1 ack.2) :=
    List.decidableBAll _ _
  inferInstanceAs (Decidable (_ → _))

/-! ## The ways to lose a message -/

/-- The sources that the call resets. -/
def resetting (e : DeliveryEngine) (i : Input) : List NodeId :=
  match i.call with
  | .resetPeerOrdering src => [src]
  | .receive _ nowUs =>
    if (e.attach i.transport).Stale nowUs then [] else reconnects orderingPeerCount i.transport
  | _ => []

/-- A `RELIABLE_RETRY` message of the source is held or staged. -/
def KeepsFrom (e : DeliveryEngine) (src : NodeId) : Prop :=
  (∃ i : Fin orderingHoldCount, e.ordering.hold[i].active = true ∧
    e.ordering.hold[i].env.reliabilityClass = .reliableRetry ∧ e.ordering.hold[i].env.sourceId = src) ∨
  ∃ env ∈ e.staged?, env.reliabilityClass = .reliableRetry ∧ env.sourceId = src

instance (e : DeliveryEngine) (src : NodeId) : Decidable (e.KeepsFrom src) :=
  inferInstanceAs (Decidable (_ ∨ ∃ _ ∈ _, _))

/-- The call loses a `RELIABLE_RETRY` message: from the staging slot, in the sweep or at the gate. -/
def Receiving.LosesRetry (r : Receiving) : Prop :=
  (r.asks ∧ ∃ env ∈ r.engine.staged?, env.reliabilityClass = .reliableRetry) ∨
  (r.Overwrites ∧ ∃ env ∈ r.opened.staged, env.reliabilityClass = .reliableRetry) ∨
  ∃ env ∈ r.data?, r.opened.ordering.DropsRetry r.nowUs ∨
    (env.reliabilityClass = .reliableRetry ∧ ¬ r.gate.Admits env)

instance (r : Receiving) : Decidable r.LosesRetry :=
  inferInstanceAs (Decidable ((_ ∧ ∃ _ ∈ _, _) ∨ (_ ∧ ∃ _ ∈ _, _) ∨ ∃ _ ∈ _, _))

/-- The call loses no `RELIABLE_RETRY` message. -/
def KeepsRetries (e : DeliveryEngine) (i : Input) : Prop :=
  (∀ src ∈ resetting e i, ¬ e.KeepsFrom src) ∧
  (∀ nowUs ∈ sweepTime? e i, ¬ e.ordering.DropsRetry nowUs) ∧
  ∀ r ∈ receiving? e i, ¬ r.LosesRetry

instance (e : DeliveryEngine) (i : Input) : Decidable (KeepsRetries e i) :=
  @instDecidableAnd _ _ (List.decidableBAll _ _)
    (@instDecidableAnd _ _ (Option.decidableForallMem _) (Option.decidableForallMem _))

/-! ## The invariant -/

/-- Every message the filter knows was returned, or is held or staged. -/
def Kept (returned : NodeId → UInt64 → Prop) (d : Delivery) : Prop :=
  ∀ src msgId, d.dedup.Knows src msgId → returned src msgId ∨ d.ordering.Keeps d.staged src msgId

variable {P : MessageEnvelope → Prop} {returned : NodeId → UInt64 → Prop} {e e' : DeliveryEngine}
  {i : Input} {r : Receiving} {reply : Reply} {d d' : Delivery} {src : NodeId} {nowUs : UInt64}

theorem Kept.mono {returned' : NodeId → UInt64 → Prop} (h : Kept returned d)
    (hmono : ∀ src msgId, returned src msgId → returned' src msgId) : Kept returned' d :=
  fun src msgId hknows => (h src msgId hknows).imp_left (hmono src msgId)

/-- A step that records nothing new and loses nothing. -/
theorem Kept.step (h : Kept returned d) (hdedup : d'.dedup = d.dedup)
    (hkeeps : ∀ src msgId, d.ordering.Keeps d.staged src msgId → d'.ordering.Keeps d'.staged src msgId) :
    Kept returned d' := by
  intro src msgId hknows
  rw [hdedup] at hknows
  exact (h src msgId hknows).imp_right (hkeeps src msgId)

theorem kept_opened (inv : Inv P r.engine) (asks : r.asks) (hno : ¬ r.LosesRetry)
    (h : Kept returned r.engine.delivery) : Kept returned r.opened := by
  rcases Receiving.opened_spec inv asks with
    ⟨-, hopened⟩ | ⟨env, out, ordering, hstaged, -, -, hrel, -, hopened⟩
  · rw [hopened]
    exact h
  · rw [hopened]
    refine h.step rfl fun src msgId hkeeps => ?_
    have hplain : env.reliabilityClass ≠ .reliableRetry :=
      fun hretry => hno (.inl ⟨asks, env, hstaged, hretry⟩)
    have hheld : r.engine.ordering.Keeps none src msgId := by
      rcases hkeeps with hheld | ⟨x, hx, hretried⟩
      · exact .inl hheld
      · cases hstaged.symm.trans hx
        exact absurd hretried.retry hplain
    have hnext := hheld.release hrel fun _ _ hx => nomatch hx
    rwa [Option.or_none] at hnext

/-- A sweep keeps what it should. -/
theorem Keeps.swept {Q : MessageEnvelope → Prop} {b : OrderingBuffer} {s : Sweep}
    {staged : Option MessageEnvelope} {msgId : UInt64} (h : b.Keeps staged src msgId)
    (w : Sweeping Q b nowUs orderingHoldCount s) (hno : ¬ b.DropsRetry nowUs) :
    s.buffer.Keeps staged src msgId := by
  rcases h with ⟨x, hx, hretried⟩ | hstaged
  · exact .inl ⟨x, w.held_retried hno hx hretried.retry, hretried⟩
  · exact .inr hstaged

/-- What the filter knows after letting a message through. -/
theorem Kept.through {env : MessageEnvelope} {dedup : DuplicateFilter} (h : Kept returned d)
    (through : LetThrough d.dedup env nowUs dedup) (hdedup : d'.dedup = dedup)
    (hkeeps : ∀ src msgId, d.ordering.Keeps d.staged src msgId → d'.ordering.Keeps d'.staged src msgId)
    (hnew : env.reliabilityClass = .reliableRetry → returned env.sourceId env.messageId ∨
      d'.ordering.Keeps d'.staged env.sourceId env.messageId) : Kept returned d' := by
  intro src msgId hknows
  rw [hdedup] at hknows
  rcases through.window src msgId hknows with hold | ⟨hretry, rfl, rfl⟩
  · exact (h src msgId hold).imp_right (hkeeps src msgId)
  · exact hnew hretry

/-- The message a `receive` returns is returned. -/
theorem returns_ok {env : MessageEnvelope} (hdata : envelopeIsData env) :
    (Answer.received (.ok env)).Returns env.sourceId env.messageId :=
  ⟨hdata, rfl, rfl⟩

theorem acksIn_ackEffects {localId : NodeId} {env : MessageEnvelope} {res : Result}
    {ack : NodeId × UInt64} (h : ack ∈ acksIn (ackEffects localId env nowUs res)) :
    ack = (env.sourceId, env.messageId) := by
  unfold ackEffects at h
  split at h
  · exact List.mem_singleton.mp h
  · cases h

/-- No other effect is an acknowledgement. -/
theorem acksIn_released (out : Option MessageEnvelope) : acksIn (out.toList.map .released) = [] := by
  cases out with
  | none => rfl
  | some env => rfl

theorem acksIn_expired (envs : List MessageEnvelope) : acksIn (envs.map .expired) = [] := by
  unfold acksIn
  rw [List.filterMap_map]
  exact List.filterMap_eq_nil_iff.mpr fun _ _ => rfl

theorem acksIn_opened (inv : Inv P r.engine) (asks : r.asks) :
    acksIn r.opened.trace = acksIn r.engine.trace := by
  rcases Receiving.opened_spec inv asks with ⟨-, hopened⟩ | ⟨env, out, _, -, -, -, -, -, hopened⟩
  · rw [hopened]
    rfl
  · rw [hopened]
    dsimp only
    rw [acksIn_append, acksIn_append, acksIn_released, List.append_nil]
    exact List.append_nil _

/-! ## One call -/

/-- What a `receive` keeps and acknowledges. -/
structure Honours (returned : NodeId → UInt64 → Prop) (d : Delivery) : Prop where
  kept : Kept returned d
  acks : ∀ ack ∈ acksIn d.trace, returned ack.1 ack.2 ∨ d.ordering.Keeps d.staged ack.1 ack.2

/-- The messages returned so far, and the one returned by this call. -/
def withReply (returned : NodeId → UInt64 → Prop) (reply : Reply) (src : NodeId) (msgId : UInt64) : Prop :=
  returned src msgId ∨ (Answer.received reply).Returns src msgId

theorem kept_withReply (h : Kept returned d) : Kept (withReply returned reply) d :=
  h.mono fun _ _ => .inl

theorem honours_answered (inv : Inv P r.engine) (hno : ¬ r.LosesRetry)
    (h : Kept returned r.engine.delivery) (hquiet : acksIn r.engine.trace = [])
    (answered : r.Answered P reply d') : Honours (withReply returned reply) d' := by
  cases answered with
  | @returned env out ordering res staged accepted fresh release =>
    have hreturned : withReply returned (.ok env) env.sourceId env.messageId :=
      .inr (returns_ok accepted.data)
    refine ⟨fun src msgId hknows => ?_, fun ack hack => ?_⟩
    · rcases h src msgId hknows with hbefore | hkeeps
      · exact .inl (.inl hbefore)
      · rcases hkeeps with hheld | ⟨x, hx, hretried⟩
        · have hnext : ordering.Keeps (out.or none) src msgId :=
            Keeps.release (.inl hheld) release fun _ _ hx => nomatch hx
          rw [Option.or_none] at hnext
          exact .inr hnext
        · cases staged.symm.trans hx
          obtain ⟨-, rfl, rfl⟩ := hretried
          exact .inl hreturned
    · simp only [acksIn_append, hquiet, acksIn_released, List.nil_append] at hack
      rw [acksIn_ackEffects hack]
      exact .inl hreturned
  | @idle _ late asks none noData _ =>
    refine ⟨kept_withReply ((kept_opened inv asks hno h).step rfl fun _ _ => id), fun ack hack => ?_⟩
    simp only [acksIn_append, acksIn_opened inv asks, hquiet, acksIn_expired, List.append_nil,
      List.not_mem_nil] at hack
  | @duplicate env res asks none retry known =>
    have hopened := kept_opened inv asks hno h
    refine ⟨kept_withReply (hopened.step rfl fun _ _ => id), fun ack hack => ?_⟩
    simp only [acksIn_append, acksIn_opened inv asks, hquiet, List.nil_append] at hack
    cases List.mem_singleton.mp hack
    exact (hopened env.sourceId env.messageId known).imp_left .inl
  | @kept env dedup s res ordering asks data accepted through gate =>
    have hdrops : ¬ r.opened.ordering.DropsRetry r.nowUs :=
      fun hdrop => hno (.inr (.inr ⟨env, data, .inl hdrop⟩))
    have hstays (x : MessageEnvelope) (hx : Held s.buffer x) : Held ordering x := by
      cases gate.ingested with
      | stored seq ahead new room moved held => exact (held x).mpr (.inl hx)
      | refused seq result why moved holds => exact (held_congr holds x).mpr hx
    refine ⟨?_, fun ack hack => ?_⟩
    · refine kept_withReply ((kept_opened inv asks hno h).through through rfl
        (fun src msgId hkeeps => ?_) fun hretry => .inr ?_)
      · exact (Keeps.swept hkeeps gate.sweeping hdrops).imp_left
          fun ⟨x, hx, hretried⟩ => ⟨x, hstays x hx, hretried⟩
      · cases gate.ingested with
        | stored seq ahead new room moved held =>
          exact .inl ⟨env, (held env).mpr (.inr rfl), hretry, rfl, rfl⟩
        | refused seq result why moved holds =>
          rw [← Receiving.gate_eq gate.swept] at why
          exact absurd (.inr (.inr ⟨env, data, .inr ⟨hretry, why⟩⟩)) hno
    · simp only [acksIn_append, acksIn_opened inv asks, hquiet, acksIn_expired, List.append_nil,
        List.not_mem_nil] at hack
  | @passed env dedup s res gateAfter ordering out asks data accepted through gate release =>
    have hdrops : ¬ r.opened.ordering.DropsRetry r.nowUs :=
      fun hdrop => hno (.inr (.inr ⟨env, data, .inl hdrop⟩))
    have hreturned : withReply returned (.ok env) env.sourceId env.messageId :=
      .inr (returns_ok accepted.data)
    refine ⟨?_, fun ack hack => ?_⟩
    · refine (kept_withReply (kept_opened inv asks hno h)).through through rfl
        (fun src msgId hkeeps => ?_) fun _ => .inl hreturned
      have hgate : gateAfter.Keeps r.opened.staged src msgId :=
        (Keeps.swept hkeeps gate.sweeping hdrops).imp_left
          fun ⟨x, hx, hretried⟩ => ⟨x, (gate.ingested.held_passed x).mpr hx, hretried⟩
      refine hgate.release release fun hout x hx hretry => ?_
      -- Something was released over `x`, so the call writes over a staged message.
      obtain ⟨next, rfl⟩ := Option.ne_none_iff_exists'.mp hout
      have hunblocks := gate.ingested.unblocks release
      rw [← Receiving.gate_eq gate.swept] at hunblocks
      refine hno (.inr (.inl ⟨⟨?_, env, data, hunblocks⟩, x, hx, hretry⟩))
      exact Option.isSome_iff_exists.mpr ⟨x, hx⟩
    · simp only [acksIn_append, acksIn_opened inv asks, hquiet, acksIn_expired, acksIn_released,
        List.nil_append] at hack
      rw [acksIn_ackEffects hack]
      exact .inl hreturned

/-- A reset of a source that keeps nothing loses nothing. -/
theorem kept_reset (inv : d.ordering.Inv (Accepted P)) (h : Kept returned d) (reset : IsReset src d d')
    (hnone : ∀ msgId, ¬ d.ordering.Keeps d.staged src msgId) :
    d'.ordering.Inv (Accepted P) ∧ Kept returned d' ∧
      (∀ s msgId, d'.ordering.Keeps d'.staged s msgId → d.ordering.Keeps d.staged s msgId) := by
  obtain ⟨b', hrun, hinv, hheld, -⟩ := resetPeer_spec inv reset.source
  obtain rfl : b' = d'.ordering := by
    rw [reset.ordering] at hrun
    exact (Except.ok.inj hrun).symm
  refine ⟨hinv, h.step reset.dedup fun s msgId hkeeps => ?_, fun s msgId hkeeps => ?_⟩
  · have hne : s ≠ src := by
      rintro rfl
      exact hnone msgId hkeeps
    rcases hkeeps with ⟨x, hx, hretried⟩ | ⟨x, hx, hretried⟩
    · exact .inl ⟨x, (hheld x).mpr ⟨hx, hretried.source ▸ hne⟩, hretried⟩
    · refine .inr ⟨x, ?_, hretried⟩
      rw [reset.staged]
      exact Option.mem_filter_iff.mpr ⟨hx, by simpa [hretried.source] using hne⟩
  · rcases hkeeps with ⟨x, hx, hretried⟩ | ⟨x, hx, hretried⟩
    · exact .inl ⟨x, ((hheld x).mp hx).1, hretried⟩
    · rw [reset.staged] at hx
      exact .inr ⟨x, (Option.mem_filter_iff.mp hx).1, hretried⟩

theorem not_keeps_of_keepsFrom (h : ¬ e.KeepsFrom src) (msgId : UInt64) :
    ¬ e.ordering.Keeps e.staged? src msgId := by
  rintro (⟨x, ⟨i, hi, rfl⟩, hretried⟩ | ⟨x, hx, hretried⟩)
  · exact h (.inl ⟨i, hi, hretried.retry, hretried.source⟩)
  · exact h (.inr ⟨x, hx, hretried.retry, hretried.source⟩)

theorem acksIn_reset (reset : IsReset src d d') : acksIn d'.trace = acksIn d.trace := by
  rw [reset.trace, acksIn_append]
  have hnone : acksIn ((d.staged.filter fun env => env.sourceId == src).toList.map Effect.heldDiscarded ++
      [.reset src]) = [] := by
    cases d.staged.filter fun env => env.sourceId == src with
    | none => rfl
    | some env => rfl
  rw [hnone, List.append_nil]

/-- A drain that resets no source of a kept message loses nothing. -/
theorem kept_drained {srcs : List NodeId} (inv : Inv P e) (h : Kept returned e.delivery)
    (hnone : ∀ src ∈ srcs, ¬ e.KeepsFrom src)
    (resets : Resets srcs { e.delivery with trace := [] } d) :
    Kept returned d ∧ acksIn d.trace = [] := by
  have hdrained := resets.keep (R := fun x => x.ordering.Inv (Accepted P) ∧ Kept returned x ∧
    acksIn x.trace = [] ∧
    ∀ s msgId, x.ordering.Keeps x.staged s msgId → e.ordering.Keeps e.staged? s msgId)
    ⟨inv.ordering, h, rfl, fun _ _ => id⟩ (by
    rintro src hsrc d d' hreset ⟨hinv, hkept, hquiet, hback⟩
    obtain ⟨hinv', hkept', hback'⟩ := kept_reset hinv hkept hreset fun msgId hkeeps =>
      not_keeps_of_keepsFrom (hnone src hsrc) msgId (hback src msgId hkeeps)
    exact ⟨hinv', hkept', (acksIn_reset hreset).trans hquiet,
      fun s msgId hkeeps => hback s msgId (hback' s msgId hkeeps)⟩)
  exact ⟨hdrained.2.1, hdrained.2.2.1⟩

theorem resetting_of_receiving (h : receiving? e i = some r) :
    resetting e i = reconnects orderingPeerCount i.transport := by
  unfold receiving? at h
  unfold resetting
  cases hcall : i.call with
  | receive timeoutMs nowUs =>
    rw [hcall] at h
    dsimp only at h ⊢
    split at h
    case isTrue _ => cases h
    case isFalse hfresh => exact if_neg hfresh
  | send _ _ => rw [hcall] at h; cases h
  | pumpRetries _ => rw [hcall] at h; cases h
  | sweepAckTimeouts _ => rw [hcall] at h; cases h
  | resetPeerOrdering _ => rw [hcall] at h; cases h
  | pollEvent => rw [hcall] at h; cases h
  | drainEvents _ => rw [hcall] at h; cases h

theorem kept_delivered {answer : Answer} (inv : Inv P e) (h : Kept returned e.delivery)
    (hkeeps : KeepsRetries e i) (delivered : Delivered P e i answer d') :
    Kept (fun src msgId => returned src msgId ∨ answer.Returns src msgId) d' ∧
      (i.call.isReceive = true → ∀ ack ∈ acksIn d'.trace,
        (returned ack.1 ack.2 ∨ answer.Returns ack.1 ack.2) ∨
          d'.ordering.Keeps d'.staged ack.1 ack.2) := by
  obtain ⟨hresets, hsweeps, hreceives⟩ := hkeeps
  cases delivered with
  | outbound notReceive notReceived outward =>
    refine ⟨(h.step rfl fun _ _ => id).mono fun _ _ => .inl, fun hreceive => ?_⟩
    cases hcall : i.call with
    | receive timeoutMs nowUs => exact absurd hcall (notReceive timeoutMs nowUs)
    | send _ _ => rw [hcall] at hreceive; cases hreceive
    | pumpRetries _ => rw [hcall] at hreceive; cases hreceive
    | sweepAckTimeouts _ => rw [hcall] at hreceive; cases hreceive
    | resetPeerOrdering _ => rw [hcall] at hreceive; cases hreceive
    | pollEvent => rw [hcall] at hreceive; cases hreceive
    | drainEvents _ => rw [hcall] at hreceive; cases hreceive
  | rejected => exact ⟨(h.step rfl fun _ _ => id).mono fun _ _ => .inl, fun _ _ hack => nomatch hack⟩
  | @swept nowUs n s call fresh swept sweeping =>
    have htime : sweepTime? e i = some nowUs := by
      rw [sweepTime?, call]
      exact if_neg fresh
    refine ⟨fun src msgId hknows => ?_, fun hreceive => ?_⟩
    · rcases h src msgId hknows with hbefore | hk
      · exact .inl (.inl hbefore)
      · exact .inr (Keeps.swept hk sweeping (hsweeps nowUs htime))
    · rw [call] at hreceive
      cases hreceive
  | @reset src _ call reset =>
    have hsrc : src ∈ resetting e i := by
      rw [resetting, call]
      exact List.mem_singleton.mpr rfl
    have hreset := kept_reset (d := { e.delivery with trace := [] }) inv.ordering h reset
      fun msgId => not_keeps_of_keepsFrom (hresets src hsrc) msgId
    refine ⟨hreset.2.1.mono fun _ _ => .inl, fun hreceive => ?_⟩
    rw [call] at hreceive
    cases hreceive
  | @received r reply _ receiving hinv resets answered =>
    rw [resetting_of_receiving receiving] at hresets
    obtain ⟨hkept, hquiet⟩ := kept_drained inv h hresets resets
    have hhonours := honours_answered hinv (hreceives r receiving) hkept hquiet answered
    exact ⟨hhonours.kept, fun _ => hhonours.acks⟩

/-! ## The law -/

/-- The message was returned by an earlier call. -/
def ReturnedIn (past : List Observation) (src : NodeId) (msgId : UInt64) : Prop :=
  ∃ o ∈ past, o.answer.Returns src msgId

theorem returnedIn_append {past : List Observation} {o : Observation} {msgId : UInt64}
    (h : ReturnedIn past src msgId ∨ o.answer.Returns src msgId) :
    ReturnedIn (past ++ [o]) src msgId := by
  rcases h with ⟨x, hx, hreturns⟩ | hreturns
  · exact ⟨x, List.mem_append_left _ hx, hreturns⟩
  · exact ⟨o, List.mem_append_right _ (List.mem_singleton.mpr rfl), hreturns⟩

theorem inCustody_of_keeps {past : List Observation} {msgId : UInt64} (inv : Inv P e)
    (h : e.ordering.Keeps e.staged? src msgId) : InCustody past e src msgId := by
  rcases h with ⟨x, ⟨i, hi, rfl⟩, hretried⟩ | ⟨x, hx, hretried⟩
  · exact .inr (.inl ⟨i, hi, hretried.source, hretried.id⟩)
  · obtain ⟨hvalid, rfl, -, -⟩ := inv.accepted_staged hx
    exact .inr (.inr ⟨hvalid, hretried.source, hretried.id⟩)

/-- In a run in which no `RELIABLE_RETRY` message is lost, every message that is acknowledged has
been returned or is kept. -/
theorem ack_means_custody (cfg : ChannelConfig) (localId : NodeId) (entropy : UInt64)
    (inputs : List Input) (hlocal : localId ≠ nodeIdInvalid)
    (hkeeps : Run.Along exec KeepsRetries inputs (init cfg localId entropy)) :
    Run.EachStep exec CustodyLaw [] inputs (init cfg localId entropy) := by
  refine Run.eachStep_of_inv (fun past e => Inv (fun _ => True) e ∧ Kept (ReturnedIn past) e.delivery)
    ?_ inputs [] _ ?_ hkeeps
  · rintro past e i o e' ⟨inv, h⟩ hstep hexec
    obtain ⟨hinv, hdelivered, heffects⟩ :=
      exec_delivered headerProperty_true inv (fun _ _ _ => trivial) hexec
    obtain ⟨hkept, hacks⟩ := kept_delivered inv h hstep hdelivered
    refine ⟨fun hreceive ack hack => ?_, hinv, hkept.mono fun _ _ => returnedIn_append⟩
    rw [heffects] at hack
    rcases hacks hreceive ack hack with hreturned | hheld
    · exact .inl (returnedIn_append hreturned)
    · exact inCustody_of_keeps hinv hheld
  · exact ⟨inv_init cfg entropy hlocal, fun _ _ hknows => absurd hknows DuplicateFilter.not_knows_init⟩

/-! ## A run that acknowledges a lost message -/

/-- A `RELIABLE_RETRY` message to node 1. -/
def retryData (source : NodeId) (seq : UInt32) (expiryTimeUs : UInt64) : MessageEnvelope :=
  { plainData source seq expiryTimeUs with reliabilityClass := .reliableRetry }

/-- Four messages of node 2 fill its holds; the fifth is refused, and acknowledged when it is
retransmitted. -/
def forgetfulRun : List Input :=
  [receiveOf 1 (retryData 2 2 0), receiveOf 2 (retryData 2 3 0), receiveOf 3 (retryData 2 4 0),
   receiveOf 4 (retryData 2 5 0), receiveOf 5 (retryData 2 6 0), receiveOf 6 (retryData 2 6 0)]

theorem lost_message_acknowledged :
    ¬ Run.EachStep exec CustodyLaw [] forgetfulRun (init orderedConfig 1 7) := by
  decide +kernel

/-- The same message, with the gap filled in time, and a retransmission of both. -/
def faithfulRun : List Input :=
  [receiveOf 1 (retryData 2 2 10), receiveOf 2 (retryData 2 2 10), receiveOf 3 (retryData 2 1 0),
   receiveNothing 4, receiveOf 5 (retryData 2 2 10)]

theorem ack_means_custody_filled :
    Run.Along exec KeepsRetries faithfulRun (init orderedConfig 1 7) ∧
      Run.EachStep exec CustodyLaw [] faithfulRun (init orderedConfig 1 7) := by
  have hkeeps : Run.Along exec KeepsRetries faithfulRun (init orderedConfig 1 7) := by decide +kernel
  exact ⟨hkeeps, ack_means_custody orderedConfig 1 7 faithfulRun (by decide) hkeeps⟩

end DeliveryEngine

end MessageEngine
