import MessageEngine.Laws.Runs.Order
import MessageEngine.Laws.EndToEnd.Numbering
import MessageEngine.Laws.EndToEnd.Network
import Mathlib.Data.List.Sort

/-!
# Streams between two nodes

The numbered messages that one node is given for another make a stream. The sender numbers them in the order
in which they are given, the network does with their frames what it likes, and the receiver's gate puts them
back in order. What the receiver returns, from one reset of the sender to the next, is a part of the stream,
in its order, each message once and as it was given: some may be missing, none is out of place.

The sender must not start its numbers over once it drew some, and the receiver must not return a message past
an earlier one that is staged; both do go wrong otherwise.

## What is proved

- `Streaming.step`: one call on one engine;
- `in_step`: the property of whole runs.
-/

namespace MessageEngine

open Outcome Table OrderingBuffer

namespace DeliveryEngine

variable {e e' : DeliveryEngine} {i : Input} {o : Observation} {S : Finset NodeId}

/-- What waits for delivery is for this node or for all, and so is what data it returns. -/
theorem Throughout.addressed (inv : Inv (fun _ => True) e)
    (h : Throughout (fun env => envelopeAddressedTo env e.localId) e.delivery) (hexec : exec i e = .ok (o, e')) :
    Throughout (fun env => envelopeAddressedTo env e.localId) e'.delivery ∧
      ∀ env ∈ o.answer.returned?, envelopeIsData env → envelopeAddressedTo env e.localId := by
  obtain ⟨-, hdelivered, -⟩ := exec_delivered headerProperty_true inv (fun _ _ _ => trivial) hexec
  refine h.delivered inv (fun r hr env hdata => ?_) hdelivered
  obtain ⟨-, hreaches⟩ := Option.mem_filter_iff.mp hdata
  obtain ⟨-, -, hdrained⟩ := receiving?_eq_some hr
  have hlocal : r.engine.localId = e.localId := (settled_drainHelloReconnects _ hdrained).localId
  rw [← hlocal]
  have hrouted : Routed r.engine.localId env r.nowUs := (of_decide_eq_true hreaches).1
  exact hrouted.2

/-- The gate and what is staged stay in order. -/
theorem RunInOrder.step {past : List Observation} (h : RunInOrder S past e) (hcard : S.card ≤ orderingPeerCount)
    (hframes : Delivers (OrderedFrom S) i.transport) (hwaits : WaitsForStaged e i)
    (hexec : exec i e = .ok (o, e')) : RunInOrder S (past ++ [o]) e' := by
  obtain ⟨hinv, hdelivered, heffects⟩ := exec_delivered (headerProperty_orderedFrom S) h.1 hframes hexec
  have hin := inOrder_delivered hcard h hwaits hdelivered
  have hseqs : (fun s => pushSeq s (since past e'.delivery.trace s) o.answer.ordered?) =
      deliveredSince (past ++ [o]) := by
    funext s
    rw [deliveredSince_append, heffects]
    rfl
  rw [hseqs] at hin
  exact ⟨hinv, hin⟩

/-- The numbered messages of `src` that were returned since its last reset, in order. -/
def returnedSince (src : NodeId) (past : List Step) : List MessageEnvelope :=
  past.foldl (fun got t => (if t.output.effects.any (Effect.resets src) then [] else got) ++
    (t.output.answer.ordered?.filter fun env => env.sourceId == src).toList) []

theorem returnedSince_append (src : NodeId) (past : List Step) (t : Step) :
    returnedSince src (past ++ [t]) =
      (if t.output.effects.any (Effect.resets src) then [] else returnedSince src past) ++
        (t.output.answer.ordered?.filter fun env => env.sourceId == src).toList := by
  simp [returnedSince]

/-- Their numbers. -/
theorem returnedSince_seqs (src : NodeId) (past : List Step) :
    (returnedSince src past).map MessageEnvelope.sequenceNum = deliveredSince (past.map Run.Taken.output) src := by
  induction past using List.reverseRecOn with
  | nil => rfl
  | append_singleton past t ih =>
    rw [returnedSince_append, List.map_append, List.map_append, List.map_singleton, deliveredSince_append, pushSeq,
      since]
    congr 1
    split
    · rfl
    · exact ih

/-- A numbered message that is returned is a data message that is returned. -/
theorem returned_of_ordered {answer : Answer} {env : MessageEnvelope} (h : env ∈ answer.ordered?) :
    env ∈ answer.returned? ∧ envelopeIsData env ∧ env.sequenceNum ≠ 0 := by
  unfold Answer.ordered? at h
  split at h
  case h_1 x =>
    split at h
    case isTrue hnumbered =>
      cases h
      exact ⟨rfl, hnumbered⟩
    case isFalse _ => cases h
  case h_2 _ => cases h

end DeliveryEngine

namespace Network

open DeliveryEngine

variable {ι : Type} [DecidableEq ι] {localId : ι → NodeId} {entropy : ι → UInt64} {S : Finset NodeId} {a b : ι}
  {past : List (Made ι)} {s s' : ι → DeliveryEngine} {t : Made ι}

/-- The sender leaves the numbers to its engine, which does not start them over once it drew some; numbered
messages reach the receiver from few sources, and it returns none past one that is staged. -/
structure Orderly (localId : ι → NodeId) (S : Finset NodeId) (a b : ι) (past : List (Made ι)) (t : Made ι) :
    Prop where
  leaves : t.input.node = a → LeavesNumbers t.input.input
  keeps : t.input.node = a → localId b ∈ restarted (t.before a) t.input.input →
    numbered (localId b) (stepsOf a past) = []
  frames : t.input.node = b → Delivers (OrderedFrom S) t.input.input.transport
  waits : t.input.node = b → WaitsForStaged (t.before b) t.input.input

/-- What `b` returned of the stream from `a` to it is a part of the stream, in its order. -/
def InStep (localId : ι → NodeId) (a b : ι) (past : List (Made ι)) (t : Made ι) : Prop :=
  ∃ ms, ms.Sublist (numbered (localId b) (stepsOf a (past ++ [t]))) ∧
    List.Forall₂ Restored ms (returnedSince (localId a) (stepsOf b (past ++ [t])))

/-- Both ends of the stream, and what the receiver made of it so far. -/
structure Streaming (localId : ι → NodeId) (entropy : ι → UInt64) (S : Finset NodeId) (a b : ι)
    (past : List (Made ι)) (s : ι → DeliveryEngine) : Prop where
  sound : Sound localId entropy past s
  counts : Counts (localId b) (stepsOf a past) (s a)
  ordered : RunInOrder S ((stepsOf b past).map Run.Taken.output) (s b)
  addressed : Throughout (fun env => envelopeAddressedTo env (localId b)) (s b).delivery
  named : ∀ m ∈ given a past, envelopeIsData m → m.sequenceNum ≠ 0 → m.destinationId ≠ nodeIdInvalid
  matched : ∀ env ∈ returnedSince (localId a) (stepsOf b past),
    ∃ m ∈ numbered (localId b) (stepsOf a past), Restored m env

theorem streaming_init (cfg : ι → ChannelConfig) (localId : ι → NodeId) (entropy : ι → UInt64) (S : Finset NodeId)
    (a b : ι) (hlocal : ∀ a, localId a ≠ nodeIdInvalid) :
    Streaming localId entropy S a b [] (init cfg localId entropy) := by
  refine ⟨sound_init cfg localId entropy hlocal, counts_init _ _ _ _, ?_, ?_, fun m hm => ?_, fun env henv => ?_⟩
  · refine ⟨inv_init (cfg b) (entropy b) (hlocal b), ?_, fun _ => List.Pairwise.nil, ?_, ?_⟩
    · intro s c hc
      exact absurd (cursor?_init.symm.trans hc) (Option.some_ne_none c).symm
    · intro s q hq
      cases hq
    · intro env henv
      cases henv
  · exact throughout_init (cfg b) (localId b) (entropy b)
  · cases hm
  · cases henv

/-- The numbered messages that a node was given stay what they were. -/
theorem numbered_mono (dst : NodeId) (past : List (Made ι)) (t : Made ι) (a : ι) :
    ∀ m ∈ numbered dst (stepsOf a past), m ∈ numbered dst (stepsOf a (past ++ [t])) := by
  intro m hm
  obtain ⟨hgiven, hnumbered⟩ := List.mem_filter.mp hm
  exact List.mem_filter.mpr ⟨given_append a past t m hgiven, hnumbered⟩

/-- A numbered message that the receiver returns in the name of the sender is one of the stream. -/
theorem Streaming.genuine {ev : Event ι} {o : Observation} (h : Streaming localId entropy S a b past s)
    (faithful : Faithful localId past ⟨s, ev, o, s'⟩)
    (hexec : DeliveryEngine.exec ev.input (s b) = .ok (o, s' b)) {env : MessageEnvelope}
    (henv : env ∈ o.answer.ordered?) (hsource : env.sourceId = localId a) :
    ∃ m ∈ numbered (localId b) (stepsOf a past), Restored m env := by
  obtain ⟨hreturned, hdata, hseq⟩ := returned_of_ordered henv
  obtain ⟨m, hm, hrestored⟩ := faithful env hreturned hdata a hsource
  refine ⟨m, List.mem_filter.mpr ⟨hm, decide_eq_true ?_⟩, hrestored⟩
  have hmdata : envelopeIsData m := by
    rw [hrestored.1] at hdata
    exact hdata
  have hmseq : m.sequenceNum ≠ 0 := by
    rw [hrestored.1] at hseq
    exact hseq
  have hname : (s b).localId = localId b := (h.sound.remembers b).name
  have haddressed := (Throughout.addressed (h.sound.inv b) (hname ▸ h.addressed) hexec).2 env hreturned hdata
  rw [hname, hrestored.1] at haddressed
  refine ⟨hmdata, hmseq, haddressed.resolve_right ?_⟩
  exact h.named m hm hmdata hmseq

/-- One call on one engine. -/
theorem Streaming.step {ev : Event ι} {o : Observation} (h : Streaming localId entropy S a b past s)
    (hcard : S.card ≤ orderingPeerCount) (hfew : past.length + 1 < 2 ^ 32 - 1)
    (authentic : Authentic localId past ⟨s, ev, o, s'⟩) (orderly : Orderly localId S a b past ⟨s, ev, o, s'⟩)
    (hexec : exec ev s = .ok (o, s')) : Streaming localId entropy S a b (past ++ [⟨s, ev, o, s'⟩]) s' := by
  have hperiod : past.length ≤ Counter.period := by
    unfold Counter.period
    omega
  obtain ⟨hfaithful, hsound⟩ := h.sound.step hperiod authentic hexec
  obtain ⟨e, hcall, rfl⟩ := exec_eq_ok.mp hexec
  refine ⟨hsound, ?_, ?_, ?_, ?_, ?_⟩
  · rw [stepsOf_append]
    by_cases hnode : ev.node = a
    · subst hnode
      dsimp only
      rw [if_pos rfl, Function.update_self]
      have hshort := stepsOf_length_le ev.node past
      exact h.counts.step (h.sound.inv ev.node) (by omega) (orderly.leaves rfl) (orderly.keeps rfl) hcall
    · rw [if_neg hnode, List.append_nil, Function.update_of_ne (Ne.symm hnode)]
      exact h.counts
  · rw [stepsOf_append]
    by_cases hnode : ev.node = b
    · subst hnode
      dsimp only
      rw [if_pos rfl, Function.update_self, List.map_append, List.map_singleton]
      exact h.ordered.step hcard (orderly.frames rfl) (orderly.waits rfl) hcall
    · rw [if_neg hnode, List.append_nil, Function.update_of_ne (Ne.symm hnode)]
      exact h.ordered
  · by_cases hnode : ev.node = b
    · subst hnode
      rw [Function.update_self]
      have hname : (s ev.node).localId = localId ev.node := (h.sound.remembers ev.node).name
      have hwaits := (Throughout.addressed (h.sound.inv ev.node) (hname ▸ h.addressed) hcall).1
      rwa [hname] at hwaits
    · rw [Function.update_of_ne (Ne.symm hnode)]
      exact h.addressed
  · intro m hm
    unfold given at hm
    rw [stepsOf_append] at hm
    by_cases hnode : ev.node = a
    · subst hnode
      dsimp only at hm
      rw [if_pos rfl, offered_append] at hm
      rcases List.mem_append.mp hm with hbefore | hnow
      · exact h.named m hbefore
      · exact offer_named (orderly.leaves rfl) hcall (Option.mem_toList.mp hnow)
    · dsimp only at hm
      rw [if_neg hnode, List.append_nil] at hm
      exact h.named m hm
  · intro env henv
    have hkept := numbered_mono (localId b) past ⟨s, ev, o, Function.update s ev.node e⟩ a
    have hold : env ∈ returnedSince (localId a) (stepsOf b past) →
        ∃ m ∈ numbered (localId b) (stepsOf a (past ++ [⟨s, ev, o, Function.update s ev.node e⟩])),
          Restored m env := by
      intro hbefore
      obtain ⟨m, hm, hrestored⟩ := h.matched env hbefore
      exact ⟨m, hkept m hm, hrestored⟩
    rw [stepsOf_append] at henv
    by_cases hnode : ev.node = b
    · dsimp only at henv
      rw [if_pos hnode, returnedSince_append] at henv
      rcases List.mem_append.mp henv with hbefore | hnow
      · split at hbefore
        case isTrue _ => cases hbefore
        case isFalse _ => exact hold hbefore
      · obtain ⟨hordered, hsource⟩ := Option.mem_filter_iff.mp (Option.mem_toList.mp hnow)
        have hrun : DeliveryEngine.exec ev.input (s b) = .ok (o, Function.update s ev.node e b) := by
          rw [← hnode, Function.update_self]
          exact hcall
        obtain ⟨m, hm, hrestored⟩ := h.genuine hfaithful hrun hordered (by simpa using hsource)
        exact ⟨m, hkept m hm, hrestored⟩
    · dsimp only at henv
      rw [if_neg hnode, List.append_nil] at henv
      exact hold henv

/-- Of two lists in rising order, one that is part of the other is so in the same order. -/
theorem sublist_of_rising {xs ys : List MessageEnvelope}
    (hxs : xs.Pairwise fun m m' => m.sequenceNum < m'.sequenceNum)
    (hys : ys.Pairwise fun m m' => m.sequenceNum < m'.sequenceNum) (hsub : xs ⊆ ys) : xs.Sublist ys := by
  have : Std.Antisymm fun m m' : MessageEnvelope => m.sequenceNum < m'.sequenceNum :=
    ⟨fun m m' h h' => absurd (UInt32.lt_trans h h') (UInt32.lt_irrefl _)⟩
  have hnodup : xs.Nodup := hxs.imp fun {m m'} hlt heq => by
    rw [heq] at hlt
    exact UInt32.lt_irrefl _ hlt
  exact List.sublist_of_subperm_of_pairwise (List.subperm_of_subset hnodup hsub) hxs hys

/-- The law of the last call. -/
theorem Streaming.law (h : Streaming localId entropy S a b (past ++ [t]) s)
    (hfew : (past ++ [t]).length < 2 ^ 32) : InStep localId a b past t := by
  choose! original horiginal using h.matched
  have hsame : List.Forall₂ Restored ((returnedSince (localId a) (stepsOf b (past ++ [t]))).map original)
      (returnedSince (localId a) (stepsOf b (past ++ [t]))) := by
    rw [List.forall₂_map_left_iff, List.forall₂_same]
    intro env henv
    exact (horiginal env henv).2
  refine ⟨_, sublist_of_rising ?_ ?_ ?_, hsame⟩
  · rw [List.pairwise_map]
    have hrising := h.ordered.2.increasing (localId a)
    rw [← returnedSince_seqs, List.pairwise_map] at hrising
    refine hrising.imp_of_mem ?_
    intro env env' henv henv' hlt
    have hseq {x : MessageEnvelope} (hx : x ∈ returnedSince (localId a) (stepsOf b (past ++ [t]))) :
        (original x).sequenceNum = x.sequenceNum :=
      (congrArg MessageEnvelope.sequenceNum (horiginal x hx).2.1).symm
    rwa [hseq henv, hseq henv']
  · apply h.counts.rising
    exact Nat.lt_of_le_of_lt (numbered_length_le.trans (stepsOf_length_le a _)) hfew
  · intro m hm
    obtain ⟨env, henv, rfl⟩ := List.mem_map.mp hm
    exact (horiginal env henv).1

/-! ## Every run -/

/-- In every run in which the two ends behave, whatever the network does to the frames, what a node returns of
the numbered messages of another is a part of what that one was given for it, in the same order. -/
theorem in_step (cfg : ι → ChannelConfig) (localId : ι → NodeId) (entropy : ι → UInt64) (events : List (Event ι))
    (S : Finset NodeId) (a b : ι) (hlocal : ∀ a, localId a ≠ nodeIdInvalid) (hcard : S.card ≤ orderingPeerCount)
    (hfew : events.length < 2 ^ 32 - 1)
    (authentic : Run.Lawful (Authentic localId) (Run.history exec events (init cfg localId entropy)))
    (orderly : Run.Lawful (Orderly localId S a b) (Run.history exec events (init cfg localId entropy))) :
    Run.Lawful (InStep localId a b) (Run.history exec events (init cfg localId entropy)) := by
  have hsteps : (Run.history exec events (init cfg localId entropy)).length ≤ events.length :=
    Run.history_length_le events _
  obtain ⟨last, hlast⟩ := Run.history_inv
    (I := fun past s => past.length < 2 ^ 32 - 1 → Run.Lawful (Authentic localId) past →
      Run.Lawful (Orderly localId S a b) past →
      Streaming localId entropy S a b past s ∧ Run.Lawful (InStep localId a b) past) (by
      intro past s ev o s' h hexec hfew hauthentic horderly
      rw [List.length_append, List.length_singleton] at hfew
      obtain ⟨hstreaming, hlaw⟩ := h (by omega) hauthentic.init horderly.init
      have hnext := hstreaming.step hcard hfew hauthentic.last horderly.last hexec
      refine ⟨hnext, hlaw.snoc (hnext.law ?_)⟩
      rw [List.length_append, List.length_singleton]
      omega)
    events [] (init cfg localId entropy)
    fun _ _ _ => ⟨streaming_init cfg localId entropy S a b hlocal, .nil⟩
  rw [List.nil_append] at hlast
  exact (hlast (Nat.lt_of_le_of_lt hsteps hfew) authentic orderly).2

theorem orderly_exchange : Run.Lawful (Orderly twoNodes {2} false true)
    (Run.history exec exchange (init (fun _ => orderedConfig) twoNodes fun _ => 7)) := by
  have hfrom : ∀ ev ∈ exchange, LeavesNumbers ev.input ∧ Delivers (OrderedFrom {2}) ev.input.transport := by
    intro ev hev
    simp only [exchange, List.mem_cons, List.not_mem_nil, or_false] at hev
    rcases hev with rfl | rfl
    · refine ⟨fun env nowUs hcall _ => ?_, delivers_silent⟩
      cases hcall
      rfl
    · refine ⟨fun env nowUs hcall => ?_, ?_⟩
      · cases hcall
      · rw [delivers_receiveOf]
        exact fun _ _ => by decide +kernel
  have hruns : Run.Along exec (fun s ev => WaitsForStaged (s true) ev.input ∧ restarted (s false) ev.input = [])
      exchange (init (fun _ => orderedConfig) twoNodes fun _ => 7) := by decide +kernel
  intro past t rest hsplit
  obtain ⟨⟨hwaits, hkeeps⟩, hleaves, hframes⟩ := (hruns.and_inputs hfrom).lawful past t rest hsplit
  refine ⟨fun _ => hleaves, fun _ hmem => ?_, fun _ => hframes, fun _ => hwaits⟩
  rw [hkeeps] at hmem
  cases hmem

theorem in_step_exchange :
    exchange.length < 2 ^ 32 - 1 ∧
    Run.Lawful (Authentic twoNodes) (Run.history exec exchange (init (fun _ => orderedConfig) twoNodes fun _ => 7)) ∧
    Run.Lawful (Orderly twoNodes {2} false true)
      (Run.history exec exchange (init (fun _ => orderedConfig) twoNodes fun _ => 7)) ∧
    Run.Lawful (InStep twoNodes false true)
      (Run.history exec exchange (init (fun _ => orderedConfig) twoNodes fun _ => 7)) := by
  have hfew : exchange.length < 2 ^ 32 - 1 := by
    show 2 < 2 ^ 32 - 1
    omega
  exact ⟨hfew, authentic_exchange, orderly_exchange,
    in_step (fun _ => orderedConfig) twoNodes (fun _ => 7) exchange {2} false true (by decide) (by decide) hfew
      authentic_exchange orderly_exchange⟩

end Network

end MessageEngine
