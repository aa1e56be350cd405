import MessageEngine.Laws.Runs.Passing
import MessageEngine.Laws.EndToEnd.Outgoing

/-!
# What an engine makes of the frames of one node

A receiver knows the messages of another node only by their frames, which come in any order, twice or never,
mixed with those of other nodes. If no frame bears that node's name but those of messages it gave out, each
with an identifier of its own, then a reassembly slot in its name holds pieces of one of these messages, and
whatever waits or is returned in its name is one of them, with every byte as it was.

## What is proved

- `Trusts.ingest`: one frame keeps the slots genuine, and completes a genuine message;
- `genuine_answered`, `Incoming.exec`: a call keeps what waits genuine, and returns genuine messages.
-/

namespace MessageEngine

open Outcome Table ReassemblyBuffer OrderingBuffer

variable {a : NodeId} {S : MessageEnvelope → Prop}

/-- The messages of the node `a`: valid, and no two with the same identifier. -/
structure Messages (a : NodeId) (S : MessageEnvelope → Prop) : Prop where
  source : ∀ m, S m → m.sourceId = a
  small : ∀ m, S m → m.payloadLength.toNat ≤ msgMaxPayloadBytes
  distinct : ∀ m m', S m → S m' → m.messageId = m'.messageId → m = m'

/-- A data message in the name of `a` is one of them, as it was given out. -/
def Genuine (a : NodeId) (S : MessageEnvelope → Prop) (env : MessageEnvelope) : Prop :=
  env.sourceId = a → envelopeIsData env → ∃ m, S m ∧ Restored m env

/-- A frame in the name of `a` is one of theirs, or is no data and no fragment. -/
def Honest (a : NodeId) (S : MessageEnvelope → Prop) (frame : MessageEnvelope) : Prop :=
  frame.sourceId = a →
    (∃ m, S m ∧ FrameOf m frame) ∨ (frame.fragmentCount.toNat ≤ 1 ∧ ¬ envelopeIsData frame)

theorem Genuine.mono {T : MessageEnvelope → Prop} {env : MessageEnvelope} (h : Genuine a S env)
    (hmono : ∀ m, S m → T m) : Genuine a T env := by
  intro hsource hdata
  obtain ⟨m, hm, hsame⟩ := h hsource hdata
  exact ⟨m, hmono m hm, hsame⟩

namespace ReassemblyBuffer

variable {b b' : ReassemblyBuffer} {frame : MessageEnvelope} {nowUs : UInt64} {reply : Reply}

/-- The slot holds some but not all pieces of one of the messages. -/
def Collecting (S : MessageEnvelope → Prop) (s : ReassemblySlot) : Prop :=
  ∃ m seen, S m ∧ ¬ FitsFrame m ∧ seen ≠ allPieces (pieceCount m.payloadLength.toNat) ∧ Progress m seen s

/-- The open slots in the name of `a` collect messages of `a`. -/
def Trusts (a : NodeId) (S : MessageEnvelope → Prop) (b : ReassemblyBuffer) : Prop :=
  ∀ i : Fin reassemblySlotCount, b.slots[i].active = true → b.slots[i].sourceId = a → Collecting S b.slots[i]

theorem trusts_init : Trusts a S init := by
  intro i hi
  have hinactive : init.slots[i].active = false := by simp [init]
  rw [hinactive] at hi
  cases hi

theorem Trusts.mono {T : MessageEnvelope → Prop} (h : Trusts a S b) (hmono : ∀ m, S m → T m) : Trusts a T b := by
  intro i hi hsource
  obtain ⟨m, seen, hm, rest⟩ := h i hi hsource
  exact ⟨m, seen, hmono m hm, rest⟩

/-- Slots that are the same, or closed. -/
theorem Trusts.of_slots (h : Trusts a S b)
    (kept : ∀ i : Fin reassemblySlotCount, b'.slots[i] = b.slots[i] ∨ b'.slots[i].active = false) :
    Trusts a S b' := by
  intro i hi hsource
  rcases kept i with hsame | hclosed
  · rw [hsame] at hi hsource ⊢
    exact h i hi hsource
  · rw [hclosed] at hi
    cases hi

/-- A slot that gave out its message is closed. -/
theorem Step.closed {s s' : ReassemblySlot} {env : MessageEnvelope} (step : Step s frame (.ok env) s') :
    s'.active = false := by
  cases step with
  | done _ _ _ _ _ _ freed => exact freed

/-- A piece of a message that goes out in pieces is one of several. -/
theorem several_of_piece {m : MessageEnvelope} {k : Fin fragMaxCount} (messages : Messages a S) (hm : S m)
    (large : ¬ FitsFrame m) (below : (k : Nat) < pieceCount m.payloadLength.toNat) (piece : IsPiece m k frame) :
    1 < frame.fragmentCount.toNat :=
  (piece.wellFormed (messages.small m hm) (Nat.lt_of_not_le large) below).2

/-- What the slot that a piece goes to held before it. -/
theorem Trusts.slotFor {m : MessageEnvelope} {k : Fin fragMaxCount} {i : Fin reassemblySlotCount}
    {s₀ : ReassemblySlot} (h : Trusts a S b) (messages : Messages a S) (hm : S m) (large : ¬ FitsFrame m)
    (below : (k : Nat) < pieceCount m.payloadLength.toNat) (piece : IsPiece m k frame)
    (mine : SlotFor b frame nowUs i s₀) :
    ∃ seen, seen ≠ allPieces (pieceCount m.payloadLength.toNat) ∧ Progress m seen s₀ := by
  have hkey : frame.sourceId = m.sourceId ∧ frame.messageId = m.messageId := by
    rw [piece.fields]
    exact ⟨rfl, rfl⟩
  cases mine with
  | found hfor _ =>
    have hsource : b.slots[i].sourceId = a := hfor.2.1.trans (hkey.1.trans (messages.source m hm))
    obtain ⟨m', seen, hm', -, hmissing, hprogress⟩ := h i hfor.1 hsource
    have hsame : m' = m := by
      apply messages.distinct m' m hm' hm
      exact hprogress.mine.2.2.symm.trans (hfor.2.2.trans hkey.2)
    subst hsame
    exact ⟨seen, hmissing, hprogress⟩
  | opened _ _ _ =>
    refine ⟨∅, fun hall => ?_, progress_freshSlot piece nowUs⟩
    have hmem := (mem_allPieces (k := k)).mpr below
    rw [← hall] at hmem
    cases hmem

/-- A piece of one of the messages. -/
theorem Trusts.piece {m : MessageEnvelope} {k : Fin fragMaxCount} (h : Trusts a S b) (messages : Messages a S)
    (hm : S m) (large : ¬ FitsFrame m) (below : (k : Nat) < pieceCount m.payloadLength.toNat)
    (piece : IsPiece m k frame) (hdone : Ingested b frame nowUs reply b') :
    Trusts a S b' ∧ ∀ env, reply = .ok env → Restored m env := by
  have hseveral := several_of_piece messages hm large below piece
  cases hdone with
  | invalid => exact ⟨h, fun env henv => by cases henv⟩
  | full => exact ⟨h, fun env henv => by cases henv⟩
  | whole single => exact absurd hseveral (Nat.not_lt.mpr single)
  | @slot i s₀ s _ _ _ mine step =>
    obtain ⟨seen, hmissing, hprogress⟩ := h.slotFor messages hm large below piece mine
    obtain ⟨hmore, hlast⟩ := hprogress.step piece (messages.small m hm) below step
    by_cases hall : insert k seen = allPieces (pieceCount m.payloadLength.toNat)
    · have hnew : k ∉ seen := by
        intro hmem
        rw [Finset.insert_eq_of_mem hmem] at hall
        exact hmissing hall
      obtain ⟨env, rfl, hrestored⟩ := hlast hnew hall
      refine ⟨h.of_slots fun j => ?_, fun x hx => ?_⟩
      · rw [getElem_set_fin]
        split
        case isTrue _ => exact .inr step.closed
        case isFalse _ => exact .inl rfl
      · cases hx
        exact hrestored
    · obtain ⟨rfl, hnext⟩ := hmore hall
      refine ⟨fun j hj hsource => ?_, fun env henv => by cases henv⟩
      rw [getElem_set_fin] at hj hsource ⊢
      split
      case isTrue _ => exact ⟨m, insert k seen, hm, large, hall, hnext⟩
      case isFalse hne =>
        rw [if_neg hne] at hj hsource
        exact h j hj hsource

/-- A frame that is not a fragment passes through. -/
theorem Ingested.of_single (single : frame.fragmentCount.toNat ≤ 1) (hdone : Ingested b frame nowUs reply b') :
    b' = b ∧ ∀ env, reply = .ok env → env = frame := by
  cases hdone with
  | invalid => exact ⟨rfl, fun env henv => by cases henv⟩
  | full => exact ⟨rfl, fun env henv => by cases henv⟩
  | whole _ =>
    refine ⟨rfl, fun env henv => ?_⟩
    cases henv
    rfl
  | slot _ several _ _ => exact absurd several (Nat.not_lt.mpr single)

/-- One frame. -/
theorem Trusts.ingest {P : MessageEnvelope → Prop} (h : Trusts a S b) (messages : Messages a S) (inv : b.Inv P)
    (hp : HeaderProperty P) (hP : P frame) (honest : Honest a S frame) (hlen : frame.payloadLength.toNat ≤ msgMaxPayloadBytes)
    (hdone : Ingested b frame nowUs reply b') :
    Trusts a S b' ∧ ∀ env, reply = .ok env → Genuine a S env := by
  by_cases hsource : frame.sourceId = a
  · rcases honest hsource with ⟨m, hm, hframe⟩ | ⟨hsingle, hnodata⟩
    · cases hframe with
      | whole fits same =>
        have hsingle : frame.fragmentCount.toNat ≤ 1 := by
          rw [same.1]
          exact Nat.le_refl 1
        obtain ⟨rfl, hpassed⟩ := Ingested.of_single hsingle hdone
        refine ⟨h, fun env henv _ _ => ⟨m, hm, ?_⟩⟩
        rw [hpassed env henv]
        exact same
      | piece large below piece =>
        obtain ⟨hnext, hrestored⟩ := h.piece messages hm large below piece hdone
        exact ⟨hnext, fun env henv _ _ => ⟨m, hm, hrestored env henv⟩⟩
    · obtain ⟨rfl, hpassed⟩ := Ingested.of_single hsingle hdone
      refine ⟨h, fun env henv _ hdata => ?_⟩
      rw [hpassed env henv] at hdata
      exact absurd hdata hnodata
  · constructor
    · intro i hi hmine
      have hother : ¬ (a = frame.sourceId ∧ b'.slots[i].messageId = frame.messageId) :=
        fun hsame => hsource hsame.1.symm
      have hkept := (hdone.frame hother i).2 ⟨hi, hmine, rfl⟩
      rw [hkept] at hi hmine ⊢
      exact h i hi hmine
    · intro env henv hmine
      rcases hdone.reply inv hp hP hlen with
        ⟨x, hx, -, hfrom, -⟩ | hx | hx | hx
      · rw [henv] at hx
        cases hx
        exact absurd (hfrom.symm.trans hmine) hsource
      · rw [henv] at hx
        cases hx
      · rw [henv] at hx
        cases hx
      · rw [henv] at hx
        cases hx

end ReassemblyBuffer

namespace DeliveryEngine

variable {P Q : MessageEnvelope → Prop} {e e' : DeliveryEngine} {i : Input} {r : Receiving} {reply : Reply}
  {d d' : Delivery} {env : MessageEnvelope}

/-! ## What waits for delivery -/

/-- Everything that waits for delivery has the property. -/
def Throughout (Q : MessageEnvelope → Prop) (d : Delivery) : Prop :=
  (∀ x, Held d.ordering x → Q x) ∧ ∀ x ∈ d.staged, Q x

theorem Throughout.mono {R : MessageEnvelope → Prop} (h : Throughout Q d) (hmono : ∀ x, Q x → R x) :
    Throughout R d :=
  ⟨fun x hx => hmono x (h.1 x hx), fun x hx => hmono x (h.2 x hx)⟩

theorem Throughout.release {src : NodeId} {out : Option MessageEnvelope} {b b' : OrderingBuffer}
    (h : ∀ x, Held b x → Q x) (release : Released b src out b') :
    (∀ x, Held b' x → Q x) ∧ ∀ x ∈ out, Q x := by
  cases release with
  | nothing _ =>
    refine ⟨h, fun x hx => ?_⟩
    cases hx
  | @next env _ held _ _ _ rest =>
    refine ⟨fun x hx => h x ((rest x).mp hx).1, fun x hx => ?_⟩
    cases hx
    exact h env held

theorem Throughout.opened (inv : Inv P r.engine) (asks : r.asks) (h : Throughout Q r.engine.delivery) :
    Throughout Q r.opened := by
  rcases Receiving.opened_spec inv asks with ⟨-, hopened⟩ | ⟨env, out, ordering, -, -, -, hrelease, -, hopened⟩
  · rw [hopened]
    exact h
  · rw [hopened]
    exact Throughout.release h.1 hrelease

/-- What a `receive` leaves waiting, and what data it returns, were waiting before it or came with it. -/
theorem Throughout.answered (inv : Inv P r.engine) (h : Throughout Q r.engine.delivery)
    (came : ∀ env, r.data? = some env → Q env) (answered : r.Answered P reply d') :
    Throughout Q d' ∧ ∀ env, reply = .ok env → envelopeIsData env → Q env := by
  cases answered with
  | @returned env out ordering res staged accepted fresh release =>
    refine ⟨Throughout.release h.1 release, fun x hx _ => ?_⟩
    cases hx
    exact h.2 env staged
  | idle asks none noData routed => exact ⟨h.opened inv asks, fun x hx hdata => absurd hdata (noData x hx)⟩
  | duplicate asks none retry known =>
    refine ⟨h.opened inv asks, fun x hx => ?_⟩
    cases hx
  | @kept env dedup s res ordering asks data accepted through gate =>
    have hopened := h.opened inv asks
    refine ⟨⟨fun x hx => ?_, hopened.2⟩, fun x hx => by cases hx⟩
    cases gate.ingested with
    | stored _ _ _ _ _ held =>
      rcases (held x).mp hx with hx | rfl
      · exact hopened.1 x (gate.sweeping.kept x hx)
      · exact came x data
    | refused _ _ _ _ holds => exact hopened.1 x (gate.sweeping.kept x ((held_congr holds x).mp hx))
  | @passed env dedup s res gateAfter ordering out asks data accepted through gate release =>
    have hopened := h.opened inv asks
    have hgate (x : MessageEnvelope) (hx : Held gateAfter x) : Q x :=
      hopened.1 x (gate.sweeping.kept x ((gate.ingested.held_passed x).mp hx))
    obtain ⟨hheld, hout⟩ := Throughout.release hgate release
    refine ⟨⟨hheld, fun x hx => ?_⟩, fun x hx _ => ?_⟩
    · cases out with
      | none => exact hopened.2 x hx
      | some next => exact hout x hx
    · cases hx
      exact came env data

theorem Throughout.reset {src : NodeId} (hord : d.ordering.Inv (Accepted P)) (h : Throughout Q d)
    (reset : IsReset src d d') : d'.ordering.Inv (Accepted P) ∧ Throughout Q d' := by
  obtain ⟨b', hrun, hinv, hheld, -⟩ := resetPeer_spec hord reset.source
  obtain rfl : b' = d'.ordering := by
    rw [reset.ordering] at hrun
    exact (Except.ok.inj hrun).symm
  refine ⟨hinv, fun x hx => h.1 x ((hheld x).mp hx).1, fun x hx => ?_⟩
  rw [reset.staged] at hx
  exact h.2 x (Option.mem_filter_iff.mp hx).1

/-- What a call leaves waiting, and what data it returns, were waiting before it or came with it. -/
theorem Throughout.delivered {answer : Answer} (inv : Inv P e) (h : Throughout Q e.delivery)
    (came : ∀ r ∈ receiving? e i, ∀ env, r.data? = some env → Q env) (delivered : Delivered P e i answer d') :
    Throughout Q d' ∧ ∀ env ∈ answer.returned?, envelopeIsData env → Q env := by
  cases delivered with
  | outbound _ notReceived _ =>
    refine ⟨h, fun env henv => ?_⟩
    rw [returned?_of_not_received notReceived] at henv
    cases henv
  | rejected none => exact ⟨h, fun env henv => by cases henv⟩
  | swept call fresh swept sweeping =>
    exact ⟨⟨fun x hx => h.1 x (sweeping.kept x hx), h.2⟩, fun env henv => by cases henv⟩
  | reset call reset =>
    have hreset := Throughout.reset (d := { e.delivery with trace := [] }) inv.ordering h reset
    exact ⟨hreset.2, fun env henv => by cases henv⟩
  | @received r reply _ receiving hinv resets answered =>
    have hdrained := resets.keep (R := fun x => x.ordering.Inv (Accepted P) ∧ Throughout Q x)
      ⟨inv.ordering, h⟩ (fun _ _ _ _ hreset hx => Throughout.reset hx.1 hx.2 hreset)
    obtain ⟨hkept, hreturned⟩ := hdrained.2.answered hinv (came r receiving) answered
    refine ⟨hkept, fun env henv hdata => hreturned env ?_ hdata⟩
    cases reply with
    | error _ => cases henv
    | ok x =>
      cases henv
      rfl

/-! ## One call -/

/-- What the engine has of the node `a`, wherever it waits, is genuine. -/
structure Incoming (a : NodeId) (S : MessageEnvelope → Prop) (e : DeliveryEngine) : Prop where
  slots : e.reassembly.Trusts a S
  waiting : Throughout (Genuine a S) e.delivery

theorem Incoming.mono {T : MessageEnvelope → Prop} (h : Incoming a S e) (hmono : ∀ m, S m → T m) :
    Incoming a T e :=
  ⟨h.slots.mono hmono, h.waiting.mono fun _ hx => hx.mono hmono⟩

theorem throughout_init (cfg : ChannelConfig) (localId : NodeId) (entropy : UInt64) :
    Throughout Q (init cfg localId entropy).delivery := by
  refine ⟨fun x hx => ?_, fun x hx => ?_⟩
  · obtain ⟨k, hk, -⟩ := hx
    simp [delivery, init, OrderingBuffer.init] at hk
  · simp [delivery, staged?, init] at hx

theorem incoming_init (cfg : ChannelConfig) (localId : NodeId) (entropy : UInt64) :
    Incoming a S (init cfg localId entropy) :=
  ⟨ReassemblyBuffer.trusts_init, throughout_init cfg localId entropy⟩

/-- Every frame that a call may be handed is honest. -/
def HonestCall (a : NodeId) (S : MessageEnvelope → Prop) (i : Input) : Prop :=
  ∀ timeoutMs frame, i.transport.inbound timeoutMs = .ok frame → Honest a S frame

/-- A `receive` that returned was handed a valid frame, if any. -/
theorem frame_valid {o : Observation} (inv : Inv (fun _ => True) e) (hr : receiving? e i = some r)
    (hexec : exec i e = .ok (o, e')) {frame : MessageEnvelope} (hframe : r.frame? = some frame) :
    envelopeValid frame := by
  obtain ⟨hcall, -, -⟩ := receiving?_eq_some hr
  obtain ⟨⟨answer, e₁⟩, hrun, -⟩ := bind_eq_ok.mp hexec
  rw [hcall] at hrun
  obtain ⟨⟨reply, e₂⟩, hreceive, -⟩ := bind_eq_ok.mp hrun
  have hnow : r.nowUs > 0 := (ensure_bind_eq_ok.mp hreceive).1
  obtain ⟨hfault, -⟩ := exec_of_receiving headerProperty_true inv (fun _ _ _ => trivial) hr hnow hexec
  obtain ⟨-, hnone⟩ := (drainedFault_of_frame hframe).mp hfault
  by_contra hnot
  rw [frameFault, if_pos hnot] at hnone
  cases hnone

/-- What reassembly makes of an honest frame. -/
theorem Incoming.ingest {frame : MessageEnvelope} {nowUs : UInt64} {reassembly : ReassemblyBuffer}
    (h : Incoming a S e) (messages : Messages a S) (inv : Inv (fun _ => True) e) (honest : Honest a S frame)
    (valid : envelopeValid frame) (hingest : e.reassembly.ingest frame nowUs = .ok (reply, reassembly)) :
    reassembly.Trusts a S ∧ ∀ env, reply = .ok env → Genuine a S env := by
  have hreadable : Readable (fun _ => True) frame := ⟨valid.1, trivial⟩
  obtain ⟨reply', reassembly', hspec, hdone, -⟩ :=
    ReassemblyBuffer.ingest_spec inv.reassembly nowUs valid.2.2 hreadable
  cases hspec.symm.trans hingest
  exact h.slots.ingest messages inv.reassembly (Readable.headerProperty headerProperty_true) hreadable honest
    valid.2.1 hdone

/-- The data message that reaches the gate is genuine. -/
theorem Incoming.came {o : Observation} (h : Incoming a S e) (messages : Messages a S)
    (inv : Inv (fun _ => True) e) (honest : HonestCall a S i) (hexec : exec i e = .ok (o, e'))
    (hr : receiving? e i = some r) (hdata : r.data? = some env) : Genuine a S env := by
  obtain ⟨harrival, -⟩ := Option.mem_filter_iff.mp hdata
  obtain ⟨frame, hframe, harriving⟩ := Option.bind_eq_some_iff.mp harrival
  have hvalid := frame_valid inv hr hexec hframe
  obtain ⟨-, -, hdrained⟩ := receiving?_eq_some hr
  obtain ⟨-, -, hinbound⟩ := inv.receiving hr
  obtain ⟨-, harrived⟩ := Receiving.frame?_eq_some hframe
  rw [hinbound] at harrived
  have hsettled := settled_drainHelloReconnects _ hdrained
  unfold arriving? at harriving
  rw [hsettled.reassembly] at harriving
  split at harriving
  case h_1 _ _ hingest =>
    cases harriving
    exact (h.ingest messages inv (honest _ frame harrived) hvalid hingest).2 env rfl
  case h_2 _ => cases harriving

/-- What a call does to the fragments of the node `a` that wait. -/
theorem Incoming.slots_exec {o : Observation} (h : Incoming a S e) (messages : Messages a S)
    (inv : Inv (fun _ => True) e) (honest : HonestCall a S i) (hexec : exec i e = .ok (o, e')) :
    e'.reassembly.Trusts a S := by
  obtain ⟨⟨answer, e₁⟩, hrun, hdone⟩ := bind_eq_ok.mp hexec
  cases hdone
  have hsame (heq : e'.reassembly = e.reassembly) : e'.reassembly.Trusts a S := by
    rw [heq]
    exact h.slots
  cases hcall : i.call with
  | send env nowUs =>
    rw [hcall] at hrun
    obtain ⟨⟨⟨res, out⟩, e₂⟩, hsend, hdone⟩ := bind_eq_ok.mp hrun
    cases hdone
    apply hsame
    by_cases hstale : (e.attach i.transport).Stale nowUs
    · obtain ⟨-, hsend⟩ := ensure_bind_eq_ok.mp hsend
      rw [if_pos (show (e.attach i.transport).lastNowUs > 0 ∧ nowUs < (e.attach i.transport).lastNowUs from hstale)]
        at hsend
      cases hsend
      rfl
    · exact (send_outgoing (S := fun _ => True) hstale trivial hsend).2.reassembly
  | receive timeoutMs nowUs =>
    rw [hcall] at hrun
    obtain ⟨⟨reply, e₂⟩, hreceive, hdone⟩ := bind_eq_ok.mp hrun
    cases hdone
    obtain ⟨-, hpolls⟩ := receive_inward hreceive
    generalize e'.reassembly = b at hpolls ⊢
    cases hpolls with
    | nothing => exact h.slots
    | frame arrived valid ingest => exact (h.ingest messages inv (honest _ _ arrived) valid ingest).1
  | pumpRetries nowUs =>
    rw [hcall] at hrun
    obtain ⟨⟨n, e₂⟩, hpump, hdone⟩ := bind_eq_ok.mp hrun
    cases hdone
    have hkept := pumpRetries_reassembly hpump
    exact hsame hkept
  | sweepAckTimeouts nowUs =>
    rw [hcall] at hrun
    obtain ⟨⟨n, e₂⟩, hsweep, hdone⟩ := bind_eq_ok.mp hrun
    cases hdone
    rcases sweepAckTimeouts_settled hsweep with hsettled | ⟨swept, staleUs, hexpired, hsettled⟩
    · exact hsame hsettled.reassembly
    · rw [hsettled.reassembly]
      have hfirst : swept.Trusts a S :=
        h.slots.of_slots fun k => (sweepExpired_slot hexpired k).imp_right And.left
      exact hfirst.of_slots fun k => (sweepStale_slot swept nowUs staleUs k).imp_right And.left
  | resetPeerOrdering src =>
    rw [hcall] at hrun
    obtain ⟨e₂, hreset, hdone⟩ := bind_eq_ok.mp hrun
    cases hdone
    exact hsame (settled_resetPeerOrdering hreset).reassembly
  | pollEvent =>
    rw [hcall] at hrun
    obtain ⟨⟨ev, e₂⟩, hpoll, hdone⟩ := bind_eq_ok.mp hrun
    cases hdone
    exact hsame (settled_pollEvent hpoll).reassembly
  | drainEvents bufCap =>
    rw [hcall] at hrun
    obtain ⟨⟨evs, e₂⟩, hdrain, hdone⟩ := bind_eq_ok.mp hrun
    cases hdone
    exact hsame (settled_drainEvents _ hdrain).reassembly

/-- A call keeps what waits genuine, and what data it returns is genuine. -/
theorem Incoming.exec {o : Observation} (h : Incoming a S e) (messages : Messages a S)
    (inv : Inv (fun _ => True) e) (honest : HonestCall a S i) (hexec : exec i e = .ok (o, e')) :
    Incoming a S e' ∧ ∀ env ∈ o.answer.returned?, Genuine a S env := by
  obtain ⟨-, hdelivered, -⟩ := exec_delivered headerProperty_true inv (fun _ _ _ => trivial) hexec
  obtain ⟨hwaiting, hreturned⟩ := h.waiting.delivered inv
    (fun r hr env henv => h.came messages inv honest hexec hr henv) hdelivered
  refine ⟨⟨h.slots_exec messages inv honest hexec, hwaiting⟩, fun env henv hsource hdata => ?_⟩
  exact hreturned env henv hdata hsource hdata

end DeliveryEngine

end MessageEngine
