import MessageEngine.Core.RequestReplyEngine
import MessageEngine.Laws.DeliveryEngine.Step
import Mathlib.Logic.Relation

/-!
# Sorting what arrives

The abstract model of the engine is a desk with three places: the open requests, each with the
response it has heard, the requests of others that wait to be read, and the messages that are
neither. `Desk.sort` puts an envelope where its header says.

`Tidy` is what the two queues of the code keep: their counters are in range and the active slots of
the request stash are the ones between head and tail.

## What is proved

- `sortInbound_spec`, `sortInbound_empty`: an envelope is sorted as on the desk, and the one kind of
  envelope that stops the program is a data message without a byte;
- `pumpInbound_spec`: a whole pump sorts what the delivery engine handed up, in order.
-/

namespace MessageEngine

open Outcome Table

namespace RequestReplyEngine

/-! ## Envelopes -/

/-- The kind and the correlation id, when the envelope starts with a header. -/
def header? (env : MessageEnvelope) : Option (RRKind × UInt64) :=
  let hdr := readHeader (Nat.le_of_ble_eq_true rfl) env.payload
  if env.payloadLength < 12 then none
  else if hdr.correlationId = 0 ∨ hdr.pad0 ≠ 0 ∨ hdr.pad1 ≠ 0 ∨ hdr.pad2 ≠ 0 then none
  else if hdr.kind = RRKind.request.code then some (.request, hdr.correlationId)
  else if hdr.kind = RRKind.response.code then some (.response, hdr.correlationId)
  else none

/-- The application's bytes: those in use behind the header. -/
def appBytes (env : MessageEnvelope) : List UInt8 :=
  (env.payload.toList.take env.payloadLength.toNat).drop rrHeaderSize

/-- A data message that carries nothing. -/
def EmptyData (env : MessageEnvelope) : Prop := envelopeIsData env ∧ env.payloadLength = 0

instance (env : MessageEnvelope) : Decidable (EmptyData env) := inferInstanceAs (Decidable (_ ∧ _))

/-! ## The desk -/

/-- An open request, with the response it heard first. -/
structure Waiting where
  correlationId : UInt64
  expiresUs : UInt64
  response : Option (List UInt8)

/-- Hearing a response: the first one is kept. -/
def Waiting.heard (w : Waiting) (bytes : List UInt8) : Waiting :=
  { w with response := w.response.or (some bytes) }

/-- A request of another node. -/
structure Ask where
  correlationId : UInt64
  src : NodeId
  bytes : List UInt8

structure Desk where
  waiting : Fin maxPendingRequests → Option Waiting
  asks : List Ask
  passing : List MessageEnvelope

/-- The places an envelope can go to. -/
inductive Place where
  | pendingSlot
  | requestStash
  | nonRrStash
  deriving DecidableEq

namespace Desk

/-- The slot that waits for a response with this id. -/
def slot? (d : Desk) (cid : UInt64) : Option (Fin maxPendingRequests) :=
  (List.finRange maxPendingRequests).find? fun i => (d.waiting i).any (·.correlationId == cid)

/-- The response goes to the slot that waits for it. -/
def hear (d : Desk) (cid : UInt64) (bytes : List UInt8) : Desk :=
  match d.slot? cid with
  | none => d
  | some i =>
    { d with waiting := Function.update d.waiting i ((d.waiting i).map (·.heard bytes)) }

/-- The request waits to be read, while there is room. -/
def ask (d : Desk) (a : Ask) : Desk :=
  if d.asks.length < maxStashSize then { d with asks := d.asks ++ [a] } else d

/-- The message waits to be read, while there is room. -/
def pass (d : Desk) (env : MessageEnvelope) : Desk :=
  if d.passing.length < maxStashSize then { d with passing := d.passing ++ [env] } else d

def sort (d : Desk) (env : MessageEnvelope) : Desk :=
  if ¬ envelopeIsData env then d
  else match header? env with
    | none => d.pass env
    | some (.response, cid) => d.hear cid (appBytes env)
    | some (.request, cid) => d.ask ⟨cid, env.sourceId, appBytes env⟩

@[simp] theorem ask_waiting (d : Desk) (a : Ask) : (d.ask a).waiting = d.waiting := by
  unfold ask
  split
  · rfl
  · rfl

@[simp] theorem pass_waiting (d : Desk) (env : MessageEnvelope) :
    (d.pass env).waiting = d.waiting := by
  unfold pass
  split
  · rfl
  · rfl

/-- A slot hears a response when it is the one that waits for it. -/
theorem hear_waiting (d : Desk) (cid : UInt64) (bytes : List UInt8) (i : Fin maxPendingRequests) :
    (d.hear cid bytes).waiting i =
      if d.slot? cid = some i then (d.waiting i).map (·.heard bytes) else d.waiting i := by
  unfold hear
  cases hslot : d.slot? cid with
  | none => simp
  | some j =>
    by_cases hj : j = i
    · rw [if_pos (congrArg some hj), hj]
      exact Function.update_self ..
    · rw [if_neg (fun h => hj (Option.some.inj h))]
      exact Function.update_of_ne (fun h => hj h.symm) ..

theorem sort_data {d : Desk} {env : MessageEnvelope} (hdata : envelopeIsData env) :
    d.sort env = match header? env with
      | none => d.pass env
      | some (.response, cid) => d.hear cid (appBytes env)
      | some (.request, cid) => d.ask ⟨cid, env.sourceId, appBytes env⟩ :=
  if_neg fun h => h hdata

/-- The data message went to this place, and nothing else on the desk changed. -/
def RoutedTo (place : Place) (d : Desk) (env : MessageEnvelope) (d' : Desk) : Prop :=
  match place with
  | .pendingSlot => ∃ cid, header? env = some (.response, cid) ∧ d' = d.hear cid (appBytes env)
  | .requestStash => ∃ cid, header? env = some (.request, cid) ∧
      d' = d.ask ⟨cid, env.sourceId, appBytes env⟩
  | .nonRrStash => header? env = none ∧ d' = d.pass env

/-- A data message goes to exactly one place. -/
theorem sort_routed {d : Desk} {env : MessageEnvelope} (hdata : envelopeIsData env) :
    ∃! place, RoutedTo place d env (d.sort env) := by
  rw [sort_data hdata]
  cases hheader : header? env with
  | none =>
    refine ⟨.nonRrStash, ⟨hheader, rfl⟩, fun place h => ?_⟩
    cases place with
    | nonRrStash => rfl
    | pendingSlot =>
      obtain ⟨cid, hresponse, -⟩ := h
      cases hheader.symm.trans hresponse
    | requestStash =>
      obtain ⟨cid, hrequest, -⟩ := h
      cases hheader.symm.trans hrequest
  | some header =>
    obtain ⟨kind, cid⟩ := header
    cases kind with
    | response =>
      refine ⟨.pendingSlot, ⟨cid, hheader, rfl⟩, fun place h => ?_⟩
      cases place with
      | pendingSlot => rfl
      | requestStash =>
        obtain ⟨cid', hrequest, -⟩ := h
        cases hheader.symm.trans hrequest
      | nonRrStash => cases hheader.symm.trans h.1
    | request =>
      refine ⟨.requestStash, ⟨cid, hheader, rfl⟩, fun place h => ?_⟩
      cases place with
      | requestStash => rfl
      | pendingSlot =>
        obtain ⟨cid', hresponse, -⟩ := h
        cases hheader.symm.trans hresponse
      | nonRrStash => cases hheader.symm.trans h.1

end Desk

/-! ## The code's tables as a desk -/

def waiting? (p : PendingRequest) : Option Waiting :=
  if p.active then
    some ⟨p.correlationId, p.expiresUs,
      if p.stashReady then some (p.stashPayload.toList.take p.stashLen.toNat) else none⟩
  else none

def asked (q : StashedRequest) : Ask :=
  ⟨q.correlationId, q.src, q.payload.toList.take q.payloadLen.toNat⟩

theorem maxStashSize_pos : 0 < maxStashSize := Nat.succ_pos 15

def desk (r : RequestReplyEngine) : Desk where
  waiting i := waiting? r.pending[i]
  asks := (Circular.window maxStashSize_pos r.requestStash r.stashHead r.stashCount).map asked
  passing := Circular.window maxStashSize_pos r.nonRrStash r.nonRrHead r.nonRrCount

/-- What the two queues keep. -/
structure Tidy (r : RequestReplyEngine) : Prop where
  stashCount : r.stashCount ≤ maxStashSize
  active : ∀ j : Fin maxStashSize, r.requestStash[j].active = true ↔
    ∃ k < r.stashCount, stashSlot r.stashHead k = j
  nonRrCount : r.nonRrCount ≤ maxStashSize

variable {r r' : RequestReplyEngine} {env : MessageEnvelope} {nowUs : UInt64}

theorem tidy_init (engine : DeliveryEngine) : Tidy (init engine) where
  stashCount := Nat.zero_le _
  active := by
    intro j
    simp [init, Vector.getElem_replicate]
  nonRrCount := Nat.zero_le _

/-- The desk of the code looks for a slot as the code does. -/
theorem slot?_desk (r : RequestReplyEngine) (cid : UInt64) :
    r.desk.slot? cid =
      firstSlot? (fun p => p.active && p.correlationId == cid) r.pending := by
  unfold Desk.slot? firstSlot?
  congr 1
  funext i
  simp only [desk, waiting?]
  cases r.pending[i].active with
  | true => rfl
  | false => rfl

/-! ## One envelope -/

/-- The parser on a payload that is not empty. -/
theorem parseRrHeader_spec (hlen : env.payloadLength > 0) :
    (header? env = none ∧ parseRrHeader env.payload env.payloadLength = .ok none) ∨
    ∃ kind hdr, header? env = some (kind, hdr.correlationId) ∧ hdr.kind = kind.code ∧
      hdr.correlationId ≠ 0 ∧ parseRrHeader env.payload env.payloadLength = .ok (some hdr) := by
  unfold header? parseRrHeader
  simp only [ensure_pos hlen, ok_bind]
  by_cases hshort : env.payloadLength < 12
  case pos => exact .inl ⟨if_pos hshort, if_pos hshort⟩
  have hroom : rrHeaderSize ≤ msgMaxPayloadBytes := Nat.le_of_ble_eq_true rfl
  rw [if_neg hshort, if_neg hshort, dif_pos hroom]
  generalize readHeader hroom env.payload = hdr
  by_cases hzero : hdr.correlationId = 0
  · refine .inl ⟨if_pos (.inl hzero), ?_⟩
    split
    · rfl
    · rfl
  by_cases hpad : hdr.pad0 ≠ 0 ∨ hdr.pad1 ≠ 0 ∨ hdr.pad2 ≠ 0
  · refine .inl ⟨if_pos (.inr hpad), ?_⟩
    split
    · rfl
    · rfl
  rw [if_neg (fun h => h.elim hzero hpad)]
  simp only [if_neg hzero, if_neg hpad, ensure_pos hzero, ok_bind]
  by_cases hrequest : hdr.kind = RRKind.request.code
  · refine .inr ⟨.request, hdr, if_pos hrequest, hrequest, hzero, ?_⟩
    rw [if_neg (fun h => h (.inl hrequest))]
    rfl
  · rw [if_neg hrequest]
    by_cases hresponse : hdr.kind = RRKind.response.code
    · refine .inr ⟨.response, hdr, if_pos hresponse, hresponse, hzero, ?_⟩
      rw [if_neg (fun h => h (.inr hresponse))]
      rfl
    · refine .inl ⟨if_neg hresponse, if_pos ?_⟩
      exact fun h => h.elim hrequest hresponse

/-- The length the handlers copy. -/
def copyLen (env : MessageEnvelope) : UInt32 :=
  let appLen : UInt32 := if env.payloadLength > 12 then env.payloadLength - 12 else 0
  if appLen > UInt32.ofNat appPayloadCap then .ofNat appPayloadCap else appLen

theorem copyLen_toNat (env : MessageEnvelope) :
    (copyLen env).toNat = min (env.payloadLength.toNat - 12) 4084 := by
  have hcap : (UInt32.ofNat appPayloadCap).toNat = 4084 := by decide
  have happ : (if env.payloadLength > 12 then env.payloadLength - 12 else 0 : UInt32).toNat =
      env.payloadLength.toNat - 12 := by
    split
    case isTrue h =>
      rw [UInt32.toNat_sub_of_le _ _ (UInt32.le_of_lt h)]
      rfl
    case isFalse h =>
      have hle : env.payloadLength.toNat ≤ 12 := UInt32.le_iff_toNat_le.mp (UInt32.not_lt.mp h)
      rw [Nat.sub_eq_zero_of_le hle]
      rfl
  unfold copyLen
  generalize (if env.payloadLength > 12 then env.payloadLength - 12 else 0 : UInt32) = appLen at happ
  dsimp only
  split
  case isTrue h =>
    have hlt := UInt32.lt_iff_toNat_lt.mp h
    rw [hcap, happ] at hlt
    rw [hcap]
    omega
  case isFalse h =>
    have hle := UInt32.le_iff_toNat_le.mp (UInt32.not_lt.mp h)
    rw [hcap, happ] at hle
    rw [happ]
    omega

/-- A stash slot has room for all of the application's bytes. -/
theorem memcpy_app (dst : Vector UInt8 appPayloadCap) (env : MessageEnvelope) :
    ∃ out, memcpy dst 0 env.payload rrHeaderSize (copyLen env).toNat = .ok out ∧
      out.toList.take (copyLen env).toNat = appBytes env := by
  have hlen := copyLen_toNat env
  have hbounds : 0 + (copyLen env).toNat ≤ 4084 ∧ 12 + (copyLen env).toNat ≤ 4096 := by omega
  have hslice : (Bytes.slice env.payload.toList rrHeaderSize (copyLen env).toNat).length =
      (copyLen env).toNat :=
    Bytes.length_slice (by rw [Vector.length_toList]; exact hbounds.2)
  refine ⟨_, dif_pos hbounds, ?_⟩
  rw [Bytes.toList_blit]
  nth_rewrite 1 [← hslice]
  rw [Bytes.take_overwrite_zero, Bytes.slice, appBytes, List.drop_take, hlen]
  rcases Nat.le_total (env.payloadLength.toNat - 12) 4084 with hle | hle
  · rw [Nat.min_eq_left hle]
  · have hbehind : (env.payload.toList.drop rrHeaderSize).length = 4084 := by
      rw [List.length_drop, Vector.length_toList]
      rfl
    rw [Nat.min_eq_right hle, List.take_of_length_le (Nat.le_of_eq hbehind),
      List.take_of_length_le (hbehind.trans_le hle)]

/-- The length of the application's bytes, as `dispatch_inbound_envelope` computes it. -/
def appLen (env : MessageEnvelope) : UInt32 :=
  if env.payloadLength > 12 then env.payloadLength - 12 else 0

theorem waiting?_heard {p : PendingRequest} {bytes : List UInt8} (hactive : p.active = true)
    (hready : p.stashReady = true) : (waiting? p).map (·.heard bytes) = waiting? p := by
  simp [waiting?, Waiting.heard, hactive, hready]

theorem waiting?_stashed {p : PendingRequest} {out : Vector UInt8 appPayloadCap} {len : UInt32}
    (hready : ¬ p.stashReady = true) :
    waiting? { p with stashPayload := out, stashLen := len, stashReady := true } =
      (waiting? p).map (·.heard (out.toList.take len.toNat)) := by
  unfold waiting?
  simp only [hready]
  split
  · rfl
  · rfl

theorem handleInboundResponse_spec (r : RequestReplyEngine) (env : MessageEnvelope) {cid : UInt64}
    (hcid : cid ≠ 0) :
    ∃ pending, r.handleInboundResponse cid env.payload (appLen env) = .ok { r with pending } ∧
      { r with pending }.desk = r.desk.hear cid (appBytes env) := by
  unfold handleInboundResponse findPending Desk.hear
  simp only [ensure_pos hcid, ok_bind, pure_eq_ok]
  rw [slot?_desk]
  cases hslot : firstSlot? (fun p => p.active && p.correlationId == cid) r.pending with
  | none => exact ⟨r.pending, rfl, rfl⟩
  | some i =>
    have hactive : r.pending[i].active = true := by
      have hit := firstSlot?_some hslot
      rw [Bool.and_eq_true] at hit
      exact hit.1
    dsimp only
    by_cases hready : r.pending[i].stashReady = true
    · refine ⟨r.pending, if_pos hready, ?_⟩
      have hsame : Function.update r.desk.waiting i
          ((r.desk.waiting i).map (·.heard (appBytes env))) = r.desk.waiting :=
        Function.update_eq_self_iff.mpr (waiting?_heard hactive hready)
      exact congrArg (fun w => { r.desk with waiting := w }) hsame.symm
    · rw [if_neg hready]
      obtain ⟨out, hcopy, hbytes⟩ := memcpy_app r.pending[i].stashPayload env
      refine ⟨_, bind_eq_ok.mpr ⟨out, hcopy, rfl⟩, ?_⟩
      have hheard : ({ r with pending := r.pending.set i { r.pending[i] with
          stashPayload := out, stashLen := copyLen env, stashReady := true } i.isLt }).desk.waiting =
          Function.update r.desk.waiting i ((r.desk.waiting i).map (·.heard (appBytes env))) := by
        funext j
        simp only [desk, Function.update_apply, getElem_set_fin]
        by_cases hj : i = j
        · rw [if_pos hj, if_pos hj.symm, waiting?_stashed hready, hbytes]
        · rw [if_neg hj, if_neg (fun h => hj h.symm)]
      exact congrArg (fun w => { r.desk with waiting := w }) hheard

theorem handleInboundRequest_spec (tidy : Tidy r) (env : MessageEnvelope) {cid : UInt64}
    (hcid : cid ≠ 0) :
    ∃ requestStash stashCount,
      r.handleInboundRequest env.sourceId cid env.payload (appLen env) =
        .ok { r with requestStash, stashCount } ∧
      { r with requestStash, stashCount }.desk = r.desk.ask ⟨cid, env.sourceId, appBytes env⟩ ∧
      Tidy { r with requestStash, stashCount } := by
  have hlength : r.desk.asks.length = r.stashCount := by simp [desk]
  unfold handleInboundRequest Desk.ask
  simp only [ensure_pos hcid, ok_bind]
  rw [hlength]
  by_cases hfull : r.stashCount ≥ maxStashSize
  · rw [if_pos hfull, if_neg (Nat.not_lt.mpr hfull)]
    exact ⟨r.requestStash, r.stashCount, rfl, rfl, tidy⟩
  have hroom : r.stashCount < maxStashSize := Nat.lt_of_not_le hfull
  rw [if_neg hfull, if_pos hroom]
  have hfree : r.requestStash[stashSlot r.stashHead r.stashCount].active = false := by
    rw [Bool.eq_false_iff]
    intro hactive
    obtain ⟨k, hk, hslot⟩ := (tidy.active _).mp hactive
    exact Circular.slot_ne hk (by omega) hslot
  simp only [ensure_pos hfree, ok_bind]
  obtain ⟨out, hcopy, hbytes⟩ :=
    memcpy_app r.requestStash[stashSlot r.stashHead r.stashCount].payload env
  refine ⟨_, r.stashCount + 1, bind_eq_ok.mpr ⟨out, hcopy, rfl⟩, ?_, ?_⟩
  · have hpush := @Circular.window_push _ _ maxStashSize_pos r.requestStash r.stashHead _ hroom
      ⟨cid, env.sourceId, out, copyLen env, true⟩
    have hasks := congrArg (List.map asked) hpush
    rw [List.map_append, List.map_singleton, asked, hbytes] at hasks
    exact congrArg (fun asks => { r.desk with asks }) hasks
  · refine ⟨hroom, fun j => ?_, tidy.nonRrCount⟩
    simp only [getElem_set_fin]
    by_cases hj : stashSlot r.stashHead r.stashCount = j
    · rw [if_pos hj]
      exact ⟨fun _ => ⟨r.stashCount, Nat.lt_succ_self _, hj⟩, fun _ => rfl⟩
    · rw [if_neg hj, tidy.active j]
      constructor
      · rintro ⟨k, hk, hslot⟩
        exact ⟨k, Nat.lt_succ_of_lt hk, hslot⟩
      · rintro ⟨k, hk, hslot⟩
        rcases Nat.lt_succ_iff_lt_or_eq.mp hk with hlt | rfl
        · exact ⟨k, hlt, hslot⟩
        · exact absurd hslot hj

theorem stashNonRrData_spec (tidy : Tidy r) (hdata : envelopeIsData env) :
    ∃ nonRrStash nonRrCount, r.stashNonRrData env = .ok { r with nonRrStash, nonRrCount } ∧
      { r with nonRrStash, nonRrCount }.desk = r.desk.pass env ∧
      Tidy { r with nonRrStash, nonRrCount } := by
  have hlength : r.desk.passing.length = r.nonRrCount := by simp [desk]
  unfold stashNonRrData Desk.pass
  simp only [ensure_pos hdata, ok_bind]
  rw [hlength]
  by_cases hfull : r.nonRrCount ≥ maxStashSize
  · rw [if_pos hfull, if_neg (Nat.not_lt.mpr hfull)]
    exact ⟨r.nonRrStash, r.nonRrCount, rfl, rfl, tidy⟩
  have hroom : r.nonRrCount < maxStashSize := Nat.lt_of_not_le hfull
  rw [if_neg hfull, if_pos hroom]
  refine ⟨_, r.nonRrCount + 1, ensure_bind_eq_ok.mpr ⟨hroom, rfl⟩, ?_, tidy.stashCount, tidy.active, hroom⟩
  have hpassing := @Circular.window_push _ _ maxStashSize_pos r.nonRrStash r.nonRrHead _ hroom env
  exact congrArg (fun passing => { r.desk with passing }) hpassing

/-- What sorting leaves alone. -/
structure Apart (r r' : RequestReplyEngine) : Prop where
  cidGen : r'.cidGen = r.cidGen
  pendingCount : r'.pendingCount = r.pendingCount

theorem Apart.trans {r'' : RequestReplyEngine} (h : Apart r r') (h' : Apart r' r'') : Apart r r'' :=
  ⟨h'.cidGen.trans h.cidGen, h'.pendingCount.trans h.pendingCount⟩

theorem dispatchInboundEnvelope_spec (tidy : Tidy r) (hdata : envelopeIsData env)
    (hlen : env.payloadLength > 0) :
    (header? env = none ∧ r.dispatchInboundEnvelope env = .ok (false, r)) ∨
    ∃ r', r.dispatchInboundEnvelope env = .ok (true, r') ∧ r'.desk = r.desk.sort env ∧ Tidy r' ∧
      Apart r r' ∧ r'.engine = r.engine ∧ r'.links = r.links ∧ r'.arrivals = r.arrivals := by
  unfold dispatchInboundEnvelope
  simp only [ensure_pos hdata, ok_bind]
  rw [Desk.sort_data hdata]
  rcases parseRrHeader_spec hlen with ⟨hnone, hparse⟩ | ⟨kind, hdr, hheader, hkind, hcid, hparse⟩
  · exact .inl ⟨hnone, bind_eq_ok.mpr ⟨none, hparse, rfl⟩⟩
  refine .inr ?_
  rw [hparse, ok_bind, hheader]
  dsimp only
  cases kind with
  | response =>
    obtain ⟨pending, hrun, hdesk⟩ := handleInboundResponse_spec r env hcid
    rw [if_pos hkind]
    exact ⟨_, bind_eq_ok.mpr ⟨_, hrun, rfl⟩, hdesk, { tidy with }, ⟨rfl, rfl⟩, rfl, rfl, rfl⟩
  | request =>
    obtain ⟨requestStash, stashCount, hrun, hdesk, htidy⟩ := handleInboundRequest_spec tidy env hcid
    have hother : ¬ hdr.kind = RRKind.response.code := by
      rw [hkind]
      decide
    rw [if_neg hother]
    exact ⟨_, bind_eq_ok.mpr ⟨_, hrun, rfl⟩, hdesk, htidy, ⟨rfl, rfl⟩, rfl, rfl, rfl⟩

/-- An envelope is sorted as on the desk, unless it is a data message without a byte. -/
theorem sortInbound_spec (tidy : Tidy r) (hnot : ¬ EmptyData env) :
    ∃ r', r.sortInbound env = .ok r' ∧ r'.desk = r.desk.sort env ∧ Tidy r' ∧ Apart r r' ∧
      r'.engine = r.engine ∧ r'.links = r.links ∧ r'.arrivals = r.arrivals := by
  unfold sortInbound
  by_cases hdata : envelopeIsData env
  case neg =>
    refine ⟨r, if_pos hdata, ?_, tidy, ⟨rfl, rfl⟩, rfl, rfl, rfl⟩
    rw [Desk.sort, if_pos hdata]
  rw [if_neg (fun h => h hdata)]
  have hlen : env.payloadLength > 0 := UInt32.pos_iff_ne_zero.mpr fun h => hnot ⟨hdata, h⟩
  rcases dispatchInboundEnvelope_spec tidy hdata hlen with
    ⟨hnone, hrun⟩ | ⟨r', hrun, hdesk, htidy, hapart, hframe⟩
  · obtain ⟨nonRrStash, nonRrCount, hstash, hdesk, htidy⟩ := stashNonRrData_spec tidy hdata
    refine ⟨_, bind_eq_ok.mpr ⟨_, hrun, hstash⟩, ?_, htidy, ⟨rfl, rfl⟩, rfl, rfl, rfl⟩
    rw [hdesk, Desk.sort_data hdata, hnone]
  · exact ⟨r', bind_eq_ok.mpr ⟨_, hrun, rfl⟩, hdesk, htidy, hapart, hframe⟩

theorem sortInbound_empty (r : RequestReplyEngine) (hempty : EmptyData env) :
    r.sortInbound env = .error (.assertion .rrParseRrHeader) := by
  have hzero : ¬ env.payloadLength > 0 := by
    rw [hempty.2]
    decide
  unfold sortInbound dispatchInboundEnvelope parseRrHeader
  rw [if_neg (fun h => h hempty.1)]
  simp only [ensure_pos hempty.1, ok_bind, ensure_neg hzero, error_bind]

/-! ## The pump -/

/-- The delivery engine after some calls of it, whatever the transport answered. -/
def Serves : DeliveryEngine → DeliveryEngine → Prop :=
  Relation.ReflTransGen fun e e' => ∃ call transport answer,
    DeliveryEngine.run call (e.attach transport) = .ok (answer, e')

/-- The calls of the delivery engine keep its invariant. -/
theorem Serves.inv {e e' : DeliveryEngine} (h : Serves e e')
    (inv : DeliveryEngine.Inv (fun _ => True) e) : DeliveryEngine.Inv (fun _ => True) e' := by
  induction h with
  | refl => exact inv
  | tail _ hcall ih =>
    obtain ⟨call, transport, answer, hrun⟩ := hcall
    have hexec : DeliveryEngine.exec ⟨call, transport⟩ _ = _ := bind_eq_ok.mpr ⟨_, hrun, rfl⟩
    exact (DeliveryEngine.exec_outcome DeliveryEngine.headerProperty_true ih
      (fun _ _ _ => trivial) hexec).1

theorem Serves.call {e e' : DeliveryEngine} {call : DeliveryEngine.Call} {transport : Transport}
    {answer : DeliveryEngine.Answer}
    (h : DeliveryEngine.run call (e.attach transport) = .ok (answer, e')) : Serves e e' :=
  .single ⟨call, transport, answer, h⟩

/-- What the delivery engine hands up in successive calls of `receive`, until one hands up nothing. -/
def handedUp (nowUs : UInt64) : Nat → DeliveryEngine → List Transport → List MessageEnvelope
  | 0, _, _ => []
  | rounds + 1, e, links =>
    match (e.attach (links.headD ⟨[], fun _ => .error .errTimeout, []⟩)).receive 0 nowUs with
    | .ok (.ok env, e') => env :: handedUp nowUs rounds e' links.tail
    | _ => []

/-- A pump that returned has sorted what was handed up, in order. -/
theorem pumpInbound_sorted (tidy : Tidy r) (h : r.pumpInbound nowUs = .ok r') :
    ∃ envs, r'.arrivals = r.arrivals ++ envs ∧ r'.desk = envs.foldl Desk.sort r.desk ∧ Tidy r' ∧
      Apart r r' ∧ Serves r.engine r'.engine ∧
      envs = handedUp nowUs maxStashSize r.engine r.links := by
  unfold pumpInbound at h
  generalize maxStashSize = rounds at h ⊢
  induction rounds generalizing r with
  | zero =>
    cases h
    exact ⟨[], by simp, rfl, tidy, ⟨rfl, rfl⟩, .refl, rfl⟩
  | succ rounds ih =>
    obtain ⟨⟨reply, r₁⟩, hreceive, h⟩ := bind_eq_ok.mp h
    obtain ⟨⟨reply', engine⟩, hengine, heq⟩ := bind_eq_ok.mp hreceive
    cases heq
    have hcall : DeliveryEngine.run (.receive 0 nowUs) (r.engine.attach r.nextLink) = _ :=
      bind_eq_ok.mpr ⟨_, hengine, rfl⟩
    have hserves : Serves r.engine engine := .call hcall
    cases reply with
    | error res =>
      cases h
      refine ⟨[], by simp, rfl, { tidy with }, ⟨rfl, rfl⟩, hserves, ?_⟩
      rw [nextLink] at hengine
      rw [handedUp, hengine]
    | ok env =>
      obtain ⟨r₂, hsort, h⟩ := bind_eq_ok.mp h
      have htidy : Tidy { r with
        engine, links := r.links.tail, arrivals := r.arrivals ++ [env] } := { tidy with }
      by_cases hempty : EmptyData env
      · rw [sortInbound_empty _ hempty] at hsort
        cases hsort
      obtain ⟨r₂', hsort', hdesk, htidy₂, hapart, hengine₂, hlinks₂, harrivals₂⟩ :=
        sortInbound_spec htidy hempty
      cases hsort.symm.trans hsort'
      obtain ⟨envs, harrivals, hsorted, htidy', hapart', hserves', henvs⟩ := ih htidy₂ h
      rw [hengine₂] at hserves'
      refine ⟨env :: envs, ?_, ?_, htidy', ⟨hapart'.cidGen.trans hapart.cidGen,
        hapart'.pendingCount.trans hapart.pendingCount⟩, hserves.trans hserves', ?_⟩
      · rw [harrivals, harrivals₂, List.append_assoc, List.singleton_append]
      · rw [hsorted, hdesk]
        rfl
      · rw [nextLink] at hengine
        rw [handedUp, hengine, henvs, hengine₂, hlinks₂]

end RequestReplyEngine

end MessageEngine
