import MessageEngine.Laws.Reassembly.Isolation
import MessageEngine.Lib.Overlay

/-!
# What a reassembled message contains

A fragment's bytes go to the place its index names, and a message counts as complete when every index
was seen and the bytes add up. Whether the bytes stand next to each other is not checked. The slot of a
message holds its fragments written over each other, in the order they arrived; that is their
concatenation when each non-empty one starts where the lower ones end.

## What is proved

- `HoldsPieces.recorded`: what one more fragment does to the contents of its slot;
- `reassembly_concatenates`: in every run, a message whose fragments are aligned is reassembled to
  their concatenation in index order;
- `short_fragment_lost`: a first fragment shorter than `FRAG_MAX_PAYLOAD_BYTES` leaves a gap, and the
  bytes of the second do not come out.
-/

namespace MessageEngine

open Outcome Table ReassemblyBuffer Overlay

namespace ReassemblyBuffer

/-- The bytes of a fragment, at the place its index names. -/
def segment (frag : MessageEnvelope) : Segment UInt8 where
  start := place frag
  items := frag.payload.toList.take frag.payloadLength.toNat

/-- The fragment with index `k`. -/
def pieceAt (frags : List MessageEnvelope) (k : Nat) : Segment UInt8 :=
  match frags.find? fun f => f.fragmentIndex.toNat == k with
  | some f => segment f
  | none => ⟨0, []⟩

/-- What the slot `s` knows once the fragments were recorded in it, in this order. -/
structure HoldsPieces (frags : List MessageEnvelope) (s : ReassemblySlot) : Prop where
  distinct : (frags.map fun f => f.fragmentIndex.toNat).Nodup
  below : ∀ f ∈ frags, f.fragmentIndex.toNat < s.expectedCount.toNat
  fits : ∀ f ∈ frags, f.payloadLength.toNat ≤ msgMaxPayloadBytes
  marks : ∃ seen : Finset (Fin fragMaxCount), s.receivedMask = maskOf seen ∧
    ∀ k : Fin fragMaxCount, k ∈ seen ↔ ∃ f ∈ frags, f.fragmentIndex.toNat = k
  bytes : s.receivedBytes = (frags.map fun f => f.payloadLength.toNat).sum
  content : ∀ (j : Nat) (hj : j < msgMaxPayloadBytes), s.buf[j] = overlay 0 (frags.map segment) j

variable {frags : List MessageEnvelope} {frag env : MessageEnvelope} {s s' : ReassemblySlot}

theorem holdsPieces_fresh (frag : MessageEnvelope) (nowUs : UInt64) : HoldsPieces [] (freshSlot frag nowUs) := by
  refine ⟨List.nodup_nil, fun f hf => ?_, fun f hf => ?_, ⟨∅, rfl, fun k => ?_⟩, rfl, fun j hj => ?_⟩
  · cases hf
  · cases hf
  · simp
  · simp only [freshSlot, Vector.getElem_replicate]
    rfl

/-- One more fragment. -/
theorem HoldsPieces.recorded (h : HoldsPieces frags s) (hcount : s.expectedCount.toNat ≤ fragMaxCount)
    (hindex : frag.fragmentIndex.toNat < s.expectedCount.toNat)
    (new : s.receivedMask &&& fragmentBit frag.fragmentIndex = 0) (fits : Fits s frag)
    (r : Recorded s frag s') : HoldsPieces (frags ++ [frag]) s' := by
  obtain ⟨seen, hmask, hseen⟩ := h.marks
  let k : Fin fragMaxCount := ⟨frag.fragmentIndex.toNat, by omega⟩
  have hk : UInt8.ofNat k = frag.fragmentIndex := UInt8.ofNat_toNat
  have hlength : frag.payloadLength.toNat ≤ msgMaxPayloadBytes := by
    have hroom := fits.1
    omega
  have hfresh : k ∉ seen := by
    rw [← maskOf_bit, ← hmask, hk]
    exact new
  refine ⟨?_, fun f hf => ?_, fun f hf => ?_, ⟨insert k seen, ?_, fun i => ?_⟩, ?_, fun j hj => ?_⟩
  · rw [List.map_append, List.nodup_append]
    refine ⟨h.distinct, List.nodup_singleton _, fun a ha b hb heq => hfresh ?_⟩
    rw [List.map_singleton, List.mem_singleton] at hb
    obtain ⟨f, hf, hfa⟩ := List.mem_map.mp ha
    exact (hseen k).mpr ⟨f, hf, hfa.trans (heq.trans hb)⟩
  · rw [r.fields]
    rw [List.mem_append, List.mem_singleton] at hf
    rcases hf with hf | rfl
    · exact h.below f hf
    · exact hindex
  · rw [List.mem_append, List.mem_singleton] at hf
    rcases hf with hf | rfl
    · exact h.fits f hf
    · exact hlength
  · rw [r.fields, ← maskOf_insert, ← hmask, hk]
  · rw [Finset.mem_insert, hseen]
    constructor
    · intro hi
      rcases hi with rfl | ⟨f, hf, hfi⟩
      · exact ⟨frag, List.mem_append_right _ (List.mem_singleton_self frag), rfl⟩
      · exact ⟨f, List.mem_append_left _ hf, hfi⟩
    · intro hi
      obtain ⟨f, hf, hfi⟩ := hi
      rw [List.mem_append, List.mem_singleton] at hf
      rcases hf with hf | rfl
      · exact .inr ⟨f, hf, hfi⟩
      · exact .inl (Fin.ext hfi.symm)
  · rw [r.fields, List.map_append, List.sum_append, ← h.bytes]
    simp
  · rw [List.map_append, List.map_singleton, overlay_append, ← h.content j hj]
    have hitems : (segment frag).items.length = frag.payloadLength.toNat := by
      rw [segment, List.length_take, Vector.length_toList]
      omega
    by_cases hcover : (segment frag).Covers j
    · rw [if_pos hcover]
      unfold Segment.Covers at hcover
      rw [hitems] at hcover
      rw [r.inside j hj hcover.1 hcover.2, segment, List.getD_eq_getElem?_getD, List.getD_eq_getElem?_getD,
        List.getElem?_take_of_lt]
      have hlo : place frag ≤ j := hcover.1
      have hhi : j < place frag + frag.payloadLength.toNat := hcover.2
      change j - place frag < frag.payloadLength.toNat
      omega
    · rw [if_neg hcover]
      apply r.outside j hj
      unfold Segment.Covers at hcover
      rw [hitems] at hcover
      exact hcover

/-! ## A complete message -/

/-- The fragment found at its index. -/
theorem pieceAt_of_mem (distinct : (frags.map fun f => f.fragmentIndex.toNat).Nodup) (hf : frag ∈ frags) :
    pieceAt frags frag.fragmentIndex.toNat = segment frag := by
  unfold pieceAt
  cases hfind : frags.find? fun f => f.fragmentIndex.toNat == frag.fragmentIndex.toNat with
  | none =>
    have hnot := List.find?_eq_none.mp hfind frag hf
    exact absurd (beq_self_eq_true _) hnot
  | some g =>
    have hg := List.mem_of_find?_eq_some hfind
    have hindex : g.fragmentIndex.toNat = frag.fragmentIndex.toNat := by simpa using List.find?_some hfind
    rw [List.inj_on_of_nodup_map distinct hg hf hindex]

/-- Every index below the count was seen. -/
theorem HoldsPieces.all (h : HoldsPieces frags s) (hcount : s.expectedCount.toNat ≤ fragMaxCount)
    (hall : complete s.receivedMask s.expectedCount = true) {k : Nat} (hk : k < s.expectedCount.toNat) :
    ∃ f ∈ frags, f.fragmentIndex.toNat = k := by
  obtain ⟨seen, hmask, hseen⟩ := h.marks
  have hsub : seen ⊆ allPieces s.expectedCount.toNat := by
    intro i hi
    obtain ⟨f, hf, hfi⟩ := (hseen i).mp hi
    rw [mem_allPieces, ← hfi]
    exact h.below f hf
  have hcomplete := complete_maskOf seen ⟨s.expectedCount.toNat, by omega⟩ hsub
  rw [UInt8.ofNat_toNat, ← hmask] at hcomplete
  have heq := hcomplete.mp hall
  have hmem : (⟨k, by omega⟩ : Fin fragMaxCount) ∈ seen := by
    rw [heq, mem_allPieces]
    exact hk
  exact (hseen _).mp hmem

/-- The indices of a complete message are the numbers below the count. -/
theorem HoldsPieces.indices (h : HoldsPieces frags s) (hcount : s.expectedCount.toNat ≤ fragMaxCount)
    (hall : complete s.receivedMask s.expectedCount = true) :
    (frags.map fun f => f.fragmentIndex.toNat).Perm (List.range s.expectedCount.toNat) := by
  rw [List.perm_ext_iff_of_nodup h.distinct List.nodup_range]
  intro k
  rw [List.mem_map, List.mem_range]
  constructor
  · intro hk
    obtain ⟨f, hf, rfl⟩ := hk
    exact h.below f hf
  · exact h.all hcount hall

/-- The concatenation of a complete message is as long as the bytes counted. -/
theorem HoldsPieces.joined_length (h : HoldsPieces frags s) (hcount : s.expectedCount.toNat ≤ fragMaxCount)
    (hall : complete s.receivedMask s.expectedCount = true) :
    (joined (pieceAt frags) s.expectedCount.toNat).length = s.receivedBytes := by
  have hlengths : frags.map (fun f => f.payloadLength.toNat) =
      (frags.map fun f => f.fragmentIndex.toNat).map fun k => (pieceAt frags k).items.length := by
    rw [List.map_map]
    apply List.map_congr_left
    intro f hf
    have hfits := h.fits f hf
    rw [Function.comp_apply, pieceAt_of_mem h.distinct hf, segment, List.length_take, Vector.length_toList]
    omega
  rw [h.bytes, hlengths, ((h.indices hcount hall).map _).sum_eq, joined, List.length_flatMap]

/-- An aligned message is assembled to the concatenation of its fragments. -/
theorem HoldsPieces.assembled (h : HoldsPieces frags s) (hcount : s.expectedCount.toNat ≤ fragMaxCount)
    (hall : complete s.receivedMask s.expectedCount = true) (hbytes : s.receivedBytes = s.totalLength.toNat)
    (htotal : s.totalLength.toNat ≤ msgMaxPayloadBytes) (a : Assembled s env)
    (aligned : Aligned (pieceAt frags) s.expectedCount.toNat) :
    env.payload.toList.take env.payloadLength.toNat = joined (pieceAt frags) s.expectedCount.toNat := by
  have hlength := h.joined_length hcount hall
  have henv : env.payloadLength.toNat = s.totalLength.toNat := by
    rw [a.fields]
    exact UInt16.toNat_toUInt32 _
  apply List.ext_getElem
  · rw [List.length_take, Vector.length_toList, hlength, henv]
    omega
  · intro j hj hj'
    have hlt : j < s.totalLength.toNat := by
      rw [hlength] at hj'
      omega
    have hbuf : j < msgMaxPayloadBytes := by omega
    rw [List.getElem_take, Vector.getElem_toList, a.bytes j hbuf hlt, h.content j hbuf]
    refine overlay_eq_joined aligned (fun k hk hne => ?_) (fun p hp => ?_) hj'
    · obtain ⟨f, hf, rfl⟩ := h.all hcount hall hk
      rw [pieceAt_of_mem h.distinct hf]
      exact List.mem_map_of_mem hf
    · obtain ⟨f, hf, rfl⟩ := List.mem_map.mp hp
      exact ⟨_, h.below f hf, (pieceAt_of_mem h.distinct hf).symm⟩

/-! ## The fragments recorded in a run -/

/-- What the open slot of a message has marked. -/
def markedIn (b : ReassemblyBuffer) (src : NodeId) (msgId : UInt64) : Option UInt32 :=
  (firstSlot? (fun s => s.active && (s.sourceId == src && s.messageId == msgId)) b.slots).map
    fun i => b.slots[i].receivedMask

variable {b b' : ReassemblyBuffer} {src : NodeId} {msgId : UInt64}

theorem markedIn_some (inv : Inv (fun _ => True) b) {i : Fin reassemblySlotCount}
    (h : b.slots[i].isFor src msgId) : b.markedIn src msgId = some b.slots[i].receivedMask := by
  obtain ⟨hactive, hs, hm⟩ := h
  rw [markedIn, firstSlot?_eq_some, Option.map_some]
  · rw [hactive, hs, hm]
    simp
  · intro j hj
    simp only [Bool.and_eq_true, beq_iff_eq] at hj
    exact inv.distinct i j hactive ⟨hj.1, by rw [hj.2.1, hs], by rw [hj.2.2, hm]⟩

theorem markedIn_none (h : ∀ i : Fin reassemblySlotCount, ¬ b.slots[i].isFor src msgId) :
    b.markedIn src msgId = none := by
  rw [markedIn, firstSlot?_none.mpr, Option.map_none]
  intro i
  rw [← Bool.not_eq_true]
  intro hi
  simp only [Bool.and_eq_true, beq_iff_eq] at hi
  exact h i ⟨hi.1, hi.2.1, hi.2.2⟩

end ReassemblyBuffer

/-- The fragments recorded in the open slot of a message, after one more call: a fragment of the message
that marked something new joins them, and a slot that is not open has none. -/
def gather (src : NodeId) (msgId : UInt64) (frags : List MessageEnvelope) (t : Arrival.Taken) :
    List MessageEnvelope :=
  match t.after.markedIn src msgId with
  | none => []
  | some mask =>
    match t.input with
    | .ingest frag _ =>
      if frag.sourceId = src ∧ frag.messageId = msgId ∧ t.before.markedIn src msgId ≠ some mask then
        frags ++ [frag]
      else frags
    | _ => frags

/-- The fragments recorded for a message that is not complete yet, in the order they arrived. -/
def recordedFor (src : NodeId) (msgId : UInt64) (past : List Arrival.Taken) : List MessageEnvelope :=
  past.foldl (gather src msgId) []

theorem recordedFor_append (src : NodeId) (msgId : UInt64) (past : List Arrival.Taken) (t : Arrival.Taken) :
    recordedFor src msgId (past ++ [t]) = gather src msgId (recordedFor src msgId past) t := by
  rw [recordedFor, List.foldl_append]
  rfl

section Gather

variable {src : NodeId} {msgId : UInt64} {frags : List MessageEnvelope} {t : Arrival.Taken}

theorem gather_closed (h : t.after.markedIn src msgId = none) : gather src msgId frags t = [] := by
  rw [gather, h]

/-- A call that marks nothing new for the message records nothing for it. -/
theorem gather_same {mask : UInt32} (hbefore : t.before.markedIn src msgId = some mask)
    (hafter : t.after.markedIn src msgId = some mask) : gather src msgId frags t = frags := by
  rw [gather, hafter, hbefore]
  dsimp only
  split
  · rw [if_neg fun h => h.2.2 rfl]
  · rfl

theorem gather_new {frag : MessageEnvelope} {nowUs : UInt64} {mask : UInt32}
    (hinput : t.input = .ingest frag nowUs)
    (hafter : t.after.markedIn frag.sourceId frag.messageId = some mask)
    (hbefore : t.before.markedIn frag.sourceId frag.messageId ≠ some mask) :
    gather frag.sourceId frag.messageId frags t = frags ++ [frag] := by
  rw [gather, hafter, hinput]
  dsimp only
  rw [if_pos ⟨rfl, rfl, hbefore⟩]

end Gather

/-! ## Every run -/

/-- A fragment of several that completes its message, after the calls `past`: if the fragments recorded
are aligned, the message is their concatenation in index order. -/
def Concatenates (past : List Arrival.Taken) (t : Arrival.Taken) : Prop :=
  ∀ frag nowUs env, t.input = .ingest frag nowUs → 1 < frag.fragmentCount.toNat → t.output = some (.ok env) →
    Aligned (pieceAt (recordedFor frag.sourceId frag.messageId past ++ [frag])) frag.fragmentCount.toNat →
    env.payload.toList.take env.payloadLength.toNat =
      joined (pieceAt (recordedFor frag.sourceId frag.messageId past ++ [frag])) frag.fragmentCount.toNat

/-- The open slots hold the fragments recorded in the run so far. -/
structure Contents (past : List Arrival.Taken) (b : ReassemblyBuffer) : Prop where
  inv : Inv (fun _ => True) b
  slots : ∀ i : Fin reassemblySlotCount, b.slots[i].active = true →
    HoldsPieces (recordedFor b.slots[i].sourceId b.slots[i].messageId past) b.slots[i]
  closed : ∀ (src : NodeId) (msgId : UInt64), (∀ i : Fin reassemblySlotCount, ¬ b.slots[i].isFor src msgId) →
    recordedFor src msgId past = []

theorem contents_init : Contents [] init := by
  refine ⟨inv_init, fun i hi => ?_, fun _ _ _ => rfl⟩
  have hinactive : init.slots[i].active = false := by simp [init]
  rw [hinactive] at hi
  cases hi

section Run

variable {past : List Arrival.Taken} {frag : MessageEnvelope} {nowUs : UInt64} {b b' : ReassemblyBuffer}
  {a : Arrival} {o : Option Reply}

/-- A slot that the call left as it was still holds what was recorded for its message. -/
theorem Contents.kept (h : Contents past b) (inv : Inv (fun _ => True) b') {i : Fin reassemblySlotCount}
    (hi : b'.slots[i].active = true) (hsame : b'.slots[i] = b.slots[i]) :
    HoldsPieces (recordedFor b'.slots[i].sourceId b'.slots[i].messageId (past ++ [⟨b, a, o, b'⟩])) b'.slots[i] := by
  have hafter := markedIn_some inv ⟨hi, rfl, rfl⟩
  have hi' : b.slots[i].active = true := hsame ▸ hi
  have hbefore := markedIn_some h.inv ⟨hi', rfl, rfl⟩
  rw [hsame] at hafter ⊢
  rw [recordedFor_append, gather_same (t := ⟨b, a, o, b'⟩) hbefore hafter]
  exact h.slots i hi'

/-- A call that only frees slots. -/
theorem Contents.frees (h : Contents past b) (inv : Inv (fun _ => True) b')
    (kept : ∀ i : Fin reassemblySlotCount, b'.slots[i].active = true → b'.slots[i] = b.slots[i]) :
    Contents (past ++ [⟨b, a, o, b'⟩]) b' := by
  refine ⟨inv, fun i hi => h.kept inv hi (kept i hi), fun src msgId hnone => ?_⟩
  rw [recordedFor_append, gather_closed (markedIn_none hnone)]

/-- What is recorded for the message of a fragment, before it, stands in the slot the fragment goes to. -/
theorem Contents.slotFor (h : Contents past b) {i : Fin reassemblySlotCount}
    {s₀ : ReassemblySlot} (mine : SlotFor b frag nowUs i s₀) :
    HoldsPieces (recordedFor frag.sourceId frag.messageId past) s₀ := by
  cases mine with
  | found hfor _ =>
    have hslot := h.slots i hfor.1
    rw [hfor.2.1, hfor.2.2] at hslot
    exact hslot
  | opened _ unknown _ =>
    rw [h.closed _ _ unknown]
    exact holdsPieces_fresh frag nowUs

/-- A recorded fragment is marked. -/
theorem ReassemblyBuffer.HoldsPieces.marked {frags : List MessageEnvelope} {s : ReassemblySlot} (h : HoldsPieces frags s)
    (hindex : frag.fragmentIndex.toNat < fragMaxCount) (hf : frag ∈ frags) :
    s.receivedMask &&& fragmentBit frag.fragmentIndex ≠ 0 := by
  obtain ⟨seen, hmask, hseen⟩ := h.marks
  have hbit := maskOf_bit seen ⟨frag.fragmentIndex.toNat, hindex⟩
  rw [UInt8.ofNat_toNat, ← hmask] at hbit
  rw [ne_eq, hbit, not_not]
  exact (hseen _).mpr ⟨frag, hf, rfl⟩

/-- A fragment that was recorded, with more to come. -/
theorem Contents.records (h : Contents past b) {i : Fin reassemblySlotCount} {s₀ s : ReassemblySlot}
    (inv : Inv (fun _ => True) { b with slots := b.slots.set i s i.isLt })
    (mine : SlotFor b frag nowUs i s₀) (key : s.isFor frag.sourceId frag.messageId)
    (new : s₀.receivedMask &&& fragmentBit frag.fragmentIndex = 0)
    (hindex : frag.fragmentIndex.toNat < fragMaxCount)
    (holds : HoldsPieces (recordedFor frag.sourceId frag.messageId past ++ [frag]) s) :
    Contents (past ++ [⟨b, .ingest frag nowUs, o, { b with slots := b.slots.set i s i.isLt }⟩])
      { b with slots := b.slots.set i s i.isLt } := by
  have hread : (b.slots.set i s i.isLt)[i] = s := by rw [getElem_set_fin, if_pos rfl]
  have hafter : markedIn { b with slots := b.slots.set i s i.isLt } frag.sourceId frag.messageId =
      some s.receivedMask := by
    have hsome := @markedIn_some { b with slots := b.slots.set i s i.isLt } frag.sourceId frag.messageId inv i
    rw [hread] at hsome
    exact hsome key
  have hbefore : b.markedIn frag.sourceId frag.messageId ≠ some s.receivedMask := by
    intro hsame
    cases mine with
    | found hfor _ =>
      rw [markedIn_some h.inv hfor] at hsame
      have hmark := holds.marked hindex (List.mem_append_right _ (List.mem_singleton_self frag))
      rw [← Option.some.inj hsame] at hmark
      exact hmark new
    | opened _ unknown _ =>
      rw [markedIn_none unknown] at hsame
      cases hsame
  refine ⟨inv, fun j hj => ?_, fun src msgId hnone => ?_⟩
  · by_cases hij : i = j
    · subst hij
      have hnew : recordedFor frag.sourceId frag.messageId
          (past ++ [⟨b, .ingest frag nowUs, o, { b with slots := b.slots.set i s i.isLt }⟩]) =
            recordedFor frag.sourceId frag.messageId past ++ [frag] := by
        rw [recordedFor_append]
        exact gather_new rfl hafter hbefore
      dsimp only
      rw [hread, key.2.1, key.2.2, hnew]
      exact holds
    · apply h.kept inv hj
      dsimp only
      rw [getElem_set_fin, if_neg hij]
  · rw [recordedFor_append, gather_closed (markedIn_none hnone)]

/-- What a fragment of several does to the contents, and what it hands out. -/
theorem Contents.ingest {reply : Reply} (h : Contents past b)
    (inv : Inv (fun _ => True) b') (hdone : Ingested b frag nowUs reply b') :
    Concatenates past ⟨b, .ingest frag nowUs, some reply, b'⟩ ∧
      Contents (past ++ [⟨b, .ingest frag nowUs, some reply, b'⟩]) b' := by
  have quiet (r : Result) (b' : ReassemblyBuffer) :
      Concatenates past ⟨b, .ingest frag nowUs, some (.error r), b'⟩ := by
    intro _ _ _ _ _ hout
    cases hout
  cases hdone with
  | invalid => exact ⟨quiet _ _, h.frees inv fun _ _ => rfl⟩
  | full => exact ⟨quiet _ _, h.frees inv fun _ _ => rfl⟩
  | whole single =>
    refine ⟨fun _ _ _ hin several => ?_, h.frees inv fun _ _ => rfl⟩
    cases hin
    omega
  | slot wf several mine step =>
    rename_i i s₀ s
    have hold := h.slotFor mine
    have hcount : s₀.expectedCount = frag.fragmentCount ∧ s₀.totalLength = frag.totalPayloadLength := by
      cases mine with
      | found _ agree => exact ⟨agree.1.symm, agree.2.symm⟩
      | opened _ _ _ => exact ⟨rfl, rfl⟩
    have hfour : s₀.expectedCount.toNat ≤ fragMaxCount := hcount.1 ▸ wf.2.1
    have hindex : frag.fragmentIndex.toNat < s₀.expectedCount.toNat := by
      have hlt := wf.1
      rw [hcount.1]
      omega
    -- A slot that was given up or handed out leaves the others as they were.
    have freed (hinactive : s.active = false) (j : Fin reassemblySlotCount)
        (hj : (b.slots.set i s i.isLt)[j].active = true) : (b.slots.set i s i.isLt)[j] = b.slots[j] := by
      rw [getElem_set_fin] at hj ⊢
      split
      case isTrue hij =>
        rw [if_pos hij, hinactive] at hj
        cases hj
      case isFalse _ => rfl
    cases step with
    | repeated marked =>
      cases mine with
      | opened _ _ _ => exact absurd UInt32.zero_and marked
      | found hfor _ =>
        refine ⟨quiet _ _, h.frees inv fun j _ => ?_⟩
        dsimp only
        rw [getElem_set_fin]
        split
        case isTrue hij => rw [hij]
        case isFalse _ => rfl
    | refused _ _ hinactive => exact ⟨quiet _ _, h.frees inv (freed hinactive)⟩
    | kept new fits recorded missing =>
      have hkey : s.isFor frag.sourceId frag.messageId := by
        rw [recorded.fields]
        refine ⟨?_, mine.key⟩
        cases mine with
        | found hfor _ => exact hfor.1
        | opened _ _ _ => rfl
      exact ⟨quiet _ _, h.records inv mine hkey new (Nat.lt_of_lt_of_le hindex hfour)
        (hold.recorded hfour hindex new fits recorded)⟩
    | done new fits recorded all bytes assembled hinactive =>
      rename_i s₁ env
      refine ⟨?_, h.frees inv (freed hinactive)⟩
      intro _ _ _ hin _ hout aligned
      cases hin
      cases hout
      have hnext := hold.recorded hfour hindex new fits recorded
      have hsame : s₁.expectedCount = frag.fragmentCount := by
        rw [recorded.fields]
        exact hcount.1
      have htotal : s₁.totalLength.toNat ≤ msgMaxPayloadBytes := by
        rw [recorded.fields, hcount.2]
        exact wf.2.2
      have hlast := hnext.assembled (hsame ▸ wf.2.1) all bytes htotal assembled
      rw [hsame] at hlast
      exact hlast aligned

/-- One call, as the contents see it. -/
theorem Contents.apply (h : Contents past b) (happly : a.apply b = .ok (o, b')) :
    Concatenates past ⟨b, a, o, b'⟩ ∧ Contents (past ++ [⟨b, a, o, b'⟩]) b' := by
  have hinv := Arrival.inv h.inv happly
  cases a with
  | ingest frag nowUs =>
    obtain ⟨⟨reply, b₁⟩, hin, hout⟩ := bind_eq_ok.mp happly
    cases hout
    have hsrc : frag.sourceId ≠ 0 := (ensure_bind_eq_ok.mp hin).1
    obtain ⟨reply', b₂, hspec, hdone, -⟩ := ingest_spec h.inv nowUs hsrc trivial
    cases hspec.symm.trans hin
    exact h.ingest hinv hdone
  | sweepExpired nowUs =>
    obtain ⟨b₁, hsweep, hout⟩ := bind_eq_ok.mp happly
    cases hout
    refine ⟨fun _ _ _ hin => ?_, h.frees hinv fun i hi => ?_⟩
    · cases hin
    · rcases sweepExpired_slot hsweep i with hsame | ⟨hfreed, -⟩
      · exact hsame
      · rw [hfreed] at hi
        cases hi
  | sweepStale nowUs staleThresholdUs =>
    cases happly
    refine ⟨fun _ _ _ hin => ?_, h.frees hinv fun i hi => ?_⟩
    · cases hin
    · rcases sweepStale_slot b nowUs staleThresholdUs i with hsame | ⟨hfreed, -⟩
      · exact hsame
      · rw [hfreed] at hi
        cases hi

/-- Every call of every run that completes a message of aligned fragments hands out their concatenation. -/
theorem reassembly_concatenates (arrivals : List Arrival) :
    Run.Lawful Concatenates (Run.history Arrival.apply arrivals init) := by
  intro past t rest hsplit
  refine Run.history_split (I := Contents) (fun past b a o b' h happly => ?_) contents_init hsplit
  exact h.apply happly

end Run

/-- The first of two fragments, with one byte. -/
def shortFirst : MessageEnvelope :=
  { envelopeInit with
    sourceId := 1, messageId := 7, fragmentCount := 2, payloadLength := 1, totalPayloadLength := 2
    payload := (Vector.replicate msgMaxPayloadBytes 0).set 0 9 }

/-- The second one, with another byte. -/
def shortSecond : MessageEnvelope :=
  { shortFirst with fragmentIndex := 1, payload := (Vector.replicate msgMaxPayloadBytes 0).set 0 5 }

/-- The bytes a call handed out. -/
def handedOut (t : Arrival.Taken) : List UInt8 :=
  match t.output with
  | some (.ok env) => env.payload.toList.take env.payloadLength.toNat
  | _ => []

/-- Two fragments of one byte each are accepted as a message of two bytes, whose second byte is neither's. -/
theorem short_fragment_lost :
    (Run.history Arrival.apply [.ingest shortFirst 5, .ingest shortSecond 5] init).map handedOut = [[], [9, 0]] ∧
      joined (pieceAt [shortFirst, shortSecond]) 2 = [9, 5] := by
  decide +kernel

end MessageEngine
