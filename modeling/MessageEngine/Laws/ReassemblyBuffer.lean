import MessageEngine.Core.ReassemblyBuffer

/-!
# Laws of the reassembly buffer

The invariant says of every open slot what the code relies on: a source, a fragment count and a
total length within the limits, and a header that came from a fragment. `P` is any further
property of the fragments that were handed in; reassembly changes the fragment and payload fields
of a header and nothing else, so a property that does not look at those is handed through to the
assembled message (`HeaderProperty`).

## What is proved

- `ingest_spec`: `ingest` of a fragment with a source never faults, keeps the invariant, answers
  a result the engine expects, and leaves the slots of other messages alone;
- the two sweeps keep the invariant.
-/

namespace MessageEngine

open Outcome Table

/-- A property of an envelope that reassembly cannot change. -/
structure HeaderProperty (P : MessageEnvelope → Prop) : Prop where
  stable : ∀ (env : MessageEnvelope) (payloadLength : UInt32) (fragmentIndex fragmentCount : UInt8)
    (totalPayloadLength : UInt16) (payload : Vector UInt8 msgMaxPayloadBytes), P env →
    P { env with payloadLength, fragmentIndex, fragmentCount, totalPayloadLength, payload }

namespace ReassemblyBuffer

/-- The slot is open for the message `(src, msgId)`. -/
def ReassemblySlot.isFor (s : ReassemblySlot) (src : NodeId) (msgId : UInt64) : Prop :=
  s.active = true ∧ s.sourceId = src ∧ s.messageId = msgId

/-- What the code relies on of an open slot. -/
structure ReassemblySlot.Ok (P : MessageEnvelope → Prop) (s : ReassemblySlot) : Prop where
  source : s.sourceId ≠ 0
  atLeastTwo : 2 ≤ s.expectedCount.toNat
  atMostFour : s.expectedCount.toNat ≤ fragMaxCount
  total : s.totalLength.toNat ≤ msgMaxPayloadBytes
  bytes : s.receivedBytes ≤ msgMaxPayloadBytes
  headerSource : s.header.sourceId = s.sourceId
  header : P s.header

/-- The invariant: every open slot is in order and no message has two. -/
structure Inv (P : MessageEnvelope → Prop) (b : ReassemblyBuffer) : Prop where
  ok : ∀ i : Fin reassemblySlotCount, b.slots[i].active = true → b.slots[i].Ok P
  distinct : ∀ i j : Fin reassemblySlotCount, b.slots[i].active = true →
    b.slots[j].isFor b.slots[i].sourceId b.slots[i].messageId → j = i

variable {P : MessageEnvelope → Prop} {b b' : ReassemblyBuffer}

theorem inv_init : Inv P init := by
  have inactive (i : Fin reassemblySlotCount) : init.slots[i].active = false := by
    simp [init]
  constructor
  · intro i h
    rw [inactive i] at h
    cases h
  · intro i j h
    rw [inactive i] at h
    cases h

/-- One slot written: the invariant needs the new slot in order and its message not open elsewhere. -/
theorem Inv.set (inv : Inv P b) (i : Fin reassemblySlotCount) {s : ReassemblySlot}
    (ok : s.active = true → s.Ok P)
    (only : s.active = true → ∀ j, b.slots[j].isFor s.sourceId s.messageId → j = i) :
    Inv P { b with slots := b.slots.set i s i.isLt } := by
  constructor
  · intro j hj
    rw [getElem_set_fin] at hj ⊢
    split
    case isTrue h => exact ok (by rwa [if_pos h] at hj)
    case isFalse h => exact inv.ok j (by rwa [if_neg h] at hj)
  · intro j k hj hk
    rw [getElem_set_fin] at hj
    simp only [ReassemblySlot.isFor, getElem_set_fin] at hk
    by_cases hij : i = j
    · subst hij
      by_cases hik : i = k
      · exact hik.symm
      · simp only [if_neg hik, if_true] at hk hj
        exact only hj k hk
    · rw [if_neg hij] at hj
      by_cases hik : i = k
      · subst hik
        simp only [if_neg hij, if_true] at hk
        exact (only hk.1 j ⟨hj, hk.2.1.symm, hk.2.2.symm⟩).symm
      · simp only [if_neg hij, if_neg hik] at hk
        exact inv.distinct j k hj hk

/-! ## Finding the slot -/

/-- The search hits exactly the slot that is open for the message. -/
theorem findSlot_eq (src : NodeId) (msgId : UInt64) (hsrc : src ≠ 0) :
    b.findSlot src msgId = .ok (firstSlot?
      (fun s => s.active && (s.sourceId == src && s.messageId == msgId)) b.slots) := by
  simp [findSlot, hsrc]

theorem findSlot_some {src : NodeId} {msgId : UInt64} (inv : Inv P b) (hsrc : src ≠ 0)
    {i : Fin reassemblySlotCount} (h : b.slots[i].isFor src msgId) :
    b.findSlot src msgId = .ok (some i) := by
  obtain ⟨hactive, hs, hm⟩ := h
  rw [findSlot_eq src msgId hsrc]
  congr 1
  apply firstSlot?_eq_some
  · rw [hactive, hs, hm]
    simp
  · intro j hj
    simp only [Bool.and_eq_true, beq_iff_eq] at hj
    exact inv.distinct i j hactive ⟨hj.1, by rw [hj.2.1, hs], by rw [hj.2.2, hm]⟩

theorem findSlot_none {src : NodeId} {msgId : UInt64} (hsrc : src ≠ 0)
    (h : ∀ i : Fin reassemblySlotCount, ¬ b.slots[i].isFor src msgId) :
    b.findSlot src msgId = .ok none := by
  rw [findSlot_eq src msgId hsrc]
  congr 1
  rw [firstSlot?_none]
  intro i
  rw [← Bool.not_eq_true]
  intro hi
  simp only [Bool.and_eq_true, beq_iff_eq] at hi
  exact h i ⟨hi.1, hi.2.1, hi.2.2⟩

/-- The number of open slots of a source. -/
def openCount (b : ReassemblyBuffer) (src : NodeId) : Nat :=
  b.slots.countP fun s => s.active && s.sourceId == src

theorem countOpenSlotsForSrc_eq {src : NodeId} (hsrc : src ≠ 0) :
    b.countOpenSlotsForSrc src = .ok (b.openCount src) := by
  have hle : b.openCount src ≤ reassemblySlotCount := Vector.countP_le_size
  simp only [countOpenSlotsForSrc, ensure_pos hsrc, ok_bind]
  exact ensure_bind_eq_ok.mpr ⟨hle, rfl⟩

/-- The slot as `open_slot` fills it. -/
def freshSlot (frag : MessageEnvelope) (nowUs : UInt64) : ReassemblySlot :=
  { messageId := frag.messageId, sourceId := frag.sourceId
    buf := Vector.replicate msgMaxPayloadBytes 0
    receivedMask := 0, receivedBytes := 0, expectedCount := frag.fragmentCount
    totalLength := frag.totalPayloadLength, expiryUs := frag.expiryTimeUs, openTimeUs := nowUs
    header := frag, active := true }

/-- There is room for one more message of the source. -/
def HasRoom (b : ReassemblyBuffer) (src : NodeId) : Prop :=
  b.openCount src < kReasmPerSrcMax ∧ b.findFreeSlot ≠ none

instance (b : ReassemblyBuffer) (src : NodeId) : Decidable (b.HasRoom src) :=
  inferInstanceAs (Decidable (_ ∧ _))

/-- A new message finds room and gets a fresh slot. -/
theorem findOrOpenSlot_open {frag : MessageEnvelope} (nowUs : UInt64) (hsrc : frag.sourceId ≠ 0)
    (total : frag.totalPayloadLength.toNat ≤ msgMaxPayloadBytes)
    (none : ∀ i : Fin reassemblySlotCount, ¬ b.slots[i].isFor frag.sourceId frag.messageId)
    (room : b.HasRoom frag.sourceId) :
    ∃ i : Fin reassemblySlotCount, b.slots[i].active = false ∧
      b.findOrOpenSlot frag nowUs =
        .ok (.ok i, { b with slots := b.slots.set i (freshSlot frag nowUs) i.isLt }) := by
  obtain ⟨hcount, hfree⟩ := room
  obtain ⟨i, hi⟩ := Option.ne_none_iff_exists'.mp hfree
  have hinactive : b.slots[i].active = false := by simpa using firstSlot?_some hi
  refine ⟨i, hinactive, ?_⟩
  have hopen : b.openSlot i frag nowUs = .ok { b with slots := b.slots.set i (freshSlot frag nowUs) i.isLt } := by
    simp only [openSlot, ensure_pos total, ok_bind]
    exact ensure_bind_eq_ok.mpr ⟨by rw [hinactive]; simp, rfl⟩
  simp only [findOrOpenSlot, ensure_pos hsrc, ok_bind, findSlot_none hsrc none,
    countOpenSlotsForSrc_eq hsrc]
  rw [if_neg (by omega), hi]
  simp only [hopen, ok_bind, pure_eq_ok]

/-- A new message without room is turned away. -/
theorem findOrOpenSlot_full {frag : MessageEnvelope} (nowUs : UInt64) (hsrc : frag.sourceId ≠ 0)
    (none : ∀ i : Fin reassemblySlotCount, ¬ b.slots[i].isFor frag.sourceId frag.messageId)
    (full : ¬ b.HasRoom frag.sourceId) :
    b.findOrOpenSlot frag nowUs = .ok (.error .errFull, b) := by
  simp only [findOrOpenSlot, ensure_pos hsrc, ok_bind, findSlot_none hsrc none,
    countOpenSlotsForSrc_eq hsrc]
  by_cases hcount : b.openCount frag.sourceId ≥ kReasmPerSrcMax
  · rw [if_pos hcount]
    rfl
  · rw [if_neg hcount]
    have hfree : b.findFreeSlot = Option.none := by
      by_contra hne
      exact full ⟨by omega, hne⟩
    rw [hfree]
    rfl

/-- A known message: the fragment has to agree with the slot. -/
theorem findOrOpenSlot_found {frag : MessageEnvelope} (nowUs : UInt64) (inv : Inv P b)
    (hsrc : frag.sourceId ≠ 0) {i : Fin reassemblySlotCount}
    (h : b.slots[i].isFor frag.sourceId frag.messageId) :
    b.findOrOpenSlot frag nowUs =
      .ok (if frag.fragmentCount = b.slots[i].expectedCount ∧
          frag.totalPayloadLength = b.slots[i].totalLength then .ok i else .error .errInvalid, b) := by
  have hvalidate : b.validateFragment i frag =
      .ok (if frag.fragmentCount = b.slots[i].expectedCount ∧
        frag.totalPayloadLength = b.slots[i].totalLength then .ok else .errInvalid) := by
    refine ensure_bind_eq_ok.mpr ⟨h.1, ?_⟩
    by_cases hc : frag.fragmentCount = b.slots[i].expectedCount
    · by_cases ht : frag.totalPayloadLength = b.slots[i].totalLength
      · simp only [hc, ht, ne_eq, not_true, if_false, and_self, if_true]
        rfl
      · simp only [hc, ht, ne_eq, not_true, not_false_iff, if_false, if_true, and_false]
        rfl
    · simp only [hc, ne_eq, not_false_iff, if_true, false_and, if_false]
      rfl
  simp only [findOrOpenSlot, ensure_pos hsrc, ok_bind, findSlot_some inv hsrc h, hvalidate]
  by_cases hagree : frag.fragmentCount = b.slots[i].expectedCount ∧
      frag.totalPayloadLength = b.slots[i].totalLength
  · simp only [if_pos hagree, ne_eq, not_true, if_false, pure_eq_ok]
  · simp only [if_neg hagree, ne_eq, reduceCtorEq, not_false_iff, if_true, pure_eq_ok]

/-! ## One fragment into its slot -/

/-- Where a fragment's bytes belong. -/
def place (frag : MessageEnvelope) : Nat := frag.fragmentIndex.toNat * fragMaxPayloadBytes

/-- The fragment's bytes fit at their place and into the byte budget of the slot. -/
def Fits (s : ReassemblySlot) (frag : MessageEnvelope) : Prop :=
  place frag + frag.payloadLength.toNat ≤ msgMaxPayloadBytes ∧
    s.receivedBytes + frag.payloadLength.toNat ≤ msgMaxPayloadBytes

/-- The slot `s'` is `s` with a fragment recorded. -/
structure Recorded (s : ReassemblySlot) (frag : MessageEnvelope) (s' : ReassemblySlot) : Prop where
  fields : s' = { s with
    buf := s'.buf
    receivedBytes := s.receivedBytes + frag.payloadLength.toNat
    receivedMask := s.receivedMask ||| fragmentBit frag.fragmentIndex }
  inside : ∀ (j : Nat) (hj : j < msgMaxPayloadBytes), place frag ≤ j →
    j < place frag + frag.payloadLength.toNat → s'.buf[j] = frag.payload.toList.getD (j - place frag) 0
  outside : ∀ (j : Nat) (hj : j < msgMaxPayloadBytes),
    ¬ (place frag ≤ j ∧ j < place frag + frag.payloadLength.toNat) → s'.buf[j] = s.buf[j]

/-- All of `count` fragments are marked. -/
def complete (mask : UInt32) (count : UInt8) : Bool :=
  let expectedMask : UInt32 := (1 <<< count.toUInt32) - 1
  mask &&& expectedMask == expectedMask

/-- The message `env` is what the slot `s` stands for. -/
structure Assembled (s : ReassemblySlot) (env : MessageEnvelope) : Prop where
  fields : env = { s.header with
    payloadLength := s.totalLength.toUInt32, fragmentIndex := 0, fragmentCount := 1
    totalPayloadLength := s.totalLength, payload := env.payload }
  bytes : ∀ (j : Nat) (hj : j < msgMaxPayloadBytes), j < s.totalLength.toNat →
    env.payload[j] = s.buf[j]

/-- What a fragment does to the slot of its message: the answer and the slot afterwards. -/
inductive Step (s : ReassemblySlot) (frag : MessageEnvelope) : Reply → ReassemblySlot → Prop where
  /-- Already marked: nothing happens. -/
  | repeated (marked : s.receivedMask &&& fragmentBit frag.fragmentIndex ≠ 0) :
    Step s frag (.error .errAgain) s
  /-- The bytes do not fit, or do not add up: the slot is given up. -/
  | refused {s' : ReassemblySlot} (new : s.receivedMask &&& fragmentBit frag.fragmentIndex = 0)
    (wrong : Fits s frag → complete (s.receivedMask ||| fragmentBit frag.fragmentIndex) s.expectedCount ∧
      s.receivedBytes + frag.payloadLength.toNat ≠ s.totalLength.toNat)
    (freed : s'.active = false) : Step s frag (.error .errInvalid) s'
  | kept {s' : ReassemblySlot} (new : s.receivedMask &&& fragmentBit frag.fragmentIndex = 0)
    (fits : Fits s frag) (recorded : Recorded s frag s')
    (missing : ¬ complete s'.receivedMask s'.expectedCount) : Step s frag (.error .errAgain) s'
  | done {s₁ s' : ReassemblySlot} {env : MessageEnvelope}
    (new : s.receivedMask &&& fragmentBit frag.fragmentIndex = 0)
    (fits : Fits s frag) (recorded : Recorded s frag s₁)
    (all : complete s₁.receivedMask s₁.expectedCount)
    (bytes : s₁.receivedBytes = s₁.totalLength.toNat) (assembled : Assembled s₁ env)
    (freed : s'.active = false) : Step s frag (.ok env) s'

/-- The copy of a fragment's bytes to their place. -/
private theorem copy_spec {buf : Vector UInt8 msgMaxPayloadBytes} {frag : MessageEnvelope}
    (fits : place frag + frag.payloadLength.toNat ≤ msgMaxPayloadBytes) :
    ∃ out : Vector UInt8 msgMaxPayloadBytes,
      (if frag.payloadLength.toNat > 0 then
          memcpy buf (frag.fragmentIndex.toNat * fragMaxPayloadBytes) frag.payload 0
            frag.payloadLength.toNat
        else pure buf) = .ok out ∧
      (∀ (j : Nat) (hj : j < msgMaxPayloadBytes), place frag ≤ j →
        j < place frag + frag.payloadLength.toNat →
        out[j] = frag.payload.toList.getD (j - place frag) 0) ∧
      ∀ (j : Nat) (hj : j < msgMaxPayloadBytes),
        ¬ (place frag ≤ j ∧ j < place frag + frag.payloadLength.toNat) → out[j] = buf[j] := by
  by_cases hpos : frag.payloadLength.toNat > 0
  · obtain ⟨out, hout, hread⟩ := memcpy_eq_ok buf frag.payload fits
      (show 0 + frag.payloadLength.toNat ≤ msgMaxPayloadBytes by omega)
    refine ⟨out, by rw [if_pos hpos]; exact hout, ?_, ?_⟩
    · intro j hj hlo hhi
      rw [hread j hj, dif_pos ⟨hlo, hhi⟩, List.getD_eq_getElem?_getD,
        List.getElem?_eq_getElem (by rw [Vector.length_toList]; omega), Option.getD_some]
      simp only [Vector.getElem_toList, Nat.zero_add]
      rfl
    · intro j hj hnot
      rw [hread j hj, dif_neg hnot]
  · refine ⟨buf, by rw [if_neg hpos]; rfl, ?_, fun _ _ _ => rfl⟩
    intro j hj hlo hhi
    omega

/-- Recording a fragment: it fits and is recorded, or the answer is `ERR_INVALID`. -/
theorem recordFragment_spec {i : Fin reassemblySlotCount} {frag : MessageEnvelope}
    (index : frag.fragmentIndex.toNat < fragMaxCount)
    (bytes : b.slots[i].receivedBytes ≤ msgMaxPayloadBytes) :
    (Fits b.slots[i] frag ∧ ∃ s, Recorded b.slots[i] frag s ∧
      b.recordFragment i frag = .ok (.ok, { b with slots := b.slots.set i s i.isLt })) ∨
    (¬ Fits b.slots[i] frag ∧ ∃ s : ReassemblySlot,
      b.recordFragment i frag = .ok (.errInvalid, { b with slots := b.slots.set i s i.isLt })) := by
  have hself : { b with slots := b.slots.set i b.slots[i] i.isLt } = b := by
    simp
  simp only [recordFragment, ensure_pos index, ok_bind]
  unfold fragMaxCount at index
  rw [if_neg (by unfold fragMaxPayloadBytes msgMaxPayloadBytes; omega)]
  by_cases hplace : frag.payloadLength.toNat > 0 ∧
      frag.payloadLength.toNat > msgMaxPayloadBytes - frag.fragmentIndex.toNat * fragMaxPayloadBytes
  · rw [if_pos hplace]
    refine .inr ⟨?_, b.slots[i], by rw [hself]; rfl⟩
    rintro ⟨h, -⟩
    unfold place at h
    omega
  · have hfits : place frag + frag.payloadLength.toNat ≤ msgMaxPayloadBytes := by
      unfold place fragMaxPayloadBytes msgMaxPayloadBytes at *
      omega
    obtain ⟨buf, hbuf, hin, hout⟩ := copy_spec hfits
    rw [if_neg hplace, ite_bind, hbuf, ok_bind]
    by_cases hbudget : frag.payloadLength.toNat > msgMaxPayloadBytes - b.slots[i].receivedBytes
    · rw [if_pos hbudget]
      refine .inr ⟨?_, _, rfl⟩
      rintro ⟨-, h⟩
      omega
    · rw [if_neg hbudget]
      exact .inl ⟨⟨hfits, by omega⟩, _, ⟨rfl, hin, hout⟩, rfl⟩

theorem ReassemblySlot.Ok.recorded {s s' : ReassemblySlot} {frag : MessageEnvelope} (ok : s.Ok P)
    (fits : Fits s frag) (r : Recorded s frag s') : s'.Ok P := by
  rw [r.fields]
  exact ⟨ok.source, ok.atLeastTwo, ok.atMostFour, ok.total, fits.2, ok.headerSource, ok.header⟩

/-- Completeness of an open slot, with its fragment count in range. -/
theorem isComplete_eq {i : Fin reassemblySlotCount} (active : b.slots[i].active = true)
    (ok : b.slots[i].Ok P) :
    b.isComplete i = .ok (complete b.slots[i].receivedMask b.slots[i].expectedCount) := by
  have hcount : 1 ≤ b.slots[i].expectedCount ∧ b.slots[i].expectedCount.toNat ≤ fragMaxCount := by
    have htwo := ok.atLeastTwo
    exact ⟨UInt8.le_iff_toNat_le.mpr (by simp only [UInt8.reduceToNat]; omega), ok.atMostFour⟩
  exact ensure_bind_eq_ok.mpr ⟨active, ensure_bind_eq_ok.mpr ⟨hcount, rfl⟩⟩

/-- Assembly of an open slot: the byte count has to be the announced total. -/
theorem assembleAndFree_spec {i : Fin reassemblySlotCount} (active : b.slots[i].active = true)
    (ok : b.slots[i].Ok P) :
    (b.slots[i].receivedBytes = b.slots[i].totalLength.toNat ∧
      ∃ env, Assembled b.slots[i] env ∧ b.assembleAndFree i = .ok (.ok env, b.freeSlot i)) ∨
    (b.slots[i].receivedBytes ≠ b.slots[i].totalLength.toNat ∧
      b.assembleAndFree i = .ok (.error .errInvalid, b.freeSlot i)) := by
  have htotal := ok.total
  have hpayload : ∃ out : Vector UInt8 msgMaxPayloadBytes,
      (if b.slots[i].totalLength.toUInt32.toNat > 0 then
        memcpy b.slots[i].header.payload 0 b.slots[i].buf 0 b.slots[i].totalLength.toUInt32.toNat
      else pure b.slots[i].header.payload) = .ok out ∧
      ∀ (j : Nat) (hj : j < msgMaxPayloadBytes), j < b.slots[i].totalLength.toNat →
        out[j] = b.slots[i].buf[j] := by
    rw [UInt16.toNat_toUInt32]
    by_cases hpos : b.slots[i].totalLength.toNat > 0
    · obtain ⟨out, hout, hread⟩ := memcpy_eq_ok b.slots[i].header.payload b.slots[i].buf
        (show 0 + b.slots[i].totalLength.toNat ≤ _ by omega)
        (show 0 + b.slots[i].totalLength.toNat ≤ msgMaxPayloadBytes by omega)
      refine ⟨out, by rw [if_pos hpos]; exact hout, ?_⟩
      intro j hj hlt
      rw [hread j hj, dif_pos ⟨Nat.zero_le j, by omega⟩]
      simp only [Nat.zero_add, Nat.sub_zero]
      rfl
    · exact ⟨_, by rw [if_neg hpos]; rfl, fun j hj hlt => by omega⟩
  obtain ⟨out, hout, hbytes⟩ := hpayload
  by_cases heq : b.slots[i].receivedBytes = b.slots[i].totalLength.toNat
  · refine .inl ⟨heq, { b.slots[i].header with
      payloadLength := b.slots[i].totalLength.toUInt32, fragmentIndex := 0, fragmentCount := 1
      totalPayloadLength := b.slots[i].totalLength, payload := out }, ⟨rfl, hbytes⟩,
      ensure_bind_eq_ok.mpr ⟨active, ?_⟩⟩
    simp only [heq, ne_eq, not_true, if_false]
    rw [ite_bind, hout, ok_bind]
    rfl
  · refine .inr ⟨heq, ensure_bind_eq_ok.mpr ⟨active, ?_⟩⟩
    simp only [heq, ne_eq, not_false_iff, if_true]
    rfl

/-- A fragment handed to the slot of its message takes one of the four steps. -/
theorem ingestMultifrag_slot {frag : MessageEnvelope} {nowUs : UInt64} {i : Fin reassemblySlotCount}
    (count : frag.fragmentCount > 1) (index : frag.fragmentIndex.toNat < fragMaxCount)
    (found : b.findOrOpenSlot frag nowUs = .ok (.ok i, b')) (active : b'.slots[i].active = true)
    (ok : b'.slots[i].Ok P) :
    ∃ reply s, b.ingestMultifrag frag nowUs = .ok (reply, { b' with slots := b'.slots.set i s i.isLt }) ∧
      Step b'.slots[i] frag reply s := by
  have hself : { b' with slots := b'.slots.set i b'.slots[i] i.isLt } = b' := by simp
  simp only [ingestMultifrag, ensure_pos count, ok_bind, found]
  by_cases hmark : b'.slots[i].receivedMask &&& fragmentBit frag.fragmentIndex ≠ 0
  · rw [if_pos hmark]
    exact ⟨_, b'.slots[i], by rw [hself]; rfl, .repeated hmark⟩
  rw [if_neg hmark]
  rw [not_not] at hmark
  rcases recordFragment_spec index ok.bytes with ⟨hfits, s, hr, hrec⟩ | ⟨hnofit, s, hrec⟩
  · have hread : { b' with slots := b'.slots.set i s i.isLt }.slots[i] = s := by
      rw [getElem_set_fin, if_pos rfl]
    have hok : s.Ok P := ok.recorded hfits hr
    have hactive : s.active = true := by rw [hr.fields]; exact active
    simp only [hrec, ok_bind, ne_eq, not_true, if_false]
    rw [isComplete_eq (P := P) (by rw [hread]; exact hactive) (by rw [hread]; exact hok), hread, ok_bind]
    cases hall : complete s.receivedMask s.expectedCount with
    | false =>
      exact ⟨_, _, rfl, .kept hmark hfits hr (by rw [hall]; simp)⟩
    | true =>
      simp only [Bool.not_true, Bool.false_eq_true, if_false]
      have hasm := assembleAndFree_spec (b := { b' with slots := b'.slots.set i s i.isLt }) (i := i)
        (P := P) (by rw [hread]; exact hactive) (by rw [hread]; exact hok)
      rw [hread] at hasm
      rcases hasm with ⟨hbytes, env, henv, hasm⟩ | ⟨hbytes, hasm⟩
      · have hlen : env.payloadLength.toNat ≤ msgMaxPayloadBytes := by
          rw [henv.fields]
          simpa using hok.total
        simp only [hasm, ok_bind, ensure_pos hlen, freeSlot, Vector.set_set]
        exact ⟨_, _, rfl, .done hmark hfits hr hall hbytes henv rfl⟩
      · simp only [hasm, ok_bind, freeSlot, Vector.set_set]
        refine ⟨_, _, rfl, .refused hmark (fun _ => ?_) rfl⟩
        rw [hr.fields] at hall hbytes
        exact ⟨hall, hbytes⟩
  · simp only [hrec, ok_bind, ne_eq, reduceCtorEq, not_false_iff, if_true, pure_eq_ok, freeSlot,
      Vector.set_set]
    exact ⟨_, _, rfl, .refused hmark (fun h => absurd h hnofit) rfl⟩

/-! ## One call of `ingest` -/

/-- The fragment fields are within the limits of the format. -/
def WellFormed (frag : MessageEnvelope) : Prop :=
  frag.fragmentIndex.toNat < max frag.fragmentCount.toNat 1 ∧
    frag.fragmentCount.toNat ≤ fragMaxCount ∧ frag.totalPayloadLength.toNat ≤ msgMaxPayloadBytes

theorem validateMetadata_eq {frag : MessageEnvelope} (hsrc : frag.sourceId ≠ 0) :
    ∃ r, validateMetadata frag = .ok r ∧
      ((r = .ok ∧ WellFormed frag) ∨ (r = .errInvalid ∧ ¬ WellFormed frag)) := by
  have hzero : frag.fragmentCount = 0 ↔ frag.fragmentCount.toNat = 0 := by
    rw [← UInt8.toNat_inj]
    rfl
  have hindex : frag.fragmentIndex ≥ (if frag.fragmentCount = 0 then 1 else frag.fragmentCount) ↔
      ¬ frag.fragmentIndex.toNat < max frag.fragmentCount.toNat 1 := by
    rw [ge_iff_le, UInt8.le_iff_toNat_le]
    split
    case isTrue h =>
      have := hzero.mp h
      simp only [UInt8.reduceToNat]
      omega
    case isFalse h =>
      have := mt hzero.mpr h
      omega
  simp only [validateMetadata, ensure_pos hsrc, ok_bind]
  by_cases hi : frag.fragmentIndex.toNat < max frag.fragmentCount.toNat 1
  · rw [if_neg (by rw [hindex]; exact not_not.mpr hi)]
    by_cases hc : frag.fragmentCount.toNat ≤ fragMaxCount
    · rw [if_neg (by omega)]
      by_cases ht : frag.totalPayloadLength.toNat ≤ msgMaxPayloadBytes
      · rw [if_neg (by omega)]
        exact ⟨_, rfl, .inl ⟨rfl, hi, hc, ht⟩⟩
      · rw [if_pos (by omega)]
        exact ⟨_, rfl, .inr ⟨rfl, fun w => ht w.2.2⟩⟩
    · rw [if_pos (by omega)]
      exact ⟨_, rfl, .inr ⟨rfl, fun w => hc w.2.1⟩⟩
  · rw [if_pos (hindex.mpr hi)]
    exact ⟨_, rfl, .inr ⟨rfl, fun w => hi w.1⟩⟩

section Ingest

variable {frag : MessageEnvelope} {nowUs : UInt64}

/-- A well-formed fragment of several goes to the slot of its message. -/
theorem ingest_multi (hsrc : frag.sourceId ≠ 0) (wf : WellFormed frag)
    (several : 1 < frag.fragmentCount.toNat) :
    b.ingest frag nowUs = b.ingestMultifrag frag nowUs := by
  obtain ⟨r, hr, ⟨rfl, -⟩ | ⟨-, hnot⟩⟩ := validateMetadata_eq hsrc
  · simp only [ingest, ensure_pos hsrc, ok_bind, hr, ne_eq, not_true, if_false]
    rw [if_neg]
    rw [UInt8.le_iff_toNat_le]
    simp only [UInt8.reduceToNat]
    omega
  · exact absurd wf hnot

theorem freshSlot_ok (nowUs : UInt64) (hsrc : frag.sourceId ≠ 0) (wf : WellFormed frag)
    (several : 1 < frag.fragmentCount.toNat) (hP : P frag) : (freshSlot frag nowUs).Ok P :=
  ⟨hsrc, several, wf.2.1, wf.2.2, Nat.zero_le _, rfl, hP⟩

private theorem gt_one (several : 1 < frag.fragmentCount.toNat) : frag.fragmentCount > 1 :=
  UInt8.lt_iff_toNat_lt.mpr several

private theorem index_lt (wf : WellFormed frag) (several : 1 < frag.fragmentCount.toNat) :
    frag.fragmentIndex.toNat < fragMaxCount := by
  obtain ⟨hi, hc, -⟩ := wf
  omega

/-- A fragment of a message with an open slot. -/
theorem ingest_found (nowUs : UInt64) (inv : Inv P b) (hsrc : frag.sourceId ≠ 0) (wf : WellFormed frag)
    (several : 1 < frag.fragmentCount.toNat) {i : Fin reassemblySlotCount}
    (hfor : b.slots[i].isFor frag.sourceId frag.messageId)
    (agree : frag.fragmentCount = b.slots[i].expectedCount ∧
      frag.totalPayloadLength = b.slots[i].totalLength) :
    ∃ reply s, b.ingest frag nowUs = .ok (reply, { b with slots := b.slots.set i s i.isLt }) ∧
      Step b.slots[i] frag reply s := by
  have hfound := findOrOpenSlot_found nowUs inv hsrc hfor
  rw [if_pos agree] at hfound
  rw [ingest_multi hsrc wf several]
  exact ingestMultifrag_slot (gt_one several) (index_lt wf several) hfound hfor.1 (inv.ok i hfor.1)

/-- The first fragment of a message, with room for it. -/
theorem ingest_open (nowUs : UInt64) (hsrc : frag.sourceId ≠ 0) (wf : WellFormed frag)
    (several : 1 < frag.fragmentCount.toNat) (hP : P frag)
    (unknown : ∀ i : Fin reassemblySlotCount, ¬ b.slots[i].isFor frag.sourceId frag.messageId)
    (room : b.HasRoom frag.sourceId) :
    ∃ i : Fin reassemblySlotCount, b.slots[i].active = false ∧ ∃ reply s,
      b.ingest frag nowUs = .ok (reply, { b with slots := b.slots.set i s i.isLt }) ∧
        Step (freshSlot frag nowUs) frag reply s := by
  obtain ⟨i, hinactive, hopen⟩ := findOrOpenSlot_open nowUs hsrc wf.2.2 unknown room
  have hread : { b with slots := b.slots.set i (freshSlot frag nowUs) i.isLt }.slots[i] =
      freshSlot frag nowUs := by rw [getElem_set_fin, if_pos rfl]
  obtain ⟨reply, s, hingest, hstep⟩ := ingestMultifrag_slot (P := P) (gt_one several)
    (index_lt wf several) hopen (by rw [hread]; rfl)
    (by rw [hread]; exact freshSlot_ok nowUs hsrc wf several hP)
  rw [hread] at hstep
  refine ⟨i, hinactive, reply, s, ?_, hstep⟩
  rw [ingest_multi hsrc wf several, hingest]
  simp only [Vector.set_set]

/-- The slot a fragment of several goes to, and what it holds before the fragment is recorded. -/
inductive SlotFor (b : ReassemblyBuffer) (frag : MessageEnvelope) (nowUs : UInt64)
    (i : Fin reassemblySlotCount) : ReassemblySlot → Prop where
  | found (mine : b.slots[i].isFor frag.sourceId frag.messageId)
    (agree : frag.fragmentCount = b.slots[i].expectedCount ∧
      frag.totalPayloadLength = b.slots[i].totalLength) : SlotFor b frag nowUs i b.slots[i]
  | opened (inactive : b.slots[i].active = false)
    (unknown : ∀ j : Fin reassemblySlotCount, ¬ b.slots[j].isFor frag.sourceId frag.messageId)
    (room : b.HasRoom frag.sourceId) : SlotFor b frag nowUs i (freshSlot frag nowUs)

/-- Everything a call of `ingest` can do. -/
inductive Ingested (b : ReassemblyBuffer) (frag : MessageEnvelope) (nowUs : UInt64) :
    Reply → ReassemblyBuffer → Prop where
  /-- Malformed, or at odds with the slot of its message. -/
  | invalid : Ingested b frag nowUs (.error .errInvalid) b
  /-- No room for one more message. -/
  | full : Ingested b frag nowUs (.error .errFull) b
  /-- An unfragmented message passes through. -/
  | whole (single : frag.fragmentCount.toNat ≤ 1) : Ingested b frag nowUs (.ok frag) b
  | slot {i : Fin reassemblySlotCount} {s₀ s : ReassemblySlot} {reply : Reply}
    (wf : WellFormed frag) (several : 1 < frag.fragmentCount.toNat) (mine : SlotFor b frag nowUs i s₀)
    (step : Step s₀ frag reply s) :
    Ingested b frag nowUs reply { b with slots := b.slots.set i s i.isLt }

/-- The slot of a fragment carries its key. -/
theorem SlotFor.key {i : Fin reassemblySlotCount} {s₀ : ReassemblySlot} (h : SlotFor b frag nowUs i s₀) :
    s₀.sourceId = frag.sourceId ∧ s₀.messageId = frag.messageId := by
  cases h with
  | found mine _ => exact mine.2
  | opened _ _ _ => exact ⟨rfl, rfl⟩

/-- A step keeps the slot in order, and keeps it for the same message. -/
theorem Step.ok {s₀ s : ReassemblySlot} {reply : Reply} (step : Step s₀ frag reply s)
    (ok : s₀.Ok P) (active : s.active = true) :
    s.Ok P ∧ s.sourceId = s₀.sourceId ∧ s.messageId = s₀.messageId := by
  cases step with
  | repeated marked => exact ⟨ok, rfl, rfl⟩
  | refused _ _ freed =>
    rw [freed] at active
    cases active
  | kept new fits recorded missing =>
    refine ⟨ok.recorded fits recorded, ?_, ?_⟩
    · rw [recorded.fields]
    · rw [recorded.fields]
  | done _ _ _ _ _ _ freed =>
    rw [freed] at active
    cases active

/-- `ingest` never faults, and does one of the listed things. -/
theorem ingest_spec (inv : Inv P b) (nowUs : UInt64) (hsrc : frag.sourceId ≠ 0) (hP : P frag) :
    ∃ reply b', b.ingest frag nowUs = .ok (reply, b') ∧ Ingested b frag nowUs reply b' ∧ Inv P b' := by
  obtain ⟨r, hr, ⟨rfl, wf⟩ | ⟨rfl, hnot⟩⟩ := validateMetadata_eq hsrc
  case inr =>
    refine ⟨.error .errInvalid, b, ?_, .invalid, inv⟩
    simp only [ingest, ensure_pos hsrc, ok_bind, hr, ne_eq, reduceCtorEq, not_false_iff, if_true,
      pure_eq_ok]
  by_cases several : 1 < frag.fragmentCount.toNat
  case neg =>
    refine ⟨.ok frag, b, ?_, .whole (by omega), inv⟩
    simp only [ingest, ensure_pos hsrc, ok_bind, hr, ne_eq, not_true, if_false]
    rw [if_pos]
    · rfl
    · rw [UInt8.le_iff_toNat_le]
      simp only [UInt8.reduceToNat]
      omega
  by_cases known : ∃ i : Fin reassemblySlotCount, b.slots[i].isFor frag.sourceId frag.messageId
  · obtain ⟨i, hfor⟩ := known
    by_cases agree : frag.fragmentCount = b.slots[i].expectedCount ∧
        frag.totalPayloadLength = b.slots[i].totalLength
    · obtain ⟨reply, s, hingest, hstep⟩ := ingest_found nowUs inv hsrc wf several hfor agree
      refine ⟨reply, _, hingest, .slot wf several (.found hfor agree) hstep, inv.set i ?_ ?_⟩
      · intro hactive
        exact (hstep.ok (inv.ok i hfor.1) hactive).1
      · intro hactive j hj
        obtain ⟨-, hs, hm⟩ := hstep.ok (inv.ok i hfor.1) hactive
        rw [hs, hm] at hj
        exact inv.distinct i j hfor.1 hj
    · have hfound := findOrOpenSlot_found nowUs inv hsrc hfor
      rw [if_neg agree] at hfound
      refine ⟨.error .errInvalid, b, ?_, .invalid, inv⟩
      rw [ingest_multi hsrc wf several]
      simp only [ingestMultifrag, ensure_pos (gt_one several), ok_bind, hfound, pure_eq_ok]
  · have unknown : ∀ i : Fin reassemblySlotCount, ¬ b.slots[i].isFor frag.sourceId frag.messageId :=
      fun i hi => known ⟨i, hi⟩
    by_cases room : b.HasRoom frag.sourceId
    · obtain ⟨i, hinactive, reply, s, hingest, hstep⟩ :=
        ingest_open nowUs hsrc wf several hP unknown room
      have hfresh := freshSlot_ok nowUs hsrc wf several hP
      refine ⟨reply, _, hingest, .slot wf several (.opened hinactive unknown room) hstep, inv.set i ?_ ?_⟩
      · intro hactive
        exact (hstep.ok hfresh hactive).1
      · intro hactive j hj
        obtain ⟨-, hs, hm⟩ := hstep.ok hfresh hactive
        rw [hs, hm] at hj
        exact absurd hj (unknown j)
    · refine ⟨.error .errFull, b, ?_, .full, inv⟩
      rw [ingest_multi hsrc wf several]
      simp only [ingestMultifrag, ensure_pos (gt_one several), ok_bind,
        findOrOpenSlot_full nowUs hsrc unknown room, pure_eq_ok]

/-- What `ingest` answers: a message with the fragment's source and a property every fragment
handed in has, or one of the three results the engine expects. -/
theorem Ingested.reply {reply : Reply} (h : Ingested b frag nowUs reply b') (inv : Inv P b)
    (hp : HeaderProperty P) (hP : P frag) (hlen : frag.payloadLength.toNat ≤ msgMaxPayloadBytes) :
    (∃ env, reply = .ok env ∧ P env ∧ env.sourceId = frag.sourceId ∧
      env.payloadLength.toNat ≤ msgMaxPayloadBytes) ∨
    reply = .error .errAgain ∨ reply = .error .errFull ∨ reply = .error .errInvalid := by
  cases h with
  | invalid => exact .inr (.inr (.inr rfl))
  | full => exact .inr (.inr (.inl rfl))
  | whole single => exact .inl ⟨frag, rfl, hP, rfl, hlen⟩
  | slot wf several mine step =>
    rename_i i s₀ s
    cases step with
    | repeated marked => exact .inr (.inl rfl)
    | refused _ _ _ => exact .inr (.inr (.inr rfl))
    | kept _ _ _ _ => exact .inr (.inl rfl)
    | done new fits recorded all bytes assembled freed =>
      rename_i s₁ env
      -- The header is the one of the slot, which came from a fragment of the same source.
      have hslot : P s₀.header ∧ s₀.header.sourceId = frag.sourceId ∧
          s₀.totalLength.toNat ≤ msgMaxPayloadBytes := by
        cases mine with
        | found hfor _ =>
          have ok := inv.ok i hfor.1
          exact ⟨ok.header, ok.headerSource.trans hfor.2.1, ok.total⟩
        | opened _ _ _ => exact ⟨hP, rfl, wf.2.2⟩
      have hhdr : s₁.header = s₀.header := by rw [recorded.fields]
      have htot : s₁.totalLength = s₀.totalLength := by rw [recorded.fields]
      refine .inl ⟨env, rfl, ?_, ?_, ?_⟩
      · rw [assembled.fields, hhdr]
        exact hp.stable _ _ _ _ _ _ hslot.1
      · rw [assembled.fields, hhdr]
        exact hslot.2.1
      · rw [assembled.fields, htot]
        simpa using hslot.2.2

/-- The slots of other messages are not touched. -/
theorem Ingested.frame {reply : Reply} (h : Ingested b frag nowUs reply b')
    {src : NodeId} {msgId : UInt64} (other : ¬ (src = frag.sourceId ∧ msgId = frag.messageId))
    (i : Fin reassemblySlotCount) :
    (b.slots[i].isFor src msgId → b'.slots[i] = b.slots[i]) ∧
      (b'.slots[i].isFor src msgId → b'.slots[i] = b.slots[i]) := by
  cases h with
  | invalid => exact ⟨fun _ => rfl, fun _ => rfl⟩
  | full => exact ⟨fun _ => rfl, fun _ => rfl⟩
  | whole single => exact ⟨fun _ => rfl, fun _ => rfl⟩
  | slot wf several mine step =>
    rename_i k s₀ s
    rw [getElem_set_fin]
    by_cases hki : k = i
    case neg =>
      rw [if_neg hki]
      exact ⟨fun _ => rfl, fun _ => rfl⟩
    subst hki
    rw [if_pos rfl]
    have hkey := mine.key
    constructor
    · intro hfor
      cases mine with
      | found hmine _ => exact absurd ⟨hfor.2.1.symm.trans hmine.2.1, hfor.2.2.symm.trans hmine.2.2⟩ other
      | opened hinactive _ _ =>
        rw [hfor.1] at hinactive
        cases hinactive
    · intro hfor
      have hsame : s.sourceId = s₀.sourceId ∧ s.messageId = s₀.messageId := by
        cases step with
        | repeated _ => exact ⟨rfl, rfl⟩
        | refused _ _ freed =>
          have := hfor.1
          rw [freed] at this
          cases this
        | kept _ _ recorded _ => exact ⟨by rw [recorded.fields], by rw [recorded.fields]⟩
        | done _ _ _ _ _ _ freed =>
          have := hfor.1
          rw [freed] at this
          cases this
      exact absurd ⟨hfor.2.1.symm.trans (hsame.1.trans hkey.1),
        hfor.2.2.symm.trans (hsame.2.trans hkey.2)⟩ other

end Ingest

/-! ## The sweeps -/

/-- A sweep that only frees slots keeps the invariant. -/
theorem Inv.free (inv : Inv P b) {f : ReassemblySlot → ReassemblySlot}
    (hf : ∀ s, f s = s ∨ (f s).active = false) : Inv P { b with slots := b.slots.map f } := by
  have hread (i : Fin reassemblySlotCount) : (b.slots.map f)[i] = f b.slots[i] := by
    simp only [Table.getElem_fin, Vector.getElem_map]
  have hkept (i : Fin reassemblySlotCount) (ha : (f b.slots[i]).active = true) :
      f b.slots[i] = b.slots[i] := by
    rcases hf b.slots[i] with h | h
    · exact h
    · rw [h] at ha
      cases ha
  constructor
  · intro i ha
    simp only [hread] at ha ⊢
    have hi := hkept i ha
    rw [hi] at ha ⊢
    exact inv.ok i ha
  · intro i j ha hj
    simp only [hread] at ha hj
    have hi := hkept i ha
    have hj' := hkept j hj.1
    rw [hi] at ha hj
    rw [hj'] at hj
    exact inv.distinct i j ha hj

theorem sweepExpired_spec (inv : Inv P b) {nowUs : UInt64} (hnow : nowUs > 0) :
    ∃ b', b.sweepExpired nowUs = .ok b' ∧ Inv P b' := by
  refine ⟨_, ensure_bind_eq_ok.mpr ⟨hnow, rfl⟩, inv.free fun s => ?_⟩
  split
  · exact .inr rfl
  · exact .inl rfl

/-- The expiry sweep leaves a slot alone, or frees it because it expired. -/
theorem sweepExpired_slot {nowUs : UInt64} (h : b.sweepExpired nowUs = .ok b')
    (i : Fin reassemblySlotCount) :
    b'.slots[i] = b.slots[i] ∨ (b'.slots[i].active = false ∧ b.slots[i].active = true ∧
      b.slots[i].expiryUs ≠ 0 ∧ b.slots[i].expiryUs ≤ nowUs) := by
  obtain ⟨-, hb⟩ := ensure_bind_eq_ok.mp h
  cases hb
  simp only [Table.getElem_fin, Vector.getElem_map]
  split
  case isTrue hcond => exact .inr ⟨rfl, hcond⟩
  case isFalse _ => exact .inl rfl

/-- The staleness sweep leaves a slot alone, or frees it because it is switched on and the slot has been open
too long. -/
theorem sweepStale_slot (b : ReassemblyBuffer) (nowUs staleThresholdUs : UInt64)
    (i : Fin reassemblySlotCount) :
    (b.sweepStale nowUs staleThresholdUs).2.slots[i] = b.slots[i] ∨
      ((b.sweepStale nowUs staleThresholdUs).2.slots[i].active = false ∧ b.slots[i].active = true ∧
        staleThresholdUs ≠ 0 ∧ b.slots[i].openTimeUs ≤ nowUs ∧
          staleThresholdUs ≤ nowUs - b.slots[i].openTimeUs) := by
  unfold sweepStale
  split
  case isTrue => exact .inl rfl
  case isFalse hon =>
    simp only [Table.getElem_fin, Vector.getElem_map]
    split
    case isTrue hcond =>
      simp only [Bool.and_eq_true, decide_eq_true_eq] at hcond
      exact .inr ⟨rfl, hcond.1, hon, hcond.2⟩
    case isFalse _ => exact .inl rfl

theorem sweepStale_inv (inv : Inv P b) (nowUs staleThresholdUs : UInt64) :
    Inv P (b.sweepStale nowUs staleThresholdUs).2 := by
  unfold sweepStale
  split
  · exact inv
  · refine inv.free fun s => ?_
    split
    · exact .inr rfl
    · exact .inl rfl

end ReassemblyBuffer

end MessageEngine
