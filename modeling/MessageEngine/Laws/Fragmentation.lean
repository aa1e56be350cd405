import MessageEngine.Core.Fragmentation
import MessageEngine.Laws.ReassemblyBuffer
import MessageEngine.Lib.Run
import Mathlib.Algebra.BigOperators.Fin
import Mathlib.Algebra.Order.BigOperators.Group.Finset
import Mathlib.Data.Fintype.Powerset

/-!
# Fragmentation and reassembly are inverse

A fragmented message is a finite set of pieces. `Progress` says what the slot of a message knows
when the pieces `seen` have arrived: the mask spells that set, the byte count is its total length
and the bytes of each piece stand at their place. The order of arrival does not occur in it, which
is why the result holds for every order, with repetitions and with other messages in between.

## What is proved

- `fragmentMessage_spec`: the splitter answers the pieces of the message, all of them, in order;
- `Progress.step`: one more piece takes `seen` to `insert k seen`;
- `reassembly_identity`: the whole run.
-/

namespace MessageEngine

open Outcome Table ReassemblyBuffer

/-! ## The pieces of a message -/

/-- The payload bytes of piece `k` of a message of `total` bytes. -/
def pieceLength (total k : Nat) : Nat := min fragMaxPayloadBytes (total - fragMaxPayloadBytes * k)

/-- The number of pieces of a message of `total` bytes. -/
def pieceCount (total : Nat) : Nat := (total + fragMaxPayloadBytes - 1) / fragMaxPayloadBytes

/-- The envelope `frag` is piece `k` of `logical`. -/
structure IsPiece (logical : MessageEnvelope) (k : Nat) (frag : MessageEnvelope) : Prop where
  fields : frag = { logical with
    fragmentIndex := UInt8.ofNat k
    fragmentCount := UInt8.ofNat (pieceCount logical.payloadLength.toNat)
    totalPayloadLength := logical.payloadLength.toUInt16
    payloadLength := UInt32.ofNat (pieceLength logical.payloadLength.toNat k)
    payload := frag.payload }
  bytes : ∀ j, j < pieceLength logical.payloadLength.toNat k →
    frag.payload.toList.getD j 0 = logical.payload.toList.getD (fragMaxPayloadBytes * k + j) 0

/-- The copy of one piece's bytes to the front of its fragment. -/
private theorem piece_copy {logical : MessageEnvelope} (valid : envelopeValid logical) (index : Nat) :
    ∃ out : Vector UInt8 msgMaxPayloadBytes,
      (if pieceLength logical.payloadLength.toNat index > 0 then
          memcpy logical.payload 0 logical.payload
            (min logical.payloadLength.toNat (fragMaxPayloadBytes * index))
            (pieceLength logical.payloadLength.toNat index)
        else pure logical.payload) = .ok out ∧
      ∀ j, j < pieceLength logical.payloadLength.toNat index →
        out.toList.getD j 0 = logical.payload.toList.getD (fragMaxPayloadBytes * index + j) 0 := by
  have hsmall : logical.payloadLength.toNat ≤ 4096 := valid.2.1
  unfold pieceLength fragMaxPayloadBytes
  by_cases hpos : min 1024 (logical.payloadLength.toNat - 1024 * index) > 0
  · obtain ⟨out, hout, hread⟩ := memcpy_eq_ok logical.payload logical.payload
      (show 0 + min 1024 (logical.payloadLength.toNat - 1024 * index) ≤ 4096 by omega)
      (show min logical.payloadLength.toNat (1024 * index) +
        min 1024 (logical.payloadLength.toNat - 1024 * index) ≤ 4096 by omega)
    refine ⟨out, by rw [if_pos hpos]; exact hout, ?_⟩
    intro j hj
    have hoff : min logical.payloadLength.toNat (1024 * index) = 1024 * index := by omega
    have hlen : ∀ v : Vector UInt8 4096, v.toList.length = 4096 := fun v => by simp
    rw [List.getD_eq_getElem?_getD, List.getD_eq_getElem?_getD,
      List.getElem?_eq_getElem (show j < out.toList.length by rw [hlen out]; omega),
      List.getElem?_eq_getElem (show 1024 * index + j < logical.payload.toList.length by
        rw [hlen logical.payload]; omega), Option.getD_some, Option.getD_some,
      Vector.getElem_toList, Vector.getElem_toList, hread j (show j < 4096 by omega),
      dif_pos ⟨Nat.zero_le j, by omega⟩]
    simp only [hoff, Nat.sub_zero]
    rfl
  · exact ⟨_, by rw [if_neg hpos]; rfl, fun j hj => by omega⟩

/-- The loop cuts the remaining pieces, one after the other. -/
theorem fragmentMessage_loop {logical : MessageEnvelope} (valid : envelopeValid logical) :
    ∀ left index : Nat, ∃ frags,
      fragmentMessage.loop logical (pieceCount logical.payloadLength.toNat) left index
          (min logical.payloadLength.toNat (fragMaxPayloadBytes * index)) =
        .ok (frags, min logical.payloadLength.toNat (fragMaxPayloadBytes * (index + left))) ∧
      frags.length = left ∧
      ∀ (k : Nat) (hk : k < frags.length), IsPiece logical (index + k) (frags.get ⟨k, hk⟩) := by
  intro left
  induction left with
  | zero => exact fun index => ⟨[], rfl, rfl, fun k hk => absurd hk (Nat.not_lt_zero k)⟩
  | succ left ih =>
    intro index
    obtain ⟨rest, hloop, hlen, hpieces⟩ := ih (index + 1)
    obtain ⟨out, hout, hbytes⟩ := piece_copy valid index
    have hpiece : (if logical.payloadLength.toNat -
          min logical.payloadLength.toNat (fragMaxPayloadBytes * index) > fragMaxPayloadBytes then
        fragMaxPayloadBytes
      else logical.payloadLength.toNat -
        min logical.payloadLength.toNat (fragMaxPayloadBytes * index)) =
        pieceLength logical.payloadLength.toNat index := by
      unfold pieceLength
      split
      · omega
      · omega
    have hoffset : min logical.payloadLength.toNat (fragMaxPayloadBytes * index) +
        pieceLength logical.payloadLength.toNat index =
        min logical.payloadLength.toNat (fragMaxPayloadBytes * (index + 1)) := by
      unfold pieceLength fragMaxPayloadBytes
      omega
    simp only [fragmentMessage.loop, hpiece]
    rw [ite_bind, hout, ok_bind, hoffset, hloop, ok_bind, Nat.add_assoc index 1 left,
      Nat.add_comm 1 left]
    refine ⟨_, rfl, by rw [List.length_cons, hlen], ?_⟩
    intro k hk
    cases k with
    | zero => exact ⟨rfl, hbytes⟩
    | succ k =>
      have hnext := hpieces k (by simpa using hk)
      rw [Nat.add_assoc, Nat.add_comm 1 k] at hnext
      exact hnext

/-- The splitter answers all the pieces of a message that needs splitting. -/
theorem fragmentMessage_spec {logical : MessageEnvelope} (valid : envelopeValid logical)
    (large : fragMaxPayloadBytes < logical.payloadLength.toNat) :
    ∃ frags, fragmentMessage logical = .ok frags ∧
      frags.length = pieceCount logical.payloadLength.toNat ∧
      ∀ (k : Nat) (hk : k < frags.length), IsPiece logical k (frags.get ⟨k, hk⟩) := by
  have hsmall : logical.payloadLength.toNat ≤ 4096 := valid.2.1
  have hlarge : 1024 < logical.payloadLength.toNat := large
  have hne : logical.payloadLength ≠ 0 := by
    intro h
    rw [h] at hlarge
    simp at hlarge
  obtain ⟨frags, hloop, hlen, hpieces⟩ :=
    fragmentMessage_loop valid (pieceCount logical.payloadLength.toNat) 0
  have hcount : 1 ≤ pieceCount logical.payloadLength.toNat ∧
      pieceCount logical.payloadLength.toNat ≤ fragMaxCount := by
    unfold pieceCount fragMaxPayloadBytes fragMaxCount
    omega
  have hend : min logical.payloadLength.toNat
      (fragMaxPayloadBytes * (0 + pieceCount logical.payloadLength.toNat)) =
      logical.payloadLength.toNat := by
    unfold pieceCount fragMaxPayloadBytes
    omega
  rw [Nat.mul_zero, Nat.min_zero, hend] at hloop
  refine ⟨frags, ?_, hlen, fun k hk => by simpa using hpieces k hk⟩
  unfold fragmentMessage
  rw [if_neg (by unfold msgMaxPayloadBytes; omega), if_neg hne]
  change (neverCompiledOutAssert _ (pieceCount logical.payloadLength.toNat ≥ 1) >>= fun _ => _) = _
  refine ensure_bind_eq_ok.mpr ⟨hcount.1, ensure_bind_eq_ok.mpr ⟨hcount.2, ?_⟩⟩
  change (fragmentMessage.loop logical (pieceCount logical.payloadLength.toNat)
    (pieceCount logical.payloadLength.toNat) 0 0 >>= fun _ => _) = _
  rw [hloop, ok_bind]
  exact ensure_bind_eq_ok.mpr ⟨rfl, rfl⟩

/-! ## The pieces that have arrived -/

/-- The mask that marks the pieces in `seen`. -/
def maskOf (seen : Finset (Fin fragMaxCount)) : UInt32 := UInt32.ofNat (∑ k ∈ seen, 2 ^ (k : Nat))

/-- All the pieces of a message of `n` pieces. -/
def allPieces (n : Nat) : Finset (Fin fragMaxCount) := Finset.univ.filter fun k => (k : Nat) < n

theorem mem_allPieces {n : Nat} {k : Fin fragMaxCount} : k ∈ allPieces n ↔ (k : Nat) < n := by
  simp [allPieces]

theorem maskOf_bit : ∀ (seen : Finset (Fin fragMaxCount)) (k : Fin fragMaxCount),
    maskOf seen &&& fragmentBit (UInt8.ofNat k) = 0 ↔ k ∉ seen := by
  decide +kernel

theorem maskOf_insert : ∀ (seen : Finset (Fin fragMaxCount)) (k : Fin fragMaxCount),
    maskOf seen ||| fragmentBit (UInt8.ofNat k) = maskOf (insert k seen) := by
  decide +kernel

theorem complete_maskOf : ∀ (seen : Finset (Fin fragMaxCount)) (n : Fin (fragMaxCount + 1)),
    seen ⊆ allPieces n → (complete (maskOf seen) (UInt8.ofNat n) = true ↔ seen = allPieces n) := by
  decide +kernel

/-- All the pieces together are the whole payload. -/
theorem sum_allPieces {total : Nat} (small : total ≤ msgMaxPayloadBytes) :
    ∑ k ∈ allPieces (pieceCount total), pieceLength total k = total := by
  have hsmall : total ≤ 4096 := small
  -- A piece past the last one has no bytes.
  have hterm (k : Fin fragMaxCount) :
      (if (k : Nat) < pieceCount total then pieceLength total k else 0) = pieceLength total k := by
    unfold pieceCount pieceLength fragMaxPayloadBytes
    split
    · rfl
    · omega
  rw [allPieces, Finset.sum_filter, Finset.sum_congr rfl fun k _ => hterm k, Fin.sum_univ_four]
  change pieceLength total 0 + pieceLength total 1 + pieceLength total 2 + pieceLength total 3 = total
  unfold pieceLength fragMaxPayloadBytes
  omega

/-- What the slot `s` of the message `logical` knows once the pieces `seen` have arrived. -/
structure Progress (logical : MessageEnvelope) (seen : Finset (Fin fragMaxCount))
    (s : ReassemblySlot) : Prop where
  mine : s.isFor logical.sourceId logical.messageId
  count : s.expectedCount = UInt8.ofNat (pieceCount logical.payloadLength.toNat)
  total : s.totalLength = logical.payloadLength.toUInt16
  header : ∃ k, IsPiece logical k s.header
  below : seen ⊆ allPieces (pieceCount logical.payloadLength.toNat)
  mask : s.receivedMask = maskOf seen
  bytes : s.receivedBytes = ∑ k ∈ seen, pieceLength logical.payloadLength.toNat k
  content : ∀ k ∈ seen, ∀ j, j < pieceLength logical.payloadLength.toNat k →
    s.buf.toList.getD (fragMaxPayloadBytes * k + j) 0 =
      logical.payload.toList.getD (fragMaxPayloadBytes * k + j) 0

section Progress

variable {logical frag : MessageEnvelope} {seen : Finset (Fin fragMaxCount)} {s s' : ReassemblySlot}
  {k : Fin fragMaxCount}

theorem IsPiece.index (piece : IsPiece logical k frag) : frag.fragmentIndex = UInt8.ofNat k := by
  rw [piece.fields]

theorem IsPiece.index_toNat (piece : IsPiece logical k frag) : frag.fragmentIndex.toNat = k := by
  have hk : (k : Nat) < 4 := k.isLt
  rw [piece.index, UInt8.toNat_ofNat']
  omega

theorem IsPiece.length (piece : IsPiece logical k frag) :
    frag.payloadLength.toNat = pieceLength logical.payloadLength.toNat k := by
  rw [piece.fields]
  change (UInt32.ofNat (pieceLength logical.payloadLength.toNat k)).toNat = _
  rw [UInt32.toNat_ofNat']
  unfold pieceLength fragMaxPayloadBytes
  omega

theorem IsPiece.place (piece : IsPiece logical k frag) : place frag = fragMaxPayloadBytes * k := by
  rw [ReassemblyBuffer.place, piece.index_toNat, Nat.mul_comm]

/-- The pieces that have arrived, with one more, are at most the whole payload. -/
theorem sum_insert_le (small : logical.payloadLength.toNat ≤ msgMaxPayloadBytes)
    (below : insert k seen ⊆ allPieces (pieceCount logical.payloadLength.toNat)) :
    ∑ m ∈ insert k seen, pieceLength logical.payloadLength.toNat m ≤ logical.payloadLength.toNat := by
  calc ∑ m ∈ insert k seen, pieceLength logical.payloadLength.toNat m
      ≤ ∑ m ∈ allPieces (pieceCount logical.payloadLength.toNat),
          pieceLength logical.payloadLength.toNat m := Finset.sum_le_sum_of_subset below
    _ = logical.payloadLength.toNat := sum_allPieces small

/-- A piece of the message fits its slot. -/
theorem Progress.fits (pr : Progress logical seen s) (piece : IsPiece logical k frag)
    (small : logical.payloadLength.toNat ≤ msgMaxPayloadBytes)
    (hk : (k : Nat) < pieceCount logical.payloadLength.toNat) (new : k ∉ seen) : Fits s frag := by
  have hbelow : insert k seen ⊆ allPieces (pieceCount logical.payloadLength.toNat) := by
    exact Finset.insert_subset (mem_allPieces.mpr hk) pr.below
  have hsum := sum_insert_le small hbelow
  rw [Finset.sum_insert new] at hsum
  constructor
  · rw [piece.place, piece.length]
    unfold pieceLength pieceCount fragMaxPayloadBytes at *
    omega
  · rw [piece.length, pr.bytes]
    omega

/-- Recording a new piece. -/
theorem Progress.record (pr : Progress logical seen s) (piece : IsPiece logical k frag)
    (hk : (k : Nat) < pieceCount logical.payloadLength.toNat) (new : k ∉ seen)
    (r : Recorded s frag s') : Progress logical (insert k seen) s' := by
  have hbelow : insert k seen ⊆ allPieces (pieceCount logical.payloadLength.toNat) := by
    exact Finset.insert_subset (mem_allPieces.mpr hk) pr.below
  have hlen (v : Vector UInt8 msgMaxPayloadBytes) : v.toList.length = msgMaxPayloadBytes := by simp
  refine ⟨?_, ?_, ?_, ?_, hbelow, ?_, ?_, ?_⟩
  · rw [r.fields]
    exact pr.mine
  · rw [r.fields]
    exact pr.count
  · rw [r.fields]
    exact pr.total
  · rw [r.fields]
    exact pr.header
  · rw [r.fields]
    change s.receivedMask ||| fragmentBit frag.fragmentIndex = _
    rw [pr.mask, piece.index, maskOf_insert]
  · rw [r.fields]
    change s.receivedBytes + frag.payloadLength.toNat = _
    rw [pr.bytes, piece.length, Finset.sum_insert new, Nat.add_comm]
  · intro m hm j hj
    have hmsmall : fragMaxPayloadBytes * m + j < msgMaxPayloadBytes := by
      have := m.isLt
      unfold pieceLength fragMaxPayloadBytes fragMaxCount msgMaxPayloadBytes at *
      omega
    have hread (v : Vector UInt8 msgMaxPayloadBytes) :
        v.toList.getD (fragMaxPayloadBytes * m + j) 0 = v[fragMaxPayloadBytes * m + j] := by
      rw [List.getD_eq_getElem?_getD, List.getElem?_eq_getElem (by rw [hlen]; exact hmsmall),
        Option.getD_some, Vector.getElem_toList]
    rw [hread s'.buf]
    by_cases hmk : m = k
    · subst hmk
      rw [r.inside _ hmsmall (by rw [piece.place]; omega)
        (by rw [piece.place, piece.length]; omega), piece.place, Nat.add_sub_cancel_left]
      exact piece.bytes j hj
    · -- Pieces of different index lie apart.
      have hne : (m : Nat) ≠ k := fun h => hmk (Fin.ext h)
      rw [r.outside _ hmsmall, ← hread s.buf]
      · exact pr.content m ((Finset.mem_insert.mp hm).resolve_left hmk) j hj
      · rw [piece.place, piece.length]
        unfold pieceLength fragMaxPayloadBytes at *
        omega

/-- The slot of a message is complete exactly when all its pieces have arrived. -/
theorem Progress.complete_iff (pr : Progress logical seen s)
    (small : logical.payloadLength.toNat ≤ msgMaxPayloadBytes) :
    complete s.receivedMask s.expectedCount = true ↔
      seen = allPieces (pieceCount logical.payloadLength.toNat) := by
  have hsmall : logical.payloadLength.toNat ≤ 4096 := small
  have hcount : pieceCount logical.payloadLength.toNat < fragMaxCount + 1 := by
    unfold pieceCount fragMaxPayloadBytes fragMaxCount
    omega
  rw [pr.mask, pr.count]
  exact complete_maskOf seen ⟨_, hcount⟩ pr.below

/-- The total length survives its sixteen-bit field. -/
theorem total_toNat (small : logical.payloadLength.toNat ≤ msgMaxPayloadBytes) :
    logical.payloadLength.toUInt16.toNat = logical.payloadLength.toNat := by
  have hsmall : logical.payloadLength.toNat ≤ 4096 := small
  rw [UInt32.toNat_toUInt16]
  omega

/-- The message that comes back: the original with the fragment fields of an unfragmented message,
its payload bytes in use unchanged. -/
def Restored (logical env : MessageEnvelope) : Prop :=
  env = { logical with
    fragmentIndex := 0, fragmentCount := 1
    totalPayloadLength := logical.payloadLength.toUInt16, payload := env.payload } ∧
  env.payload.toList.take logical.payloadLength.toNat =
    logical.payload.toList.take logical.payloadLength.toNat

/-- The message a complete slot stands for is the original. -/
theorem Progress.restored {env : MessageEnvelope}
    (pr : Progress logical (allPieces (pieceCount logical.payloadLength.toNat)) s)
    (small : logical.payloadLength.toNat ≤ msgMaxPayloadBytes) (a : Assembled s env) :
    Restored logical env := by
  have hsmall : logical.payloadLength.toNat ≤ 4096 := small
  obtain ⟨k, piece⟩ := pr.header
  have hpl : s.totalLength.toUInt32 = logical.payloadLength := by
    apply UInt32.toNat_inj.mp
    rw [UInt16.toNat_toUInt32, pr.total, total_toNat small]
  constructor
  · rw [a.fields, piece.fields, hpl, pr.total]
  · have hlen (v : Vector UInt8 msgMaxPayloadBytes) : v.toList.length = msgMaxPayloadBytes := by simp
    apply List.ext_getElem
    · rw [List.length_take, List.length_take, hlen, hlen]
    · intro j hj hj'
      rw [List.length_take, hlen] at hj
      have hjt : j < logical.payloadLength.toNat := by omega
      have hjm : j < msgMaxPayloadBytes := by omega
      -- Byte `j` belongs to piece `j / 1024`.
      have hpiece : j / 1024 < fragMaxCount := by unfold fragMaxCount; omega
      have hcontent := pr.content ⟨j / 1024, hpiece⟩
        (mem_allPieces.mpr (by
          unfold pieceCount fragMaxPayloadBytes
          simp only
          omega))
        (j % 1024)
        (by
          unfold pieceLength fragMaxPayloadBytes
          simp only
          omega)
      have hj1024 : fragMaxPayloadBytes * (j / 1024) + j % 1024 = j := Nat.div_add_mod j 1024
      simp only [hj1024] at hcontent
      have hread (v : Vector UInt8 msgMaxPayloadBytes) : v.toList.getD j 0 = v[j] := by
        rw [List.getD_eq_getElem?_getD, List.getElem?_eq_getElem (by rw [hlen]; exact hjm),
          Option.getD_some, Vector.getElem_toList]
      rw [hread, hread] at hcontent
      rw [List.getElem_take, List.getElem_take, Vector.getElem_toList, Vector.getElem_toList,
        a.bytes j hjm (by rw [pr.total, total_toNat small]; exact hjt), hcontent]

/-- What one more piece does to the slot of its message. -/
theorem Progress.step {reply : Reply} (pr : Progress logical seen s) (piece : IsPiece logical k frag)
    (small : logical.payloadLength.toNat ≤ msgMaxPayloadBytes)
    (hk : (k : Nat) < pieceCount logical.payloadLength.toNat) (step : Step s frag reply s') :
    (insert k seen ≠ allPieces (pieceCount logical.payloadLength.toNat) →
      reply = .error .errAgain ∧ Progress logical (insert k seen) s') ∧
    (k ∉ seen → insert k seen = allPieces (pieceCount logical.payloadLength.toNat) →
      ∃ env, reply = .ok env ∧ Restored logical env) := by
  have hbit : s.receivedMask &&& fragmentBit frag.fragmentIndex = 0 ↔ k ∉ seen := by
    rw [pr.mask, piece.index]
    exact maskOf_bit seen k
  cases step with
  | repeated marked =>
    have hmem : k ∈ seen := by
      by_contra hnot
      exact marked (hbit.mpr hnot)
    rw [Finset.insert_eq_of_mem hmem]
    exact ⟨fun _ => ⟨rfl, pr⟩, fun hnot => absurd hmem hnot⟩
  | refused new wrong freed =>
    have hnot := hbit.mp new
    obtain ⟨hall, hbytes⟩ := wrong (pr.fits piece small hk hnot)
    exfalso
    apply hbytes
    have hinsert : insert k seen = allPieces (pieceCount logical.payloadLength.toNat) := by
      have hsmall : logical.payloadLength.toNat ≤ 4096 := small
      have hcount : pieceCount logical.payloadLength.toNat < fragMaxCount + 1 := by
        unfold pieceCount fragMaxPayloadBytes fragMaxCount
        omega
      rw [pr.mask, piece.index, maskOf_insert, pr.count] at hall
      exact (complete_maskOf (insert k seen) ⟨_, hcount⟩
        (Finset.insert_subset (mem_allPieces.mpr hk) pr.below)).mp hall
    calc s.receivedBytes + frag.payloadLength.toNat
        = ∑ m ∈ insert k seen, pieceLength logical.payloadLength.toNat m := by
          rw [pr.bytes, piece.length, Finset.sum_insert hnot, Nat.add_comm]
      _ = logical.payloadLength.toNat := by rw [hinsert, sum_allPieces small]
      _ = s.totalLength.toNat := by rw [pr.total, total_toNat small]
  | kept new fits recorded missing =>
    have hnext := pr.record piece hk (hbit.mp new) recorded
    exact ⟨fun _ => ⟨rfl, hnext⟩, fun _ hall => absurd ((hnext.complete_iff small).mpr hall) missing⟩
  | done new fits recorded all bytes assembled freed =>
    have hnext := pr.record piece hk (hbit.mp new) recorded
    have hall := (hnext.complete_iff small).mp all
    refine ⟨fun hne => absurd hall hne, fun _ _ => ⟨_, rfl, ?_⟩⟩
    rw [hall] at hnext
    exact hnext.restored small assembled

end Progress

/-! ## Runs of the reassembly buffer -/

/-- The calls that change a reassembly buffer. -/
inductive Arrival where
  | ingest (frag : MessageEnvelope) (nowUs : UInt64)
  | sweepExpired (nowUs : UInt64)
  | sweepStale (nowUs staleThresholdUs : UInt64)

/-- Run one call; an `ingest` has an answer. -/
def Arrival.apply (a : Arrival) (b : ReassemblyBuffer) : Checked (Option Reply × ReassemblyBuffer) :=
  match a with
  | .ingest frag nowUs => do
    let (reply, b) ← b.ingest frag nowUs
    pure (some reply, b)
  | .sweepExpired nowUs => do
    let b ← b.sweepExpired nowUs
    pure (none, b)
  | .sweepStale nowUs staleThresholdUs => pure (none, (b.sweepStale nowUs staleThresholdUs).2)

/-- The fragment carries the key of `logical`. -/
def SameKey (logical frag : MessageEnvelope) : Prop :=
  frag.sourceId = logical.sourceId ∧ frag.messageId = logical.messageId

instance (logical frag : MessageEnvelope) : Decidable (SameKey logical frag) :=
  inferInstanceAs (Decidable (_ ∧ _))

instance (s : ReassemblySlot) (src : NodeId) (msgId : UInt64) : Decidable (s.isFor src msgId) :=
  inferInstanceAs (Decidable (_ ∧ _ ∧ _))

/-- What the calls around a message must leave it: every fragment has a source, the first one of the
message finds room, and a sweep leaves its slot open. -/
def Arrival.Admissible (logical : MessageEnvelope) (b : ReassemblyBuffer) : Arrival → Prop
  | .ingest frag _ => frag.sourceId ≠ 0 ∧ (SameKey logical frag →
    (∃ i : Fin reassemblySlotCount, b.slots[i].isFor logical.sourceId logical.messageId) ∨
      b.HasRoom logical.sourceId)
  | .sweepExpired nowUs => nowUs > 0 ∧ ∀ i : Fin reassemblySlotCount,
    b.slots[i].isFor logical.sourceId logical.messageId →
      ¬ (b.slots[i].expiryUs ≠ 0 ∧ b.slots[i].expiryUs ≤ nowUs)
  | .sweepStale nowUs staleThresholdUs => ∀ i : Fin reassemblySlotCount,
    b.slots[i].isFor logical.sourceId logical.messageId →
      ¬ (staleThresholdUs ≠ 0 ∧ b.slots[i].openTimeUs ≤ nowUs ∧
        staleThresholdUs ≤ nowUs - b.slots[i].openTimeUs)

instance (logical : MessageEnvelope) (b : ReassemblyBuffer) :
    (a : Arrival) → Decidable (a.Admissible logical b)
  | .ingest _ _ => inferInstanceAs (Decidable (_ ∧ (_ → _)))
  | .sweepExpired _ => inferInstanceAs (Decidable (_ ∧ _))
  | .sweepStale _ _ => inferInstanceAs (Decidable (∀ _, _))

/-- The buffer holds the pieces `seen` of `logical`, and nothing of it before the first. -/
structure Tracks (logical : MessageEnvelope) (seen : Finset (Fin fragMaxCount))
    (b : ReassemblyBuffer) : Prop where
  inv : b.Inv fun _ => True
  slot : (seen = ∅ ∧ ∀ i : Fin reassemblySlotCount,
      ¬ b.slots[i].isFor logical.sourceId logical.messageId) ∨
    ∃ i : Fin reassemblySlotCount, Progress logical seen b.slots[i]

section Run

variable {logical frag : MessageEnvelope} {seen : Finset (Fin fragMaxCount)} {b b' : ReassemblyBuffer}

/-- A call that leaves the slot of the message alone, and opens none for it. -/
theorem Tracks.frame (tracks : Tracks logical seen b) (inv : b'.Inv fun _ => True)
    (kept : ∀ i : Fin reassemblySlotCount, b.slots[i].isFor logical.sourceId logical.messageId →
      b'.slots[i] = b.slots[i])
    (unopened : ∀ i : Fin reassemblySlotCount, b'.slots[i].isFor logical.sourceId logical.messageId →
      b'.slots[i] = b.slots[i]) : Tracks logical seen b' := by
  refine ⟨inv, ?_⟩
  rcases tracks.slot with ⟨rfl, hnone⟩ | ⟨i, pr⟩
  · refine .inl ⟨rfl, fun i hi => hnone i ?_⟩
    rw [← unopened i hi]
    exact hi
  · exact .inr ⟨i, by rw [kept i pr.mine]; exact pr⟩

/-- The buffer invariant along any call that returns. -/
theorem Arrival.inv {a : Arrival} {o : Option Reply} (inv : b.Inv fun _ => True)
    (h : a.apply b = .ok (o, b')) : b'.Inv fun _ => True := by
  cases a with
  | ingest frag nowUs =>
    obtain ⟨⟨reply, b₁⟩, hin, hout⟩ := bind_eq_ok.mp h
    cases hout
    have hsrc : frag.sourceId ≠ 0 := (ensure_bind_eq_ok.mp hin).1
    obtain ⟨reply', b₂, hspec, -, hinv⟩ := ingest_spec inv nowUs hsrc trivial
    rw [hspec] at hin
    cases hin
    exact hinv
  | sweepExpired nowUs =>
    obtain ⟨b₁, hin, hout⟩ := bind_eq_ok.mp h
    cases hout
    have hnow : nowUs > 0 := (ensure_bind_eq_ok.mp hin).1
    obtain ⟨b₂, hspec, hinv⟩ := sweepExpired_spec inv hnow
    rw [hspec] at hin
    cases hin
    exact hinv
  | sweepStale nowUs staleThresholdUs =>
    cases h
    exact sweepStale_inv inv nowUs staleThresholdUs

/-- The first piece of a message, in the slot just opened for it. -/
theorem progress_freshSlot {k : Fin fragMaxCount} (piece : IsPiece logical k frag) (nowUs : UInt64) :
    Progress logical ∅ (freshSlot frag nowUs) where
  mine := by
    rw [piece.fields]
    exact ⟨rfl, rfl, rfl⟩
  count := by
    rw [piece.fields]
    rfl
  total := by
    rw [piece.fields]
    rfl
  header := ⟨k, piece⟩
  below := Finset.empty_subset _
  mask := rfl
  bytes := rfl
  content := fun m hm => absurd hm (Finset.notMem_empty m)

/-- The pieces of a large message are several, and well formed. -/
theorem IsPiece.wellFormed {k : Fin fragMaxCount} (piece : IsPiece logical k frag)
    (small : logical.payloadLength.toNat ≤ msgMaxPayloadBytes)
    (large : fragMaxPayloadBytes < logical.payloadLength.toNat)
    (hk : (k : Nat) < pieceCount logical.payloadLength.toNat) :
    WellFormed frag ∧ 1 < frag.fragmentCount.toNat := by
  have hsmall : logical.payloadLength.toNat ≤ 4096 := small
  have hlarge : 1024 < logical.payloadLength.toNat := large
  have hcount : frag.fragmentCount.toNat = pieceCount logical.payloadLength.toNat := by
    rw [piece.fields]
    change (UInt8.ofNat (pieceCount logical.payloadLength.toNat)).toNat = _
    rw [UInt8.toNat_ofNat']
    unfold pieceCount fragMaxPayloadBytes
    omega
  have htotal : frag.totalPayloadLength = logical.payloadLength.toUInt16 := by rw [piece.fields]
  rw [WellFormed, hcount, piece.index_toNat, htotal, total_toNat small]
  unfold pieceCount fragMaxPayloadBytes fragMaxCount at *
  exact ⟨⟨by omega, by omega, small⟩, by omega⟩

/-- One of the message's own fragments: it joins the pieces seen. -/
theorem Tracks.ingest_own {k : Fin fragMaxCount} (tracks : Tracks logical seen b) (nowUs : UInt64)
    (valid : envelopeValid logical) (large : fragMaxPayloadBytes < logical.payloadLength.toNat)
    (piece : IsPiece logical k frag) (hk : (k : Nat) < pieceCount logical.payloadLength.toNat)
    (room : (∃ i : Fin reassemblySlotCount, b.slots[i].isFor logical.sourceId logical.messageId) ∨
      b.HasRoom logical.sourceId) :
    ∃ reply b', b.ingest frag nowUs = .ok (reply, b') ∧
      (insert k seen ≠ allPieces (pieceCount logical.payloadLength.toNat) →
        reply = .error .errAgain ∧ Tracks logical (insert k seen) b') ∧
      (k ∉ seen → insert k seen = allPieces (pieceCount logical.payloadLength.toNat) →
        ∃ env, reply = .ok env ∧ Restored logical env) := by
  have small := valid.2.1
  obtain ⟨wf, several⟩ := piece.wellFormed small large hk
  have hsource : frag.sourceId = logical.sourceId := by rw [piece.fields]
  have hid : frag.messageId = logical.messageId := by rw [piece.fields]
  have hsrc : frag.sourceId ≠ 0 := by
    rw [hsource]
    exact valid.2.2
  obtain ⟨reply₀, b₀, hspec, -, hinv⟩ := ingest_spec tracks.inv nowUs hsrc trivial
  have hread (i : Fin reassemblySlotCount) (s : ReassemblySlot) :
      { b with slots := b.slots.set i s i.isLt }.slots[i] = s := by rw [getElem_set_fin, if_pos rfl]
  rcases tracks.slot with ⟨rfl, hnone⟩ | ⟨i, pr⟩
  · have unknown : ∀ i : Fin reassemblySlotCount,
        ¬ b.slots[i].isFor frag.sourceId frag.messageId := by
      rw [hsource, hid]
      exact hnone
    have hroom : b.HasRoom frag.sourceId := by
      rw [hsource]
      exact room.resolve_left fun ⟨i, hi⟩ => hnone i hi
    obtain ⟨i, -, reply, s, hingest, hstep⟩ :=
      ingest_open (P := fun _ => True) nowUs hsrc wf several trivial unknown hroom
    rw [hspec] at hingest
    cases hingest
    obtain ⟨hmore, hlast⟩ := (progress_freshSlot piece nowUs).step piece small hk hstep
    refine ⟨_, _, hspec, fun hne => ?_, hlast⟩
    obtain ⟨hreply, hpr⟩ := hmore hne
    exact ⟨hreply, hinv, .inr ⟨i, by rw [hread]; exact hpr⟩⟩
  · have hfor : b.slots[i].isFor frag.sourceId frag.messageId := by
      rw [hsource, hid]
      exact pr.mine
    have agree : frag.fragmentCount = b.slots[i].expectedCount ∧
        frag.totalPayloadLength = b.slots[i].totalLength := by
      rw [pr.count, pr.total, piece.fields]
      exact ⟨rfl, rfl⟩
    obtain ⟨reply, s, hingest, hstep⟩ := ingest_found nowUs tracks.inv hsrc wf several hfor agree
    rw [hspec] at hingest
    cases hingest
    obtain ⟨hmore, hlast⟩ := pr.step piece small hk hstep
    refine ⟨_, _, hspec, fun hne => ?_, hlast⟩
    obtain ⟨hreply, hpr⟩ := hmore hne
    exact ⟨hreply, hinv, .inr ⟨i, by rw [hread]; exact hpr⟩⟩

/-- Any other call: the pieces seen stay as they are. -/
theorem Tracks.other {a : Arrival} (tracks : Tracks logical seen b)
    (admissible : a.Admissible logical b)
    (other : ∀ frag nowUs, a = .ingest frag nowUs → ¬ SameKey logical frag) :
    ∃ o b', a.apply b = .ok (o, b') ∧ Tracks logical seen b' := by
  cases a with
  | ingest frag nowUs =>
    obtain ⟨reply, b', hspec, hdid, hinv⟩ := ingest_spec tracks.inv nowUs admissible.1 trivial
    have hother : ¬ (logical.sourceId = frag.sourceId ∧ logical.messageId = frag.messageId) :=
      fun h => other frag nowUs rfl ⟨h.1.symm, h.2.symm⟩
    refine ⟨some reply, b', ?_, tracks.frame hinv ?_ ?_⟩
    · simp only [Arrival.apply, hspec, ok_bind, pure_eq_ok]
    · exact fun i => (hdid.frame hother i).1
    · exact fun i => (hdid.frame hother i).2
  | sweepExpired nowUs =>
    obtain ⟨hnow, hkept⟩ := admissible
    obtain ⟨b', hspec, hinv⟩ := sweepExpired_spec tracks.inv hnow
    refine ⟨none, b', ?_, tracks.frame hinv ?_ ?_⟩
    · simp only [Arrival.apply, hspec, ok_bind, pure_eq_ok]
    · intro i hi
      rcases sweepExpired_slot hspec i with h | ⟨-, -, hexp⟩
      · exact h
      · exact absurd hexp (hkept i hi)
    · intro i hi
      rcases sweepExpired_slot hspec i with h | ⟨hfreed, -⟩
      · exact h
      · rw [hi.1] at hfreed
        cases hfreed
  | sweepStale nowUs staleThresholdUs =>
    refine ⟨none, _, rfl, tracks.frame (sweepStale_inv tracks.inv nowUs staleThresholdUs) ?_ ?_⟩
    · intro i hi
      rcases sweepStale_slot b nowUs staleThresholdUs i with h | ⟨-, -, hstale⟩
      · exact h
      · exact absurd hstale (admissible i hi)
    · intro i hi
      rcases sweepStale_slot b nowUs staleThresholdUs i with h | ⟨hfreed, -⟩
      · exact h
      · rw [hi.1] at hfreed
        cases hfreed

/-- A run that does not contain the piece `last`: the pieces that arrived are tracked, and every
one of them is answered `ERR_AGAIN`. -/
theorem Tracks.run {last : Fin fragMaxCount} {lastFrag : MessageEnvelope}
    {frags : List MessageEnvelope} (valid : envelopeValid logical) (large : fragMaxPayloadBytes < logical.payloadLength.toNat)
    (hlast : (last : Nat) < pieceCount logical.payloadLength.toNat)
    (pieces : ∀ f ∈ frags, ∃ k : Fin fragMaxCount,
      (k : Nat) < pieceCount logical.payloadLength.toNat ∧ IsPiece logical k f)
    (unique : ∀ f ∈ frags, IsPiece logical last f → f = lastFrag)
    (arrivals : List Arrival)
    (own : ∀ f nowUs, .ingest f nowUs ∈ arrivals → SameKey logical f → f ∈ frags)
    (missing : ∀ nowUs, .ingest lastFrag nowUs ∉ arrivals) :
    ∀ (b : ReassemblyBuffer) (seen : Finset (Fin fragMaxCount)), Tracks logical seen b → last ∉ seen →
      Run.Along Arrival.apply (fun b a => a.Admissible logical b) arrivals b →
      ∃ outs b' seen', Run.runAll Arrival.apply arrivals b = .ok (outs, b') ∧
        Tracks logical seen' b' ∧ seen ⊆ seen' ∧ last ∉ seen' ∧
        (∀ f nowUs, .ingest f nowUs ∈ arrivals → SameKey logical f →
          ∀ k : Fin fragMaxCount, IsPiece logical k f → k ∈ seen') ∧
        ∀ f nowUs o, (.ingest f nowUs, o) ∈ arrivals.zip outs → SameKey logical f →
          o = some (.error .errAgain) := by
  induction arrivals with
  | nil =>
    intro b seen tracks hnot _
    exact ⟨[], b, seen, rfl, tracks, Finset.Subset.refl _, hnot, by simp, by simp⟩
  | cons a arrivals ih =>
    intro b seen tracks hnot along
    obtain ⟨hadm, hrest⟩ := Run.along_cons.mp along
    -- The step: what is seen after it, and what it answers.
    have hstep : ∃ o b₁ seen₁, a.apply b = .ok (o, b₁) ∧ Tracks logical seen₁ b₁ ∧ seen ⊆ seen₁ ∧
        last ∉ seen₁ ∧ ∀ f nowUs, a = .ingest f nowUs → SameKey logical f →
          (∀ k : Fin fragMaxCount, IsPiece logical k f → k ∈ seen₁) ∧ o = some (.error .errAgain) := by
      by_cases hown : ∃ f nowUs, a = .ingest f nowUs ∧ SameKey logical f
      · obtain ⟨f, nowUs, rfl, hkey⟩ := hown
        have hmem := own f nowUs (List.mem_cons_self ..) hkey
        have hroom := hadm.2 hkey
        obtain ⟨k, hk, piece⟩ := pieces f hmem
        have hne : last ≠ k := by
          rintro rfl
          apply missing nowUs
          rw [unique f hmem piece]
          exact List.mem_cons_self ..
        have hinc : insert k seen ≠ allPieces (pieceCount logical.payloadLength.toNat) := by
          intro h
          have hin : last ∈ insert k seen := by
            rw [h]
            exact mem_allPieces.mpr hlast
          exact hnot ((Finset.mem_insert.mp hin).resolve_left hne)
        obtain ⟨reply, b₁, hingest, hmore, -⟩ := tracks.ingest_own nowUs valid large piece hk hroom
        obtain ⟨rfl, htracks⟩ := hmore hinc
        refine ⟨some (.error .errAgain), b₁, insert k seen, ?_, htracks, Finset.subset_insert k seen,
          ?_, ?_⟩
        · simp only [Arrival.apply, hingest, ok_bind, pure_eq_ok]
        · intro h
          exact hnot ((Finset.mem_insert.mp h).resolve_left hne)
        · intro f' nowUs' heq _
          cases heq
          refine ⟨fun m hm => ?_, rfl⟩
          have hmk : m = k := Fin.ext (hm.index_toNat.symm.trans piece.index_toNat)
          rw [hmk]
          exact Finset.mem_insert_self k seen
      · have hother : ∀ f nowUs, a = .ingest f nowUs → ¬ SameKey logical f :=
          fun f nowUs ha hkey => hown ⟨f, nowUs, ha, hkey⟩
        obtain ⟨o, b₁, happly, htracks⟩ := tracks.other hadm hother
        exact ⟨o, b₁, seen, happly, htracks, Finset.Subset.refl _, hnot,
          fun f nowUs ha hkey => absurd hkey (hother f nowUs ha)⟩
    obtain ⟨o, b₁, seen₁, happly, htracks, hsub, hnot₁, hmine⟩ := hstep
    obtain ⟨outs, b', seen', hrun, htr, hsub', hnot', hseen, hout⟩ :=
      ih (fun f nowUs hf => own f nowUs (List.mem_cons_of_mem _ hf))
        (fun nowUs hf => missing nowUs (List.mem_cons_of_mem _ hf)) b₁ seen₁ htracks hnot₁
        (hrest o b₁ happly)
    refine ⟨o :: outs, b', seen', ?_, htr, hsub.trans hsub', hnot', ?_, ?_⟩
    · simp only [Run.runAll, happly, ok_bind, hrun, pure_eq_ok]
    · intro f nowUs hf hkey k piece
      rcases List.mem_cons.mp hf with hf | hf
      · exact hsub' ((hmine f nowUs hf.symm hkey).1 k piece)
      · exact hseen f nowUs hf hkey k piece
    · intro f nowUs o' ho hkey
      rw [List.zip_cons_cons, List.mem_cons] at ho
      rcases ho with ho | ho
      · cases ho
        exact (hmine f nowUs rfl hkey).2
      · exact hout f nowUs o' ho hkey

/-- Fragmentation and reassembly are inverse, in any order of arrival, with repetitions, and with
the fragments of other messages and sweeps in between. -/
theorem reassembly_identity (logical : MessageEnvelope) (valid : envelopeValid logical)
    (large : fragMaxPayloadBytes < logical.payloadLength.toNat) :
    ∃ frags, fragmentMessage logical = .ok frags ∧
      ∀ (before : List Arrival) (outs₀ : List (Option Reply)) (b : ReassemblyBuffer),
        Run.runAll Arrival.apply before ReassemblyBuffer.init = .ok (outs₀, b) →
        (∀ i : Fin reassemblySlotCount, ¬ b.slots[i].isFor logical.sourceId logical.messageId) →
        ∀ (arrivals : List Arrival) (last : MessageEnvelope) (nowUs : UInt64),
          Run.Along Arrival.apply (fun b a => a.Admissible logical b) arrivals b →
          (∀ f t, .ingest f t ∈ arrivals → SameKey logical f → f ∈ frags) →
          last ∈ frags → (∀ t, .ingest last t ∉ arrivals) →
          (∀ f ∈ frags, f ≠ last → ∃ t, .ingest f t ∈ arrivals) →
          ∃ outs b', Run.runAll Arrival.apply arrivals b = .ok (outs, b') ∧
            (∀ f t o, (.ingest f t, o) ∈ arrivals.zip outs → SameKey logical f →
              o = some (.error .errAgain)) ∧
            ∃ env b'', b'.ingest last nowUs = .ok (.ok env, b'') ∧ Restored logical env := by
  obtain ⟨frags, hsplit, hlen, hpieces⟩ := fragmentMessage_spec valid large
  have small := valid.2.1
  have hsmall : logical.payloadLength.toNat ≤ 4096 := small
  have hlarge : 1024 < logical.payloadLength.toNat := large
  have hcount : 2 ≤ pieceCount logical.payloadLength.toNat ∧
      pieceCount logical.payloadLength.toNat ≤ fragMaxCount := by
    unfold pieceCount fragMaxPayloadBytes fragMaxCount
    omega
  have pieces : ∀ f ∈ frags, ∃ k : Fin fragMaxCount,
      (k : Nat) < pieceCount logical.payloadLength.toNat ∧ IsPiece logical k f := by
    intro f hf
    obtain ⟨⟨k, hk⟩, rfl⟩ := List.get_of_mem hf
    exact ⟨⟨k, by omega⟩, by rw [← hlen]; exact hk, hpieces k hk⟩
  -- A fragment is known by its index.
  have unique : ∀ (k : Fin fragMaxCount), ∀ f ∈ frags, ∀ g ∈ frags, IsPiece logical k f →
      IsPiece logical k g → f = g := by
    intro k f hf g hg pf pg
    obtain ⟨⟨m, hm⟩, rfl⟩ := List.get_of_mem hf
    obtain ⟨⟨n, hn⟩, rfl⟩ := List.get_of_mem hg
    have hmk := IsPiece.index_toNat (k := ⟨m, by omega⟩) (hpieces m hm)
    have hnk := IsPiece.index_toNat (k := ⟨n, by omega⟩) (hpieces n hn)
    have hmn : m = n := by
      rw [pf.index_toNat] at hmk
      rw [pg.index_toNat] at hnk
      exact hmk.symm.trans hnk
    subst hmn
    rfl
  refine ⟨frags, hsplit, ?_⟩
  intro before outs₀ b reached fresh arrivals last nowUs along own hmem hnew hothers
  have hinv : b.Inv fun _ => True := by
    exact Run.runAll_inv (fun a _ s o s' hs h => Arrival.inv hs h) inv_init reached
  obtain ⟨k, hk, piece⟩ := pieces last hmem
  obtain ⟨outs, b', seen', hrun, htracks, -, hnot, hseen, hout⟩ :=
    Tracks.run valid large hk pieces (fun f hf pf => unique k f hf last hmem pf piece) arrivals
      own hnew b ∅ ⟨hinv, .inl ⟨rfl, fresh⟩⟩ (Finset.notMem_empty k) along
  refine ⟨outs, b', hrun, hout, ?_⟩
  -- Every other piece has been seen.
  have hothers' : ∀ m : Fin fragMaxCount, (m : Nat) < pieceCount logical.payloadLength.toNat →
      m ≠ k → m ∈ seen' := by
    intro m hm hmk
    have hml : (m : Nat) < frags.length := by rw [hlen]; exact hm
    have pm := hpieces m hml
    have hne : frags.get ⟨m, hml⟩ ≠ last := by
      intro h
      rw [h] at pm
      exact hmk (Fin.ext (pm.index_toNat.symm.trans piece.index_toNat))
    obtain ⟨t, ht⟩ := hothers _ (List.get_mem frags ⟨m, hml⟩) hne
    refine hseen _ t ht ?_ m pm
    rw [pm.fields]
    exact ⟨rfl, rfl⟩
  obtain ⟨i, pr⟩ : ∃ i : Fin reassemblySlotCount, Progress logical seen' b'.slots[i] := by
    refine htracks.slot.resolve_left fun ⟨hempty, _⟩ => ?_
    have hzero : (⟨0, by decide⟩ : Fin fragMaxCount) = k := by
      by_contra hne
      have := hothers' ⟨0, by decide⟩ (by simp only; omega) hne
      rw [hempty] at this
      exact Finset.notMem_empty _ this
    have hone := hothers' ⟨1, by decide⟩ (by simp only; omega) (by rw [← hzero]; decide)
    rw [hempty] at hone
    exact Finset.notMem_empty _ hone
  have hall : insert k seen' = allPieces (pieceCount logical.payloadLength.toNat) := by
    apply Finset.Subset.antisymm
    · exact Finset.insert_subset (mem_allPieces.mpr hk) pr.below
    · intro m hm
      by_cases hmk : m = k
      · rw [hmk]
        exact Finset.mem_insert_self k seen'
      · exact Finset.mem_insert_of_mem (hothers' m (mem_allPieces.mp hm) hmk)
  obtain ⟨reply, b'', hingest, -, hdone⟩ :=
    htracks.ingest_own nowUs valid large piece hk (.inl ⟨i, pr.mine⟩)
  obtain ⟨env, rfl, hrestored⟩ := hdone hnot hall
  exact ⟨env, b'', hingest, hrestored⟩

/-- A message one byte too large for a single fragment. -/
def wideMessage : MessageEnvelope :=
  { envelopeInit with
    messageType := .data, messageId := 3, sourceId := 1, destinationId := 2, payloadLength := 1025 }

def wideFragments : List MessageEnvelope :=
  match fragmentMessage wideMessage with
  | .ok frags => frags
  | .error _ => []

def wideFragment (k : Nat) : MessageEnvelope := wideFragments.getD k envelopeInit

/-- The second fragment twice, with a fragment of another message and sweeps in between; the last of them is
switched off. -/
def wideArrivals : List Arrival :=
  [.ingest (wideFragment 1) 5, .ingest { wideFragment 1 with messageId := 4 } 5, .sweepExpired 6,
    .sweepStale 6 100, .sweepStale 9 0, .ingest (wideFragment 1) 7]

theorem reassembly_identity_wide :
    ∃ outs b', Run.runAll Arrival.apply wideArrivals ReassemblyBuffer.init = .ok (outs, b') ∧
      ∃ env b'', b'.ingest (wideFragment 0) 8 = .ok (.ok env, b'') ∧ Restored wideMessage env := by
  obtain ⟨frags, hsplit, hrun⟩ := reassembly_identity wideMessage (by decide +kernel) (by decide +kernel)
  have hfrags : frags = wideFragments := by
    rw [wideFragments, hsplit]
  subst hfrags
  have hlen : wideFragments.length = 2 := by decide +kernel
  have hlist : wideFragments = [wideFragment 0, wideFragment 1] := by
    obtain ⟨f, g, hfg⟩ := List.length_eq_two.mp hlen
    simp [wideFragment, hfg]
  have hindex : (wideFragment 0).fragmentIndex ≠ (wideFragment 1).fragmentIndex := by decide +kernel
  have hne : wideFragment 0 ≠ wideFragment 1 := fun h => hindex (by rw [← h])
  have hne' : wideFragment 0 ≠ { wideFragment 1 with messageId := 4 } := fun h => hindex (by rw [h])
  obtain ⟨outs, b', hall, -, hdone⟩ := hrun [] [] ReassemblyBuffer.init rfl (by decide +kernel)
    wideArrivals (wideFragment 0) 8 (by decide +kernel)
    (by
      intro f t ht hkey
      simp only [wideArrivals, List.mem_cons, Arrival.ingest.injEq, reduceCtorEq, List.not_mem_nil,
        false_or, or_false] at ht
      rw [hlist]
      rcases ht with ⟨rfl, -⟩ | ⟨rfl, -⟩ | ⟨rfl, -⟩
      · simp
      · exact absurd hkey.2 (by decide +kernel)
      · simp)
    (by rw [hlist]; simp)
    (by
      intro t ht
      simp only [wideArrivals, List.mem_cons, Arrival.ingest.injEq, hne, hne', reduceCtorEq,
        List.not_mem_nil, false_and, or_false] at ht)
    (by
      intro f hf hflast
      rw [hlist] at hf
      rcases List.mem_cons.mp hf with rfl | hf
      · exact absurd rfl hflast
      · rw [List.mem_singleton.mp hf]
        exact ⟨5, List.mem_cons_self ..⟩)
  exact ⟨outs, b', hall, hdone⟩

end Run

end MessageEngine
