import MessageEngine.Core.DeliveryEvent

/-!
# Laws of the identifier generator and the event ring

Neither can fail: the generator never reaches zero, and the positions of the ring stay inside it.
-/

namespace MessageEngine

open Outcome

/-- The identifier is never zero, and neither is the next one. -/
theorem MessageIdGen.take_spec {g : MessageIdGen} (h : g.next ≠ 0) :
    ∃ g', g.take = .ok (g.next, g') ∧ g'.next ≠ 0 := by
  refine ⟨_, ensure_bind_eq_ok.mpr ⟨h, rfl⟩, ?_⟩
  dsimp only
  split
  case isTrue _ => decide
  case isFalse hne => exact hne

namespace DeliveryEventRing

/-- The positions of the ring are inside it. -/
structure Inv (r : DeliveryEventRing) : Prop where
  head : r.head < deliveryEventRingCapacity
  tail : r.tail < deliveryEventRingCapacity
  count : r.count ≤ deliveryEventRingCapacity

variable {r : DeliveryEventRing}

theorem inv_init : Inv init := ⟨by decide, by decide, Nat.zero_le _⟩

theorem push_spec (inv : Inv r) (ev : DeliveryEvent) : ∃ r', r.push ev = .ok r' ∧ Inv r' := by
  refine ⟨_, ensure_bind_eq_ok.mpr ⟨inv.count, dif_pos inv.head⟩, Nat.mod_lt _ (by decide), ?_, ?_⟩
  · dsimp only
    split
    case isTrue _ => exact inv.tail
    case isFalse _ => exact Nat.mod_lt _ (by decide)
  · dsimp only
    split
    case isTrue h => exact h
    case isFalse _ => exact inv.count

theorem pop_spec (inv : Inv r) : ∃ out r', r.pop = .ok (out, r') ∧ Inv r' := by
  have htail : r.tail < deliveryEventRingCapacity := inv.tail
  by_cases hempty : r.count = 0
  · refine ⟨none, r, ensure_bind_eq_ok.mpr ⟨inv.count, ?_⟩, inv⟩
    rw [dif_pos htail, if_pos hempty]
    rfl
  · refine ⟨some r.buf[r.tail],
      { r with tail := (r.tail + 1) % deliveryEventRingCapacity, count := r.count - 1 },
      ensure_bind_eq_ok.mpr ⟨inv.count, ?_⟩, ?_⟩
    · rw [dif_pos htail, if_neg hempty]
      rfl
    · exact ⟨inv.head, Nat.mod_lt _ (by decide), Nat.le_trans (Nat.sub_le _ _) inv.count⟩

theorem size_eq (inv : Inv r) : r.size = .ok r.count :=
  ensure_bind_eq_ok.mpr ⟨inv.count, ensure_bind_eq_ok.mpr ⟨inv.head, rfl⟩⟩

end DeliveryEventRing

end MessageEngine
