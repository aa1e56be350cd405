import MessageEngine.Core.Backend

/-!
# The queue of reconnect notifications

The queue keeps two indices into eight entries and no count, so equal indices have to mean empty: it
holds seven notifications and not eight. A push into a queue of seven is dropped, and nobody is told.

## What is proved

- `push_spec` and `pop_spec`: the queue is a list of at most seven.
-/

namespace MessageEngine

open Outcome

namespace HelloQueue

variable {q q' : HelloQueue} {src : NodeId}

/-- Both indices are inside the array. -/
structure Valid (q : HelloQueue) : Prop where
  read : q.read < maxTcpConnections
  write : q.write < maxTcpConnections

/-- The number of notifications that wait. -/
def size (q : HelloQueue) : Nat := (q.write + maxTcpConnections - q.read) % maxTcpConnections

/-- The notifications that wait, the next one first. -/
def pending (q : HelloQueue) : List NodeId :=
  (List.range q.size).map fun k => q.peers.get ⟨(q.read + k) % maxTcpConnections, Nat.mod_lt _ (by decide)⟩

theorem length_pending (q : HelloQueue) : q.pending.length = q.size := by
  simp [pending]

theorem size_lt (q : HelloQueue) : q.size < maxTcpConnections := Nat.mod_lt _ (by decide)

theorem Valid.init : Valid .init := ⟨by decide, by decide⟩

theorem pending_init : pending .init = [] := rfl

/-- The queue looks full when it holds seven. -/
theorem Valid.full_iff (h : Valid q) : (q.write + 1) % maxTcpConnections = q.read ↔ q.size = 7 := by
  obtain ⟨hread, hwrite⟩ := h
  unfold size
  simp only [maxTcpConnections] at *
  omega

/-- A push appends while fewer than seven wait, and is dropped otherwise. -/
theorem push_spec (h : Valid q) (src : NodeId) :
    ∃ q', q.push src = .ok q' ∧ Valid q' ∧
      q'.pending = if q.pending.length < 7 then q.pending ++ [src] else q.pending := by
  have hsize := size_lt q
  unfold push
  by_cases hfull : (q.write + 1) % maxTcpConnections = q.read
  · have hseven := h.full_iff.mp hfull
    refine ⟨q, ?_, h, ?_⟩
    · simp only [hfull, ne_eq, not_true_eq_false, if_false]
    · rw [length_pending, if_neg (by omega)]
  · have hseven : q.size ≠ 7 := fun heq => hfull (h.full_iff.mpr heq)
    have hroom : q.size < 7 := by
      simp only [maxTcpConnections] at hsize
      omega
    simp only [ne_eq, hfull, not_false_eq_true, if_true, dif_pos h.write]
    refine ⟨_, rfl, ⟨h.read, Nat.mod_lt _ (by decide)⟩, ?_⟩
    rw [length_pending, if_pos hroom]
    have hread : q.read < 8 := h.read
    have hwrite : q.write < 8 := h.write
    have hgrow : size ⟨q.peers.set q.write src, q.read, (q.write + 1) % maxTcpConnections⟩ = q.size + 1 := by
      simp only [size, maxTcpConnections] at hroom ⊢
      omega
    have hlast : (q.read + q.size) % maxTcpConnections = q.write := by
      simp only [size, maxTcpConnections]
      omega
    rw [pending, hgrow, List.range_succ, List.map_append]
    congr 1
    · apply List.map_congr_left
      intro k hk
      rw [List.mem_range] at hk
      have hne : q.write ≠ (q.read + k) % maxTcpConnections := by
        simp only [size, maxTcpConnections] at hk hroom ⊢
        omega
      exact Vector.getElem_set_ne hwrite _ hne
    · simp only [List.map_cons, List.map_nil]
      congr 1
      simp only [hlast]
      exact Vector.getElem_set_self hwrite

/-- A pop takes the first notification, and answers `NODE_ID_INVALID` when there is none. -/
theorem pop_spec (h : Valid q) (site : Site) :
    ∃ src q', q.pop site = .ok (src, q') ∧ Valid q' ∧
      ((q.pending = [] ∧ src = nodeIdInvalid ∧ q' = q) ∨ q.pending = src :: q'.pending) := by
  unfold pop
  simp only [neverCompiledOutAssert, ensure_pos h.read, ensure_pos h.write, ok_bind]
  obtain ⟨hread, hwrite⟩ := h
  by_cases hempty : q.read = q.write
  · rw [if_pos hempty]
    refine ⟨nodeIdInvalid, q, rfl, ⟨hread, hwrite⟩, .inl ⟨?_, rfl, rfl⟩⟩
    apply List.eq_nil_of_length_eq_zero
    rw [length_pending, size]
    simp only [maxTcpConnections] at *
    omega
  · rw [if_neg hempty, dif_pos hread]
    refine ⟨_, _, rfl, ⟨Nat.mod_lt _ (by decide), hwrite⟩, .inr ?_⟩
    have hshrink : q.size = size ⟨q.peers, (q.read + 1) % maxTcpConnections, q.write⟩ + 1 := by
      unfold size
      simp only [maxTcpConnections] at *
      omega
    rw [pending, hshrink, List.range_succ_eq_map, List.map_cons, List.map_map]
    congr 1
    · simp only [Nat.add_zero, Nat.mod_eq_of_lt hread]
      rfl
    · apply List.map_congr_left
      intro k _
      have hslot : (q.read + (k + 1)) % maxTcpConnections =
          ((q.read + 1) % maxTcpConnections + k) % maxTcpConnections := by
        simp only [maxTcpConnections]
        omega
      simp only [Function.comp_apply, Nat.succ_eq_add_one, hslot]

/-- Where the code stands makes no difference to what it returns. -/
theorem pop_site {site : Site} (site' : Site) {r : NodeId × HelloQueue} (h : q.pop site = .ok r) :
    q.pop site' = .ok r := by
  unfold pop at h ⊢
  obtain ⟨hread, h⟩ := ensure_bind_eq_ok.mp h
  obtain ⟨hwrite, h⟩ := ensure_bind_eq_ok.mp h
  simp only [neverCompiledOutAssert, ensure_pos hread, ensure_pos hwrite, ok_bind]
  exact h

end HelloQueue

end MessageEngine
