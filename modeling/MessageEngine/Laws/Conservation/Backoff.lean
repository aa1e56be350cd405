import MessageEngine.Laws.Conservation.RetryManager

/-!
# The spacing of retries

A message that was scheduled sits in one slot until a collection frees it. Followed through any
sequence of collections, its entry is what the times at which it was sent again make of it. The
interval after the `k`-th sending is the `k`-fold doubling of the first backoff, at most a minute and
at least a millisecond.

## What is proved

- `Booking.entry_backoff`: the closed form of the iterated doubling.
- `retries_spaced`: the times at which a message is sent again keep that spacing, and a collection
  with room for it sends it exactly when the spacing, its retries and its expiry allow. The first
  sending waits for the time the message was scheduled with.
- `early_collection_waits`: a collection before that time sends nothing.
-/

namespace MessageEngine

open Outcome Table

/-- The interval after the `k`-th sending, in milliseconds. -/
def spacing (backoffMs k : Nat) : Nat :=
  min 60000 (if backoffMs = 0 then 2 ^ (k - 1) else backoffMs * 2 ^ k)

theorem spacing_le (backoffMs k : Nat) : spacing backoffMs k ≤ 60000 := Nat.min_le_left _ _

theorem nextBackoff_toNat {currentMs : UInt32} (h : currentMs.toNat ≤ 60000) :
    (nextBackoff currentMs).toNat = if currentMs.toNat = 0 then 1 else min 60000 (2 * currentMs.toNat) := by
  let capped : UInt32 := if currentMs > 30000 then 30000 else currentMs
  have hcapped : capped.toNat = min 30000 currentMs.toNat := by
    unfold capped
    split
    case isTrue hgt =>
      have hlt := UInt32.lt_iff_toNat_lt.mp hgt
      change 30000 < currentMs.toNat at hlt
      change 30000 = _
      omega
    case isFalse hle =>
      have hnat := UInt32.le_iff_toNat_le.mp (UInt32.not_lt.mp hle)
      change currentMs.toNat ≤ 30000 at hnat
      omega
  have hdoubled : (capped * 2).toNat = 2 * min 30000 currentMs.toNat := by
    rw [UInt32.toNat_mul, hcapped]
    change min 30000 currentMs.toNat * 2 % 4294967296 = _
    omega
  have hzero : capped * 2 = 0 ↔ currentMs.toNat = 0 := by
    rw [← UInt32.toNat_inj, hdoubled]
    change 2 * min 30000 currentMs.toNat = 0 ↔ _
    omega
  change (if capped * 2 = 0 then (1 : UInt32) else capped * 2).toNat = _
  by_cases hnone : currentMs.toNat = 0
  · rw [if_pos (hzero.mpr hnone), if_pos hnone]
    rfl
  · rw [if_neg (mt hzero.mp hnone), if_neg hnone, hdoubled]
    omega

namespace RetryManager

/-- The backoff of an entry that was sent again: the closed form of the iterated doubling. -/
theorem Booking.entry_backoff (b : Booking) (h : b.backoffMs ≤ 60000) (times : List UInt64) :
    (b.entry times).backoffMs.toNat =
      if times.length = 0 then b.backoffMs.toNat else spacing b.backoffMs.toNat times.length := by
  have hfirst : b.backoffMs.toNat ≤ 60000 := UInt32.le_iff_toNat_le.mp h
  induction times using List.reverseRecOn with
  | nil => rfl
  | append_singleton times timeUs ih =>
    have hbefore : (b.entry times).backoffMs.toNat ≤ 60000 := by
      rw [ih]
      split
      · exact hfirst
      · exact spacing_le _ _
    rw [b.entry_append, List.length_append, List.length_singleton, if_neg (Nat.succ_ne_zero _)]
    change (nextBackoff (b.entry times).backoffMs).toNat = _
    rw [nextBackoff_toNat hbefore, ih]
    by_cases hnone : times.length = 0
    · rw [if_pos hnone, hnone, spacing]
      by_cases hzero : b.backoffMs.toNat = 0
      · rw [if_pos hzero, if_pos hzero]
        rfl
      · rw [if_neg hzero, if_neg hzero]
        omega
    · rw [if_neg hnone]
      have hpow : 2 ^ (times.length + 1) = 2 * 2 ^ times.length := Nat.pow_succ'
      have hpos : 0 < 2 ^ times.length := Nat.two_pow_pos _
      unfold spacing
      by_cases hzero : b.backoffMs.toNat = 0
      · obtain ⟨k, hk⟩ := Nat.exists_eq_succ_of_ne_zero hnone
        have hhalf : 2 ^ times.length = 2 * 2 ^ k := by rw [hk, Nat.pow_succ']
        have hposk : 0 < 2 ^ k := Nat.two_pow_pos _
        rw [if_pos hzero, if_pos hzero, hk, Nat.succ_sub_one, Nat.succ_eq_add_one, Nat.add_sub_cancel, Nat.pow_succ',
          if_neg (by omega)]
        omega
      · rw [if_neg hzero, if_neg hzero, hpow, if_neg]
        · rw [Nat.mul_left_comm]
          omega
        · have := Nat.mul_pos (Nat.pos_of_ne_zero hzero) hpos
          omega

/-! ## When a message is due -/

/-- The times before which the longest interval can be added. -/
def horizonUs : Nat := 2 ^ 64 - 60000000

/-- The next sending is allowed at `timeUs`: the first one from the time of scheduling on, each other one
an interval after the last. -/
def Booking.Due (b : Booking) (times : List UInt64) (timeUs : UInt64) : Prop :=
  match times.getLast? with
  | none => b.nowUs ≤ timeUs
  | some last => last.toNat + 1000 * spacing b.backoffMs.toNat times.length ≤ timeUs.toNat

/-- Each sending but the first comes an interval after the one before. -/
def Spaced (backoffMs : Nat) (times : List UInt64) : Prop :=
  ∀ k last next, times[k]? = some last → times[k + 1]? = some next →
    last.toNat + 1000 * spacing backoffMs (k + 1) ≤ next.toNat

theorem Spaced.snoc {backoffMs : Nat} {times : List UInt64} {timeUs : UInt64} (h : Spaced backoffMs times)
    (hlast : ∀ last, times.getLast? = some last →
      last.toNat + 1000 * spacing backoffMs times.length ≤ timeUs.toNat) :
    Spaced backoffMs (times ++ [timeUs]) := by
  intro k last next hk hnext
  have hlt : k + 1 < (times ++ [timeUs]).length := (List.getElem?_eq_some_iff.mp hnext).1
  rw [List.length_append, List.length_singleton] at hlt
  rw [List.getElem?_append_left (by omega)] at hk
  by_cases hend : k + 1 = times.length
  · rw [List.getElem?_append_right (by omega), hend, Nat.sub_self] at hnext
    cases hnext
    rw [hend]
    apply hlast
    rw [List.getLast?_eq_getElem?, ← hend, Nat.add_sub_cancel]
    exact hk
  · rw [List.getElem?_append_left (by omega)] at hnext
    exact h k last next hk hnext

/-- The entry is due exactly when the spacing allows it. -/
theorem Booking.entry_due (b : Booking) (hbackoff : b.backoffMs ≤ 60000) {times : List UInt64}
    (hbefore : ∀ t ∈ times, t.toNat < horizonUs) (timeUs : UInt64) :
    (b.entry times).nextRetryUs ≤ timeUs ↔ b.Due times timeUs := by
  rcases List.eq_nil_or_concat times with rfl | ⟨init, last, rfl⟩
  · rfl
  · rw [List.concat_eq_append] at hbefore ⊢
    have hlast := hbefore last (List.mem_append_right _ (List.mem_singleton_self last))
    have hinterval := b.entry_backoff hbackoff (init ++ [last])
    rw [if_neg (by simp)] at hinterval
    have hle := spacing_le b.backoffMs.toNat (init ++ [last]).length
    rw [b.entry_append] at hinterval ⊢
    change (nextBackoff (b.entry init).backoffMs).toNat = _ at hinterval
    change last + (nextBackoff (b.entry init).backoffMs).toUInt64 * 1000 ≤ timeUs ↔ _
    have hnext : (last + (nextBackoff (b.entry init).backoffMs).toUInt64 * 1000).toNat =
        last.toNat + 1000 * spacing b.backoffMs.toNat (init ++ [last]).length := by
      rw [UInt64.toNat_add, UInt64.toNat_mul, UInt32.toNat_toUInt64, hinterval]
      change (last.toNat + spacing _ _ * 1000 % 2 ^ 64) % 2 ^ 64 = _
      unfold horizonUs at hlast
      omega
    rw [UInt64.le_iff_toNat_le, hnext, Booking.Due, List.getLast?_append]
    rfl

/-- The entry is sent again exactly when its expiry, its retries and the spacing allow it. -/
theorem Booking.entry_ripe (b : Booking) (hbackoff : b.backoffMs ≤ 60000) {times : List UInt64}
    (hbudget : times.length ≤ b.maxRetries.toNat) (hbefore : ∀ t ∈ times, t.toNat < horizonUs) (timeUs : UInt64) :
    (b.entry times).ripe timeUs = true ↔ timestampExpired b.env.expiryTimeUs timeUs = false ∧
      times.length < b.maxRetries.toNat ∧ b.Due times timeUs := by
  obtain ⟨-, hmax, hexpiry, hactive, hcount⟩ := b.entry_fields times
  have hsmall : times.length < 2 ^ 32 := Nat.lt_of_le_of_lt hbudget b.maxRetries.toNat_lt
  have hleft : UInt32.ofNat times.length < b.maxRetries ↔ times.length < b.maxRetries.toNat := by
    rw [UInt32.lt_iff_toNat_lt, UInt32.toNat_ofNat', Nat.mod_eq_of_lt hsmall]
  rw [RetryEntry.ripe_iff, hactive, hexpiry, hcount, hmax, hleft, b.entry_due hbackoff hbefore]
  simp

/-! ## The life of an entry -/

/-- The collection sends the entry of slot `i` again. -/
def Step.sends (i : Fin ackTrackerCapacity) (s : Step) : Prop :=
  match s.input with
  | .collectDue _ bufCap => i ∈ s.before.chosen s.timeUs bufCap
  | _ => False

instance (i : Fin ackTrackerCapacity) (s : Step) : Decidable (s.sends i) := by
  unfold Step.sends
  split
  · infer_instance
  · infer_instance

/-- The effective times at which the entry of slot `i` was sent again. -/
def slotTimes (i : Fin ackTrackerCapacity) (past : List Step) : List UInt64 :=
  past.flatMap fun s => if s.sends i then [s.timeUs] else []

theorem slotTimes_append (i : Fin ackTrackerCapacity) (past : List Step) (s : Step) :
    slotTimes i (past ++ [s]) = slotTimes i past ++ if s.sends i then [s.timeUs] else [] := by
  simp [slotTimes]

variable {m m' : RetryManager} {b : Booking} {i : Fin ackTrackerCapacity} {past : List Step}

/-- The entry of slot `i` after the collections `past`: as the times it was sent again make it, or freed
because it expired or used up its retries. -/
structure Life (b : Booking) (i : Fin ackTrackerCapacity) (past : List Step) (m : RetryManager) : Prop where
  clock : m.lastCollectUs.toNat < horizonUs
  before : ∀ t ∈ slotTimes i past, t ≤ m.lastCollectUs
  entry : m.slots[i] = b.entry (slotTimes i past) ∨
    m.slots[i].active = false ∧ (timestampExpired b.env.expiryTimeUs m.lastCollectUs = true ∨
      b.maxRetries.toNat ≤ (slotTimes i past).length)
  budget : (slotTimes i past).length ≤ b.maxRetries.toNat
  spaced : Spaced b.backoffMs.toNat (slotTimes i past)

theorem Life.early (h : Life b i past m) (t : UInt64) (ht : t ∈ slotTimes i past) : t.toNat < horizonUs :=
  Nat.lt_of_le_of_lt (UInt64.le_iff_toNat_le.mp (h.before t ht)) h.clock

theorem timestampExpired_mono {expiryUs t t' : UInt64} (h : timestampExpired expiryUs t = true) (hle : t ≤ t') :
    timestampExpired expiryUs t' = true := by
  simp only [timestampExpired, Bool.and_eq_true, decide_eq_true_eq] at h ⊢
  exact ⟨h.1, UInt64.le_trans h.2 hle⟩

/-- The entry is ripe at a later time exactly when its expiry, its retries and the spacing allow it. -/
theorem Life.ripe_iff (h : Life b i past m) (hbackoff : b.backoffMs ≤ 60000) {timeUs : UInt64}
    (hlater : m.lastCollectUs ≤ timeUs) :
    m.slots[i].ripe timeUs = true ↔ timestampExpired b.env.expiryTimeUs timeUs = false ∧
      (slotTimes i past).length < b.maxRetries.toNat ∧ b.Due (slotTimes i past) timeUs := by
  rcases h.entry with hentry | ⟨hinactive, hwhy⟩
  · rw [hentry]
    exact b.entry_ripe hbackoff h.budget h.early timeUs
  · constructor
    · intro hripe
      rw [(RetryEntry.ripe_iff.mp hripe).1] at hinactive
      cases hinactive
    · intro hallowed
      obtain ⟨hunexpired, hleft, -⟩ := hallowed
      rcases hwhy with hexpired | hspent
      · rw [timestampExpired_mono hexpired hlater] at hunexpired
        cases hunexpired
      · omega

/-- What the first phase of a collection makes of the entry. -/
theorem Life.reaped (h : Life b i past m) {timeUs : UInt64} (hlater : m.lastCollectUs ≤ timeUs) :
    m.slots[i].reaped timeUs = b.entry (slotTimes i past) ∨
      (m.slots[i].reaped timeUs).active = false ∧ (timestampExpired b.env.expiryTimeUs timeUs = true ∨
        b.maxRetries.toNat ≤ (slotTimes i past).length) := by
  obtain ⟨-, hmax, hexpiry, -, hcount⟩ := b.entry_fields (slotTimes i past)
  have hsmall : (slotTimes i past).length < 2 ^ 32 := Nat.lt_of_le_of_lt h.budget b.maxRetries.toNat_lt
  rcases h.entry with hentry | ⟨hinactive, hwhy⟩
  · rw [hentry]
    unfold RetryEntry.reaped
    split
    case isTrue hover =>
      refine .inr ⟨rfl, ?_⟩
      rw [Bool.or_eq_true, RetryEntry.lapsed, RetryEntry.spent, hexpiry, hcount, hmax] at hover
      simp only [Bool.and_eq_true, decide_eq_true_eq] at hover
      rcases hover with hlapsed | hspent
      · exact .inl hlapsed.2
      · have hle := UInt32.le_iff_toNat_le.mp hspent.2.2
        rw [UInt32.toNat_ofNat', Nat.mod_eq_of_lt hsmall] at hle
        exact .inr hle
    case isFalse _ => exact .inl rfl
  · obtain ⟨hlapsed, hspent⟩ := @RetryEntry.of_inactive timeUs _ hinactive
    have hsame : m.slots[i].reaped timeUs = m.slots[i] := by
      rw [RetryEntry.reaped, hlapsed, hspent]
      rfl
    rw [hsame]
    exact .inr ⟨hinactive, hwhy.imp_left fun hexpired => timestampExpired_mono hexpired hlater⟩

theorem collectTime_ge (m : RetryManager) (nowUs : UInt64) : m.lastCollectUs ≤ m.collectTime nowUs := by
  unfold collectTime
  split
  case isTrue _ => exact UInt64.le_refl _
  case isFalse h => exact UInt64.not_lt.mp h

theorem collectTime_early {nowUs : UInt64} (hclock : m.lastCollectUs.toNat < horizonUs)
    (hnow : nowUs.toNat < horizonUs) : (m.collectTime nowUs).toNat < horizonUs := by
  unfold collectTime
  split
  · exact hclock
  · exact hnow

/-- One collection in the life of an entry. -/
theorem Life.collects (h : Life b i past m) (hbackoff : b.backoffMs ≤ 60000) {nowUs : UInt64} {bufCap : Nat}
    {out : List MessageEnvelope} (hnow : nowUs.toNat < horizonUs)
    (hout : Collects m (m.collectTime nowUs) bufCap m' out) :
    Life b i (past ++ [⟨m, .collectDue nowUs bufCap, .collected out, m'⟩]) m' := by
  let timeUs := m.collectTime nowUs
  have hlater : m.lastCollectUs ≤ timeUs := m.collectTime_ge nowUs
  have hripe := h.ripe_iff hbackoff hlater
  have hsends : Step.sends i ⟨m, .collectDue nowUs bufCap, .collected out, m'⟩ ↔ i ∈ m.chosen timeUs bufCap := Iff.rfl
  have hclock : m'.lastCollectUs.toNat < horizonUs := by
    rw [hout.clock]
    exact collectTime_early h.clock hnow
  by_cases hsent : i ∈ m.chosen timeUs bufCap
  · have htimes : slotTimes i (past ++ [⟨m, .collectDue nowUs bufCap, .collected out, m'⟩]) =
        slotTimes i past ++ [timeUs] := by
      rw [slotTimes_append, if_pos (hsends.mpr hsent)]
      rfl
    have hactive := (RetryEntry.ripe_iff.mp (mem_chosen hsent)).1
    obtain ⟨-, hleft, hdue⟩ := hripe.mp (mem_chosen hsent)
    have hentry : m.slots[i] = b.entry (slotTimes i past) := by
      rcases h.entry with hentry | ⟨hinactive, -⟩
      · exact hentry
      · rw [hactive] at hinactive
        cases hinactive
    refine ⟨hclock, fun t ht => ?_, .inl ?_, ?_, ?_⟩
    · rw [htimes, List.mem_append, List.mem_singleton] at ht
      rw [hout.clock]
      rcases ht with hold | rfl
      · exact UInt64.le_trans (h.before t hold) hlater
      · exact UInt64.le_refl _
    · rw [htimes, b.entry_append, ← hentry, hout.slots i, if_pos hsent]
    · rw [htimes, List.length_append, List.length_singleton]
      exact hleft
    · rw [htimes]
      apply h.spaced.snoc
      intro last hlast
      rw [Booking.Due, hlast] at hdue
      exact hdue
  · have htimes : slotTimes i (past ++ [⟨m, .collectDue nowUs bufCap, .collected out, m'⟩]) = slotTimes i past := by
      rw [slotTimes_append, if_neg (mt hsends.mp hsent), List.append_nil]
    refine ⟨hclock, fun t ht => ?_, ?_, ?_, ?_⟩
    · rw [htimes] at ht
      rw [hout.clock]
      exact UInt64.le_trans (h.before t ht) hlater
    · rw [htimes, hout.slots i, if_neg hsent, hout.clock]
      exact h.reaped hlater
    · rw [htimes]
      exact h.budget
    · rw [htimes]
      exact h.spaced

/-! ## Every run -/

/-- A collection with a timestamp that leaves room for the longest interval. -/
def Op.Timely : Op → Prop
  | .collectDue nowUs _ => nowUs.toNat < horizonUs
  | _ => True

instance : DecidablePred Op.Timely := fun op =>
  match op with
  | .collectDue nowUs _ => inferInstanceAs (Decidable (nowUs.toNat < horizonUs))
  | .schedule _ _ _ _ | .onAck _ _ | .cancel _ _ | .cancelPeer _ => .isTrue trivial

/-- Only a collection moves the clock of the table. -/
theorem step_clock {op : Op} {reply : Reply} (inv : Inv m) (timely : op.Timely)
    (hclock : m.lastCollectUs.toNat < horizonUs) (hstep : step op m = .ok (reply, m')) :
    m'.lastCollectUs.toNat < horizonUs := by
  cases op with
  | schedule env maxRetries backoffMs nowUs =>
    obtain ⟨⟨r, m₁⟩, hrun, hdone⟩ := bind_eq_ok.mp hstep
    cases hdone
    rcases schedule_cases hrun with ⟨-, i, -, -, -, hsame⟩ | ⟨-, rfl, -⟩
    · rw [hsame]
      exact hclock
    · exact hclock
  | onAck src msgId =>
    obtain ⟨⟨r, m₁⟩, hrun, hdone⟩ := bind_eq_ok.mp hstep
    cases hdone
    rcases onAck_cases inv hrun with ⟨-, i, -, rfl⟩ | ⟨-, rfl⟩
    · exact hclock
    · exact hclock
  | cancel src msgId =>
    obtain ⟨⟨r, m₁⟩, hrun, hdone⟩ := bind_eq_ok.mp hstep
    cases hdone
    rcases cancel_cases hrun with ⟨-, i, -, rfl⟩ | ⟨-, -, rfl⟩
    · exact hclock
    · exact hclock
  | cancelPeer dst =>
    obtain ⟨⟨n, m₁⟩, hrun, hdone⟩ := bind_eq_ok.mp hstep
    cases hdone
    rw [(cancelPeer_cases hrun).1.lastCollectUs]
    exact hclock
  | collectDue nowUs bufCap =>
    obtain ⟨⟨out, m₁⟩, hrun, hdone⟩ := bind_eq_ok.mp hstep
    cases hdone
    rw [(collectDue_collects hrun).clock]
    exact collectTime_early hclock timely

/-- The table of a run is in order and its clock is early. -/
theorem reached_ready {ops : List Op} {replies : List Reply}
    (allowed : ∀ op ∈ ops, op.WellFormed ∧ op.Timely) (reached : Run.runAll step ops init = .ok (replies, m)) :
    Inv m ∧ Tame m ∧ m.lastCollectUs.toNat < horizonUs := by
  refine Run.runAll_inv (I := fun m => Inv m ∧ Tame m ∧ m.lastCollectUs.toNat < horizonUs) ?_
    ⟨inv_init, tame_init, by decide⟩ reached
  intro op hop m reply m' hready hstep
  obtain ⟨hinv, htame, hclock⟩ := hready
  obtain ⟨reply', m'', hstep', hinv', htame'⟩ := step_total hinv htame (allowed op hop).1
  cases hstep.symm.trans hstep'
  exact ⟨hinv', htame', step_clock hinv (allowed op hop).2 hclock hstep⟩

/-- What a collection does about the entry of slot `i`, after the collections `past`: it sends what it
chose, and with room for the entry it chooses it exactly when expiry, retries and spacing allow. -/
structure Prompt (b : Booking) (i : Fin ackTrackerCapacity) (past : List Step) (s : Step) : Prop where
  outputs : ∀ nowUs bufCap, s.input = .collectDue nowUs bufCap →
    s.outputs = (s.before.chosen s.timeUs bufCap).map fun j => s.before.slots[j].env
  sends : ∀ nowUs bufCap, s.input = .collectDue nowUs bufCap →
    (s.before.ripeSlots s.timeUs i).length < bufCap →
    (s.sends i ↔ timestampExpired b.env.expiryTimeUs s.timeUs = false ∧
      (slotTimes i past).length < b.maxRetries.toNat ∧ b.Due (slotTimes i past) s.timeUs)

/-- The collections of a list of calls. -/
def collections (calls : List (UInt64 × Nat)) : List Op := calls.map fun call => .collectDue call.1 call.2

/-- A table with the entry of a message in slot `i`, after the collections `past`. -/
structure Followed (b : Booking) (i : Fin ackTrackerCapacity) (past : List Step) (m : RetryManager) : Prop where
  inv : Inv m
  tame : Tame m
  life : Life b i past m
  lawful : Run.Lawful (Prompt b i) past

/-- One more collection. -/
theorem Followed.collects (h : Followed b i past m) (hbackoff : b.backoffMs ≤ 60000) {nowUs : UInt64}
    {bufCap : Nat} (wellFormed : (Op.collectDue nowUs bufCap).WellFormed)
    (timely : (Op.collectDue nowUs bufCap).Timely) :
    ∃ reply m', step (.collectDue nowUs bufCap) m = .ok (reply, m') ∧
      Followed b i (past ++ [⟨m, .collectDue nowUs bufCap, reply, m'⟩]) m' := by
  obtain ⟨reply, m', hstep, hinv, htame⟩ := step_total h.inv h.tame wellFormed
  obtain ⟨⟨out, m₁⟩, hcollect, hdone⟩ := bind_eq_ok.mp hstep
  cases hdone
  have hout := collectDue_collects hcollect
  refine ⟨_, m', hstep, hinv, htame, h.life.collects hbackoff timely hout, h.lawful.snoc ⟨?_, ?_⟩⟩
  · intro _ _ hinput
    cases hinput
    exact hout.out
  · intro _ _ hinput hroom
    cases hinput
    have hripe := h.life.ripe_iff hbackoff (m.collectTime_ge nowUs)
    constructor
    · intro hsends
      exact hripe.mp (mem_chosen hsends)
    · intro hallowed
      exact mem_chosen_of_room (hripe.mpr hallowed) hroom

/-- A message that was scheduled in a run, followed through any collections. -/
theorem retries_spaced {ops : List Op} {replies : List Reply}
    (allowed : ∀ op ∈ ops, op.WellFormed ∧ op.Timely) (reached : Run.runAll step ops init = .ok (replies, m))
    (b : Booking) (wellFormed : (Op.schedule b.env b.maxRetries b.backoffMs b.nowUs).WellFormed)
    (scheduled : m.schedule b.env b.maxRetries b.backoffMs b.nowUs = .ok (.ok, m'))
    (calls : List (UInt64 × Nat)) (timely : ∀ op ∈ collections calls, op.WellFormed ∧ op.Timely) :
    ∃ i : Fin ackTrackerCapacity, m.slots[i].active = false ∧ m'.slots[i] = b.entry [] ∧
      ∃ replies' last, Run.runAll step (collections calls) m' = .ok (replies', last) ∧
        Spaced b.backoffMs.toNat (slotTimes i (Run.history step (collections calls) m')) ∧
        Run.Lawful (Prompt b i) (Run.history step (collections calls) m') := by
  obtain ⟨hinv, htame, hclock⟩ := reached_ready allowed reached
  have hbackoff := wellFormed.2.1
  obtain ⟨reply, m₁, hstep, hinv', htame'⟩ := step_total hinv htame wellFormed
  have hbooking : step (.schedule b.env b.maxRetries b.backoffMs b.nowUs) m = .ok (.result .ok, m') :=
    bind_eq_ok.mpr ⟨_, scheduled, rfl⟩
  cases hstep.symm.trans hbooking
  rcases schedule_cases scheduled with ⟨-, i, hfree, hslots, -, hsame⟩ | ⟨hfull, -⟩
  case inr => cases hfull
  have hslot : m'.slots[i] = b.entry [] := by
    rw [hslots, getElem_set_fin, if_pos rfl]
    rfl
  refine ⟨i, hfree, hslot, ?_⟩
  have hlife : Life b i [] m' := by
    refine ⟨by rw [hsame]; exact hclock, fun t ht => ?_, .inl hslot, Nat.zero_le _, fun k last next hk => ?_⟩
    · cases ht
    · cases hk
  have hstart : Followed b i [] m' := ⟨hinv', htame', hlife, Run.Lawful.nil⟩
  obtain ⟨replies', last, hrun, hfollowed⟩ := Run.history_total (I := Followed b i)
    (fun op hop past m h => by
      obtain ⟨hwell, htimely⟩ := timely op hop
      obtain ⟨call, -, rfl⟩ := List.mem_map.mp hop
      exact h.collects hbackoff hwell htimely) hstart
  exact ⟨replies', last, hrun, hfollowed.life.spaced, hfollowed.lawful⟩

/-- A message for one retry after 10 ms, scheduled at time 100. -/
def lateBooking : Booking where
  env := { envelopeInit with messageType := .data, messageId := 7, sourceId := 1 }
  maxRetries := 1
  backoffMs := 10
  nowUs := 100

theorem retries_spaced_late :
    ∃ m' i replies last, init.schedule lateBooking.env 1 10 100 = .ok (.ok, m') ∧
      Run.runAll step (collections [(50, 4), (120, 4), (130, 4)]) m' = .ok (replies, last) ∧
      Spaced 10 (slotTimes i (Run.history step (collections [(50, 4), (120, 4), (130, 4)]) m')) := by
  have hvalid : (Op.schedule lateBooking.env 1 10 100).WellFormed := by decide
  obtain ⟨r, m', hrun, -, -⟩ := schedule_spec inv_init hvalid.1 1 10 100
  rcases schedule_cases hrun with ⟨rfl, -⟩ | ⟨-, -, hfull⟩
  · obtain ⟨i, -, -, replies, last, hcalls, hspaced, -⟩ :=
      retries_spaced (fun _ hop => absurd hop List.not_mem_nil) (rfl : Run.runAll step [] init = .ok ([], init))
        lateBooking hvalid hrun [(50, 4), (120, 4), (130, 4)] (by decide)
    exact ⟨m', i, replies, last, hrun, hcalls, hspaced⟩
  · exact absurd (by simp [init]) (hfull 0)

/-- The message is in the table, the buffer has room, nothing was sent before, a retry is left and there is
no expiry; still a collection at time 50 does not send it. -/
theorem early_collection_waits :
    ∃ s ∈ Run.history step [.schedule lateBooking.env 1 10 100, .collectDue 50 4] init,
      Step.timeUs s = 50 ∧ s.before.slots[(0 : Fin ackTrackerCapacity)].active = true ∧
        s.before.slots[(0 : Fin ackTrackerCapacity)].env.messageId = lateBooking.env.messageId ∧
        (s.before.ripeSlots 50 0).length < 4 ∧ 0 < lateBooking.maxRetries ∧
        timestampExpired lateBooking.env.expiryTimeUs 50 = false ∧ Step.sent s = 0 := by
  decide +kernel

end RetryManager

end MessageEngine
