import Mathlib.Data.Set.Insert
import Mathlib.Order.Interval.Set.OrdConnected

/-!
# Releasing numbered items in order

A sender numbers its items; they arrive in any order, and a gate passes them on in the order of their
numbers. All the gate remembers of a sender is a lane: the number it passes on next, and the items that
came before their turn. Numbers may run in a circle, so that the successor of a number is a parameter
and need not be larger.

The lane decides by comparing numbers. What that amounts to is said in positions, the places the items
have in the order they were sent. Positions are divided into epochs, and within an epoch the numbers grow
with the positions. As long as every item arrives in the epoch of the one that is due, the lane passes on
exactly the items that have arrived without a gap.

## What is proved

- `Arrives.unique`: what comes out is determined by the lane and the item.
- `Progress.arrives`: the lane is determined by which positions have arrived, and each arrival releases
  the positions that are now without a gap.
-/

namespace Gate

/-- The state of one sender: the number that is due, and the items that came early. -/
@[ext] structure Lane (α : Type) where
  cursor : ℕ
  held : Set α

variable {α : Type} (next : ℕ → ℕ) (num : α → ℕ)

/-- Nothing that waits is due. -/
def Lane.Settled (l : Lane α) : Prop := ∀ y ∈ l.held, num y ≠ l.cursor

/-- The items that are due leave, one after the other, until none is. -/
inductive Drains : Lane α → List α → Lane α → Prop where
  | done {l : Lane α} (settled : l.Settled num) : Drains l [] l
  | more {l l' : Lane α} {y : α} {ys : List α} (held : y ∈ l.held) (due : num y = l.cursor)
      (rest : Drains ⟨next l.cursor, l.held \ {y}⟩ ys l') : Drains l (y :: ys) l'

/-- An item arrives: it passes and lets others pass, or it waits, or it came before. -/
inductive Arrives : Lane α → α → List α → Lane α → Prop where
  | passes {l l' : Lane α} {x : α} {ys : List α} (due : num x = l.cursor)
      (rest : Drains next num ⟨next l.cursor, l.held⟩ ys l') : Arrives l x (x :: ys) l'
  | waits {l : Lane α} {x : α} (ahead : l.cursor < num x) (new : ∀ y ∈ l.held, num y ≠ num x) :
      Arrives l x [] ⟨l.cursor, insert x l.held⟩
  | repeats {l : Lane α} {x : α} (undue : num x ≠ l.cursor)
      (before : num x < l.cursor ∨ ∃ y ∈ l.held, num y = num x) : Arrives l x [] l

variable {next num} {l l₁ l₂ : Lane α} {x : α}

theorem Drains.settled {ys : List α} (h : Drains next num l ys l₁) : l₁.Settled num := by
  induction h with
  | done settled => exact settled
  | more _ _ _ ih => exact ih

theorem Drains.held_subset {ys : List α} (h : Drains next num l ys l₁) : l₁.held ⊆ l.held := by
  induction h with
  | done _ => exact Set.Subset.rfl
  | more _ _ _ ih => exact ih.trans Set.sdiff_subset

theorem Arrives.settled {ys : List α} (settled : l.Settled num) (h : Arrives next num l x ys l₁) :
    l₁.Settled num := by
  cases h with
  | passes due rest => exact rest.settled
  | waits ahead new =>
    intro y hy
    rcases Set.mem_insert_iff.mp hy with rfl | hy
    · exact Nat.ne_of_gt ahead
    · exact settled y hy
  | repeats => exact settled

/-! ## Determinism -/

theorem Drains.unique {ys zs : List α} (inj : Set.InjOn num l.held) (h : Drains next num l ys l₁)
    (h' : Drains next num l zs l₂) : ys = zs ∧ l₁ = l₂ := by
  induction h generalizing zs with
  | done settled =>
    cases h' with
    | done => exact ⟨rfl, rfl⟩
    | more held due => exact absurd due (settled _ held)
  | more held due _ ih =>
    cases h' with
    | done settled => exact absurd due (settled _ held)
    | more held' due' rest' =>
      obtain rfl := inj held held' (due.trans due'.symm)
      obtain ⟨rfl, rfl⟩ := ih (inj.mono Set.sdiff_subset) rest'
      exact ⟨rfl, rfl⟩

/-- What comes out is determined by the lane and the item. -/
theorem Arrives.unique {ys zs : List α} (inj : Set.InjOn num l.held) (h : Arrives next num l x ys l₁)
    (h' : Arrives next num l x zs l₂) : ys = zs ∧ l₁ = l₂ := by
  cases h with
  | passes due rest =>
    cases h' with
    | passes due' rest' =>
      have hrest : Set.InjOn num (⟨next l.cursor, l.held⟩ : Lane α).held := inj
      obtain ⟨rfl, rfl⟩ := rest.unique hrest rest'
      exact ⟨rfl, rfl⟩
    | waits ahead => exact absurd due (Nat.ne_of_gt ahead)
    | repeats undue => exact absurd due undue
  | waits ahead new =>
    cases h' with
    | passes due => exact absurd due (Nat.ne_of_gt ahead)
    | waits => exact ⟨rfl, rfl⟩
    | repeats _ before =>
      rcases before with hlt | ⟨y, hy, hsame⟩
      · exact absurd hlt (Nat.lt_asymm ahead)
      · exact absurd hsame (new y hy)
  | repeats undue before =>
    cases h' with
    | passes due => exact absurd due undue
    | repeats => exact ⟨rfl, rfl⟩
    | waits ahead new =>
      rcases before with hlt | ⟨y, hy, hsame⟩
      · exact absurd hlt (Nat.lt_asymm ahead)
      · exact absurd hsame (new y hy)

/-! ## Positions -/

section Positions

variable {item : ℕ → α} {seq epoch : ℕ → ℕ} {k : ℕ} {arrived : Set ℕ} {d p : ℕ}

/-- A numbering of the first `k` items: every item has the number of its position, numbers follow each
other, and they grow with the positions within an epoch. -/
structure Numbering (next : ℕ → ℕ) (num : α → ℕ) (item : ℕ → α) (seq epoch : ℕ → ℕ) (k : ℕ) : Prop where
  numbered : ∀ q < k, num (item q) = seq q
  succ : ∀ q, next (seq q) = seq (q + 1)
  epochs : Monotone epoch
  grows : ∀ p q, epoch p = epoch q → p < q → seq p < seq q

/-- The items at the positions from `d` on that have arrived. -/
def early (item : ℕ → α) (arrived : Set ℕ) (d : ℕ) : Set α := {x | ∃ q ∈ arrived, d ≤ q ∧ item q = x}

/-- The lane when the positions in `arrived` have arrived and those below `d` have left. -/
structure Reached (item : ℕ → α) (seq epoch : ℕ → ℕ) (k : ℕ) (arrived : Set ℕ) (d : ℕ) (l : Lane α) :
    Prop where
  cursor : l.cursor = seq d
  held : l.held = early item arrived d
  below : ∀ q < d, q ∈ arrived
  near : ∀ q ∈ arrived, d ≤ q → epoch q = epoch d
  sent : ∀ q ∈ arrived, q < k

/-- And the position that is due has not arrived. -/
structure Progress (item : ℕ → α) (seq epoch : ℕ → ℕ) (k : ℕ) (arrived : Set ℕ) (d : ℕ) (l : Lane α) : Prop
    extends Reached item seq epoch k arrived d l where
  due : d ∉ arrived

/-- The items from `d` up to `d'`. -/
def stretch (item : ℕ → α) (d d' : ℕ) : List α := (List.range' d (d' - d)).map item

theorem stretch_self (d : ℕ) : stretch item d d = [] := by
  rw [stretch, Nat.sub_self]
  rfl

theorem stretch_cons {d d' : ℕ} (h : d < d') : stretch item d d' = item d :: stretch item (d + 1) d' := by
  have hlen : d' - d = (d' - (d + 1)) + 1 := by omega
  rw [stretch, hlen, List.range'_succ, List.map_cons]
  rfl

theorem stretch_append {d d' d'' : ℕ} (h : d ≤ d') (h' : d' ≤ d'') :
    stretch item d d' ++ stretch item d' d'' = stretch item d d'' := by
  have hlen : d'' - d = (d' - d) + (d'' - d') := by omega
  have hstart : d' = d + 1 * (d' - d) := by omega
  rw [stretch, stretch, stretch, ← List.map_append, hlen]
  nth_rewrite 2 [hstart]
  rw [List.range'_append]

/-- Between two positions of an epoch there is no other. -/
theorem Numbering.between (n : Numbering next num item seq epoch k) {a b c : ℕ} (h : epoch a = epoch c)
    (hab : a ≤ b) (hbc : b ≤ c) : epoch b = epoch c :=
  Nat.le_antisymm (n.epochs hbc) (h ▸ n.epochs hab)

/-- Within an epoch a number is at one position. -/
theorem Numbering.seq_inj (n : Numbering next num item seq epoch k) (h : epoch p = epoch d)
    (hseq : seq p = seq d) : p = d := by
  rcases Nat.lt_trichotomy p d with hlt | heq | hlt
  · exact absurd hseq (Nat.ne_of_lt (n.grows p d h hlt))
  · exact heq
  · exact absurd hseq (Nat.ne_of_gt (n.grows d p h.symm hlt))

theorem Numbering.lt_of_seq_lt (n : Numbering next num item seq epoch k) (h : epoch p = epoch d)
    (hseq : seq p < seq d) : p < d := by
  rcases Nat.lt_trichotomy p d with hlt | rfl | hlt
  · exact hlt
  · exact absurd hseq (Nat.lt_irrefl _)
  · exact absurd hseq (Nat.lt_asymm (n.grows d p h.symm hlt))

/-- The position that is due leaves. -/
theorem Reached.advance (n : Numbering next num item seq epoch k) (h : Reached item seq epoch k arrived d l)
    (hd : d ∈ arrived) : Reached item seq epoch k arrived (d + 1) ⟨next l.cursor, l.held \ {item d}⟩ where
  cursor := by rw [h.cursor, n.succ]
  held := by
    rw [h.held]
    ext x
    constructor
    · rintro ⟨⟨q, hq, hle, rfl⟩, hne⟩
      refine ⟨q, hq, Nat.lt_of_le_of_ne hle ?_, rfl⟩
      rintro rfl
      exact hne rfl
    · rintro ⟨q, hq, hlt, rfl⟩
      refine ⟨⟨q, hq, Nat.le_of_succ_le hlt, rfl⟩, fun hsame => ?_⟩
      -- Two items of an epoch have different numbers.
      have hnum := congrArg num hsame
      rw [n.numbered q (h.sent q hq), n.numbered d (h.sent d hd)] at hnum
      have heq := n.seq_inj (h.near q hq (Nat.le_of_succ_le hlt)) hnum
      omega
  below := fun q hq => by
    rcases Nat.lt_succ_iff_lt_or_eq.mp hq with hlt | rfl
    · exact h.below q hlt
    · exact hd
  near := fun q hq hle => by
    have hnear := h.near q hq (Nat.le_of_succ_le hle)
    exact (n.between hnear.symm (Nat.le_succ d) hle).symm
  sent := h.sent

/-- Draining releases the positions that are without a gap. -/
theorem Reached.drains {ys : List α} (n : Numbering next num item seq epoch k)
    (h : Reached item seq epoch k arrived d l) (drains : Drains next num l ys l₁) :
    ∃ d', d ≤ d' ∧ Progress item seq epoch k arrived d' l₁ ∧ ys = stretch item d d' := by
  induction drains generalizing d with
  | done settled =>
    refine ⟨d, Nat.le_refl d, ⟨h, fun hd => ?_⟩, (stretch_self d).symm⟩
    refine settled (item d) ?_ ((n.numbered d (h.sent d hd)).trans h.cursor.symm)
    rw [h.held]
    exact ⟨d, hd, Nat.le_refl d, rfl⟩
  | more held due rest ih =>
    rw [h.held] at held
    obtain ⟨q, hq, hle, rfl⟩ := held
    rw [n.numbered q (h.sent q hq), h.cursor] at due
    obtain rfl := n.seq_inj (h.near q hq hle) due
    obtain ⟨d', hle', hprogress, rfl⟩ := ih (h.advance n hq)
    exact ⟨d', Nat.le_of_succ_le hle', hprogress, (stretch_cons hle').symm⟩

/-- An item that arrives in the epoch of the one that is due releases the positions that are now without
a gap. -/
theorem Progress.arrives {ys : List α} (n : Numbering next num item seq epoch k)
    (h : Progress item seq epoch k arrived d l) (hk : p < k) (hp : epoch p = epoch d)
    (arrives : Arrives next num l (item p) ys l₁) :
    ∃ d', d ≤ d' ∧ Progress item seq epoch k (insert p arrived) d' l₁ ∧ ys = stretch item d d' := by
  have hsent : ∀ q ∈ insert p arrived, q < k := by
    rintro q (rfl | hq)
    · exact hk
    · exact h.sent q hq
  cases arrives with
  | passes due rest =>
    rw [n.numbered p hk, h.cursor] at due
    obtain rfl := n.seq_inj hp due
    have hreached : Reached item seq epoch k (insert p arrived) (p + 1) ⟨next l.cursor, l.held⟩ := by
      refine ⟨by rw [h.cursor, n.succ], ?_, fun q hq => ?_, fun q hq hle => ?_, hsent⟩
      · rw [h.held]
        ext x
        constructor
        · rintro ⟨q, hq, hle, rfl⟩
          refine ⟨q, .inr hq, Nat.lt_of_le_of_ne hle ?_, rfl⟩
          rintro rfl
          exact h.due hq
        · rintro ⟨q, rfl | hq, hlt, rfl⟩
          · exact absurd hlt (Nat.lt_irrefl _)
          · exact ⟨q, hq, Nat.le_of_succ_le hlt, rfl⟩
      · rcases Nat.lt_succ_iff_lt_or_eq.mp hq with hlt | rfl
        · exact .inr (h.below q hlt)
        · exact .inl rfl
      · rcases hq with rfl | hq
        · exact absurd hle (Nat.lt_irrefl _)
        · exact (n.between (h.near q hq (Nat.le_of_succ_le hle)).symm (Nat.le_succ p) hle).symm
    obtain ⟨d', hle, hprogress, rfl⟩ := hreached.drains n rest
    exact ⟨d', Nat.le_of_succ_le hle, hprogress, (stretch_cons hle).symm⟩
  | waits ahead new =>
    rw [n.numbered p hk, h.cursor] at ahead
    have hlt := n.lt_of_seq_lt hp.symm ahead
    refine ⟨d, Nat.le_refl d, ⟨⟨h.cursor, ?_, fun q hq => .inr (h.below q hq), fun q hq hle => ?_, hsent⟩, ?_⟩,
      (stretch_self d).symm⟩
    · change insert (item p) l.held = _
      rw [h.held]
      ext x
      constructor
      · rintro (rfl | ⟨q, hq, hle, rfl⟩)
        · exact ⟨p, .inl rfl, Nat.le_of_lt hlt, rfl⟩
        · exact ⟨q, .inr hq, hle, rfl⟩
      · rintro ⟨q, rfl | hq, hle, rfl⟩
        · exact .inl rfl
        · exact .inr ⟨q, hq, hle, rfl⟩
    · rcases hq with rfl | hq
      · exact hp
      · exact h.near q hq hle
    · rintro (rfl | hd)
      · exact absurd hlt (Nat.lt_irrefl _)
      · exact h.due hd
  | repeats undue before =>
    have hmem : p ∈ arrived := by
      rw [n.numbered p hk, h.cursor] at before
      rcases before with hlt | ⟨y, hy, hsame⟩
      · exact h.below p (n.lt_of_seq_lt hp hlt)
      · rw [h.held] at hy
        obtain ⟨q, hq, hle, rfl⟩ := hy
        rw [n.numbered q (h.sent q hq)] at hsame
        obtain rfl := n.seq_inj ((h.near q hq hle).trans hp.symm) hsame
        exact hq
    rw [Set.insert_eq_of_mem hmem]
    exact ⟨d, Nat.le_refl d, h, (stretch_self d).symm⟩

/-- No more leave than were sent. -/
theorem Progress.le (h : Progress item seq epoch k arrived d l) : d ≤ k :=
  Nat.not_lt.mp fun hlt => Nat.lt_irrefl k (h.sent k (h.below k hlt))

/-- When all have arrived, all have left. -/
theorem Progress.complete (h : Progress item seq epoch k arrived d l) (hall : ∀ q < k, q ∈ arrived) :
    d = k ∧ l.held = ∅ := by
  have hge : k ≤ d := Nat.not_lt.mp fun hlt => h.due (hall d hlt)
  refine ⟨Nat.le_antisymm h.le hge, ?_⟩
  rw [h.held, Set.eq_empty_iff_forall_notMem]
  rintro x ⟨q, hq, hdq, -⟩
  have hlt := h.sent q hq
  omega

/-- Every item of the order arrives in the epoch of the position that is due then: the first one that has
not arrived. -/
def SameEpoch (epoch : ℕ → ℕ) : Set ℕ → List ℕ → Prop
  | _, [] => True
  | arrived, p :: ps =>
    (∀ d, (∀ q < d, q ∈ arrived) → d ∉ arrived → epoch p = epoch d) ∧ SameEpoch epoch (insert p arrived) ps

/-- When all positions behind those that have arrived are in one epoch, their order does not matter. -/
theorem sameEpoch_of_const {e a : ℕ} {order : List ℕ} (h : ∀ q, a ≤ q → q ≤ k → epoch q = e)
    (done : ∀ q < a, q ∈ arrived) (sent : ∀ q ∈ arrived, q < k) (hk : ∀ q ∈ order, a ≤ q ∧ q < k) :
    SameEpoch epoch arrived order := by
  induction order generalizing arrived with
  | nil => trivial
  | cons p ps ih =>
    obtain ⟨hap, hp⟩ := hk p List.mem_cons_self
    refine ⟨fun d hbelow hdue => ?_,
      ih (fun q hq => .inr (done q hq)) ?_ fun q hq => hk q (List.mem_cons_of_mem p hq)⟩
    · have hd : d ≤ k := Nat.not_lt.mp fun hlt => Nat.lt_irrefl k (sent k (hbelow k hlt))
      have had : a ≤ d := Nat.not_lt.mp fun hlt => hdue (done d hlt)
      rw [h p hap (Nat.le_of_lt hp), h d had hd]
    · rintro q (rfl | hq)
      · exact hp
      · exact sent q hq

end Positions

end Gate
