import Mathlib.Data.List.Basic

/-!
# A slot for one value

A slot is filled and emptied by moves. A history of moves is sound when a value is put only into
an empty slot and only the value that is in the slot is taken out (`Replays`). Of a sound history
nothing is lost: what was put in is, in order, what was taken out and what is still there
(`Replays.puts_eq`).
-/

namespace Slot

variable {α : Type}

inductive Move (α : Type) where
  | put (a : α)
  | take (a : α)

/-- The moves lead the slot from its first content to its last. -/
def Replays : Option α → List (Move α) → Option α → Prop
  | s, [], s' => s' = s
  | s, .put a :: ms, s' => s = none ∧ Replays (some a) ms s'
  | s, .take a :: ms, s' => s = some a ∧ Replays none ms s'

def puts : List (Move α) → List α
  | [] => []
  | .put a :: ms => a :: puts ms
  | .take _ :: ms => puts ms

def takes : List (Move α) → List α
  | [] => []
  | .put _ :: ms => takes ms
  | .take a :: ms => a :: takes ms

theorem Replays.append {ms ms' : List (Move α)} {m s' : Option α} :
    ∀ {s : Option α}, Replays s ms m → Replays m ms' s' → Replays s (ms ++ ms') s' := by
  induction ms with
  | nil =>
    intro s h h'
    cases h
    exact h'
  | cons move ms ih =>
    intro s h h'
    cases move with
    | put a => exact ⟨h.1, ih h.2 h'⟩
    | take a => exact ⟨h.1, ih h.2 h'⟩

/-- Nothing is lost and nothing appears. -/
theorem Replays.puts_eq {ms : List (Move α)} {s' : Option α} :
    ∀ {s : Option α}, Replays s ms s' → s.toList ++ puts ms = takes ms ++ s'.toList := by
  induction ms with
  | nil =>
    intro s h
    cases h
    simp [puts, takes]
  | cons move ms ih =>
    intro s h
    cases move with
    | put a =>
      obtain ⟨rfl, h⟩ := h
      exact ih h
    | take a =>
      obtain ⟨rfl, h⟩ := h
      exact congrArg (a :: ·) (ih h)

end Slot
